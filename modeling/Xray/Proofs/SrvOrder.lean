import Xray.Dns.SystemRecords

/-!
# The order of SRV records

`Shuffled` says how the records of one priority are placed: as long as there is weight to draw
from, the next one is the first whose running weight exceeds what was drawn, and the record that
stood first takes its place among those that remain. No sum leaves a `u32`, because 65535 weights
of sixteen bits do not.
-/

namespace Xray.Dns

open List SrvRecord

def weights (records : List SrvRecord) : Nat := (records.map fun record => record.weight.toNat).sum

namespace SrvRecord

variable {a b c : SrvRecord}

lemma keyLe_iff : a.keyLe b ↔ a.priority < b.priority ∨
    a.priority = b.priority ∧ a.weight ≤ b.weight := by
  simp [keyLe]

lemma keyLe_trans (a b c : SrvRecord) (h : a.keyLe b) (h' : b.keyLe c) :
    a.keyLe c := by
  rw [keyLe_iff] at h h' ⊢
  simp only [UInt16.lt_iff_toNat_lt, UInt16.le_iff_toNat_le, ← UInt16.toNat_inj] at h h' ⊢
  omega

lemma keyLe_total (a b : SrvRecord) : (a.keyLe b || b.keyLe a) = true := by
  rw [Bool.or_eq_true, keyLe_iff, keyLe_iff]
  simp only [UInt16.lt_iff_toNat_lt, UInt16.le_iff_toNat_le, ← UInt16.toNat_inj]
  omega

lemma priority_le_of_keyLe (h : a.keyLe b) : a.priority ≤ b.priority := by
  rw [keyLe_iff] at h
  simp only [UInt16.lt_iff_toNat_lt, UInt16.le_iff_toNat_le, ← UInt16.toNat_inj] at h ⊢
  omega

end SrvRecord

@[simp] lemma weights_nil : weights [] = 0 := rfl

@[simp] lemma weights_cons (record : SrvRecord) (records : List SrvRecord) :
    weights (record :: records) = record.weight.toNat + weights records := rfl

variable {records : List SrvRecord}

lemma weights_le (records : List SrvRecord) : weights records ≤ records.length * 65535 := by
  induction records with
  | nil => exact Nat.le_refl 0
  | cons record records ih =>
    have := record.weight.toNat_lt
    rw [weights_cons, length_cons]
    omega

lemma sumOfWeights_eq (h : weights records < 2 ^ 32) :
    sumOfWeights records = some (weights records) := by
  have hfold : ∀ (records : List SrvRecord) sum, sum + weights records < 2 ^ 32 →
      records.foldlM (fun sum record => addU32 sum record.weight.toNat) sum =
        some (sum + weights records) := by
    intro records
    induction records with
    | nil => exact fun sum _ => rfl
    | cons record records ih =>
      intro sum hsum
      rw [weights_cons] at hsum ⊢
      rw [foldlM_cons, addU32, if_pos (by omega)]
      exact (ih _ (by omega)).trans (by rw [Nat.add_assoc])
  rw [sumOfWeights, hfold records 0 (by omega), Nat.zero_add]

/-- What was drawn is exceeded somewhere, and nowhere before. -/
lemma firstAbove_spec {pick running : Nat} (hle : running ≤ pick)
    (hlt : pick < running + weights records) (hsum : running + weights records < 2 ^ 32) :
    ∃ before first after, records = before ++ first :: after ∧
      firstAbove pick running records = some (some before.length) ∧
      running + weights before ≤ pick ∧
      pick < running + weights before + first.weight.toNat := by
  induction records generalizing running with
  | nil => exact absurd hlt (by rw [weights_nil]; omega)
  | cons record records ih =>
    rw [weights_cons] at hlt hsum
    rw [firstAbove, addU32, if_pos (by omega)]
    by_cases habove : running + record.weight.toNat > pick
    · refine ⟨[], record, records, rfl, ?_, hle, habove⟩
      simp [habove]
    obtain ⟨before, first, after, rfl, hfound, hbefore, hfirst⟩ :=
      @ih (running + record.weight.toNat) (by omega) (by omega) (by omega)
    refine ⟨record :: before, first, after, rfl, ?_, ?_, ?_⟩
    · simp [habove, hfound]
    all_goals
      rw [weights_cons]
      omega

lemma swapFirst_eq (before : List SrvRecord) (first : SrvRecord) (after : List SrvRecord) :
    swapFirst (before ++ first :: after) before.length =
      some (first :: (before.tail ++ before.take 1 ++ after)) := by
  cases before with
  | nil => rfl
  | cons head before => simp [swapFirst]

/-- How the records of one priority are placed. -/
inductive Shuffled {σ : Type} (draw : σ → Nat → Nat × σ) :
    σ → List SrvRecord → List SrvRecord → σ → Prop where
  /-- No weight is left, or one record. -/
  | rest {state records} (h : weights records = 0 ∨ records.length ≤ 1) :
    Shuffled draw state records records state
  | pick {state before first after placed state'}
    (hbefore : weights before ≤ (draw state (weights (before ++ first :: after))).1)
    (hfirst : (draw state (weights (before ++ first :: after))).1 <
      weights before + first.weight.toNat)
    (h : Shuffled draw (draw state (weights (before ++ first :: after))).2
      (before.tail ++ before.take 1 ++ after) placed state') :
    Shuffled draw state (before ++ first :: after) (first :: placed) state'

/-- The groups of equal priority, each placed in its turn. -/
inductive Grouped {σ : Type} (draw : σ → Nat → Nat × σ) :
    σ → List SrvRecord → List SrvRecord → σ → Prop where
  | nil {state} : Grouped draw state [] [] state
  | group {state group rest placed state₁ placed' state'} {priority : UInt16}
    (hgroup : ∀ record ∈ group, record.priority = priority)
    (hrest : ∀ record ∈ rest, priority < record.priority)
    (h : Shuffled draw state group placed state₁) (h' : Grouped draw state₁ rest placed' state') :
    Grouped draw state (group ++ rest) (placed ++ placed') state'

variable {σ : Type} {draw : σ → Nat → Nat × σ} {state state' : σ} {result : List SrvRecord}

lemma perm_middle (before : List SrvRecord) (first : SrvRecord) (after : List SrvRecord) :
    (first :: (before.tail ++ before.take 1 ++ after)).Perm (before ++ first :: after) := by
  refine .trans (.cons first (.append_right after ?_)) List.perm_middle.symm
  cases before with
  | nil => exact .refl _
  | cons head before => exact perm_append_comm

lemma Shuffled.perm (h : Shuffled draw state records result state') : result.Perm records := by
  induction h with
  | rest => exact .refl _
  | pick _ _ _ ih => exact (ih.cons _).trans (perm_middle _ _ _)

lemma shuffleLoop_spec (hdraw : ∀ state sum, 0 < sum → (draw state sum).1 < sum) (state : σ)
    {n : Nat} (hn : records.length ≤ n) (hsum : weights records < 2 ^ 32) :
    ∃ result state', shuffleLoop draw n state (weights records) records = some (result, state') ∧
      Shuffled draw state records result state' := by
  induction n generalizing state records with
  | zero =>
    obtain rfl := eq_nil_of_length_eq_zero (Nat.le_zero.mp hn)
    exact ⟨[], state, by simp [shuffleLoop], .rest (.inl rfl)⟩
  | succ n ih =>
    rw [shuffleLoop]
    by_cases hmore : weights records > 0 ∧ records.length > 1
    · rw [if_pos hmore]
      obtain ⟨before, first, after, rfl, hfound, hbefore, hfirst⟩ := firstAbove_spec (Nat.zero_le _)
          (by rw [Nat.zero_add]; exact hdraw state _ hmore.1) (by rwa [Nat.zero_add])
      rw [Nat.zero_add] at hbefore hfirst
      have hperm := perm_middle before first after
      have hlength := hperm.length_eq
      have hweights : weights (first :: (before.tail ++ before.take 1 ++ after)) =
          weights (before ++ first :: after) := (hperm.map _).sum_nat
      rw [length_cons] at hlength
      rw [weights_cons] at hweights
      obtain ⟨placed, state', hloop, hplaced⟩ := @ih (before.tail ++ before.take 1 ++ after)
          (draw state (weights (before ++ first :: after))).2 (by omega) (by omega)
      refine ⟨first :: placed, state', ?_, .pick hbefore hfirst hplaced⟩
      have hrest : weights (before ++ first :: after) - first.weight.toNat =
          weights (before.tail ++ before.take 1 ++ after) := by omega
      have hfirstLe : first.weight.toNat ≤ weights (before ++ first :: after) := by omega
      simp only [hfound, swapFirst_eq, Option.bind_eq_bind, Option.bind_some,
        getElem?_cons_zero, tail_cons, subU32, if_pos hfirstLe, hrest, hloop]
      rfl
    · rw [if_neg hmore]
      exact ⟨records, state, rfl, .rest (by omega)⟩

lemma Grouped.perm (h : Grouped draw state records result state') : result.Perm records := by
  induction h with
  | nil => exact .refl _
  | group _ _ h _ ih => exact h.perm.append ih

lemma Grouped.sorted (h : Grouped draw state records result state') :
    result.Pairwise fun a b => a.priority ≤ b.priority := by
  induction h with
  | nil => exact .nil
  | group hgroup hrest h h' ih =>
    refine pairwise_append.mpr ⟨?_, ih, fun a ha b hb => ?_⟩
    · refine pairwise_of_forall_mem_list fun a ha b hb => ?_
      rw [hgroup a (h.perm.mem_iff.mp ha), hgroup b (h.perm.mem_iff.mp hb)]
      exact UInt16.le_refl _
    · rw [hgroup a (h.perm.mem_iff.mp ha)]
      exact UInt16.le_of_lt (hrest b (h'.perm.mem_iff.mp hb))

lemma lt_of_mem_dropWhile {priority : UInt16} {record : SrvRecord}
    (hsorted : records.Pairwise fun a b => a.priority ≤ b.priority)
    (hle : ∀ record ∈ records, priority ≤ record.priority)
    (h : record ∈ records.dropWhile (·.priority == priority)) : priority < record.priority := by
  induction records with
  | nil => cases h
  | cons next records ih =>
    obtain ⟨hnext, hsorted⟩ := pairwise_cons.mp hsorted
    by_cases hsame : (next.priority == priority) = true
    · rw [dropWhile_cons, if_pos hsame] at h
      exact ih hsorted (fun record hrecord => hle record (mem_cons_of_mem _ hrecord)) h
    rw [dropWhile_cons, if_neg hsame] at h
    have hlt : priority < next.priority :=
      UInt16.lt_of_le_of_ne (hle next mem_cons_self) fun heq => hsame (by simp [heq])
    rcases mem_cons.mp h with rfl | h
    · exact hlt
    · exact UInt16.lt_of_lt_of_le hlt (hnext record h)

lemma sortLoop_spec (hdraw : ∀ state sum, 0 < sum → (draw state sum).1 < sum) (state : σ)
    {n : Nat} (hn : records.length ≤ n) (hlength : records.length ≤ 65535)
    (hsorted : records.Pairwise fun a b => a.priority ≤ b.priority) :
    ∃ result state', sortLoop draw n state records = some (result, state') ∧
      Grouped draw state records result state' := by
  induction n generalizing state records with
  | zero =>
    obtain rfl := eq_nil_of_length_eq_zero (Nat.le_zero.mp hn)
    exact ⟨[], state, rfl, .nil⟩
  | succ n ih =>
    cases records with
    | nil => exact ⟨[], state, rfl, .nil⟩
    | cons first records =>
      let same := fun record : SrvRecord => record.priority == first.priority
      have hsplit : (first :: records).takeWhile same ++ (first :: records).dropWhile same =
        first :: records := takeWhile_append_dropWhile
      have hfirst : same first = true := beq_self_eq_true _
      have hshort : ((first :: records).dropWhile same).length ≤ records.length := by
        rw [dropWhile_cons_of_pos hfirst]
        exact (dropWhile_suffix _).length_le
      have hwithin : ((first :: records).takeWhile same).length ≤ (first :: records).length :=
        (List.takeWhile_prefix _).length_le
      rw [length_cons] at hn hlength hwithin
      have hgroup : ∀ record ∈ (first :: records).takeWhile same,
          record.priority = first.priority :=
        fun record hrecord => eq_of_beq (all_eq_true.mp all_takeWhile record hrecord)
      have hleast : ∀ record ∈ first :: records, first.priority ≤ record.priority := by
        intro record hrecord
        rcases mem_cons.mp hrecord with rfl | hrecord
        · exact UInt16.le_refl _
        · exact (pairwise_cons.mp hsorted).1 record hrecord
      have hrest : ∀ record ∈ (first :: records).dropWhile same, first.priority < record.priority :=
        fun record hrecord => lt_of_mem_dropWhile hsorted hleast hrecord
      have hsum := weights_le ((first :: records).takeWhile same)
      have hsum' : weights ((first :: records).takeWhile same) < 2 ^ 32 := by omega
      obtain ⟨placed, state₁, hplaced, hshuffled⟩ :=
        shuffleLoop_spec hdraw state (Nat.le_refl _) hsum'
      obtain ⟨placed', state', hloop, hgrouped⟩ := @ih ((first :: records).dropWhile same) state₁
        (by omega) (by omega) (hsorted.sublist (dropWhile_sublist _))
      refine ⟨placed ++ placed', state', ?_, ?_⟩
      · have hgroup : shuffleByWeight draw state ((first :: records).takeWhile same) =
            some (placed, state₁) := by
          rw [shuffleByWeight, sumOfWeights_eq hsum']
          exact hplaced
        rw [sortLoop]
        simp only [Option.bind_eq_bind, Option.pure_def]
        rw [hgroup, Option.bind_some, hloop, Option.bind_some]
      · have hall := Grouped.group hgroup hrest hshuffled hgrouped
        rwa [hsplit] at hall

/-- Records in any number up to 65535 are sorted without a panic, whatever is drawn. The result
has the records in the order of their priorities; inside a priority each next one is the first, in
the stable order by priority and weight, whose running weight among those not placed exceeds what
was drawn, as long as these have weight. -/
theorem srv_records_in_order {σ : Type} {draw : σ → Nat → Nat × σ}
    (hdraw : ∀ state sum, 0 < sum → (draw state sum).1 < sum) (state : σ)
    {records : List SrvRecord} (hlength : records.length ≤ 65535) :
    ∃ result state', sortByPriorityWeight draw state records = some (result, state') ∧
      result.Perm records ∧ (result.Pairwise fun a b => a.priority ≤ b.priority) ∧
      Grouped draw state (records.mergeSort keyLe) result state' := by
  have hperm := mergeSort_perm records keyLe
  have hsorted : (records.mergeSort keyLe).Pairwise fun a b => a.priority ≤ b.priority :=
    (pairwise_mergeSort keyLe_trans keyLe_total records).imp
      priority_le_of_keyLe
  obtain ⟨result, state', hloop, hgrouped⟩ := sortLoop_spec hdraw state
    (Nat.le_of_eq hperm.length_eq) (by rw [hperm.length_eq]; exact hlength) hsorted
  exact ⟨result, state', hloop, hgrouped.perm.trans hperm, hgrouped.sorted, hgrouped⟩

def sampleRecords : List SrvRecord :=
  [⟨"a.example", 443, 10, 60⟩, ⟨"b.example", 443, 10, 20⟩, ⟨"c.example", 443, 5, 0⟩]

def highest (state : Unit) (sum : Nat) : Nat × Unit := (sum - 1, state)

theorem srv_records_in_order_sample : ∃ result,
    sortByPriorityWeight highest () sampleRecords = some (result, ()) ∧
      result.Perm sampleRecords := by
  have hdraw : ∀ state sum, 0 < sum → (highest state sum).1 < sum :=
    fun _ _ hsum => Nat.sub_one_lt_of_lt hsum
  obtain ⟨result, ⟨⟩, hsort, hperm, -⟩ :=
    srv_records_in_order hdraw () (show sampleRecords.length ≤ 65535 by decide)
  exact ⟨result, hsort, hperm⟩

end Xray.Dns
