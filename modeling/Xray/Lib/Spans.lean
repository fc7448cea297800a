import Mathlib.Order.SuccPred.Basic
import Mathlib.Data.List.Sort
import Mathlib.Data.List.TakeWhile

/-!
# Closed spans of a linear order, and their normal form

A finite union of closed spans has one list that describes it best: spans in
increasing order, none touching the next. This file is about that list. The
order is any linear order with a successor, and a greatest element is allowed,
so that the successor of the top is the top itself: that is the saturating
step fixed-width addresses take, and it is why two spans count as touching
when the second starts no later than the successor of the first's end.

`coalesce` is the one sweep that produces the list from spans sorted by start.
`separated_coalesce` says the sweep's output is in normal form,
`cover_coalesce` that it covers the same points, and `Separated.unique` that
the normal form is a function of the covered points and of nothing else.
Membership in a normal form is decided by the last span that starts early
enough, which is `Separated.mem_cover_iff`.
-/

namespace Spans

open List

/-- A closed span, both ends included. -/
structure Span (α : Type*) where
  start : α
  stop : α
deriving DecidableEq

variable {α : Type*} [LinearOrder α]

def Span.contains (r : Span α) (a : α) : Bool :=
  decide (r.start ≤ a) && decide (a ≤ r.stop)

variable {r : Span α} {a : α}

lemma Span.contains_iff : r.contains a ↔ r.start ≤ a ∧ a ≤ r.stop := by
  simp [Span.contains]

def cover (rs : List (Span α)) : Set α := {a | ∃ r ∈ rs, r.contains a = true}

variable {rs : List (Span α)}

lemma mem_cover : a ∈ cover rs ↔ ∃ r ∈ rs, r.contains a := Iff.rfl

@[simp] lemma cover_nil : cover ([] : List (Span α)) = ∅ := by
  ext a; simp [cover]

lemma mem_cover_cons : a ∈ cover (r :: rs) ↔ (r.start ≤ a ∧ a ≤ r.stop) ∨ a ∈ cover rs := by
  simp [cover, Span.contains_iff]

lemma cover_perm {ss : List (Span α)} (h : rs.Perm ss) : cover rs = cover ss := by
  ext a
  simp only [mem_cover, h.mem_iff]

/-- A list covers nothing exactly when it is empty, as long as no span in it
is inverted. -/
lemma cover_eq_empty_iff (hproper : ∀ r ∈ rs, r.start ≤ r.stop) : cover rs = ∅ ↔ rs = [] := by
  cases rs with
  | nil => simp
  | cons r rs =>
    have hmem : r.start ∈ cover (r :: rs) :=
      mem_cover_cons.mpr (.inl ⟨le_refl _, hproper r (by simp)⟩)
    constructor
    · intro h
      rw [h] at hmem
      exact absurd hmem (Set.notMem_empty _)
    · intro h
      simp at h

/-- Sortedness as the sweep needs it: starts in order, and no span inverted. -/
structure Swept (rs : List (Span α)) : Prop where
  proper : ∀ r ∈ rs, r.start ≤ r.stop
  sorted : rs.Pairwise fun r s => r.start ≤ s.start

variable {cur : Span α}

lemma Swept.grow {rest : List (Span α)} (h : Swept (cur :: r :: rest)) :
    Swept (⟨cur.start, max cur.stop r.stop⟩ :: rest) := by
  obtain ⟨hproper, hsorted⟩ := h
  rw [pairwise_cons] at hsorted
  refine ⟨?_, pairwise_cons.mpr ⟨?_, (pairwise_cons.mp hsorted.2).2⟩⟩
  · intro s hs
    rcases mem_cons.mp hs with rfl | hs
    · exact (hproper cur (by simp)).trans (le_max_left _ _)
    · exact hproper s (by simp [hs])
  · intro s hs
    exact hsorted.1 s (by simp [hs])

lemma Swept.tail {rest : List (Span α)} (h : Swept (cur :: rest)) : Swept rest :=
  ⟨fun s hs => h.proper s (mem_cons_of_mem _ hs), (pairwise_cons.mp h.sorted).2⟩

variable [SuccOrder α]

/-- The normal form: every span the right way round, in increasing order, and
a gap of at least one point between one span and the next. -/
structure Separated (rs : List (Span α)) : Prop where
  proper : ∀ r ∈ rs, r.start ≤ r.stop
  gaps : rs.Pairwise fun r s => Order.succ r.stop < s.start

lemma Separated.tail (h : Separated (r :: rs)) : Separated rs :=
  ⟨fun s hs => h.proper s (mem_cons_of_mem _ hs), (pairwise_cons.mp h.gaps).2⟩

lemma Separated.lt_of_mem_tail {s : Span α} (h : Separated (r :: rs)) (hs : s ∈ rs) :
    r.stop < s.start :=
  lt_of_le_of_lt (Order.le_succ _) ((pairwise_cons.mp h.gaps).1 s hs)

lemma Separated.lt_of_mem_cover_tail (h : Separated (r :: rs)) (ha : a ∈ cover rs) :
    Order.succ r.stop < a := by
  obtain ⟨s, hs, hsa⟩ := mem_cover.mp ha
  exact lt_of_lt_of_le ((pairwise_cons.mp h.gaps).1 s hs) (Span.contains_iff.mp hsa).1

lemma Separated.start_le (h : Separated (r :: rs)) (ha : a ∈ cover (r :: rs)) : r.start ≤ a := by
  rcases mem_cover_cons.mp ha with hr | hrs
  · exact hr.1
  · have hproper := h.proper r (by simp)
    have hlt := lt_of_le_of_lt (Order.le_succ _) (h.lt_of_mem_cover_tail hrs)
    exact (lt_of_le_of_lt hproper hlt).le

lemma Separated.start_mem (h : Separated (r :: rs)) : r.start ∈ cover (r :: rs) :=
  mem_cover_cons.mpr (.inl ⟨le_refl _, h.proper r (by simp)⟩)

/-- Of two normal forms with the same points, neither head ends before the
other: the point just past the shorter one would be covered on one side only. -/
lemma Separated.stop_le {s : Span α} {ss : List (Span α)} (hr : Separated (r :: rs))
    (hstart : r.start = s.start) (hc : cover (r :: rs) = cover (s :: ss)) : s.stop ≤ r.stop := by
  by_contra hlt
  rw [not_le] at hlt
  have hnext : Order.succ r.stop ≤ s.stop := Order.succ_le_of_lt hlt
  have hgrow : r.stop < Order.succ r.stop := Order.lt_succ_of_not_isMax hlt.not_isMax
  have hmem : Order.succ r.stop ∈ cover (s :: ss) := by
    refine mem_cover_cons.mpr (.inl ⟨?_, hnext⟩)
    rw [← hstart]
    exact (hr.proper r (by simp)).trans hgrow.le
  rw [← hc] at hmem
  rcases mem_cover_cons.mp hmem with hin | hin
  · exact absurd hin.2 (not_le.mpr hgrow)
  · exact absurd (hr.lt_of_mem_cover_tail hin) (lt_irrefl _)

lemma Separated.mem_cover_tail (h : Separated (r :: rs)) :
    a ∈ cover rs ↔ a ∈ cover (r :: rs) ∧ r.stop < a := by
  constructor
  · intro ha
    exact ⟨mem_cover_cons.mpr (.inr ha),
      lt_of_le_of_lt (Order.le_succ _) (h.lt_of_mem_cover_tail ha)⟩
  · rintro ⟨ha, hlt⟩
    rcases mem_cover_cons.mp ha with hin | hin
    · exact absurd hin.2 (not_le.mpr hlt)
    · exact hin

/-- The normal form is determined by the points it covers. -/
lemma Separated.unique : ∀ {rs ss : List (Span α)}, Separated rs → Separated ss →
    cover rs = cover ss → rs = ss := by
  intro rs
  induction rs with
  | nil =>
    intro ss _ hs hc
    rw [cover_nil] at hc
    exact ((cover_eq_empty_iff hs.proper).mp hc.symm).symm
  | cons r rs ih =>
    intro ss hr hs hc
    cases ss with
    | nil =>
      rw [cover_nil] at hc
      exact absurd ((cover_eq_empty_iff hr.proper).mp hc) (by simp)
    | cons s ss =>
      have hstart : r.start = s.start := by
        refine le_antisymm (hr.start_le ?_) (hs.start_le ?_)
        · rw [hc]; exact hs.start_mem
        · rw [← hc]; exact hr.start_mem
      have hstop : r.stop = s.stop :=
        le_antisymm (hs.stop_le hstart.symm hc.symm) (hr.stop_le hstart hc)
      have htail : cover rs = cover ss := by
        ext a
        rw [hr.mem_cover_tail, hs.mem_cover_tail, hc, hstop]
      rw [ih hr.tail hs.tail htail]
      cases r
      cases s
      simp_all

/-- One sweep over spans sorted by start. `cur` is the span being grown: a
span that starts no later than just past it is swallowed, anything else
closes it. -/
def coalesce (cur : Span α) : List (Span α) → List (Span α)
  | [] => [cur]
  | r :: rest =>
    if r.start ≤ Order.succ cur.stop then
      coalesce ⟨cur.start, max cur.stop r.stop⟩ rest
    else
      cur :: coalesce r rest

/-- A swallowed span adds no point the grown span does not have, and none is
invented between the two: they overlap, or one starts right after the other. -/
lemma mem_grow_iff (hle : cur.start ≤ r.start) (htouch : r.start ≤ Order.succ cur.stop) :
    (cur.start ≤ a ∧ a ≤ max cur.stop r.stop) ↔
      (cur.start ≤ a ∧ a ≤ cur.stop) ∨ (r.start ≤ a ∧ a ≤ r.stop) := by
  constructor
  · rintro ⟨hlo, hhi⟩
    rcases le_total a cur.stop with hin | hpast
    · exact .inl ⟨hlo, hin⟩
    rcases hpast.eq_or_lt with heq | hlt
    · exact .inl ⟨hlo, heq.ge⟩
    refine .inr ⟨htouch.trans (Order.succ_le_of_lt hlt), ?_⟩
    rcases le_max_iff.mp hhi with h | h
    · exact absurd h (not_le.mpr hlt)
    · exact h
  · rintro (⟨hlo, hhi⟩ | ⟨hlo, hhi⟩)
    · exact ⟨hlo, hhi.trans (le_max_left _ _)⟩
    · exact ⟨hle.trans hlo, hhi.trans (le_max_right _ _)⟩

lemma cover_coalesce : ∀ (rest : List (Span α)) (cur : Span α),
    Swept (cur :: rest) → cover (coalesce cur rest) = cover (cur :: rest) := by
  intro rest
  induction rest with
  | nil =>
    intro cur _
    rw [coalesce]
  | cons r rest ih =>
    intro cur h
    have hle : cur.start ≤ r.start := (pairwise_cons.mp h.sorted).1 r (by simp)
    rw [coalesce]
    split
    · rename_i htouch
      rw [ih _ h.grow]
      ext a
      rw [mem_cover_cons, mem_cover_cons, mem_cover_cons, mem_grow_iff hle htouch, or_assoc]
    · ext a
      rw [mem_cover_cons, mem_cover_cons, ih _ h.tail]

lemma start_le_of_mem_coalesce : ∀ (rest : List (Span α)) (cur s : Span α),
    Swept (cur :: rest) → s ∈ coalesce cur rest → cur.start ≤ s.start := by
  intro rest
  induction rest with
  | nil =>
    intro cur s _ hs
    rw [coalesce, mem_singleton] at hs
    rw [hs]
  | cons r rest ih =>
    intro cur s h hs
    have hle : cur.start ≤ r.start := (pairwise_cons.mp h.sorted).1 r (by simp)
    rw [coalesce] at hs
    split at hs
    · exact ih ⟨cur.start, max cur.stop r.stop⟩ s h.grow hs
    · rcases mem_cons.mp hs with rfl | hs
      · exact le_refl _
      · exact hle.trans (ih r s h.tail hs)

lemma separated_coalesce : ∀ (rest : List (Span α)) (cur : Span α),
    Swept (cur :: rest) → Separated (coalesce cur rest) := by
  intro rest
  induction rest with
  | nil =>
    intro cur h
    rw [coalesce]
    exact ⟨h.proper, by simp⟩
  | cons r rest ih =>
    intro cur h
    rw [coalesce]
    split
    · exact ih _ h.grow
    rename_i hgap
    rw [not_le] at hgap
    obtain ⟨hproper, hgaps⟩ := ih r h.tail
    refine ⟨?_, pairwise_cons.mpr ⟨?_, hgaps⟩⟩
    · intro s hs
      rcases mem_cons.mp hs with rfl | hs
      · exact h.proper s (by simp)
      · exact hproper s hs
    · intro s hs
      exact lt_of_lt_of_le hgap (start_le_of_mem_coalesce rest r s h.tail hs)

/-- The normal form of spans sorted by start. -/
def normalize : List (Span α) → List (Span α)
  | [] => []
  | r :: rest => coalesce r rest

lemma cover_normalize (h : Swept rs) : cover (normalize rs) = cover rs := by
  cases rs with
  | nil => rfl
  | cons r rest => exact cover_coalesce rest r h

lemma separated_normalize (h : Swept rs) : Separated (normalize rs) := by
  cases rs with
  | nil => exact ⟨by simp [normalize], by simp [normalize]⟩
  | cons r rest => exact separated_coalesce rest r h

/-! ## Membership by the last early start -/

/-- In a normal form a point is covered exactly when the last span that starts
no later than it also reaches it. The spans that start early enough are a
leading run, so the last of them is the one a binary search lands on. -/
lemma Separated.mem_cover_iff : ∀ {rs : List (Span α)} {a : α}, Separated rs → (a ∈ cover rs ↔
      ∃ r, (rs.takeWhile fun r => decide (r.start ≤ a)).getLast? = some r ∧ a ≤ r.stop) := by
  intro rs
  induction rs with
  | nil => intro a _; simp
  | cons r rs ih =>
    intro a h
    rw [takeWhile_cons]
    split
    · rename_i hstart
      rw [decide_eq_true_eq] at hstart
      rw [mem_cover_cons, ih h.tail]
      cases htake : (rs.takeWhile fun r => decide (r.start ≤ a)).getLast? with
      | none =>
        rw [getLast?_eq_none_iff] at htake
        rw [htake]
        simp [hstart]
      | some s =>
        -- A later span that starts early enough puts the point past the head.
        have hmem : s ∈ rs := takeWhile_subset _ (mem_of_getLast? htake)
        have hs : s.start ≤ a := by
          have := mem_takeWhile_imp (mem_of_getLast? htake)
          simpa using this
        have hpast : ¬ a ≤ r.stop := not_le.mpr (lt_of_lt_of_le (h.lt_of_mem_tail hmem) hs)
        rw [getLast?_cons, htake]
        simp [hpast]
    · rename_i hstart
      rw [decide_eq_true_eq] at hstart
      have hnot : a ∉ cover (r :: rs) := fun ha => hstart (h.start_le ha)
      simp [hnot]

end Spans
