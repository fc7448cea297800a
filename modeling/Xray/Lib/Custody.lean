import Mathlib.Data.List.Nodup

/-!
# Items in custody

Items wait under keys until their key is settled, and are then ready to be taken, in order. What
waits may also be dropped. A key waits under an id, so that what is settled can be told from what
waited under the same key before.

A `Chain` is a history: each event with the view it happened in. The result is `Chain.takes`: an
item that is taken was put in at one place of the history, has waited under one key and id from
there until these were settled, and no two takes come from one place.
-/

namespace Custody

open List

variable {κ ι π : Type}

structure View (κ ι π : Type) where
  waiting : κ → Option (ι × List π)
  ready : List π

inductive Event (κ ι π : Type) where
  | drop
  | push (key : κ) (id : ι) (item : π)
  | settle (key : κ) (id : ι)
  | pop (item : π)

/-- What waited under some keys has gone. -/
def Drops (waiting waiting' : κ → Option (ι × List π)) : Prop :=
  ∀ key, waiting' key = waiting key ∨ waiting' key = none

/-- The item is the last that waits under the key, and the others are as they were. -/
def Adds (waiting : κ → Option (ι × List π)) (key : κ) (id : ι) (item : π)
    (waiting' : κ → Option (ι × List π)) : Prop :=
  (∃ items, (waiting key = some (id, items) ∨ waiting key = none ∧ items = []) ∧
    waiting' key = some (id, items ++ [item])) ∧
  ∀ k, k ≠ key → waiting' k = waiting k

def Moves (v : View κ ι π) : Event κ ι π → View κ ι π → Prop
  | .drop, v' => Drops v.waiting v'.waiting ∧ v'.ready = v.ready
  | .push key id item, v' =>
    ∃ waiting, Drops v.waiting waiting ∧ Adds waiting key id item v'.waiting ∧ v'.ready = v.ready
  | .settle key id, v' =>
    ∃ items, v.waiting key = some (id, items) ∧ v'.waiting key = none ∧
      (∀ k, k ≠ key → v'.waiting k = v.waiting k) ∧ v'.ready = v.ready ++ items
  | .pop item, v' => v'.waiting = v.waiting ∧ v.ready = item :: v'.ready

inductive Chain : List (View κ ι π × Event κ ι π) → View κ ι π → Prop where
  | start : Chain [] ⟨fun _ => none, []⟩
  | step {past : List (View κ ι π × Event κ ι π)} {v v' : View κ ι π} {e : Event κ ι π}
      (hchain : Chain past v) (hmoves : Moves v e v') : Chain (past ++ [(v, e)]) v'

/-- An item with the place of the history where it was put in. -/
structure Item (κ ι π : Type) where
  place : Nat
  key : κ
  id : ι
  item : π

def WaitsIn (v : View κ ι π) (x : Item κ ι π) : Prop :=
  ∃ items, v.waiting x.key = some (x.id, items) ∧ x.item ∈ items

variable {past : List (View κ ι π × Event κ ι π)} {v v' : View κ ι π} {e : Event κ ι π}

/-- The item was put in at its place, and has waited since, up to `stop`. -/
structure Kept (past : List (View κ ι π × Event κ ι π)) (x : Item κ ι π) (stop : Nat) : Prop where
  pushed : ∃ v, past[x.place]? = some (v, .push x.key x.id x.item)
  waits : ∀ n w e, x.place < n → n ≤ stop → past[n]? = some (w, e) → WaitsIn w x

/-- The item was kept until what it waited for was settled, at `c`. -/
structure Settled (past : List (View κ ι π × Event κ ι π)) (x : Item κ ι π) (c : Nat) : Prop where
  after : x.place < c
  settled : ∃ w, past[c]? = some (w, .settle x.key x.id)
  kept : Kept past x c

lemma getElem?_snoc {α : Type} {past : List α} {n : Nat} {a b : α}
    (h : (past ++ [a])[n]? = some b) : past[n]? = some b ∨ n = past.length ∧ b = a := by
  rcases Nat.lt_trichotomy n past.length with hn | hn | hn
  · rw [getElem?_append_left hn] at h
    exact .inl h
  · subst hn
    rw [getElem?_append_right (Nat.le_refl _), Nat.sub_self] at h
    cases h
    exact .inr ⟨rfl, rfl⟩
  · have hlen := (List.getElem_of_getElem? h).1
    rw [length_append, length_singleton] at hlen
    omega

lemma getElem?_snoc_of_some {α : Type} {past : List α} {n : Nat} {a b : α}
    (h : past[n]? = some b) : (past ++ [a])[n]? = some b := by
  rw [List.getElem?_append_left (List.getElem_of_getElem? h).1, h]

variable {x : Item κ ι π}

lemma Kept.place_lt {stop : Nat} (h : Kept past x stop) : x.place < past.length := by
  obtain ⟨w, hw⟩ := h.pushed
  exact (List.getElem_of_getElem? hw).1

lemma Kept.snoc (h : Kept past x past.length) (hwaits : WaitsIn v x) :
    Kept (past ++ [(v, e)]) x (past ++ [(v, e)]).length := by
  obtain ⟨w, hw⟩ := h.pushed
  refine ⟨⟨w, getElem?_snoc_of_some hw⟩, fun n w' e' hn _ hget => ?_⟩
  rcases getElem?_snoc hget with hget | ⟨-, heq⟩
  · exact h.waits n w' e' hn (Nat.le_of_lt (List.getElem_of_getElem? hget).1) hget
  · cases heq
    exact hwaits

lemma Settled.lt {c : Nat} (h : Settled past x c) : c < past.length := by
  obtain ⟨w, hw⟩ := h.settled
  exact (List.getElem_of_getElem? hw).1

lemma Settled.snoc {c : Nat} (h : Settled past x c) : Settled (past ++ [(v, e)]) x c := by
  obtain ⟨w, hw⟩ := h.settled
  obtain ⟨u, hu⟩ := h.kept.pushed
  refine ⟨h.after, ⟨w, getElem?_snoc_of_some hw⟩, ⟨u, getElem?_snoc_of_some hu⟩, ?_⟩
  intro n w' e' hn hle hget
  rcases getElem?_snoc hget with hget | ⟨hlen, -⟩
  · exact h.kept.waits n w' e' hn hle hget
  · have := h.lt
    omega

/-! ## The items there are

`waiting` and `queue` are the items of a view with their places, `source` the
place of the item that was taken at a place. -/

/-- What the history says of the items. -/
structure Ledger (past : List (View κ ι π × Event κ ι π)) (waiting queue : List (Item κ ι π))
    (source : Nat → Nat) : Prop where
  kept : ∀ x ∈ waiting, Kept past x past.length
  settled : ∀ x ∈ queue, ∃ c, Settled past x c
  distinct : ((waiting ++ queue).map Item.place).Nodup
  popped : ∀ j w item, past[j]? = some (w, .pop item) →
    ∃ x c, x.place = source j ∧ x.item = item ∧ c < j ∧ Settled past x c
  apart : ∀ j w item, past[j]? = some (w, .pop item) →
    ∀ x ∈ waiting ++ queue, x.place ≠ source j
  once : ∀ j j' w w' item item', past[j]? = some (w, .pop item) → past[j']? = some (w', .pop item') →
    source j = source j' → j = j'

structure Shows [DecidableEq κ] (v : View κ ι π) (waiting queue : List (Item κ ι π)) : Prop where
  holds : ∀ key, (waiting.filter fun x => x.key = key).map Item.item =
    ((v.waiting key).map Prod.snd).getD []
  ids : ∀ x ∈ waiting, ∃ items, v.waiting x.key = some (x.id, items)
  queued : queue.map Item.item = v.ready

variable {waiting waiting' queue : List (Item κ ι π)} {source : Nat → Nat}

lemma Shows.waitsIn [DecidableEq κ] (h : Shows v waiting queue) (hx : x ∈ waiting) :
    WaitsIn v x := by
  obtain ⟨items, hitems⟩ := h.ids x hx
  refine ⟨items, hitems, ?_⟩
  have hholds := h.holds x.key
  rw [hitems, Option.map_some, Option.getD_some] at hholds
  show x.item ∈ (x.id, items).2
  rw [← hholds]
  exact mem_map_of_mem (mem_filter.mpr ⟨hx, decide_eq_true rfl⟩)

lemma Ledger.nil : Ledger ([] : List (View κ ι π × Event κ ι π)) [] [] fun _ => 0 := by
  refine ⟨by simp, by simp, nodup_nil, ?_, ?_, ?_⟩
  · intro j w item hget
    simp at hget
  · intro j w item hget
    simp at hget
  · intro j j' w w' item item' hget
    simp at hget

section

variable (h : Ledger past waiting queue source)

include h

lemma Ledger.place_lt {x : Item κ ι π} (hx : x ∈ waiting ++ queue) : x.place < past.length := by
  rcases mem_append.mp hx with hx | hx
  · exact (h.kept x hx).place_lt
  · obtain ⟨c, hc⟩ := h.settled x hx
    exact hc.kept.place_lt

lemma Ledger.pass [DecidableEq κ] (hshows : Shows v waiting queue) (he : ∀ item, e ≠ .pop item)
    (hsub : waiting'.Sublist waiting) : Ledger (past ++ [(v, e)]) waiting' queue source := by
  have hpop : ∀ {j : Nat} {w : View κ ι π} {item : π},
      (past ++ [(v, e)])[j]? = some (w, .pop item) → past[j]? = some (w, .pop item) := by
    intro j w item hget
    rcases getElem?_snoc hget with hget | ⟨-, heq⟩
    · exact hget
    · exact absurd (Prod.mk.inj heq).2.symm (he item)
  have hsubs : (waiting' ++ queue).Sublist (waiting ++ queue) := hsub.append_right queue
  refine ⟨?_, ?_, ?_, ?_, ?_, ?_⟩
  · intro x hx
    exact (h.kept x (hsub.subset hx)).snoc (hshows.waitsIn (hsub.subset hx))
  · intro x hx
    obtain ⟨c, hc⟩ := h.settled x hx
    exact ⟨c, hc.snoc⟩
  · exact h.distinct.sublist (hsubs.map Item.place)
  · intro j w item hget
    obtain ⟨x, c, hplace, hitem, hlt, hc⟩ := h.popped j w item (hpop hget)
    exact ⟨x, c, hplace, hitem, hlt, hc.snoc⟩
  · intro j w item hget x hx
    exact h.apart j w item (hpop hget) x (hsubs.subset hx)
  · intro j j' w w' item item' hget hget'
    exact h.once j j' w w' item item' (hpop hget) (hpop hget')

lemma Ledger.add {x : Item κ ι π} (hx : Kept past x past.length)
    (hnew : ∀ y ∈ waiting ++ queue, y.place < x.place)
    (hpops : ∀ j w item, past[j]? = some (w, .pop item) → source j < x.place) :
    Ledger past (waiting ++ [x]) queue source := by
  have hmem : ∀ y ∈ waiting ++ [x] ++ queue, y ∈ waiting ++ queue ∨ y = x := by
    intro y hy
    simp only [mem_append, mem_singleton] at hy ⊢
    tauto
  refine ⟨?_, h.settled, ?_, h.popped, ?_, h.once⟩
  · intro y hy
    rcases mem_append.mp hy with hy | hy
    · exact h.kept y hy
    · rw [mem_singleton.mp hy]
      exact hx
  · have hperm : (waiting ++ [x] ++ queue).Perm (x :: (waiting ++ queue)) := by
      rw [append_assoc]
      exact perm_middle
    rw [(hperm.map Item.place).nodup_iff, map_cons, nodup_cons]
    refine ⟨fun hin => ?_, h.distinct⟩
    obtain ⟨y, hy, heq⟩ := mem_map.mp hin
    have := hnew y hy
    omega
  · intro j w item hget y hy
    rcases hmem y hy with hy | rfl
    · exact h.apart j w item hget y hy
    · exact Nat.ne_of_gt (hpops j w item hget)

end

lemma Ledger.release [DecidableEq κ] (key : κ) (h : Ledger past waiting queue source)
    (hsettled : ∀ x ∈ waiting, x.key = key → ∃ c, Settled past x c) :
    Ledger past (waiting.filter fun x => x.key ≠ key)
      (queue ++ waiting.filter fun x => x.key = key) source := by
  have hperm : ((waiting.filter fun x => x.key ≠ key) ++
      (queue ++ waiting.filter fun x => x.key = key)).Perm (waiting ++ queue) := by
    have hsplit := filter_append_perm (fun x : Item κ ι π => decide (x.key = key)) waiting
    have hnot : (fun x : Item κ ι π => !decide (x.key = key)) = fun x => decide (x.key ≠ key) := by
      funext x
      exact (decide_not).symm
    rw [hnot] at hsplit
    refine List.Perm.trans ?_ (hsplit.append_right queue)
    refine (List.Perm.append_left _ perm_append_comm).trans ?_
    rw [← append_assoc]
    exact perm_append_comm.append_right queue
  refine ⟨fun x hx => h.kept x (mem_filter.mp hx).1, ?_, ?_, h.popped, ?_, h.once⟩
  · intro x hx
    rcases mem_append.mp hx with hx | hx
    · exact h.settled x hx
    · obtain ⟨hx, hkey⟩ := mem_filter.mp hx
      exact hsettled x hx (of_decide_eq_true hkey)
  · exact (hperm.map Item.place).nodup_iff.mpr h.distinct
  · intro j w item hget x hx
    exact h.apart j w item hget x (hperm.subset hx)

lemma Ledger.pop [DecidableEq κ] (h : Ledger past waiting (x :: queue) source)
    (hshows : Shows v waiting (x :: queue)) :
    Ledger (past ++ [(v, .pop x.item)]) waiting queue (Function.update source past.length x.place) := by
  have hpop : ∀ {j : Nat} {w : View κ ι π} {item : π},
      (past ++ [(v, .pop x.item)])[j]? = some (w, .pop item) →
      (past[j]? = some (w, .pop item) ∧ j ≠ past.length) ∨ j = past.length ∧ item = x.item := by
    intro j w item hget
    rcases getElem?_snoc hget with hget | ⟨hj, heq⟩
    · have := (List.getElem_of_getElem? hget).1
      exact .inl ⟨hget, by omega⟩
    · cases heq
      exact .inr ⟨hj, rfl⟩
  have hsub : (waiting ++ queue).Sublist (waiting ++ x :: queue) :=
    (sublist_cons_self x queue).append_left waiting
  have hx : x ∈ waiting ++ x :: queue := mem_append_right _ mem_cons_self
  have hx_apart : ∀ y ∈ waiting ++ queue, y.place ≠ x.place := by
    intro y hy heq
    have hnodup : (x.place :: (waiting ++ queue).map Item.place).Nodup := by
      have hperm : (waiting ++ x :: queue).Perm (x :: (waiting ++ queue)) := perm_middle
      have := (hperm.map Item.place).nodup_iff.mp h.distinct
      rwa [map_cons] at this
    exact (nodup_cons.mp hnodup).1 (mem_map.mpr ⟨y, hy, heq⟩)
  refine ⟨?_, ?_, h.distinct.sublist (hsub.map Item.place), ?_, ?_, ?_⟩
  · intro y hy
    exact (h.kept y hy).snoc (hshows.waitsIn hy)
  · intro y hy
    obtain ⟨c, hc⟩ := h.settled y (mem_cons_of_mem x hy)
    exact ⟨c, hc.snoc⟩
  · intro j w item hget
    rcases hpop hget with ⟨hget, hj⟩ | ⟨rfl, rfl⟩
    · rw [Function.update_of_ne hj]
      obtain ⟨y, c, hplace, hitem, hlt, hc⟩ := h.popped j w item hget
      exact ⟨y, c, hplace, hitem, hlt, hc.snoc⟩
    · rw [Function.update_self]
      obtain ⟨c, hc⟩ := h.settled x mem_cons_self
      exact ⟨x, c, rfl, rfl, hc.lt, hc.snoc⟩
  · intro j w item hget y hy
    rcases hpop hget with ⟨hget, hj⟩ | ⟨rfl, rfl⟩
    · rw [Function.update_of_ne hj]
      exact h.apart j w item hget y (hsub.subset hy)
    · rw [Function.update_self]
      exact hx_apart y hy
  · intro j j' w w' item item' hget hget' heq
    rcases hpop hget with ⟨hget, hj⟩ | ⟨rfl, rfl⟩ <;>
      rcases hpop hget' with ⟨hget', hj'⟩ | ⟨rfl, rfl⟩
    · rw [Function.update_of_ne hj, Function.update_of_ne hj'] at heq
      exact h.once j j' w w' item item' hget hget' heq
    · rw [Function.update_of_ne hj, Function.update_self] at heq
      exact absurd heq.symm (h.apart j w item hget x hx)
    · rw [Function.update_self, Function.update_of_ne hj'] at heq
      exact absurd heq (h.apart j' w' item' hget' x hx)
    · rfl

variable [DecidableEq κ]

section

variable (h : Shows v waiting queue)

include h

lemma Shows.drop (hdrops : Drops v.waiting v'.waiting) (hready : v'.ready = v.ready) :
    ∃ kept, kept.Sublist waiting ∧ Shows v' kept queue := by
  classical
  refine ⟨waiting.filter fun x => v'.waiting x.key = v.waiting x.key, filter_sublist,
    ?_, ?_, hready ▸ h.queued⟩
  · intro key
    rw [filter_filter]
    by_cases hkey : v'.waiting key = v.waiting key
    · rw [hkey, ← h.holds key]
      congr 1
      refine filter_congr fun x _ => ?_
      by_cases hx : x.key = key
      · simp [hx, hkey]
      · simp [hx]
    · have hnone : v'.waiting key = none := (hdrops key).resolve_left hkey
      rw [hnone, Option.map_none, Option.getD_none, map_eq_nil_iff, filter_eq_nil_iff]
      intro x _ hx
      simp only [Bool.and_eq_true, decide_eq_true_eq] at hx
      exact hkey (hx.1 ▸ hx.2)
  · intro x hx
    obtain ⟨hx, hsame⟩ := mem_filter.mp hx
    rw [of_decide_eq_true hsame]
    exact h.ids x hx

lemma Shows.add {x : Item κ ι π}
    (hadds : Adds v.waiting x.key x.id x.item v'.waiting) (hready : v'.ready = v.ready) :
    Shows v' (waiting ++ [x]) queue := by
  obtain ⟨⟨items, hbefore, hafter⟩, hothers⟩ := hadds
  refine ⟨?_, ?_, hready ▸ h.queued⟩
  · intro key
    rw [filter_append, map_append]
    by_cases hkey : key = x.key
    · subst hkey
      rw [hafter, h.holds, filter_cons_of_pos (by simp)]
      rcases hbefore with hbefore | ⟨hbefore, rfl⟩
      all_goals
        rw [hbefore]
        rfl
    · rw [hothers key hkey, h.holds,
        filter_cons_of_neg (by simpa using Ne.symm hkey), filter_nil, map_nil,
        append_nil]
  · intro y hy
    rcases mem_append.mp hy with hy | hy
    · by_cases hkey : y.key = x.key
      · obtain ⟨items', hitems'⟩ := h.ids y hy
        rw [hkey] at hitems'
        rcases hbefore with hbefore | ⟨hbefore, -⟩
        · rw [hbefore, Option.some.injEq, Prod.mk.injEq] at hitems'
          rw [hkey, ← hitems'.1]
          exact ⟨_, hafter⟩
        · rw [hbefore] at hitems'
          cases hitems'
      · rw [hothers y.key hkey]
        exact h.ids y hy
    · rw [mem_singleton.mp hy]
      exact ⟨_, hafter⟩

lemma Shows.release {key : κ} {id : ι} {items : List π}
    (hitems : v.waiting key = some (id, items)) (hnone : v'.waiting key = none)
    (hothers : ∀ k, k ≠ key → v'.waiting k = v.waiting k) (hready : v'.ready = v.ready ++ items) :
    Shows v' (waiting.filter fun x => x.key ≠ key)
      (queue ++ waiting.filter fun x => x.key = key) := by
  refine ⟨?_, ?_, ?_⟩
  · intro k
    rw [filter_filter]
    by_cases hk : k = key
    · subst hk
      rw [hnone, Option.map_none, Option.getD_none, map_eq_nil_iff, filter_eq_nil_iff]
      intro x _ hx
      simp at hx
    · rw [hothers k hk, ← h.holds k]
      congr 1
      refine filter_congr fun x _ => ?_
      by_cases hx : x.key = k
      · simp [hx, hk]
      · simp [hx]
  · intro x hx
    obtain ⟨hx, hkey⟩ := mem_filter.mp hx
    rw [hothers x.key (of_decide_eq_true hkey)]
    exact h.ids x hx
  · rw [map_append, h.queued, h.holds key, hitems, hready]
    rfl

end

lemma Shows.nil : Shows (⟨fun _ => none, []⟩ : View κ ι π) [] [] := ⟨fun _ => rfl, by simp, rfl⟩

/-- Whatever has happened, the items can be told by their places. -/
lemma Chain.ledger (h : Chain past v) :
    ∃ waiting queue source, Ledger past waiting queue source ∧ Shows v waiting queue := by
  induction h with
  | start => exact ⟨[], [], _, Ledger.nil, Shows.nil⟩
  | @step past v v' e hchain hmoves ih =>
    obtain ⟨waiting, queue, source, hledger, hshows⟩ := ih
    cases e with
    | drop =>
      obtain ⟨kept, hsub, hkept⟩ := hshows.drop hmoves.1 hmoves.2
      exact ⟨kept, queue, source, hledger.pass hshows (by simp) hsub, hkept⟩
    | push key id item =>
      obtain ⟨mid, hdrops, hadds, hready⟩ := hmoves
      obtain ⟨kept, hsub, hkept⟩ := (hshows.drop hdrops rfl : ∃ kept, _ ∧
        Shows (⟨mid, v.ready⟩ : View κ ι π) kept queue)
      have hpass := hledger.pass hshows (e := .push key id item) (by simp) hsub
      let x : Item κ ι π := ⟨past.length, key, id, item⟩
      have hx : Kept (past ++ [(v, Event.push key id item)]) x
          (past ++ [(v, Event.push key id item)]).length := by
        refine ⟨⟨v, by simp [x]⟩, fun n w e hn _ hget => ?_⟩
        have hlen := (List.getElem_of_getElem? hget).1
        rw [length_append, length_singleton] at hlen
        have : past.length < n := hn
        omega
      refine ⟨kept ++ [x], queue, source, hpass.add hx ?_ ?_, hkept.add hadds hready⟩
      · intro y hy
        exact hledger.place_lt ((hsub.append_right queue).subset hy)
      intro j w item' hget
      rcases getElem?_snoc hget with hget | ⟨-, heq⟩
      · obtain ⟨y, c, hplace, -, -, hc⟩ := hledger.popped j w item' hget
        have := hc.kept.place_lt
        show source j < past.length
        omega
      · exact absurd (Prod.mk.inj heq).2 (by simp)
    | settle key id =>
      obtain ⟨items, hitems, hnone, hothers, hready⟩ := hmoves
      have hpass := hledger.pass hshows (e := .settle key id) (by simp) (List.Sublist.refl waiting)
      refine ⟨_, _, source, hpass.release key ?_, hshows.release hitems hnone hothers hready⟩
      intro x hx hkey
      have hid : x.id = id := by
        obtain ⟨items', hitems'⟩ := hshows.ids x hx
        rw [hkey, hitems, Option.some.injEq, Prod.mk.injEq] at hitems'
        exact hitems'.1.symm
      have hlt := (hledger.kept x hx).place_lt
      refine ⟨past.length, hlt, ⟨v, ?_⟩, ?_⟩
      · rw [hkey, hid]
        simp
      have hsnoc := (hledger.kept x hx).snoc (e := .settle key id) (hshows.waitsIn hx)
      refine ⟨hsnoc.pushed, fun n w e hn hle hget => hsnoc.waits n w e hn ?_ hget⟩
      rw [length_append]
      omega
    | pop item =>
      obtain ⟨hwaiting, hready⟩ := hmoves
      cases queue with
      | nil => exact absurd (hshows.queued.trans hready) (by simp)
      | cons x queue =>
        have hqueued := hshows.queued
        rw [hready, map_cons, List.cons.injEq] at hqueued
        obtain ⟨rfl, hqueued⟩ := hqueued
        refine ⟨waiting, queue, _, hledger.pop hshows, ?_, ?_, hqueued⟩
        · rw [hwaiting]
          exact hshows.holds
        · rw [hwaiting]
          exact hshows.ids

/-- Each item that is taken has its own place in the history, where it was put in, and waited from
there until its key and id were settled. -/
lemma Chain.takes (h : Chain past v) : ∃ source : Nat → Nat,
      (∀ j w item, past[j]? = some (w, .pop item) →
        ∃ x c, x.place = source j ∧ x.item = item ∧ c < j ∧ Settled past x c) ∧
      ∀ j j' w w' item item', past[j]? = some (w, .pop item) → past[j']? = some (w', .pop item') →
        source j = source j' → j = j' := by
  obtain ⟨waiting, queue, source, hledger, -⟩ := h.ledger
  exact ⟨source, hledger.popped, hledger.once⟩

end Custody
