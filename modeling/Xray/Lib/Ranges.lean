import Mathlib.Data.List.TakeWhile
import Mathlib.Order.MinMax

/-!
# Half-open ranges that do not touch

A set of points is kept as ranges in increasing order, each from its first point to the one after its
last, with a gap between one and the next. `merge` adds a range: the ranges that it touches stand
together, and they become one with it. `Separated.merge` says that the result is again such a list,
and `covers_merge` that it has the points of the list and those of the new range. Such a list is
the shortest one with its points.
-/

namespace Ranges

open List

variable {α : Type*} [LinearOrder α]

def Covers (ranges : List (α × α)) (x : α) : Prop := ∃ r ∈ ranges, r.1 ≤ x ∧ x < r.2

structure Separated (ranges : List (α × α)) : Prop where
  proper : ∀ r ∈ ranges, r.1 < r.2
  gaps : ranges.Pairwise fun r s => r.2 < s.1

def hull (range : α × α) (ranges : List (α × α)) : α × α :=
  ranges.foldl (fun acc r => (min acc.1 r.1, max acc.2 r.2)) range

def before (ranges : List (α × α)) (start : α) : Nat :=
  (ranges.takeWhile fun r => r.2 < start).length

def upTo (ranges : List (α × α)) (stop : α) : Nat :=
  (ranges.takeWhile fun r => r.1 ≤ stop).length

def merge (ranges : List (α × α)) (start stop : α) : List (α × α) :=
  ranges.take (before ranges start) ++
    hull (start, stop) ((ranges.take (upTo ranges stop)).drop (before ranges start)) ::
    ranges.drop (upTo ranges stop)

lemma hull_spec (range : α × α) (ranges : List (α × α)) :
    ((hull range ranges).1 ≤ range.1 ∧ ∀ r ∈ ranges, (hull range ranges).1 ≤ r.1) ∧
    ((hull range ranges).1 = range.1 ∨ ∃ r ∈ ranges, (hull range ranges).1 = r.1) ∧
    (range.2 ≤ (hull range ranges).2 ∧ ∀ r ∈ ranges, r.2 ≤ (hull range ranges).2) ∧
    ((hull range ranges).2 = range.2 ∨ ∃ r ∈ ranges, (hull range ranges).2 = r.2) := by
  induction ranges generalizing range with
  | nil => simp [hull]
  | cons s ranges ih =>
    obtain ⟨⟨hlow, hlows⟩, hmin, ⟨hhigh, hhighs⟩, hmax⟩ := ih (min range.1 s.1, max range.2 s.2)
    refine ⟨⟨hlow.trans (min_le_left _ _), ?_⟩, ?_, ⟨(le_max_left _ _).trans hhigh, ?_⟩, ?_⟩
    · intro r hr
      rcases mem_cons.mp hr with rfl | hr
      · exact hlow.trans (min_le_right _ _)
      · exact hlows r hr
    · rcases hmin with hmin | ⟨r, hr, hmin⟩
      · rcases min_choice range.1 s.1 with hleft | hright
        · exact .inl (hmin.trans hleft)
        · exact .inr ⟨s, mem_cons_self, hmin.trans hright⟩
      · exact .inr ⟨r, mem_cons_of_mem s hr, hmin⟩
    · intro r hr
      rcases mem_cons.mp hr with rfl | hr
      · exact (le_max_right _ _).trans hhigh
      · exact hhighs r hr
    · rcases hmax with hmax | ⟨r, hr, hmax⟩
      · rcases max_choice range.2 s.2 with hleft | hright
        · exact .inl (hmax.trans hleft)
        · exact .inr ⟨s, mem_cons_self, hmax.trans hright⟩
      · exact .inr ⟨r, mem_cons_of_mem s hr, hmax⟩

variable {ranges : List (α × α)}

lemma mem_hull_iff {range : α × α} (htouch : ∀ r ∈ ranges, range.1 ≤ r.2 ∧
  r.1 ≤ range.2) (x : α) : ((hull range ranges).1 ≤ x ∧ x < (hull range ranges).2) ↔
      (range.1 ≤ x ∧ x < range.2) ∨ Covers ranges x := by
  obtain ⟨⟨hlow, hlows⟩, hmin, ⟨hhigh, hhighs⟩, hmax⟩ := hull_spec range ranges
  constructor
  · rintro ⟨hx, hx'⟩
    rcases lt_or_ge x range.1 with hbelow | habove
    · rcases hmin with hmin | ⟨r, hr, hmin⟩
      · exact absurd (hmin ▸ hx) (not_le.mpr hbelow)
      · exact .inr ⟨r, hr, hmin ▸ hx, lt_of_lt_of_le hbelow (htouch r hr).1⟩
    · rcases lt_or_ge x range.2 with hin | hpast
      · exact .inl ⟨habove, hin⟩
      rcases hmax with hmax | ⟨r, hr, hmax⟩
      · exact absurd (hmax ▸ hx') (not_lt.mpr hpast)
      · exact .inr ⟨r, hr, (htouch r hr).2.trans hpast, hmax ▸ hx'⟩
  · rintro (⟨hx, hx'⟩ | ⟨r, hr, hx, hx'⟩)
    · exact ⟨hlow.trans hx, lt_of_lt_of_le hx' hhigh⟩
    · exact ⟨(hlows r hr).trans hx, lt_of_lt_of_le hx' (hhighs r hr)⟩

/-! ## The ranges that are touched -/

structure Split (ranges : List (α × α)) (start stop : α) (first touched last : List (α × α)) :
    Prop where
  eq : ranges = first ++ touched ++ last
  first : ∀ r ∈ first, r.2 < start
  touched : ∀ r ∈ touched, start ≤ r.2 ∧ r.1 ≤ stop
  last : ∀ r ∈ last, stop < r.1

variable {r s : α × α} {stop start x : α}

lemma Separated.tail (h : Separated (r :: ranges)) : Separated ranges :=
  ⟨fun s hs => h.proper s (mem_cons_of_mem r hs), (pairwise_cons.mp h.gaps).2⟩

lemma Separated.head_lt (h : Separated (r :: ranges)) (hs : s ∈ ranges) : r.1 < s.1 :=
  (h.proper r mem_cons_self).trans ((pairwise_cons.mp h.gaps).1 s hs)

lemma Separated.lt_of_mem_dropWhile (h : Separated ranges)
    (hs : s ∈ ranges.dropWhile fun r => r.1 ≤ stop) : stop < s.1 := by
  induction ranges with
  | nil => simp at hs
  | cons r ranges ih =>
    rw [dropWhile_cons] at hs
    split at hs
    · exact ih h.tail hs
    next hafter =>
    have hr : stop < r.1 := by simpa using hafter
    rcases mem_cons.mp hs with rfl | hs
    · exact hr
    · exact hr.trans (h.head_lt hs)

lemma Separated.split (h : Separated ranges) (hle : start ≤ stop) :
    ∃ first touched last, Split ranges start stop first touched last ∧
      before ranges start = first.length ∧ upTo ranges stop = (first ++ touched).length := by
  induction ranges with
  | nil => exact ⟨[], [], [], ⟨rfl, by simp, by simp, by simp⟩, rfl, rfl⟩
  | cons r ranges ih =>
    have hr := h.proper r mem_cons_self
    rcases lt_or_ge r.2 start with hends | htouches
    · obtain ⟨first, touched, last, hsplit, hbefore, hupTo⟩ := ih h.tail
      have hstarts : r.1 ≤ stop := (hr.trans hends).le.trans hle
      refine ⟨r :: first, touched, last, ⟨?_, ?_, hsplit.touched, hsplit.last⟩, ?_, ?_⟩
      · rw [hsplit.eq]
        rfl
      · intro s hs
        rcases mem_cons.mp hs with rfl | hs
        · exact hends
        · exact hsplit.first s hs
      · rw [before, takeWhile_cons_of_pos (by simpa using hends), length_cons, ← before,
          hbefore, length_cons]
      · rw [upTo, takeWhile_cons_of_pos (by simpa using hstarts), length_cons, ← upTo,
          hupTo, cons_append, length_cons]
    · -- nothing ends before the new range
      refine ⟨[], (r :: ranges).takeWhile fun r => r.1 ≤ stop,
        (r :: ranges).dropWhile fun r => r.1 ≤ stop, ⟨?_, by simp, ?_, ?_⟩, ?_, rfl⟩
      · rw [nil_append, takeWhile_append_dropWhile]
      · intro s hs
        refine ⟨?_, by simpa using mem_takeWhile_imp hs⟩
        rcases mem_cons.mp ((List.takeWhile_prefix _).subset hs) with rfl | hs
        · exact htouches
        · have hs' := (pairwise_cons.mp h.gaps).1 s hs
          exact htouches.trans (hs'.le.trans (h.proper s (mem_cons_of_mem r hs)).le)
      · intro s hs
        exact h.lt_of_mem_dropWhile hs
      · rw [before, takeWhile_cons_of_neg (by simpa using htouches)]

lemma Split.merge_eq {first touched last : List (α × α)}
    (h : Split ranges start stop first touched last) (hbefore : before ranges start = first.length)
    (hupTo : upTo ranges stop = (first ++ touched).length) :
    merge ranges start stop = first ++ hull (start, stop) touched :: last := by
  rw [merge, hbefore, hupTo, h.eq, take_left, drop_left, drop_left, append_assoc, take_left]

lemma Separated.before_le_upTo (h : Separated ranges) (hle : start ≤ stop) :
    before ranges start ≤ upTo ranges stop := by
  obtain ⟨first, touched, last, -, hbefore, hupTo⟩ := h.split hle
  rw [hbefore, hupTo, length_append]
  exact Nat.le_add_right _ _

lemma upTo_le_length (ranges : List (α × α)) (stop : α) : upTo ranges stop ≤ ranges.length :=
  (List.takeWhile_prefix _).length_le

/-! ## The ranges with a new one -/

lemma Separated.merge (h : Separated ranges) (hlt : start < stop) :
    Separated (merge ranges start stop) := by
  obtain ⟨first, touched, last, hsplit, hbefore, hupTo⟩ := h.split hlt.le
  rw [hsplit.merge_eq hbefore hupTo]
  obtain ⟨⟨hlow, -⟩, hmin, ⟨hhigh, -⟩, hmax⟩ := hull_spec (start, stop) touched
  have hgaps := h.gaps
  have hproper := h.proper
  rw [hsplit.eq] at hgaps hproper
  simp only [pairwise_append, mem_append] at hgaps
  obtain ⟨⟨hfirst, -, hfirstTouched⟩, hlast, hothers⟩ := hgaps
  constructor
  · intro r hr
    rcases mem_append.mp hr with hr | hr
    · exact hproper r (mem_append_left _ (mem_append_left _ hr))
    rcases mem_cons.mp hr with rfl | hr
    · exact lt_of_le_of_lt hlow (lt_of_lt_of_le hlt hhigh)
    · exact hproper r (mem_append_right _ hr)
  rw [pairwise_append, pairwise_cons]
  refine ⟨hfirst, ⟨?_, hlast⟩, ?_⟩
  · intro s hs
    rcases hmax with hmax | ⟨r, hr, hmax⟩
    · rw [hmax]
      exact hsplit.last s hs
    · rw [hmax]
      exact hothers r (.inr hr) s hs
  · intro r hr s hs
    rcases mem_cons.mp hs with rfl | hs
    · rcases hmin with hmin | ⟨t, ht, hmin⟩
      · rw [hmin]
        exact hsplit.first r hr
      · rw [hmin]
        exact hfirstTouched r hr t ht
    · exact hothers r (.inl hr) s hs

lemma covers_append {first last : List (α × α)} :
    Covers (first ++ last) x ↔ Covers first x ∨ Covers last x := by
  simp only [Covers, mem_append, or_and_right, exists_or]

lemma covers_cons : Covers (r :: ranges) x ↔ (r.1 ≤ x ∧ x < r.2) ∨ Covers ranges x := by
  simp only [Covers, mem_cons, or_and_right, exists_or, exists_eq_left]

lemma covers_merge (h : Separated ranges) (hle : start ≤ stop) (x : α) :
    Covers (merge ranges start stop) x ↔ (start ≤ x ∧ x < stop) ∨ Covers ranges x := by
  obtain ⟨first, touched, last, hsplit, hbefore, hupTo⟩ := h.split hle
  rw [hsplit.merge_eq hbefore hupTo, covers_append, covers_cons,
    mem_hull_iff fun r hr => hsplit.touched r hr, hsplit.eq, covers_append, covers_append]
  simp only [or_assoc]
  exact or_left_comm

/-- No ranges with the same points are fewer: each that is apart has one of its own among them. -/
lemma Separated.length_le (h : Separated ranges) {others : List (α × α)}
    (heq : ∀ x, Covers ranges x ↔ Covers others x) : ranges.length ≤ others.length := by
  induction ranges generalizing others with
  | nil => exact Nat.zero_le _
  | cons r ranges ih =>
    have hproper := h.proper r mem_cons_self
    have hbeyond : ∀ {x}, Covers ranges x → r.2 < x := fun ⟨s, hs, hx⟩ =>
      lt_of_lt_of_le ((pairwise_cons.mp h.gaps).1 s hs) hx.1
    have hrest : ∀ x, Covers ranges x ↔ Covers (others.filter (r.2 < ·.1)) x := by
      intro x
      constructor
      · intro hx
        obtain ⟨s, hs, hin⟩ := (heq x).mp (covers_cons.mpr (.inr hx))
        refine ⟨s, mem_filter.mpr ⟨hs, decide_eq_true (lt_of_not_ge fun hle => ?_)⟩, hin⟩
        -- a range that reaches over the gap has a point in it
        have hgap := (heq r.2).mpr ⟨s, hs, hle, (hbeyond hx).trans hin.2⟩
        rcases covers_cons.mp hgap with hr | hlater
        · exact lt_irrefl _ hr.2
        · exact lt_irrefl _ (hbeyond hlater)
      · rintro ⟨s, hs, hin⟩
        rw [mem_filter, decide_eq_true_eq] at hs
        have hx := covers_cons.mp ((heq x).mpr ⟨s, hs.1, hin⟩)
        exact hx.resolve_left fun hr => lt_asymm hr.2 (lt_of_lt_of_le hs.2 hin.1)
    obtain ⟨s, hs, hin⟩ := (heq r.1).mp (covers_cons.mpr (.inl ⟨le_rfl, hproper⟩))
    have hfewer : (others.filter (r.2 < ·.1)).length < others.length := by
      refine length_filter_lt_length_iff_exists.mpr ⟨s, hs, ?_⟩
      rw [decide_eq_true_eq]
      exact not_lt.mpr (hin.1.trans hproper.le)
    exact Nat.lt_of_le_of_lt (ih h.tail hrest) hfewer

end Ranges
