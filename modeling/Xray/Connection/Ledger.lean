import Xray.Connection.Registry

/-!
# What a connection registry is for

A ledger has one account for each connection that was ever registered, in the order of
registration. Bytes are booked to an account until it is closed, and closing it twice is closing
it once. There are no identifiers, no sums and no limits: what the registry reports for an
outbound is a tally over its accounts.
-/

namespace Xray.Connection

open List

/-- A connection: its outbound, whether it has completed, and its bytes until then. -/
structure Account where
  tag : Option String
  done : Bool
  uplink : Nat
  downlink : Nat

namespace Account

def bookUplink (bytes : Nat) (a : Account) : Account :=
  if a.done then a else { a with uplink := a.uplink + bytes }

def bookDownlink (bytes : Nat) (a : Account) : Account :=
  if a.done then a else { a with downlink := a.downlink + bytes }

def complete (a : Account) : Account := { a with done := true }

end Account

abbrev Ledger := List Account

namespace Ledger

def step (l : Ledger) : Step → Ledger
  | .register _ _ outboundTag _ _ => l ++ [⟨outboundTag, false, 0, 0⟩]
  | .recordUplink i bytes => l.modify i (.bookUplink bytes)
  | .recordDownlink i bytes => l.modify i (.bookDownlink bytes)
  | .finish i => l.modify i .complete
  | .drop i => l.modify i .complete
  | .takeId | .markActive _ | .close _ => l

def after (steps : List Step) : Ledger := steps.foldl step []

/-- The sum of a weight over the accounts of an outbound. -/
def tally (w : Account → Nat) (tag : Option String) (l : Ledger) : Nat :=
  (l.map fun a => if a.tag = tag then w a else 0).sum

def opened : Option String → Ledger → Nat := tally fun _ => 1

def completed : Option String → Ledger → Nat := tally fun a => if a.done then 1 else 0

def uplink : Option String → Ledger → Nat := tally Account.uplink

def downlink : Option String → Ledger → Nat := tally Account.downlink

lemma tally_append (w : Account → Nat) (tag : Option String) (l : Ledger) (a : Account) :
    tally w tag (l ++ [a]) = tally w tag l + if a.tag = tag then w a else 0 := by
  rw [tally, map_append, sum_append, tally]
  simp

lemma sum_map_modify {α : Type*} (w : α → Nat) (f : α → α) {l : List α} {i : Nat} {a : α}
    (h : l[i]? = some a) : ((l.modify i f).map w).sum + w a = (l.map w).sum + w (f a) := by
  induction l generalizing i with
  | nil => simp at h
  | cons b l ih =>
    cases i with
    | zero =>
      cases h
      simp only [modify_zero_cons, map_cons, sum_cons]
      omega
    | succ i =>
      have := ih h
      simp only [modify_succ_cons, map_cons, sum_cons]
      omega

lemma le_sum_map {α : Type*} (w : α → Nat) {l : List α} {a : α} (h : a ∈ l) :
    w a ≤ (l.map w).sum := by
  induction l with
  | nil => cases h
  | cons b l ih =>
    rw [map_cons, sum_cons]
    rcases mem_cons.mp h with rfl | h
    · exact Nat.le_add_right _ _
    · exact Nat.le_trans (ih h) (Nat.le_add_left _ _)

lemma tally_modify (w : Account → Nat) (tag : Option String) (f : Account → Account)
    {l : Ledger} {i : Nat} {a : Account} (h : l[i]? = some a) (htag : (f a).tag = a.tag) :
    tally w tag (l.modify i f) + (if a.tag = tag then w a else 0) =
      tally w tag l + if a.tag = tag then w (f a) else 0 := by
  have := sum_map_modify (fun a => if a.tag = tag then w a else 0) f h
  rw [htag] at this
  exact this

lemma tally_modify_le (w : Account → Nat) (tag : Option String) (f : Account → Account)
    (htag : ∀ a, (f a).tag = a.tag) (hw : ∀ a, w a ≤ w (f a)) (l : Ledger) (i : Nat) :
    tally w tag l ≤ tally w tag (l.modify i f) := by
  cases h : l[i]? with
  | none => rw [modify_eq_self (getElem?_eq_none_iff.mp h)]
  | some a =>
    have := tally_modify w tag f h (htag a)
    have := hw a
    split at * <;> omega

lemma tag_bookUplink (bytes : Nat) (a : Account) : (a.bookUplink bytes).tag = a.tag := by
  rw [Account.bookUplink]
  split <;> rfl

lemma tag_bookDownlink (bytes : Nat) (a : Account) : (a.bookDownlink bytes).tag = a.tag := by
  rw [Account.bookDownlink]
  split <;> rfl

lemma tally_cons (w : Account → Nat) (tag : Option String) (a : Account) (l : Ledger) :
    tally w tag (a :: l) = (if a.tag = tag then w a else 0) + tally w tag l := rfl

lemma tally_eq_zero (w : Account → Nat) {tag : Option String} {l : Ledger}
    (h : opened tag l = 0) : tally w tag l = 0 := by
  induction l with
  | nil => rfl
  | cons a l ih =>
    rw [opened, tally_cons] at h
    rw [tally_cons]
    split at h
    · omega
    · next hne =>
      rw [if_neg hne, ih (by rw [opened]; omega)]

lemma tally_le_sum (w : Account → Nat) (tag : Option String) (l : Ledger) :
    tally w tag l ≤ (l.map w).sum := by
  induction l with
  | nil => exact Nat.le_refl _
  | cons a l ih =>
    rw [tally_cons, map_cons, sum_cons]
    split <;> omega

lemma tally_le_tally {w w' : Account → Nat} (hw : ∀ a, w a ≤ w' a) (tag : Option String)
    (l : Ledger) : tally w tag l ≤ tally w' tag l := by
  induction l with
  | nil => exact Nat.le_refl _
  | cons a l ih =>
    have := hw a
    rw [tally_cons, tally_cons]
    split <;> omega

lemma le_tally (w : Account → Nat) {l : Ledger} {a : Account} (h : a ∈ l) :
    w a ≤ tally w a.tag l := by
  have := le_sum_map (fun b => if b.tag = a.tag then w b else 0) h
  rw [if_pos rfl] at this
  exact this

lemma tally_add (w w' : Account → Nat) (tag : Option String) (l : Ledger) :
    tally (fun a => w a + w' a) tag l = tally w tag l + tally w' tag l := by
  induction l with
  | nil => rfl
  | cons a l ih =>
    rw [tally_cons, tally_cons, tally_cons, ih]
    split <;> omega

lemma tally_split (w : Account → Nat) (tag : Option String) (l : Ledger) :
    tally w tag l = tally (fun a => if a.done then w a else 0) tag l +
        tally (fun a => if a.done then 0 else w a) tag l := by
  rw [← tally_add]
  congr 1
  funext a
  split <;> omega

lemma sum_filter_open (w : Account → Nat) (tag : Option String) (l : Ledger) :
    ((l.filter fun a => !a.done).map fun a => if a.tag = tag then w a else 0).sum =
      tally (fun a => if a.done then 0 else w a) tag l := by
  induction l with
  | nil => rfl
  | cons a l ih =>
    rw [tally_cons, ← ih, filter_cons]
    cases a.done with
    | true => simp
    | false => simp

lemma opened_le_length (tag : Option String) (l : Ledger) : opened tag l ≤ l.length := by
  have := tally_le_sum (fun _ => 1) tag l
  rw [map_const', sum_replicate_nat, Nat.mul_one] at this
  exact this

section

variable (w : Account → Nat) (hup : ∀ n a, w a ≤ w (a.bookUplink n))
  (hdown : ∀ n a, w a ≤ w (a.bookDownlink n)) (hdone : ∀ a, w a ≤ w a.complete)
  (tag : Option String)

include hup hdown hdone

lemma tally_step_le (l : Ledger) (st : Step) : tally w tag l ≤ tally w tag (l.step st) := by
  cases st with
  | takeId | markActive | close => exact Nat.le_refl _
  | register =>
    rw [step, tally_append]
    exact Nat.le_add_right _ _
  | recordUplink i n => exact tally_modify_le w tag _ (tag_bookUplink n) (hup n) l i
  | recordDownlink i n => exact tally_modify_le w tag _ (tag_bookDownlink n) (hdown n) l i
  | finish i | drop i => exact tally_modify_le w tag Account.complete (fun _ => rfl) hdone l i

lemma tally_steps_le (l : Ledger) (steps : List Step) :
    tally w tag l ≤ tally w tag (steps.foldl step l) := by
  induction steps generalizing l with
  | nil => exact Nat.le_refl _
  | cons st steps ih => exact Nat.le_trans (tally_step_le w hup hdown hdone tag l st) (ih _)

end

lemma uplink_mono (tag : Option String) (l : Ledger) (steps : List Step) :
    uplink tag l ≤ uplink tag (steps.foldl step l) := by
  refine tally_steps_le _ (fun n a => ?_) (fun n a => ?_) (fun a => Nat.le_refl _) tag l steps
  · rw [Account.bookUplink]
    split
    · exact Nat.le_refl _
    · exact Nat.le_add_right _ _
  · rw [Account.bookDownlink]
    split <;> exact Nat.le_refl _

lemma downlink_mono (tag : Option String) (l : Ledger) (steps : List Step) :
    downlink tag l ≤ downlink tag (steps.foldl step l) := by
  refine tally_steps_le _ (fun n a => ?_) (fun n a => ?_) (fun a => Nat.le_refl _) tag l steps
  · rw [Account.bookUplink]
    split <;> exact Nat.le_refl _
  · rw [Account.bookDownlink]
    split
    · exact Nat.le_refl _
    · exact Nat.le_add_right _ _

/-- The bytes of no outbound reach `2 ^ 64`. -/
def Fits (l : Ledger) : Prop := ∀ tag, l.uplink tag < 2 ^ 64 ∧ l.downlink tag < 2 ^ 64

lemma Fits.of_steps {l : Ledger} {steps : List Step} (h : Fits (steps.foldl step l)) : Fits l :=
  fun tag => ⟨(uplink_mono tag l steps).trans_lt (h tag).1,
    (downlink_mono tag l steps).trans_lt (h tag).2⟩

end Ledger

end Xray.Connection
