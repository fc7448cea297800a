import Xray.Lib.Ascii
import Xray.Lib.Bytes

/-!
# Message heads

The head of an Internet message: a first line and fields, each line ended by `\r\n`, then a
blank line. `read` is how a recipient takes it apart, and `head` how it is put together. A
head of lines without a `\r`, whose names hold no colon and whose values are trimmed, is read
as it was put together, and what follows it is left (`read_head`).
-/

namespace MessageHead

open Ascii List

def lineEnd : Bytes := [13, 10]

def takeLine : Bytes → Option (Bytes × Bytes)
  | 13 :: 10 :: rest => some ([], rest)
  | b :: rest => (takeLine rest).map fun (line, rest) => (b :: line, rest)
  | [] => none

lemma takeLine_length {bytes line rest : Bytes} (h : takeLine bytes = some (line, rest)) :
    rest.length < bytes.length := by
  induction bytes using takeLine.induct generalizing line with
  | case1 rest' =>
    cases h
    simp only [length_cons]
    omega
  | case2 b bytes hne ih =>
    rw [takeLine] at h
    · obtain ⟨⟨line', rest'⟩, hline, h⟩ := Option.map_eq_some_iff.mp h
      cases h
      exact Nat.lt_succ_of_lt (ih hline)
    · exact hne
  | case3 =>
    cases h

def takeLines (bytes : Bytes) : Option (List Bytes × Bytes) :=
  match _h : takeLine bytes with
  | none => none
  | some ([], rest) => some ([], rest)
  | some (b :: line, rest) =>
    (takeLines rest).map fun (lines, rest) => ((b :: line) :: lines, rest)
termination_by bytes.length
decreasing_by exact takeLine_length _h

def isBlank (b : UInt8) : Bool := b == 32 || b == 9

def field (line : Bytes) : Option (Str × Bytes) :=
  (splitOnce 58 line).map fun (name, value) => (name, trim isBlank value)

/-- The first line, the fields, and what is behind the head. -/
def read (bytes : Bytes) : Option (Bytes × List (Str × Bytes) × Bytes) :=
  match takeLines bytes with
  | some (first :: lines, rest) => (lines.mapM field).map fun fields => (first, fields, rest)
  | _ => none

def fieldLine (name : Str) (value : Bytes) : Bytes := name ++ 58 :: 32 :: value ++ lineEnd

def head (first : Bytes) (fields : List (Str × Bytes)) : Bytes :=
  first ++ lineEnd ++ (fields.flatMap fun f => fieldLine f.1 f.2) ++ lineEnd

/-- A field that is read as it was written. -/
structure Plain (f : Str × Bytes) : Prop where
  name_ne_nil : f.1 ≠ []
  name_colon : 58 ∉ f.1
  name_break : 13 ∉ f.1
  value_break : 13 ∉ f.2
  value_trim : trim isBlank f.2 = f.2

lemma takeLine_append {line : Bytes} (h : 13 ∉ line) (rest : Bytes) :
    takeLine (line ++ lineEnd ++ rest) = some (line, rest) := by
  induction line with
  | nil => rfl
  | cons b line ih =>
    have hb : b ≠ 13 := fun hb => h (hb ▸ mem_cons_self)
    have hline := ih fun hmem => h (mem_cons_of_mem _ hmem)
    rw [cons_append, cons_append, takeLine, hline]
    · rfl
    · exact fun _ hb' _ => hb hb'

lemma takeLines_lineEnd (rest : Bytes) : takeLines (lineEnd ++ rest) = some ([], rest) := by
  rw [takeLines]
  rfl

lemma takeLines_append {line : Bytes} (hne : line ≠ []) (h : 13 ∉ line) (rest : Bytes) :
    takeLines (line ++ lineEnd ++ rest) =
      (takeLines rest).map fun (lines, rest) => (line :: lines, rest) := by
  obtain ⟨b, line, rfl⟩ := exists_cons_of_ne_nil hne
  rw [takeLines]
  split
  · next hnone =>
    rw [takeLine_append h] at hnone
    cases hnone
  · next hsome =>
    rw [takeLine_append h] at hsome
    cases hsome
  next hsome =>
  rw [takeLine_append h] at hsome
  cases hsome
  rfl

lemma field_of_plain {f : Str × Bytes} (h : Plain f) :
    field (f.1 ++ 58 :: 32 :: f.2) = some f := by
  rw [field, splitOnce_append h.name_colon]
  show some (f.1, trim isBlank (32 :: f.2)) = some f
  rw [trim_cons (by rfl), h.value_trim]

lemma mem_line_of_plain {f : Str × Bytes} (h : Plain f) : 13 ∉ f.1 ++ 58 :: 32 :: f.2 := by
  simp only [mem_append, mem_cons, not_or]
  exact ⟨h.name_break, by decide, by decide, h.value_break⟩

lemma takeLines_fields {fields : List (Str × Bytes)} (h : ∀ f ∈ fields, Plain f) (rest : Bytes) :
    ∃ lines, takeLines ((fields.flatMap fun f => fieldLine f.1 f.2) ++ lineEnd ++ rest) =
        some (lines, rest) ∧ lines.mapM field = some fields := by
  induction fields with
  | nil => exact ⟨[], takeLines_lineEnd rest, rfl⟩
  | cons f fields ih =>
    obtain ⟨lines, hlines, hfields⟩ := ih fun g hg => h g (mem_cons_of_mem _ hg)
    have hf := h f mem_cons_self
    refine ⟨(f.1 ++ 58 :: 32 :: f.2) :: lines, ?_, ?_⟩
    · rw [flatMap_cons, fieldLine, append_assoc, append_assoc, ← append_assoc _ lineEnd rest,
        takeLines_append (by simp [hf.name_ne_nil]) (mem_line_of_plain hf), hlines]
      rfl
    · rw [mapM_cons, field_of_plain hf, hfields]
      rfl

lemma read_head {first : Bytes} (hne : first ≠ []) (hbreak : 13 ∉ first)
    {fields : List (Str × Bytes)} (h : ∀ f ∈ fields, Plain f) (rest : Bytes) :
    read (head first fields ++ rest) = some (first, fields, rest) := by
  obtain ⟨lines, hlines, hfields⟩ := takeLines_fields h rest
  rw [read, head, append_assoc, append_assoc, ← append_assoc _ lineEnd rest,
    takeLines_append hne hbreak, hlines]
  show (lines.mapM field).map _ = _
  rw [hfields]
  rfl

end MessageHead
