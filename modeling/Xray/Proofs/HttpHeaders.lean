import Xray.Http.Headers
import Xray.Lib.MessageHead

/-!
# What is written of header fields

The names that are kept are canonical: a name that reads as another up to case is that name,
unless it holds a byte that is not of a token. So a field is found under one name only, and
leaving out that name leaves out every spelling of it. A value is written without the bytes
that would end its line.
-/

namespace Xray.Http

open Ascii List Assoc

lemma forall_byte {P : UInt8 → Prop} (h : ∀ n < 256, P (UInt8.ofNat n)) (b : UInt8) : P b := by
  have hb := h b.toNat b.toNat_lt
  rwa [UInt8.ofNat_toNat] at hb

lemma isTokenByte_cased :
    ∀ b, isTokenByte (toLower b) = isTokenByte b ∧ isTokenByte (toUpper b) = isTokenByte b :=
  forall_byte (by decide +kernel)

lemma cased_cased : ∀ b, toUpper (toUpper b) = toUpper b ∧ toUpper (toLower b) = toUpper b ∧
    toLower (toUpper b) = toLower b :=
  forall_byte (by decide +kernel)

lemma all_canonicalLoop (upper : Bool) (name : Str) :
    (canonicalLoop upper name).all isTokenByte = name.all isTokenByte := by
  induction name generalizing upper with
  | nil => rfl
  | cons b name ih =>
    rw [canonicalLoop, all_cons, all_cons, ih]
    cases upper
    · rw [if_neg (by simp), (isTokenByte_cased b).1]
    · rw [if_pos rfl, (isTokenByte_cased b).2]

lemma canonicalLoop_lower (upper : Bool) (name : Str) :
    canonicalLoop upper (lower name) = canonicalLoop upper name := by
  induction name generalizing upper with
  | nil => rfl
  | cons b name ih =>
    show canonicalLoop upper (toLower b :: lower name) = _
    cases upper
    · simp only [canonicalLoop, Bool.false_eq_true, if_false, toLower_toLower, ih]
    · simp only [canonicalLoop, if_true, cased_cased, ih]

lemma lower_canonicalLoop (upper : Bool) (name : Str) :
    lower (canonicalLoop upper name) = lower name := by
  induction name generalizing upper with
  | nil => rfl
  | cons b name ih =>
    show toLower _ :: lower _ = toLower b :: lower name
    rw [ih]
    cases upper
    · rw [if_neg (by simp), toLower_toLower]
    · rw [if_pos rfl, (cased_cased b).2.2]

lemma canonicalLoop_canonicalLoop (upper : Bool) (name : Str) :
    canonicalLoop upper (canonicalLoop upper name) = canonicalLoop upper name := by
  rw [← canonicalLoop_lower, lower_canonicalLoop, canonicalLoop_lower]

lemma canonicalHeaderKey_canonicalHeaderKey (name : Str) :
    canonicalHeaderKey (canonicalHeaderKey name) = canonicalHeaderKey name := by
  by_cases h : name.all isTokenByte = true
  · have hloop : (canonicalLoop true name).all isTokenByte = true := by
      rw [all_canonicalLoop]
      exact h
    rw [canonicalHeaderKey.eq_def name, if_pos h, canonicalHeaderKey, if_pos hloop,
      canonicalLoop_canonicalLoop]
  · rw [canonicalHeaderKey.eq_def name, if_neg h, canonicalHeaderKey, if_neg h]

lemma all_isTokenByte_lower (name : Str) : (lower name).all isTokenByte = name.all isTokenByte := by
  rw [lower, all_map]
  congr 1
  funext b
  exact (isTokenByte_cased b).1

/-- A canonical name that reads as a token up to case has the canonical form of it. -/
lemma eq_of_eqIgnoreCase {name key : Str} (hname : canonicalHeaderKey name = name)
    (hkey : key.all isTokenByte) (h : eqIgnoreCase name key) :
    name = canonicalHeaderKey key := by
  have hlower := (eqIgnoreCase_iff name key).mp h
  have hall : name.all isTokenByte = true := by
    rw [← all_isTokenByte_lower, hlower, all_isTokenByte_lower, hkey]
  calc name = canonicalLoop true name := by
        rw [canonicalHeaderKey, if_pos hall] at hname
        exact hname.symm
    _ = canonicalLoop true (lower key) := by rw [← canonicalLoop_lower, hlower]
    _ = canonicalHeaderKey key := by rw [canonicalLoop_lower, canonicalHeaderKey, if_pos hkey]

/-- A name that a header block may hold: of token bytes, and of spaces behind the first. -/
structure ValidName (name : Str) : Prop where
  ne_nil : name ≠ []
  bytes : ∀ b ∈ name, isTokenByte b ∨ b = 32
  first : name.head? ≠ some 32

lemma ValidName.of_token {name : Str} (hne : name ≠ []) (h : name.all isTokenByte) :
    ValidName name where
  ne_nil := hne
  bytes := fun b hb => .inl (all_eq_true.mp h b hb)
  first := by
    intro hfirst
    have := all_eq_true.mp h 32 (mem_of_mem_head? hfirst)
    cases this

lemma ValidName.canonicalHeaderKey {name : Str} (h : ValidName name) :
    ValidName (canonicalHeaderKey name) := by
  rw [Http.canonicalHeaderKey]
  split
  · next hall =>
    refine .of_token ?_ (by rw [all_canonicalLoop]; exact hall)
    obtain ⟨b, name, rfl⟩ := exists_cons_of_ne_nil h.ne_nil
    exact cons_ne_nil _ _
  · exact h

lemma ValidName.not_mem {name : Str} (h : ValidName name) {b : UInt8}
    (htoken : isTokenByte b = false) (hspace : b ≠ 32) : b ∉ name := by
  intro hb
  rcases h.bytes b hb with ht | hs
  · rw [htoken] at ht
    cases ht
  · exact hspace hs

/-- A field that is written on one line, and read as it is written. -/
structure FieldOnLine (f : Str × Bytes) : Prop where
  name : ValidName f.1
  value_cr : 13 ∉ f.2
  value_lf : 10 ∉ f.2
  value_trim : trim MessageHead.isBlank f.2 = f.2

lemma FieldOnLine.plain {f : Str × Bytes} (h : FieldOnLine f) : MessageHead.Plain f where
  name_ne_nil := h.name.ne_nil
  name_colon := h.name.not_mem (by decide) (by decide)
  name_break := h.name.not_mem (by decide) (by decide)
  value_break := h.value_cr
  value_trim := h.value_trim

namespace HttpHeaders

def Canonical (headers : HttpHeaders) : Prop :=
  ∀ name ∈ headers.names, canonicalHeaderKey name = name ∧ ValidName name

variable {headers : HttpHeaders}

lemma canonical_empty : Canonical {} := by
  intro name hname
  cases hname

variable {key name other : Str} {f : Str × Bytes} {exclude : List Str}

lemma mem_names_upsert {f : List Bytes → List Bytes} (h : name ∈ (headers.upsert key f).names) :
    name ∈ headers.names ∨ name = key := by
  rw [upsert] at h
  split at h
  · rw [names, keys_modify] at h
    exact .inl h
  rw [names, map_append, mem_append] at h
  rcases h with h | h
  · exact .inl h
  · exact .inr (mem_singleton.mp h)

lemma mem_names_remove (h : name ∈ (headers.remove key).names) :
    name ∈ headers.names ∧ name ≠ canonicalHeaderKey key := by
  obtain ⟨field, hfield, rfl⟩ := mem_map.mp h
  obtain ⟨hfield, hne⟩ := mem_filter.mp hfield
  exact ⟨mem_map_of_mem hfield, of_decide_eq_true hne⟩

section

variable (h : Canonical headers)

include h

lemma Canonical.upsert (f : List Bytes → List Bytes)
    (hkey : ValidName key) : Canonical (headers.upsert (canonicalHeaderKey key) f) := by
  intro name hname
  rcases mem_names_upsert hname with hname | rfl
  · exact h name hname
  · exact ⟨canonicalHeaderKey_canonicalHeaderKey key, hkey.canonicalHeaderKey⟩

lemma Canonical.add (value : Bytes) (hname : ValidName name) :
    Canonical (headers.add name value) := h.upsert _ hname

lemma Canonical.set (value : Bytes) (hname : ValidName name) :
    Canonical (headers.set name value) := h.upsert _ hname

lemma Canonical.remove (name : Str) : Canonical (headers.remove name) :=
  fun other hother => h other (mem_names_remove hother).1

lemma Canonical.extendLast (key : Str) (more : Bytes) :
    Canonical (headers.extendLast key more) := by
  intro name hname
  rw [names, HttpHeaders.extendLast, keys_modify] at hname
  exact h name hname

end

lemma get_upsert (headers : HttpHeaders) (key : Str) (f : List Bytes → List Bytes) (k : Str) :
    Assoc.get k (headers.upsert key f).fields =
      if k = key then some (f ((Assoc.get k headers.fields).getD []))
      else Assoc.get k headers.fields := by
  rw [upsert]
  split
  · next hmem =>
    rw [get_modify]
    by_cases hk : k = key
    · obtain ⟨values, hget⟩ := exists_get_of_mem hmem
      rw [if_pos hk, if_pos hk, hk, hget]
      rfl
    · rw [if_neg hk, if_neg hk]
  next hmem =>
  rw [get_concat]
  by_cases hk : k = key
  · rw [if_pos hk, if_pos hk.symm, hk, get_eq_none_of_not_mem hmem]
    rfl
  · rw [if_neg hk, if_neg (Ne.symm hk), Option.or_none]

lemma values_set_of_ne (headers : HttpHeaders) (value : Bytes)
    (h : canonicalHeaderKey other ≠ canonicalHeaderKey name) :
    (headers.set name value).values other = headers.values other := by
  rw [values, set, get_upsert, if_neg h, values]

lemma values_remove_of_ne (headers : HttpHeaders)
    (h : canonicalHeaderKey other ≠ canonicalHeaderKey name) :
    (headers.remove name).values other = headers.values other := by
  rw [values, remove, get_remove, if_neg h, values]

lemma fieldLine_eq (name : Str) (value : Bytes) :
    fieldLine name value = MessageHead.fieldLine name value := by
  rw [fieldLine, append_assoc name]
  rfl

/-- The fields that are written, with their values as they are written. -/
def subset (headers : HttpHeaders) (exclude : List Str) : List (Str × Bytes) :=
  (headers.iter.filter fun field => !exclude.contains field.1).flatMap fun field =>
    field.2.map fun value => (field.1, written value)

lemma writeSubset_eq (headers : HttpHeaders) (exclude : List Str) : headers.writeSubset exclude =
      (headers.subset exclude).flatMap fun f => MessageHead.fieldLine f.1 f.2 := by
  rw [writeSubset, subset, flatMap_assoc]
  congr 1
  funext field
  rw [flatMap_map]
  congr 1
  funext value
  exact fieldLine_eq _ _

lemma mem_subset (h : f ∈ headers.subset exclude) :
    f.1 ∈ headers.names ∧ f.1 ∉ exclude ∧ ∃ value, f.2 = written value := by
  obtain ⟨field, hfield, hf⟩ := mem_flatMap.mp h
  obtain ⟨value, -, rfl⟩ := mem_map.mp hf
  obtain ⟨hfield, hexclude⟩ := mem_filter.mp hfield
  refine ⟨mem_map_of_mem ((mem_insertionSort _).mp hfield), fun hmem => ?_, value, rfl⟩
  rw [contains_iff_mem.mpr hmem] at hexclude
  cases hexclude

lemma not_mem_written {value : Bytes} {b : UInt8} (hb : b = 13 ∨ b = 10) : b ∉ written value := by
  intro hmem
  obtain ⟨c, -, hc⟩ := mem_map.mp ((trim_sublist _ _).subset hmem)
  split at hc
  · rw [← hc] at hb
    exact absurd hb (by decide)
  · next hne =>
    rw [hc] at hne
    rcases hb with rfl | rfl <;> exact hne rfl

lemma trim_written (value : Bytes) :
    trim MessageHead.isBlank (written value) = written value := by
  refine trim_trim fun b hb => ?_
  rw [isSpace]
  rw [MessageHead.isBlank] at hb
  rw [hb, Bool.true_or, Bool.true_or]

lemma fieldOnLine_of_mem_subset (h : Canonical headers) (hf : f ∈ headers.subset exclude) :
    FieldOnLine f := by
  obtain ⟨hname, -, value, hvalue⟩ := mem_subset hf
  rw [← Prod.eta f, hvalue]
  exact ⟨(h f.1 hname).2, not_mem_written (.inl rfl), not_mem_written (.inr rfl), trim_written value⟩

lemma eqIgnoreCase_of_mem_subset (h : Canonical headers) (hf : f ∈ headers.subset exclude)
    (hkey : key.all isTokenByte) (hmem : canonicalHeaderKey key ∈ exclude) :
    eqIgnoreCase f.1 key = false := by
  obtain ⟨hname, hexclude, -⟩ := mem_subset hf
  rw [Bool.eq_false_iff]
  intro hsame
  rw [eq_of_eqIgnoreCase (h f.1 hname).1 hkey hsame] at hexclude
  exact hexclude hmem

lemma filter_subset_of_get {value : Bytes} (h : Canonical headers) (hkey : key.all isTokenByte)
    (hget : Assoc.get (canonicalHeaderKey key) headers.fields = some [value])
    (hmem : canonicalHeaderKey key ∉ exclude) :
    (headers.subset exclude).filter (fun f => eqIgnoreCase f.1 key) =
      [(canonicalHeaderKey key, written value)] := by
  have hsame : ∀ field ∈ headers.fields, (!exclude.contains field.1 && eqIgnoreCase field.1 key) =
        decide (field.1 = canonicalHeaderKey key) := by
    intro field hfield
    rw [Bool.eq_iff_iff, Bool.and_eq_true, decide_eq_true_iff]
    constructor
    · rintro ⟨-, hcase⟩
      exact eq_of_eqIgnoreCase (h field.1 (mem_map_of_mem hfield)).1 hkey hcase
    intro heq
    rw [heq]
    refine ⟨by simpa using hmem, (eqIgnoreCase_iff _ _).mpr ?_⟩
    rw [canonicalHeaderKey, if_pos hkey, lower_canonicalLoop]
  have honce : (headers.iter.filter fun field =>
      !exclude.contains field.1 && eqIgnoreCase field.1 key) =
        [(canonicalHeaderKey key, [value])] := by
    have hperm := (perm_insertionSort (fun left right : Str × List Bytes =>
      nameLe left.1 right.1) headers.fields).filter fun field =>
        !exclude.contains field.1 && eqIgnoreCase field.1 key
    rw [filter_congr hsame, filter_key_of_get headers.distinct hget] at hperm
    exact perm_singleton.mp hperm
  have hfilter : ∀ fields : List (Str × List Bytes),
      (fields.flatMap fun field => field.2.map fun value => (field.1, written value)).filter
        (fun f => eqIgnoreCase f.1 key) =
      (fields.filter fun field => eqIgnoreCase field.1 key).flatMap fun field =>
        field.2.map fun value => (field.1, written value) := by
    intro fields
    induction fields with
    | nil => rfl
    | cons field fields ih =>
      rw [flatMap_cons, filter_append, ih, filter_cons]
      split
      · next hcase =>
        rw [flatMap_cons, filter_eq_self.mpr]
        intro f hf
        obtain ⟨value, -, rfl⟩ := mem_map.mp hf
        exact hcase
      next hcase =>
      rw [filter_eq_nil_iff.mpr, nil_append]
      intro f hf
      obtain ⟨value, -, rfl⟩ := mem_map.mp hf
      exact hcase
  rw [subset, hfilter, filter_filter]
  simp only [Bool.and_comm] at honce ⊢
  rw [honce]
  rfl

end HttpHeaders

end Xray.Http
