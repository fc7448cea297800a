import Mathlib.Data.List.Sort
import Xray.Lib.Assoc
import Xray.Lib.Ascii
import Xray.Lib.Bytes

/-!
# Header fields (`xray-proxy/src/inbound/http_message.rs`)

Fields are kept as Go keeps them: the values of each name in the order they came, under the
canonical form of the name. A name with a byte that is not of a token, such as a space, has no
canonical form and stays as it is.

The map is a list without two fields of one name, which is put in the order of the names when
it is written.
-/

namespace Xray.Http

open Ascii Assoc

def crlf : Bytes := [13, 10]

def isTokenByte (b : UInt8) : Bool :=
  isAlphanumeric b || (text "!#$%&'*+-.^_`|~").contains b

def isSpace (b : UInt8) : Bool := b == 32 || b == 9 || b == 13 || b == 10

def isBlank (b : UInt8) : Bool := b == 32 || b == 9

def trimAsciiSpace (value : Bytes) : Bytes := trim isSpace value

def trimBlank (value : Bytes) : Bytes := trim isBlank value

/-- Letters in upper case at the start and after a hyphen, else in lower case. -/
def canonicalLoop (upper : Bool) : Str → Str
  | [] => []
  | b :: name =>
    let b := if upper then toUpper b else toLower b
    b :: canonicalLoop (b == 45) name

def canonicalHeaderKey (name : Str) : Str :=
  if name.all isTokenByte then canonicalLoop true name else name

structure HttpHeaders where
  fields : List (Str × List Bytes) := []
  distinct : (fields.map Prod.fst).Nodup := by exact List.nodup_nil

namespace HttpHeaders

variable {fields : List (Str × List Bytes)}

section

variable (h : (fields.map Prod.fst).Nodup)

include h

lemma nodup_modify (key : Str) (f : List Bytes → List Bytes) :
    ((modify key f fields).map Prod.fst).Nodup := by
  rw [keys_modify]
  exact h

lemma nodup_remove (key : Str) : ((remove key fields).map Prod.fst).Nodup :=
  h.sublist (List.filter_sublist.map _)

lemma nodup_concat {key : Str} (hkey : key ∉ fields.map Prod.fst) (values : List Bytes) :
    ((fields ++ [(key, values)]).map Prod.fst).Nodup := by
  rw [List.map_append]
  refine List.nodup_append.mpr ⟨h, by simp, fun name hname other hother => ?_⟩
  rintro rfl
  obtain rfl : name = key := List.mem_singleton.mp hother
  exact hkey hname

end

def names (headers : HttpHeaders) : List Str := headers.fields.map Prod.fst

/-- Changes the values under a key, which are none if it is new. -/
def upsert (headers : HttpHeaders) (key : Str) (f : List Bytes → List Bytes) : HttpHeaders :=
  if h : key ∈ headers.names then
    ⟨modify key f headers.fields, nodup_modify headers.distinct key f⟩
  else ⟨headers.fields ++ [(key, f [])], nodup_concat headers.distinct h _⟩

def add (headers : HttpHeaders) (name : Str) (value : Bytes) : HttpHeaders :=
  headers.upsert (canonicalHeaderKey name) (· ++ [value])

def set (headers : HttpHeaders) (name : Str) (value : Bytes) : HttpHeaders :=
  headers.upsert (canonicalHeaderKey name) fun _ => [value]

def values (headers : HttpHeaders) (name : Str) : List Bytes :=
  (get (canonicalHeaderKey name) headers.fields).getD []

def get (headers : HttpHeaders) (name : Str) : Option Bytes := (headers.values name).head?

def contains (headers : HttpHeaders) (name : Str) : Bool :=
  (Assoc.get (canonicalHeaderKey name) headers.fields).isSome

def remove (headers : HttpHeaders) (name : Str) : HttpHeaders :=
  ⟨Assoc.remove (canonicalHeaderKey name) headers.fields, nodup_remove headers.distinct _⟩

/-- Adds to the last value under a key, as `last_value_mut` is used. -/
def extendLast (headers : HttpHeaders) (key : Str) (more : Bytes) : HttpHeaders :=
  ⟨modify key (fun values => values.dropLast ++ (values.getLast?.map (· ++ more)).toList)
    headers.fields, nodup_modify headers.distinct key _⟩

def nameLe (left right : Str) : Bool := !decide (right < left)

def iter (headers : HttpHeaders) : List (Str × List Bytes) :=
  headers.fields.insertionSort fun left right => nameLe left.1 right.1

/-- A value with its line breaks turned to spaces, and trimmed. -/
def written (value : Bytes) : Bytes :=
  trimAsciiSpace (value.map fun b => if b == 13 || b == 10 then 32 else b)

def fieldLine (name : Str) (value : Bytes) : Bytes := name ++ text ": " ++ value ++ crlf

def writeSubset (headers : HttpHeaders) (exclude : List Str) : Bytes :=
  (headers.iter.filter fun field => !exclude.contains field.1).flatMap fun field =>
    field.2.flatMap fun value => fieldLine field.1 (written value)

end HttpHeaders

end Xray.Http
