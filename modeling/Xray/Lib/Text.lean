import Mathlib.Data.List.DropRight
import Xray.Lib.Bytes

/-!
# Texts (`str`)

A text is its characters, and its encoding has one to four bytes for each.
-/

abbrev Text := List Char

namespace Text

def ofUtf8 (bytes : Bytes) : Option Text := (String.fromUTF8? ⟨bytes.toArray⟩).map String.toList

def toUtf8 (text : Text) : Bytes := (String.ofList text).toUTF8.toList

/-- `char::is_whitespace`: the characters with the property `White_Space`. -/
def isWhitespace (c : Char) : Bool :=
  let n := c.toNat
  (9 ≤ n && n ≤ 13) || n == 32 || n == 0x85 || n == 0xa0 || n == 0x1680 ||
    (0x2000 ≤ n && n ≤ 0x200a) || n == 0x2028 || n == 0x2029 || n == 0x202f || n == 0x205f ||
    n == 0x3000

def trimStart (text : Text) : Text := text.dropWhile isWhitespace

def trimEnd (text : Text) : Text := text.rdropWhile isWhitespace

def trim (text : Text) : Text := trimEnd (trimStart text)

def toAsciiLowercase (text : Text) : Text := text.map Char.toLower

def rsplitOnce (c : Char) (text : Text) : Option (Text × Text) :=
  if c ∈ text then
    some ((text.rdropWhile (· ≠ c)).dropLast, text.rtakeWhile (· ≠ c))
  else none

def isAsciiDigit (c : Char) : Bool := '0' ≤ c && c ≤ '9'

def isAsciiAlphanumeric (c : Char) : Bool :=
  isAsciiDigit c || ('a' ≤ c && c ≤ 'z') || ('A' ≤ c && c ≤ 'Z')

end Text
