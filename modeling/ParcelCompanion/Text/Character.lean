/-!
# Classes of characters

A character property of the Unicode standard is a set of code points, and such a set is written
down as the list of its maximal runs.  The property `White_Space` is what may stand between the
parts of a written type, and what a setting must not consist of.  Digits are those of ASCII.
-/

namespace ParcelCompanion.Text

/-! ### Ranges of code points -/

/-- A run of code points, both ends included. -/
abbrev CodeRange := Nat × Nat

/-- Whether a character lies in one of the runs. -/
def inRanges (ranges : List CodeRange) (c : Char) : Bool :=
  ranges.any fun range => range.1 ≤ c.toNat && c.toNat ≤ range.2

/-! ### White space -/

/-- All white space, as ranges of code points in increasing order. -/
def whiteSpaceRanges : List CodeRange := [
  (0x9, 0xD), (0x20, 0x20), (0x85, 0x85), (0xA0, 0xA0), (0x1680, 0x1680), (0x2000, 0x200A),
  (0x2028, 0x2029), (0x202F, 0x202F), (0x205F, 0x205F), (0x3000, 0x3000)]

/-- Whether a character is white space of any kind. -/
def isWhiteSpace (c : Char) : Bool :=
  inRanges whiteSpaceRanges c

/-- Whether a text holds nothing but white space. -/
def isBlank (text : String) : Bool :=
  text.toList.all isWhiteSpace

/-! ### Digits -/

/-- The number that decimal digits spell, the first one counting most. -/
def decimal (digits : List Char) : Nat :=
  digits.foldl (fun n c => 10 * n + (c.toNat - '0'.toNat)) 0

/-- The value of a hexadecimal digit. -/
def hexDigit? (c : Char) : Option Nat :=
  if c.isDigit then some (c.toNat - '0'.toNat)
  else if 'a' ≤ c ∧ c ≤ 'f' then some (c.toNat - 'a'.toNat + 10)
  else if 'A' ≤ c ∧ c ≤ 'F' then some (c.toNat - 'A'.toNat + 10)
  else none

/-- The number that digits of the given base spell, the first one counting most. -/
def inBase? (base : Nat) (digits : List Char) : Option Nat :=
  digits.foldlM (fun n c => (hexDigit? c).map (base * n + ·)) 0

/-- The number that hexadecimal digits spell. -/
def hexNumber? (digits : List Char) : Option Nat :=
  inBase? 16 digits

end ParcelCompanion.Text
