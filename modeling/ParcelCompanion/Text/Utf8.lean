/-!
# Reading UTF-8

Bytes are read one at a time.  The first byte of a character settles which bytes may follow it,
and a sequence is refused at the first byte that no character allows, so a fault names the start
of the sequence and the bytes of it that were still well-formed.
-/

namespace ParcelCompanion.Utf8

/-- Why a byte sequence is no UTF-8 text. -/
inductive Fault where
  /-- The `length` bytes from `index` on begin no character. -/
  | invalid (length index : Nat)
  /-- The text ends inside the character that starts at `index`. -/
  | incomplete (index : Nat)
  deriving DecidableEq, Repr

/-- The wording of a fault. -/
def Fault.message : Fault → String
  | .invalid length index =>
    "invalid utf-8 sequence of " ++ toString length ++ " bytes from index " ++ toString index
  | .incomplete index => "incomplete utf-8 byte sequence from index " ++ toString index

/-- A range of byte values, both ends included. -/
abbrev ByteRange := Nat × Nat

/-- The range of a byte that continues a character and on which nothing more depends. -/
def continuation : ByteRange := (0x80, 0xBF)

/-- The ranges of the bytes that must follow a character's first byte, or `none` when no
character starts with it.  Overlong forms, surrogates and values past the last code point are
excluded by the range of the second byte. -/
def followers (first : Nat) : Option (List ByteRange) :=
  if first ≤ 0x7F then some []
  else if first < 0xC2 then none
  else if first ≤ 0xDF then some [continuation]
  else if first = 0xE0 then some [(0xA0, 0xBF), continuation]
  else if first = 0xED then some [(0x80, 0x9F), continuation]
  else if first ≤ 0xEF then some [continuation, continuation]
  else if first = 0xF0 then some [(0x90, 0xBF), continuation, continuation]
  else if first ≤ 0xF3 then some [continuation, continuation, continuation]
  else if first = 0xF4 then some [(0x80, 0x8F), continuation, continuation]
  else none

/-- The first fault of the bytes, where `index` is the position of the next byte, `expected` holds
the ranges that the character begun `taken` bytes ago still needs. -/
def firstFault (index taken : Nat) (expected : List ByteRange) : List UInt8 → Option Fault
  | [] => if expected.isEmpty then none else some (.incomplete (index - taken))
  | byte :: bytes =>
    match expected with
    | [] =>
      match followers byte.toNat with
      | some expected => firstFault (index + 1) 1 expected bytes
      | none => some (.invalid 1 index)
    | range :: expected =>
      if range.1 ≤ byte.toNat ∧ byte.toNat ≤ range.2 then
        firstFault (index + 1) (taken + 1) expected bytes
      else some (.invalid taken (index - taken))

/-- The text that the bytes encode, or their first fault. -/
def decode (bytes : ByteArray) : Except Fault String :=
  match String.fromUTF8? bytes with
  | some text => .ok text
  | none => .error ((firstFault 0 0 [] bytes.toList).getD (.incomplete 0))

end ParcelCompanion.Utf8
