import ParcelCompanion.Json.Value
import ParcelCompanion.Text.Character

/-!
# Reading JSON

The grammar is that of RFC 8259, with nothing allowed before or after the value but its four blank
characters.  Reading is lenient in one respect: an escape that is half of a surrogate pair is
accepted, and the string that holds it is no text.
-/

namespace ParcelCompanion.Json

/-! ### Blanks -/

/-- Whether a character may stand between tokens. -/
def isBlank (c : Char) : Bool :=
  c == ' ' || c == '\t' || c == '\n' || c == '\r'

/-- The characters from the first one on that is not blank. -/
def skipBlanks (cs : List Char) : List Char :=
  cs.dropWhile isBlank

/-! ### Strings -/

/-- A part of a string: a character, or a code unit that is half of a surrogate pair. -/
inductive Piece where
  | char (c : Char)
  | half (unit : Nat)
  deriving DecidableEq, Repr

/-- The part that a code unit is. -/
def Piece.ofUnit (unit : Nat) : Piece :=
  if 0xD800 ≤ unit ∧ unit ≤ 0xDFFF then .half unit else .char (Char.ofNat unit)

/-- The character that a backslash and the given letter stand for. -/
def escaped? : Char → Option Char
  | '"' => some '"'
  | '\\' => some '\\'
  | '/' => some '/'
  | 'b' => some '\x08'
  | 'f' => some '\x0c'
  | 'n' => some '\n'
  | 'r' => some '\r'
  | 't' => some '\t'
  | _ => none

/-- Reads the parts of a string up to the quote that ends it. -/
def readPieces : List Char → Option (List Piece × List Char)
  | [] => none
  | '"' :: cs => some ([], cs)
  | '\\' :: 'u' :: a :: b :: c :: d :: cs => do
    let unit ← Text.hexNumber? [a, b, c, d]
    let (pieces, cs) ← readPieces cs
    return (Piece.ofUnit unit :: pieces, cs)
  | '\\' :: e :: cs => do
    let char ← escaped? e
    let (pieces, cs) ← readPieces cs
    return (.char char :: pieces, cs)
  | c :: cs =>
    if c.toNat < 0x20 then none
    else do
      let (pieces, cs) ← readPieces cs
      return (.char c :: pieces, cs)

/-- The character of a surrogate pair. -/
def paired? (high low : Nat) : Option Char :=
  if high < 0xDC00 ∧ 0xDC00 ≤ low then
    some (Char.ofNat (0x10000 + 0x400 * (high - 0xD800) + (low - 0xDC00)))
  else none

/-- The characters of a string, unless it has an unpaired surrogate. -/
def assemble : List Piece → Option (List Char)
  | [] => some []
  | .char c :: pieces => (assemble pieces).map (c :: ·)
  | .half high :: .half low :: pieces => do
    let c ← paired? high low
    let cs ← assemble pieces
    return c :: cs
  | .half _ :: _ => none

/-- Reads a string from behind the quote that starts it. -/
def readString (cs : List Char) : Option (Text × List Char) := do
  let (pieces, cs) ← readPieces cs
  return ((assemble pieces).map String.ofList, cs)

/-! ### Numbers -/

/-- Reads one or more digits. -/
def readDigits (cs : List Char) : Option (List Char × List Char) :=
  let digits := cs.takeWhile Char.isDigit
  if digits.isEmpty then none else some (digits, cs.dropWhile Char.isDigit)

/-- Reads the fraction of a number, if it has one. -/
def readFraction : List Char → Option (List Char × List Char)
  | '.' :: cs => do
    let (digits, cs) ← readDigits cs
    return ('.' :: digits, cs)
  | cs => some ([], cs)

/-- Reads a sign that is among the given ones, if there is one. -/
def readSign (signs : List Char) : List Char → List Char × List Char
  | c :: cs => if signs.contains c then ([c], cs) else ([], c :: cs)
  | [] => ([], [])

/-- Reads the exponent of a number, if it has one. -/
def readExponent : List Char → Option (List Char × List Char)
  | e :: cs =>
    if e = 'e' ∨ e = 'E' then do
      let (sign, cs) := readSign ['+', '-'] cs
      let (digits, cs) ← readDigits cs
      return (e :: sign ++ digits, cs)
    else some ([], e :: cs)
  | [] => some ([], [])

/-- Reads a number, which has no superfluous zero in front. -/
def readNumber (cs : List Char) : Option (String × List Char) := do
  let (sign, cs) := readSign ['-'] cs
  let (whole, cs) ← readDigits cs
  if whole.head? = some '0' ∧ whole.length ≠ 1 then failure
  let (fraction, cs) ← readFraction cs
  let (exponent, cs) ← readExponent cs
  return (String.ofList (sign ++ whole ++ fraction ++ exponent), cs)

/-! ### Values -/

/-- Reads the given characters. -/
def readWord : List Char → List Char → Option (List Char)
  | [], cs => some cs
  | w :: word, c :: cs => if w = c then readWord word cs else none
  | _ :: _, [] => none

mutual

/-- Reads a value whose parts are nested less deeply than `depth`. -/
def readValue (depth : Nat) (cs : List Char) : Option (Value × List Char) :=
  match depth with
  | 0 => none
  | depth + 1 =>
    match skipBlanks cs with
    | '"' :: cs => do
      let (text, cs) ← readString cs
      return (.string text, cs)
    | '[' :: cs =>
      match skipBlanks cs with
      | ']' :: cs => some (.array [], cs)
      | cs => do
        let (items, cs) ← readItems depth cs
        return (.array items, cs)
    | '{' :: cs =>
      match skipBlanks cs with
      | '}' :: cs => some (.object [], cs)
      | cs => do
        let (members, cs) ← readMembers depth cs
        return (.object members, cs)
    | 'n' :: cs => return (.null, ← readWord ['u', 'l', 'l'] cs)
    | 't' :: cs => return (.bool true, ← readWord ['r', 'u', 'e'] cs)
    | 'f' :: cs => return (.bool false, ← readWord ['a', 'l', 's', 'e'] cs)
    | cs => do
      let (spelling, cs) ← readNumber cs
      return (.number spelling, cs)

/-- Reads the items of an array, of which there is at least one, and the bracket after them. -/
def readItems (depth : Nat) (cs : List Char) : Option (List Value × List Char) :=
  match depth with
  | 0 => none
  | depth + 1 => do
    let (item, cs) ← readValue depth cs
    match skipBlanks cs with
    | ',' :: cs =>
      let (items, cs) ← readItems depth cs
      return (item :: items, cs)
    | ']' :: cs => return ([item], cs)
    | _ => none

/-- Reads the members of an object, of which there is at least one, and the brace after them. -/
def readMembers (depth : Nat) (cs : List Char) : Option (List (Text × Value) × List Char) :=
  match depth with
  | 0 => none
  | depth + 1 =>
    match skipBlanks cs with
    | '"' :: cs => do
      let (key, cs) ← readString cs
      match skipBlanks cs with
      | ':' :: cs =>
        let (value, cs) ← readValue depth cs
        match skipBlanks cs with
        | ',' :: cs =>
          let (members, cs) ← readMembers depth cs
          return ((key, value) :: members, cs)
        | '}' :: cs => return ([(key, value)], cs)
        | _ => none
      | _ => none
    | _ => none

end

/-- Reads a text as one JSON value.  Each step down comes with a character of its own, and two
steps with the first character of a list. -/
def parse (text : String) : Option Value := do
  let cs := text.toList
  let (value, cs) ← readValue (2 * cs.length + 1) cs
  if (skipBlanks cs).isEmpty then return value else none

end ParcelCompanion.Json
