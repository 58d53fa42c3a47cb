import ParcelCompanion.Text.Character
import ParcelCompanion.Toml.Value

/-!
# Numbers of TOML

Digits may be grouped by underscores, each of which stands between two digits.  Integers have 64
bits.  A floating-point number must not be too large to be one, but a negative one may.
-/

namespace ParcelCompanion.Toml

/-! ### Digits -/

/-- Reads digits that go on a number, without the underscores between them. -/
def readMoreDigits (isDigit : Char → Bool) : List Char → Option (List Char × List Char)
  | '_' :: c :: cs =>
    if isDigit c then do
      let (digits, cs) ← readMoreDigits isDigit cs
      return (c :: digits, cs)
    else none
  | c :: cs =>
    if isDigit c then do
      let (digits, cs) ← readMoreDigits isDigit cs
      return (c :: digits, cs)
    else if c = '_' then none
    else some ([], c :: cs)
  | [] => some ([], [])

/-- Reads one or more digits. -/
def readDigits (isDigit : Char → Bool) : List Char → Option (List Char × List Char)
  | c :: cs =>
    if isDigit c then do
      let (digits, cs) ← readMoreDigits isDigit cs
      return (c :: digits, cs)
    else none
  | [] => none

/-- Reads a sign, if there is one. -/
def readSign : List Char → Bool × List Char
  | '-' :: cs => (true, cs)
  | '+' :: cs => (false, cs)
  | cs => (false, cs)

/-- Reads the digits of a whole number.  A zero in front stands alone. -/
def readWhole : List Char → Option (List Char × List Char)
  | '0' :: cs => some (['0'], cs)
  | cs => readDigits Char.isDigit cs

/-! ### Integers -/

/-- An integer of 64 bits. -/
def integer? (value : Int) : Option Value :=
  if Int64.minValue.toInt ≤ value ∧ value ≤ Int64.maxValue.toInt then some (.integer value)
  else none

/-- Whether a character is a digit of the given base. -/
def isDigitOf (base : Nat) (c : Char) : Bool :=
  match Text.hexDigit? c with
  | some digit => digit < base
  | none => false

/-- Reads the digits of a number in the given base. -/
def readBased (base : Nat) (cs : List Char) : Option (Value × List Char) := do
  let (digits, cs) ← readDigits (isDigitOf base) cs
  return (← integer? (← Text.inBase? base digits), cs)

/-- Reads an integer. -/
def readInteger : List Char → Option (Value × List Char)
  | '0' :: 'x' :: cs => readBased 16 cs
  | '0' :: 'o' :: cs => readBased 8 cs
  | '0' :: 'b' :: cs => readBased 2 cs
  | cs => do
    let (negative, cs) := readSign cs
    let (digits, cs) ← readWhole cs
    let magnitude : Int := Text.decimal digits
    return (← integer? (if negative then -magnitude else magnitude), cs)

/-! ### Floating-point numbers -/

/-- Reads the fraction of a number from its point on. -/
def readFraction : List Char → Option (List Char × List Char)
  | '.' :: cs => readDigits Char.isDigit cs
  | _ => none

/-- Reads the exponent of a number from its letter on. -/
def readExponent : List Char → Option (Int × List Char)
  | e :: cs =>
    if e = 'e' ∨ e = 'E' then do
      let (negative, cs) := readSign cs
      let (digits, cs) ← readDigits Char.isDigit cs
      let magnitude : Int := Text.decimal digits
      return (if negative then -magnitude else magnitude, cs)
    else none
  | [] => none

/-- Whether `mantissa * 10 ^ exponent` is rounded to infinity: it is at least halfway from the
largest number of 53 binary digits below `2 ^ 1024` to that power. -/
def isTooLarge (mantissa : Nat) (exponent : Int) : Bool :=
  let bound := (Nat.pow 2 54 - 1) * Nat.pow 2 970
  let size := (Nat.toDigits 10 mantissa).length
  if mantissa = 0 then false
  else if 400 < size + exponent then true
  else if size + exponent < 300 then false
  else if 0 ≤ exponent then bound ≤ mantissa * Nat.pow 10 exponent.toNat
  else bound * Nat.pow 10 (-exponent).toNat ≤ mantissa

/-- Reads the part of a floating-point number that tells it from an integer: a fraction, an
exponent, or both. -/
def readFloatTail (cs : List Char) : Option (List Char × Int × List Char) :=
  match readExponent cs with
  | some (exponent, cs) => some ([], exponent, cs)
  | none => do
    let (fraction, cs) ← readFraction cs
    match cs with
    | c :: _ =>
      if c = 'e' ∨ c = 'E' then
        let (exponent, cs) ← readExponent cs
        return (fraction, exponent, cs)
      else return (fraction, 0, cs)
    | [] => return (fraction, 0, [])

/-- Reads an infinity or what is no number. -/
def readSpecial (cs : List Char) : Option (List Char) :=
  match (readSign cs).2 with
  | 'i' :: 'n' :: 'f' :: cs => some cs
  | 'n' :: 'a' :: 'n' :: cs => some cs
  | _ => none

/-- Reads a floating-point number. -/
def readFloat (cs : List Char) : Option (Value × List Char) :=
  let spelled (rest : List Char) : Value :=
    .float (String.ofList (cs.take (cs.length - rest.length)))
  match readSpecial cs with
  | some rest => some (spelled rest, rest)
  | none => do
    let (negative, digits) := readSign cs
    let (whole, tail) ← readWhole digits
    let (fraction, exponent, rest) ← readFloatTail tail
    if !negative && isTooLarge (Text.decimal (whole ++ fraction)) (exponent - fraction.length) then
      failure
    return (spelled rest, rest)

end ParcelCompanion.Toml
