import ParcelCompanion.Text.Character
import ParcelCompanion.Toml.Value

/-!
# Dates and times of TOML

A date may be followed by a time, and the time then by an offset.  A time may also stand alone.
Days must exist in their month; a minute may have a leap second.
-/

namespace ParcelCompanion.Toml

/-- Reads exactly `count` digits as a number in the given range, both ends included. -/
def readField (count low high : Nat) (cs : List Char) : Option (Nat × List Char) := do
  let digits := cs.take count
  if digits.length < count || !digits.all Char.isDigit then failure
  let value := Text.decimal digits
  if value < low || high < value then failure
  return (value, cs.drop count)

/-- Reads a given character. -/
def readMark (mark : Char) : List Char → Option (List Char)
  | c :: cs => if c = mark then some cs else none
  | [] => none

/-- Whether February has a day more in a year. -/
def isLeapYear (year : Nat) : Bool :=
  year % 4 == 0 && (year % 100 != 0 || year % 400 == 0)

/-- The number of days of a month. -/
def daysIn (year month : Nat) : Nat :=
  if month = 2 then if isLeapYear year then 29 else 28
  else if month = 4 ∨ month = 6 ∨ month = 9 ∨ month = 11 then 30
  else 31

/-- Reads a date. -/
def readDate (cs : List Char) : Option (List Char) := do
  let (year, cs) ← readField 4 0 9999 cs
  let (month, cs) ← readField 2 1 12 (← readMark '-' cs)
  let (_, cs) ← readField 2 1 (daysIn year month) (← readMark '-' cs)
  return cs

/-- Reads the fraction of a second, if there is one. -/
def skipSecondFraction : List Char → List Char
  | '.' :: c :: cs => if c.isDigit then cs.dropWhile Char.isDigit else '.' :: c :: cs
  | cs => cs

/-- Reads a time. -/
def readTime (cs : List Char) : Option (List Char) := do
  let (_, cs) ← readField 2 0 23 cs
  let (_, cs) ← readField 2 0 59 (← readMark ':' cs)
  let (_, cs) ← readField 2 0 60 (← readMark ':' cs)
  return skipSecondFraction cs

/-- Reads an offset from universal time. -/
def readOffset : List Char → Option (List Char)
  | c :: cs =>
    if c = 'Z' ∨ c = 'z' then some cs
    else if c = '+' ∨ c = '-' then do
      let (_, cs) ← readField 2 0 23 cs
      let (_, cs) ← readField 2 0 59 (← readMark ':' cs)
      return cs
    else none
  | [] => none

/-- Reads the time of a date, with its offset if it has one. -/
def readDateTail : List Char → Option (List Char)
  | c :: cs =>
    if c = 'T' ∨ c = 't' ∨ c = ' ' then do
      let cs ← readTime cs
      return (readOffset cs).getD cs
    else none
  | [] => none

/-- Reads a date, a time, or both. -/
def readDateTime (cs : List Char) : Option (Value × List Char) := do
  let rest ← match readDate cs with
    | some rest => some ((readDateTail rest).getD rest)
    | none => readTime cs
  return (.dateTime (String.ofList (cs.take (cs.length - rest.length))), rest)

end ParcelCompanion.Toml
