import ParcelCompanion.Text.Character
import ParcelCompanion.Toml.Blank

/-!
# Strings of TOML

There are basic strings between double quotes, in which a backslash starts an escape, and literal
strings between single quotes, which have none.  Both also come in a form between three quotes that
may run over several lines.
-/

namespace ParcelCompanion.Toml

/-! ### Escapes -/

/-- The character with the given number, if there is one. -/
def charOf? (n : Nat) : Option Char :=
  if n.isValidChar then some (Char.ofNat n) else none

/-- The character that a backslash and the given letter stand for. -/
def escaped? : Char → Option Char
  | 'b' => some '\x08'
  | 't' => some '\t'
  | 'n' => some '\n'
  | 'f' => some '\x0c'
  | 'r' => some '\r'
  | '"' => some '"'
  | '\\' => some '\\'
  | _ => none

/-- Reads an escape from behind its backslash. -/
def readEscape : List Char → Option (Char × List Char)
  | 'u' :: cs => do
    let digits := cs.take 4
    if digits.length < 4 then failure
    return (← charOf? (← Text.hexNumber? digits), cs.drop 4)
  | 'U' :: cs => do
    let digits := cs.take 8
    if digits.length < 8 then failure
    return (← charOf? (← Text.hexNumber? digits), cs.drop 8)
  | c :: cs => do return (← escaped? c, cs)
  | [] => none

/-! ### Strings on one line -/

/-- Reads a basic string from behind its first quote. -/
def readBasic (budget : Nat) (cs : List Char) : Option (List Char × List Char) :=
  match budget, cs with
  | _, '"' :: cs => some ([], cs)
  | budget + 1, '\\' :: cs => do
    let (c, cs) ← readEscape cs
    let (text, cs) ← readBasic budget cs
    return (c :: text, cs)
  | budget + 1, c :: cs =>
    if isPrintable c then do
      let (text, cs) ← readBasic budget cs
      return (c :: text, cs)
    else none
  | _, _ => none

/-- Reads a literal string from behind its first quote. -/
def readLiteral : List Char → Option (List Char × List Char)
  | '\'' :: cs => some ([], cs)
  | c :: cs =>
    if isPrintable c then do
      let (text, cs) ← readLiteral cs
      return (c :: text, cs)
    else none
  | [] => none

/-! ### Strings over several lines -/

/-- What follows a backslash at the end of a line, behind all blanks and line ends. -/
def skipLineBreak (cs : List Char) : Option (List Char) := do
  let cs ← readNewline (skipBlanks cs)
  return skip cs.length cs
where
  /-- Skips blanks and line ends. -/
  skip (budget : Nat) (cs : List Char) : List Char :=
    let cs := skipBlanks cs
    match budget, readNewline cs with
    | budget + 1, some cs => skip budget cs
    | _, _ => cs

/-- The quotes at the end of a string that belong to its text: of up to five, all but the last
three. -/
def closingQuotes (quote : Char) (cs : List Char) : List Char × List Char :=
  match cs with
  | a :: b :: rest =>
    if a = quote ∧ b = quote then ([a, b], rest)
    else if a = quote then ([a], b :: rest)
    else ([], cs)
  | [a] => if a = quote then ([a], []) else ([], cs)
  | [] => ([], [])

/-- Reads a basic string over several lines from behind its first line end.  A line ends with a
single line feed, however it was written. -/
def readBasicLines (budget : Nat) (cs : List Char) : Option (List Char × List Char) :=
  match budget, cs with
  | _, '"' :: '"' :: '"' :: cs => some (closingQuotes '"' cs)
  | budget + 1, '\\' :: cs => do
    match skipLineBreak cs with
    | some cs => readBasicLines budget cs
    | none =>
      let (c, cs) ← readEscape cs
      let (text, cs) ← readBasicLines budget cs
      return (c :: text, cs)
  | budget + 1, c :: cs =>
    match readNewline (c :: cs) with
    | some cs => do
      let (text, cs) ← readBasicLines budget cs
      return ('\n' :: text, cs)
    | none =>
      if isPrintable c then do
        let (text, cs) ← readBasicLines budget cs
        return (c :: text, cs)
      else none
  | _, _ => none

/-- Reads a literal string over several lines from behind its first line end. -/
def readLiteralLines (budget : Nat) (cs : List Char) : Option (List Char × List Char) :=
  match budget, cs with
  | _, '\'' :: '\'' :: '\'' :: cs => some (closingQuotes '\'' cs)
  | budget + 1, c :: cs =>
    match readNewline (c :: cs) with
    | some cs => do
      let (text, cs) ← readLiteralLines budget cs
      return ('\n' :: text, cs)
    | none =>
      if isPrintable c then do
        let (text, cs) ← readLiteralLines budget cs
        return (c :: text, cs)
      else none
  | _, _ => none

/-- Skips a line end directly behind the three quotes that start a string. -/
def skipFirstNewline (cs : List Char) : List Char :=
  (readNewline cs).getD cs

/-- Reads a string on one line, starting with its quote. -/
def readLineString : List Char → Option (String × List Char)
  | '"' :: cs => do
    let (text, cs) ← readBasic cs.length cs
    return (String.ofList text, cs)
  | '\'' :: cs => do
    let (text, cs) ← readLiteral cs
    return (String.ofList text, cs)
  | _ => none

/-- Reads a string of any form, starting with its quotes. -/
def readString : List Char → Option (String × List Char)
  | '"' :: '"' :: '"' :: cs => do
    let (text, cs) ← readBasicLines cs.length (skipFirstNewline cs)
    return (String.ofList text, cs)
  | '\'' :: '\'' :: '\'' :: cs => do
    let (text, cs) ← readLiteralLines cs.length (skipFirstNewline cs)
    return (String.ofList text, cs)
  | cs => readLineString cs

end ParcelCompanion.Toml
