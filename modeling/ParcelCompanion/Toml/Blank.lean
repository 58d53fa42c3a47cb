/-!
# Blanks, comments and line ends

Between the parts of a line there may be spaces and tabs.  A comment runs to the end of its line
and must not hold control characters.  A line ends with a line feed, which may follow a carriage
return; a carriage return anywhere else is an error.
-/

namespace ParcelCompanion.Toml

/-- Whether a character is a space or a tab. -/
def isBlank (c : Char) : Bool :=
  c == ' ' || c == '\t'

/-- The characters from the first one on that is not blank. -/
def skipBlanks (cs : List Char) : List Char :=
  cs.dropWhile isBlank

/-- Whether a character may be in a comment: tabs, and whatever is no control character. -/
def isPrintable (c : Char) : Bool :=
  c == '\t' || (0x20 ≤ c.toNat && c.toNat != 0x7F)

/-- Reads the end of a line. -/
def readNewline : List Char → Option (List Char)
  | '\n' :: cs => some cs
  | '\r' :: '\n' :: cs => some cs
  | _ => none

/-- Reads the end of a line or of the document. -/
def readLineEnd : List Char → Option (List Char)
  | [] => some []
  | cs => readNewline cs

/-- Skips a comment, if there is one. -/
def skipComment : List Char → List Char
  | '#' :: cs => cs.dropWhile isPrintable
  | cs => cs

/-- Reads what may follow the last part of a line, and the end of the line. -/
def readLineRest (cs : List Char) : Option (List Char) :=
  readLineEnd (skipComment (skipBlanks cs))

/-- Skips blanks, comments and line ends.  Each of the at most `budget` steps skips some. -/
def skipLines (budget : Nat) (cs : List Char) : List Char :=
  let cs := skipComment (skipBlanks cs)
  match budget, readNewline cs with
  | budget + 1, some cs => skipLines budget cs
  | _, _ => cs

/-- Skips all blanks, comments and line ends. -/
def skipAll (cs : List Char) : List Char :=
  skipLines cs.length cs

end ParcelCompanion.Toml
