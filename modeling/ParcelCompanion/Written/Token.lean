import ParcelCompanion.Text.Letter
import ParcelCompanion.Text.Number

/-!
# The tokens of a written type

A written type is cut into words and marks.  A word is as long as possible, the two brackets of
an array are one mark with nothing between them, and white space only separates.  The first
character at which neither white space nor a token starts is reported with its position, counted
in bytes of UTF-8.
-/

namespace ParcelCompanion.WrittenType

/-- A token of a written type. -/
inductive Token where
  /-- An identifier. -/
  | word (text : String)
  /-- The mark `.`. -/
  | dot
  /-- The mark `,`. -/
  | comma
  /-- The mark `<`. -/
  | less
  /-- The mark `>`. -/
  | greater
  /-- The mark `?`. -/
  | question
  /-- The mark `[]`. -/
  | brackets
  deriving DecidableEq, Repr

namespace Token

/-- The text of a token. -/
def text : Token → String
  | .word text => text
  | .dot => "."
  | .comma => ","
  | .less => "<"
  | .greater => ">"
  | .question => "?"
  | .brackets => "[]"

/-- A token as messages show it. -/
def quoted (token : Token) : String :=
  "'" ++ token.text ++ "'"

/-- Whether a word may start with the character. -/
def startsWord (c : Char) : Bool :=
  Text.isLetter c || c == '_' || c == '$'

/-- Whether a word may go on with the character. -/
def continuesWord (c : Char) : Bool :=
  Text.isLetter c || Text.isNumber c || c == '_' || c == '$'

/-- The mark that consists of the character alone. -/
def mark? : Char → Option Token
  | '.' => some .dot
  | ',' => some .comma
  | '<' => some .less
  | '>' => some .greater
  | '?' => some .question
  | _ => none

/-- The number of bytes that characters take in UTF-8. -/
def width : List Char → Nat
  | [] => 0
  | c :: cs => c.utf8Size + width cs

/-- A character at which no token starts, and the number of bytes before it. -/
structure Stray where
  char : Char
  offset : Nat
  deriving DecidableEq, Repr

/-- The tokens of the characters that follow the first `offset` bytes of a text. -/
def scan (offset : Nat) : List Char → Except Stray (List Token)
  | [] => .ok []
  | c :: cs =>
    if Text.isWhiteSpace c then
      scan (offset + c.utf8Size) cs
    else if startsWord c then do
      let more := cs.takeWhile continuesWord
      let tokens ← scan (offset + width (c :: more)) (cs.dropWhile continuesWord)
      return .word (String.ofList (c :: more)) :: tokens
    else if c = '[' ∧ cs.head? = some ']' then do
      let tokens ← scan (offset + 2) cs.tail
      return .brackets :: tokens
    else
      match mark? c with
      | some mark => do
        let tokens ← scan (offset + 1) cs
        return mark :: tokens
      | none => .error ⟨c, offset⟩
termination_by cs => cs.length
decreasing_by
  · simp only [List.length_cons]
    omega
  · have := (List.dropWhile_suffix (l := cs) continuesWord).length_le
    simp only [List.length_cons]
    omega
  · simp only [List.length_cons, List.length_tail]
    omega
  · simp only [List.length_cons]
    omega

/-- The tokens of a text. -/
def ofText (text : String) : Except Stray (List Token) :=
  scan 0 text.toList

end Token

end ParcelCompanion.WrittenType
