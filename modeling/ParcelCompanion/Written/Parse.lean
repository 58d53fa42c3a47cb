import ParcelCompanion.Written.Token
import ParcelCompanion.Written.Type

/-!
# Reading a written type

The grammar, over tokens:

```text
type     := name args? "[]"*
name     := word ("." word)*
args     := "<" arg ("," arg)* ">"
arg      := "?" (("extends" | "super") type)? | type
```

One token of look-ahead decides every choice, so a text has at most one tree.  The words `extends`
and `super` are special only directly after a question mark.
-/

namespace ParcelCompanion.WrittenType

/-- Why a text is no written type. -/
inductive Fault where
  /-- A character belongs to no token. -/
  | stray (stray : Token.Stray)
  /-- There is no token at all. -/
  | empty
  /-- A word had to come, and something else or nothing did. -/
  | noWord (found : Option Token)
  /-- An argument list had to be closed, and something else or nothing came. -/
  | unclosed (found : Option Token)
  /-- A token follows a complete type. -/
  | trailing (token : Token)
  /-- The argument lists are nested more deeply than there are tokens, which no text achieves. -/
  | tooDeep
  deriving DecidableEq, Repr

/-- A token, or the end of the text, as messages show it. -/
def Fault.shown (found : Option Token) : String :=
  match found with
  | some token => token.quoted
  | none => "end of input"

/-- The wording of a fault. -/
def Fault.message : Fault → String
  | .stray ⟨char, offset⟩ =>
    "unexpected character '" ++ char.toString ++ "' at offset " ++ toString offset
  | .empty => "empty type expression"
  | .noWord found => "expected identifier, found " ++ shown found
  | .unclosed found => "expected '>', found " ++ shown found
  | .trailing token => "unexpected trailing " ++ token.quoted
  | .tooDeep => "type arguments nested too deeply"

/-! ### Pieces without nesting

A reading function answers with what it read from the front of the tokens and the tokens after it.
-/

/-- Reads a name, joining its words by dots. -/
def readName : List Token → Except Fault (String × List Token)
  | .word word :: .dot :: tokens => do
    let (rest, tokens) ← readName tokens
    return (word ++ "." ++ rest, tokens)
  | .word word :: tokens => .ok (word, tokens)
  | tokens => .error (.noWord tokens.head?)

/-- Reads the brackets after a type, each of which makes an array of what is before it. -/
def readBrackets (element : WrittenType) : List Token → WrittenType × List Token
  | .brackets :: tokens => readBrackets element.array tokens
  | tokens => (element, tokens)

/-- The bound that the token after a question mark introduces. -/
def boundKind? : List Token → Option (BoundKind × List Token)
  | .word word :: tokens =>
    if word = BoundKind.upper.keyword then some (.upper, tokens)
    else if word = BoundKind.lower.keyword then some (.lower, tokens)
    else none
  | _ => none

/-! ### Types and their arguments -/

mutual

/-- Reads a type whose argument lists are nested less deeply than `depth`. -/
def readType (depth : Nat) (tokens : List Token) : Except Fault (WrittenType × List Token) :=
  match depth with
  | 0 => .error .tooDeep
  | depth + 1 => do
    let (name, tokens) ← readName tokens
    match tokens with
    | .less :: tokens =>
      let (args, tokens) ← readArgs depth tokens
      return readBrackets (.named name args) tokens
    | tokens => return readBrackets (.named name []) tokens

/-- Reads a type argument. -/
def readArg (depth : Nat) (tokens : List Token) : Except Fault (WrittenType × List Token) :=
  match depth with
  | 0 => .error .tooDeep
  | depth + 1 =>
    match tokens with
    | .question :: tokens =>
      match boundKind? tokens with
      | some (kind, tokens) => do
        let (bound, tokens) ← readType depth tokens
        return (.bounded kind bound, tokens)
      | none => .ok (.wildcard, tokens)
    | tokens => readType depth tokens

/-- Reads type arguments up to the mark that closes their list. -/
def readArgs (depth : Nat) (tokens : List Token) : Except Fault (List WrittenType × List Token) :=
  match depth with
  | 0 => .error .tooDeep
  | depth + 1 => do
    let (arg, tokens) ← readArg depth tokens
    match tokens with
    | .comma :: tokens =>
      let (args, tokens) ← readArgs depth tokens
      return (arg :: args, tokens)
    | .greater :: tokens => return ([arg], tokens)
    | tokens => .error (.unclosed tokens.head?)

end

/-- Reads a type from all of the tokens.  Every step down consumes a token or passes from a list
to its argument or from an argument to its type, so three steps per token are enough. -/
def ofTokens (tokens : List Token) : Except Fault WrittenType :=
  if tokens.isEmpty then .error .empty
  else do
    match ← readType (3 * tokens.length + 1) tokens with
    | (type, []) => return type
    | (_, token :: _) => .error (.trailing token)

/-- Reads a text as a type. -/
def parse (text : String) : Except Fault WrittenType :=
  match Token.ofText text with
  | .ok tokens => ofTokens tokens
  | .error stray => .error (.stray stray)

end ParcelCompanion.WrittenType
