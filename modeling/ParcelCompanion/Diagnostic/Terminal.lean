import ParcelCompanion.Diagnostic.Basic

/-!
# Diagnostics on a terminal

A diagnostic is shown as a line with its severity, code and message, then its notes, then an empty
line.  Styles are switched on by escape sequences and end with a reset.

A note may have several lines.  A line ends at a line feed, which may follow a carriage return.  The
end of the text also ends a line, unless that line is empty, so the empty text has no lines and a
final line feed adds none.
-/

namespace ParcelCompanion

/-! ### Lines -/

namespace Text

/-- The lines of a character sequence, without their ends. -/
def splitLines : List Char → List (List Char)
  | [] => []
  | '\n' :: cs => [] :: splitLines cs
  | '\r' :: '\n' :: cs => [] :: splitLines cs
  | c :: cs =>
    match splitLines cs with
    | [] => [[c]]
    | line :: lines => (c :: line) :: lines

/-- The lines of a text, without their ends. -/
def lines (text : String) : List String :=
  (splitLines text.toList).map String.ofList

end Text

/-! ### Styles -/

/-- A style of text on a terminal. -/
structure Style where
  bold : Bool := false
  /-- The number of the colour among the eight basic ones, or of a bright one from eight on. -/
  color : Option Nat := none
  deriving DecidableEq, Repr

namespace Style

/-- The sequence that ends every style. -/
def reset : String := "\x1b[0m"

/-- The sequence that selects a colour.  A bright colour is selected from the palette of 256. -/
def colorSequence (color : Nat) : String :=
  if color < 8 then "\x1b[3" ++ toString color ++ "m" else "\x1b[38;5;" ++ toString color ++ "m"

/-- The sequences that switch from any style to the given one. -/
def sequence (style : Style) : String :=
  reset ++ (if style.bold then "\x1b[1m" else "")
    ++ (match style.color with
      | some color => colorSequence color
      | none => "")

/-- A text in a style, or plain when no colours are wanted. -/
def apply (style : Style) (colors : Bool) (text : String) : String :=
  if colors then style.sequence ++ text ++ reset else text

end Style

/-! ### Diagnostics -/

namespace Diagnostic

/-- The style in which a severity is shown. -/
def severityStyle (severity : Severity) : Style where
  bold := true
  color := match severity with
    | .bug | .error => some 9
    | .warning => some 11
    | .note => some 10
    | .help => some 14

/-- The style in which a message is shown. -/
def messageStyle : Style := { bold := true }

/-- The style of the mark before a note. -/
def markStyle : Style := { color := some 4 }

/-- The severity and the code, unless that is empty. -/
def label (diagnostic : Diagnostic) : String :=
  diagnostic.severity.name ++
    match diagnostic.code with
    | none | some "" => ""
    | some code => "[" ++ code ++ "]"

/-- The first line of a diagnostic.  The style of the severity goes over into that of the message
with a single reset. -/
def heading (colors : Bool) (diagnostic : Diagnostic) : String :=
  let severity := severityStyle diagnostic.severity
  if colors then
    severity.sequence ++ diagnostic.label ++ messageStyle.sequence ++ ": " ++ diagnostic.message
      ++ Style.reset ++ "\n"
  else diagnostic.label ++ ": " ++ diagnostic.message ++ "\n"

/-- A note: its first line after a mark, the others below. -/
def renderNote (colors : Bool) (note : String) : String :=
  match Text.lines note with
  | [] => ""
  | first :: others =>
    " " ++ markStyle.apply colors "=" ++ " " ++ first ++ "\n"
      ++ String.join (others.map fun line => "   " ++ line ++ "\n")

/-- A diagnostic as it is shown, with or without colours. -/
def render (colors : Bool) (diagnostic : Diagnostic) : String :=
  diagnostic.heading colors ++ String.join (diagnostic.notes.map (renderNote colors)) ++ "\n"

end Diagnostic

end ParcelCompanion
