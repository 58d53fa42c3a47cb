import ParcelCompanion.Command.Args
import ParcelCompanion.Diagnostic.Terminal

/-!
# Colours of a command

Colours are used when they were asked for.  Unless the command line decides, they are used on a
terminal that is known to have them.  A refusal for all programs goes before the command line.
-/

namespace ParcelCompanion

/-- What a command knows of the place it runs in. -/
structure Environment where
  /-- The path of the current directory. -/
  directory : Option String := none
  /-- Whether colours are refused for all programs. -/
  refusesColors : Bool := false
  /-- The kind of terminal. -/
  terminal : Option String := none
  deriving DecidableEq, Repr

namespace Environment

/-- Whether there is a terminal that has colours. -/
def hasColors (environment : Environment) : Bool :=
  match environment.terminal with
  | some kind => kind != "dumb"
  | none => false

/-- Whether a command uses colours, given what its command line says. -/
def usesColors (environment : Environment) (choice : Option ColorChoice) : Bool :=
  !environment.refusesColors &&
    match choice.getD .auto with
    | .auto => environment.hasColors
    | .always => true
    | .never => false

end Environment

namespace Style

/-- The style of what went well. -/
def success : Style := { bold := true, color := some 2 }

/-- The style of what went wrong. -/
def failure : Style := { bold := true, color := some 1 }

/-- The style of a place. -/
def place : Style := { color := some 6 }

/-- The style of what is said by the way. -/
def aside : Style := { color := some 7 }

/-- The style of a name that stands out. -/
def strong : Style := { bold := true }

end Style

end ParcelCompanion
