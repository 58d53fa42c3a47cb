/-!
# Command lines

The tool has three commands.  `process` writes companions, `check` only tells what would be
written, and `inspect` explains a question about subtypes.  Options may stand anywhere after the
command; a value follows its option or is attached to it, and two dashes end the options.

Reading stops at the first word that asks for help or the version, or that is in error.
-/

namespace ParcelCompanion

/-! ### Commands -/

/-- How the diagnostics of a round are put out. -/
inductive DiagnosticFormat where
  | pretty | json
  deriving DecidableEq, Repr

/-- When colours are used. -/
inductive ColorChoice where
  | auto | always | never
  deriving DecidableEq, Repr

/-- What `process` and `check` have in common. -/
structure RoundOptions where
  /-- The path of the model document. -/
  model : String
  /-- The path of the settings, which are looked for unless it is given. -/
  settings : Option String := none
  format : DiagnosticFormat := .pretty
  color : Option ColorChoice := none
  deriving DecidableEq, Repr

/-- What the tool is to do. -/
inductive Command where
  /-- Run a round and write its companions below a directory. -/
  | process (options : RoundOptions) (outDir : String)
  /-- Run a round and keep its companions to itself. -/
  | check (options : RoundOptions)
  /-- Tell whether a declared type is a subtype of a target. -/
  | inspect (model type target : String) (color : Option ColorChoice)
  deriving DecidableEq, Repr

/-- What a command line asks for. -/
inductive Request where
  | run (command : Command)
  | version
  | help
  deriving DecidableEq, Repr

/-- What is wrong with a command line. -/
inductive UsageError where
  | noCommand
  | unknownCommand (word : String)
  | unexpected (word : String)
  | missing (name : String)
  | noValue (option : String)
  | invalidValue (name value : String)
  | repeated (option : String)
  deriving DecidableEq, Repr

/-- The wording of an error. -/
def UsageError.message : UsageError → String
  | .noCommand => "error: a command is required"
  | .unknownCommand word => "error: unrecognized subcommand '" ++ word ++ "'"
  | .unexpected word => "error: unexpected argument '" ++ word ++ "' found"
  | .missing name => "error: the argument '<" ++ name ++ ">' was not provided"
  | .noValue option => "error: a value is required for '--" ++ option ++ "' but none was supplied"
  | .invalidValue name value => "error: invalid value '" ++ value ++ "' for '" ++ name ++ "'"
  | .repeated option => "error: the argument '--" ++ option ++ "' cannot be used multiple times"

namespace Command

/-! ### What a command takes -/

/-- The texts that a value may be. -/
inductive ValueKind where
  /-- Any text. -/
  | text
  /-- Any text but the empty one. -/
  | path
  /-- One of the given words. -/
  | oneOf (words : List String)
  deriving DecidableEq, Repr

/-- Whether a text is a value of the kind. -/
def ValueKind.allows : ValueKind → String → Bool
  | .text, _ => true
  | .path, value => !value.isEmpty
  | .oneOf words, value => words.contains value

/-- An option of a command. -/
structure OptionSpec where
  name : String
  letter : Option Char := none
  kind : ValueKind
  deriving DecidableEq, Repr

/-- What a command takes. -/
structure Spec where
  options : List OptionSpec
  /-- The values without option, all of which are required, by their names. -/
  positionals : List (String × ValueKind)
  deriving DecidableEq, Repr

/-- The option with the given name. -/
def Spec.named? (spec : Spec) (name : String) : Option OptionSpec :=
  spec.options.find? fun option => option.name == name

/-- The option with the given letter. -/
def Spec.lettered? (spec : Spec) (letter : Char) : Option OptionSpec :=
  spec.options.find? fun option => option.letter == some letter

/-- The option that says when colours are used. -/
def colorOption : OptionSpec :=
  { name := "color", kind := .oneOf ["auto", "always", "never"] }

/-- The option that says how diagnostics are put out. -/
def formatOption : OptionSpec := { name := "format", kind := .oneOf ["pretty", "json"] }

/-- The option for the path of the settings. -/
def settingsOption : OptionSpec := { name := "config", kind := .path }

/-- The option for the directory that companions are written to. -/
def outDirOption : OptionSpec := { name := "out-dir", letter := some 'o', kind := .path }

/-- What `process` takes. -/
def processSpec : Spec where
  options := [outDirOption, settingsOption, formatOption, colorOption]
  positionals := [("MODEL", .path)]

/-- What `check` takes. -/
def checkSpec : Spec where
  options := [settingsOption, formatOption, colorOption]
  positionals := [("MODEL", .path)]

/-- What `inspect` takes. -/
def inspectSpec : Spec where
  options := [colorOption]
  positionals := [("MODEL", .path), ("TY", .text), ("TARGET", .text)]

/-! ### Reading words -/

/-- The values read so far. -/
structure Given where
  /-- The values of options by the name of the option. -/
  options : List (String × String) := []
  /-- The other values, in order. -/
  positionals : List String := []
  deriving DecidableEq, Repr

/-- Records the value of an option. -/
def Given.addOption (given : Given) (option : OptionSpec) (value : String) :
    Except UsageError Given :=
  if (given.options.lookup option.name).isSome then .error (.repeated option.name)
  else if !option.kind.allows value then .error (.invalidValue option.name value)
  else .ok { given with options := (option.name, value) :: given.options }

/-- Records a value without option. -/
def Given.addPositional (spec : Spec) (given : Given) (value : String) :
    Except UsageError Given :=
  match spec.positionals[given.positionals.length]? with
  | none => .error (.unexpected value)
  | some (name, kind) =>
    if !kind.allows value then .error (.invalidValue name value)
    else .ok { given with positionals := given.positionals ++ [value] }

/-- The name and the attached value of a word behind two dashes. -/
def splitAttached (cs : List Char) : String × Option String :=
  match cs.dropWhile (· != '=') with
  | _ :: value => (String.ofList (cs.takeWhile (· != '=')), some (String.ofList value))
  | [] => (String.ofList cs, none)

/-- Whether a word is a value by its looks, which a single dash is. -/
def looksLikeValue (word : String) : Bool :=
  word.toList.head? != some '-' || word == "-"

/-- What reading a word leads to. -/
inductive Next where
  /-- The values with those of the word. -/
  | given (given : Given)
  /-- The option whose value the next word is. -/
  | awaiting (option : OptionSpec)
  /-- All words from here on are values without option. -/
  | onlyValues
  | help

/-- Reads a word that starts with two dashes. -/
def readLong (spec : Spec) (given : Given) (word : String) : Except UsageError Next :=
  match splitAttached (word.toList.drop 2) with
  | ("help", none) => .ok .help
  | (name, value) =>
    match spec.named? name, value with
    | none, _ => .error (.unexpected word)
    | some option, some value => do return .given (← given.addOption option value)
    | some option, none => .ok (.awaiting option)

/-- Reads a word that starts with a dash and a letter.  What follows the letter is the value, with
or without an equals sign before it. -/
def readShort (spec : Spec) (given : Given) (word : String) : Except UsageError Next :=
  match word.toList.drop 1 with
  | [] => .error (.unexpected word)
  | letter :: attached =>
    if letter = 'h' then .ok .help
    else
      match spec.lettered? letter, attached with
      | none, _ => .error (.unexpected word)
      | some option, [] => .ok (.awaiting option)
      | some option, '=' :: value => do
        return .given (← given.addOption option (String.ofList value))
      | some option, value => do
        return .given (← given.addOption option (String.ofList value))

/-- Reads a word. -/
def readWord (spec : Spec) (given : Given) (word : String) : Except UsageError Next :=
  if looksLikeValue word then do return .given (← given.addPositional spec word)
  else if word = "--" then .ok .onlyValues
  else if "--".toList.isPrefixOf word.toList then readLong spec given word
  else readShort spec given word

/-- Reads the words after a command, or stops at one that asks for help. -/
def readWords (spec : Spec) (given : Given) : List String → Except UsageError (Option Given)
  | [] => .ok (some given)
  | word :: words => do
    match ← readWord spec given word with
    | .given given => readWords spec given words
    | .help => return none
    | .onlyValues => return some (← words.foldlM (Given.addPositional spec) given)
    | .awaiting option =>
      match words with
      | [] => throw (.noValue option.name)
      | value :: words =>
        if looksLikeValue value then do
          readWords spec (← given.addOption option value) words
        else throw (.noValue option.name)

/-! ### Commands from values -/

/-- The format that was asked for. -/
def Given.format (given : Given) : DiagnosticFormat :=
  if given.options.lookup "format" = some "json" then .json else .pretty

/-- The use of colours that was asked for. -/
def Given.color (given : Given) : Option ColorChoice :=
  match given.options.lookup "color" with
  | some "always" => some .always
  | some "never" => some .never
  | some _ => some .auto
  | none => none

/-- The options of a round. -/
def Given.roundOptions (given : Given) (model : String) : RoundOptions where
  model
  settings := given.options.lookup "config"
  format := given.format
  color := given.color

/-- The first value that is missing. -/
def firstMissing (spec : Spec) (given : Given) : UsageError :=
  match spec.positionals[given.positionals.length]? with
  | some (name, _) => .missing name
  | none => .noCommand

/-- The words after a command as a request, where `make` makes the command from its values. -/
def request (spec : Spec) (make : Given → Option Command) (words : List String) :
    Except UsageError Request := do
  match ← readWords spec {} words with
  | none => return .help
  | some given =>
    match make given with
    | some command => return .run command
    | none => throw (firstMissing spec given)

/-- The command `process` from its values. -/
def ofProcess (given : Given) : Option Command :=
  match given.positionals with
  | [model] =>
    some (.process (given.roundOptions model) ((given.options.lookup "out-dir").getD "generated"))
  | _ => none

/-- The command `check` from its values. -/
def ofCheck (given : Given) : Option Command :=
  match given.positionals with
  | [model] => some (.check (given.roundOptions model))
  | _ => none

/-- The command `inspect` from its values. -/
def ofInspect (given : Given) : Option Command :=
  match given.positionals with
  | [model, type, target] => some (.inspect model type target given.color)
  | _ => none

/-- The words after `help`, which may name a command. -/
def helpRequest : List String → Except UsageError Request
  | [] => .ok .help
  | word :: words =>
    if ["process", "check", "inspect", "help"].contains word then
      match words with
      | [] => .ok .help
      | extra :: _ => .error (.unknownCommand extra)
    else .error (.unknownCommand word)

/-- What the words of a command line ask for. -/
def parse : List String → Except UsageError Request
  | [] => .error .noCommand
  | "process" :: words => request processSpec ofProcess words
  | "check" :: words => request checkSpec ofCheck words
  | "inspect" :: words => request inspectSpec ofInspect words
  | "help" :: words => helpRequest words
  | "--version" :: _ => .ok .version
  | "--help" :: _ => .ok .help
  | word :: _ =>
    match word.toList with
    | '-' :: 'V' :: _ => .ok .version
    | '-' :: 'h' :: _ => .ok .help
    | '-' :: _ => .error (.unexpected word)
    | _ => .error (.unknownCommand word)

end Command

end ParcelCompanion
