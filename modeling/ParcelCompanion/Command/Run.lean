import ParcelCompanion.Command.Summary
import ParcelCompanion.Document.Build
import ParcelCompanion.Output.Directory
import ParcelCompanion.Round.Run
import ParcelCompanion.Settings.Toml

/-!
# Running commands

A command reads files, may write some, and ends with an exit code and texts for standard output and
standard error.  A command that cannot do its work fails with 1, as does a round that reports an
error; a command line that cannot be read fails with 2.

`process` and `check` read their settings before the model, so that a fault in the settings is
reported first.
-/

namespace ParcelCompanion

/-- How a command ended. -/
structure Outcome where
  exitCode : Nat := 0
  /-- The text for standard output. -/
  output : String := ""
  /-- The text for standard error. -/
  errors : String := ""
  deriving DecidableEq, Repr

/-- Why a command cannot do its work. -/
inductive CommandError where
  /-- The settings at a path cannot be read, or are at fault. -/
  | settings (path : String) (fault : Option SettingsError)
  /-- The model at a path cannot be read, or is at fault. -/
  | model (path : String) (fault : Option Document.LoadError)
  /-- The model at a path does not declare a type. -/
  | undeclared (type path : String)
  /-- The model could not answer. -/
  | unanswered (fault : ModelError)
  deriving DecidableEq, Repr

namespace CommandError

/-- The wording of an error. -/
def message : CommandError → String
  | .settings path _ => "Failed to load config from " ++ path
  | .model path _ => "Failed to load model from " ++ path
  | .undeclared type path => "Type '" ++ type ++ "' is not declared in " ++ path
  | .unanswered fault => fault.message

/-- The wording of what an error comes from. -/
def cause? : CommandError → Option String
  | .settings _ none | .model _ none => some "the file cannot be read"
  | .settings _ (some fault) => some fault.message
  | .model _ (some .malformed) => some "the text is no model document"
  | .model _ (some (.model fault)) => some fault.message
  | .undeclared .. | .unanswered _ => none

/-- How a command ends with an error. -/
def outcome (error : CommandError) : Outcome where
  exitCode := 1
  errors := "Error: " ++ error.message
    ++ (match error.cause? with
      | some cause => "\n\nCaused by:\n    " ++ cause
      | none => "") ++ "\n"

end CommandError

namespace Command

variable {m : Type → Type} [Monad m] {file : Type}

/-! ### Inputs -/

/-- The name of the file that settings are looked for in. -/
def settingsName : String := "parcelgen.toml"

/-- The first of the paths that leads to a file. -/
def firstFile? (files : FileSystem m file) : List String → m (Option String)
  | [] => return none
  | path :: paths => do
    if ← files.isFile path then return some path
    firstFile? files paths

/-- The path of the settings: the given one, or that of the nearest file of their name in the
current directory and those above it. -/
def settingsPath? (files : FileSystem m file) (environment : Environment) :
    Option String → m (Option String)
  | some path => return some path
  | none =>
    match environment.directory with
    | some directory =>
      firstFile? files ((Path.ancestors directory).map fun above => Path.join above settingsName)
    | none => return none

/-- The settings, which are the defaults when there is no file with settings. -/
def loadSettings (files : FileSystem m file) (environment : Environment)
    (given : Option String) : ExceptT CommandError m Settings := do
  match ← ExceptT.lift (settingsPath? files environment given) with
  | none => return {}
  | some path =>
    match ← files.readText path with
    | none => throw (.settings path none)
    | some text =>
      match Settings.parse text with
      | .ok settings => return settings
      | .error fault => throw (.settings path (some fault))

/-- The model at a path. -/
def loadModel (files : FileSystem m file) (path : String) : ExceptT CommandError m Model := do
  match ← files.readText path with
  | none => throw (.model path none)
  | some text =>
    match Document.load text with
    | .ok model => return model
    | .error fault => throw (.model path (some fault))

/-! ### Commands -/

/-- How a round ends.  In JSON the diagnostics go to standard output in place of the summary;
otherwise those that are errors go to standard error. -/
def roundOutcome (format : DiagnosticFormat) (colors : Bool) (report : Report)
    (diagnostics : List Diagnostic) (summary : String) : Outcome :=
  let exitCode := if report.hasErrors then 1 else 0
  match format with
  | .json => { exitCode, output := Round.document report diagnostics ++ "\n" }
  | .pretty =>
    let errors := diagnostics.filter Diagnostic.isError
    { exitCode, output := summary, errors := String.join (errors.map (Diagnostic.render colors)) }

/-- Runs a round and writes its companions below a directory. -/
def runProcess (files : FileSystem m file) (environment : Environment) (options : RoundOptions)
    (outDir : String) : ExceptT CommandError m Outcome := do
  let colors := environment.usesColors options.color
  let settings ← loadSettings files environment options.settings
  let model ← loadModel files options.model
  let round := Round.runAll model settings (DirectoryLog.sink files outDir)
  let ((report, diagnostics), log) ← round.run {}
  return roundOutcome options.format colors report diagnostics
    (report.writtenSummary colors outDir log.written.toList)

/-- Runs a round and tells what it would write. -/
def runCheck (files : FileSystem m file) (environment : Environment) (options : RoundOptions) :
    ExceptT CommandError m Outcome := do
  let colors := environment.usesColors options.color
  let settings ← loadSettings files environment options.settings
  let model ← loadModel files options.model
  let ((report, diagnostics), store) := (Round.runAll model settings UnitStore.sink).run {}
  return roundOutcome options.format colors report diagnostics
    (report.plannedSummary colors store.units.toList)

/-- The explanation of whether a declared type of a model is a subtype of a target. -/
def explain (colors : Bool) (model : Model) (path type target : String) :
    Except CommandError Outcome :=
  match (model.lookup type).bind model.declaration? with
  | none => .error (.undeclared type path)
  | some declaration =>
    match model.ancestry declaration.selfType with
    | .error fault => .error (.unanswered fault)
    | .ok ancestry =>
      let holds := model.isSubtype declaration.selfType target
      .ok { output := subtypeExplanation colors type target holds ancestry }

/-- Tells whether a declared type is a subtype of a target. -/
def runInspect (files : FileSystem m file) (environment : Environment)
    (path type target : String) (color : Option ColorChoice) :
    ExceptT CommandError m Outcome := do
  let model ← loadModel files path
  ExceptT.mk (pure (explain (environment.usesColors color) model path type target))

/-- Runs a command. -/
def run (files : FileSystem m file) (environment : Environment) (command : Command) :
    m Outcome := do
  let action := match command with
    | .process options outDir => runProcess files environment options outDir
    | .check options => runCheck files environment options
    | .inspect path type target color => runInspect files environment path type target color
  match ← action.run with
  | .ok outcome => return outcome
  | .error error => return error.outcome

/-! ### The tool -/

/-- What `--version` puts out. -/
def versionText : String := "parcelgen 0.1.0\n"

/-- What `--help` puts out. -/
def helpText : String :=
  "Parcel marshalling code generator for @ParcelField\n\n"
    ++ "Usage: parcelgen <COMMAND>\n\n"
    ++ "Commands:\n"
    ++ "  process  Run one processing round and write the generated sources\n"
    ++ "  check    Validate and classify without writing anything\n"
    ++ "  inspect  Show whether a declared type is a structural subtype of a target\n"

/-- Does what the words of a command line ask for. -/
def runWords (files : FileSystem m file) (environment : Environment) (words : List String) :
    m Outcome :=
  match parse words with
  | .error error => return { exitCode := 2, errors := error.message ++ "\n" }
  | .ok .version => return { output := versionText }
  | .ok .help => return { output := helpText }
  | .ok (.run command) => command.run files environment

end Command

end ParcelCompanion
