import ParcelCompanion.Command.Args
import ParcelCompanion.Command.Color
import ParcelCompanion.Command.Run
import ParcelCompanion.Command.Summary
import ParcelCompanion.Companion.Basic
import ParcelCompanion.Companion.Source
import ParcelCompanion.Diagnostic.Basic
import ParcelCompanion.Diagnostic.Json
import ParcelCompanion.Diagnostic.Terminal
import ParcelCompanion.Document.Basic
import ParcelCompanion.Document.Build
import ParcelCompanion.Document.Json
import ParcelCompanion.Json.Reader
import ParcelCompanion.Json.Value
import ParcelCompanion.Json.Writer
import ParcelCompanion.Main
import ParcelCompanion.Model.Ancestry
import ParcelCompanion.Model.Basic
import ParcelCompanion.Model.CanonicalName
import ParcelCompanion.Model.Declaration
import ParcelCompanion.Model.Edit
import ParcelCompanion.Model.Error
import ParcelCompanion.Model.Hierarchy
import ParcelCompanion.Model.Primitive
import ParcelCompanion.Model.Resolve
import ParcelCompanion.Model.TypeTerm
import ParcelCompanion.Output.Directory
import ParcelCompanion.Output.FileSystem
import ParcelCompanion.Output.FileTree
import ParcelCompanion.Output.Memory
import ParcelCompanion.Output.Sink
import ParcelCompanion.Record
import ParcelCompanion.Round.Failure
import ParcelCompanion.Round.Json
import ParcelCompanion.Round.Rule
import ParcelCompanion.Round.Run
import ParcelCompanion.Round.Targets
import ParcelCompanion.Settings.Basic
import ParcelCompanion.Settings.Toml
import ParcelCompanion.Text.Alphabetic
import ParcelCompanion.Text.Character
import ParcelCompanion.Text.Dotted
import ParcelCompanion.Text.Letter
import ParcelCompanion.Text.Number
import ParcelCompanion.Text.Path
import ParcelCompanion.Text.Utf8
import ParcelCompanion.Toml.Blank
import ParcelCompanion.Toml.DateTime
import ParcelCompanion.Toml.Number
import ParcelCompanion.Toml.Reader
import ParcelCompanion.Toml.Text
import ParcelCompanion.Toml.Value
import ParcelCompanion.Written.Parse
import ParcelCompanion.Written.Token
import ParcelCompanion.Written.Type
import ParcelCompanion.Proofs.Edit.Outcome
import ParcelCompanion.Proofs.Model.Arena
import ParcelCompanion.Proofs.Model.Coherent
import ParcelCompanion.Proofs.Model.Declare
import ParcelCompanion.Proofs.Edit.Keeps
import ParcelCompanion.Proofs.Answer
import ParcelCompanion.Proofs.Written.Placement
import ParcelCompanion.Proofs.Edit.Resolution
import ParcelCompanion.Proofs.Model.Platform
import ParcelCompanion.Proofs.Edit.Calls
import ParcelCompanion.Proofs.Model.Acyclic
import ParcelCompanion.Proofs.Model.CanonicalName
import ParcelCompanion.Proofs.Model.Finish
import ParcelCompanion.Proofs.Document.Build
import ParcelCompanion.Proofs.Model.Subtype
import ParcelCompanion.Proofs.Round.Acceptance
import ParcelCompanion.Proofs.Round.Targets
import ParcelCompanion.Proofs.Round.Run
import ParcelCompanion.Proofs.Written.Lexing
import ParcelCompanion.Proofs.Written.Grammar
import ParcelCompanion.Proofs.Written.Printing
import ParcelCompanion.Proofs.Text.Dotted
import ParcelCompanion.Proofs.Text.Path
import ParcelCompanion.Proofs.Output.FileTree
import ParcelCompanion.Proofs.Companion.Name
import ParcelCompanion.Proofs.Output.Directory
import ParcelCompanion.Proofs.Output.Memory
import ParcelCompanion.Proofs.Round.Emission
import ParcelCompanion.Proofs.Meaning.TypeTree
import ParcelCompanion.Proofs.Document.Order
import ParcelCompanion.Proofs.Model.Indexed
import ParcelCompanion.Proofs.Edit.Grounding
import ParcelCompanion.Proofs.Model.Resolved
import ParcelCompanion.Proofs.Round.Memory
import ParcelCompanion.Proofs.Round.PassedOver
import ParcelCompanion.Proofs.Effect
import ParcelCompanion.Proofs.Round.BrokenRules
import ParcelCompanion.Proofs.Round.Verdict
import ParcelCompanion.Proofs.Round.Telling
import ParcelCompanion.Proofs.Round.Balance
import ParcelCompanion.Proofs.Round.Narration
import ParcelCompanion.Proofs.Round.Composition
import ParcelCompanion.Proofs.Round.Unresolved
import ParcelCompanion.Proofs.Model.Preserved
import ParcelCompanion.Proofs.Meaning.Entries
import ParcelCompanion.Proofs.Document.Numbering
import ParcelCompanion.Proofs.Meaning.Reading
import ParcelCompanion.Proofs.Document.Loading
import ParcelCompanion.Proofs.Companion.Characters
import ParcelCompanion.Proofs.Document.Unresolved
import ParcelCompanion.Proofs.Document.Transitivity
import ParcelCompanion.Proofs.Meaning.Spelling
import ParcelCompanion.Proofs.Document.Written
import ParcelCompanion.Proofs.Companion.Lines
import ParcelCompanion.Proofs.Round.Confinement
import ParcelCompanion.Proofs.Model.Packages
import ParcelCompanion.Proofs.Companion.FullName
import ParcelCompanion.Proofs.Companion.ClassName
import ParcelCompanion.Proofs.Companion.Mirror
import ParcelCompanion.Proofs.Document.Roundtrip
import ParcelCompanion.Proofs.Model.Earlier
import ParcelCompanion.Proofs.Meaning.Precedence
import ParcelCompanion.Proofs.Meaning.Miscounts
import ParcelCompanion.Proofs.Meaning.Height
import ParcelCompanion.Proofs.Written.Proper
import ParcelCompanion.Proofs.Meaning.Respelling
import ParcelCompanion.Proofs.Meaning.Rereading
import ParcelCompanion.Proofs.Document.Identity
import ParcelCompanion.Proofs.Companion.Strategies
import ParcelCompanion.Proofs.Edit.Settling
import ParcelCompanion.Proofs.Edit.Failure
import ParcelCompanion.Proofs.Edit.Stability
import ParcelCompanion.Proofs.Round.Visits
import ParcelCompanion.Proofs.Output.Sessions
import ParcelCompanion.Proofs.Edit.Positions
import ParcelCompanion.Proofs.Diagnostic.Exchange
import ParcelCompanion.Proofs.Model.Ancestry
import ParcelCompanion.Proofs.Output.Places
import ParcelCompanion.Proofs.Output.Deposits
import ParcelCompanion.Proofs.Written.Stray
