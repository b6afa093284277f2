import Stencil.Build
import Stencil.CommandLine
import Stencil.CommandLine.Reader
import Stencil.Config
import Stencil.Config.Format
import Stencil.Config.Record
import Stencil.Config.Store
import Stencil.Defaults
import Stencil.Disk
import Stencil.Disk.Lookup
import Stencil.Disk.Operations
import Stencil.Error
import Stencil.Event
import Stencil.Fault
import Stencil.FileOperation
import Stencil.Generate
import Stencil.Glob
import Stencil.Glob.Reader
import Stencil.Ignore
import Stencil.Json
import Stencil.Json.Printer
import Stencil.Json.Reader
import Stencil.Keyed
import Stencil.Main
import Stencil.Metadata
import Stencil.NameMap
import Stencil.Naming
import Stencil.Naming.Rules
import Stencil.Overrides
import Stencil.Path
import Stencil.Pattern
import Stencil.Program
import Stencil.ProjectPath
import Stencil.Prompter
import Stencil.Proofs.Build.Image
import Stencil.Proofs.Build.Root
import Stencil.Proofs.Build.Start
import Stencil.Proofs.Disk.Aim
import Stencil.Proofs.Disk.Entries
import Stencil.Proofs.Disk.Keep
import Stencil.Proofs.Disk.Lookup
import Stencil.Proofs.Disk.Operations
import Stencil.Proofs.Disk.Straight
import Stencil.Proofs.Disk.Tour
import Stencil.Proofs.Generate.Confinement
import Stencil.Proofs.Generate.Fill
import Stencil.Proofs.Generate.Image
import Stencil.Proofs.Generate.Root
import Stencil.Proofs.Generate.Scaffold
import Stencil.Proofs.Image
import Stencil.Proofs.Json.RoundTrip
import Stencil.Proofs.Metadata
import Stencil.Proofs.Naming.Merged
import Stencil.Proofs.Path.Absolute
import Stencil.Proofs.Path.Names
import Stencil.Proofs.Path.Places
import Stencil.Proofs.Phases
import Stencil.Proofs.Pipeline.Agreement
import Stencil.Proofs.Pipeline.Classes
import Stencil.Proofs.Pipeline.Products
import Stencil.Proofs.Pipeline.Project
import Stencil.Proofs.Pipeline.RoundTrip
import Stencil.Proofs.Pipeline.Roots
import Stencil.Proofs.Pipeline.Source
import Stencil.Proofs.Refusal
import Stencil.Proofs.Replacement.Gaps
import Stencil.Proofs.Resolution.Acyclic
import Stencil.Proofs.Resolution.Chain
import Stencil.Proofs.Resolution.Conversation
import Stencil.Proofs.Resolution.Cycles
import Stencil.Proofs.Resolution.Outcome
import Stencil.Proofs.Resolution.Required
import Stencil.Proofs.Resolution.Settling
import Stencil.Proofs.Resolution.Waiting
import Stencil.Proofs.Task
import Stencil.Proofs.Text.Utf8
import Stencil.Proofs.Token.Delimiters
import Stencil.Proofs.Token.Restore
import Stencil.Proofs.Token.Scan
import Stencil.Proofs.Token.Segments
import Stencil.Proofs.Transform.Blank
import Stencil.Proofs.Walk
import Stencil.Record
import Stencil.Rename
import Stencil.Replacement
import Stencil.Resolution
import Stencil.Sorted
import Stencil.Starter
import Stencil.Task
import Stencil.Text.Alphanumeric
import Stencil.Text.Blank
import Stencil.Text.Bytes
import Stencil.Text.CharClass
import Stencil.Text.Hex
import Stencil.Text.LetterCase
import Stencil.Text.Quoted
import Stencil.Text.Segments
import Stencil.Timestamp
import Stencil.Token
import Stencil.Transform
import Stencil.Variable
import Stencil.Walk
import Stencil.Yaml.Characters
import Stencil.Yaml.Cursor
import Stencil.Yaml.Document
import Stencil.Yaml.Node
import Stencil.Yaml.Printer
import Stencil.Yaml.Scalar
import Stencil.Yaml.Scalar.Block
import Stencil.Yaml.Scalar.Plain
import Stencil.Yaml.Scalar.Printer
import Stencil.Yaml.Scalar.Quoted
import Stencil.Yaml.Token
import Stencil.Yaml.Token.Lexer
import Stencil.Yaml.Token.Reader
import Stencil.Yaml.Typed
import Stencil.Proofs.Build.Renewal
import Stencil.Proofs.Naming.Core
import Stencil.Proofs.Naming.Respelling
import Stencil.Proofs.Pipeline.Tokens
import Stencil.Proofs.Disk.Routes
import Stencil.Proofs.Pipeline.Description
import Stencil.Proofs.Pipeline.Prediction
import Stencil.Proofs.Resolution.Patience
import Stencil.Proofs.Resolution.Reordering
import Stencil.Proofs.Resolution.Questions
import Stencil.Proofs.Resolution.Replay
import Stencil.Proofs.Config.RoundTrip
import Stencil.Proofs.Disk.Beside
import Stencil.Proofs.Starter
import Stencil.Proofs.Text.Boundaries
import Stencil.Proofs.Token.Texts
import Stencil.Proofs.Replacement.Texts
import Stencil.Proofs.Walk.Scope
import Stencil.Proofs.Walk.Visits
import Stencil.Proofs.Walk.Pruning
import Stencil.Proofs.Naming.Derivation
import Stencil.Proofs.Rename.Applied
import Stencil.Proofs.Rename.Segments
import Stencil.Proofs.Rename.Specific
import Stencil.Proofs.Path.Output
import Stencil.Proofs.Config.Defaults
import Stencil.Proofs.Path.Below
import Stencil.Proofs.Generate.Copy
import Stencil.Proofs.Pattern.Literal
import Stencil.Proofs.Walk.Sparing
import Stencil.Proofs.Pipeline.OwnFile
import Stencil.Proofs.Text.LetterCase
import Stencil.Proofs.Transform.Slug
import Stencil.Proofs.Transform.Stable
