import GrammarBundle.Text.Blank
import GrammarBundle.Text.Lines
import GrammarBundle.Text.Decimal
import GrammarBundle.Text.Printable
import GrammarBundle.Text.Quoted
import GrammarBundle.Text.Utf8
import GrammarBundle.Number.Shortest
import GrammarBundle.Json.Reader
import GrammarBundle.Json.Writer
import GrammarBundle.Pattern.Braces
import GrammarBundle.Bundle.Names
import GrammarBundle.Json.Shape
import GrammarBundle.Grammar.Rows
import GrammarBundle.Grammar.Order
import GrammarBundle.Bundle.Module
import GrammarBundle.Files.Disk
import GrammarBundle.Pattern.Search
import GrammarBundle.Yaml.Fault
import GrammarBundle.Config.Settings
import GrammarBundle.Engine.Process
import GrammarBundle.Run.Log
import GrammarBundle.Run.ErrorReport
import GrammarBundle.Bundle.Generate
import GrammarBundle.Engine.LineGrammars
import GrammarBundle.Command.Run
import GrammarBundle.Yaml.Quoted
import GrammarBundle.Yaml.Plain
import GrammarBundle.Yaml.Block
import GrammarBundle.Yaml.Tag
import GrammarBundle.Yaml.Token
import GrammarBundle.Yaml.Node
import GrammarBundle.Proofs.Bundle.Linking
import GrammarBundle.Proofs.Files.FileNames
import GrammarBundle.Proofs.Text.Pieces
import GrammarBundle.Proofs.Text.CodePoints
import GrammarBundle.Proofs.Files.Walks
import GrammarBundle.Proofs.Files.PathTexts
import GrammarBundle.Proofs.Files.Seats
import GrammarBundle.Proofs.Engine.Replies
import GrammarBundle.Proofs.Bundle.Sources
import GrammarBundle.Proofs.Bundle.Agenda
import GrammarBundle.Proofs.Bundle.Performance
import GrammarBundle.Proofs.Bundle.Deeds
import GrammarBundle.Proofs.Bundle.Runs
import GrammarBundle.Proofs.Bundle.DryRun
import GrammarBundle.Proofs.Bundle.Aborted
import GrammarBundle.Proofs.Json.Strings
import GrammarBundle.Proofs.Text.Numerals
import GrammarBundle.Proofs.Json.ReadBack
import GrammarBundle.Proofs.Engine.Requests
import GrammarBundle.Proofs.Files.Contents
import GrammarBundle.Proofs.Pattern.Search
import GrammarBundle.Proofs.Bundle.Unread
import GrammarBundle.Proofs.Bundle.ExactWork
import GrammarBundle.Proofs.Json.Compact
import GrammarBundle.Proofs.Json.Delimited
import GrammarBundle.Proofs.Bundle.Unambiguous
import GrammarBundle.Proofs.Json.Received
import GrammarBundle.Proofs.Bundle.Encodable
import GrammarBundle.Proofs.Grammar.Rows
import GrammarBundle.Proofs.Grammar.RowOrder
import GrammarBundle.Proofs.Json.Intact
import GrammarBundle.Proofs.Grammar.Recipes
import GrammarBundle.Proofs.Pattern.Products
import GrammarBundle.Proofs.Engine.Unconfigured
import GrammarBundle.Proofs.Bundle.Records
import GrammarBundle.Proofs.Bundle.Unconfigured
import GrammarBundle.Proofs.Files.ListedNames
import GrammarBundle.Proofs.Text.Order
import GrammarBundle.Proofs.Bundle.Plans
import GrammarBundle.Proofs.Bundle.Rematched
import GrammarBundle.Proofs.Bundle.Rerun
import GrammarBundle.Proofs.Script.Stringify
import GrammarBundle.Proofs.Config.Load
import GrammarBundle.Proofs.Json.Line
import GrammarBundle.Proofs.Run.Notes
import GrammarBundle.Proofs.Bundle.Promises
import GrammarBundle.Proofs.Command.Readings
import GrammarBundle.Proofs.Command.Contract
import GrammarBundle.Proofs.Command.Internal
import GrammarBundle.Proofs.Pattern.Shadows
import GrammarBundle.Proofs.Text.LastLine
import GrammarBundle.Proofs.Number.Shown
import GrammarBundle.Proofs.Engine.Timeouts
import GrammarBundle.Proofs.Config.Rules
import GrammarBundle.Proofs.Config.Precedence
import GrammarBundle.Proofs.Bundle.Matches
import GrammarBundle.Proofs.Json.Canonical
import GrammarBundle.Proofs.Command.Spellings
import GrammarBundle.Proofs.Command.Formats
import GrammarBundle.Proofs.Bundle.Writes
import GrammarBundle.Proofs.Bundle.Aliases
import GrammarBundle.Proofs.Pattern.Alternatives
import GrammarBundle.Proofs.Run.Events
import GrammarBundle.Proofs.Command.Diagnosis
