import Bindery.Call.Basic
import Bindery.Call.Execution
import Bindery.Call.Fault
import Bindery.Call.Response
import Bindery.Catalog.Basic
import Bindery.Catalog.Format
import Bindery.Command.Options
import Bindery.Command.Run
import Bindery.Commit
import Bindery.Context.Basic
import Bindery.Context.Clock
import Bindery.Context.Race
import Bindery.Delivery
import Bindery.Emission.Form
import Bindery.Emission.Post
import Bindery.Emission.Slot
import Bindery.Emission.Unit
import Bindery.Envelope
import Bindery.Event
import Bindery.Failure
import Bindery.Files.Disk
import Bindery.Files.Fault
import Bindery.Files.Path
import Bindery.Files.Tree
import Bindery.Form.Basic
import Bindery.Form.Body
import Bindery.Ident
import Bindery.Journal
import Bindery.Json.Basic
import Bindery.Json.Double
import Bindery.Json.Fault
import Bindery.Json.Map
import Bindery.Json.Printer
import Bindery.Json.Reader
import Bindery.Json.Schema
import Bindery.Json.SchemaReader
import Bindery.Json.Skip
import Bindery.Keyed
import Bindery.Layout.Attributes
import Bindery.Layout.Code
import Bindery.Layout.Doc
import Bindery.Layout.Macros
import Bindery.Layout.Parts
import Bindery.Main
import Bindery.Naming
import Bindery.Output
import Bindery.Plan
import Bindery.Post.Client
import Bindery.Post.Fault
import Bindery.Post.Reply
import Bindery.Post.Status
import Bindery.Proofs.Acceptance
import Bindery.Proofs.Steps
import Bindery.Settings
import Bindery.Slack.Catalog
import Bindery.Slack.Client
import Bindery.Slack.Objects
import Bindery.Source.Build
import Bindery.Source.Fault
import Bindery.Source.Grammar.Attributes
import Bindery.Source.Grammar.Basic
import Bindery.Source.Grammar.Declarations
import Bindery.Source.Grammar.Expressions
import Bindery.Source.Grammar.Items
import Bindery.Source.Grammar.Operators
import Bindery.Source.Grammar.Patterns
import Bindery.Source.Grammar.Statements
import Bindery.Source.Grammar.Types
import Bindery.Source.Lexer
import Bindery.Source.Literal
import Bindery.Source.Parser
import Bindery.Source.Reading
import Bindery.Source.Spelling
import Bindery.Source.Syntax
import Bindery.Source.Token
import Bindery.Text.Blank
import Bindery.Text.Case
import Bindery.Text.Digits
import Bindery.Text.Identifier
import Bindery.Text.Letter
import Bindery.Text.Percent
import Bindery.Text.Punycode
import Bindery.Text.Quoted
import Bindery.Text.Ranges
import Bindery.Text.Utf8
import Bindery.Text.Visible
import Bindery.Url.Basic
import Bindery.Url.Domain
import Bindery.Url.Fault
import Bindery.Url.Host
import Bindery.Url.Reference
import Bindery.Validation
import Bindery.Proofs.Ordering
import Bindery.Proofs.Forms
import Bindery.Proofs.Reordering
import Bindery.Proofs.Runs
import Bindery.Proofs.Sending
import Bindery.Proofs.Setters
import Bindery.Proofs.Mentions
import Bindery.Proofs.Names
import Bindery.Proofs.Emitted
import Bindery.Proofs.Declarations
import Bindery.Proofs.Consistency
import Bindery.Proofs.Splitting
import Bindery.Proofs.Acceptability
import Bindery.Proofs.Json.Reads
import Bindery.Proofs.Json.Skipping
import Bindery.Proofs.Json.Schemas
import Bindery.Proofs.Json.Agreement
import Bindery.Proofs.Json.Printing
import Bindery.Proofs.Json.Records
import Bindery.Proofs.Refusals
import Bindery.Proofs.Bodies
import Bindery.Proofs.Objects
import Bindery.Proofs.CatalogText
import Bindery.Proofs.Files.Paths
import Bindery.Proofs.Files.Trees
import Bindery.Proofs.Files.Directories
import Bindery.Proofs.Committing
import Bindery.Proofs.Delivering
import Bindery.Proofs.Text.Bytes
import Bindery.Proofs.TokenKey
import Bindery.Proofs.Failures
import Bindery.Proofs.AsciiNames
import Bindery.Proofs.Identifiers
import Bindery.Proofs.Source.Running
import Bindery.Proofs.Source.Spelled
import Bindery.Proofs.Source.Attributes
import Bindery.Proofs.Source.Items
import Bindery.Proofs.Index
import Bindery.Proofs.Generation
import Bindery.Proofs.Source.Types
import Bindery.Proofs.Source.Brackets
import Bindery.Proofs.Source.Confined
import Bindery.Proofs.Source.ConfinedLists
import Bindery.Proofs.Source.ConfinedTypes
import Bindery.Proofs.Source.Enclosed
import Bindery.Proofs.Context.History
import Bindery.Proofs.Context.Cancelling
import Bindery.Proofs.Command.Switches
import Bindery.Proofs.Command.DryRuns
import Bindery.Proofs.PartialCommits
import Bindery.Proofs.Payloads
import Bindery.Proofs.Source.Alike
import Bindery.Proofs.Source.Documented
import Bindery.Proofs.Source.Bare
import Bindery.Proofs.Source.Gaps
import Bindery.Proofs.Documentation.Catalogs
import Bindery.Proofs.Documentation.Code
import Bindery.Proofs.Documentation.Calls
import Bindery.Proofs.Documentation.Files
import Bindery.Proofs.Planning
import Bindery.Proofs.Unsent
import Bindery.Proofs.Cleanup
import Bindery.Proofs.Sinks
import Bindery.Proofs.Context.Deadlines
import Bindery.Proofs.Context.Overflow
import Bindery.Proofs.Precedence
import Bindery.Proofs.Json.Written
import Bindery.Proofs.Json.Lexemes
import Bindery.Proofs.Json.Spelled
import Bindery.Proofs.Json.Respelling
import Bindery.Proofs.Spellings
import Bindery.Proofs.Text.Capitals
import Bindery.Proofs.PascalCase
import Bindery.Proofs.Escaping
import Bindery.Proofs.Url.Authorities
import Bindery.Proofs.Url.Paths
import Bindery.Proofs.Url.Appending
import Bindery.Proofs.Endpoints
import Bindery.Proofs.Source.Scanning
import Bindery.Proofs.Source.Literals
import Bindery.Proofs.Source.Pieces
import Bindery.Proofs.Source.Comments
import Bindery.Proofs.Pages
import Bindery.Proofs.IndexText
import Bindery.Proofs.Headers
import Bindery.Proofs.Source.PlainTypes
import Bindery.Proofs.Source.PlainForms
import Bindery.Proofs.Source.Lists
import Bindery.Proofs.Source.Paths
import Bindery.Proofs.Source.Operands
import Bindery.Proofs.Source.Values
import Bindery.Proofs.Source.Composed
import Bindery.Proofs.Source.Expressions
import Bindery.Proofs.Source.Statements
import Bindery.Proofs.Source.Functions
import Bindery.Proofs.Source.Structs
import Bindery.Proofs.Source.Gapless
import Bindery.Proofs.Source.BareSizes
import Bindery.Proofs.Assembly
import Bindery.Proofs.FileNames
import Bindery.Proofs.Rereading.Arguments
import Bindery.Proofs.Rereading.Form
import Bindery.Proofs.Rereading.Post
import Bindery.Proofs.Rereading.Unit
import Bindery.Proofs.Rereading.Layout
import Bindery.Proofs.Rereading.Files
import Bindery.Proofs.Totality
