import BraceLang.Data.Atom
import BraceLang.Data.Datum
import BraceLang.Data.Kind
import BraceLang.Data.Moment
import BraceLang.Diagnostic.Basic
import BraceLang.Diagnostic.Collector
import BraceLang.Diagnostic.Excerpt
import BraceLang.Grammar.Basic
import BraceLang.Grammar.File
import BraceLang.Lexeme
import BraceLang.Location
import BraceLang.Machine.Basic
import BraceLang.Machine.Reading
import BraceLang.Number.Arithmetic
import BraceLang.Number.Binary64
import BraceLang.Number.Decimal
import BraceLang.Number.Numeral
import BraceLang.Number.Placement
import BraceLang.Number.Residue
import BraceLang.Number.Shortest
import BraceLang.Outline.Basic
import BraceLang.Outline.Grammar
import BraceLang.Parser.Basic
import BraceLang.Parser.Expression
import BraceLang.Parser.Input
import BraceLang.Parser.Layer
import BraceLang.Parser.Program
import BraceLang.Parser.Repeat
import BraceLang.Parser.Session
import BraceLang.Parser.Statement
import BraceLang.Parser.Type
import BraceLang.Program.Basic
import BraceLang.Program.Complaint
import BraceLang.Program.Operator
import BraceLang.Program.Tree
import BraceLang.Proofs.Conditions.Alike
import BraceLang.Proofs.Conditions.Expressions
import BraceLang.Proofs.Conditions.Programs
import BraceLang.Proofs.Configuration.Decoding
import BraceLang.Proofs.Configuration.Validation
import BraceLang.Proofs.Configuration.Writing
import BraceLang.Proofs.Construction.Built
import BraceLang.Proofs.Construction.Errors
import BraceLang.Proofs.Construction.Expressions
import BraceLang.Proofs.Construction.Schema
import BraceLang.Proofs.Construction.Statements
import BraceLang.Proofs.Construction.Yields
import BraceLang.Proofs.Containment.Admission
import BraceLang.Proofs.Containment.Carrying
import BraceLang.Proofs.Containment.Enclosures
import BraceLang.Proofs.Containment.Expressions
import BraceLang.Proofs.Containment.Gaps
import BraceLang.Proofs.Containment.Innermost
import BraceLang.Proofs.Containment.Programs
import BraceLang.Proofs.Containment.Rows
import BraceLang.Proofs.Containment.Statements
import BraceLang.Proofs.Containment.Strays
import BraceLang.Proofs.Lockstep.Composition
import BraceLang.Proofs.Lockstep.Expressions
import BraceLang.Proofs.Lockstep.Keywords
import BraceLang.Proofs.Lockstep.Pairing
import BraceLang.Proofs.Lockstep.Parsers
import BraceLang.Proofs.Lockstep.Rounds
import BraceLang.Proofs.Lockstep.Statements
import BraceLang.Proofs.Machine.Calls
import BraceLang.Proofs.Machine.Completion
import BraceLang.Proofs.Machine.Endings
import BraceLang.Proofs.Machine.Following
import BraceLang.Proofs.Machine.Layouts
import BraceLang.Proofs.Machine.Programs
import BraceLang.Proofs.Machine.Room
import BraceLang.Proofs.Machine.Shortage
import BraceLang.Proofs.Machine.Stack
import BraceLang.Proofs.Machine.Stages
import BraceLang.Proofs.Machine.Tokens
import BraceLang.Proofs.Machine.Twins
import BraceLang.Proofs.Nesting.Chains
import BraceLang.Proofs.Nesting.Composed
import BraceLang.Proofs.Nesting.Depth
import BraceLang.Proofs.Nesting.Gathering
import BraceLang.Proofs.Nesting.Grammar
import BraceLang.Proofs.Nesting.Levels
import BraceLang.Proofs.Nesting.Paths
import BraceLang.Proofs.Nesting.Rows
import BraceLang.Proofs.Outline.Basic
import BraceLang.Proofs.Outline.Boundaries
import BraceLang.Proofs.Outline.Counting
import BraceLang.Proofs.Outline.Locality
import BraceLang.Proofs.Outline.Reaching
import BraceLang.Proofs.Outline.Sealed
import BraceLang.Proofs.Parsing.Account
import BraceLang.Proofs.Parsing.Completion
import BraceLang.Proofs.Parsing.Marks
import BraceLang.Proofs.Parsing.Rounds
import BraceLang.Proofs.Parsing.Runs
import BraceLang.Proofs.Parsing.Stages
import BraceLang.Proofs.Parsing.Steps
import BraceLang.Proofs.Precedence.Arrangements
import BraceLang.Proofs.Precedence.Climbing
import BraceLang.Proofs.Precedence.Rows
import BraceLang.Proofs.Printing.Expressions
import BraceLang.Proofs.Printing.Numerals
import BraceLang.Proofs.Printing.Print
import BraceLang.Proofs.Printing.Programs
import BraceLang.Proofs.Printing.Reading
import BraceLang.Proofs.Printing.Statements
import BraceLang.Proofs.Printing.Types
import BraceLang.Proofs.Projection.Legible
import BraceLang.Proofs.Projection.PlainData
import BraceLang.Proofs.Projection.Quoting
import BraceLang.Proofs.Projection.Rendering
import BraceLang.Proofs.Projection.Sources
import BraceLang.Proofs.Projection.Trees
import BraceLang.Proofs.Recovery.Expressions
import BraceLang.Proofs.Recovery.Resynchronisation
import BraceLang.Proofs.Recovery.Statements
import BraceLang.Proofs.Recovery.Stretch
import BraceLang.Proofs.Shorthand.Exchange
import BraceLang.Proofs.Shorthand.Fields
import BraceLang.Proofs.Source.Calls
import BraceLang.Proofs.Source.Layout
import BraceLang.Proofs.Source.LineBreaks
import BraceLang.Proofs.Source.Numbers
import BraceLang.Proofs.Source.Pieces
import BraceLang.Proofs.Source.Pointers
import BraceLang.Proofs.Source.Points
import BraceLang.Proofs.Source.Seams
import BraceLang.Proofs.Source.Tiling
import BraceLang.Proofs.Source.Truncation
import BraceLang.Proofs.Source.Zones
import BraceLang.Proofs.Sparse.Grammar
import BraceLang.Proofs.Sparse.Parsers
import BraceLang.Proofs.Sparse.Programs
import BraceLang.Proofs.Sparse.Runs
import BraceLang.Proofs.Spelling.Brackets
import BraceLang.Proofs.Spelling.Expressions
import BraceLang.Proofs.Spelling.Forms
import BraceLang.Proofs.Spelling.Lists
import BraceLang.Proofs.Spelling.Operations
import BraceLang.Proofs.Spelling.Programs
import BraceLang.Proofs.Spelling.Statements
import BraceLang.Proofs.Spelling.Types
import BraceLang.Proofs.Strictness.Expressions
import BraceLang.Proofs.Strictness.Programs
import BraceLang.Proofs.Strictness.Statements
import BraceLang.Proofs.Strictness.Transfer
import BraceLang.Source.Lexer
import BraceLang.Source.Piece
import BraceLang.Source.Scan
import BraceLang.Source.Tokens
import BraceLang.Text.Base64
import BraceLang.Text.Lines
import BraceLang.Text.Point
import BraceLang.Text.Quoted
import BraceLang.Text.Utf8
import BraceLang.Tree.Node
import BraceLang.Tree.Render
import BraceLang.Unicode.Alphanumeric
import BraceLang.Unicode.Blank
import BraceLang.Unicode.Cased
import BraceLang.Unicode.Decimal
import BraceLang.Unicode.Digit
import BraceLang.Unicode.Lowercase
import BraceLang.Unicode.Printable
import BraceLang.Unicode.Run
import BraceLang.Unicode.Uppercase
import BraceLang.Yaml.Cursor
import BraceLang.Yaml.Data
import BraceLang.Yaml.Directive
import BraceLang.Yaml.Document
import BraceLang.Yaml.Error
import BraceLang.Yaml.Graph
import BraceLang.Yaml.Literal
import BraceLang.Yaml.Meaning
import BraceLang.Yaml.Merge
import BraceLang.Yaml.Scalar
import BraceLang.Yaml.Tag
import BraceLang.Yaml.Timestamp
import BraceLang.Yaml.Token
import BraceLang.Yaml.Tokenizing
import BraceLang.Yaml.Value
