import ExprLang.Config
import ExprLang.Construct
import ExprLang.Context
import ExprLang.Conversion
import ExprLang.Conversion.Core
import ExprLang.Cursor
import ExprLang.Decimal.Binary
import ExprLang.Decimal.Layout
import ExprLang.Decimal.Power
import ExprLang.Decimal.Reader
import ExprLang.Decimal.Shortest
import ExprLang.Engine
import ExprLang.Entries
import ExprLang.Error
import ExprLang.Error.Kind
import ExprLang.Evaluation
import ExprLang.Extension
import ExprLang.Fragment
import ExprLang.Fragment.Lexeme
import ExprLang.Functions
import ExprLang.Functions.Library
import ExprLang.Grammar
import ExprLang.Grammar.Core
import ExprLang.Json
import ExprLang.Json.Number
import ExprLang.Json.Reader
import ExprLang.Json.Value
import ExprLang.Json.Writer
import ExprLang.Lexer
import ExprLang.Literal.Reader
import ExprLang.Main
import ExprLang.Node
import ExprLang.Node.Text
import ExprLang.Operation
import ExprLang.Operators
import ExprLang.Operators.Core
import ExprLang.Parse
import ExprLang.Path
import ExprLang.Proofs.Contexts.Actions
import ExprLang.Proofs.Contexts.Bindings
import ExprLang.Proofs.Contexts.Nesting
import ExprLang.Proofs.Contexts.Views
import ExprLang.Proofs.Conversions.Integers
import ExprLang.Proofs.Conversions.Texts
import ExprLang.Proofs.Conversions.Types
import ExprLang.Proofs.Decimal.Bits
import ExprLang.Proofs.Decimal.Nearest
import ExprLang.Proofs.Decimal.Reading
import ExprLang.Proofs.Decimal.Shortest
import ExprLang.Proofs.Dispatch.Arguments
import ExprLang.Proofs.Dispatch.Bodies
import ExprLang.Proofs.Dispatch.Faults
import ExprLang.Proofs.Dispatch.Operands
import ExprLang.Proofs.Effects.Assignment
import ExprLang.Proofs.Effects.Canonical
import ExprLang.Proofs.Effects.Compositional
import ExprLang.Proofs.Effects.Correspondence
import ExprLang.Proofs.Effects.Increment
import ExprLang.Proofs.Effects.Integers
import ExprLang.Proofs.Effects.Inverse
import ExprLang.Proofs.Effects.Scopes
import ExprLang.Proofs.Effects.Services
import ExprLang.Proofs.Effects.Shape
import ExprLang.Proofs.Effects.SideEffects
import ExprLang.Proofs.Effects.Simulation
import ExprLang.Proofs.Effects.Stepping
import ExprLang.Proofs.Effects.Strictness
import ExprLang.Proofs.Extensions.Conservation
import ExprLang.Proofs.Extensions.Independence
import ExprLang.Proofs.Extensions.Interchange
import ExprLang.Proofs.Extensions.Keywords
import ExprLang.Proofs.Extensions.Replacement
import ExprLang.Proofs.Fragments.Layout
import ExprLang.Proofs.Fragments.Munch
import ExprLang.Proofs.Fragments.Partition
import ExprLang.Proofs.Integers.Arithmetic
import ExprLang.Proofs.Integers.Powers
import ExprLang.Proofs.Integers.Texts
import ExprLang.Proofs.Integers.Widths
import ExprLang.Proofs.Overloads.Ranking
import ExprLang.Proofs.Overloads.Resolution
import ExprLang.Proofs.Syntax.Balance
import ExprLang.Proofs.Syntax.Climbing
import ExprLang.Proofs.Syntax.Completeness
import ExprLang.Proofs.Syntax.CoreTokens
import ExprLang.Proofs.Syntax.Depth
import ExprLang.Proofs.Syntax.Derivation
import ExprLang.Proofs.Syntax.Failures
import ExprLang.Proofs.Syntax.Language
import ExprLang.Proofs.Syntax.OperatorTree
import ExprLang.Proofs.Syntax.Points
import ExprLang.Proofs.Syntax.Precedence
import ExprLang.Proofs.Syntax.Progress
import ExprLang.Proofs.Syntax.Resemblance
import ExprLang.Proofs.Syntax.Soundness
import ExprLang.Proofs.Syntax.Step
import ExprLang.Proofs.Syntax.Termination
import ExprLang.Proofs.Syntax.Walk
import ExprLang.Proofs.Writing.Characters
import ExprLang.Proofs.Writing.Cutting
import ExprLang.Proofs.Writing.Distinct
import ExprLang.Proofs.Writing.Literals
import ExprLang.Proofs.Writing.Phrases
import ExprLang.Proofs.Writing.Printing
import ExprLang.Proofs.Writing.RoundTrip
import ExprLang.Proofs.Writing.Spelling
import ExprLang.Proofs.Writing.Words
import ExprLang.Ranked
import ExprLang.Recognizer
import ExprLang.Semantics
import ExprLang.Shell.Arguments
import ExprLang.Shell.Binding
import ExprLang.Shell.Command
import ExprLang.Shell.Files
import ExprLang.Shell.Options
import ExprLang.Shell.Report
import ExprLang.Shell.Session
import ExprLang.Shell.Style
import ExprLang.Signature
import ExprLang.Source
import ExprLang.Text.Alphabetic
import ExprLang.Text.Blank
import ExprLang.Text.Case
import ExprLang.Text.CaseTable
import ExprLang.Text.Numeric
import ExprLang.Text.Printable
import ExprLang.Text.Quoted
import ExprLang.Text.Ranges
import ExprLang.Text.Search
import ExprLang.Text.Word
import ExprLang.Token
import ExprLang.Token.Kind
import ExprLang.Value
import ExprLang.Value.Compare
import ExprLang.Value.Tag
import ExprLang.Value.Text
import ExprLang.Workload
import ExprLang.Workload.Command
import ExprLang.Proofs.Overloads.Inclusion
import ExprLang.Proofs.Recognizers.Consultation
import ExprLang.Proofs.Fragments.Ending
import ExprLang.Proofs.Recognizers.Spellings
import ExprLang.Proofs.Fragments.Decoding
import ExprLang.Proofs.Fragments.Pointing
import ExprLang.Proofs.Sessions.Waiting
import ExprLang.Proofs.Syntax.Rewording
import ExprLang.Proofs.Comparisons.Equality
import ExprLang.Proofs.Comparisons.Order
import ExprLang.Proofs.Comparisons.Extremes
import ExprLang.Proofs.Sessions.Transcript
import ExprLang.Proofs.Cursors.Enclosure
import ExprLang.Proofs.Texts.Separators
import ExprLang.Proofs.Conversions.Json
import ExprLang.Proofs.Extensions.Discretion
import ExprLang.Proofs.Extensions.Repetition
import ExprLang.Proofs.Extensions.Repetition
import ExprLang.Proofs.Cursors.Positions
import ExprLang.Proofs.Cursors.Requests
