import StoryScript.Colour
import StoryScript.Context
import StoryScript.DataMap
import StoryScript.DataSet
import StoryScript.Decimal.Exact
import StoryScript.Decimal.Printer
import StoryScript.Decimal.Reader
import StoryScript.Decimal.Shortest
import StoryScript.Error
import StoryScript.Eval
import StoryScript.Expr.Basic
import StoryScript.Expr.Equality
import StoryScript.Expr.OfTokens
import StoryScript.Expr.Operator
import StoryScript.Expr.Precedence
import StoryScript.Expr.Printer
import StoryScript.Host
import StoryScript.Host.Demo
import StoryScript.Host.Library
import StoryScript.Host.Macro
import StoryScript.Key
import StoryScript.Lambda
import StoryScript.Main
import StoryScript.Notice
import StoryScript.Reference
import StoryScript.Script
import StoryScript.Temps
import StoryScript.Text.Alphanumeric
import StoryScript.Text.Blank
import StoryScript.Text.Extending
import StoryScript.Text.Lowercase
import StoryScript.Text.Printable
import StoryScript.Text.Quoted
import StoryScript.Text.Ranges
import StoryScript.Text.Search
import StoryScript.Text.Width
import StoryScript.Text.Word
import StoryScript.Token.Basic
import StoryScript.Token.Kind
import StoryScript.Token.Lexer
import StoryScript.Token.Pattern.Block
import StoryScript.Token.Pattern.Code
import StoryScript.Token.Pattern.Inline
import StoryScript.Token.Printer
import StoryScript.Token.Query
import StoryScript.Token.Rule
import StoryScript.Token.Scanner
import StoryScript.Token.Weight
import StoryScript.Tool
import StoryScript.Value.Basic
import StoryScript.Value.Equality
import StoryScript.Value.Failure
import StoryScript.Value.Operation
import StoryScript.Value.Printer
import StoryScript.Value.Property
import StoryScript.Proofs.Token.Capture
import StoryScript.Proofs.Token.Derivation
import StoryScript.Proofs.Text.Slice
import StoryScript.Proofs.Token.Coverage
import StoryScript.Proofs.Token.NormalForm
import StoryScript.Proofs.Expr.Division
import StoryScript.Proofs.Expr.OperatorTree
import StoryScript.Proofs.Literal.Codes
import StoryScript.Proofs.Literal.FirstMatch
import StoryScript.Proofs.Token.Forward
import StoryScript.Proofs.Literal.Reading
import StoryScript.Proofs.Decimal.Rounding
import StoryScript.Proofs.Decimal.Packing
import StoryScript.Proofs.Decimal.Scientific
import StoryScript.Proofs.Decimal.RoundTrip
import StoryScript.Proofs.Literal.Data
import StoryScript.Proofs.Literal.RoundTrip
import StoryScript.Change
import StoryScript.Proofs.Data.Entries
import StoryScript.Proofs.Data.Frames
import StoryScript.Proofs.Reference.Atomic
import StoryScript.Proofs.Reference.Writing
import StoryScript.Proofs.Expr.Derivation
import StoryScript.Proofs.Expr.Referencing
import StoryScript.Proofs.Token.Nesting
import StoryScript.Proofs.Expr.Leaves
import StoryScript.Proofs.Decimal.Equality
import StoryScript.Proofs.Expr.Sameness
import StoryScript.Proofs.Expr.Surfacing
import StoryScript.Proofs.Reference.Sealing
import StoryScript.Proofs.Value.Sameness
import StoryScript.Proofs.Token.Locality
import StoryScript.Proofs.Token.Grouping
import StoryScript.Proofs.Token.Shift
import StoryScript.Proofs.Expr.Grouping
import StoryScript.Proofs.Eval.FrameDepth
import StoryScript.Proofs.Token.Completeness
import StoryScript.Proofs.Expr.Faults
import StoryScript.Proofs.Token.Confinement
import StoryScript.Proofs.Expr.Elision
import StoryScript.Proofs.Eval.ElidedChain
import StoryScript.Proofs.Eval.Gating
import StoryScript.Proofs.Reference.Stepwise
import StoryScript.Proofs.Expr.Signs
import StoryScript.Proofs.Expr.Recording
import StoryScript.Proofs.Eval.Reading
import StoryScript.Proofs.Reference.WritingBack
import StoryScript.Proofs.Eval.Assigning
import StoryScript.Proofs.Value.Sets
import StoryScript.Proofs.Value.Congruence
import StoryScript.Proofs.Value.Sums
import StoryScript.Proofs.Value.Clauses
import StoryScript.Proofs.Decimal.Whole
import StoryScript.Proofs.Value.Positions
import StoryScript.Proofs.Expr.Chains
import StoryScript.Proofs.Token.Offsets
import StoryScript.Proofs.Token.Origins
import StoryScript.Proofs.Token.Starts
import StoryScript.Proofs.Token.Unfiltered
import StoryScript.Proofs.Token.Marks
import StoryScript.Proofs.Token.Emphasis
import StoryScript.Proofs.Token.Contents
import StoryScript.Proofs.Token.Delimiters
import StoryScript.Proofs.Literal.Colours
import StoryScript.Proofs.Token.Progress
import StoryScript.Proofs.Expr.Possessives
import StoryScript.Proofs.Value.Indices
import StoryScript.Proofs.Reference.Restating
