import Stepwise.Action
import Stepwise.Address
import Stepwise.Algebra.BothSides
import Stepwise.Algebra.Calculate
import Stepwise.Algebra.Suggest
import Stepwise.Arithmetic
import Stepwise.Collections
import Stepwise.CommandLine.Options
import Stepwise.CommandLine.Program
import Stepwise.Context
import Stepwise.Deduction
import Stepwise.Document
import Stepwise.Expr.Basic
import Stepwise.Expr.Display
import Stepwise.Expr.Position
import Stepwise.Expr.Shape
import Stepwise.Expr.Variables
import Stepwise.Fault
import Stepwise.Files
import Stepwise.Json.Basic
import Stepwise.Json.Read
import Stepwise.Main
import Stepwise.Matching.Basic
import Stepwise.Matching.Instance
import Stepwise.NormalForm
import Stepwise.Notice
import Stepwise.Number.Basic
import Stepwise.Number.Double
import Stepwise.Number.Literal
import Stepwise.Number.Written
import Stepwise.Parse.Applied
import Stepwise.Parse.Basic
import Stepwise.Parse.Infix
import Stepwise.Parse.Token
import Stepwise.Proofs.Address.Comparison
import Stepwise.Proofs.Address.Written
import Stepwise.Proofs.Algebra.BothSides
import Stepwise.Proofs.Algebra.Offered
import Stepwise.Proofs.Algebra.Regular
import Stepwise.Proofs.Algebra.Shaped
import Stepwise.Proofs.Algebra.Suggested
import Stepwise.Proofs.Arithmetic.Integral
import Stepwise.Proofs.Arithmetic.Numeral
import Stepwise.Proofs.Arithmetic.Overflow
import Stepwise.Proofs.Arithmetic.Quotient
import Stepwise.Proofs.Attempt
import Stepwise.Proofs.Deduction.Converse
import Stepwise.Proofs.Deduction.Failure
import Stepwise.Proofs.Deduction.Regular
import Stepwise.Proofs.Deduction.Settled
import Stepwise.Proofs.Deduction.Settling
import Stepwise.Proofs.Deduction.Shaped
import Stepwise.Proofs.Deduction.Step
import Stepwise.Proofs.Document.Failure
import Stepwise.Proofs.Expr.Expansion
import Stepwise.Proofs.Expr.Formed
import Stepwise.Proofs.Expr.Grafting
import Stepwise.Proofs.Expr.Hygiene
import Stepwise.Proofs.Expr.Lens
import Stepwise.Proofs.Expr.Nodes
import Stepwise.Proofs.Expr.Places
import Stepwise.Proofs.Expr.Selection
import Stepwise.Proofs.Expr.Substitution
import Stepwise.Proofs.Matching.Bindings
import Stepwise.Proofs.Matching.Composition
import Stepwise.Proofs.Matching.Equivalence
import Stepwise.Proofs.Matching.Exact
import Stepwise.Proofs.Matching.Exchange
import Stepwise.Proofs.Matching.FirstOrder
import Stepwise.Proofs.Matching.Found
import Stepwise.Proofs.Matching.Images
import Stepwise.Proofs.Matching.Instance
import Stepwise.Proofs.Matching.Mutual
import Stepwise.Proofs.Matching.Names
import Stepwise.Proofs.Matching.Search
import Stepwise.Proofs.Matching.Values
import Stepwise.Proofs.Matching.Variadic
import Stepwise.Proofs.Meaning.Algebra
import Stepwise.Proofs.Meaning.Derivation
import Stepwise.Proofs.Meaning.Fold
import Stepwise.Proofs.Meaning.Fraction
import Stepwise.Proofs.Meaning.Interpretation
import Stepwise.Proofs.Meaning.Law
import Stepwise.Proofs.Meaning.Model
import Stepwise.Proofs.Meaning.NormalForm
import Stepwise.Proofs.Meaning.Operations
import Stepwise.Proofs.Meaning.Replacement
import Stepwise.Proofs.Meaning.Rule
import Stepwise.Proofs.Meaning.Suggestion
import Stepwise.Proofs.NormalForm.Chained
import Stepwise.Proofs.NormalForm.Groups
import Stepwise.Proofs.NormalForm.Idempotent
import Stepwise.Proofs.NormalForm.Loose
import Stepwise.Proofs.NormalForm.Operands
import Stepwise.Proofs.NormalForm.Regular
import Stepwise.Proofs.NormalForm.Shape
import Stepwise.Proofs.NormalForm.Simplify
import Stepwise.Proofs.Number.Numeral
import Stepwise.Proofs.Number.Range
import Stepwise.Proofs.Number.Rounding
import Stepwise.Proofs.Parse.Display
import Stepwise.Proofs.Parse.Failure
import Stepwise.Proofs.Parse.Formed
import Stepwise.Proofs.Parse.Grammar
import Stepwise.Proofs.Parse.Node
import Stepwise.Proofs.Parse.Precedence
import Stepwise.Proofs.Parse.Readers
import Stepwise.Proofs.Parse.Regular
import Stepwise.Proofs.Parse.RoundTrip
import Stepwise.Proofs.Parse.Spelling
import Stepwise.Proofs.Parse.Tokens
import Stepwise.Proofs.Parse.Written
import Stepwise.Proofs.Rule.Application
import Stepwise.Proofs.Rule.Closure
import Stepwise.Proofs.Rule.Exchange
import Stepwise.Proofs.Rule.Failure
import Stepwise.Proofs.Rule.Forms
import Stepwise.Proofs.Rule.Loading
import Stepwise.Proofs.Session.Labelling
import Stepwise.Proofs.Session.Outcome
import Stepwise.Proofs.Session.Reading
import Stepwise.Proofs.Session.Script
import Stepwise.Proofs.Session.Sound
import Stepwise.Proofs.Session.Standing
import Stepwise.Proofs.Session.Wording
import Stepwise.Proofs.Text
import Stepwise.Proofs.Worksheet.Atomic
import Stepwise.Proofs.Worksheet.Growth
import Stepwise.Proofs.Worksheet.Normal
import Stepwise.Proofs.Worksheet.Saturation
import Stepwise.Proofs.Worksheet.Store
import Stepwise.Rule.Algebra
import Stepwise.Rule.Basic
import Stepwise.Rule.Set
import Stepwise.Session.Basic
import Stepwise.Session.Command
import Stepwise.Session.Control
import Stepwise.Session.Script
import Stepwise.Session.Work
import Stepwise.Text.Basic
import Stepwise.Text.LowerCase
import Stepwise.Text.Quoted
import Stepwise.Worksheet.Basic
import Stepwise.Worksheet.Derivation
import Stepwise.Worksheet.Line
import Stepwise.Worksheet.Settings
