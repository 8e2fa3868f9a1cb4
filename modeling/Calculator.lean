import Calculator.Binary64.Word
import Calculator.Main
import Calculator.Proofs.Infix.Derivation
import Calculator.Proofs.Yard.Cues
import Calculator.Proofs.Yard.Brackets
import Calculator.Proofs.Infix.Phrase
import Calculator.Proofs.Yard.Parentheses
import Calculator.Proofs.Infix.Acceptance
import Calculator.Proofs.Expr.Printing
import Calculator.Proofs.Expr.Rereading
import Calculator.Proofs.Expr.Forest
import Calculator.Proofs.Yard.Conservation
import Calculator.Proofs.Token.Lookahead
import Calculator.Proofs.Token.Tiling
import Calculator.Proofs.Binary64.Integers
import Calculator.Proofs.Base.Literals
import Calculator.Proofs.Binary64.Rounded
import Calculator.Proofs.Operator.Words
import Calculator.Proofs.Expr.Offsets
import Calculator.Proofs.Expr.Strictness
import Calculator.Proofs.Guarded.Access
import Calculator.Proofs.Guarded.Evaluation
import Calculator.Proofs.Yard.Verdict
import Calculator.Proofs.Binary64.Spacing
import Calculator.Proofs.NumberTheory.Powers
import Calculator.Proofs.NumberTheory.Residues
import Calculator.Proofs.Report.Scripts
import Calculator.Proofs.Binary64.Overflow
import Calculator.Proofs.Literal.Extent
import Calculator.Proofs.Literal.Grammar
import Calculator.Proofs.Literal.Reading
import Calculator.Proofs.Token.Separation
import Calculator.Proofs.DenseMatrix.Sizes
import Calculator.Proofs.NumberTheory.Widths
import Calculator.Proofs.Builtin.Outcomes
import Calculator.Proofs.NumberTheory.Traps
import Calculator.Proofs.NumberTheory.Primality
import Calculator.Proofs.NumberTheory.Divisors
import Calculator.Proofs.Binary64.Comparison
import Calculator.Proofs.Binary64.Arithmetic
import Calculator.Proofs.Operator.TwosComplement
import Calculator.Proofs.Operator.BooleanLaws
import Calculator.Proofs.ToleranceSet.Representatives
import Calculator.Proofs.ToleranceSet.Composition
import Calculator.Proofs.Builtin.Grouping
import Calculator.Proofs.DenseMatrix.Rows
import Calculator.Proofs.DenseMatrix.Transposes
import Calculator.Proofs.Binary64.Parts
import Calculator.Proofs.Binary64.Order
import Calculator.Proofs.Statistics.Sorted
import Calculator.Proofs.Statistics.Median
import Calculator.Proofs.Statistics.Mode
import Calculator.Proofs.Numeral.Significant
import Calculator.Proofs.Numeral.GeneralForm
import Calculator.Proofs.Binary64.Residues
import Calculator.Proofs.Binary64.Operations
import Calculator.Proofs.Binary64.Vanishing
import Calculator.Proofs.Statistics.ConstantSamples
import Calculator.Proofs.Counting.Selections
import Calculator.Proofs.DenseMatrix.Determinants
import Calculator.Proofs.Expr.ResultTypes
import Calculator.Proofs.Builtin.Connectives
import Calculator.Proofs.Binary64.Values
import Calculator.Proofs.Integer.Conversions
import Calculator.Proofs.Yard.Ascent
