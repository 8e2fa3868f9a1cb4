import Calculator.Arity
import Calculator.Error.Cause

/-!
# Errors

A text can fail to be an expression (`ParseError`) and an expression can fail to have a value
(`RuntimeError`). Both have a message; the errors of reading also have the byte offset they point
at, except that an empty text has none. `CalculationError.kind` sorts every error into one of a
few kinds for display.
-/

set_option autoImplicit false

namespace Calculator

/-! ## Errors of reading -/

/-- Why a text is no expression. Offsets count bytes. -/
inductive ParseError where
  | unexpectedCharacter (character : Char) (offset : Nat)
  | malformedNumber (literal : String) (offset : Nat)
  | misplacedComma (offset : Nat)
  | mismatchedParentheses (offset : Nat)
  | notEnoughOperands (op : BinaryOperator) (offset : Nat)
  | notEnoughArguments (name : String) (expected found offset : Nat)
  | emptyExpression
  | invalidExpression (offset : Nat)
deriving DecidableEq, Repr

namespace ParseError

/-- The byte offset that an error points at. -/
def offset? : ParseError → Option Nat
  | unexpectedCharacter _ offset | malformedNumber _ offset | misplacedComma offset
  | mismatchedParentheses offset | notEnoughOperands _ offset
  | notEnoughArguments _ _ _ offset | invalidExpression offset => some offset
  | emptyExpression => none

/-- Whether an error is about the spelling of a single lexeme. -/
def isLexical : ParseError → Bool
  | unexpectedCharacter _ _ | malformedNumber _ _ => true
  | _ => false

/-- The error in words. -/
def message : ParseError → String
  | unexpectedCharacter character offset =>
    s!"Unexpected character '{character}' at position {offset}."
  | malformedNumber literal offset => s!"Invalid number '{literal}' at position {offset}."
  | misplacedComma offset => s!"Misplaced comma at position {offset}."
  | mismatchedParentheses offset => s!"Mismatched parentheses at position {offset}."
  | notEnoughOperands op offset =>
    s!"Not enough operands for '{op.symbol}' at position {offset}."
  | notEnoughArguments name expected found offset =>
    s!"Not enough arguments for function '{name}' at position {offset}: expected {expected}, found {found}."
  | emptyExpression => "Empty expression."
  | invalidExpression offset =>
    s!"Invalid expression: unexpected operand at position {offset}."

end ParseError

/-! ## Errors of computing -/

/-- Why an expression has no value. A result with more elements than can be stored breaks the
computation off (`outOfStorage`); everything else is found out by a check. -/
inductive RuntimeError where
  | divisionByZero (cause : ZeroDivision)
  | domain (cause : DomainFault)
  | overflow (cause : OverflowFault)
  | invalidArgument (cause : ArgumentFault)
  | argumentCount (name : String) (expected : Arity)
  | expectedNumber (function : String) (found : ValueType)
  | expectedMatrix (function : String) (found : ValueType)
  | dimensionMismatch (cause : ShapeFault)
  | unsupported (cause : UnsupportedFault)
  | unknownFunction (name : String)
  | nonNumericOperands (op : BinaryOperator)
  | outOfStorage (shape : Shape)
deriving DecidableEq

/-- The error in words. -/
def RuntimeError.message : RuntimeError → String
  | divisionByZero cause => s!"Division by zero: {cause.details}."
  | domain cause => s!"Domain error: {cause.details}."
  | overflow cause => s!"Overflow: {cause.details}."
  | invalidArgument cause => s!"Invalid argument: {cause.details}."
  | argumentCount name expected => s!"{name} requires {expected.describe}."
  | expectedNumber function found => s!"{function} expects a number, found a {found.name}."
  | expectedMatrix function found =>
    s!"{function} expects a matrix, found a {found.name}. Use matrix(rows, cols, ...)."
  | dimensionMismatch cause => s!"Dimension mismatch: {cause.details}."
  | unsupported cause => s!"Unsupported operation: {cause.details}."
  | unknownFunction name => s!"Unknown function '{name}'."
  | nonNumericOperands op => s!"Operator '{op.symbol}' requires numeric operands."
  | outOfStorage _ => "capacity overflow"

/-! ## Any error, and its kind -/

/-- What can come of evaluating a text instead of a value. -/
inductive CalculationError where
  | parse (error : ParseError)
  | runtime (error : RuntimeError)
deriving DecidableEq

/-- The kinds of error that a display tells apart. -/
inductive ErrorKind where
  | lexical
  | domain
  | overflow
  | underflow
  | divisionByZero
  | invalidArguments
  | dimensionMismatch
  | memory
  | unsupported
  | parse
  | evaluation
  | unknown
deriving DecidableEq, Repr

namespace ErrorKind

/-- All kinds, in the order of their declaration. -/
def all : List ErrorKind :=
  [lexical, domain, overflow, underflow, divisionByZero, invalidArguments, dimensionMismatch,
    memory, unsupported, parse, evaluation, unknown]

/-- The kind in words. -/
def label : ErrorKind → String
  | lexical => "Syntax error"
  | domain => "Domain error"
  | overflow => "Numeric overflow"
  | underflow => "Numeric underflow"
  | divisionByZero => "Division by zero"
  | invalidArguments => "Invalid arguments"
  | dimensionMismatch => "Dimension mismatch"
  | memory => "Memory allocation failed"
  | unsupported => "Unsupported operation"
  | parse => "Parse error"
  | evaluation => "Evaluation error"
  | unknown => "Unknown error"

end ErrorKind

/-- The kind of an error of computing. -/
def RuntimeError.kind : RuntimeError → ErrorKind
  | divisionByZero _ => .divisionByZero
  | domain _ => .domain
  | overflow _ => .overflow
  | invalidArgument _ | argumentCount _ _ | expectedNumber _ _ | expectedMatrix _ _ =>
    .invalidArguments
  | dimensionMismatch _ => .dimensionMismatch
  | unsupported _ | unknownFunction _ => .unsupported
  | nonNumericOperands _ => .evaluation
  | outOfStorage _ => .memory

namespace CalculationError

/-- Whether this is no error that is returned, but the end of the whole program. -/
def isFatal : CalculationError → Bool
  | runtime (.outOfStorage _) => true
  | _ => false

/-- The kind of an error. -/
def kind : CalculationError → ErrorKind
  | parse error => if error.isLexical then .lexical else .parse
  | runtime error => error.kind

/-- The byte offset that an error points at, where it is known. -/
def offset? : CalculationError → Option Nat
  | parse error => error.offset?
  | runtime _ => none

/-- The error in words. -/
def message : CalculationError → String
  | parse error => error.message
  | runtime error => error.message

end CalculationError

end Calculator
