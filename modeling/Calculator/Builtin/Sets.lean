import Calculator.Argument
import Calculator.ToleranceSet

/-!
# Functions of sets

The set operations take two vectors, or the two halves of the numbers in their arguments, and
return a vector.
-/

set_option autoImplicit false

namespace Calculator

/-- The operations on two sets. -/
inductive SetOp where
  | union
  | intersection
  | difference
deriving DecidableEq, Repr

namespace SetOp

/-- All operations on two sets. -/
def all : List SetOp := [union, intersection, difference]

/-- The name under which an operation is called. -/
def name : SetOp → String
  | union => "set_union"
  | intersection => "set_intersect"
  | difference => "set_diff"

/-- The operation with a given name. -/
def ofName? (name : String) : Option SetOp := all.find? fun op => op.name == name

/-- The result of an operation. -/
def apply : SetOp → List Float → List Float → List Float
  | union => ToleranceSet.union
  | intersection => ToleranceSet.intersection
  | difference => ToleranceSet.difference

end SetOp

namespace Handler

/-- An operation on two vectors as sets, or on the two halves of the numbers in the arguments. -/
def setPair (op : SetOp) (args : List Value) : Except RuntimeError Value := do
  let (a, b) ← Argument.splitPair op.name args
  return .vector (op.apply a b)

/-- A set operation by name; an unknown name is an error only after the operands are read. -/
def setPairNamed (function : String) (args : List Value) : Except RuntimeError Value :=
  match SetOp.ofName? function with
  | some op => setPair op args
  | none => do
    let _ ← Argument.splitPair function args
    throw (.unknownFunction function)

end Handler

end Calculator
