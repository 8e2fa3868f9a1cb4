import Calculator.Argument

/-!
# Negation, complement and truth functions

A number is true when it is not zero; what is no number is true as well. The connectives fold
the truth of at least two numbers, taken from all arguments.
-/

set_option autoImplicit false

namespace Calculator

/-- Whether a number counts as true. -/
def isTrue (x : Float) : Bool := x != 0.0

/-- The connectives of any number of truth values. -/
inductive Connective where
  | conjunction
  | disjunction
  | parity
deriving DecidableEq, Repr

namespace Connective

/-- All connectives. -/
def all : List Connective := [conjunction, disjunction, parity]

/-- The name under which a connective is called. -/
def name : Connective → String
  | conjunction => "and"
  | disjunction => "or"
  | parity => "xor"

/-- The connective with a given name. -/
def ofName? (name : String) : Option Connective := all.find? fun c => c.name == name

/-- The truth value of a connective: all are true, one is true, or an odd number is. -/
def fold : Connective → List Bool → Bool
  | conjunction => fun bits => bits.all id
  | disjunction => fun bits => bits.any id
  | parity => fun bits => bits.foldl xor false

end Connective

namespace Handler

/-- A number with the opposite sign. -/
def negate (args : List Value) : Except RuntimeError Value := do
  return .number (-(← Argument.number "neg" args 0))

/-- The number of the complement of an integer: every bit of its word inverted. -/
def complement (args : List Value) : Except RuntimeError Value := do
  return .number (Integer.toNumber (~~~(← Argument.integer "bnot" args 0)))

/-- One for zero, and zero for any other number. -/
def logicalNot (args : List Value) : Except RuntimeError Value := do
  return .ofBool ((← Argument.number "not" args 0) == 0.0)

/-- The numbers in all arguments, of which there must be two. -/
def truthValues (function : String) (args : List Value) : Except RuntimeError (List Bool) :=
  let data := Argument.flatten args
  if data.length < 2 then .error (.invalidArgument (.tooFewValues function data.length))
  else .ok (data.map isTrue)

/-- A connective applied to the truth of the numbers in all arguments. -/
def connect (c : Connective) (args : List Value) : Except RuntimeError Value := do
  return .ofBool (c.fold (← truthValues c.name args))

/-- A connective by name; an unknown name is an error only after the arguments are read. -/
def connectNamed (function : String) (args : List Value) : Except RuntimeError Value :=
  match Connective.ofName? function with
  | some c => connect c args
  | none => do
    let _ ← truthValues function args
    throw (.unknownFunction function)

end Handler

end Calculator
