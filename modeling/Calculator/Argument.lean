import Calculator.Integer
import Calculator.Value.Basic

/-!
# Arguments of functions

A function receives the list of its argument values. Most read single arguments by position;
others only see the numbers in all arguments, one after the other, or those numbers as two halves.
The errors name the function that asked.
-/

set_option autoImplicit false

namespace Calculator.Argument

/-- The argument at a position counted from zero. -/
def value (function : String) (args : List Value) (index : Nat) : Except RuntimeError Value :=
  match args[index]? with
  | some v => .ok v
  | none => .error (.invalidArgument (.missing function (index + 1)))

/-- The number at a position. -/
def number (function : String) (args : List Value) (index : Nat) : Except RuntimeError Float := do
  (← value function args index).asNumber function

/-- The matrix at a position. -/
def matrix (function : String) (args : List Value) (index : Nat) :
    Except RuntimeError (DenseMatrix Float) := do
  (← value function args index).asMatrix function

/-- The integer part of the number at a position. -/
def integer (function : String) (args : List Value) (index : Nat) : Except RuntimeError Int64 := do
  Integer.ofNumber function (← number function args index)

/-- The numbers in all arguments, in order. -/
def flatten (args : List Value) : List Float := args.flatMap Value.elements

/-- The numbers in all arguments, of which there must be one. -/
def flattenNonempty (function : String) (args : List Value) : Except RuntimeError (List Float) :=
  let data := flatten args
  if data.isEmpty then .error (.invalidArgument (.noElements function)) else .ok data

/-- A list as its first half and the rest. -/
def halves (data : List Float) : List Float × List Float := data.splitAt (data.length / 2)

/-- The two operands of a pairwise operation: two vectors as they are, or the two halves of an
even number of elements. -/
def splitPair (function : String) (args : List Value) :
    Except RuntimeError (List Float × List Float) :=
  match args with
  | [.vector a, .vector b] => .ok (a, b)
  | _ =>
    let data := flatten args
    if data.length < 2 ∨ data.length % 2 ≠ 0 then
      .error (.invalidArgument (.unpaired function data.length))
    else .ok (halves data)

end Calculator.Argument
