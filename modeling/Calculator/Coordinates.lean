import Calculator.Error.Basic
import Calculator.Scalar

/-!
# Vectors

A vector is the list of its coordinates. Sums, differences and scalar products take two vectors of
equal size; other sizes are an error that names both. The scalar product adds up its products from
left to right.
-/

set_option autoImplicit false

namespace Calculator.Coordinates

variable {α : Type}

/-- Combines two vectors of equal size coordinate by coordinate. -/
def zip (function : String) (combine : α → α → α) (a b : List α) :
    Except RuntimeError (List α) :=
  if a.length = b.length then .ok (List.zipWith combine a b)
  else .error (.dimensionMismatch (.vectorSizes function a.length b.length))

variable [Scalar α]

/-- The sum of two vectors of equal size. -/
def add (a b : List α) : Except RuntimeError (List α) := zip "vec_add" (· + ·) a b

/-- The difference of two vectors of equal size. -/
def sub (a b : List α) : Except RuntimeError (List α) := zip "vec_sub" (· - ·) a b

/-- The scalar product: the sum of the products of the coordinates of two vectors of equal size. -/
def dot (a b : List α) : Except RuntimeError α := (zip "vec_dot" (· * ·) a b).map sum

/-- Every coordinate times a number. -/
def scale (v : List α) (factor : α) : List α := v.map (· * factor)

/-- The Euclidean norm. -/
def norm (v : List Float) : Float := (sum (v.map fun x => x * x)).sqrt

end Calculator.Coordinates
