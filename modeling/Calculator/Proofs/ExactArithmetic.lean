import Calculator.Scalar
import Mathlib

/-!
# Exact arithmetic

The operations on vectors and matrices are generic over their scalars, and so are the
counting functions. Here the scalars of a commutative ring are its own elements,
added, subtracted and multiplied without rounding; over a field there are also
quotients and the integers of the field, and nothing is infinite. What the
computations return over them is their meaning where nothing is rounded.

The instances are those of `Calculator.Exact`, to be opened where exact scalars are
meant. Over them the sum of a list is the sum of the ring (`sum_eq`).
-/

set_option autoImplicit false

namespace Calculator.Exact

/-- The elements of a ring as scalars. The empty sum is zero. -/
scoped instance scalar {R : Type} [CommRing R] : Scalar R where
  emptySum := 0

/-- The elements of a field as scalars with quotients, none of which is infinite. -/
scoped instance countingScalar {K : Type} [Field K] : CountingScalar K where
  toScalar := scalar
  ofInt n := n
  isInfinite _ := false

@[simp] theorem ofInt_eq {K : Type} [Field K] (n : Int) : (CountingScalar.ofInt n : K) = n := rfl

-- The addition written below is that of the ring, not that of its scalars.
attribute [-instance] Scalar.toAdd

/-- The sum of a list is that of the ring. -/
theorem sum_eq {R : Type} [CommRing R] (xs : List R) : Calculator.sum xs = xs.sum :=
  List.sum_eq_foldl.symm

end Calculator.Exact
