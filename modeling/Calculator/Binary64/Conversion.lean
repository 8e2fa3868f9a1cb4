import Calculator.Binary64.Pattern

/-!
# Exact conversions between binary64 numbers and integers

Each conversion goes through the bit pattern of the number and counts in units, so its result is
the exact one: `truncate` drops the fraction, `toInteger?` reads an integral number, `ofInt` gives
the nearest number, and `remainder` is the exact remainder whose sign follows the dividend.
Arithmetic itself is the arithmetic of `Float`.
-/

set_option autoImplicit false

namespace Calculator.Binary64

/-! ## Reading a number -/

/-- The 64 bits of a number as a natural number. -/
def word (x : Float) : Nat := x.toBits.toNat

/-- Whether the sign bit is set. -/
def isNegative (x : Float) : Bool := 2 ^ 63 ≤ word x

/-- The bits of a number without the sign bit. -/
def pattern (x : Float) : Nat := word x % 2 ^ 63

/-- Whether a number is neither infinite nor missing. -/
def isFinite (x : Float) : Bool := pattern x < infinityPattern

/-- Whether a number is infinite, of either sign. -/
def isInfinite (x : Float) : Bool := pattern x == infinityPattern

/-- Whether this is no number at all. -/
def isNaN (x : Float) : Bool := infinityPattern < pattern x

/-- The distance of a number from zero, counted in units. -/
def magnitude (x : Float) : Nat := units (pattern x)

/-- A whole count with the sign of a number. -/
def withSignOf (x : Float) (count : Nat) : Int := if isNegative x then -count else count

/-- The value of a finite number, counted in units. -/
def signedUnits (x : Float) : Int := withSignOf x (magnitude x)

/-- The integer part of a finite number: the fraction is dropped, toward zero. -/
def truncate (x : Float) : Int := withSignOf x (magnitude x / unitsOfOne)

/-- Whether a number is finite and has no fraction. -/
def isIntegral (x : Float) : Bool := isFinite x && magnitude x % unitsOfOne == 0

/-- The integer that a number is, if it is finite and has no fraction. -/
def toInteger? (x : Float) : Option Int := if isIntegral x then some (truncate x) else none

/-! ## Building a number -/

/-- The number with a given sign and pattern. -/
def ofPattern (negative : Bool) (bits : Nat) : Float :=
  Float.ofBits (UInt64.ofNat (if negative then 2 ^ 63 + bits else bits))

/-- The number nearest to an integer; zero becomes the positive zero. -/
def ofInt (n : Int) : Float := ofPattern (n < 0) (nearest n.natAbs 1)

/-- The number nearest to a natural number. -/
def ofNat (n : Nat) : Float := ofInt n

/-- What stands for a result that does not exist. -/
def missing : Float := ofPattern false (infinityPattern + 2 ^ 51)

/-- The remainder of `x` by `y`, with the sign of `x`: `x` less a whole multiple of `y` that was
rounded toward zero. It is exact, and it is missing for an infinite `x` or a zero `y`. -/
def remainder (x y : Float) : Float :=
  if isNaN x || isNaN y || isInfinite x || magnitude y == 0 then missing
  else if isInfinite y then x
  else ofPattern (isNegative x) (nearest (magnitude x % magnitude y) unitsOfOne)

end Calculator.Binary64
