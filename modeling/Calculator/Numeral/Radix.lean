/-!
# Numerals in a radix

Digits are written and read for any radix up to sixteen: `write` spells a natural number with
its most significant digit first and no needless zero, in upper case, and `read?` gives the value
of a non-empty run of digits, of either case, with any number of leading zeros.
-/

set_option autoImplicit false

namespace Calculator.Numeral

/-- Powers with a natural exponent are those of the core library, whatever else is imported. -/
@[default_instance 10001]
instance (priority := 10001) power {α : Type} [NatPow α] : Pow α Nat := instPowNat

/-! ## Single digits -/

/-- The character for a digit below sixteen. -/
def digitChar (digit : Nat) : Char :=
  if digit < 10 then Char.ofNat (48 + digit) else Char.ofNat (55 + digit)

/-- The value of a digit or of a letter taken as a digit from ten on. -/
def digitValue (c : Char) : Nat :=
  if c.isDigit then c.toNat - 48
  else if c.isLower then c.toNat - 87
  else c.toNat - 55

/-- Whether a character is a digit of a radix. -/
def isDigitOf (radix : Nat) (c : Char) : Bool := c.isAlphanum && digitValue c < radix

/-! ## Writing -/

/-- The digits of `n`, followed by `tail`. -/
def writeOnto (radix n : Nat) (tail : List Char) : List Char :=
  if _h : 2 ≤ radix ∧ radix ≤ n then
    writeOnto radix (n / radix) (digitChar (n % radix) :: tail)
  else digitChar n :: tail
termination_by n
decreasing_by exact Nat.div_lt_self (by omega) (by omega)

/-- The digits of `n` in a radix, the most significant one first. -/
def write (radix n : Nat) : List Char := writeOnto radix n []

/-- The digits of `n`, filled up with leading zeros to at least `width`. -/
def writePadded (radix width n : Nat) : List Char :=
  let digits := write radix n
  List.replicate (width - digits.length) '0' ++ digits

/-! ## Reading -/

/-- The value of a run of digits, whatever characters they are. -/
def valueOf (radix : Nat) (digits : List Char) : Nat :=
  digits.foldl (fun value c => value * radix + digitValue c) 0

/-- The value of a non-empty run of digits of a radix, and nothing for any other text. -/
def read? (radix : Nat) (text : List Char) : Option Nat :=
  if text.isEmpty || !text.all (isDigitOf radix) then none else some (valueOf radix text)

end Calculator.Numeral
