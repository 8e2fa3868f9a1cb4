import Calculator.Error.Naming
import Calculator.Numeral.Radix
import Calculator.Text.Blank

/-!
# Display bases

Whole numbers are shown in base 2, 8, 10 or 16. In a base other than ten the text is the 64-bit
pattern of the number: `0b` and binary digits, `0` and octal digits, or `0x` and hexadecimal digits
in pairs.
-/

set_option autoImplicit false

namespace Calculator

/-- A base in which whole numbers are shown. -/
inductive Base where
  | binary
  | octal
  | decimal
  | hexadecimal
deriving DecidableEq, Repr

namespace Base

/-- The base as a number. -/
def radix : Base → Nat
  | binary => 2
  | octal => 8
  | decimal => 10
  | hexadecimal => 16

/-- The base as text. -/
def text (base : Base) : String := toString base.radix

/-- The base that is a given number. -/
def ofRadix (radix : Nat) : Except NameError Base :=
  match radix with
  | 2 => .ok binary
  | 8 => .ok octal
  | 10 => .ok decimal
  | 16 => .ok hexadecimal
  | other => .error (.base (toString other))

/-- A text of decimal digits, after an optional plus sign, as a 32-bit number. -/
def readRadix? (text : List Char) : Option Nat :=
  let digits := match text with
    | '+' :: rest => rest
    | other => other
  match Numeral.read? 10 digits with
  | some radix => if radix < 2 ^ 32 then some radix else none
  | none => none

/-- The base that a text names; blanks around the name do not matter. -/
def ofText (text : String) : Except NameError Base :=
  match readRadix? (Text.trim text.toList) with
  | some radix => ofRadix radix
  | none => .error (.base text)

/-- A 64-bit pattern as text in a base, with the mark of the base. -/
def patternText (base : Base) (bits : Nat) : List Char :=
  let digits := Numeral.write base.radix bits
  match base with
  | binary => '0' :: 'b' :: digits
  | octal => '0' :: digits
  | decimal => digits
  | hexadecimal => '0' :: 'x' :: (if digits.length % 2 = 1 then '0' :: digits else digits)

end Base

end Calculator
