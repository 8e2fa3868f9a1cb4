import Calculator.Binary64.Conversion
import Calculator.Numeral.Decimal

/-!
# Number literals

A literal begins with a digit, or with a point before a digit. It extends over every following
letter, digit, underscore and point, and, unless it begins with a radix mark, over a sign directly
after an exponent mark. So `12ab` and `1.2.3` are one malformed literal each, not several tokens.

A literal `0x…` or `0b…` has hexadecimal or binary digits after the mark, and a zero before another
digit marks octal digits. Such a literal is a 64-bit pattern and stands for the signed integer of
that pattern. Any other literal is a decimal numeral with a finite value.
-/

set_option autoImplicit false

namespace Calculator.Literal

open Numeral

/-! ## How far a literal extends -/

/-- Whether a character continues a literal on its own. -/
def isLiteralChar (c : Char) : Bool := c.isAlphanum || c == '_' || c == '.'

/-- Whether a character marks a decimal exponent. -/
def isExponentMark (c : Char) : Bool := c == 'e' || c == 'E'

/-- Whether a character is a sign. -/
def isSign (c : Char) : Bool := c == '+' || c == '-'

/-- Whether a character marks a radix after a leading zero. -/
def isRadixMark (c : Char) : Bool := c == 'x' || c == 'X' || c == 'b' || c == 'B'

/-- Whether a text begins with a character of a class. -/
def startsWith (class? : Char → Bool) (text : List Char) : Bool := text.head?.any class?

/-- How many characters of a text continue a literal; `signed` says whether a sign after an
exponent mark does. -/
def extent (signed : Bool) : List Char → Nat
  | [] => 0
  | [c] => if isLiteralChar c then 1 else 0
  | c :: next :: rest =>
    if !isLiteralChar c then 0
    else if signed && isExponentMark c && isSign next then extent signed rest + 2
    else extent signed (next :: rest) + 1

/-- Whether a literal with this first character and this continuation begins with a radix mark. -/
def hasRadixMark (first : Char) (rest : List Char) : Bool :=
  first == '0' && startsWith isRadixMark rest

/-! ## What a literal stands for -/

/-- The signed integer with a given 64-bit pattern. -/
def signedOfBits (bits : Nat) : Int := if bits < 2 ^ 63 then bits else (bits : Int) - 2 ^ 64

/-- The value of digits in a radix, read as a 64-bit pattern. -/
def patternValue? (radix : Nat) (digits : List Char) : Option Float :=
  match Numeral.read? radix digits with
  | some bits => if bits < 2 ^ 64 then some (Binary64.ofInt (signedOfBits bits)) else none
  | none => none

/-- The value of a decimal literal, if it is finite. -/
def decimalValue? (text : List Char) : Option Float :=
  match Decimal.read? text with
  | some decimal =>
    if decimal.pattern < Binary64.infinityPattern then
      some (Binary64.ofPattern false decimal.pattern)
    else none
  | none => none

/-- The value of a whole literal. -/
def value? : List Char → Option Float
  | '0' :: mark :: rest =>
    if mark = 'x' ∨ mark = 'X' then patternValue? 16 rest
    else if mark = 'b' ∨ mark = 'B' then patternValue? 2 rest
    else if mark.isDigit then patternValue? 8 (mark :: rest)
    else decimalValue? ('0' :: mark :: rest)
  | text => decimalValue? text

end Calculator.Literal
