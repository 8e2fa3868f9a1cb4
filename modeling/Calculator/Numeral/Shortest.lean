import Calculator.Binary64.Conversion
import Calculator.Numeral.Decimal

/-!
# The shortest decimal that reads back

Among the decimals whose nearest binary64 number is a given one, `shortest` finds one with the
fewest digits, and of two with equally few the nearer; when both are equally near, the larger.
For each digit count from one on, the two neighbours of the value on that decimal grid are tried;
seventeen digits are always enough, and the full decimal expansion stands behind them.

`shortestText` spells any binary64 number this way, positionally and without an exponent.
-/

set_option autoImplicit false

namespace Calculator.Numeral

open Binary64

/-- The neighbours of a pattern's value on the grid of `10 ^ -places` that read back as the
pattern: the nearer one if both do. -/
def onGrid? (bits : Nat) (places : Int) : Option Decimal :=
  let num := if 0 ≤ places then units bits * 10 ^ places.toNat else units bits
  let den := if 0 ≤ places then unitsOfOne else unitsOfOne * 10 ^ (-places).toNat
  let below := num / den
  let lower := Decimal.strip ⟨below, -places⟩
  let upper := Decimal.strip ⟨below + 1, -places⟩
  let lowerIsNearer : Bool := 2 * num < (2 * below + 1) * den
  if lower.pattern = bits ∧ (lowerIsNearer ∨ upper.pattern ≠ bits) then some lower
  else if upper.pattern = bits then some upper
  else none

/-- The full decimal expansion of a pattern's value. -/
def expansion (bits : Nat) : Decimal := Decimal.strip ⟨units bits * 5 ^ 1074, -1074⟩

/-- Tries the grids from `digits` significant digits on. -/
def searchGrids (bits : Nat) (leading : Int) : (attempts : Nat) → (digits : Nat) → Decimal
  | 0, _ => expansion bits
  | attempts + 1, digits =>
    match onGrid? bits (digits - 1 - leading) with
    | some found => found
    | none => searchGrids bits leading attempts (digits + 1)

/-- The shortest decimal that reads back as a positive finite pattern. -/
def shortest (bits : Nat) : Decimal :=
  searchGrids bits (leadingExponent (units bits) unitsOfOne) 17 1

/-- The spelling of any binary64 number by the fewest digits that read back. -/
def shortestText (x : Float) : List Char :=
  let sign := if isNegative x then ['-'] else []
  if isNaN x then ['N', 'a', 'N']
  else if isInfinite x then sign ++ ['i', 'n', 'f']
  else if pattern x = 0 then sign ++ ['0']
  else sign ++ (shortest (pattern x)).plain

/-- The shortest spelling as a string. -/
def showShortest (x : Float) : String := String.ofList (shortestText x)

end Calculator.Numeral
