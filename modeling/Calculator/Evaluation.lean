import Calculator.Expr.Evaluation
import Calculator.Expr.Reading
import Calculator.Settings
import Calculator.Value.Display

/-!
# From text to value

`evaluate` reads a text and evaluates the expression it spells. `Settings.answer` also shows the
value: the settings decide the shown text, never the value or the error.
-/

set_option autoImplicit false

namespace Calculator

/-- The value of the expression that a text spells. -/
def evaluate (text : String) : Except CalculationError Value :=
  match Expr.ofText text with
  | .error error => .error (.parse error)
  | .ok e =>
    match e.eval with
    | .error error => .error (.runtime error)
    | .ok value => .ok value

/-- A value together with the text that shows it. -/
structure Answer where
  value : Value
  text : String
deriving DecidableEq

/-- The answer to a text under some settings. -/
def Settings.answer (settings : Settings) (text : String) : Except CalculationError Answer :=
  (evaluate text).map fun value => ⟨value, value.display settings.base⟩

end Calculator
