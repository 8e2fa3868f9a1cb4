import Calculator.Base

/-!
# Modes and settings

The settings of a calculator are a mode and a base. Every mode accepts every operator and every
function; the mode is kept for whoever displays it. The base decides how whole numbers are shown.
-/

set_option autoImplicit false

namespace Calculator

/-- The field that a calculator is used for. -/
inductive Mode where
  | standard
  | programmer
  | statistics
  | probability
  | discrete
  | linearAlgebra
deriving DecidableEq, Repr

namespace Mode

/-- All modes, in the order in which they are offered. -/
def all : List Mode :=
  [standard, programmer, statistics, probability, discrete, linearAlgebra]

/-- The name of a mode. -/
def name : Mode → String
  | standard => "standard"
  | programmer => "programmer"
  | statistics => "statistics"
  | probability => "probability"
  | discrete => "discrete"
  | linearAlgebra => "linalg"

/-- The mode that a text names; blanks around the name and the case of ASCII letters do not
matter. -/
def ofText (text : String) : Except NameError Mode :=
  let wanted := (Text.trim text.toList).map Char.toLower
  match all.find? fun mode => mode.name.toList == wanted with
  | some mode => .ok mode
  | none => .error (.mode text)

end Mode

/-- The mode and the display base of a calculator. -/
structure Settings where
  mode : Mode
  base : Base
deriving DecidableEq, Repr

namespace Settings

/-- The settings of a mode, with base ten. -/
def ofMode (mode : Mode) : Settings := ⟨mode, .decimal⟩

/-- The settings at the start. -/
def initial : Settings := ofMode .standard

end Settings

end Calculator
