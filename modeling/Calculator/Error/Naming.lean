/-!
# Names that name nothing

The errors of reading the name of a mode or a base.
-/

set_option autoImplicit false

namespace Calculator

/-- A text that is no name of a mode, or of a base. -/
inductive NameError where
  | mode (text : String)
  | base (text : String)
deriving DecidableEq, Repr

/-- The error in words. -/
def NameError.message : NameError → String
  | mode text =>
    s!"Unknown mode '{text}': expected standard, programmer, statistics, probability, discrete or linalg."
  | base text => s!"Unsupported base '{text}': expected 2, 8, 10 or 16."

end Calculator
