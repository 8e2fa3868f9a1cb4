/-!
# Argument counts

How many arguments a function may be called with, and how a message puts it.
-/

set_option autoImplicit false

namespace Calculator

/-- The argument counts that a function accepts. With `any`, the function itself looks at the
elements of its arguments. -/
inductive Arity where
  | exactly (count : Nat)
  | atLeast (count : Nat)
  | evenAtLeast (count : Nat)
  | any
deriving DecidableEq, Repr

namespace Arity

/-- Whether a call with `n` arguments is accepted. -/
def accepts : Arity → Nat → Bool
  | exactly count, n => n == count
  | atLeast count, n => count ≤ n
  | evenAtLeast count, n => count ≤ n && n % 2 == 0
  | any, _ => true

/-- The accepted counts in words. -/
def describe : Arity → String
  | exactly 1 => "exactly 1 argument"
  | exactly count => s!"exactly {count} arguments"
  | atLeast 1 => "at least 1 argument"
  | atLeast count => s!"at least {count} arguments"
  | evenAtLeast count => s!"an even number of arguments, at least {count}"
  | any => "any number of arguments"

end Arity

end Calculator
