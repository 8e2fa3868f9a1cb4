import Calculator.Builtin.Integers
import Calculator.Builtin.Linear
import Calculator.Builtin.Samples
import Calculator.Builtin.Sets
import Calculator.Builtin.Truth

/-!
# The functions that expressions can call

`Builtin` has one member for each function, `Builtin.table` the names under which they are called,
in the order in which they are listed; some functions have two names. `Builtin.arity` says how
many arguments a function accepts, and `Builtin.apply` what it returns.
-/

set_option autoImplicit false

namespace Calculator

/-- A function that expressions can call. -/
inductive Builtin where
  | gcd
  | lcm
  | modulo
  | modpow
  | isPrime
  | combinations
  | permutations
  | factorial
  | binomial
  | geometric
  | measure (m : Measure)
  | zscore
  | correlation
  | vector
  | matrix
  | vectorPair (op : VectorOp)
  | scaleVector
  | norm
  | matrixPair (op : MatrixOp)
  | mulVector
  | scaleMatrix
  | determinant
  | transpose
  | setPair (op : SetOp)
  | negate
  | complement
  | logicalNot
  | connective (c : Connective)
deriving DecidableEq, Repr

namespace Builtin

/-- The names of the functions. -/
def table : List (String × Builtin) :=
  [("gcd", gcd), ("lcm", lcm), ("mod", modulo), ("modpow", modpow), ("is_prime", isPrime),
    ("ncr", combinations), ("nCr", combinations), ("npr", permutations), ("nPr", permutations),
    ("fact", factorial), ("factorial", factorial), ("binomial", binomial),
    ("geometric", geometric), ("mean", measure .mean), ("median", measure .median),
    ("mode", measure .mode), ("var", measure .variance), ("stddev", measure .deviation),
    ("zscore", zscore), ("correlation", correlation), ("vector", vector), ("matrix", matrix),
    ("vec_add", vectorPair .add), ("vec_sub", vectorPair .sub), ("vec_dot", vectorPair .dot),
    ("vec_scale", scaleVector), ("vec_mag", norm), ("mat_add", matrixPair .add),
    ("mat_sub", matrixPair .sub), ("mat_mul", matrixPair .mul), ("mat_vec_mul", mulVector),
    ("mat_scale", scaleMatrix), ("mat_det", determinant), ("mat_transpose", transpose),
    ("set_union", setPair .union), ("set_intersect", setPair .intersection),
    ("set_diff", setPair .difference), ("neg", negate), ("bnot", complement),
    ("not", logicalNot), ("and", connective .conjunction), ("or", connective .disjunction),
    ("xor", connective .parity)]

/-- The function with a given name. -/
def ofName? (name : String) : Option Builtin := table.lookup name

/-- How many arguments a function accepts. -/
def arity : Builtin → Arity
  | gcd | lcm | modulo | combinations | permutations | geometric => .exactly 2
  | modpow | binomial => .exactly 3
  | isPrime | factorial => .exactly 1
  | measure _ => .atLeast 1
  | zscore => .atLeast 2
  | correlation => .evenAtLeast 2
  | vector => .any
  | matrix => .atLeast 3
  | vectorPair _ => .any
  | scaleVector => .atLeast 2
  | norm => .any
  | matrixPair _ | mulVector | scaleMatrix => .exactly 2
  | determinant | transpose => .exactly 1
  | setPair _ => .any
  | negate | complement | logicalNot => .exactly 1
  | connective _ => .any

/-- The result of a function on argument values. -/
def apply : Builtin → List Value → Except RuntimeError Value
  | gcd => Handler.gcd
  | lcm => Handler.lcm
  | modulo => Handler.modulo
  | modpow => Handler.modpow
  | isPrime => Handler.isPrime
  | combinations => Handler.combinations
  | permutations => Handler.permutations
  | factorial => Handler.factorial
  | binomial => Handler.binomial
  | geometric => Handler.geometric
  | measure m => Handler.aggregate m.name m
  | zscore => Handler.zscore
  | correlation => Handler.correlation
  | vector => Handler.vector
  | matrix => Handler.matrix
  | vectorPair op => Handler.vectorPair op
  | scaleVector => Handler.scaleVector
  | norm => Handler.norm
  | matrixPair op => Handler.matrixPair op
  | mulVector => Handler.mulVector
  | scaleMatrix => Handler.scaleMatrix
  | determinant => Handler.determinant
  | transpose => Handler.transpose
  | setPair op => Handler.setPair op
  | negate => Handler.negate
  | complement => Handler.complement
  | logicalNot => Handler.logicalNot
  | connective c => Handler.connect c

end Builtin

end Calculator
