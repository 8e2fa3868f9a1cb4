import Calculator.Builtin.Table
import Calculator.Operator.Apply
import Calculator.Proofs.Outcome

/-!
# What functions and operators return and how they fail

**Outcomes.** `Ends good allowed` says of a computation that its result is good
if it has one and that its error is allowed if it fails. One rule takes a
computation apart step by step (`Ends.bind`).

**Results.** Operators return numbers, and the type of what a function returns
depends on the function alone (`Builtin.resultType`).

**Errors.** Every error is reported by a check, but for one: the product of two
matrices and that of a matrix with a vector may have more elements than can be
stored. `Builtin.Exceeds` says for which arguments this is so, and no other function
and no other arguments break off (`ends_apply`, `apply_eq_outOfStorage_iff`).
-/

set_option autoImplicit false

namespace Calculator

section Ends

variable {α β : Type} {good : α → Prop} {allowed : RuntimeError → Prop}

/-- A computation ends with a good result or with an allowed error. -/
def Ends (good : α → Prop) (allowed : RuntimeError → Prop) : Except RuntimeError α → Prop
  | .ok result => good result
  | .error error => allowed error

theorem Ends.bind {middle : β → Prop} {first : Except RuntimeError β}
    {next : β → Except RuntimeError α} (holds : Ends middle allowed first)
    (rest : ∀ value, middle value → Ends good allowed (next value)) :
    Ends good allowed (first >>= next) := by
  cases first with
  | error error => exact holds
  | ok value => exact rest value holds

theorem Ends.weaken {better : α → Prop} {fewer : RuntimeError → Prop}
    {outcome : Except RuntimeError α} (holds : Ends better fewer outcome)
    (results : ∀ value, better value → good value) (errors : ∀ error, fewer error → allowed error) :
    Ends good allowed outcome := by
  cases outcome with
  | error error => exact errors error holds
  | ok value => exact results value holds

/-- An error that a check reports: anything but a lack of storage. -/
def Reported : RuntimeError → Prop
  | .outOfStorage _ => False
  | _ => True

/-- A computation that does not break off for lack of storage. -/
def Reports (outcome : Except RuntimeError α) : Prop := Ends (fun _ => True) Reported outcome

theorem Reports.bind {first : Except RuntimeError β} {next : β → Except RuntimeError α}
    (holds : Reports first) (rest : ∀ value, Ends good Reported (next value)) :
    Ends good Reported (first >>= next) :=
  Ends.bind holds fun value _ => rest value

theorem Reports.map {outcome : Except RuntimeError β} {f : β → α} (holds : Reports outcome)
    (results : ∀ value, good (f value)) : Ends good Reported (outcome.map f) := by
  cases outcome with
  | error error => exact holds
  | ok value => exact results value

theorem Ends.result {outcome : Except RuntimeError α} {value : α} (holds : Ends good allowed outcome)
    (returned : outcome = .ok value) : good value := by
  rw [returned] at holds
  exact holds

theorem Ends.error {outcome : Except RuntimeError α} {error : RuntimeError}
    (holds : Ends good allowed outcome) (failed : outcome = .error error) : allowed error := by
  rw [failed] at holds
  exact holds

end Ends

/-! ## Arguments -/

namespace Argument

variable (function : String) (args : List Value) (index : Nat)

theorem ends_value : Ends (fun v => args[index]? = some v) Reported (value function args index) := by
  rw [value]
  cases found : args[index]? with
  | none => trivial
  | some v => rfl

theorem ends_matrix :
    Ends (fun m => args[index]? = some (.matrix m)) Reported (matrix function args index) := by
  refine (ends_value function args index).bind fun v found => ?_
  cases v with
  | number x => trivial
  | vector xs => trivial
  | matrix m => exact found

theorem reports_matrix : Reports (matrix function args index) :=
  (ends_matrix function args index).weaken (fun _ _ => trivial) fun _ reported => reported

theorem reports_number : Reports (number function args index) := by
  refine (ends_value function args index).bind fun v _ => ?_
  cases v with
  | number x => trivial
  | vector xs => trivial
  | matrix m => trivial

theorem reports_ofNumber (what : String) (x : Float) : Reports (Integer.ofNumber what x) := by
  rw [Integer.ofNumber]
  split
  · trivial
  · dsimp only
    split <;> trivial

theorem reports_integer : Reports (integer function args index) :=
  (reports_number function args index).bind fun x => reports_ofNumber function x

/-- A size fits a word. -/
theorem ends_size (what : String) (x : Float) :
    Ends (· ≤ largestCount) Reported (Integer.sizeOfNumber what x) := by
  rw [Integer.sizeOfNumber]
  split
  case h_1 n whole =>
    split
    case isTrue fits => exact Int.toNat_le.2 fits.2
    case isFalse => trivial
  case h_2 => trivial

theorem reports_size (what : String) (x : Float) : Reports (Integer.sizeOfNumber what x) :=
  (ends_size what x).weaken (fun _ _ => trivial) fun _ reported => reported

theorem reports_flattenNonempty : Reports (flattenNonempty function args) := by
  rw [flattenNonempty]
  split <;> trivial

theorem reports_splitPair : Reports (splitPair function args) := by
  rw [splitPair.eq_def]
  split
  · trivial
  · dsimp only
    split <;> trivial

end Argument

/-! ## Numbers and samples -/

namespace NumberTheory

theorem reports_lcm (a b : Int64) : Reports (lcm a b) := by
  rw [lcm]
  split
  · trivial
  · dsimp only
    split <;> trivial

theorem reports_modulo (a m : Int64) : Reports (modulo a m) := by
  rw [modulo]
  split <;> trivial

theorem reports_modpow (base exponent m : Int64) : Reports (modpow base exponent m) := by
  rw [modpow]
  dsimp only
  split
  · trivial
  · split
    · trivial
    · split <;> trivial

end NumberTheory

namespace Counting

variable {α : Type} [CountingScalar α]

theorem reports_factorial (n : Int64) : Reports (factorial n : Except RuntimeError α) := by
  rw [factorial]
  split
  · trivial
  · split <;> trivial

theorem reports_checkSelection (function : String) (n r : Int) :
    Reports (checkSelection function n r) := by
  rw [checkSelection]
  split
  · trivial
  · split <;> trivial

theorem reports_combinations (n r : Int64) : Reports (combinations n r : Except RuntimeError α) := by
  refine (reports_checkSelection _ _ _).bind fun _ => ?_
  dsimp only
  split <;> trivial

theorem reports_permutations (n r : Int64) : Reports (permutations n r : Except RuntimeError α) := by
  refine (reports_checkSelection _ _ _).bind fun _ => ?_
  split <;> trivial

theorem reports_binomial (n : Int64) (p : Float) (k : Int64) : Reports (binomial n p k) := by
  rw [binomial]
  split
  · trivial
  · dsimp only
    split
    · trivial
    · split
      · trivial
      · exact (reports_combinations n k).bind fun _ => trivial

theorem reports_geometric (p : Float) (k : Int64) : Reports (geometric p k) := by
  rw [geometric]
  split
  · trivial
  · split <;> trivial

end Counting

namespace Statistics

theorem reports_checkData (function : String) (data : List Float) :
    Reports (checkData function data) := by
  rw [checkData]
  split <;> trivial

theorem reports_mean (data : List Float) : Reports (mean data) :=
  (reports_checkData _ data).bind fun _ => trivial

theorem reports_variance (data : List Float) : Reports (variance data) :=
  (reports_checkData _ data).bind fun _ => (reports_mean data).bind fun _ => trivial

theorem reports_deviation (data : List Float) : Reports (deviation data) :=
  (reports_checkData _ data).bind fun _ => (reports_variance data).bind fun _ => trivial

theorem reports_median (data : List Float) : Reports (median data) := by
  rw [median]
  dsimp only
  split
  · trivial
  · split <;> trivial

theorem reports_mode (data : List Float) : Reports (mode data) := by
  rw [mode]
  split <;> trivial

theorem reports_zscore (value : Float) (data : List Float) : Reports (zscore value data) := by
  refine (reports_checkData _ data).bind fun _ => (reports_mean data).bind fun _ => ?_
  refine (reports_deviation data).bind fun _ => ?_
  split <;> trivial

theorem reports_correlation (x y : List Float) : Reports (correlation x y) := by
  refine (reports_checkData _ x).bind fun _ => (reports_checkData _ y).bind fun _ => ?_
  split
  · trivial
  · refine (reports_mean x).bind fun _ => (reports_mean y).bind fun _ => ?_
    dsimp only
    split <;> trivial

end Statistics

theorem Measure.reports_ofSample (measure : Measure) (data : List Float) :
    Reports (measure.ofSample data) := by
  cases measure with
  | mean => exact Statistics.reports_mean data
  | median => exact Statistics.reports_median data
  | mode => exact Statistics.reports_mode data
  | variance => exact Statistics.reports_variance data
  | deviation => exact Statistics.reports_deviation data

/-! ## Vectors and matrices -/

theorem Coordinates.reports_zip {α : Type} (function : String) (combine : α → α → α)
    (a b : List α) : Reports (zip function combine a b) := by
  rw [zip]
  split <;> trivial

namespace DenseMatrix

variable {α : Type}

theorem reports_ofElements (rows cols : Nat) (elements : List α) :
    Reports (ofElements rows cols elements) := by
  rw [ofElements]
  split <;> trivial

theorem reports_zip (function : String) (combine : α → α → α) (a b : DenseMatrix α) :
    Reports (zip function combine a b) := by
  rw [zip]
  split <;> trivial

variable [Scalar α]

theorem reports_determinant (m : DenseMatrix α) : Reports m.determinant := by
  rw [determinant]
  split
  · trivial
  · split
    · trivial
    · split <;> trivial

/-- A product breaks off exactly if its operands fit together and it cannot be stored. -/
theorem mul_eq_outOfStorage_iff {a b : DenseMatrix α} {shape : Shape} :
    a.mul b = .error (.outOfStorage shape) ↔
      a.cols = b.rows ∧ largestStorage < a.rows * b.cols ∧ shape = ⟨a.rows, b.cols⟩ := by
  rw [mul]
  split
  case isFalse apart => simp [apart]
  case isTrue inner =>
    split
    case isTrue stored => simp [Nat.not_lt.2 stored]
    case isFalse large => simp [inner, Nat.lt_of_not_le large, eq_comm]

/-- The product with a vector breaks off exactly if its operands fit together and it cannot be
stored. -/
theorem mulVector_eq_outOfStorage_iff {m : DenseMatrix α} {v : List α} {shape : Shape} :
    m.mulVector v = .error (.outOfStorage shape) ↔
      m.cols = v.length ∧ largestStorage < m.rows ∧ shape = ⟨m.rows, 1⟩ := by
  rw [mulVector]
  split
  case isFalse apart => simp [apart]
  case isTrue size =>
    split
    case isTrue stored => simp [Nat.not_lt.2 stored]
    case isFalse large => simp [size, Nat.lt_of_not_le large, eq_comm]

end DenseMatrix

/-! ## Operators -/

namespace BinaryOperator

theorem reports_onWords (op : BinaryOperator) (a b : Int64) : Reports (op.onWords a b) := by
  have shifted (result : Int64) :
      Reports (if 0 ≤ b.toInt ∧ b.toInt ≤ 63 then .ok result
        else .error (.invalidArgument (.shiftAmount b.toInt)) : Except RuntimeError Int64) := by
    split <;> trivial
  cases op with
  | shiftLeft => exact shifted (a <<< b)
  | shiftRight => exact shifted (a >>> b)
  | _ => trivial

theorem reports_arithmetic (op : BinaryOperator) (left right : Float) :
    Reports (op.arithmetic left right) := by
  cases op with
  | div =>
      rw [arithmetic]
      split <;> trivial
  | _ => trivial

theorem reports_bitwise (op : BinaryOperator) (left right : Float) :
    Reports (op.bitwise left right) :=
  (Argument.reports_ofNumber op.symbol left).bind fun a =>
    (Argument.reports_ofNumber op.symbol right).bind fun b =>
      (op.reports_onWords a b).bind fun _ => trivial

/-- An operator on numbers returns a finite number or an error that some check reports. -/
theorem ends_onNumbers (op : BinaryOperator) (left right : Float) :
    Ends (Binary64.isFinite · = true) Reported (op.onNumbers left right) := by
  have checked (result : Float) : Ends (Binary64.isFinite · = true) Reported
      (if Binary64.isFinite result then pure result
        else throw (.domain (.operation left op right)) : Except RuntimeError Float) := by
    split
    case isTrue finite => exact finite
    case isFalse => trivial
  rw [onNumbers]
  split
  · trivial
  · split
    · exact (op.reports_bitwise left right).bind checked
    · exact (op.reports_arithmetic left right).bind checked

theorem reports_onNumbers (op : BinaryOperator) (left right : Float) :
    Reports (op.onNumbers left right) :=
  (op.ends_onNumbers left right).weaken (fun _ _ => trivial) fun _ reported => reported

/-- An operator returns a number or an error that some check reports. -/
theorem ends_apply (op : BinaryOperator) (left right : Value) :
    Ends (·.type = .number) Reported (op.apply left right) := by
  rw [apply.eq_def]
  split
  · exact (op.reports_onNumbers _ _).map fun _ => rfl
  · trivial

end BinaryOperator

/-! ## Functions -/

namespace Builtin

/-- The type of what a function returns. -/
def resultType : Builtin → ValueType
  | vector | vectorPair .add | vectorPair .sub | scaleVector | mulVector | setPair _ => .vector
  | matrix | matrixPair _ | scaleMatrix | transpose => .matrix
  | _ => .number

/-- A function is to multiply operands whose product cannot be stored, where `shape` is the shape of
the product. -/
inductive Exceeds : Builtin → List Value → Shape → Prop
  | matrices {a b : DenseMatrix Float} {others : List Value} (inner : a.cols = b.rows)
      (large : largestStorage < a.rows * b.cols) :
      Exceeds (matrixPair .mul) (.matrix a :: .matrix b :: others) ⟨a.rows, b.cols⟩
  | vector {m : DenseMatrix Float} {v : List Float} {others : List Value}
      (inner : m.cols = v.length) (large : largestStorage < m.rows) :
      Exceeds mulVector (.matrix m :: .vector v :: others) ⟨m.rows, 1⟩

/-- An error that a function may fail with on some arguments. -/
def Allows (function : Builtin) (args : List Value) (error : RuntimeError) : Prop :=
  ∀ shape, error = .outOfStorage shape → function.Exceeds args shape

theorem allows_of_reported {function : Builtin} {args : List Value} {error : RuntimeError}
    (reported : Reported error) : function.Allows args error := by
  rintro shape rfl
  exact reported.elim

/-! ### Functions that only report -/

section Reporting

open Argument Handler

variable (args : List Value)

theorem ends_vectorPair (op : VectorOp) :
    Ends (·.type = (vectorPair op).resultType) Reported ((vectorPair op).apply args) := by
  refine (reports_splitPair op.name args).bind fun operands => ?_
  cases op with
  | add => exact (Coordinates.reports_zip _ _ _ _).map fun _ => rfl
  | sub => exact (Coordinates.reports_zip _ _ _ _).map fun _ => rfl
  | dot =>
      have product : Reports (Coordinates.dot operands.1 operands.2) :=
        (Coordinates.reports_zip _ _ _ _).map fun _ => trivial
      exact product.map fun _ => rfl

theorem ends_correlation :
    Ends (·.type = correlation.resultType) Reported (correlation.apply args) := by
  change Ends _ Reported (Handler.correlation args)
  rw [Handler.correlation]
  dsimp only
  split
  · trivial
  · exact (Statistics.reports_correlation _ _).bind fun _ => rfl

theorem ends_connective (c : Connective) :
    Ends (·.type = (connective c).resultType) Reported ((connective c).apply args) := by
  have values : Reports (truthValues c.name args) := by
    rw [truthValues]
    split <;> trivial
  exact values.bind fun _ => rfl

/-- Apart from the two kinds of product, a function returns a value of its type or an error that
some check reports. -/
theorem ends_reporting {function : Builtin} (notMatrices : function ≠ matrixPair .mul)
    (notVector : function ≠ mulVector) :
    Ends (·.type = function.resultType) Reported (function.apply args) := by
  cases function with
  | gcd =>
      exact (reports_integer _ args 0).bind fun _ => (reports_integer _ args 1).bind fun _ => rfl
  | lcm =>
      exact (reports_integer _ args 0).bind fun a => (reports_integer _ args 1).bind fun b =>
        (NumberTheory.reports_lcm a b).bind fun _ => rfl
  | modulo =>
      exact (reports_integer _ args 0).bind fun a => (reports_integer _ args 1).bind fun m =>
        (NumberTheory.reports_modulo a m).bind fun _ => rfl
  | modpow =>
      exact (reports_integer _ args 0).bind fun base => (reports_integer _ args 1).bind fun e =>
        (reports_integer _ args 2).bind fun m => (NumberTheory.reports_modpow base e m).bind fun _ =>
        rfl
  | isPrime => exact (reports_integer _ args 0).bind fun _ => rfl
  | combinations =>
      exact (reports_integer _ args 0).bind fun n => (reports_integer _ args 1).bind fun r =>
        (Counting.reports_combinations n r).bind fun _ => rfl
  | permutations =>
      exact (reports_integer _ args 0).bind fun n => (reports_integer _ args 1).bind fun r =>
        (Counting.reports_permutations n r).bind fun _ => rfl
  | factorial =>
      exact (reports_integer _ args 0).bind fun n => (Counting.reports_factorial n).bind fun _ => rfl
  | binomial =>
      exact (reports_integer _ args 0).bind fun n => (reports_number _ args 1).bind fun p =>
        (reports_integer _ args 2).bind fun k => (Counting.reports_binomial n p k).bind fun _ => rfl
  | geometric =>
      exact (reports_number _ args 0).bind fun p => (reports_integer _ args 1).bind fun k =>
        (Counting.reports_geometric p k).bind fun _ => rfl
  | measure m =>
      exact (reports_flattenNonempty _ args).bind fun data =>
        (m.reports_ofSample data).bind fun _ => rfl
  | zscore =>
      exact (reports_number _ args 0).bind fun x => (reports_flattenNonempty _ _).bind fun data =>
        (Statistics.reports_zscore x data).bind fun _ => rfl
  | correlation => exact ends_correlation args
  | vector => exact (reports_flattenNonempty _ args).bind fun _ => rfl
  | matrix =>
      exact (reports_number _ args 0).bind fun height => (reports_size _ height).bind fun rows =>
        (reports_number _ args 1).bind fun width => (reports_size _ width).bind fun cols =>
        (DenseMatrix.reports_ofElements rows cols _).bind fun _ => rfl
  | vectorPair op => exact ends_vectorPair args op
  | scaleVector => exact (reports_number _ args 0).bind fun _ => rfl
  | norm => exact (reports_flattenNonempty _ args).bind fun _ => rfl
  | matrixPair op =>
      refine (reports_matrix _ args 0).bind fun a => (reports_matrix _ args 1).bind fun b => ?_
      cases op with
      | add => exact (DenseMatrix.reports_zip _ _ a b).map fun _ => rfl
      | sub => exact (DenseMatrix.reports_zip _ _ a b).map fun _ => rfl
      | mul => exact absurd rfl notMatrices
  | mulVector => exact absurd rfl notVector
  | scaleMatrix =>
      exact (reports_number _ args 0).bind fun _ => (reports_matrix _ args 1).bind fun _ => rfl
  | determinant =>
      exact (reports_matrix _ args 0).bind fun m => m.reports_determinant.bind fun _ => rfl
  | transpose => exact (reports_matrix _ args 0).bind fun _ => rfl
  | setPair op => exact (reports_splitPair _ args).bind fun _ => rfl
  | negate => exact (reports_number _ args 0).bind fun _ => rfl
  | complement => exact (reports_integer _ args 0).bind fun _ => rfl
  | logicalNot => exact (reports_number _ args 0).bind fun _ => rfl
  | connective c => exact ends_connective args c

end Reporting

/-! ### Products -/

theorem exists_operands {args : List Value} {first second : Value} (left : args[0]? = some first)
    (right : args[1]? = some second) : ∃ others, args = first :: second :: others := by
  match args, left, right with
  | _ :: _ :: others, rfl, rfl => exact ⟨others, rfl⟩

theorem ends_mulMatrices (args : List Value) :
    Ends (·.type = .matrix) ((matrixPair .mul).Allows args) ((matrixPair .mul).apply args) := by
  have reads (index : Nat) : Ends (fun m => args[index]? = some (.matrix m))
      ((matrixPair .mul).Allows args) (Argument.matrix "mat_mul" args index) :=
    (Argument.ends_matrix _ args index).weaken (fun _ found => found) fun _ => allows_of_reported
  refine (reads 0).bind fun a left => (reads 1).bind fun b right => ?_
  change Ends _ _ ((a.mul b).map Value.matrix)
  cases product : a.mul b with
  | ok m => rfl
  | error error =>
      rintro shape rfl
      obtain ⟨inner, large, rfl⟩ := DenseMatrix.mul_eq_outOfStorage_iff.1 product
      obtain ⟨others, rfl⟩ := exists_operands left right
      exact .matrices inner large

theorem ends_mulVector (args : List Value) :
    Ends (·.type = .vector) (mulVector.Allows args) (mulVector.apply args) := by
  have allowed : ∀ error, Reported error → mulVector.Allows args error := fun _ => allows_of_reported
  have reads := (Argument.ends_matrix "mat_vec_mul" args 0).weaken (fun _ found => found) allowed
  have looks := (Argument.ends_value "mat_vec_mul" args 1).weaken (fun _ found => found) allowed
  refine reads.bind fun m left => looks.bind fun second right => ?_
  cases second with
  | number x => exact allows_of_reported trivial
  | matrix n => exact allows_of_reported trivial
  | vector v =>
      change Ends _ _ (m.mulVector v >>= fun product => pure (Value.vector product))
      cases product : m.mulVector v with
      | ok result => rfl
      | error error =>
          rintro shape rfl
          obtain ⟨inner, large, rfl⟩ := DenseMatrix.mulVector_eq_outOfStorage_iff.1 product
          obtain ⟨others, rfl⟩ := exists_operands left right
          exact .vector inner large

/-- What a function returns is of its type, and it breaks off only where a product cannot be
stored. -/
theorem ends_apply (function : Builtin) (args : List Value) :
    Ends (·.type = function.resultType) (function.Allows args) (function.apply args) := by
  by_cases matrices : function = matrixPair .mul
  · subst matrices
    exact ends_mulMatrices args
  · by_cases vector : function = mulVector
    · subst vector
      exact ends_mulVector args
    · exact (ends_reporting args matrices vector).weaken (fun _ same => same) fun _ reported =>
        allows_of_reported reported

/-- A function breaks off exactly where a product cannot be stored. -/
theorem apply_eq_outOfStorage_iff {function : Builtin} {args : List Value} {shape : Shape} :
    function.apply args = .error (.outOfStorage shape) ↔ function.Exceeds args shape := by
  constructor
  · exact fun failed => (ends_apply function args).error failed shape rfl
  · intro exceeds
    cases exceeds with
    | @matrices a b others inner large =>
        have failed : a.mul b = .error (.outOfStorage ⟨a.rows, b.cols⟩) :=
          DenseMatrix.mul_eq_outOfStorage_iff.2 ⟨inner, large, rfl⟩
        change (a.mul b).map Value.matrix = _
        rw [failed]
        rfl
    | @vector m v others inner large =>
        have failed : m.mulVector v = .error (.outOfStorage ⟨m.rows, 1⟩) :=
          DenseMatrix.mulVector_eq_outOfStorage_iff.2 ⟨inner, large, rfl⟩
        change (m.mulVector v >>= fun product => pure (Value.vector product)) = _
        rw [failed]
        rfl

end Builtin

end Calculator
