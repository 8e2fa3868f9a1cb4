import Calculator.Expr.Evaluation
import Calculator.Proofs.Binary64.Comparison
import Calculator.Proofs.Operator.TwosComplement
import Calculator.Proofs.Operator.Words

/-!
# Boolean laws of the integer operators

For integers from `-2 ^ 53` to below `2 ^ 53` (`Small`) nothing is rounded: the
operators `&`, `|` and `^` and the function `bnot` return the integer that they
have as two's complement, and it is small again (`BitOp.apply_small`,
`complement_small`).

So they compute on the digits, through any depth of nesting. A `Formula` is an
expression of these operations over some parts. If its parts are small integers,
it has a value, and the digit of that value at each place is the truth value of
the formula for the digits of its parts (`Formula.testBit_integer`). Two formulas
with the same truth table have the same value (`Formula.integer_congr`): every
law of Boolean algebra is a law of these expressions, and the common ones are
listed in `BooleanLaws`.

The value of an operation is the number nearest to an integer, which is never the
negative zero. Where a law says that an operation gives back a part (`Restores`),
the negative zero comes back as the zero, which equals it, and every other part as
it is.
-/

set_option autoImplicit false

namespace Calculator

open Binary64 (toInteger? ofInt isNegative)
open TwosComplement

/-! ## Small integers -/

/-- An integer that fits 54 digits in two's complement. -/
def Small (n : Int) : Prop := -2 ^ 53 ≤ n ∧ n < 2 ^ 53

namespace Small

variable {m n : Int}

theorem fits (small : Small n) : Integer.fits n = true := by
  obtain ⟨low, high⟩ := small
  exact Integer.fits_iff.2 ⟨by omega, by omega⟩

/-- A small integer is not cut off by a word. -/
theorem toInt_ofInt (small : Small n) : (Int64.ofInt n).toInt = n := by
  obtain ⟨low, high⟩ := small
  exact Int64.toInt_ofInt_of_le (by omega) (by omega)

/-- A small integer is not rounded. -/
theorem toInteger?_ofInt (small : Small n) : toInteger? (ofInt n) = some n := by
  obtain ⟨low, high⟩ := small
  exact Binary64.toInteger?_ofInt_of_small (by omega)

theorem onIntegers (left : Small m) (right : Small n) (op : BitOp) : Small (op.onIntegers m n) :=
  settledFrom_iff.1 (op.settledFrom_onIntegers (settledFrom_iff.2 left) (settledFrom_iff.2 right))

theorem lnot (small : Small n) : Small n.lnot :=
  settledFrom_iff.1 (settledFrom_lnot_iff.2 (settledFrom_iff.2 small))

end Small

/-! ## The operations on numbers -/

/-- An operator on small integers returns its result in two's complement. -/
theorem BitOp.apply_small (op : BitOp) {x y : Float} {m n : Int} (left : toInteger? x = some m)
    (right : toInteger? y = some n) (smallM : Small m) (smallN : Small n) :
    op.operator.apply (.number x) (.number y) = .ok (.number (ofInt (op.onIntegers m n))) := by
  have small := smallM.onIntegers smallN op
  have finite := Binary64.isFinite_of_toInteger? small.toInteger?_ofInt
  have readM := Integer.ofNumber_of_integer left op.operator.symbol
  have readN := Integer.ofNumber_of_integer right op.operator.symbol
  rw [if_pos smallM.fits] at readM
  rw [if_pos smallN.fits] at readN
  have word : (op.onWords (Int64.ofInt m) (Int64.ofInt n)).toInt = op.onIntegers m n := by
    rw [op.toInt_onWords, smallM.toInt_ofInt, smallN.toInt_ofInt]
  have computed : op.operator.bitwise x y = .ok (ofInt (op.onIntegers m n)) := by
    rw [BinaryOperator.bitwise, readM, readN, ← word]
    change (op.operator.onWords _ _ >>= _) = _
    rw [op.operator_onWords]
    rfl
  have chosen : op.operator ≠ .tilde ∧ op.operator.isBitwise = true := by
    cases op <;> exact ⟨by decide, rfl⟩
  have result : op.operator.onNumbers x y = .ok (ofInt (op.onIntegers m n)) := by
    rw [BinaryOperator.onNumbers, if_neg chosen.1, if_pos chosen.2, computed]
    exact if_pos finite
  rw [BinaryOperator.apply, result]
  rfl

/-- The complement of a small integer is returned as it is in two's complement. -/
theorem complement_small {x : Float} {n : Int} (integer : toInteger? x = some n) (small : Small n) :
    Handler.complement [.number x] = .ok (.number (ofInt n.lnot)) := by
  have read := Integer.ofNumber_of_integer integer "bnot"
  rw [if_pos small.fits] at read
  have argument : Argument.integer "bnot" [.number x] 0 = .ok (Int64.ofInt n) := read
  have word : (~~~Int64.ofInt n).toInt = n.lnot := by rw [toInt_complement, small.toInt_ofInt]
  rw [Handler.complement, argument, ← word]
  rfl

/-! ## Expressions -/

/-- An expression that evaluates to a small integer. -/
def Denotes (e : Expr) (n : Int) : Prop :=
  ∃ x, e.eval = .ok (.number x) ∧ toInteger? x = some n ∧ Small n

theorem Denotes.eval_operation {e f : Expr} {m n : Int} (left : Denotes e m) (right : Denotes f n)
    (op : BitOp) (offset : Nat) :
    (Expr.binary op.operator e f offset).eval = .ok (.number (ofInt (op.onIntegers m n))) := by
  obtain ⟨x, evalE, integerX, smallM⟩ := left
  obtain ⟨y, evalF, integerY, smallN⟩ := right
  rw [Expr.eval, evalE, evalF]
  exact op.apply_small integerX integerY smallM smallN

theorem Denotes.eval_complement {e : Expr} {n : Int} (operand : Denotes e n) (offset : Nat) :
    (Expr.call "bnot" [e] offset).eval = .ok (.number (ofInt n.lnot)) := by
  obtain ⟨x, evalE, integer, small⟩ := operand
  have known : Builtin.ofName? "bnot" = some .complement := by decide
  have arguments : Expr.evalAll [e] = .ok [.number x] := by
    rw [Expr.evalAll, evalE]
    rfl
  rw [Expr.eval, known, arguments]
  exact complement_small integer small

/-! ## Formulas -/

/-- An expression of the operators and the complement over some parts. Each operation has an
offset. -/
inductive Formula (ι : Type) where
  | part (i : ι)
  | operation (op : BitOp) (left right : Formula ι) (offset : Nat)
  | complement (operand : Formula ι) (offset : Nat)

namespace Formula

variable {ι : Type}

/-- The expression of a formula, from the expressions of its parts. -/
def expr (parts : ι → Expr) : Formula ι → Expr
  | part i => parts i
  | operation op left right offset =>
    .binary op.operator (left.expr parts) (right.expr parts) offset
  | complement operand offset => .call "bnot" [operand.expr parts] offset

/-- The integer of a formula, from the integers of its parts. -/
def integer (integers : ι → Int) : Formula ι → Int
  | part i => integers i
  | operation op left right _ => op.onIntegers (left.integer integers) (right.integer integers)
  | complement operand _ => (operand.integer integers).lnot

/-- The truth value of a formula, from the truth values of its parts. -/
def truth (bits : ι → Bool) : Formula ι → Bool
  | part i => bits i
  | operation op left right _ => op.onBits (left.truth bits) (right.truth bits)
  | complement operand _ => !operand.truth bits

/-- Whether a formula is more than one of its parts. -/
def IsOperation : Formula ι → Prop
  | part _ => False
  | operation _ _ _ _ | complement _ _ => True

/-- A formula acts on each place by itself. -/
theorem testBit_integer (integers : ι → Int) (p : Formula ι) (i : Nat) :
    (p.integer integers).testBit i = p.truth fun v => (integers v).testBit i := by
  induction p with
  | part v => rfl
  | operation op left right offset ihLeft ihRight =>
      rw [integer, BitOp.testBit_onIntegers, ihLeft, ihRight, truth]
  | complement operand offset ih => rw [integer, Int.testBit_lnot, ih, truth]

/-- Formulas with the same truth table have the same integer. -/
theorem integer_congr {p q : Formula ι} (same : ∀ bits, p.truth bits = q.truth bits)
    (integers : ι → Int) : p.integer integers = q.integer integers := by
  refine eq_of_testBit fun i => ?_
  rw [testBit_integer, testBit_integer, same]

variable {parts : ι → Expr} {integers : ι → Int}

/-- A formula over small integers evaluates to its integer. -/
theorem denotes_expr (denote : ∀ i, Denotes (parts i) (integers i)) (p : Formula ι) :
    Denotes (p.expr parts) (p.integer integers) := by
  induction p with
  | part i => exact denote i
  | operation op left right offset ihLeft ihRight =>
      have small : Small (op.onIntegers (left.integer integers) (right.integer integers)) := by
        obtain ⟨_, -, -, smallLeft⟩ := ihLeft
        obtain ⟨_, -, -, smallRight⟩ := ihRight
        exact smallLeft.onIntegers smallRight op
      exact ⟨_, ihLeft.eval_operation ihRight op offset, small.toInteger?_ofInt, small⟩
  | complement operand offset ih =>
      have small : Small (operand.integer integers).lnot := by
        obtain ⟨_, -, -, smallOperand⟩ := ih
        exact smallOperand.lnot
      exact ⟨_, ih.eval_complement offset, small.toInteger?_ofInt, small⟩

/-- An operation evaluates to the number nearest to its integer. -/
theorem eval_expr (denote : ∀ i, Denotes (parts i) (integers i)) {p : Formula ι}
    (compound : p.IsOperation) :
    (p.expr parts).eval = .ok (.number (ofInt (p.integer integers))) := by
  cases p with
  | part i => cases compound
  | operation op left right offset =>
      exact (denotes_expr denote left).eval_operation (denotes_expr denote right) op offset
  | complement operand offset => exact (denotes_expr denote operand).eval_complement offset

end Formula

/-! ## Laws -/

/-- Two expressions evaluate to the same number, a small integer. -/
def Agree (e f : Expr) : Prop :=
  ∃ n, Small n ∧ e.eval = .ok (.number (ofInt n)) ∧ f.eval = .ok (.number (ofInt n))

/-- An expression evaluates to a number that equals the number of another one, to the same integer,
and to the very number unless that is the negative zero. -/
def Restores (e result : Expr) : Prop :=
  ∃ x y n, e.eval = .ok (.number x) ∧ result.eval = .ok (.number y) ∧ (y == x) = true ∧
    toInteger? x = some n ∧ toInteger? y = some n ∧ (n ≠ 0 ∨ isNegative x = false → y = x)

section Laws

variable {ι : Type} {parts : ι → Expr} {integers : ι → Int}

/-- Operations with the same truth table have the same value. -/
theorem Formula.agree (denote : ∀ i, Denotes (parts i) (integers i)) {p q : Formula ι}
    (compoundP : p.IsOperation) (compoundQ : q.IsOperation)
    (same : ∀ bits, p.truth bits = q.truth bits) : Agree (p.expr parts) (q.expr parts) := by
  obtain ⟨_, -, -, small⟩ := denotes_expr denote p
  refine ⟨_, small, eval_expr denote compoundP, ?_⟩
  rw [integer_congr same]
  exact eval_expr denote compoundQ

/-- An operation with the truth table of a part gives that part back. -/
theorem Formula.restores (denote : ∀ i, Denotes (parts i) (integers i)) {p : Formula ι} {i : ι}
    (compound : p.IsOperation) (same : ∀ bits, p.truth bits = bits i) :
    Restores (parts i) (p.expr parts) := by
  obtain ⟨x, evaluated, integer, small⟩ := denote i
  have value : p.integer integers = integers i := integer_congr (q := .part i) same integers
  refine ⟨x, ofInt (integers i), integers i, evaluated, ?_, Binary64.ofInt_beq integer, integer,
    small.toInteger?_ofInt, fun signed => (Binary64.eq_ofInt integer signed).symm⟩
  rw [← value]
  exact eval_expr denote compound

end Laws

open Calculator.Expr (binary call)

/-- Laws of Boolean algebra for three expressions, with any offsets of the operations. -/
structure BooleanLaws (e f g : Expr) : Prop where
  and_assoc : ∀ i j k l, Agree (binary .bitAnd (binary .bitAnd e f i) g j)
    (binary .bitAnd e (binary .bitAnd f g k) l)
  or_assoc : ∀ i j k l, Agree (binary .bitOr (binary .bitOr e f i) g j)
    (binary .bitOr e (binary .bitOr f g k) l)
  and_comm : ∀ i j, Agree (binary .bitAnd e f i) (binary .bitAnd f e j)
  or_comm : ∀ i j, Agree (binary .bitOr e f i) (binary .bitOr f e j)
  and_or : ∀ i j k l m, Agree (binary .bitAnd e (binary .bitOr f g i) j)
    (binary .bitOr (binary .bitAnd e f k) (binary .bitAnd e g l) m)
  or_and : ∀ i j k l m, Agree (binary .bitOr e (binary .bitAnd f g i) j)
    (binary .bitAnd (binary .bitOr e f k) (binary .bitOr e g l) m)
  not_and : ∀ i j k l m, Agree (call "bnot" [binary .bitAnd e f i] j)
    (binary .bitOr (call "bnot" [e] k) (call "bnot" [f] l) m)
  xor_xor : ∀ i j, Restores e (binary .bitXor (binary .bitXor e f i) f j)
  not_not : ∀ i j, Restores e (call "bnot" [call "bnot" [e] i] j)

/-- Expressions of small integers obey the laws. -/
theorem booleanLaws {e f g : Expr} {l m n : Int} (denoteE : Denotes e l) (denoteF : Denotes f m)
    (denoteG : Denotes g n) : BooleanLaws e f g := by
  have denote : ∀ i : Fin 3, Denotes (![e, f, g] i) (![l, m, n] i) := by
    intro i
    fin_cases i
    · exact denoteE
    · exact denoteF
    · exact denoteG
  let a : Formula (Fin 3) := .part 0
  let b : Formula (Fin 3) := .part 1
  let c : Formula (Fin 3) := .part 2
  constructor
  case and_assoc =>
    intro i j k l
    exact Formula.agree denote (p := .operation .and (.operation .and a b i) c j)
      (q := .operation .and a (.operation .and b c k) l) trivial trivial
      fun bits => Bool.and_assoc _ _ _
  case or_assoc =>
    intro i j k l
    exact Formula.agree denote (p := .operation .or (.operation .or a b i) c j)
      (q := .operation .or a (.operation .or b c k) l) trivial trivial
      fun bits => Bool.or_assoc _ _ _
  case and_comm =>
    intro i j
    exact Formula.agree denote (p := .operation .and a b i) (q := .operation .and b a j)
      trivial trivial fun bits => Bool.and_comm _ _
  case or_comm =>
    intro i j
    exact Formula.agree denote (p := .operation .or a b i) (q := .operation .or b a j)
      trivial trivial fun bits => Bool.or_comm _ _
  case and_or =>
    intro i j k l m
    exact Formula.agree denote (p := .operation .and a (.operation .or b c i) j)
      (q := .operation .or (.operation .and a b k) (.operation .and a c l) m) trivial trivial
      fun bits => Bool.and_or_distrib_left _ _ _
  case or_and =>
    intro i j k l m
    exact Formula.agree denote (p := .operation .or a (.operation .and b c i) j)
      (q := .operation .and (.operation .or a b k) (.operation .or a c l) m) trivial trivial
      fun bits => Bool.or_and_distrib_left _ _ _
  case not_and =>
    intro i j k l m
    exact Formula.agree denote (p := .complement (.operation .and a b i) j)
      (q := .operation .or (.complement a k) (.complement b l) m) trivial trivial
      fun bits => Bool.not_and _ _
  case xor_xor =>
    intro i j
    refine Formula.restores denote (p := .operation .xor (.operation .xor a b i) b j) (i := 0)
      trivial fun bits => ?_
    change Bool.xor (Bool.xor (bits 0) (bits 1)) (bits 1) = bits 0
    rw [Bool.xor_assoc, Bool.xor_self, Bool.xor_false]
  case not_not =>
    intro i j
    exact Formula.restores denote (p := .complement (.complement a i) j) (i := 0) trivial
      fun bits => Bool.not_not _

/-- For small integers, the operators and the complement return their result in two's complement,
which is small again; a formula of them evaluates to its integer, which depends on its truth table
only; and the laws of Boolean algebra hold for expressions of small integers. -/
theorem boolean_algebra :
    (∀ (op : BitOp) (x y : Float) (m n : Int), toInteger? x = some m → toInteger? y = some n →
      Small m → Small n →
        op.operator.apply (.number x) (.number y) = .ok (.number (ofInt (op.onIntegers m n))) ∧
          toInteger? (ofInt (op.onIntegers m n)) = some (op.onIntegers m n) ∧
          Small (op.onIntegers m n)) ∧
    (∀ (x : Float) (n : Int), toInteger? x = some n → Small n →
      Builtin.complement.apply [.number x] = .ok (.number (ofInt n.lnot)) ∧
        toInteger? (ofInt n.lnot) = some n.lnot ∧ Small n.lnot) ∧
    (∀ (ι : Type) (parts : ι → Expr) (integers : ι → Int),
      (∀ i, Denotes (parts i) (integers i)) → ∀ p q : Formula ι,
        Denotes (p.expr parts) (p.integer integers) ∧
          ((∀ bits, p.truth bits = q.truth bits) → p.integer integers = q.integer integers)) ∧
    ∀ (e f g : Expr) (l m n : Int), Denotes e l → Denotes f m → Denotes g n →
      BooleanLaws e f g := by
  refine ⟨?_, ?_, ?_, ?_⟩
  · intro op x y m n left right smallM smallN
    have small := smallM.onIntegers smallN op
    exact ⟨op.apply_small left right smallM smallN, small.toInteger?_ofInt, small⟩
  · intro x n integer small
    exact ⟨complement_small integer small, small.lnot.toInteger?_ofInt, small.lnot⟩
  · intro ι parts integers denote p q
    exact ⟨Formula.denotes_expr denote p, fun same => Formula.integer_congr same integers⟩
  · intro e f g l m n denoteE denoteF denoteG
    exact booleanLaws denoteE denoteF denoteG

/-- The least small integer and 5 have the disjunction `-2 ^ 53 + 5`, its complement is the greatest
one, and the laws hold for the negative zero, -3 and the complement of 7. -/
theorem boolean_algebra_least :
    BinaryOperator.bitOr.apply (.number (ofInt (-2 ^ 53))) (.number 5) =
      .ok (.number (ofInt (-2 ^ 53 + 5))) ∧
    Builtin.complement.apply [.number (ofInt (-2 ^ 53))] = .ok (.number (ofInt (2 ^ 53 - 1))) ∧
    Denotes (call "bnot" [binary .bitXor (.number 5 0) (.number 3 0) 1] 2) (-7) ∧
    BooleanLaws (.number (-0.0) 0) (.number (ofInt (-3)) 1) (call "bnot" [.number 7 2] 3) := by
  obtain ⟨operators, complement, formulas, laws⟩ := boolean_algebra
  refine ⟨?_, ?_, ?_, ?_⟩
  · have value : BitOp.or.onIntegers (-2 ^ 53) 5 = -2 ^ 53 + 5 := by decide +kernel
    have computed := (operators .or (ofInt (-2 ^ 53)) 5 (-2 ^ 53) 5 (by decide +kernel)
      (by decide +kernel) ⟨by decide, by decide⟩ ⟨by decide, by decide⟩).1
    rwa [value] at computed
  · have value : (-2 ^ 53 : Int).lnot = 2 ^ 53 - 1 := by decide
    have computed := (complement (ofInt (-2 ^ 53)) (-2 ^ 53) (by decide +kernel)
      ⟨by decide, by decide⟩).1
    rwa [value] at computed
  · have numbers : ∀ first : Bool,
        Denotes (.number (if first then 5 else 3) 0) (if first then 5 else 3) := by
      intro first
      cases first with
      | true => exact ⟨_, rfl, by decide +kernel, ⟨by decide, by decide⟩⟩
      | false => exact ⟨_, rfl, by decide +kernel, ⟨by decide, by decide⟩⟩
    let p : Formula Bool := .complement (.operation .xor (.part true) (.part false) 1) 2
    exact (formulas Bool _ _ numbers p p).1
  · exact laws _ _ _ 0 (-3) (-8) ⟨_, rfl, by decide +kernel, ⟨by decide, by decide⟩⟩
      ⟨_, rfl, by decide +kernel, ⟨by decide, by decide⟩⟩
      ⟨ofInt (-8), by decide +kernel, by decide +kernel, ⟨by decide, by decide⟩⟩

end Calculator
