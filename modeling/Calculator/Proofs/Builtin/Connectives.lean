import Calculator.Builtin.Table
import Calculator.Proofs.Binary64.Vanishing
import Calculator.Proofs.Outcome

/-!
# Boolean algebra of the connectives

**Truth values.** A connective combines the first truth value with that of the rest
(`Connective.fold_cons`), by an operation that is associative and commutative. So the
order of the values does not matter (`Connective.fold_perm`), and neither does it how
they are grouped (`Connective.fold_append`).

**Numbers.** A number is true unless it is a zero of either sign (`isTrue_iff`). The
results are 1 and 0, which stand for themselves when they are arguments again
(`isTrue_toFloat`), so the laws of truth values are laws of the functions: de Morgan's
laws and the splitting of the arguments hold for the numbers in any arguments, of which
there must be two (`connective_laws`).
-/

set_option autoImplicit false

namespace Calculator

open Argument (flatten)
open Binary64 (pattern)

/-! ## Truth values -/

namespace Connective

/-- The operation by which a connective takes in a truth value. -/
def combine : Connective → Bool → Bool → Bool
  | conjunction => and
  | disjunction => or
  | parity => xor

theorem combine_assoc (c : Connective) (p q r : Bool) :
    c.combine (c.combine p q) r = c.combine p (c.combine q r) := by
  cases c with
  | conjunction => exact Bool.and_assoc p q r
  | disjunction => exact Bool.or_assoc p q r
  | parity => exact Bool.xor_assoc p q r

theorem combine_left_comm (c : Connective) (p q r : Bool) :
    c.combine p (c.combine q r) = c.combine q (c.combine p r) := by
  cases c with
  | conjunction => exact Bool.and_left_comm p q r
  | disjunction => exact Bool.or_left_comm p q r
  | parity => exact Bool.xor_left_comm p q r

theorem combine_nil (c : Connective) (p : Bool) : c.combine (c.fold []) p = p := by
  cases c with
  | conjunction => exact Bool.true_and p
  | disjunction => exact Bool.false_or p
  | parity => exact Bool.false_xor p

theorem fold_cons (c : Connective) (p : Bool) (bits : List Bool) :
    c.fold (p :: bits) = c.combine p (c.fold bits) := by
  cases c with
  | conjunction => rfl
  | disjunction => rfl
  | parity =>
      change bits.foldl xor (xor false p) = xor p (bits.foldl xor false)
      rw [Bool.xor_comm, List.foldl_assoc]

theorem fold_append (c : Connective) (first second : List Bool) :
    c.fold (first ++ second) = c.combine (c.fold first) (c.fold second) := by
  induction first with
  | nil => exact (c.combine_nil _).symm
  | cons p rest ih => rw [List.cons_append, fold_cons, fold_cons, ih, combine_assoc]

theorem fold_pair (c : Connective) (p q : Bool) : c.fold [p, q] = c.combine p q := by
  cases c with
  | conjunction => exact congrArg (and p) (Bool.and_true q)
  | disjunction => exact congrArg (or p) (Bool.or_false q)
  | parity => exact congrArg (xor · q) (Bool.false_xor p)

theorem fold_perm (c : Connective) {bits others : List Bool} (perm : bits.Perm others) :
    c.fold bits = c.fold others := by
  induction perm with
  | nil => rfl
  | cons p _ ih => rw [fold_cons, fold_cons, ih]
  | swap p q rest => rw [fold_cons, fold_cons, fold_cons, fold_cons, combine_left_comm]
  | trans _ _ ihFirst ihSecond => rw [ihFirst, ihSecond]

/-- De Morgan's law for a conjunction. -/
theorem not_conjunction (bits : List Bool) :
    (!conjunction.fold bits) = disjunction.fold (bits.map not) :=
  calc (!bits.all id)
    _ = bits.any fun p => !p := List.not_all_eq_any_not
    _ = (bits.map not).any id := (List.any_map (f := not) (p := id)).symm

/-- De Morgan's law for a disjunction. -/
theorem not_disjunction (bits : List Bool) :
    (!disjunction.fold bits) = conjunction.fold (bits.map not) :=
  calc (!bits.any id)
    _ = bits.all fun p => !p := List.not_any_eq_all_not
    _ = (bits.map not).all id := (List.all_map (f := not) (p := id)).symm

/-- The parity is odd exactly if an odd number of values is true. -/
theorem fold_parity_iff (bits : List Bool) :
    parity.fold bits = true ↔ Odd (bits.countP id) := by
  induction bits with
  | nil => decide
  | cons p rest ih =>
      rw [fold_cons, List.countP_cons]
      cases p with
      | false => simpa [combine] using ih
      | true => simpa [combine, Nat.odd_add_one] using not_congr ih

end Connective

/-! ## Numbers -/

/-- Truth as a number. -/
def truthNumber (b : Bool) : Float := if b then 1.0 else 0.0

/-- A number is true unless it is a zero. -/
theorem isTrue_iff {x : Float} : isTrue x = true ↔ pattern x ≠ 0 := by
  rw [isTrue, bne, Bool.not_eq_true', ← Bool.not_eq_true, Binary64.beq_zero_iff]

theorem isTrue_truthNumber (b : Bool) : isTrue (truthNumber b) = b := by
  cases b with
  | false => decide +kernel
  | true => decide +kernel

theorem ofBool_eq_one_iff {b : Bool} : Value.ofBool b = .number 1.0 ↔ b = true := by
  revert b
  decide +kernel

/-- The truth values of the numbers in some arguments. -/
def truths (args : List Value) : List Bool := (flatten args).map isTrue

theorem length_truths (args : List Value) : (truths args).length = (flatten args).length :=
  List.length_map isTrue

/-- Truth values that are arguments keep their truth. -/
theorem truths_ofBool (bits : List Bool) : truths (bits.map Value.ofBool) = bits := by
  induction bits with
  | nil => rfl
  | cons b rest ih =>
      change isTrue (truthNumber b) :: truths (rest.map Value.ofBool) = b :: rest
      rw [isTrue_truthNumber, ih]

/-! ## Functions -/

namespace Handler

theorem connect_of_enough (c : Connective) {args : List Value} (enough : 2 ≤ (truths args).length) :
    connect c args = .ok (.ofBool (c.fold (truths args))) := by
  rw [length_truths] at enough
  rw [connect, truthValues, if_neg (Nat.not_lt.2 enough)]
  rfl

theorem connect_of_few (c : Connective) {args : List Value} (few : (truths args).length < 2) :
    connect c args = .error (.invalidArgument (.tooFewValues c.name (flatten args).length)) := by
  rw [length_truths] at few
  rw [connect, truthValues, if_pos few]
  rfl

/-- Too few numbers are the only invalid arguments. -/
theorem connect_eq_invalidArgument_iff {c : Connective} {args : List Value}
    {cause : ArgumentFault} : connect c args = .error (.invalidArgument cause) ↔
      (flatten args).length < 2 ∧ cause = .tooFewValues c.name (flatten args).length := by
  rw [← length_truths]
  by_cases few : (truths args).length < 2
  · rw [connect_of_few c few, length_truths]
    rw [length_truths] at few
    simp [few, eq_comm]
  · rw [connect_of_enough c (Nat.not_lt.1 few)]
    simp [few]

theorem connect_eq_one_iff (c : Connective) {args : List Value}
    (enough : 2 ≤ (truths args).length) :
    connect c args = .ok (.number 1.0) ↔ c.fold (truths args) = true := by
  rw [connect_of_enough c enough, Except.ok.injEq, ofBool_eq_one_iff]

theorem logicalNot_number (x : Float) :
    logicalNot [.number x] = .ok (.ofBool (!isTrue x)) := by
  rw [isTrue, bne, Bool.not_not]
  rfl

theorem logicalNot_ofBool (b : Bool) : logicalNot [.ofBool b] = .ok (.ofBool (!b)) := by
  have truth := isTrue_truthNumber b
  exact (logicalNot_number (truthNumber b)).trans (by rw [truth])

/-- The negations of the numbers in some arguments. -/
theorem mapM_logicalNot (args : List Value) :
    (flatten args).mapM (fun x => logicalNot [.number x]) =
      .ok (((truths args).map not).map Value.ofBool) := by
  simp only [logicalNot_number, truths, List.map_map]
  exact List.mapM_pure

/-- A connective with a law of de Morgan has the negated result where its dual has that of the
negated numbers. -/
theorem logicalNot_connect {c dual : Connective}
    (law : ∀ bits, (!c.fold bits) = dual.fold (bits.map not)) {args : List Value}
    (enough : 2 ≤ (truths args).length) :
    ∃ negated v w, (flatten args).mapM (fun x => logicalNot [.number x]) = .ok negated ∧
      connect c args = .ok v ∧ logicalNot [v] = .ok w ∧ connect dual negated = .ok w := by
  refine ⟨_, _, _, mapM_logicalNot args, connect_of_enough c enough, logicalNot_ofBool _, ?_⟩
  have kept := truths_ofBool ((truths args).map not)
  have several : 2 ≤ (truths (((truths args).map not).map Value.ofBool)).length := by
    rw [kept, List.length_map]
    exact enough
  rw [connect_of_enough dual several, kept, law]

/-- The connective of the results of two parts is that of the whole, in whatever way it is divided. -/
theorem connect_split (c : Connective) {args first second : List Value}
    (parts : (flatten args).Perm (flatten first ++ flatten second))
    (enoughFirst : 2 ≤ (truths first).length) (enoughSecond : 2 ≤ (truths second).length) :
    ∃ v w, connect c first = .ok v ∧ connect c second = .ok w ∧
      connect c [v, w] = connect c args := by
  refine ⟨_, _, connect_of_enough c enoughFirst, connect_of_enough c enoughSecond, ?_⟩
  have whole : (truths args).Perm (truths first ++ truths second) := by
    have mapped := parts.map isTrue
    rwa [List.map_append] at mapped
  have enough : 2 ≤ (truths args).length := by
    rw [whole.length_eq, List.length_append]
    omega
  have pair : truths [.ofBool (c.fold (truths first)), .ofBool (c.fold (truths second))] =
      [c.fold (truths first), c.fold (truths second)] := truths_ofBool [_, _]
  rw [connect_of_enough c (by rw [pair]; exact le_rfl), connect_of_enough c enough, pair,
    c.fold_perm whole, Connective.fold_pair, Connective.fold_append]

/-- The order and the grouping of the numbers do not matter. -/
theorem connect_perm (c : Connective) {args others : List Value}
    (perm : (flatten args).Perm (flatten others)) (enough : 2 ≤ (truths args).length) :
    connect c others = connect c args := by
  have same : (truths args).Perm (truths others) := perm.map isTrue
  rw [connect_of_enough c enough, connect_of_enough c (same.length_eq ▸ enough),
    c.fold_perm same]

end Handler

/-! ## The laws -/

/-- The connectives refuse fewer than two numbers. Of two and more, the conjunction is 1 if none is
a zero, the disjunction if some is not, the parity if an odd number is not, and otherwise they are
0. Neither the order of the numbers matters nor how they are grouped into arguments. Not the
conjunction is the disjunction of the negated numbers, not the disjunction is the conjunction of
them, and a connective of the numbers, divided into two parts in any way, is the connective of what
it is of the parts. -/
theorem connective_laws (args : List Value) :
    (∀ c cause, (Builtin.connective c).apply args = .error (.invalidArgument cause) ↔
      (flatten args).length < 2 ∧ cause = .tooFewValues c.name (flatten args).length) ∧
    (2 ≤ (flatten args).length →
      (∀ c, (Builtin.connective c).apply args = .ok (.number 0.0) ∨
        (Builtin.connective c).apply args = .ok (.number 1.0)) ∧
      ((Builtin.connective .conjunction).apply args = .ok (.number 1.0) ↔
        ∀ x ∈ flatten args, pattern x ≠ 0) ∧
      ((Builtin.connective .disjunction).apply args = .ok (.number 1.0) ↔
        ∃ x ∈ flatten args, pattern x ≠ 0) ∧
      ((Builtin.connective .parity).apply args = .ok (.number 1.0) ↔
        Odd ((flatten args).countP fun x => pattern x ≠ 0)) ∧
      (∀ c others, (flatten args).Perm (flatten others) →
        (Builtin.connective c).apply others = (Builtin.connective c).apply args) ∧
      (∃ negated v w, (flatten args).mapM (fun x => Builtin.logicalNot.apply [.number x]) =
          .ok negated ∧
        (Builtin.connective .conjunction).apply args = .ok v ∧
        Builtin.logicalNot.apply [v] = .ok w ∧
        (Builtin.connective .disjunction).apply negated = .ok w) ∧
      (∃ negated v w, (flatten args).mapM (fun x => Builtin.logicalNot.apply [.number x]) =
          .ok negated ∧
        (Builtin.connective .disjunction).apply args = .ok v ∧
        Builtin.logicalNot.apply [v] = .ok w ∧
        (Builtin.connective .conjunction).apply negated = .ok w) ∧
      ∀ c first second, (flatten args).Perm (flatten first ++ flatten second) →
        2 ≤ (flatten first).length → 2 ≤ (flatten second).length →
          ∃ v w, (Builtin.connective c).apply first = .ok v ∧
            (Builtin.connective c).apply second = .ok w ∧
            (Builtin.connective c).apply [v, w] = (Builtin.connective c).apply args) := by
  refine ⟨fun c cause => Handler.connect_eq_invalidArgument_iff, fun enough => ?_⟩
  rw [← length_truths] at enough
  refine ⟨fun c => ?_, ?_, ?_, ?_, fun c others perm => Handler.connect_perm c perm enough,
    Handler.logicalNot_connect Connective.not_conjunction enough,
    Handler.logicalNot_connect Connective.not_disjunction enough, ?_⟩
  · change Handler.connect c args = _ ∨ Handler.connect c args = _
    rw [Handler.connect_of_enough c enough]
    cases c.fold (truths args) with
    | false => exact .inl rfl
    | true => exact .inr rfl
  · refine (Handler.connect_eq_one_iff _ enough).trans ?_
    simp [Connective.fold, truths, isTrue_iff]
  · refine (Handler.connect_eq_one_iff _ enough).trans ?_
    simp [Connective.fold, truths, isTrue_iff]
  · refine (Handler.connect_eq_one_iff _ enough).trans ((Connective.fold_parity_iff _).trans ?_)
    have counted : (truths args).countP id = (flatten args).countP fun x => pattern x ≠ 0 := by
      rw [truths, List.countP_map]
      exact List.countP_congr fun x _ => by simp [isTrue_iff]
    rw [counted]
  · intro c first second parts enoughFirst enoughSecond
    rw [← length_truths] at enoughFirst enoughSecond
    exact Handler.connect_split c parts enoughFirst enoughSecond

/-- Of 2, what is no number, the negative zero and 3, three are true: the parity is 1, also in
another order and grouping, and the conjunction of that of 3 and 2 and that of the others is that of
all four. -/
theorem connective_laws_parts :
    ∃ args others first second : List Value,
      args = [.vector [2, Binary64.missing], .number (-0.0), .number 3] ∧
      others = [.number 3, .matrix ⟨1, 2, #[-0.0, 2], rfl⟩, .number Binary64.missing] ∧
      first = [.number 3, .number 2] ∧ second = [.vector [-0.0, Binary64.missing]] ∧
      (Builtin.connective .parity).apply others = .ok (.number 1.0) ∧
      (∃ negated v w, (Builtin.connective .conjunction).apply args = .ok v ∧
        Builtin.logicalNot.apply [v] = .ok w ∧
        (Builtin.connective .disjunction).apply negated = .ok w) ∧
      ∃ v w, (Builtin.connective .conjunction).apply first = .ok v ∧
        (Builtin.connective .conjunction).apply second = .ok w ∧
        (Builtin.connective .conjunction).apply [v, w] =
          (Builtin.connective .conjunction).apply args := by
  obtain ⟨-, laws⟩ := connective_laws [.vector [2, Binary64.missing], .number (-0.0), .number 3]
  obtain ⟨-, -, -, odd, moved, ⟨negated, v, w, -, whole, opposite, dual⟩, -, split⟩ :=
    laws (by decide)
  have three : (Builtin.connective .parity).apply
      [.vector [2, Binary64.missing], .number (-0.0), .number 3] = .ok (.number 1.0) :=
    odd.2 (by decide +kernel)
  refine ⟨_, _, _, _, rfl, rfl, rfl, rfl, (moved .parity _ ?_).trans three,
    ⟨negated, v, w, whole, opposite, dual⟩, split .conjunction _ _ ?_ (by decide) (by decide)⟩
  · decide +kernel
  · decide +kernel

end Calculator
