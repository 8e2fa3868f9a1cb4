import Calculator.Builtin.Table
import Mathlib

/-!
# How the arguments of pairwise functions are grouped

The functions of two vectors and of two sets find their operands in one of two ways.
Two vectors are the operands as they are; the numbers in any other arguments are cut
in half (`Argument.splitPair`). Two vectors of equal size are the halves of their
numbers, so both ways agree on them, unless the vectors are empty and there is
nothing to cut.

**Grouping.** Arguments are `Regular` if they are neither two vectors of different
sizes nor two empty ones. The operands in regular arguments are the halves of their
numbers (`splitPair_of_regular`), however these are grouped into numbers, vectors
and matrices.

**Errors.** Halves have the same size, so only two vectors can be of different
sizes, and only what is to be cut can be odd or too short (`vectorPair_cases`). Hence
no regular grouping has the outcome of an irregular one
(`vectorPair_eq_iff_regular`). The functions of two sets accept vectors of different
sizes, so of these the converse is not true.
-/

set_option autoImplicit false

namespace Calculator

namespace Argument

variable {args others : List Value}

/-- The arguments are neither two vectors of different sizes nor two empty vectors. -/
structure Regular (args : List Value) : Prop where
  even : ∀ a b, args = [.vector a, .vector b] → a.length = b.length
  filled : args ≠ [.vector [], .vector []]

/-- Numbers that cannot be cut into two halves with an element each. -/
def Unpaired (data : List Float) : Prop := data.length < 2 ∨ data.length % 2 ≠ 0

instance (data : List Float) : Decidable (Unpaired data) := inferInstanceAs (Decidable (_ ∨ _))

/-- The two halves of some numbers as the operands of a function. -/
def cut (function : String) (data : List Float) : Except RuntimeError (List Float × List Float) :=
  if Unpaired data then .error (.invalidArgument (.unpaired function data.length))
  else .ok (halves data)

/-! ## Halves -/

theorem flatten_vectors (a b : List Float) : flatten [.vector a, .vector b] = a ++ b := by
  simp [flatten, Value.elements]

theorem halves_append {a b : List Float} (same : a.length = b.length) :
    halves (a ++ b) = (a, b) := by
  have half : (a ++ b).length / 2 = a.length := by
    rw [List.length_append]
    omega
  rw [halves, half, List.splitAt_eq, List.take_left, List.drop_left]

theorem length_halves {data : List Float} (paired : ¬ Unpaired data) :
    (halves data).1.length = (halves data).2.length := by
  rw [Unpaired] at paired
  rw [halves, List.splitAt_eq, List.length_take, List.length_drop]
  omega

/-- The numbers in arguments that are not two vectors are cut in half. -/
theorem splitPair_of_not_vectors (function : String)
    (other : ∀ a b, args ≠ [.vector a, .vector b]) :
    splitPair function args = cut function (flatten args) := by
  rw [splitPair.eq_def]
  split
  · exact absurd rfl (other _ _)
  · rfl

/-- The numbers in regular arguments are cut in half. -/
theorem splitPair_of_regular (function : String) (regular : Regular args) :
    splitPair function args = cut function (flatten args) := by
  by_cases other : ∀ a b, args ≠ [.vector a, .vector b]
  · exact splitPair_of_not_vectors function other
  · simp only [not_forall, not_not] at other
    obtain ⟨a, b, rfl⟩ := other
    have same := regular.even a b rfl
    have positive : 0 < a.length := by
      refine Nat.pos_of_ne_zero fun empty => regular.filled ?_
      rw [List.eq_nil_of_length_eq_zero empty,
        List.eq_nil_of_length_eq_zero (same.symm.trans empty)]
    have paired : ¬ Unpaired (a ++ b) := by
      rw [Unpaired, List.length_append]
      omega
    rw [flatten_vectors, cut, if_neg paired, halves_append same]
    rfl

end Argument

open Argument (Regular Unpaired flatten)

/-! ## Operands -/

namespace VectorOp

variable {a b : List Float}

theorem exists_apply (op : VectorOp) (same : a.length = b.length) :
    ∃ value, op.apply a b = .ok value := by
  cases op <;>
    simp [apply, Coordinates.add, Coordinates.sub, Coordinates.dot, Coordinates.zip, Except.map,
      same]

theorem apply_of_length_ne (op : VectorOp) (apart : a.length ≠ b.length) :
    op.apply a b = .error (.dimensionMismatch (.vectorSizes op.name a.length b.length)) := by
  cases op <;>
    simp [apply, name, Coordinates.add, Coordinates.sub, Coordinates.dot, Coordinates.zip,
      Except.map, apart]

end VectorOp

namespace Handler

variable {op : VectorOp} {args others : List Value}

/-- The outcome of an operation on two vectors, with the arguments for which it is the outcome. -/
theorem vectorPair_cases (op : VectorOp) (args : List Value) :
    (∃ a b, args = [.vector a, .vector b] ∧ a.length ≠ b.length ∧
      vectorPair op args =
        .error (.dimensionMismatch (.vectorSizes op.name a.length b.length))) ∨
    ((∀ a b, args ≠ [.vector a, .vector b]) ∧ Unpaired (flatten args) ∧
      vectorPair op args =
        .error (.invalidArgument (.unpaired op.name (flatten args).length))) ∨
    ((∀ a b, args = [.vector a, .vector b] → a.length = b.length) ∧
      ((∀ a b, args ≠ [.vector a, .vector b]) → ¬ Unpaired (flatten args)) ∧
      ∃ value, vectorPair op args = .ok value) := by
  by_cases other : ∀ a b, args ≠ [.vector a, .vector b]
  · refine .inr ?_
    rw [vectorPair, Argument.splitPair_of_not_vectors op.name other, Argument.cut]
    split
    case isTrue unpaired => exact .inl ⟨other, unpaired, rfl⟩
    case isFalse paired =>
      refine .inr ⟨fun a b isVectors => absurd isVectors (other a b), fun _ => paired, ?_⟩
      exact op.exists_apply (Argument.length_halves paired)
  · simp only [not_forall, not_not] at other
    obtain ⟨a, b, rfl⟩ := other
    by_cases same : a.length = b.length
    · refine .inr (.inr ⟨?_, fun other => absurd rfl (other a b), op.exists_apply same⟩)
      rintro _ _ ⟨⟩
      exact same
    · exact .inl ⟨a, b, rfl, same, op.apply_of_length_ne same⟩

theorem vectorPair_eq_dimensionMismatch_iff {cause : ShapeFault} :
    vectorPair op args = .error (.dimensionMismatch cause) ↔
      ∃ a b, args = [.vector a, .vector b] ∧ a.length ≠ b.length ∧
        cause = .vectorSizes op.name a.length b.length := by
  rcases vectorPair_cases op args with ⟨a, b, rfl, apart, outcome⟩ | ⟨other, -, outcome⟩ |
    ⟨even, -, value, outcome⟩
  · rw [outcome]
    constructor
    · rintro ⟨⟩
      exact ⟨a, b, rfl, apart, rfl⟩
    · rintro ⟨_, _, ⟨⟩, -, rfl⟩
      rfl
  · rw [outcome]
    exact ⟨nofun, fun ⟨a, b, vectors, _⟩ => absurd vectors (other a b)⟩
  · rw [outcome]
    exact ⟨nofun, fun ⟨a, b, vectors, apart, _⟩ => absurd (even a b vectors) apart⟩

theorem vectorPair_eq_invalidArgument_iff {cause : ArgumentFault} :
    vectorPair op args = .error (.invalidArgument cause) ↔
      (∀ a b, args ≠ [.vector a, .vector b]) ∧ Unpaired (flatten args) ∧
        cause = .unpaired op.name (flatten args).length := by
  rcases vectorPair_cases op args with ⟨a, b, rfl, -, outcome⟩ | ⟨other, unpaired, outcome⟩ |
    ⟨-, paired, value, outcome⟩
  · rw [outcome]
    exact ⟨nofun, fun ⟨other, _⟩ => absurd rfl (other a b)⟩
  · rw [outcome]
    constructor
    · rintro ⟨⟩
      exact ⟨other, unpaired, rfl⟩
    · rintro ⟨-, -, rfl⟩
      rfl
  · rw [outcome]
    exact ⟨nofun, fun ⟨other, unpaired, _⟩ => absurd unpaired (paired other)⟩

/-! ## Grouping -/

theorem vectorPair_regroup (op : VectorOp) (left : Regular args) (right : Regular others)
    (same : flatten args = flatten others) : vectorPair op args = vectorPair op others := by
  rw [vectorPair, vectorPair, Argument.splitPair_of_regular op.name left,
    Argument.splitPair_of_regular op.name right, same]

theorem setPair_regroup (op : SetOp) (left : Regular args) (right : Regular others)
    (same : flatten args = flatten others) : setPair op args = setPair op others := by
  rw [setPair, setPair, Argument.splitPair_of_regular op.name left,
    Argument.splitPair_of_regular op.name right, same]

/-- The outcome of an operation on two vectors for a regular grouping is that for another one
exactly if the other one is regular too. -/
theorem vectorPair_eq_iff_regular (op : VectorOp) (right : Regular others)
    (same : flatten args = flatten others) :
    vectorPair op args = vectorPair op others ↔ Regular args := by
  refine ⟨fun agree => ⟨?_, ?_⟩, fun left => vectorPair_regroup op left right same⟩
  · rintro a b rfl
    by_contra apart
    have failed := agree.symm.trans (op.apply_of_length_ne apart)
    obtain ⟨c, d, vectors, different, -⟩ := vectorPair_eq_dimensionMismatch_iff.1 failed
    exact different (right.even c d vectors)
  · rintro rfl
    have other : ∀ a b, others ≠ [.vector a, .vector b] := by
      rintro a b rfl
      rw [Argument.flatten_vectors, Argument.flatten_vectors, List.nil_append] at same
      obtain ⟨rfl, rfl⟩ := List.append_eq_nil_iff.1 same.symm
      exact right.filled rfl
    have unpaired : Unpaired (flatten others) := by
      rw [Unpaired, ← same]
      exact .inl (by decide)
    have failed : vectorPair op others = .error (.invalidArgument _) :=
      vectorPair_eq_invalidArgument_iff.2 ⟨other, unpaired, rfl⟩
    have returned : ∃ value, vectorPair op [.vector [], .vector []] = .ok value :=
      op.exists_apply rfl
    rw [agree, failed] at returned
    obtain ⟨value, ⟨⟩⟩ := returned

end Handler

/-- Regular arguments with the same numbers have the same outcome for every function of two vectors
and for every function of two sets; of the functions of two vectors no other grouping has the
outcome of a regular one. A function of two vectors finds their sizes different exactly for two
vectors of different sizes, and its arguments invalid exactly if they are not two vectors and the
count of their numbers is odd or below two. -/
theorem pairwise_grouping (args others : List Value) :
    (Regular others → flatten args = flatten others →
      (∀ op, (Builtin.vectorPair op).apply args = (Builtin.vectorPair op).apply others ↔
        Regular args) ∧
      (Regular args → ∀ op,
        (Builtin.setPair op).apply args = (Builtin.setPair op).apply others)) ∧
    ∀ op,
      (∀ cause, (Builtin.vectorPair op).apply args = .error (.dimensionMismatch cause) ↔
        ∃ a b, args = [.vector a, .vector b] ∧ a.length ≠ b.length ∧
          cause = .vectorSizes op.name a.length b.length) ∧
      (∀ cause, (Builtin.vectorPair op).apply args = .error (.invalidArgument cause) ↔
        (∀ a b, args ≠ [.vector a, .vector b]) ∧
          ((flatten args).length < 2 ∨ (flatten args).length % 2 ≠ 0) ∧
          cause = .unpaired op.name (flatten args).length) := by
  refine ⟨fun right same => ⟨?_, ?_⟩, fun op => ⟨?_, ?_⟩⟩
  · exact fun op => Handler.vectorPair_eq_iff_regular op right same
  · exact fun left op => Handler.setPair_regroup op left right same
  · exact fun cause => Handler.vectorPair_eq_dimensionMismatch_iff
  · exact fun cause => Handler.vectorPair_eq_invalidArgument_iff

/-- A matrix of three numbers and a number after it are treated as two vectors of the same four
numbers. -/
theorem pairwise_grouping_matrix :
    Regular [.vector [1, 2], .vector [3, 4]] ∧
    flatten [.matrix ⟨1, 3, #[1, 2, 3], rfl⟩, .number 4] =
      flatten [.vector [1, 2], .vector [3, 4]] ∧
    Regular [.matrix ⟨1, 3, #[1, 2, 3], rfl⟩, .number 4] ∧
    (Builtin.vectorPair .dot).apply [.matrix ⟨1, 3, #[1, 2, 3], rfl⟩, .number 4] =
      .ok (.number 11) ∧
    (Builtin.setPair .union).apply [.matrix ⟨1, 3, #[1, 2, 3], rfl⟩, .number 4] =
      .ok (.vector [1, 2, 3, 4]) := by
  have vectors : Regular [.vector [1, 2], .vector [3, 4]] := by
    refine ⟨?_, nofun⟩
    rintro _ _ ⟨⟩
    exact Eq.refl 2
  have mixed : Regular [.matrix ⟨1, 3, #[1, 2, 3], rfl⟩, .number 4] := ⟨nofun, nofun⟩
  have same : flatten [.matrix ⟨1, 3, #[1, 2, 3], rfl⟩, .number 4] =
      flatten [.vector [1, 2], .vector [3, 4]] := by decide +kernel
  obtain ⟨vector, set⟩ := (pairwise_grouping _ _).1 vectors same
  exact ⟨vectors, same, mixed, ((vector .dot).2 mixed).trans (by decide +kernel),
    (set mixed .union).trans (by decide +kernel)⟩

end Calculator
