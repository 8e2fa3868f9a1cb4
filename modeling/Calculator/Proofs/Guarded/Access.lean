import Calculator.DenseMatrix.Basic
import Calculator.Proofs.Outcome
import Mathlib.Data.List.FinRange
import Mathlib.Data.List.OfFn

/-!
# Computations that look where they reach

A guarded computation reads its lists and matrices by plain natural numbers and
tests every one of them: an index against the size of the list, a position
against the shape of the matrix, a place to split at against the length, and a
number that is counted down against zero. A test that fails is a `Miss`, which
is apart from the errors that a computation may have (`Stop`).

The computations of the model cannot miss, because their positions are bounded
by their types. `permit` says so of one of them: as a guarded computation it has
the same value or the same error. To show that a computation never misses is to
show that its guarded form is the permitted one.
-/

set_option autoImplicit false

namespace Calculator

/-- What a guarded computation can find out of range. -/
inductive Miss where
  | position (error : PositionError)
  | index (index size : Nat)
  | split (place size : Nat)
  | predecessor
  | size (shape : Shape) (size : Nat)
deriving DecidableEq

/-- Why a guarded computation has no value. -/
inductive Stop where
  | miss (what : Miss)
  | failure (error : RuntimeError)
deriving DecidableEq

/-- A computation that tests what it reaches for. -/
abbrev Guarded (α : Type) := Except Stop α

namespace Guarded

variable {α β : Type}

/-! ## Computations that cannot miss -/

/-- A computation whose positions are in range by their types. -/
def permit (plain : Except RuntimeError α) : Guarded α := plain.mapError .failure

theorem permit_bind (first : Except RuntimeError α) (next : α → Except RuntimeError β) :
    permit (first >>= next) = permit first >>= fun result => permit (next result) := by
  cases first with
  | error error => rfl
  | ok result => rfl

theorem permit_ne_miss (plain : Except RuntimeError α) (what : Miss) :
    permit plain ≠ .error (.miss what) := by
  cases plain with
  | error error => nofun
  | ok result => nofun

/-! ## Lists -/

/-- The element at an index. -/
def element (xs : List α) (index : Nat) : Guarded α :=
  match xs[index]? with
  | some x => .ok x
  | none => .error (.miss (.index index xs.length))

/-- The elements before a place and those from there on. -/
def splitOff (xs : List α) (place : Nat) : Guarded (List α × List α) :=
  if place ≤ xs.length then .ok (xs.splitAt place) else .error (.miss (.split place xs.length))

/-- One less than a number. -/
def predecessor : Nat → Guarded Nat
  | 0 => .error (.miss .predecessor)
  | n + 1 => .ok n

theorem element_of_lt {xs : List α} {index : Nat} (inside : index < xs.length) :
    element xs index = .ok xs[index] := by
  rw [element, List.getElem?_eq_getElem inside]

theorem splitOff_of_le {xs : List α} {place : Nat} (inside : place ≤ xs.length) :
    splitOff xs place = .ok (xs.splitAt place) :=
  if_pos inside

theorem predecessor_of_pos {n : Nat} (positive : 0 < n) : predecessor n = .ok (n - 1) := by
  cases n with
  | zero => cases positive
  | succ n => rfl

/-! ## Loops -/

/-- A loop of which every round succeeds collects the results of the rounds. -/
theorem mapM_ofFn {n : Nat} {places : Fin n → α} {round : α → Guarded β} {results : Fin n → β}
    (succeeds : ∀ i, round (places i) = .ok (results i)) :
    (List.ofFn places).mapM round = .ok (List.ofFn results) := by
  induction n with
  | zero => rfl
  | succ n ih =>
      rw [List.ofFn_succ, List.ofFn_succ, List.mapM_cons, succeeds 0,
        ih fun i => succeeds i.succ]
      rfl

/-- A loop that counts up to a bound. -/
theorem mapM_range {n : Nat} {round : Nat → Guarded β} {results : Fin n → β}
    (succeeds : ∀ i : Fin n, round i = .ok (results i)) :
    (List.range n).mapM round = .ok (List.ofFn results) := by
  rw [← List.map_coe_finRange_eq_range, ← List.ofFn_eq_map]
  exact mapM_ofFn succeeds

end Guarded

end Calculator
