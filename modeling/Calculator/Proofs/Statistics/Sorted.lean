import Calculator.Proofs.Binary64.Order
import Calculator.Statistics

/-!
# The sorted sample

Sorting compares numbers by their place in the order and puts what is no number
last. Both are one comparison of integers, that of the ranks (`mayPrecede_iff`), so
the sorted sample has increasing ranks (`sorted_pairwise`).

A list of integers that is sorted is determined by its elements. So samples with
the same elements have the same ranks when sorted, and numbers of one rank are
alike: the sorted samples agree place by place, up to the sign of a zero
(`sorted_alike`).
-/

set_option autoImplicit false

namespace Calculator.Statistics

open Binary64

/-! ## Ranks -/

/-- The place of a number in the order, and behind all of them what is no number. -/
def rank (x : Float) : Int := if isNaN x then infinityPattern + 1 else place x

theorem rank_of_number {x : Float} (number : isNaN x = false) : rank x = place x :=
  if_neg (Bool.eq_false_iff.1 number)

theorem rank_of_isNaN {x : Float} (missing : isNaN x = true) : rank x = infinityPattern + 1 :=
  if_pos missing

theorem place_le {x : Float} (number : isNaN x = false) : place x ≤ infinityPattern := by
  have bound : ¬ infinityPattern < pattern x := of_decide_eq_false number
  have size := natAbs_place x
  omega

theorem rank_le (x : Float) : rank x ≤ infinityPattern + 1 := by
  cases number : isNaN x with
  | true => exact Int.le_of_eq (rank_of_isNaN number)
  | false =>
      rw [rank_of_number number]
      have bound := place_le number
      omega

/-- Sorting goes by rank. -/
theorem mayPrecede_iff {x y : Float} : mayPrecede x y = true ↔ rank x ≤ rank y := by
  rw [mayPrecede, Bool.or_eq_true, decide_eq_true_iff, le_iff]
  cases numberY : isNaN y with
  | true =>
      rw [rank_of_isNaN numberY]
      exact iff_of_true (.inr rfl) (rank_le x)
  | false =>
      rw [rank_of_number numberY]
      have bound := place_le numberY
      cases numberX : isNaN x with
      | true =>
          rw [rank_of_isNaN numberX]
          simp only [Bool.true_eq_false, Bool.false_eq_true, false_and, or_false, false_iff]
          omega
      | false =>
          rw [rank_of_number numberX]
          simp

/-- Numbers of one rank are alike. -/
theorem rank_eq_iff {x y : Float} : rank x = rank y ↔ Alike x y := by
  constructor
  · intro same
    cases numberX : isNaN x <;> cases numberY : isNaN y
    case true.true =>
      exact .inl (eq_of_parts ((parts_of_isNaN numberX).trans (parts_of_isNaN numberY).symm))
    case false.false =>
      rw [rank_of_number numberX, rank_of_number numberY] at same
      exact .inr (beq_iff.2 ⟨⟨numberX, numberY⟩, same⟩)
    case true.false =>
      rw [rank_of_isNaN numberX, rank_of_number numberY] at same
      have bound := place_le numberY
      omega
    case false.true =>
      rw [rank_of_number numberX, rank_of_isNaN numberY] at same
      have bound := place_le numberX
      omega
  · intro alike
    rw [rank, rank, alike.isNaN_eq, alike.place_eq]

/-- Numbers are below each other as their ranks are. -/
theorem lt_iff_rank {x y : Float} (numberX : isNaN x = false) (numberY : isNaN y = false) :
    x < y ↔ rank x < rank y := by
  rw [lt_iff, rank_of_number numberX, rank_of_number numberY]
  exact and_iff_right ⟨numberX, numberY⟩

/-! ## Sorting -/

theorem sorted_perm (data : List Float) : (sorted data).Perm data :=
  List.mergeSort_perm data mayPrecede

theorem sorted_pairwise (data : List Float) :
    (sorted data).Pairwise fun x y => rank x ≤ rank y := by
  have ordered : (sorted data).Pairwise fun x y => mayPrecede x y = true := by
    refine List.pairwise_mergeSort ?_ ?_ data
    · intro x y z first second
      exact mayPrecede_iff.2 (Int.le_trans (mayPrecede_iff.1 first) (mayPrecede_iff.1 second))
    · intro x y
      rw [Bool.or_eq_true, mayPrecede_iff, mayPrecede_iff]
      exact Int.le_total _ _
  exact ordered.imp mayPrecede_iff.1

/-- Samples with the same elements are alike when sorted. -/
theorem sorted_alike {data other : List Float} (same : data.Perm other) :
    List.Forall₂ Alike (sorted data) (sorted other) := by
  have permuted : (sorted data).Perm (sorted other) :=
    (sorted_perm data).trans (same.trans (sorted_perm other).symm)
  have increasing (sample : List Float) : ((sorted sample).map rank).Pairwise (· ≤ ·) :=
    List.pairwise_map.2 (sorted_pairwise sample)
  have ranks : (sorted data).map rank = (sorted other).map rank :=
    (permuted.map rank).eq_of_pairwise (fun _ _ _ _ => Int.le_antisymm) (increasing data)
      (increasing other)
  have placewise : List.Forall₂ (fun x y => rank x = rank y) (sorted data) (sorted other) := by
    rw [← List.forall₂_map_right_iff, ← List.forall₂_map_left_iff, ranks, List.forall₂_eq_eq_eq]
  exact placewise.imp fun _ _ => rank_eq_iff.1

end Calculator.Statistics
