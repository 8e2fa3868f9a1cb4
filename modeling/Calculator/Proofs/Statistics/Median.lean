import Calculator.Proofs.Statistics.Sorted

/-!
# The median as an order statistic

An element has rank `k` in a sample if fewer than `k` elements are below it and at
least `k` are not above it (`HasRank`). Equal elements share ranks, so this names
the `k`-th element of every increasing arrangement without choosing one.

In the sorted sample the elements before a place are not above the element there
and those from it on are not below it, so the element at place `i` has rank
`i + 1` (`hasRank_sorted`). The median reads one such place, or two whose mean it
takes. Samples with the same elements are alike when sorted, and sums and halves
of alike numbers are alike, so the median does not depend on the order of the
sample beyond the sign of a zero. The mean of two infinities of different sign is
no number, in every order.
-/

set_option autoImplicit false

namespace Calculator.Statistics

open Binary64

variable {data : List Float}

/-- In increasing order, `x` can be the `k`-th element of the sample, counted from one. -/
structure HasRank (data : List Float) (k : Nat) (x : Float) : Prop where
  mem : x ∈ data
  below : data.countP (· < x) < k
  reached : k ≤ data.countP (· ≤ x)

/-! ## Places of the sorted sample -/

theorem number_of_mem_sorted (numbers : ∀ x ∈ data, isNaN x = false) {x : Float}
    (inside : x ∈ sorted data) : isNaN x = false :=
  numbers x ((sorted_perm data).mem_iff.1 inside)

/-- Of two places in the sorted sample the later one has the higher rank. -/
theorem rank_le_rank {i j : Nat} (order : i ≤ j) (inside : j < (sorted data).length) :
    rank (sorted data)[i] ≤ rank (sorted data)[j] := by
  rcases Nat.lt_or_eq_of_le order with less | rfl
  · exact List.pairwise_iff_getElem.1 (sorted_pairwise data) i j (by omega) inside less
  · exact Int.le_refl _

/-- What is counted in a sample stands before or after a place of the sorted sample. -/
theorem countP_eq_add (data : List Float) (p : Float → Bool) (i : Nat) :
    data.countP p = ((sorted data).take i).countP p + ((sorted data).drop i).countP p := by
  rw [← List.countP_append, List.take_append_drop, (sorted_perm data).countP_eq]

/-- At most `i` elements are below the one at place `i` of the sorted sample. -/
theorem countP_lt_sorted (numbers : ∀ x ∈ data, isNaN x = false) {i : Nat}
    (inside : i < (sorted data).length) : data.countP (· < (sorted data)[i]) ≤ i := by
  have element := number_of_mem_sorted numbers (List.getElem_mem inside)
  have later : ((sorted data).drop i).countP (· < (sorted data)[i]) = 0 := by
    refine List.countP_eq_zero.2 fun x member => ?_
    obtain ⟨j, bound, rfl⟩ := List.getElem_of_mem member
    rw [List.length_drop] at bound
    rw [List.getElem_drop]
    have number := number_of_mem_sorted numbers (List.getElem_mem (by omega : i + j < _))
    rw [decide_eq_true_iff, lt_iff_rank number element, Int.not_lt]
    exact rank_le_rank (Nat.le_add_right i j) (by omega)
  rw [countP_eq_add data _ i, later]
  exact List.countP_le_length.trans (List.length_take_le i _)

/-- More than `i` elements are not above the one at place `i` of the sorted sample. -/
theorem lt_countP_le_sorted (numbers : ∀ x ∈ data, isNaN x = false) {i : Nat}
    (inside : i < (sorted data).length) : i < data.countP (· ≤ (sorted data)[i]) := by
  have element := number_of_mem_sorted numbers (List.getElem_mem inside)
  have earlier : ((sorted data).take (i + 1)).countP (· ≤ (sorted data)[i]) = i + 1 := by
    rw [List.countP_eq_length.2, List.length_take, Nat.min_eq_left inside]
    intro x member
    obtain ⟨j, bound, rfl⟩ := List.getElem_of_mem member
    rw [List.length_take] at bound
    rw [List.getElem_take]
    have number := number_of_mem_sorted numbers (List.getElem_mem (by omega : j < _))
    have order := rank_le_rank (by omega : j ≤ i) inside
    rw [rank_of_number number, rank_of_number element] at order
    exact decide_eq_true (le_iff.2 ⟨⟨number, element⟩, order⟩)
  rw [countP_eq_add data _ (i + 1), earlier]
  omega

/-- The element at place `i` of the sorted sample has rank `i + 1`. -/
theorem hasRank_sorted (numbers : ∀ x ∈ data, isNaN x = false) {i : Nat}
    (inside : i < (sorted data).length) : HasRank data (i + 1) (sorted data)[i] where
  mem := (sorted_perm data).mem_iff.1 (List.getElem_mem inside)
  below := Nat.lt_succ_of_le (countP_lt_sorted numbers inside)
  reached := lt_countP_le_sorted numbers inside

/-- What is above an element of rank `k` leaves `k` elements out. -/
theorem HasRank.above (numbers : ∀ x ∈ data, isNaN x = false) {k : Nat} {x : Float}
    (rank : HasRank data k x) : data.countP (x < ·) + k ≤ data.length := by
  have others : data.countP (fun y => decide ¬ decide (x < y) = true) = data.countP (· ≤ x) := by
    refine List.countP_congr fun y inside => ?_
    rw [decide_eq_true_iff, decide_eq_true_iff, decide_eq_true_iff, lt_iff, le_iff]
    have numberX := numbers x rank.mem
    have numberY := numbers y inside
    simp only [numberX, numberY, true_and, and_self, Int.not_lt]
  have split := List.length_eq_countP_add_countP (fun y => decide (x < y)) (l := data)
  have reached := rank.reached
  omega

/-! ## The median -/

/-- The median of an odd number of samples is the one in the middle of the sorted sample. -/
theorem median_of_odd (odd : data.length % 2 = 1) :
    ∃ inside : data.length / 2 < (sorted data).length,
      median data = .ok (sorted data)[data.length / 2] := by
  have size := (sorted_perm data).length_eq
  refine ⟨by omega, ?_⟩
  rw [median, dif_neg (by omega), if_neg (by omega)]
  simp only [size]

/-- The median of an even number of samples is the mean of the two in the middle. -/
theorem median_of_even (nonempty : data ≠ []) (even : data.length % 2 = 0) :
    ∃ (lower : data.length / 2 - 1 < (sorted data).length)
      (upper : data.length / 2 < (sorted data).length),
      median data =
        .ok (((sorted data)[data.length / 2 - 1] + (sorted data)[data.length / 2]) / 2.0) := by
  have size := (sorted_perm data).length_eq
  have positive := List.length_pos_iff.2 nonempty
  refine ⟨by omega, by omega, ?_⟩
  rw [median, dif_neg (by omega), if_pos (by omega)]
  simp only [size]

/-- Medians of samples with the same elements are alike. -/
theorem median_alike {other : List Float} (nonempty : data ≠ []) (same : data.Perm other) :
    ∃ m m', median data = .ok m ∧ median other = .ok m' ∧ Alike m m' := by
  have alike := List.forall₂_iff_get.1 (sorted_alike same)
  have size := same.length_eq
  rcases Nat.mod_two_eq_zero_or_one data.length with even | odd
  · have others : other ≠ [] := fun empty => nonempty (List.perm_nil.1 (empty ▸ same))
    obtain ⟨lower, upper, here⟩ := median_of_even nonempty even
    obtain ⟨lower', upper', there⟩ := median_of_even others (size ▸ even)
    refine ⟨_, _, here, there, .div (.add ?_ ?_) _⟩
    · simpa only [size, List.get_eq_getElem] using alike.2 _ lower (size ▸ lower')
    · simpa only [size, List.get_eq_getElem] using alike.2 _ upper (size ▸ upper')
  · obtain ⟨inside, here⟩ := median_of_odd odd
    obtain ⟨inside', there⟩ := median_of_odd (size ▸ odd)
    refine ⟨_, _, here, there, ?_⟩
    simpa only [size, List.get_eq_getElem] using alike.2 _ inside (size ▸ inside')

/-- The median of an odd number of samples has no more than half of the others on either side,
that of an even number is half the sum of the two samples whose ranks are in the middle, and for
samples in another order it is the same, up to the sign of a zero. There is none of no samples. -/
theorem median_middle (data : List Float) (numbers : ∀ x ∈ data, isNaN x = false) :
    (data = [] → median data = .error (.invalidArgument (.emptyDataset "median"))) ∧
    (data.length % 2 = 1 →
      ∃ m ∈ data, median data = .ok m ∧
        data.countP (· < m) ≤ (data.length - 1) / 2 ∧
        data.countP (m < ·) ≤ (data.length - 1) / 2) ∧
    (data ≠ [] → data.length % 2 = 0 →
      ∃ p q, HasRank data (data.length / 2) p ∧ HasRank data (data.length / 2 + 1) q ∧
        median data = .ok ((p + q) / 2.0)) ∧
    (data ≠ [] → ∀ other, data.Perm other →
      ∃ m m', median data = .ok m ∧ median other = .ok m' ∧ Alike m m') := by
  refine ⟨?_, ?_, ?_, fun nonempty other same => median_alike nonempty same⟩
  · rintro rfl
    have size := (sorted_perm []).length_eq
    rw [median, dif_pos (by exact size)]
  · intro odd
    obtain ⟨inside, value⟩ := median_of_odd odd
    have rank := hasRank_sorted numbers inside
    have above := rank.above numbers
    have below := rank.below
    exact ⟨_, rank.mem, value, by omega, by omega⟩
  · intro nonempty even
    obtain ⟨lower, upper, value⟩ := median_of_even nonempty even
    have positive := List.length_pos_iff.2 nonempty
    have first := hasRank_sorted numbers lower
    rw [Nat.sub_add_cancel (by omega)] at first
    exact ⟨_, _, first, hasRank_sorted numbers upper, value⟩

/-- Four samples, two of them equal, have the mean of the second and the third in order as their
median, and it stays alike when two samples change places. -/
theorem median_middle_four :
    (∀ x ∈ [4.0, 1.0, 3.0, 1.0], isNaN x = false) ∧
    (∃ p q, HasRank [4.0, 1.0, 3.0, 1.0] 2 p ∧ HasRank [4.0, 1.0, 3.0, 1.0] 3 q ∧
      median [4.0, 1.0, 3.0, 1.0] = .ok ((p + q) / 2.0)) ∧
    ∃ m m', median [4.0, 1.0, 3.0, 1.0] = .ok m ∧ median [1.0, 4.0, 3.0, 1.0] = .ok m' ∧
      Alike m m' := by
  have numbers : ∀ x ∈ [4.0, 1.0, 3.0, 1.0], isNaN x = false := by decide +kernel
  obtain ⟨-, -, even, reordered⟩ := median_middle [4.0, 1.0, 3.0, 1.0] numbers
  exact ⟨numbers, even (List.cons_ne_nil _ _) rfl,
    reordered (List.cons_ne_nil _ _) _ (.swap _ _ _)⟩

end Calculator.Statistics
