import Calculator.Proofs.Binary64.Arithmetic
import Calculator.Proofs.ToleranceSet.Representatives

/-!
# Set operations one after another

`same` is not transitive, so the laws of sets do not hold of the operations just
because they hold of sets. What a second operation does follows from two properties
of the result of the first one.

**Apart.** No kept element counts as a later one (`apart_distinct`). So nothing is
dropped when the kept elements are gone through again (`distinct_of_apart`), and to
select the same candidates twice is to select them once
(`distinct_filter_distinct`).

**Covering.** A dropped candidate counts as a kept element, and a finite one that is
kept counts as itself. So a candidate counts as some kept element exactly if it is
finite (`contains_distinct`): a second pass over finite candidates keeps none of them,
and what is not finite is kept again wherever it stands (`union_union_right`,
`difference_union`).
-/

set_option autoImplicit false

namespace Calculator.ToleranceSet

variable {kept : List Float}

/-- No element counts as a later one. -/
def Apart (elements : List Float) : Prop := elements.Pairwise fun x y => same x y = false

theorem apart_distinct (source : List Float) : Apart (distinct source) := by
  obtain ⟨places, picks⟩ := exists_picks source
  exact picks.apart

theorem mem_of_mem_distinct {source : List Float} {x : Float} (inside : x ∈ distinct source) :
    x ∈ source := by
  obtain ⟨places, picks⟩ := exists_picks source
  exact picks.subsequence.subset inside

/-! ## One more pass -/

/-- What counts as a kept element goes on doing so when more is kept. -/
theorem contains_insert {x : Float} (held : contains kept x = true) (y : Float) :
    contains (insert kept y) x = true := by
  rw [insert]
  split
  · exact held
  · rw [contains, List.any_append, ← contains, held, Bool.true_or]

/-- Candidates that count as kept elements can be left out. -/
theorem foldl_insert_filter {old : Float → Bool} {candidates : List Float}
    (held : ∀ x ∈ candidates, old x = true → contains kept x = true) :
    candidates.foldl insert kept = (candidates.filter (!old ·)).foldl insert kept := by
  induction candidates generalizing kept with
  | nil => rfl
  | cons x candidates ih =>
      obtain ⟨first, rest⟩ := List.forall_mem_cons.1 held
      rw [List.foldl_cons]
      cases seen : old x with
      | true =>
          rw [List.filter_cons_of_neg (by simp [seen]), insert, if_pos (first seen)]
          exact ih rest
      | false =>
          rw [List.filter_cons_of_pos (by simp [seen]), List.foldl_cons]
          exact ih fun y inside seen => contains_insert (rest y inside seen) x

/-- Candidates that are apart from each other and from what was kept are all kept. -/
theorem foldl_insert_of_apart {candidates : List Float} (apart : Apart (kept ++ candidates)) :
    candidates.foldl insert kept = kept ++ candidates := by
  induction candidates generalizing kept with
  | nil => exact (List.append_nil kept).symm
  | cons x candidates ih =>
      have new : contains kept x = false := by
        refine List.any_eq_false.2 fun y inside => Bool.eq_false_iff.1 ?_
        exact (List.pairwise_append.1 apart).2.2 y inside x List.mem_cons_self
      rw [List.append_cons kept x] at apart ⊢
      rw [List.foldl_cons, insert, if_neg (Bool.eq_false_iff.1 new)]
      exact ih apart

/-- Elements that are apart are all kept. -/
theorem distinct_of_apart {elements : List Float} (apart : Apart elements) :
    distinct elements = elements :=
  foldl_insert_of_apart apart

/-! ## Selecting twice -/

/-- To select the same candidates twice is to select them once. -/
theorem distinct_filter_distinct (select : Float → Bool) (candidates : List Float) :
    distinct ((distinct (candidates.filter select)).filter select) =
      distinct (candidates.filter select) := by
  have selected : (distinct (candidates.filter select)).filter select =
      distinct (candidates.filter select) :=
    List.filter_eq_self.2 fun x inside => List.of_mem_filter (mem_of_mem_distinct inside)
  rw [selected, distinct_of_apart (apart_distinct _)]

/-- What was selected is not selected by the opposite condition. -/
theorem distinct_filter_not {select other : Float → Bool}
    (opposite : ∀ x, select x = true → other x = false) (candidates : List Float) :
    distinct ((distinct (candidates.filter select)).filter other) = [] := by
  have nothing : (distinct (candidates.filter select)).filter other = [] := by
    refine List.filter_eq_nil_iff.2 fun x inside => Bool.eq_false_iff.1 ?_
    exact opposite x (List.of_mem_filter (mem_of_mem_distinct inside))
  rw [nothing]
  rfl

/-! ## Covering -/

/-- A finite number counts as itself. -/
theorem same_self {x : Float} (finite : Binary64.isFinite x = true) : same x x = true :=
  decide_eq_true (Binary64.near_self finite (by decide +kernel))

/-- A candidate counts as a kept element exactly if it is finite. -/
theorem contains_distinct {source : List Float} {x : Float} (inside : x ∈ source) :
    contains (distinct source) x = Binary64.isFinite x := by
  cases finite : Binary64.isFinite x with
  | false =>
      refine List.any_eq_false.2 fun y _ => Bool.eq_false_iff.1 ?_
      exact same_of_not_finite (.inr finite)
  | true =>
      obtain ⟨places, picks⟩ := exists_picks source
      obtain ⟨i, found⟩ := List.mem_iff_getElem?.1 inside
      rcases picks.covered i x found with place | ⟨j, place, -, y, atJ, alike⟩
      · exact List.any_eq_true.2 ⟨x, picks.mem_kept place found, same_self finite⟩
      · exact List.any_eq_true.2 ⟨y, picks.mem_kept place atJ, alike⟩

/-- What is not finite stays apart from everything. -/
theorem Apart.append_not_finite (apart : Apart kept) (candidates : List Float) :
    Apart (kept ++ candidates.filter (!Binary64.isFinite ·)) := by
  have far : ∀ x ∈ candidates.filter (!Binary64.isFinite ·), Binary64.isFinite x = false := by
    intro x inside
    simpa using List.of_mem_filter inside
  refine List.pairwise_append.2 ⟨apart, ?_, ?_⟩
  · exact List.pairwise_of_forall_mem_list fun x _ y inside =>
      same_of_not_finite (.inr (far y inside))
  · exact fun x _ y inside => same_of_not_finite (.inr (far y inside))

/-- To add the elements of the second list again adds those that are not finite. -/
theorem union_union_right (a b : List Float) :
    union (union a b) b = union a b ++ b.filter (!Binary64.isFinite ·) := by
  have apart := apart_distinct (a ++ b)
  have first : (union a b).foldl insert [] = union a b := distinct_of_apart apart
  have held : ∀ x ∈ b, Binary64.isFinite x = true → contains (union a b) x = true := by
    intro x inside finite
    rw [union, contains_distinct (List.mem_append_right a inside), finite]
  rw [union, distinct, List.foldl_append, first, foldl_insert_filter held]
  exact foldl_insert_of_apart (apart.append_not_finite b)

/-- To take a union away leaves what is not finite. -/
theorem difference_union (a b : List Float) :
    difference a (union a b) = a.filter (!Binary64.isFinite ·) := by
  have candidates : a.filter (fun x => !contains (union a b) x) =
      a.filter (!Binary64.isFinite ·) :=
    List.filter_congr fun x inside => by
      rw [union, contains_distinct (List.mem_append_left b inside)]
  rw [difference, candidates]
  exact distinct_of_apart (Apart.append_not_finite .nil a)

/-- Two infinities count as nothing, so both are kept twice. -/
example : union (union [1.0] [1.0 / 0.0]) [1.0 / 0.0] = [1.0, 1.0 / 0.0, 1.0 / 0.0] := by
  decide +kernel

/-! ## The laws -/

/-- Selecting by a second list is idempotent, and selecting by it in the opposite way leaves
nothing. The empty list adds nothing to a union. The second list of a union adds nothing more
exactly if it is finite, and the first list less a union is empty exactly if it is finite; in
particular both hold if all elements are finite. -/
theorem composition_laws (a b : List Float) :
    intersection (difference a b) b = [] ∧
    difference (intersection a b) b = [] ∧
    difference (difference a b) b = difference a b ∧
    intersection (intersection a b) b = intersection a b ∧
    union (union a b) [] = union a b ∧
    (union (union a b) b = union a b ↔ ∀ x ∈ b, Binary64.isFinite x = true) ∧
    (difference a (union a b) = [] ↔ ∀ x ∈ a, Binary64.isFinite x = true) := by
  refine ⟨distinct_filter_not (fun x absent => ?_) a, distinct_filter_not (fun x held => ?_) a,
    distinct_filter_distinct _ a, distinct_filter_distinct _ a, ?_, ?_, ?_⟩
  · simpa using absent
  · simpa using held
  · rw [union, List.append_nil]
    exact distinct_of_apart (apart_distinct (a ++ b))
  · rw [union_union_right, List.append_right_eq_self, List.filter_eq_nil_iff]
    simp
  · rw [difference_union, List.filter_eq_nil_iff]
    simp

end Calculator.ToleranceSet
