import Calculator.Builtin.Sets
import Calculator.Proofs.Binary64.Comparison
import Mathlib

/-!
# What the set operations return

A set operation goes through a list of candidates, its source (`SetOp.source`), and
keeps a candidate unless one that was kept before counts as the same. Which
elements those are is said by their places in the source (`Picks`): no kept element
counts as a later one, and every candidate that is not kept comes after a kept one
that counts as it. As `same` is not transitive, a candidate may be dropped for an
element that does not count as the next one.

Inserting one more candidate at the end keeps this (`Picks.insert`), so it holds of
every source (`exists_picks`). It also determines the result: whether a place is
picked depends on the picked places before it (`Picks.mem_iff`), so by induction
along the source there is only one way to pick (`Picks.unique`).

None of this uses what it means to count as the same, which is to be closer than the
tolerance as differences are computed (`same_iff`). What is no number and what is
infinite counts as nothing, not even as itself (`same_of_not_finite`).
-/

set_option autoImplicit false

namespace Calculator

namespace ToleranceSet

/-- The elements at some places of a list are the kept ones: the places increase, no kept element
counts as a later one, and every place of the list is among the places or comes after one whose
element counts as its own. -/
structure Picks (source kept : List Float) (places : List Nat) : Prop where
  increasing : places.Pairwise (· < ·)
  elements : places.map (source[·]?) = kept.map some
  subsequence : kept.Sublist source
  apart : kept.Pairwise fun x y => same x y = false
  covered : ∀ i x, source[i]? = some x →
    i ∈ places ∨ ∃ j ∈ places, j < i ∧ ∃ y, source[j]? = some y ∧ same y x = true

/-- Numbers count as the same if their computed difference is less than `1e-9`. -/
theorem same_iff {x y : Float} : same x y = true ↔ (x - y).abs < 1e-9 := decide_eq_true_iff

/-- What is not finite counts as nothing, and nothing counts as it. -/
theorem same_of_not_finite {x y : Float}
    (far : Binary64.isFinite x = false ∨ Binary64.isFinite y = false) : same x y = false :=
  Bool.eq_false_iff.2 fun near => Binary64.not_near far 1e-9 (same_iff.1 near)

namespace Picks

variable {source kept : List Float} {places : List Nat}

/-! ## Places and elements -/

/-- The element at a place is kept. -/
theorem exists_of_place (picks : Picks source kept places) {i : Nat} (place : i ∈ places) :
    ∃ x ∈ kept, source[i]? = some x := by
  have member : source[i]? ∈ kept.map some := by
    rw [← picks.elements]
    exact List.mem_map_of_mem place
  obtain ⟨x, inside, found⟩ := List.mem_map.1 member
  exact ⟨x, inside, found.symm⟩

theorem mem_kept (picks : Picks source kept places) {i : Nat} {x : Float} (place : i ∈ places)
    (found : source[i]? = some x) : x ∈ kept := by
  obtain ⟨y, inside, again⟩ := picks.exists_of_place place
  obtain rfl : x = y := Option.some.inj (found.symm.trans again)
  exact inside

/-- A kept element stands at a place. -/
theorem exists_of_kept (picks : Picks source kept places) {x : Float} (inside : x ∈ kept) :
    ∃ i ∈ places, source[i]? = some x := by
  have member : some x ∈ places.map (source[·]?) := by
    rw [picks.elements]
    exact List.mem_map_of_mem inside
  obtain ⟨i, place, found⟩ := List.mem_map.1 member
  exact ⟨i, place, found⟩

theorem lt_length (picks : Picks source kept places) {i : Nat} (place : i ∈ places) :
    i < source.length := by
  obtain ⟨x, -, found⟩ := picks.exists_of_place place
  exact (List.getElem?_eq_some_iff.1 found).1

/-- At two places the earlier element does not count as the later one. -/
theorem not_same (picks : Picks source kept places) {i j : Nat} {x y : Float} (first : j ∈ places)
    (second : i ∈ places) (earlier : j < i) (atJ : source[j]? = some y)
    (atI : source[i]? = some x) : same y x = false := by
  have elements : (places.map (source[·]?)).Pairwise fun a b =>
      ∀ y x, a = some y → b = some x → same y x = false := by
    rw [picks.elements, List.pairwise_map]
    refine picks.apart.imp ?_
    rintro y x distinct _ _ ⟨⟩ ⟨⟩
    exact distinct
  rw [List.pairwise_map] at elements
  -- The places increase, so the earlier one stands before the later one in their list.
  obtain ⟨front, back, rfl⟩ := List.append_of_mem second
  have order := List.pairwise_append.1 picks.increasing
  have inFront : j ∈ front := by
    rcases List.mem_append.1 first with inFront | inBack
    · exact inFront
    · rcases List.mem_cons.1 inBack with rfl | later
      · omega
      · have behind := List.rel_of_pairwise_cons order.2.1 later
        omega
  exact (List.pairwise_append.1 elements).2.2 j inFront i List.mem_cons_self y x atJ atI

/-! ## One more candidate -/

/-- At the places the longer list has the same elements. -/
theorem elements_append (picks : Picks source kept places) (x : Float) :
    places.map ((source ++ [x])[·]?) = kept.map some := by
  rw [← picks.elements]
  exact List.map_congr_left fun i place => List.getElem?_append_left (picks.lt_length place)

/-- In the longer list the places before the last one are covered as they were. -/
theorem covered_append (picks : Picks source kept places) {x z : Float} {i : Nat}
    (inside : i < source.length) (found : (source ++ [x])[i]? = some z) :
    i ∈ places ∨ ∃ j ∈ places, j < i ∧ ∃ y, (source ++ [x])[j]? = some y ∧ same y z = true := by
  rw [List.getElem?_append_left inside] at found
  rcases picks.covered i z found with place | ⟨j, place, earlier, y, atJ, alike⟩
  · exact .inl place
  · refine .inr ⟨j, place, earlier, y, ?_, alike⟩
    rw [List.getElem?_append_left (picks.lt_length place), atJ]

/-- A candidate that counts as a kept element is dropped. -/
theorem drop (picks : Picks source kept places) {x : Float} (held : contains kept x = true) :
    Picks (source ++ [x]) kept places where
  increasing := picks.increasing
  elements := picks.elements_append x
  subsequence := picks.subsequence.trans (List.sublist_append_left source [x])
  apart := picks.apart
  covered := by
    intro i z found
    rcases Nat.lt_or_ge i source.length with inside | last
    · exact picks.covered_append inside found
    · obtain ⟨y, inside, alike⟩ := List.any_eq_true.1 held
      obtain ⟨j, place, atJ⟩ := picks.exists_of_kept inside
      have before := picks.lt_length place
      rw [List.getElem?_append_right last] at found
      obtain rfl : z = x := List.mem_singleton.1 (List.mem_of_getElem? found)
      refine .inr ⟨j, place, by omega, y, ?_, alike⟩
      rw [List.getElem?_append_left before, atJ]

/-- A candidate that counts as no kept element is kept. -/
theorem keep (picks : Picks source kept places) {x : Float} (new : contains kept x = false) :
    Picks (source ++ [x]) (kept ++ [x]) (places ++ [source.length]) where
  increasing := by
    refine List.pairwise_append.2 ⟨picks.increasing, List.pairwise_singleton _ _, ?_⟩
    intro i place j last
    rw [List.mem_singleton.1 last]
    exact picks.lt_length place
  elements := by
    rw [List.map_append, List.map_append, picks.elements_append, List.map_singleton,
      List.map_singleton, List.getElem?_concat_length]
  subsequence := picks.subsequence.append_right [x]
  apart := by
    refine List.pairwise_append.2 ⟨picks.apart, List.pairwise_singleton _ _, ?_⟩
    intro y inside z last
    rw [List.mem_singleton.1 last]
    exact Bool.eq_false_iff.2 fun alike =>
      Bool.eq_false_iff.1 new (List.any_eq_true.2 ⟨y, inside, alike⟩)
  covered := by
    intro i z found
    rcases Nat.lt_or_ge i source.length with inside | last
    · refine (picks.covered_append inside found).imp (List.mem_append_left _) ?_
      rintro ⟨j, place, rest⟩
      exact ⟨j, List.mem_append_left _ place, rest⟩
    · have bound := (List.getElem?_eq_some_iff.1 found).1
      rw [List.length_append, List.length_singleton] at bound
      obtain rfl : i = source.length := by omega
      exact .inl (List.mem_append_right _ List.mem_cons_self)

/-- Inserting a candidate keeps it or drops it. -/
theorem insert (picks : Picks source kept places) (x : Float) :
    ∃ places, Picks (source ++ [x]) (ToleranceSet.insert kept x) places := by
  rw [ToleranceSet.insert]
  split
  case isTrue held => exact ⟨places, picks.drop held⟩
  case isFalse new => exact ⟨_, picks.keep (Bool.eq_false_iff.2 new)⟩

/-! ## The only way to pick -/

/-- A place is picked just if no picked place before it has an element that counts as its own. -/
theorem mem_iff (picks : Picks source kept places) {i : Nat} {x : Float}
    (found : source[i]? = some x) :
    i ∈ places ↔ ∀ j ∈ places, j < i → ∀ y, source[j]? = some y → same y x = false := by
  constructor
  · intro second j first earlier y atJ
    exact picks.not_same first second earlier atJ found
  · intro distinct
    rcases picks.covered i x found with place | ⟨j, place, earlier, y, atJ, alike⟩
    · exact place
    · rw [distinct j place earlier y atJ] at alike
      cases alike

/-- There is only one way to pick elements of a list. -/
theorem unique (picks : Picks source kept places) {other : List Float} {others : List Nat}
    (again : Picks source other others) : other = kept ∧ others = places := by
  have members : ∀ i, i ∈ others ↔ i ∈ places := by
    intro i
    induction i using Nat.strong_induction_on with
    | h i ih =>
        cases found : source[i]? with
        | none =>
            have outside := List.getElem?_eq_none_iff.1 found
            constructor
            · intro place
              have inside := again.lt_length place
              omega
            · intro place
              have inside := picks.lt_length place
              omega
        | some x =>
            rw [again.mem_iff found, picks.mem_iff found]
            constructor
            · exact fun distinct j place earlier => distinct j ((ih j earlier).2 place) earlier
            · exact fun distinct j place earlier => distinct j ((ih j earlier).1 place) earlier
  have places_eq : others = places := again.increasing.eq_of_mem_iff picks.increasing members
  refine ⟨?_, places_eq⟩
  have elements : other.map some = kept.map some := by
    rw [← again.elements, ← picks.elements, places_eq]
  exact List.map_injective_iff.2 (Option.some_injective Float) elements

end Picks

/-- The distinct elements of a list are picked from it. -/
theorem exists_picks (source : List Float) : ∃ places, Picks source (distinct source) places := by
  induction source using List.reverseRecOn with
  | nil => exact ⟨[], .nil, rfl, .slnil, .nil, fun i x found => by cases found⟩
  | append_singleton source x ih =>
      obtain ⟨places, picks⟩ := ih
      rw [distinct, List.foldl_concat]
      exact picks.insert x

/-- Of a list just these elements are picked, at just one choice of places. -/
def Selects (source kept : List Float) : Prop :=
  ∃ places, Picks source kept places ∧
    ∀ other others, Picks source other others → other = kept ∧ others = places

theorem selects_distinct (source : List Float) : Selects source (distinct source) := by
  obtain ⟨places, picks⟩ := exists_picks source
  exact ⟨places, picks, fun _ _ again => picks.unique again⟩

/-- The middle one of three numbers in a row counts as both of its neighbours, which do not count
as each other. It is dropped for the first one, and the third one is kept. -/
example : distinct [0.0, 8e-10, 16e-10] = [0.0, 16e-10] := by decide +kernel

theorem contains_eq (elements : List Float) (x : Float) :
    contains elements x = decide (∃ y ∈ elements, same y x = true) := List.any_eq

end ToleranceSet

open ToleranceSet (Selects selects_distinct same contains_eq)

/-- The candidates of a set operation, in order: all elements, or those elements of the first list
that have or have not one in the second list that counts as the same. -/
def SetOp.source (op : SetOp) (a b : List Float) : List Float :=
  match op with
  | union => a ++ b
  | intersection => a.filter fun x => ∃ y ∈ b, same y x = true
  | difference => a.filter fun x => ¬ ∃ y ∈ b, same y x = true

/-- A set operation keeps the first of the candidates that count as the same: a subsequence of the
candidates without an element that counts as a later one, such that every other candidate counts as
an earlier kept one. No other list is one of these. -/
theorem SetOp.selects_apply (op : SetOp) (a b : List Float) :
    Selects (op.source a b) (op.apply a b) := by
  cases op with
  | union => exact selects_distinct (a ++ b)
  | intersection =>
      have candidates : SetOp.source .intersection a b = a.filter (ToleranceSet.contains b) :=
        List.filter_congr fun x _ => (contains_eq b x).symm
      rw [candidates]
      exact selects_distinct _
  | difference =>
      have candidates : SetOp.source .difference a b =
          a.filter fun x => !ToleranceSet.contains b x :=
        List.filter_congr fun x _ => by rw [contains_eq, decide_not]
      rw [candidates]
      exact selects_distinct _

end Calculator
