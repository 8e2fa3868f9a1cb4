import Calculator.Proofs.Binary64.Arithmetic
import Calculator.Proofs.Statistics.Sorted

/-!
# The mode and the runs of the sorted sample

The sorted sample falls into runs, the longest pieces in which every two neighbours
are close (`runs`). The scan keeps the run that it is in and the first longest run
so far (`Scanned`). A close sample makes the last run longer, which then is the
longest exactly if it is longer than the best one before; a sample that is not
close begins a run of one, which is never longer than the best. So at the end the
scan holds the first longest run of the whole sample, and the mode is the last
sample of that run. If no run has two samples, the first run is the first longest,
and the mode is the smallest sample.

**Lengths are words.** A run is counted up to `longestCount`. One sample more and
its length wraps around to a negative word, but then the best length is the
greatest word and stays so. What the scan compares is therefore the runs without
their samples past that limit (`counted`), whatever their lengths are
(`mode_eq_last`), and where no run is longer, the runs themselves.

If close samples are equal, every run holds all samples of one value and later
runs hold greater values (`Separated.rank_lt_rank`), so the first longest run is that
of the smallest value of greatest multiplicity.

Alike samples are close to the same samples, so scans of alike samples go through
the same runs (`ScansAlike`), and the order of the sample does not matter beyond
the sign of a zero.
-/

set_option autoImplicit false

namespace Calculator.Statistics

open Binary64

/-! ## Runs -/

/-- Whether two neighbours in the sorted sample count as one value. -/
def close (x y : Float) : Bool := (y - x).abs < tolerance

/-- The runs of the sorted sample. -/
def runs (data : List Float) : List (List Float) := (sorted data).splitBy close

/-- The greatest length that a scan can count. -/
def longestCount : Nat := 2 ^ 31 - 1

/-- Runs without their samples past the greatest length. -/
def counted (lists : List (List Float)) : List (List Float) := lists.map (List.take longestCount)

theorem counted_concat (lists : List (List Float)) (l : List Float) :
    counted (lists ++ [l]) = counted lists ++ [l.take longestCount] := List.map_append

/-- No run is counted further than the greatest length. -/
theorem length_le_of_mem_counted {lists : List (List Float)} {l : List Float}
    (inside : l ∈ counted lists) : l.length ≤ longestCount := by
  obtain ⟨whole, -, rfl⟩ := List.mem_map.1 inside
  exact List.length_take_le _ _

/-- The longest of some lists; of several, the first. -/
def FirstLongest (lists : List (List Float)) (best : List Float) : Prop :=
  ∃ before after, lists = before ++ best :: after ∧
    (∀ l ∈ before, l.length < best.length) ∧ ∀ l ∈ after, l.length ≤ best.length

namespace FirstLongest

variable {lists : List (List Float)} {best l : List Float}

theorem mem (first : FirstLongest lists best) : best ∈ lists := by
  obtain ⟨before, after, rfl, -, -⟩ := first
  exact List.mem_append_right _ List.mem_cons_self

theorem length_le (first : FirstLongest lists best) (inside : l ∈ lists) :
    l.length ≤ best.length := by
  obtain ⟨before, after, rfl, shorter, notLonger⟩ := first
  rcases List.mem_append.1 inside with earlier | later
  · exact Nat.le_of_lt (shorter l earlier)
  · rcases List.mem_cons.1 later with rfl | later
    · exact Nat.le_refl _
    · exact notLonger l later

/-- A list that is not longer comes too late. -/
theorem concat_of_le (first : FirstLongest lists best) (short : l.length ≤ best.length) :
    FirstLongest (lists ++ [l]) best := by
  obtain ⟨before, after, rfl, shorter, notLonger⟩ := first
  refine ⟨before, after ++ [l], by simp, shorter, fun other inside => ?_⟩
  rcases List.mem_append.1 inside with later | last
  · exact notLonger other later
  · rw [List.mem_singleton.1 last]
    exact short

/-- A list that is longer than all before it is the first longest. -/
theorem concat_of_lt (long : ∀ other ∈ lists, other.length < l.length) :
    FirstLongest (lists ++ [l]) l :=
  ⟨lists, [], rfl, long, nofun⟩

/-- A last list that is shorter may be left out. -/
theorem of_concat (first : FirstLongest (lists ++ [l]) best) (short : l.length < best.length) :
    FirstLongest lists best := by
  obtain ⟨before, after, split, shorter, notLonger⟩ := first
  rcases List.eq_nil_or_concat after with rfl | ⟨kept, last, rfl⟩
  · obtain ⟨-, same⟩ := List.append_inj' split rfl
    obtain rfl : l = best := List.head_eq_of_cons_eq same
    exact absurd short (Nat.lt_irrefl _)
  · rw [List.concat_eq_append, ← List.cons_append, ← List.append_assoc] at split
    obtain ⟨rfl, -⟩ := List.append_inj' split rfl
    exact ⟨before, kept, rfl, shorter, fun other inside =>
      notLonger other (List.concat_eq_append ▸ List.mem_append_left _ inside)⟩

end FirstLongest

/-- A sample close to the last one makes the last run longer. -/
theorem splitBy_concat_of_close {seen current : List Float} {earlier : List (List Float)}
    {last x : Float} (split : seen.splitBy close = earlier ++ [current])
    (ends : current.getLast? = some last) (near : close last x = true) :
    (seen ++ [x]).splitBy close = earlier ++ [current ++ [x]] := by
  obtain ⟨joined, nonempty, chains, bounds⟩ := List.splitBy_eq_iff.1 split
  refine List.splitBy_eq_iff.2 ⟨by simp [joined], ?_, ?_, ?_⟩
  · intro empty
    rcases List.mem_append.1 empty with inside | inside
    · exact nonempty (List.mem_append_left _ inside)
    · simp at inside
  · intro run inside
    rcases List.mem_append.1 inside with inside | inside
    · exact chains run (List.mem_append_left _ inside)
    · rw [List.mem_singleton.1 inside, List.isChain_append]
      refine ⟨chains current (List.mem_append_right _ (List.mem_singleton.2 rfl)),
        List.isChain_singleton x, ?_⟩
      rintro y isLast z isHead
      obtain rfl : last = y := Option.some.inj (ends.symm.trans isLast)
      obtain rfl : x = z := Option.some.inj isHead
      exact near
  · -- The last run begins where it did before.
    rw [List.isChain_append] at bounds ⊢
    obtain ⟨before, -, boundary⟩ := bounds
    refine ⟨before, List.isChain_singleton _, fun run isLast next isNext => ?_⟩
    obtain rfl : current ++ [x] = next := Option.some.inj isNext
    obtain ⟨nonemptyRun, nonemptyCurrent, apart⟩ := boundary run isLast current rfl
    refine ⟨nonemptyRun, List.append_ne_nil_of_left_ne_nil nonemptyCurrent _, ?_⟩
    rw [List.head_append_of_ne_nil nonemptyCurrent]
    exact apart

/-! ## The scan -/

/-- What the scan knows of the samples seen: the last run and the first longest one, each by its
length and its last sample. The last run may be too long to be counted, and then its length has
wrapped around; the longest one is known as far as it is counted. -/
structure Scanned (seen : List Float) (scan : RunScan) : Prop where
  current : ∃ earlier run, seen.splitBy close = earlier ++ [run] ∧
    run.getLast? = some scan.last ∧ Int32.ofNat run.length = scan.run
  longest : ∃ best, FirstLongest (counted (seen.splitBy close)) best ∧
    best.getLast? = some scan.mode ∧ scan.best.toInt = best.length

namespace Scanned

variable {seen : List Float} {scan : RunScan} {x : Float}

theorem start (x : Float) : Scanned [x] ⟨x, 1, 1, x⟩ where
  current := ⟨[], [x], rfl, rfl, rfl⟩
  longest := ⟨[x], ⟨[], [], rfl, nofun, nofun⟩, rfl, rfl⟩

theorem getLast? (scanned : Scanned seen scan) : seen.getLast? = some scan.last := by
  obtain ⟨earlier, run, split, ends, -⟩ := scanned.current
  have joined := (List.splitBy_eq_iff.1 split).1
  rw [joined, List.flatten_append, List.getLast?_append, List.flatten_singleton, ends]
  rfl

/-- A close sample, which makes the last run longer. -/
theorem step_of_close (scanned : Scanned seen scan) (near : close scan.last x = true) :
    Scanned (seen ++ [x]) (scan.step x) := by
  obtain ⟨earlier, run, split, ends, length⟩ := scanned.current
  obtain ⟨best, first, bestEnds, bestLength⟩ := scanned.longest
  have longer := splitBy_concat_of_close split ends near
  have grown : (run ++ [x]).length = run.length + 1 := List.length_append
  have next : Int32.ofNat (run ++ [x]).length = scan.run + 1 := by
    rw [grown, Int32.ofNat_add, length]
    rfl
  rw [split, counted_concat] at first
  have bestBound := length_le_of_mem_counted (counted_concat earlier run ▸ first.mem)
  rw [RunScan.step, if_pos (of_decide_eq_true near)]
  dsimp only
  rcases Nat.lt_or_ge run.length longestCount with room | full
  · -- The longer run is counted to its end, and its length is compared with the best one.
    have exact : (scan.run + 1).toInt = (run ++ [x]).length := by
      rw [← next]
      exact Int32.toInt_ofNat_of_lt (by rw [grown]; exact Nat.add_lt_of_lt_sub room)
    have now : counted ((seen ++ [x]).splitBy close) = counted earlier ++ [run ++ [x]] := by
      rw [longer, counted_concat, List.take_of_length_le (by omega)]
    rw [List.take_of_length_le (Nat.le_of_lt room)] at first
    by_cases better : scan.best < scan.run + 1
    · rw [if_pos better]
      refine ⟨⟨earlier, run ++ [x], longer, List.getLast?_concat, next⟩,
        ⟨run ++ [x], ?_, List.getLast?_concat, exact⟩⟩
      rw [now]
      refine FirstLongest.concat_of_lt fun other inside => ?_
      have bound := first.length_le (List.mem_append_left _ inside)
      rw [Int32.lt_iff_toInt_lt, exact, bestLength] at better
      omega
    · rw [if_neg better]
      refine ⟨⟨earlier, run ++ [x], longer, List.getLast?_concat, next⟩,
        ⟨best, ?_, bestEnds, bestLength⟩⟩
      rw [Int32.lt_iff_toInt_lt, exact, bestLength] at better
      -- The best run is longer than the last one, so it is one of the earlier ones.
      rw [now]
      exact (first.of_concat (by omega)).concat_of_le (by omega)
  · -- The last run has been counted to the greatest length, so that is the best one.
    have bound := first.length_le (List.mem_append_right _ (List.mem_singleton.2 rfl))
    rw [List.length_take, Nat.min_eq_left full] at bound
    have greatest : scan.best.toInt = 2 ^ 31 - 1 := by
      rw [bestLength, Nat.le_antisymm bestBound bound]
      rfl
    have now : counted ((seen ++ [x]).splitBy close) =
        counted earlier ++ [run.take longestCount] := by
      rw [longer, counted_concat, List.take_append_of_le_length full]
    rw [if_neg]
    · exact ⟨⟨earlier, run ++ [x], longer, List.getLast?_concat, next⟩,
        ⟨best, now ▸ first, bestEnds, bestLength⟩⟩
    · rw [Int32.lt_iff_toInt_lt, greatest]
      have limit := (scan.run + 1).toInt_lt
      omega

/-- A sample that is not close, which begins a run. -/
theorem step_of_apart (scanned : Scanned seen scan) (far : ¬ close scan.last x = true) :
    Scanned (seen ++ [x]) (scan.step x) := by
  obtain ⟨best, first, bestEnds, bestLength⟩ := scanned.longest
  have apart : (seen ++ [x]).splitBy close = seen.splitBy close ++ [[x]] := by
    refine List.splitBy_append_cons [] fun y isLast => ?_
    obtain rfl : scan.last = y := Option.some.inj (scanned.getLast?.symm.trans isLast)
    exact Bool.eq_false_iff.2 far
  have nonempty : 1 ≤ best.length := by
    rw [Nat.one_le_iff_ne_zero, Ne, List.length_eq_zero_iff]
    rintro rfl
    cases bestEnds
  rw [RunScan.step, if_neg fun below => far (decide_eq_true below)]
  refine ⟨⟨seen.splitBy close, [x], apart, rfl, rfl⟩, ⟨best, ?_, bestEnds, bestLength⟩⟩
  rw [apart, counted_concat]
  exact first.concat_of_le nonempty

/-- One more sample. -/
theorem step (scanned : Scanned seen scan) (x : Float) : Scanned (seen ++ [x]) (scan.step x) := by
  by_cases near : close scan.last x = true
  · exact scanned.step_of_close near
  · exact scanned.step_of_apart near

/-- The whole scan. -/
theorem foldl (scanned : Scanned seen scan) (rest : List Float) :
    Scanned (seen ++ rest) (rest.foldl RunScan.step scan) := by
  induction rest generalizing seen scan with
  | nil => rwa [List.append_nil]
  | cons x rest ih =>
      rw [List.append_cons]
      exact ih (scanned.step x)

end Scanned

variable {data : List Float}

theorem flatten_runs (data : List Float) : (runs data).flatten = sorted data :=
  List.flatten_splitBy close (sorted data)

/-- Values that are not equal are apart by the tolerance, as differences are computed. -/
def Separated (data : List Float) : Prop :=
  ∀ x ∈ data, ∀ y ∈ data, (x == y) = false → tolerance ≤ (x - y).abs

/-- A finite sample is close to what is alike. -/
theorem close_of_alike {x y : Float} (finite : isFinite y = true) (alike : Alike x y) :
    close x y = true := by
  have vanishes : (y - y).abs < tolerance := near_self finite (by decide +kernel)
  have same : Alike (y - x).abs (y - y).abs := ((Alike.refl y).sub alike).abs
  exact decide_eq_true ((same.lt_iff (.refl tolerance)).2 vanishes)

/-- A finite number equals what has its rank. -/
theorem beq_iff_rank {x y : Float} (finite : isFinite x = true) :
    (x == y) = true ↔ rank x = rank y := by
  rw [rank_eq_iff]
  constructor
  · exact .inr
  · rintro (rfl | equal)
    · exact beq_self finite
    · exact equal

theorem not_lt_of_le {x y : Float} (order : x ≤ y) : ¬ y < x := by
  rw [le_iff] at order
  rw [lt_iff]
  omega

theorem mem_of_mem_run {x : Float} {run : List Float} (isRun : run ∈ runs data)
    (inside : x ∈ run) : x ∈ data :=
  (sorted_perm data).mem_iff.1 (flatten_runs data ▸ List.mem_flatten_of_mem isRun inside)

namespace Separated

variable {x y : Float} {run : List Float}

/-- Close samples are alike. -/
theorem close_iff (separated : Separated data) (finite : ∀ x ∈ data, isFinite x = true)
    (insideX : x ∈ data) (insideY : y ∈ data) : close x y = true ↔ rank x = rank y := by
  rw [rank_eq_iff]
  refine ⟨fun near => ?_, close_of_alike (finite y insideY)⟩
  by_contra apart
  have unequal : (y == x) = false := Bool.eq_false_iff.2 fun equal => apart (.symm (.inr equal))
  exact not_lt_of_le (separated y insideY x insideX unequal) (of_decide_eq_true near)

/-- A run has one rank. -/
theorem rank_run (separated : Separated data) (finite : ∀ x ∈ data, isFinite x = true)
    (isRun : run ∈ runs data) (insideX : x ∈ run) (insideY : y ∈ run) : rank x = rank y := by
  have chain : run.IsChain fun a b => rank a = rank b := by
    refine (List.isChain_of_mem_splitBy isRun).imp_of_mem_imp ?_
    intro a b insideA insideB near
    exact (separated.close_iff finite (mem_of_mem_run isRun insideA)
      (mem_of_mem_run isRun insideB)).1 near
  have transitive : IsTrans Float fun a b => rank a = rank b := ⟨fun _ _ _ => Eq.trans⟩
  have symmetric : Std.Symm fun a b : Float => rank a = rank b := ⟨fun _ _ => Eq.symm⟩
  have pairs : run.Pairwise fun a b => rank a = rank b := chain.pairwise
  exact pairs.forall_of_forall (fun z _ => (rfl : rank z = rank z)) insideX insideY

/-- Later runs have higher ranks. -/
theorem rank_lt_rank (separated : Separated data) (finite : ∀ x ∈ data, isFinite x = true) :
    (runs data).Pairwise fun a b =>
      a ≠ [] ∧ b ≠ [] ∧ ∀ x ∈ a, ∀ y ∈ b, rank x < rank y := by
  have transitive : IsTrans (List Float) fun a b =>
      a ≠ [] ∧ b ≠ [] ∧ ∀ x ∈ a, ∀ y ∈ b, rank x < rank y := by
    refine ⟨fun a b c first second => ⟨first.1, second.2.1, fun x insideX z insideZ => ?_⟩⟩
    obtain ⟨y, insideY⟩ := List.exists_mem_of_ne_nil b first.2.1
    exact Int.lt_trans (first.2.2 x insideX y insideY) (second.2.2 y insideY z insideZ)
  have increasing := sorted_pairwise data
  rw [← flatten_runs, List.pairwise_flatten] at increasing
  refine List.IsChain.pairwise (List.isChain_iff_forall_rel_of_append_cons_cons.2 ?_)
  intro a b earlier later split
  have isRunA : a ∈ runs data := by simp [split]
  have isRunB : b ∈ runs data := by simp [split]
  obtain ⟨nonemptyA, nonemptyB, apart⟩ := List.isChain_iff_forall_rel_of_append_cons_cons.1
    (List.isChain_getLast_head_splitBy close (sorted data)) split
  have last := List.getLast_mem nonemptyA
  have first := List.head_mem nonemptyB
  have order : rank (a.getLast nonemptyA) ≤ rank (b.head nonemptyB) := by
    rw [split, List.pairwise_append] at increasing
    exact List.rel_of_pairwise_cons increasing.2.2.1 List.mem_cons_self _ last _ first
  have distinct : rank (a.getLast nonemptyA) ≠ rank (b.head nonemptyB) := by
    rw [Ne, ← separated.close_iff finite (mem_of_mem_run isRunA last)
      (mem_of_mem_run isRunB first), apart]
    exact Bool.false_ne_true
  refine ⟨nonemptyA, nonemptyB, fun x insideX y insideY => ?_⟩
  rw [separated.rank_run finite isRunA insideX last,
    separated.rank_run finite isRunB insideY first]
  exact lt_of_le_of_ne order distinct

/-- A sample of an earlier run has a lower rank than those of a run, one of a later run a higher
one. -/
theorem rank_around (separated : Separated data) (finite : ∀ x ∈ data, isFinite x = true)
    {before after : List (List Float)} (split : runs data = before ++ run :: after)
    (inside : x ∈ run) :
    (∀ r ∈ before, ∀ z ∈ r, rank z < rank x) ∧ ∀ r ∈ after, ∀ z ∈ r, rank x < rank z := by
  have ordered := separated.rank_lt_rank finite
  rw [split, List.pairwise_append] at ordered
  constructor
  · intro r earlier z insideR
    exact (ordered.2.2 r earlier run List.mem_cons_self).2.2 z insideR x inside
  · intro r later z insideR
    exact (List.rel_of_pairwise_cons ordered.2.1 later).2.2 x inside z insideR

/-- A run holds all samples that equal one of its own. -/
theorem countP_eq_length (separated : Separated data) (finite : ∀ x ∈ data, isFinite x = true)
    (isRun : run ∈ runs data) (inside : x ∈ run) : data.countP (· == x) = run.length := by
  obtain ⟨before, after, split⟩ := List.append_of_mem isRun
  obtain ⟨lower, higher⟩ := separated.rank_around finite split inside
  have equal_iff {z : Float} {r : List Float} (isRunZ : r ∈ runs data) (insideZ : z ∈ r) :
      (z == x) = true ↔ rank z = rank x :=
    beq_iff_rank (finite z (mem_of_mem_run isRunZ insideZ))
  have own : run.countP (· == x) = run.length :=
    List.countP_eq_length.2 fun z insideZ =>
      (equal_iff isRun insideZ).2 (separated.rank_run finite isRun insideZ inside)
  have earlier : before.flatten.countP (· == x) = 0 := by
    refine List.countP_eq_zero.2 fun z inFront => ?_
    obtain ⟨r, front, insideZ⟩ := List.mem_flatten.1 inFront
    rw [equal_iff (split ▸ List.mem_append_left _ front) insideZ]
    exact Int.ne_of_lt (lower r front z insideZ)
  have later : after.flatten.countP (· == x) = 0 := by
    refine List.countP_eq_zero.2 fun z inBack => ?_
    obtain ⟨r, back, insideZ⟩ := List.mem_flatten.1 inBack
    rw [equal_iff (split ▸ List.mem_append_right _ (List.mem_cons_of_mem _ back)) insideZ]
    exact (Int.ne_of_lt (higher r back z insideZ)).symm
  rw [← (sorted_perm data).countP_eq, ← flatten_runs, split, List.flatten_append,
    List.flatten_cons, List.countP_append, List.countP_append, earlier, own, later]
  omega

end Separated

/-! ## Samples in another order -/

/-- Scans that went the same way over alike samples. -/
structure ScansAlike (scan scan' : RunScan) : Prop where
  last : Alike scan.last scan'.last
  run : scan.run = scan'.run
  best : scan.best = scan'.best
  mode : Alike scan.mode scan'.mode

theorem ScansAlike.step {scan scan' : RunScan} (alike : ScansAlike scan scan') {x x' : Float}
    (same : Alike x x') : ScansAlike (scan.step x) (scan'.step x') := by
  obtain ⟨last, run, best, mode⟩ := alike
  have near : (x - scan.last).abs < tolerance ↔ (x' - scan'.last).abs < tolerance :=
    (same.sub last).abs.lt_iff (.refl tolerance)
  rw [RunScan.step, RunScan.step]
  by_cases close : (x - scan.last).abs < tolerance
  · rw [if_pos close, if_pos (near.1 close), ← run, ← best]
    dsimp only
    by_cases better : scan.best < scan.run + 1
    · rw [if_pos better, if_pos better]
      exact ⟨same, rfl, rfl, same⟩
    · rw [if_neg better, if_neg better]
      exact ⟨same, rfl, rfl, mode⟩
  · rw [if_neg close, if_neg (mt near.2 close)]
    exact ⟨same, rfl, best, mode⟩

end Calculator.Statistics
