import Calculator.Argument
import Calculator.Proofs.Guarded.Access
import Calculator.Statistics

/-!
# Samples read by index

The median reads the sorted sample at its middle and, for an even size, one
before it; the mode reads its first element and then both elements of every
window of two. Both come after the check that there is a sample, which keeps
those places within it (`median_eq`, `mode_eq`). Splitting into halves takes
away the elements from the middle on, which is never past the end
(`splitOff_half`, `splitPair_eq`).
-/

set_option autoImplicit false

namespace Calculator.Guarded

open Statistics (sorted tolerance RunScan checkData)

/-- The sorted sample has as many elements. -/
theorem length_sorted (data : List Float) : (sorted data).length = data.length :=
  List.length_mergeSort data

/-! ## Median -/

/-- The middle of the sorted list, or the mean of the two elements there. -/
def median (data : List Float) : Guarded Float := do
  permit (checkData "median" data)
  let ordered := sorted data
  let middle := ordered.length / 2
  if ordered.length % 2 = 0 then
    return ((← element ordered (← predecessor middle)) + (← element ordered middle)) / 2.0
  else element ordered middle

theorem median_eq (data : List Float) : median data = permit (Statistics.median data) := by
  have size := length_sorted data
  cases data with
  | nil =>
      have empty : (sorted []).length = 0 := size
      rw [median, Statistics.median, dif_pos empty]
      rfl
  | cons x rest =>
      have checked : permit (checkData "median" (x :: rest)) = .ok () := rfl
      rw [median, Statistics.median, checked]
      rw [List.length_cons] at size
      have upper : (sorted (x :: rest)).length / 2 < (sorted (x :: rest)).length := by omega
      rw [dif_neg (by omega)]
      dsimp only
      by_cases even : (sorted (x :: rest)).length % 2 = 0
      · have lower : (sorted (x :: rest)).length / 2 - 1 < (sorted (x :: rest)).length := by omega
        rw [if_pos even, if_pos even]
        rw [predecessor_of_pos (by omega), element_of_lt upper]
        change element (sorted (x :: rest)) _ >>= _ = _
        rw [element_of_lt lower]
        rfl
      · rw [if_neg even, if_neg even]
        exact element_of_lt upper

/-! ## Mode -/

/-- The best run so far with the element that made it the best, and the length of the current
run. -/
structure Runs where
  best : Int32
  run : Int32
  mode : Float

/-- The windows of two neighbours of a list. -/
def windows (xs : List Float) : List (List Float) := List.zipWith (fun a b => [a, b]) xs xs.tail

/-- The runs after one more window. -/
def Runs.step (runs : Runs) (window : List Float) : Guarded Runs := do
  let before ← element window 0
  let after ← element window 1
  if (after - before).abs < tolerance then
    let run := runs.run + 1
    if runs.best < run then return ⟨run, run, after⟩ else return { runs with run := run }
  else return { runs with run := 1 }

/-- The element that makes the first longest run the longest. -/
def mode (data : List Float) : Guarded Float := do
  permit (checkData "mode" data)
  let ordered := sorted data
  let first ← element ordered 0
  let runs ← (windows ordered).foldlM Runs.step ⟨1, 1, first⟩
  return runs.mode

/-- What a scan keeps apart from the last element. -/
def runsOf (scan : RunScan) : Runs := ⟨scan.best, scan.run, scan.mode⟩

theorem last_step (scan : RunScan) (x : Float) : (scan.step x).last = x := by
  rw [RunScan.step]
  split
  case isTrue =>
    dsimp only
    split
    case isTrue => rfl
    case isFalse => rfl
  case isFalse => rfl

/-- A window reads the last element of the scan and the next one. -/
theorem step_runsOf (scan : RunScan) (x : Float) :
    (runsOf scan).step [scan.last, x] = .ok (runsOf (scan.step x)) := by
  change (if (x - scan.last).abs < tolerance then _ else _) = _
  rw [RunScan.step]
  by_cases close : (x - scan.last).abs < tolerance
  · rw [if_pos close, if_pos close]
    by_cases better : scan.best < scan.run + 1
    · dsimp only
      rw [if_pos better]
      exact if_pos better
    · dsimp only
      rw [if_neg better]
      exact if_neg better
  · rw [if_neg close, if_neg close]
    rfl

theorem foldlM_windows (rest : List Float) (scan : RunScan) :
    (windows (scan.last :: rest)).foldlM Runs.step (runsOf scan) =
      .ok (runsOf (rest.foldl RunScan.step scan)) := by
  induction rest generalizing scan with
  | nil => rfl
  | cons x rest ih =>
      have later := ih (scan.step x)
      rw [last_step] at later
      have first : windows (scan.last :: x :: rest) = [scan.last, x] :: windows (x :: rest) := rfl
      rw [first, List.foldlM_cons, step_runsOf]
      exact later

theorem mode_eq (data : List Float) : mode data = permit (Statistics.mode data) := by
  have size := length_sorted data
  cases data with
  | nil =>
      have empty : sorted [] = [] := List.length_eq_zero_iff.1 size
      rw [Statistics.mode, empty]
      rfl
  | cons x rest =>
      have checked : permit (checkData "mode" (x :: rest)) = .ok () := rfl
      rw [mode, Statistics.mode, checked]
      generalize sorted (x :: rest) = ordered at size
      cases ordered with
      | nil => cases size
      | cons first others =>
          have scanned := foldlM_windows others ⟨first, 1, 1, first⟩
          change (windows (first :: others)).foldlM Runs.step ⟨1, 1, first⟩ >>= _ = _
          exact congrArg (· >>= fun runs => .ok runs.mode) scanned

/-! ## Halves -/

/-- The two operands of a pairwise operation. -/
def splitPair (function : String) (args : List Value) : Guarded (List Float × List Float) :=
  match args with
  | [.vector a, .vector b] => .ok (a, b)
  | _ =>
    let data := Argument.flatten args
    if data.length < 2 ∨ data.length % 2 ≠ 0 then
      .error (.failure (.invalidArgument (.unpaired function data.length)))
    else splitOff data (data.length / 2)

theorem splitOff_half (data : List Float) :
    splitOff data (data.length / 2) = .ok (Argument.halves data) :=
  splitOff_of_le (Nat.div_le_self _ _)

theorem splitPair_eq (function : String) (args : List Value) :
    splitPair function args = permit (Argument.splitPair function args) := by
  by_cases vectors : ∃ a b, args = [.vector a, .vector b]
  · obtain ⟨a, b, rfl⟩ := vectors
    rfl
  · have other : ∀ a b, args = [.vector a, .vector b] → False :=
      fun a b same => vectors ⟨a, b, same⟩
    rw [splitPair, Argument.splitPair]
    · split
      case isTrue => rfl
      case isFalse => exact splitOff_half _
    · exact other
    · exact other

end Calculator.Guarded
