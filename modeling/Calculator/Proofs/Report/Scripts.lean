import Calculator.Report
import Mathlib.Data.List.Basic

/-!
# Scripts run line by line

Reports are put together one after another: appending is associative and the
empty report does nothing, so the report of a list of runs is put together from
those of its parts (`Report.join_append`). A text is cut at its line feeds
(`Text.lines_eq_splitOn`), and no line is looked at together with another one.

**Lines.** Each line with an expression is evaluated once and in its place,
whatever becomes of the others, as long as the program lives. A line has an
expression if something is left of it without the blanks around it, and that
does not begin with `#` (`expression?`). An evaluation that breaks off, because
there is no storage for a product of matrices, takes the program with it. So the
lines that are run are those up to the first one that breaks off (`reached`).

**Two scripts.** A script of two parts with a line feed between them prints what
the first prints and then what the second prints, on either output, and succeeds
if both do. For the exit code this always holds. For the outputs it holds unless
the first part breaks off: then nothing of the second is printed, which is
noticed just if it would print something by itself.

Both are stated in `script_by_lines`, and `breakdown_ends_script` shows that the
exception is there.
-/

set_option autoImplicit false

namespace Calculator

/-- A text is cut at every line feed. -/
theorem Text.lines_eq_splitOn (text : List Char) : lines text = text.splitOn '\n' := by
  induction text with
  | nil => rfl
  | cons c rest ih =>
      rw [lines, ih, List.splitOn_cons_eq_if_modifyHead]
      by_cases feed : c = '\n'
      · rw [if_pos feed, if_pos (by simp [feed])]
      · rw [if_neg feed, if_neg (by simp [feed])]
        cases cut : rest.splitOn '\n' with
        | nil => exact absurd cut (List.splitOn_ne_nil _ _)
        | cons first others => rfl

theorem Text.eq_append_iff (text more : String) : text = text ++ more ↔ more = "" := by
  rw [← String.toList_inj, String.toList_append, List.self_eq_append_right,
    String.toList_eq_nil_iff]

/-! ## Reports one after another -/

namespace Ending

theorem andThen_eq_success_iff (first second : Ending) :
    first.andThen second = .success ↔ first = .success ∧ second = .success := by
  cases first <;> cases second <;> decide

theorem andThen_eq_breakdown_iff (first second : Ending) :
    first.andThen second = .breakdown ↔ first = .breakdown ∨ second = .breakdown := by
  cases first <;> cases second <;> decide

theorem andThen_assoc (first second third : Ending) :
    (first.andThen second).andThen third = first.andThen (second.andThen third) := by
  cases first <;> cases second <;> cases third <;> rfl

theorem exitCode_eq_zero_iff (ending : Ending) : ending.exitCode = 0 ↔ ending = .success := by
  cases ending <;> decide

theorem exitCode_eq_breakdown_iff (ending : Ending) :
    ending.exitCode = 101 ↔ ending = .breakdown := by
  cases ending <;> decide

end Ending

namespace Report

theorem empty_append (report : Report) : append empty report = report := by
  simp [append, empty, Ending.andThen]

theorem append_of_breakdown {first second : Report} (broken : first.ending = .breakdown) :
    append first second = first :=
  if_pos broken

theorem append_of_not_breakdown {first second : Report} (alive : first.ending ≠ .breakdown) :
    append first second = ⟨first.output ++ second.output, first.errors ++ second.errors,
      first.ending.andThen second.ending⟩ :=
  if_neg alive

theorem ending_append (first second : Report) :
    (append first second).ending = first.ending.andThen second.ending := by
  by_cases broken : first.ending = .breakdown
  · rw [append_of_breakdown broken, broken, Ending.andThen]
  · rw [append_of_not_breakdown broken]

theorem append_assoc (first second third : Report) :
    append (append first second) third = append first (append second third) := by
  by_cases broken : first.ending = .breakdown
  · rw [append_of_breakdown broken, append_of_breakdown broken, append_of_breakdown broken]
  · by_cases alsoBroken : second.ending = .breakdown
    · have whole : (append first second).ending = .breakdown := by
        rw [ending_append, Ending.andThen_eq_breakdown_iff]
        exact .inr alsoBroken
      rw [append_of_breakdown whole, append_of_breakdown alsoBroken]
    · have whole : (append first second).ending ≠ .breakdown := by
        rw [Ne, ending_append, Ending.andThen_eq_breakdown_iff, not_or]
        exact ⟨broken, alsoBroken⟩
      rw [append_of_not_breakdown whole, append_of_not_breakdown broken,
        append_of_not_breakdown alsoBroken, append_of_not_breakdown broken]
      simp only [String.append_assoc, Ending.andThen_assoc]

theorem join_append (first second : List Report) :
    join (first ++ second) = append (join first) (join second) := by
  induction first with
  | nil => exact (empty_append _).symm
  | cons report rest ih =>
      calc join (report :: rest ++ second)
          = append report (join (rest ++ second)) := rfl
        _ = append (append report (join rest)) (join second) := by rw [ih, append_assoc]

/-- All went well if each run did. -/
theorem ending_join_eq_success_iff (reports : List Report) :
    (join reports).ending = .success ↔ ∀ report ∈ reports, report.ending = .success := by
  induction reports with
  | nil => simp [join, empty]
  | cons report rest ih =>
      calc (append report (join rest)).ending = .success
          ↔ report.ending = .success ∧ (join rest).ending = .success := by
            rw [ending_append, Ending.andThen_eq_success_iff]
        _ ↔ ∀ other ∈ report :: rest, other.ending = .success := by rw [ih, List.forall_mem_cons]

/-- The program breaks off if one of its runs does. -/
theorem ending_join_eq_breakdown_iff (reports : List Report) :
    (join reports).ending = .breakdown ↔ ∃ report ∈ reports, report.ending = .breakdown := by
  induction reports with
  | nil => simp [join, empty]
  | cons report rest ih =>
      calc (append report (join rest)).ending = .breakdown
          ↔ report.ending = .breakdown ∨ (join rest).ending = .breakdown := by
            rw [ending_append, Ending.andThen_eq_breakdown_iff]
        _ ↔ ∃ other ∈ report :: rest, other.ending = .breakdown := by
            rw [ih, List.exists_mem_cons_iff]

end Report

/-! ## Lines of a script -/

namespace Settings

/-- The expression of a line: what is left without the blanks around it, but nothing for a blank
line or a comment. -/
def expression? (line : List Char) : Option String :=
  let text := Text.trim line
  if text = [] ∨ text.head? = some '#' then none else some (String.ofList text)

/-- The expressions of the lines of a script. -/
def expressions (script : String) : List String :=
  (script.toList.splitOn '\n').filterMap expression?

/-- The expressions of two scripts with a line feed between them. -/
theorem expressions_append (first second : String) :
    expressions (first ++ "\n" ++ second) = expressions first ++ expressions second := by
  have split : (first ++ "\n" ++ second).toList = first.toList ++ '\n' :: second.toList := by
    simp
  rw [expressions, split, List.splitOn_append_cons_self, List.filterMap_append, expressions,
    expressions]

theorem map_scriptLines (script : String) :
    (scriptLines script).map String.ofList = expressions script := by
  rw [scriptLines, expressions, Text.lines_eq_splitOn]
  induction script.toList.splitOn '\n' with
  | nil => rfl
  | cons line rest ih =>
      rw [List.map_cons, List.filter_cons, List.filterMap_cons, ← ih, expression?]
      by_cases empty : Text.trim line = []
      · simp [empty]
      · by_cases comment : (Text.trim line).head? = some '#'
        · simp [comment]
        · simp [empty, comment]

/-- A script runs the expressions of its lines. -/
theorem runScript_eq (settings : Settings) (script : String) :
    settings.runScript script = .join ((expressions script).map settings.runExpression) := by
  rw [runScript, ← map_scriptLines, List.map_map]
  rfl

/-- The evaluation of a line breaks off. -/
def breaksOff (line : String) : Bool :=
  match evaluate line with
  | .ok _ => false
  | .error error => error.isFatal

/-- The lines that are run: all those up to the first one that breaks off. -/
def reached (lines : List String) : List String :=
  lines.take (lines.findIdx breaksOff + 1)

theorem breaksOff_iff (line : String) :
    breaksOff line = true ↔ ∃ shape, evaluate line = .error (.runtime (.outOfStorage shape)) := by
  rw [breaksOff]
  cases evaluate line with
  | ok value => simp
  | error error =>
      cases error with
      | parse error => simp [CalculationError.isFatal]
      | runtime error => cases error <;> simp [CalculationError.isFatal]

theorem reached_cons_of_breaksOff {line : String} (rest : List String)
    (broken : breaksOff line = true) : reached (line :: rest) = [line] := by
  simp [reached, List.findIdx_cons, broken]

theorem reached_cons_of_not_breaksOff {line : String} (rest : List String)
    (alive : breaksOff line = false) : reached (line :: rest) = line :: reached rest := by
  simp [reached, List.findIdx_cons, alive]

/-- All lines are run if none of them breaks off. -/
theorem reached_eq_self {lines : List String} (alive : ∀ line ∈ lines, breaksOff line = false) :
    reached lines = lines := by
  have length : lines.findIdx breaksOff = lines.length := by
    rw [List.findIdx_eq_length]
    exact alive
  rw [reached, length]
  exact List.take_of_length_le (Nat.le_succ _)

theorem ending_runExpression_eq_success_iff (settings : Settings) (line : String) :
    (settings.runExpression line).ending = .success ↔ ∃ value, evaluate line = .ok value := by
  rw [runExpression, answer]
  cases evaluate line with
  | ok value => simp [Except.map]
  | error error =>
      cases fatal : error.isFatal <;> simp [Except.map, fatal, Report.failure, Report.breakdown]

theorem ending_runExpression_eq_breakdown_iff (settings : Settings) (line : String) :
    (settings.runExpression line).ending = .breakdown ↔ breaksOff line = true := by
  rw [runExpression, answer, breaksOff]
  cases evaluate line with
  | ok value => simp [Except.map]
  | error error =>
      cases fatal : error.isFatal <;> simp [Except.map, fatal, Report.failure, Report.breakdown]

/-- On either output the texts of the lines that are run follow one another. -/
theorem join_map_runExpression (settings : Settings) (lines : List String) :
    (Report.join (lines.map settings.runExpression)).output =
      String.join ((reached lines).map fun line => (settings.runExpression line).output) ∧
    (Report.join (lines.map settings.runExpression)).errors =
      String.join ((reached lines).map fun line => (settings.runExpression line).errors) := by
  induction lines with
  | nil => exact ⟨rfl, rfl⟩
  | cons line rest ih =>
      have joined : Report.join ((line :: rest).map settings.runExpression) =
          .append (settings.runExpression line) (.join (rest.map settings.runExpression)) := rfl
      cases broken : breaksOff line with
      | true =>
          rw [joined, reached_cons_of_breaksOff rest broken, Report.append_of_breakdown
            ((ending_runExpression_eq_breakdown_iff settings line).2 broken)]
          simp
      | false =>
          have alive : (settings.runExpression line).ending ≠ .breakdown := by
            rw [Ne, ending_runExpression_eq_breakdown_iff, broken]
            exact Bool.false_ne_true
          rw [joined, reached_cons_of_not_breaksOff rest broken,
            Report.append_of_not_breakdown alive]
          simp [ih]

end Settings

namespace Invocation

open Settings (breaksOff expressions reached)

/-- An invocation of a script runs the expressions of its lines. -/
theorem run_script {invocation : Invocation} (file : invocation.isFile = true) (script : String) :
    invocation.run (some script) =
      .join ((expressions script).map invocation.settings.runExpression) := by
  rw [run, if_pos file]
  exact Settings.runScript_eq _ _

theorem run_append {invocation : Invocation} (file : invocation.isFile = true)
    (first second : String) :
    invocation.run (some (first ++ "\n" ++ second)) =
      .append (invocation.run (some first)) (invocation.run (some second)) := by
  rw [run_script file, run_script file, run_script file, Settings.expressions_append,
    List.map_append, Report.join_append]

/-- A script breaks off if one of its lines does. -/
theorem ending_run_eq_breakdown_iff {invocation : Invocation} (file : invocation.isFile = true)
    (script : String) :
    (invocation.run (some script)).ending = .breakdown ↔
      ∃ line ∈ expressions script, breaksOff line = true := by
  rw [run_script file, Report.ending_join_eq_breakdown_iff]
  simp [Settings.ending_runExpression_eq_breakdown_iff]

theorem ending_run_eq_success_iff {invocation : Invocation} (file : invocation.isFile = true)
    (script : String) :
    (invocation.run (some script)).ending = .success ↔
      ∀ line ∈ expressions script, ∃ value, evaluate line = .ok value := by
  rw [run_script file, Report.ending_join_eq_success_iff]
  simp [Settings.ending_runExpression_eq_success_iff]

/-- A line breaks off just if its evaluation finds no storage for a matrix. A script of two parts
with a line feed between them prints what the first part prints and then what the second does,
unless the first part breaks off, which ends the run; and it succeeds just if both parts do. Each
script prints what the expressions of its lines print, one after another up to the first that breaks
off. It succeeds just if all of them have values, and breaks off just if one of them does. -/
theorem script_by_lines (invocation : Invocation) (file : invocation.isFile = true) :
    (∀ line, breaksOff line = true ↔
      ∃ shape, evaluate line = .error (.runtime (.outOfStorage shape))) ∧
    (∀ first second,
      ((invocation.run (some (first ++ "\n" ++ second))).output =
          (invocation.run (some first)).output ++ (invocation.run (some second)).output ↔
        ((∃ line ∈ expressions first, breaksOff line = true) →
          (invocation.run (some second)).output = "")) ∧
      ((invocation.run (some (first ++ "\n" ++ second))).errors =
          (invocation.run (some first)).errors ++ (invocation.run (some second)).errors ↔
        ((∃ line ∈ expressions first, breaksOff line = true) →
          (invocation.run (some second)).errors = "")) ∧
      ((∃ line ∈ expressions first, breaksOff line = true) →
        invocation.run (some (first ++ "\n" ++ second)) = invocation.run (some first)) ∧
      ((invocation.run (some (first ++ "\n" ++ second))).ending.exitCode = 0 ↔
        (invocation.run (some first)).ending.exitCode = 0 ∧
          (invocation.run (some second)).ending.exitCode = 0)) ∧
    ∀ script,
      (invocation.run (some script)).output =
        String.join ((reached (expressions script)).map fun line =>
          (invocation.settings.runExpression line).output) ∧
      (invocation.run (some script)).errors =
        String.join ((reached (expressions script)).map fun line =>
          (invocation.settings.runExpression line).errors) ∧
      ((∀ line ∈ expressions script, breaksOff line = false) →
        reached (expressions script) = expressions script) ∧
      ((invocation.run (some script)).ending.exitCode = 0 ↔
        ∀ line ∈ expressions script, ∃ value, evaluate line = .ok value) ∧
      ((invocation.run (some script)).ending.exitCode = 101 ↔
        ∃ line ∈ expressions script, breaksOff line = true) := by
  refine ⟨Settings.breaksOff_iff, fun first second => ?_, fun script => ?_⟩
  · rw [run_append file, ← ending_run_eq_breakdown_iff file]
    have codes := Ending.andThen_eq_success_iff (invocation.run (some first)).ending
      (invocation.run (some second)).ending
    rw [← Report.ending_append, ← Ending.exitCode_eq_zero_iff, ← Ending.exitCode_eq_zero_iff,
      ← Ending.exitCode_eq_zero_iff] at codes
    by_cases broken : (invocation.run (some first)).ending = .breakdown
    · have whole : Report.append (invocation.run (some first)) (invocation.run (some second)) =
          invocation.run (some first) := Report.append_of_breakdown broken
      refine ⟨?_, ?_, fun _ => whole, codes⟩
      · rw [whole, Text.eq_append_iff]
        exact ⟨fun blank _ => blank, fun blank => blank broken⟩
      · rw [whole, Text.eq_append_iff]
        exact ⟨fun blank _ => blank, fun blank => blank broken⟩
    · refine ⟨?_, ?_, fun breaks => absurd breaks broken, codes⟩
      · simp [Report.append_of_not_breakdown broken, broken]
      · simp [Report.append_of_not_breakdown broken, broken]
  · have printed := Settings.join_map_runExpression invocation.settings (expressions script)
    rw [← run_script file] at printed
    refine ⟨printed.1, printed.2, Settings.reached_eq_self, ?_, ?_⟩
    · rw [Ending.exitCode_eq_zero_iff, ending_run_eq_success_iff file]
    · rw [Ending.exitCode_eq_breakdown_iff, ending_run_eq_breakdown_iff file]

/-- In a script with a comment, an incomplete sum, an empty line and an indented sum only the second
sum has a value. It is printed, and the exit code is not zero. -/
theorem script_by_lines_sums :
    (⟨⟨.standard, .hexadecimal⟩, true, "sums"⟩ : Invocation).isFile = true ∧
    expressions (" # sums\r\n1 +" ++ "\n" ++ "\r\n\t9 + 6 ") = ["1 +", "9 + 6"] ∧
    ((⟨⟨.standard, .hexadecimal⟩, true, "sums"⟩ : Invocation).run
      (some (" # sums\r\n1 +" ++ "\n" ++ "\r\n\t9 + 6 "))).output = "0x0F\n" ∧
    ((⟨⟨.standard, .hexadecimal⟩, true, "sums"⟩ : Invocation).run
      (some (" # sums\r\n1 +" ++ "\n" ++ "\r\n\t9 + 6 "))).ending.exitCode ≠ 0 := by
  have lines : expressions (" # sums\r\n1 +" ++ "\n" ++ "\r\n\t9 + 6 ") = ["1 +", "9 + 6"] := by
    decide +kernel
  have alive : ∀ line ∈ expressions " # sums\r\n1 +", breaksOff line ≠ true := by
    decide +kernel
  obtain ⟨-, parts, -⟩ := script_by_lines ⟨⟨.standard, .hexadecimal⟩, true, "sums"⟩ rfl
  obtain ⟨output, -, -, codes⟩ := parts " # sums\r\n1 +" "\r\n\t9 + 6 "
  refine ⟨rfl, lines, ?_, ?_⟩
  · rw [output.2 fun ⟨line, member, broken⟩ => absurd broken (alive line member)]
    decide +kernel
  · rw [Ne, codes]
    decide +kernel

/-- The product of a column and a row without elements has too many elements for the storage. A line
that asks for it ends the script, and the sum on the next line is not printed. -/
theorem breakdown_ends_script :
    let invocation : Invocation := ⟨⟨.standard, .decimal⟩, true, "product"⟩
    let product := "mat_det(mat_mul(matrix(2147483648, 0, set_diff(1, 1)), " ++
      "matrix(0, 2147483648, set_diff(1, 1))))"
    (invocation.run (some (product ++ "\n" ++ "1 + 1"))).output = "" ∧
      (invocation.run (some product)).output ++ (invocation.run (some "1 + 1")).output = "2\n" ∧
      (invocation.run (some (product ++ "\n" ++ "1 + 1"))).ending.exitCode = 101 := by
  decide +kernel

end Invocation

end Calculator
