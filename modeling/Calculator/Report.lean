import Calculator.Evaluation

/-!
# Reports

Running a text produces a report: what goes to the output, what goes to the error output, and how
the run ends. A script is run line by line; blank lines and lines that begin with `#` are skipped,
and a line that fails does not keep the others from running. A line that breaks off does: then the
program ends, and no later line is looked at.
-/

set_option autoImplicit false

namespace Calculator

/-- How a run ends: all went well, something failed, or the program broke off. -/
inductive Ending where
  | success
  | failure
  | breakdown
deriving DecidableEq, Repr

namespace Ending

/-- How two runs end, one after the other, if the first does not break off. -/
def andThen : Ending → Ending → Ending
  | success, second => second
  | failure, breakdown => breakdown
  | failure, _ => failure
  | breakdown, _ => breakdown

/-- The exit code of a run. -/
def exitCode : Ending → Nat
  | success => 0
  | failure => 1
  | breakdown => 101

end Ending

/-- The outcome of a run. -/
structure Report where
  output : String
  errors : String
  ending : Ending
deriving DecidableEq, Repr

namespace Report

/-- The report of a run that does nothing. -/
def empty : Report := ⟨"", "", .success⟩

/-- One run after another. There is no other one after a run that breaks off. -/
def append (first second : Report) : Report :=
  if first.ending = .breakdown then first
  else ⟨first.output ++ second.output, first.errors ++ second.errors,
    first.ending.andThen second.ending⟩

instance : Append Report := ⟨append⟩

/-- The report of the lines that were run, in order. -/
def join (reports : List Report) : Report := reports.foldr append empty

/-- The report of a message on the error output. -/
def failure (message : String) : Report := ⟨"", message ++ "\n", .failure⟩

/-- The report of a run that breaks off. Of the notice that is written then it holds the line with
the message. -/
def breakdown (message : String) : Report := ⟨"", message ++ "\n", .breakdown⟩

end Report

namespace Settings

/-- The report of a single expression. -/
def runExpression (settings : Settings) (text : String) : Report :=
  match settings.answer text with
  | .ok answer => ⟨answer.text ++ "\n", "", .success⟩
  | .error error =>
    if error.isFatal then .breakdown error.message else .failure ("Error: " ++ error.message)

/-- The expressions of a script: its lines without the blanks around them, but for the empty ones
and the comments. -/
def scriptLines (script : String) : List (List Char) :=
  ((Text.lines script.toList).map Text.trim).filter fun line =>
    !line.isEmpty && line.head? != some '#'

/-- The report of a script. -/
def runScript (settings : Settings) (script : String) : Report :=
  .join ((scriptLines script).map fun line => settings.runExpression (String.ofList line))

end Settings

/-- What the program is asked to do: the expression or the name of the script, and how to show
values. -/
structure Invocation where
  settings : Settings
  isFile : Bool
  contents : String
deriving DecidableEq, Repr

namespace Invocation

/-- The name of the script that an invocation needs, if it needs one. -/
def script? (invocation : Invocation) : Option String :=
  if invocation.isFile then some invocation.contents else none

/-- The report of an invocation, given the contents of its script if they can be read. -/
def run (invocation : Invocation) (script? : Option String) : Report :=
  if invocation.isFile then
    match script? with
    | some script => invocation.settings.runScript script
    | none => .failure
        s!"Failed to read the input file '{invocation.contents}'. Perhaps this file does not exist?"
  else invocation.settings.runExpression invocation.contents

end Invocation

end Calculator
