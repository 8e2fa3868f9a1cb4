import Calculator.Report

/-!
# The command line

This is the outer layer of the program: it reads the arguments, and only `main` depends on it.

The arguments are options and words. `-m` and `-b`, or `--mode` and `--base`, take a value, either
attached or as the next argument; `-f` or `--file` takes none, and short options may share one
dash. After `--` every argument is a word, and a single dash is always one. No option may be given
twice, and at least one word is needed. `-h` or `--help` and `-V` or `--version` ask what the
program is, and what comes after them is not read.

The words, joined by spaces, are the expression to evaluate or, with `-f`, the name of a script.
-/

set_option autoImplicit false

namespace Calculator.CommandLine

/-- What has been read of the arguments: the values of the options, whether the words name a
script, and the words in reverse order. -/
structure Options where
  mode? : Option Mode
  base? : Option Base
  isFile : Bool
  words : List String
deriving DecidableEq, Repr

/-- The options before any argument is read. -/
def Options.initial : Options := ⟨none, none, false, []⟩

/-- An option that takes a value. -/
inductive Setting where
  | mode
  | base
deriving DecidableEq, Repr

/-- What an argument asks for. -/
inductive Argument where
  | word (text : String)
  | endOfOptions
  /-- The options of one argument: whether it sets the file flag and how often, and the setting at
  its end with the value attached to it, if there is one. -/
  | options (fileFlags : Nat) (setting? : Option (Setting × Option String))
  /-- What the program is, after some file flags of the same argument. -/
  | information (fileFlags : Nat)
  | unknown
deriving DecidableEq, Repr

namespace Argument

/-- The setting with a given letter. -/
def settingOfLetter? : Char → Option Setting
  | 'm' => some .mode
  | 'b' => some .base
  | _ => none

/-- The text attached to the letter of a setting, without the `=` that may come first. -/
def attached? : List Char → Option String
  | [] => none
  | '=' :: rest => some (String.ofList rest)
  | text => some (String.ofList text)

/-- The letters after a single dash, after some file flags have been read. -/
def ofLetters (fileFlags : Nat) : List Char → Argument
  | [] => .options fileFlags none
  | 'f' :: rest => ofLetters (fileFlags + 1) rest
  | 'h' :: _ | 'V' :: _ => .information fileFlags
  | letter :: rest =>
    match settingOfLetter? letter with
    | some setting => .options fileFlags (some (setting, attached? rest))
    | none => .unknown

/-- The text after two dashes: a name, and a value after an `=`. -/
def ofLongName (text : List Char) : Argument :=
  let name := String.ofList (text.takeWhile (· != '='))
  let value? := match text.dropWhile (· != '=') with
    | _ :: value => some (String.ofList value)
    | [] => none
  if name = "mode" then .options 0 (some (.mode, value?))
  else if name = "base" then .options 0 (some (.base, value?))
  else if name = "file" ∧ value? = none then .options 1 none
  else if (name = "help" ∨ name = "version") ∧ value? = none then .information 0
  else .unknown

/-- What an argument before `--` asks for. -/
def ofText (text : String) : Argument :=
  match text.toList with
  | ['-', '-'] => .endOfOptions
  | '-' :: '-' :: name => ofLongName name
  | ['-'] => .word text
  | '-' :: letters => ofLetters 0 letters
  | _ => .word text

end Argument

/-- Why there is nothing to run: the arguments cannot be understood, or they ask what the program
is. -/
inductive Stop where
  | usage
  | information
deriving DecidableEq, Repr

/-- The exit code without a run. -/
def Stop.exitCode : Stop → Nat
  | usage => 2
  | information => 0

namespace Options

/-- The options with one more setting; it must not have been given before, and its value must be
one. -/
def set (options : Options) (setting : Setting) (value : String) : Except Stop Options :=
  match setting with
  | .mode =>
    match options.mode?, Mode.ofText value with
    | none, .ok mode => .ok { options with mode? := some mode }
    | _, _ => .error .usage
  | .base =>
    match options.base?, Base.ofText value with
    | none, .ok base => .ok { options with base? := some base }
    | _, _ => .error .usage

/-- The options with some more file flags; there must not be two of them. -/
def addFileFlags (options : Options) : Nat → Except Stop Options
  | 0 => .ok options
  | 1 => if options.isFile then .error .usage else .ok { options with isFile := true }
  | _ => .error .usage

/-- The options with one more word. -/
def addWord (options : Options) (word : String) : Options :=
  { options with words := word :: options.words }

end Options

/-- Reads the arguments one after the other. The value of a setting is attached to it or the next
argument, which then must be a word by its form. -/
def readOptions (options : Options) : List String → Except Stop Options
  | [] => .ok options
  | text :: rest =>
    match Argument.ofText text with
    | .word word => readOptions (options.addWord word) rest
    | .endOfOptions => .ok (rest.foldl Options.addWord options)
    | .unknown => .error .usage
    | .information fileFlags => do
      let _ ← options.addFileFlags fileFlags
      throw .information
    | .options fileFlags none => do
      let options ← options.addFileFlags fileFlags
      readOptions options rest
    | .options fileFlags (some (setting, some value)) => do
      let options ← options.addFileFlags fileFlags
      let options ← options.set setting value
      readOptions options rest
    | .options fileFlags (some (setting, none)) => do
      let options ← options.addFileFlags fileFlags
      match rest with
      | [] => throw .usage
      | next :: rest =>
        match Argument.ofText next with
        | .word value =>
          let options ← options.set setting value
          readOptions options rest
        | _ => throw .usage

/-- The invocation that a list of arguments spells. -/
def parse (arguments : List String) : Except Stop Invocation := do
  let options ← readOptions .initial arguments
  if options.words.isEmpty then throw .usage
  return {
    settings := ⟨options.mode?.getD .standard, options.base?.getD .decimal⟩
    isFile := options.isFile
    contents := String.intercalate " " options.words.reverse }

end Calculator.CommandLine
