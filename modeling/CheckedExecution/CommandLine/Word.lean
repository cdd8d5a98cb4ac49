/-!
# Words of a command line

A word is told apart by its leading dashes: two dashes alone, a long option that may carry a value
after an equals sign, a group of short options, or anything else. The options themselves have a long
name, and two of them a letter.
-/

namespace CheckedExecution.CommandLine

/-- A word by its leading dashes. -/
inductive Word where
  /-- Two dashes alone. -/
  | escape
  /-- A long option, with a value attached after an equals sign. -/
  | long (name : String) (value? : Option String)
  /-- One or more short options. -/
  | short (letters : List Char)
  /-- Anything else, a single dash and the empty word included. -/
  | plain
  deriving DecidableEq

/-- The word that a text is. -/
def Word.ofText (text : String) : Word :=
  match text.toList with
  | ['-', '-'] => escape
  | '-' :: '-' :: rest =>
      let name := String.ofList (rest.takeWhile (· ≠ '='))
      match rest.dropWhile (· ≠ '=') with
      | [] => long name none
      | _ :: value => long name (some (String.ofList value))
  | '-' :: letter :: rest => short (letter :: rest)
  | _ => plain

/-- The options. -/
inductive Switch where
  | proceeds
  | settingsPath
  | init
  | help
  | version
  deriving DecidableEq

/-- The long name of an option. -/
def Switch.name : Switch → String
  | proceeds => "continue-on-panic"
  | settingsPath => "config"
  | init => "init"
  | help => "help"
  | version => "version"

/-- The option as it is written. -/
def Switch.text (s : Switch) : String :=
  "--" ++ s.name

/-- The letter of an option that has one. -/
def Switch.letter? : Switch → Option Char
  | help => some 'h'
  | version => some 'V'
  | _ => none

end CheckedExecution.CommandLine
