import CheckedExecution.CommandLine.Grammar

/-!
# Reading a command line

The words of a command line are read from left to right. Options may stand before the command or
among its operands, and two dashes end them. An operand that may begin with a dash takes every word
that is no option of the command, and the last operand of `args` takes all words after its first.

Reading stops at the first request for help or for the version, and at the first word that is out of
place. An operand is checked when it is read. The value of `--config` in a word of its own is
checked only when the next option or operand is read, or at the end, and a command is read before
the end: so a request for help after the command is answered even when that value is bad.
-/

namespace CheckedExecution

/-- Why a command line is rejected. -/
inductive Rejection where
  | missingCommand
  | unknownCommand (word : String)
  | unknownOption (word : String)
  | repeatedOption (option : String)
  | missingValue (option : String)
  | surplusValue (option : String)
  | emptyValue (option : String)
  | missingOperand
  | surplusOperand (word : String)
  | invalidOperand (word : String)
  deriving DecidableEq

namespace CommandLine

/-- What ends the reading of a command line early. -/
inductive Stop where
  | help
  | version
  | rejected (why : Rejection)
  deriving DecidableEq

/-- The value of `--config` in a word of its own. -/
inductive PathWord where
  /-- No such value is open. -/
  | absent
  /-- The next word is the value. -/
  | expected
  /-- The word was read and is still to be checked. -/
  | given (text : String)
  deriving DecidableEq

/-- What has been read so far. -/
structure Progress where
  operands : List String
  proceeds : Bool
  init : Bool
  path? : Option String
  pathWord : PathWord
  deriving DecidableEq

/-- Nothing has been read. -/
def Progress.none : Progress :=
  ⟨[], false, false, Option.none, .absent⟩

/-- A reading that may be stopped. -/
abbrev Reading := Except Stop

/-- The command line is rejected. -/
def reject {α : Type} (why : Rejection) : Reading α :=
  .error (.rejected why)

namespace Progress

/-- The path of the settings is given. -/
def setPath (p : Progress) (text : String) : Reading Progress :=
  if p.path?.isSome then reject (.repeatedOption Switch.settingsPath.text)
  else if text = "" then reject (.emptyValue Switch.settingsPath.text)
  else .ok { p with path? := some text }

/-- A value of `--config` that is still open is checked. -/
def settle (p : Progress) : Reading Progress :=
  match p.pathWord with
  | .absent => .ok p
  | .expected => reject (.missingValue Switch.settingsPath.text)
  | .given text => { p with pathWord := .absent }.setPath text

/-- An option is given, perhaps with a value attached to it. -/
def switch (p : Progress) (s : Switch) (attached? : Option String) : Reading Progress := do
  match s, attached? with
  | .settingsPath, some text => (← p.settle).setPath text
  | .settingsPath, Option.none => return { (← p.settle) with pathWord := .expected }
  | _, some _ => reject (.surplusValue s.text)
  | .proceeds, Option.none =>
      let p ← p.settle
      if p.proceeds then reject (.repeatedOption s.text) else return { p with proceeds := true }
  | .init, Option.none =>
      let p ← p.settle
      if p.init then reject (.repeatedOption s.text) else return { p with init := true }
  | .help, Option.none =>
      let _ ← p.settle
      .error .help
  | .version, Option.none =>
      let _ ← p.settle
      .error .version

/-- A word of short options is given. -/
def letters (p : Progress) (switches : List Switch) (letters : List Char) : Reading Progress :=
  letters.foldlM (fun p letter =>
    match switches.find? fun s => s.letter? == some letter with
    | some s => p.switch s Option.none
    | Option.none => reject (.unknownOption (String.ofList ['-', letter]))) p

/-- The operand that the next word would be. The last one may take any number of words. -/
def nextOperand? (p : Progress) (operands : List Operand) : Option Operand :=
  match operands[p.operands.length]? with
  | some operand => some operand
  | Option.none => if operands.getLast? = some .rest then some .rest else Option.none

/-- A word is given as an operand. -/
def operand (operands : List Operand) (p : Progress) (word : String) : Reading Progress := do
  let p ← p.settle
  match p.nextOperand? operands with
  | Option.none => reject (.surplusOperand word)
  | some operand =>
      if operand.accepts word then return { p with operands := p.operands ++ [word] }
      else reject (.invalidOperand word)

end Progress

/-- Every word is an operand, up to the end. -/
def readOperands (operands : List Operand) (words : List String) (p : Progress) :
    Reading Progress := do
  (← words.foldlM (Progress.operand operands) p).settle

/-- The words after a command, up to the end. -/
def readWords (switches : List Switch) (operands : List Operand) :
    List String → Progress → Reading Progress
  | [], p => p.settle
  | text :: rest, p =>
      let next? := p.nextOperand? operands
      let dashed := (next?.map Operand.mayBeginWithDash).getD false
      let take : Reading Progress :=
        if p.pathWord = .expected then
          readWords switches operands rest { p with pathWord := .given text }
        else do
          let p ← p.operand operands text
          if next? = some .rest then readOperands operands rest p
          else readWords switches operands rest p
      match Word.ofText text with
      | .plain => take
      | .escape => readOperands operands rest p
      | .long name value? =>
          match switches.find? fun s => s.name == name with
          | some s => do readWords switches operands rest (← p.switch s value?)
          | none => if dashed then take else reject (.unknownOption text)
      | .short letters =>
          if dashed ∧ letters.any fun l => !switches.any fun s => s.letter? == some l then take
          else do readWords switches operands rest (← p.letters switches letters)

/-- The options that may stand before the command. -/
def leadingSwitches : List Switch :=
  [.proceeds, .settingsPath, .help, .version]

/-- The word that asks for help in place of a command. -/
def helpWord : String :=
  "help"

/-- The words after the word for help name a command, or nothing. -/
def readHelp {α : Type} : List String → Reading α
  | [] => .error .help
  | word :: rest =>
      if (CommandName.ofText? word).isNone ∧ word ≠ helpWord then reject (.unknownCommand word)
      else
        match rest with
        | [] => .error .help
        | surplus :: _ => reject (.unknownCommand surplus)

/-- The options before the command, the command, and the words after it. -/
def readLeading : List String → Progress → Reading (Progress × CommandName × List String)
  | [], _ => reject .missingCommand
  | text :: rest, p =>
      if p.pathWord ≠ .expected ∧ text = helpWord then readHelp rest
      else
        match Word.ofText text with
        | .escape => reject .missingCommand
        | .long name value? =>
            match leadingSwitches.find? fun s => s.name == name with
            | some s => do readLeading rest (← p.switch s value?)
            | none => reject (.unknownOption text)
        | .short letters => do readLeading rest (← p.letters leadingSwitches letters)
        | .plain =>
            if p.pathWord = .expected then readLeading rest { p with pathWord := .given text }
            else
              match CommandName.ofText? text with
              | some name => .ok (p, name, rest)
              | none => reject (.unknownCommand text)

/-- The invocation that the words after the program's name write. An option after the command counts
before the same option in front of it. -/
def readInvocation (words : List String) : Reading Invocation := do
  let (leading, name, rest) ← readLeading words .none
  let p ← readWords name.switches name.operands rest .none
  match name.command? p.init p.operands with
  | none => reject .missingOperand
  | some command =>
      let leading ← leading.settle
      return ⟨leading.proceeds || p.proceeds, p.path?.orElse fun _ => leading.path?, command⟩

end CommandLine

/-- What a command line asks for. -/
inductive Request where
  | run (invocation : Invocation)
  | help
  | version
  | rejected (why : Rejection)
  deriving DecidableEq

/-- What the words after the program's name ask for. -/
def Request.ofWords (words : List String) : Request :=
  match CommandLine.readInvocation words with
  | .ok invocation => .run invocation
  | .error .help => .help
  | .error .version => .version
  | .error (.rejected why) => .rejected why

end CheckedExecution
