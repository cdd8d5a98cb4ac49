import CheckedExecution.Command
import CheckedExecution.CommandLine.Word

/-!
# Commands on the command line

Every command has a name, its operands in order and the options that may stand among them. An
operand says which words it accepts and whether they may begin with a dash.
-/

namespace CheckedExecution.CommandLine

/-- The kinds of operands. -/
inductive Operand where
  | operation
  | type
  | policy
  /-- A number to compute with. -/
  | number
  /-- A number of steps. -/
  | steps
  /-- An exit code. -/
  | code
  | message
  /-- Every word from here on. -/
  | rest
  deriving DecidableEq

/-- The number of steps that a word writes. -/
def steps? (word : String) : Option (FixedInt .u32) :=
  (FixedInt.ofDecimal? .i64 word.toList).bind fun value => FixedInt.ofInt? .u32 value.toInt

/-- The exit code that a word writes. -/
def code? (word : String) : Option (FixedInt .i64) :=
  FixedInt.ofDecimal? .i64 word.toList

namespace Operand

/-- A word that begins with a dash may be this operand. -/
def mayBeginWithDash : Operand → Bool
  | number | code | rest => true
  | operation | type | policy | steps | message => false

/-- The word can be this operand. -/
def accepts (operand : Operand) (word : String) : Bool :=
  match operand with
  | operation => (ArithmeticOp.ofName? word).isSome
  | type => (IntType.ofName? word).isSome
  | policy => (CastPolicy.ofName? word).isSome
  | steps => (steps? word).isSome
  | code => (code? word).isSome
  | number | message | rest => true

end Operand

/-- The commands. -/
inductive CommandName where
  | arith | cast | shr | args | exit | fail | config
  deriving DecidableEq

namespace CommandName

/-- Every command. -/
def all : List CommandName :=
  [arith, cast, shr, args, exit, fail, config]

/-- The word that selects the command. -/
def text : CommandName → String
  | arith => "arith"
  | cast => "cast"
  | shr => "shr"
  | args => "args"
  | exit => "exit"
  | fail => "fail"
  | config => "config"

/-- The command of a word, which is matched exactly. -/
def ofText? (text : String) : Option CommandName :=
  all.find? fun command => command.text == text

/-- The operands of the command in order. -/
def operands : CommandName → List Operand
  | arith => [.operation, .type, .number, .number]
  | cast => [.policy, .type, .type, .number]
  | shr => [.type, .number, .steps]
  | args => [.rest]
  | exit => [.code]
  | fail => [.message]
  | config => []

/-- The options that may stand after the command. -/
def switches : CommandName → List Switch
  | config => [.proceeds, .settingsPath, .help, .init]
  | _ => [.proceeds, .settingsPath, .help]

/-- The command with the operands that were read. -/
def command? (name : CommandName) (init : Bool) (words : List String) : Option Command :=
  match name, words with
  | arith, [op, type, lhs, rhs] => do
      return .arith (← ArithmeticOp.ofName? op) (← IntType.ofName? type) lhs rhs
  | cast, [policy, source, target, value] => do
      return .cast (← CastPolicy.ofName? policy) (← IntType.ofName? source)
        (← IntType.ofName? target) value
  | shr, [type, value, steps] => do
      return .shr (← IntType.ofName? type) value (← steps? steps)
  | args, rest => some (.args rest)
  | exit, [code] => do return .exit (← code? code)
  | fail, [message] => some (.fail message)
  | config, [] => some (.config init)
  | _, _ => none

end CommandName

end CheckedExecution.CommandLine
