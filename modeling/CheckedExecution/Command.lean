import CheckedExecution.Arithmetic
import CheckedExecution.FixedInt.Literal

/-!
# Commands

What the command line of the program can ask for, with the operands that each command takes. Numbers
to compute with are kept as text and read only when the command runs. Names, step counts and exit
codes are read with the command line.
-/

namespace CheckedExecution

/-- How a value is cast on the command line. -/
inductive CastPolicy where
  /-- The value, or a word for its absence. -/
  | fallible
  /-- The value, or a panic. -/
  | infallible
  /-- The nearest value. -/
  | saturating
  /-- The low bits. -/
  | truncating
  /-- The value, or an error. -/
  | attempt
  deriving DecidableEq

namespace CastPolicy

/-- Every policy. -/
def all : List CastPolicy :=
  [fallible, infallible, saturating, truncating, attempt]

/-- The word that selects the policy. -/
def name : CastPolicy → String
  | fallible => "fallible"
  | infallible => "infallible"
  | saturating => "saturating"
  | truncating => "truncating"
  | attempt => "try"

/-- The policy of a word, which is matched exactly. -/
def ofName? (text : String) : Option CastPolicy :=
  all.find? fun policy => policy.name == text

end CastPolicy

/-- A command with its operands. -/
inductive Command where
  /-- One checked operation. -/
  | arith (op : ArithmeticOp) (type : IntType) (lhs rhs : String)
  /-- One cast. -/
  | cast (policy : CastPolicy) (source target : IntType) (value : String)
  /-- One right shift. -/
  | shr (type : IntType) (value : String) (steps : FixedInt .u32)
  /-- The arguments of the program, one on a line. -/
  | args (rest : List String)
  /-- An exit code. -/
  | exit (code : FixedInt .i64)
  /-- An error. -/
  | fail (message : String)
  /-- The settings in effect, printed or written to a file. -/
  | config (init : Bool)
  deriving DecidableEq

/-- A command together with the options that hold for all commands. -/
structure Invocation where
  /-- Panics do not end the process, whatever the settings say. -/
  proceeds : Bool
  /-- The file of settings. -/
  settingsPath? : Option String
  command : Command
  deriving DecidableEq

end CheckedExecution
