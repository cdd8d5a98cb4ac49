import CheckedExecution.Command
import CheckedExecution.CommandLine.Reading
import CheckedExecution.Entry
import CheckedExecution.Session

/-!
# The program

The program reads its command line, settles on a panic mode, installs the supervisor and runs one
command. The mode comes from the option of the command line, else from the variable of the
environment, else from the file of settings that is named or found nearest, else from the build. A
command line that is rejected ends the program with its own exit code, and every other failure is
reported and ends it with the code of an error.

The reader of the command line and that of JSON word their reports themselves. Their texts are a
parameter of the program (`Wording`).
-/

namespace CheckedExecution

/-- Why a command cannot be carried out. -/
inductive Failure where
  | literal (cause : LiteralError)
  | cast (cause : CastError)
  | settings (cause : SettingsError)
  /-- The named file of settings cannot be had. -/
  | unloadable (path : String) (cause : SettingsError)
  /-- The file of settings cannot be written. -/
  | unwritable (path : String) (cause : SettingsError)
  /-- There is a file of settings already. -/
  | alreadyExists (path : String)
  /-- The supervisor was fixed with another mode. -/
  | alreadyInstalled (installed wanted : PanicMode)
  /-- The command was to fail. -/
  | requested (message : String)
  deriving DecidableEq

/-- The texts that the readers of the command line and of JSON write. -/
class Wording where
  /-- The lines of help for the words after the program's name. -/
  help : List String → List String
  /-- The lines that report why these words are rejected. -/
  rejection : List String → Rejection → List String
  /-- What is said in detail of a text that no settings are read from. -/
  detail : String

/-- The report of a failure. A failure to load or to write names the file and not the cause. -/
def Failure.message [Wording] : Failure → String
  | literal cause => cause.message
  | cast cause => cause.message
  | settings cause => cause.message Wording.detail
  | unloadable path _ => "Failed to load " ++ path
  | unwritable path _ => "Failed to write " ++ path
  | alreadyExists path => path ++ " already exists"
  | alreadyInstalled installed wanted =>
      "Runtime already installed with panic mode " ++ installed.label ++ ", cannot apply " ++
        wanted.label
  | requested message => message

/-- A failure is shown by its report. -/
instance [Wording] : ToString Failure :=
  ⟨Failure.message⟩

namespace Program

/-- The name under which the program is called. -/
def name : String :=
  "tern"

/-- The part of the program that the log names for commands. -/
def logTarget : String :=
  "tern"

/-- The line that the program answers a request for its version with. -/
def versionLine : String :=
  name ++ " 0.2.0"

/-- The exit code of a rejected command line. -/
def usageCode : FixedInt .i64 :=
  FixedInt.wrap .i64 2

/-- What a command does, with a failure in place of its exit code where it cannot be done. -/
abbrev Action := ExceptT Failure Session.Action

/-- A step that cannot fail. -/
def lift {α : Type} (x : Session.Action α) : Action α :=
  ExceptT.lift x

/-- A result that may be an error, the error told as a failure. -/
def orFail {ε α : Type} (failure : ε → Failure) (x : Except ε α) : Action α :=
  ExceptT.mk (pure (x.mapError failure))

/-- A line on the output stream. -/
def print (line : String) : Action Unit :=
  lift (Execution.print line)

/-! ## Settling on a mode -/

/-- The settings of the file that is named, or else of the nearest one. -/
def loadSettings (path? : Option String) : Action Settings := do
  let s ← lift get
  match path? with
  | some text =>
      let loaded ← lift
        (Settings.loadFile s.buildDefault s.files s.current (Path.ofText text) text)
      orFail (.unloadable text) loaded
  | none =>
      let loaded ← lift
        (Settings.loadDirectory s.buildDefault s.files s.current (Path.ofNames s.current))
      orFail .settings loaded

/-- The settings that an invocation runs under. -/
def effectiveSettings (i : Invocation) : Action Settings := do
  let loaded ← loadSettings i.settingsPath?
  let s ← lift get
  let settings ← lift (Settings.applyVariable loaded (Settings.variableText? s.variableBytes))
  return if i.proceeds then ⟨.proceed⟩ else settings

/-- Installs the supervisor. It is a failure if one with another mode is in place. -/
def installSupervisor (settings : Settings) : Action Unit := do
  lift (Execution.log .info logTarget ("panic mode: " ++ settings.panicMode.label))
  if !(← lift (Session.install settings)) then
    let installed := (← lift Session.supervisor).mode
    if installed ≠ settings.panicMode then
      throw (.alreadyInstalled installed settings.panicMode)

/-! ## Commands -/

/-- The value of an operand. -/
def literal (t : IntType) (text : String) : Action (FixedInt t) :=
  orFail .literal (FixedInt.ofLiteral t text)

/-- The text of one checked operation. -/
def arith (op : ArithmeticOp) (t : IntType) (lhs rhs : String) : Action String := do
  let a ← literal t lhs
  let b ← literal t rhs
  return (← lift (Session.checked op a b)).toDecimal

/-- The word for the absence of a value. -/
def absentWord : String :=
  "none"

/-- The text of one cast. -/
def cast (policy : CastPolicy) (source target : IntType) (text : String) : Action String := do
  let value ← literal source text
  match policy with
  | .fallible =>
      return match fallibleCast target value with
        | some converted => converted.toDecimal
        | none => absentWord
  | .infallible => return (← lift (Session.infallibleCast target value)).toDecimal
  | .saturating => return (saturatingCast target value).toDecimal
  | .truncating => return (truncatingCast target value).toDecimal
  | .attempt => return (← orFail .cast (tryCast target value)).toDecimal

/-- The text of one right shift. -/
def shift (t : IntType) (text : String) (steps : FixedInt .u32) : Action String := do
  let value ← literal t text
  return (value.arithmeticShiftRight steps.toInt.toNat).toDecimal

/-- Writes the settings to a new file in the current directory. -/
def initSettings (settings : Settings) : Action Unit := do
  let s ← lift get
  let path := (Path.ofNames s.current).entry Settings.fileName
  if s.files.exists? s.current path then throw (.alreadyExists path.text)
  let files ← orFail (.unwritable path.text) (settings.save s.files s.current path)
  lift (set { s with files := files })
  print ("Created " ++ path.text)

/-- Carries out a command. The arguments are those of the program, its name first. -/
def carryOut (arguments : List String) (settings : Settings) :
    Command → Action (FixedInt .i64)
  | .arith op type lhs rhs => do
      print (← arith op type lhs rhs)
      return FixedInt.zero .i64
  | .cast policy source target value => do
      print (← cast policy source target value)
      return FixedInt.zero .i64
  | .shr type value steps => do
      print (← shift type value steps)
      return FixedInt.zero .i64
  | .args rest => do
      lift (Execution.log .debug logTarget
        (String.ofList (Decimal.digits rest.length) ++ " argument(s) after the subcommand"))
      for argument in arguments do
        print argument
      return FixedInt.zero .i64
  | .exit code => return code
  | .fail message => throw (.requested message)
  | .config true => do
      initSettings settings
      return FixedInt.zero .i64
  | .config false => do
      print settings.toJson
      return FixedInt.zero .i64

/-- Settles on a mode, installs the supervisor and carries out the command. -/
def invoke (arguments : List String) (i : Invocation) : Action (FixedInt .i64) := do
  let settings ← effectiveSettings i
  installSupervisor settings
  carryOut arguments settings i.command

/-- What the program does with its arguments, its name first. -/
def program [Wording] (arguments : List String) : Action (FixedInt .i64) :=
  let words := arguments.drop 1
  match Request.ofWords words with
  | .run i => invoke arguments i
  | .help => do
      for line in Wording.help words do
        print line
      return FixedInt.zero .i64
  | .version => do
      print versionLine
      return FixedInt.zero .i64
  | .rejected why => do
      for line in Wording.rejection words why do
        lift (Execution.diagnose line)
      return usageCode

/-- A run of the program on the arguments of its process, its name first. -/
def run [Wording] (raw : List (List UInt8)) : Session.Action (FixedInt .u8) :=
  Entry.runProcess raw fun (arguments : List String) => (program arguments).run

end Program

end CheckedExecution
