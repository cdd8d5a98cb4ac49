import CheckedExecution.Entry
import CheckedExecution.Session
import CheckedExecution.Supervisor.Step

/-!
# Calls in a session

Whatever a program asks of its session is a call. Most calls use the supervisor of the session and
so fix it; the others leave the session as it is. The calls of a program run one after another
until one of them ends the process (`Session.runAll`).
-/

namespace CheckedExecution.Session

/-- What a program asks of its session. -/
inductive Call where
  /-- Fixes the supervisor. -/
  | install (settings : Settings)
  /-- Fixes the supervisor through the exported symbol. -/
  | exportedInstall (proceeds : Bool)
  /-- Asks for the supervisor. -/
  | supervisor
  /-- A panic through the supervisor of the session. -/
  | emit (message : String)
  /-- A panic through the exported symbol, with a pointer to bytes or the null pointer. -/
  | exportedPanic (bytes? : Option (List UInt8))
  /-- A panic that leaves nothing to go on with. -/
  | panicUnrecoverable (message : String)
  /-- A panic through a supervisor that is not that of the session. -/
  | separatePanic (other : Supervisor) (message : String)
  /-- The result of an operation. -/
  | checked (op : ArithmeticOp) (type : IntType) (lhs rhs : FixedInt type)
  /-- A value at a target type. -/
  | cast (target : IntType) (source : TypedInt)
  /-- The result of an operation through its exported symbol. -/
  | exportedChecked (symbol : ArithmeticExport) (lhs rhs : FixedInt symbol.type)
  /-- The right shift through its exported symbol. -/
  | exportedShift (type : IntType) (value : FixedInt type) (steps : Nat)
  /-- A signal is resolved outside of any loop. -/
  | functionStep (signal : Signal String String)
  /-- A main function is run on arguments. -/
  | entry (arguments : List String) (type : IntType)
      (main : List String → Except String (FixedInt type))

/-- What a call answers. -/
inductive Answer where
  /-- An installation was accepted or refused. -/
  | installed (accepted : Bool)
  /-- The supervisor of the session. -/
  | supervisor (s : Supervisor)
  /-- A panic came back. -/
  | returned
  /-- An integer. -/
  | value (result : TypedInt)
  /-- The value of a signal, or the payload that the function returns. -/
  | resolved (outcome : Except String String)
  /-- The exit code of a main function. -/
  | exitCode (code : FixedInt .u8)

/-- What a call does. -/
def Call.perform : Call → Action Answer
  | .install settings => .installed <$> Session.install settings
  | .exportedInstall proceeds => .installed <$> callInstall proceeds
  | .supervisor => .supervisor <$> Session.supervisor
  | .emit message => (fun _ => .returned) <$> Session.emit message
  | .exportedPanic bytes? => (fun _ => .returned) <$> callPanic bytes?
  | .panicUnrecoverable message => do (← Session.supervisor).panicUnrecoverable message
  | .separatePanic other message => do
      other.panic message
      return .returned
  | .checked op type lhs rhs => (fun r => .value ⟨type, r⟩) <$> Session.operation op lhs rhs
  | .cast target source =>
      (fun r => .value ⟨target, r⟩) <$> Session.infallibleCast target source.value
  | .exportedChecked symbol lhs rhs => (fun r => .value ⟨symbol.type, r⟩) <$> symbol.call lhs rhs
  | .exportedShift type value steps => (fun r => .value ⟨type, r⟩) <$> callShift value steps
  | .functionStep signal => .resolved <$> Session.functionStep signal
  | .entry arguments _ main => .exitCode <$> Entry.run arguments fun given => return main given

/-- The runs of actions one after another from a session on, up to the one that ends the process.
Each begins with the session that the one before it left. -/
def runAll {α : Type} : List (Action α) → Session → List (Execution (α × Session))
  | [], _ => []
  | action :: rest, p =>
      let execution := action.run p
      execution ::
        match execution.value? with
        | none => []
        | some (_, following) => runAll rest following

/-- The runs of calls one after another, up to the one that ends the process. -/
def performAll (calls : List Call) (p : Session) : List (Execution (Answer × Session)) :=
  runAll (calls.map Call.perform) p

end CheckedExecution.Session
