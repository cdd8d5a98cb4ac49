import CheckedExecution.Arithmetic
import CheckedExecution.Cast
import CheckedExecution.Execution
import CheckedExecution.PanicMode

/-!
# The supervisor

A supervisor reports panics on the diagnostic stream. In abort mode the process ends there. In the
other mode the caller goes on with a value that stands in for the missing result, and nothing marks
that value afterwards. A panic that leaves no value to go on with is fatal in both modes.
-/

namespace CheckedExecution

/-- The place where panics are reported, with what happens after a report. -/
structure Supervisor where
  mode : PanicMode
  deriving DecidableEq

/-- The end of a process after a fatal panic. -/
def Execution.fatal {α : Type} (message : String) : Execution α := do
  Execution.log .debug "tern_runtime::panic" ("aborting after fatal panic: " ++ message)
  Execution.terminate

namespace Supervisor

/-- A panic does not end the process. -/
def proceeds (s : Supervisor) : Bool :=
  s.mode = .proceed

/-- The line that reports a panic. -/
def panicLine (message : String) : String :=
  "Panic: " ++ message

/-- Reports the message, and comes back only where a panic does not end the process. -/
def panic (s : Supervisor) (message : String) : Execution Unit := do
  Execution.diagnose (panicLine message)
  match s.mode with
  | .proceed => pure ()
  | .abort => Execution.fatal message

/-- Reports the message and ends the process in both modes. -/
def panicUnrecoverable {α : Type} (s : Supervisor) (message : String) : Execution α := do
  s.panic message
  Execution.fatal message

variable {t : IntType}

/-- The result of the operation. A fault panics and then yields the fallback. -/
def checked (s : Supervisor) (op : ArithmeticOp) (a b : FixedInt t) : Execution (FixedInt t) :=
  match evaluate op a b with
  | .ok result => pure result
  | .error faulted => do
      s.panic faulted.fault.message
      pure faulted.fallback

/-- The sum. -/
def checkedAdd (s : Supervisor) (a b : FixedInt t) : Execution (FixedInt t) :=
  s.checked .add a b

/-- The difference. -/
def checkedSub (s : Supervisor) (a b : FixedInt t) : Execution (FixedInt t) :=
  s.checked .sub a b

/-- The product. -/
def checkedMul (s : Supervisor) (a b : FixedInt t) : Execution (FixedInt t) :=
  s.checked .mul a b

/-- The quotient. -/
def checkedDiv (s : Supervisor) (a b : FixedInt t) : Execution (FixedInt t) :=
  s.checked .div a b

/-- The remainder. -/
def checkedMod (s : Supervisor) (a b : FixedInt t) : Execution (FixedInt t) :=
  s.checked .mod a b

/-- The operation by its own name. -/
def operation (s : Supervisor) (op : ArithmeticOp) (a b : FixedInt t) : Execution (FixedInt t) :=
  match op with
  | .add => s.checkedAdd a b
  | .sub => s.checkedSub a b
  | .mul => s.checkedMul a b
  | .div => s.checkedDiv a b
  | .mod => s.checkedMod a b

/-- Under its own name each operation is what the shared definition makes of it. -/
@[simp]
theorem operation_eq (s : Supervisor) (op : ArithmeticOp) (a b : FixedInt t) :
    s.operation op a b = s.checked op a b := by
  cases op <;> rfl

/-- The value at the target type. A value that does not fit panics and then yields its low bits. -/
def infallibleCast {α : Type} [Castable α] (s : Supervisor) (target : IntType) (value : α) :
    Execution (FixedInt target) :=
  match tryCast target value with
  | .ok converted => pure converted
  | .error error => do
      s.panic error.message
      pure (truncatingCast target value)

end Supervisor

end CheckedExecution
