import CheckedExecution.Supervisor

/-!
# Steps under a supervisor

Everything that a program asks of a supervisor is one of four steps, and a program is a list of
them. A supervisor keeps nothing from one step to the next, so the runs of the steps are the same in
any company; only the process may end between them.
-/

namespace CheckedExecution

/-- An integer together with its type. -/
structure TypedInt where
  type : IntType
  value : FixedInt type
  deriving DecidableEq

/-- What is asked of a supervisor. -/
inductive Supervisor.Step where
  /-- The result of an operation. -/
  | checked (op : ArithmeticOp) (type : IntType) (lhs rhs : FixedInt type)
  /-- A value at a target type. -/
  | cast (target : IntType) (source : TypedInt)
  /-- A panic that the program may survive. -/
  | panic (message : String)
  /-- A panic that leaves nothing to go on with. -/
  | panicUnrecoverable (message : String)
  deriving DecidableEq

namespace Supervisor

/-- The run of a step, with the value that it yields. A panic yields none. -/
def perform (s : Supervisor) : Step → Execution (Option TypedInt)
  | .checked op type lhs rhs => (fun result => some ⟨type, result⟩) <$> s.operation op lhs rhs
  | .cast target source =>
      (fun result => some ⟨target, result⟩) <$> s.infallibleCast target source.value
  | .panic message => (fun _ => none) <$> s.panic message
  | .panicUnrecoverable message => s.panicUnrecoverable message

/-- The runs of steps one after another, up to the one that ends the process. -/
def performAll (s : Supervisor) (steps : List Step) : List (Execution (Option TypedInt)) :=
  Execution.upToTermination (steps.map s.perform)

/-- The steps as one run, with the values that they yield. -/
def sequence (s : Supervisor) (steps : List Step) : Execution (List (Option TypedInt)) :=
  steps.mapM s.perform

end Supervisor

end CheckedExecution
