import CheckedExecution.Supervisor

/-!
# What a panic leaves behind

A panic writes its line in both modes. What follows is all that the modes differ in: in the one the
caller goes on, and in the other the process ends with a record in the log. The lemmas below give
the run of each primitive, so that later proofs need not open them.
-/

namespace CheckedExecution.Supervisor

/-- The supervisor under which a process goes on after a panic. -/
abbrev proceeding : Supervisor := ⟨.proceed⟩

/-- The supervisor under which a process ends after a panic. -/
abbrev aborting : Supervisor := ⟨.abort⟩

/-- The record that the log gets when a process ends after a panic. -/
def fatalRecord (message : String) : LogRecord :=
  ⟨.debug, "tern_runtime::panic", "aborting after fatal panic: " ++ message⟩

/-- In the mode that goes on, a panic is its line. -/
theorem panic_proceed (message : String) :
    proceeding.panic message = ⟨[.diagnostic (panicLine message)], some ()⟩ := rfl

/-- In abort mode the process ends after the line. -/
theorem panic_abort (message : String) :
    aborting.panic message =
      ⟨[.diagnostic (panicLine message), .logged (fatalRecord message)], none⟩ := rfl

/-- A panic writes one line, whatever it yields afterwards. -/
theorem diagnostics_panic_bind_pure {α : Type} (s : Supervisor) (message : String) (value : α) :
    (s.panic message >>= fun _ => pure value).diagnostics = [panicLine message] := by
  obtain ⟨mode⟩ := s
  cases mode <;> rfl

/-- A panic that leaves nothing to go on with ends the process in both modes. -/
theorem panicUnrecoverable_eq {α : Type} (s : Supervisor) (message : String) :
    s.panicUnrecoverable message =
      (⟨[.diagnostic (panicLine message), .logged (fatalRecord message)], none⟩ :
        Execution α) := by
  obtain ⟨mode⟩ := s
  cases mode <;> rfl

/-- Whatever would be done with the value of such a panic is not. -/
theorem map_panicUnrecoverable {α β : Type} (f : α → β) (s : Supervisor) (message : String) :
    f <$> s.panicUnrecoverable message = s.panicUnrecoverable message := by
  rw [panicUnrecoverable_eq, panicUnrecoverable_eq, Execution.map_terminated]

variable {t : IntType}

/-- An operation with a result is silent. -/
theorem checked_of_ok {op : ArithmeticOp} {a b result : FixedInt t}
    (h : evaluate op a b = .ok result) (s : Supervisor) :
    s.checked op a b = ⟨[], some result⟩ := by
  rw [checked, h]
  rfl

/-- A faulting operation panics with the fault's message and yields the fallback. -/
theorem checked_of_error {op : ArithmeticOp} {a b : FixedInt t} {faulted : Faulted t}
    (h : evaluate op a b = .error faulted) (s : Supervisor) :
    s.checked op a b = (s.panic faulted.fault.message >>= fun _ => pure faulted.fallback) := by
  rw [checked, h]

variable {α : Type} [Castable α] {target : IntType} {value : α}

/-- A cast of a value that fits is silent. -/
theorem infallibleCast_of_ok {converted : FixedInt target}
    (h : tryCast target value = .ok converted) (s : Supervisor) :
    s.infallibleCast target value = ⟨[], some converted⟩ := by
  rw [infallibleCast, h]
  rfl

/-- A cast of a value that does not fit panics with the error's message and yields the low bits. -/
theorem infallibleCast_of_error {error : CastError} (h : tryCast target value = .error error)
    (s : Supervisor) :
    s.infallibleCast target value =
      (s.panic error.message >>= fun _ => pure (truncatingCast target value)) := by
  rw [infallibleCast, h]

end CheckedExecution.Supervisor
