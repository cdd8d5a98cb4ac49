import CheckedExecution.Program
import CheckedExecution.Proofs.Entry.Result
import CheckedExecution.Proofs.Session.Use

/-!
# What is seen of the program's actions

With the log kept off, an action in a session shows its lines, and it leaves its result or failure
and the session after it (`seen`). What is seen of a composition is composed of what is seen of its
parts, so the lemmas below are equations to compute with. What is seen of a whole run of the program
is what is seen of its action, and then its exit code (`unlogged_run`).
-/

namespace CheckedExecution

/-- The wording that says nothing. -/
@[reducible]
def Wording.silent : Wording :=
  ⟨fun _ => [], fun _ _ => [], ""⟩

namespace Program

variable {α β : Type}

/-- What is seen of an action in a session: its run without the log. -/
def seen (x : Action α) (p : Session) : Execution (Except Failure α × Session) :=
  (x.run.run p).unlogged

/-- An action that does nothing but have a result. -/
@[simp]
theorem seen_pure (value : α) (p : Session) :
    seen (pure value : Action α) p = pure (.ok value, p) := rfl

/-- An action that does nothing but fail. -/
@[simp]
theorem seen_throw (failure : Failure) (p : Session) :
    seen (throw failure : Action α) p = pure (.error failure, p) := rfl

/-- What follows an action is seen after it, and nothing is seen after a failure. -/
theorem seen_bind (x : Action α) (f : α → Action β) (p : Session) :
    seen (x >>= f) p = seen x p >>= fun r =>
      match r.1 with
      | .ok value => seen (f value) r.2
      | .error failure => pure (.error failure, r.2) := by
  rw [seen, seen, ExceptT.run_bind, StateT.run_bind, Execution.unlogged_bind]
  congr 1
  funext r
  obtain ⟨result, q⟩ := r
  cases result <;> rfl

/-- What follows an action with a result is seen after it. -/
theorem seen_bind_of_ok {x : Action α} {p q : Session} {value : α}
    (h : seen x p = pure (.ok value, q)) (f : α → Action β) :
    seen (x >>= f) p = seen (f value) q := by
  rw [seen_bind, h, pure_bind]

/-- Nothing is seen after a failure. -/
theorem seen_bind_of_error {x : Action α} {p q : Session} {failure : Failure}
    (h : seen x p = pure (.error failure, q)) (f : α → Action β) :
    seen (x >>= f) p = pure (.error failure, q) := by
  rw [seen_bind, h, pure_bind]

/-- A step of the session cannot fail. -/
theorem seen_lift (x : Session.Action α) (p : Session) :
    seen (lift x) p = (fun r => (.ok r.1, r.2)) <$> (x.run p).unlogged := by
  rw [seen, lift, ExceptT.run_lift, StateT.run_map, Execution.unlogged_map]

/-- A step outside of the session leaves the session. -/
theorem seen_lift_execution (x : Execution α) (p : Session) :
    seen (lift (x : Session.Action α)) p = (fun value => (.ok value, p)) <$> x.unlogged := by
  rw [seen_lift, Session.run_lift, Execution.unlogged_map, Functor.map_map]

/-- A step outside of the session that only the log is told of is not seen. -/
theorem seen_lift_of_unlogged {x : Execution α} {value : α} (h : x.unlogged = pure value)
    (p : Session) : seen (lift (x : Session.Action α)) p = pure (.ok value, p) := by
  rw [seen_lift_execution, h, map_pure]

/-- A result that may be an error is had without anything being seen. -/
@[simp]
theorem seen_orFail {ε : Type} (failure : ε → Failure) (x : Except ε α) (p : Session) :
    seen (orFail failure x) p = pure (x.mapError failure, p) := rfl

/-- A line on the output stream. -/
@[simp]
theorem seen_print (line : String) (p : Session) :
    seen (print line) p = ⟨[.output line], some (.ok (), p)⟩ := rfl

/-- The session itself. -/
@[simp]
theorem seen_get (p : Session) : seen (lift get) p = pure (.ok p, p) := rfl

/-- What is seen of the whole program on its arguments, and then its exit code. -/
def seenRun [Wording] (x : Action (FixedInt .i64)) (p : Session) :
    Execution (FixedInt .u8 × Session) :=
  seen x p >>= fun r => (fun code => (code, r.2)) <$> (Entry.finish r.1).unlogged

/-- A failure is reported on one line. -/
theorem seenRun_of_error [Wording] {x : Action (FixedInt .i64)} {p q : Session} {failure : Failure}
    (h : seen x p = pure (.error failure, q)) :
    seenRun x p = ⟨[.diagnostic (Entry.errorLine failure.message)], some (Entry.errorCode, q)⟩ := by
  rw [seenRun, h]
  rfl

/-- What is seen of an entry point is its main function and then the exit code. -/
theorem unlogged_entry [Wording] {γ : Type} [ArgumentContainer γ] (arguments : List String)
    (main : γ → Action (FixedInt .i64)) (p : Session) :
    ((Entry.run arguments fun given => (main given).run).run p).unlogged =
      seenRun (main (Entry.collect γ arguments)) p := by
  rw [Entry.run_eq, StateT.run_bind, Execution.unlogged_bind, seenRun, seen]
  congr 1
  funext r
  rw [Session.run_lift, Execution.unlogged_map]

/-- What is seen of a run of the program. -/
theorem unlogged_run [Wording] (raw : List (List UInt8)) (p : Session) :
    ((run raw).run p).unlogged = seenRun (program (Entry.decodeArguments raw)) p := by
  have hentry := unlogged_entry (Entry.decodeArguments raw) program p
  rw [Entry.collect_list] at hentry
  rw [run, Entry.runProcess, StateT.run_bind, Session.run_lift, Execution.unlogged_bind,
    Execution.unlogged_map, ← hentry]
  rfl

end Program

end CheckedExecution
