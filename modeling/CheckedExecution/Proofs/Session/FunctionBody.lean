import CheckedExecution.Proofs.Session.Use

/-!
# Functions that resolve signals

A function that resolves signals outside of any loop does so one after another until a signal has no
value. That signal alone decides how the function ends: a return ends it with its payload, and a
break or continue ends the process with one line on the diagnostic stream. `functionBody_eq` takes
such a function apart into what it does with the values and what the deciding signal makes of it
(`conclude`). The main theorem, `first_exit_decides_function`, adds what is seen of it, which is the
same in every session and so in both modes, however the mode was fixed.
-/

namespace CheckedExecution

variable {α ρ : Type}

/-- The line that a signal writes where it ends a function without returning from it. -/
def Signal.strayLine? : Signal α ρ → Option String
  | loopBreak => some "Panic: Loop break reached a return-only resolution point"
  | loopContinue => some "Panic: Loop continue reached a return-only resolution point"
  | value _ | returned _ => none

/-- What a signal that ends a function without returning from it is reported with. -/
def Signal.strayMessage? : Signal α ρ → Option String
  | loopBreak => some (Session.strayExitMessage "break")
  | loopContinue => some (Session.strayExitMessage "continue")
  | value _ | returned _ => none

/-- The line is that of a panic with the message. -/
theorem Signal.strayLine?_eq (s : Signal α ρ) :
    s.strayLine? = s.strayMessage?.map Supervisor.panicLine := by
  cases s <;> rfl

namespace Session

/-- How a function is seen to end by the first signal without a value, if there is one: after one
line and without a result, or in silence with the payload of a return, if the signal is one. -/
def conclusion (first? : Option (Signal α ρ)) : Execution (Option ρ) :=
  match first?.bind Signal.strayLine? with
  | some line => ⟨[.diagnostic line], none⟩
  | none => ⟨[], some (first?.bind Signal.payload?)⟩

/-- What a function does by the first signal without a value, if there is one. -/
def conclude (first? : Option (Signal α ρ)) : Action (Option ρ) :=
  match first?.bind Signal.strayMessage? with
  | some message => do (← supervisor).panicUnrecoverable message
  | none => return first?.bind Signal.payload?

/-! ## The function in two parts -/

/-- What would follow a panic that leaves nothing to go on with does not matter. -/
theorem supervisor_panicUnrecoverable_bind {β γ : Type} (message : String) (f : β → Action γ) :
    ((do (← supervisor).panicUnrecoverable message : Action β) >>= f) =
      (do (← supervisor).panicUnrecoverable message : Action γ) := by
  rw [bind_assoc]
  congr 1
  funext s
  apply StateT.ext
  intro p
  rw [StateT.run_bind, run_lift, run_lift, Supervisor.panicUnrecoverable_eq,
    Supervisor.panicUnrecoverable_eq]
  rfl

/-- A function uses the values before the first signal without one, in their order, and ends by that
signal. What follows the signal does not matter. -/
theorem functionBody_eq (use : α → Action Unit) (signals : List (Signal α ρ)) :
    functionBody use signals =
      ((signals.takeWhile Signal.isValue).filterMap Signal.value?).forM use >>= fun _ =>
        conclude (signals.find? fun s => !s.isValue) := by
  induction signals with
  | nil => rfl
  | cons s rest ih =>
      cases s with
      | value x =>
          have hvalue : (Signal.value x : Signal α ρ).value? = some x := rfl
          show (use x >>= fun _ => functionBody use rest) = _
          rw [ih, List.takeWhile_cons_of_pos rfl, List.filterMap_cons_some hvalue,
            List.find?_cons_of_neg Bool.false_ne_true, List.forM_eq_forM, List.forM_cons,
            bind_assoc]
      | returned payload => rfl
      | loopBreak => exact supervisor_panicUnrecoverable_bind _ _
      | loopContinue => exact supervisor_panicUnrecoverable_bind _ _

/-! ## What is seen of it -/

/-- The end of a function is seen alike in every session. -/
theorem unlogged_conclude (first? : Option (Signal α ρ)) (p : Session) :
    Prod.fst <$> ((conclude first?).run p).unlogged = conclusion first? := by
  have hline : first?.bind Signal.strayLine? =
      (first?.bind Signal.strayMessage?).map Supervisor.panicLine := by
    rw [Option.map_bind]
    exact Option.bind_congr fun s _ => s.strayLine?_eq
  rw [conclude, conclusion, hline]
  cases first?.bind Signal.strayMessage? with
  | none => rfl
  | some message =>
      show Prod.fst <$> (supervisor.run p >>= fun (s, q) =>
        (s.panicUnrecoverable message : Action (Option ρ)).run q).unlogged = _
      rw [Execution.unlogged_bind, unlogged_supervisor, pure_bind]
      show Prod.fst <$>
        ((p.effective.panicUnrecoverable message : Action (Option ρ)).run _).unlogged = _
      rw [run_lift, Supervisor.panicUnrecoverable_eq]
      rfl

/-- Doing things outside of the session one after another is doing them all outside of it. -/
theorem forM_lift (yield : α → Execution Unit) (values : List α) :
    values.forM (fun x => (yield x : Action Unit)) = (values.forM yield : Execution Unit) := by
  induction values with
  | nil => rfl
  | cons x rest ih =>
      show ((yield x : Action Unit) >>= fun _ => rest.forM fun x => (yield x : Action Unit)) = _
      rw [ih, ← liftM_bind]
      rfl

/-- A function that only does things outside of the session is seen alike in every session. -/
theorem unlogged_functionBody (yield : α → Execution Unit) (signals : List (Signal α ρ))
    (p : Session) :
    Prod.fst <$> ((functionBody (fun x => (yield x : Action Unit)) signals).run p).unlogged =
      (((signals.takeWhile Signal.isValue).filterMap Signal.value?).forM yield).unlogged >>=
        fun _ => conclusion (signals.find? fun s => !s.isValue) := by
  rw [functionBody_eq, forM_lift, StateT.run_bind, run_lift, Execution.unlogged_bind,
    Execution.unlogged_map, bind_map_left, map_bind]
  simp only [unlogged_conclude]

/-- An installation before leaves no other mark on what is seen than the session that it leaves. -/
theorem unlogged_install_bind {β : Type} (settings : Settings) (action : Action β) (p : Session) :
    ((install settings >>= fun _ => action).run p).unlogged =
      (action.run (p.after (.installs settings))).unlogged := by
  rw [StateT.run_bind, Execution.unlogged_bind, unlogged_install, pure_bind]

/-- The text of the diagnostic stream is part of what is seen. -/
theorem diagnosticText_of_seen {β : Type} {x : Execution (β × Session)} {seen : Execution β}
    (h : Prod.fst <$> x.unlogged = seen) : x.diagnosticText = seen.diagnosticText := by
  rw [← h, Execution.diagnosticText, Execution.diagnosticText, Execution.diagnostics_map,
    Execution.diagnostics_unlogged]

/-- The first signal without a value decides a function that resolves signals outside of any loop.
Whatever the function does with its values, it does so with those before that signal, in their
order, and then ends by it: with the payload of a return, with one line and the end of the process
for a break or continue, and without a payload where there is no such signal. As far as the function
does not use the session itself, what is seen of it, with the whole text of the diagnostic stream,
is the same in every session, whatever mode it has and wherever that comes from, and after every
installation. -/
theorem first_exit_decides_function (signals : List (Signal α ρ)) :
    let values := (signals.takeWhile Signal.isValue).filterMap Signal.value?
    let first? := signals.find? fun s => !s.isValue
    (∀ use : α → Action Unit,
      functionBody use signals = values.forM use >>= fun _ => conclude first?) ∧
    (∀ p : Session, Prod.fst <$> ((conclude first?).run p).unlogged = conclusion first?) ∧
    (∀ (yield : α → Execution Unit) (p : Session),
      let seen := (values.forM yield).unlogged >>= fun _ => conclusion first?
      let body : Action (Option ρ) := functionBody (fun x => (yield x : Action Unit)) signals
      Prod.fst <$> (body.run p).unlogged = seen ∧
      (body.run p).diagnosticText = seen.diagnosticText ∧
      ∀ settings : Settings,
        let installed := (install settings >>= fun _ => body).run p
        Prod.fst <$> installed.unlogged = seen ∧
        installed.diagnosticText = seen.diagnosticText) := by
  intro values first?
  refine ⟨fun use => functionBody_eq use signals, unlogged_conclude first?, fun yield p => ?_⟩
  intro seen body
  have hseen : ∀ q, Prod.fst <$> (body.run q).unlogged = seen := unlogged_functionBody yield signals
  refine ⟨hseen p, diagnosticText_of_seen (hseen p), fun settings => ?_⟩
  intro installed
  have hinstalled : Prod.fst <$> installed.unlogged = seen := by
    show Prod.fst <$> ((install settings >>= fun _ => body).run p).unlogged = seen
    rw [unlogged_install_bind]
    exact hseen (p.after (.installs settings))
  exact ⟨hinstalled, diagnosticText_of_seen hinstalled⟩

/-- The process ends also in the mode that goes on after a panic. -/
example :
    ((functionBody (fun x => (Execution.print x : Action Unit))
      [.value "first", .loopBreak, .returned "payload"] : Action (Option String)).run
        ⟨.proceed, none, ⟨[]⟩, [], none⟩).unlogged =
      ⟨[.output "first",
        .diagnostic "Panic: Loop break reached a return-only resolution point"], none⟩ := rfl

end Session

end CheckedExecution
