import CheckedExecution.Proofs.Execution.InOrder
import CheckedExecution.Proofs.Execution.Unlogged
import CheckedExecution.Proofs.Supervisor.Panic
import CheckedExecution.Session.Call

/-!
# How calls use the supervisor

A call asks for a supervisor to be installed, asks which one it is, has it perform a step, or does
not touch it (`Call.use`). All that a call does to its session follows from that: it leaves the
session with the supervisor that it had, or else with the one that the call fixes
(`session_of_perform`). The lemmas below give the run of each kind of call.
-/

namespace CheckedExecution.Session

/-- How a call uses the supervisor of its session. -/
inductive Use where
  /-- It asks for a supervisor with settings to be installed. -/
  | installs (settings : Settings)
  /-- It asks which one it is. -/
  | asks
  /-- It has the supervisor perform a step. -/
  | performs (step : Supervisor.Step)
  /-- It does not touch it. -/
  | ignores
  deriving DecidableEq

/-- The use fixes the supervisor where it is not fixed yet. -/
def Use.pins : Use → Bool
  | ignores => false
  | _ => true

/-- The mode that the use fixes, given the mode of the session where nobody asks for another. -/
def Use.mode (default : PanicMode) : Use → PanicMode
  | installs settings => settings.panicMode
  | _ => default

/-- A use that is no installation asks for no mode. -/
theorem Use.mode_of_not_installs {use : Use} (h : ∀ settings, use ≠ .installs settings)
    (default : PanicMode) : use.mode default = default := by
  cases use with
  | installs settings => exact absurd rfl (h settings)
  | _ => rfl

/-- How a call uses the supervisor. A signal that has a value or returns needs none, but one that
looks for a loop does. -/
def Call.use : Call → Use
  | .install settings => .installs settings
  | .exportedInstall proceeds => .installs ⟨if proceeds then .proceed else .abort⟩
  | .supervisor => .asks
  | .emit message => .performs (.panic message)
  | .exportedPanic bytes? => .performs (.panic (messageAt bytes?))
  | .panicUnrecoverable message => .performs (.panicUnrecoverable message)
  | .separatePanic _ _ => .ignores
  | .checked op type lhs rhs => .performs (.checked op type lhs rhs)
  | .cast target source => .performs (.cast target source)
  | .exportedChecked symbol lhs rhs => .performs (.checked symbol.op symbol.type lhs rhs)
  | .exportedShift _ _ _ => .ignores
  | .functionStep (.value _) => .ignores
  | .functionStep (.returned _) => .ignores
  | .functionStep .loopBreak => .performs (.panicUnrecoverable (strayExitMessage "break"))
  | .functionStep .loopContinue => .performs (.panicUnrecoverable (strayExitMessage "continue"))
  | .entry _ _ _ => .ignores

/-- The call fixes the supervisor where it is not fixed yet. -/
def Call.pins (call : Call) : Bool :=
  call.use.pins

/-- What a call answers when the supervisor has performed its step. -/
def Answer.ofResult : Option TypedInt → Answer
  | none => .returned
  | some result => .value result

/-- The mode of a session where nobody asks for another: that of the build with the variable
applied. -/
def defaultMode (p : Session) : PanicMode :=
  (Settings.override ⟨p.buildDefault⟩ (Settings.variableText? p.variableBytes)).panicMode

/-- The supervisor that a use other than an installation gets. -/
def effective (p : Session) : Supervisor :=
  p.supervisor?.getD ⟨p.defaultMode⟩

/-- The session that a use leaves. A supervisor that is fixed stays. -/
def after (p : Session) (use : Use) : Session :=
  if use.pins then { p with supervisor? := some (p.supervisor?.getD ⟨use.mode p.defaultMode⟩) }
  else p

variable {p : Session}

/-- Where the supervisor is not fixed, a use that fixes it does so with its own mode. -/
theorem after_of_pins (h : p.supervisor? = none) {use : Use} (hpins : use.pins = true) :
    p.after use = { p with supervisor? := some ⟨use.mode p.defaultMode⟩ } := by
  rw [after, if_pos hpins, h, Option.getD_none]

/-- Where the supervisor is fixed, no use changes the session. -/
theorem after_of_installed {s : Supervisor} (h : p.supervisor? = some s) (use : Use) :
    p.after use = p := by
  unfold after
  split
  · rw [h, Option.getD_some, ← h]
  · rfl

/-! ## The runs of the primitives -/

/-- But for the log, applying the variable does nothing more than that. -/
theorem unlogged_applyVariable (settings : Settings) (text? : Option String) :
    (settings.applyVariable text?).unlogged = pure (settings.override text?) := by
  cases text? with
  | none => rfl
  | some text =>
      rw [Settings.applyVariable]
      split <;> rfl

/-- The first use applies the variable and fixes the supervisor of the resulting mode. -/
theorem run_supervisor_of_none (h : p.supervisor? = none) :
    supervisor.run p = (do
      let settings ←
        Settings.applyVariable ⟨p.buildDefault⟩ (Settings.variableText? p.variableBytes)
      Execution.log .debug panicTarget
        ("installing default runtime, panic mode " ++ settings.panicMode.label)
      return (⟨settings.panicMode⟩, { p with supervisor? := some ⟨settings.panicMode⟩ })) := by
  simp only [supervisor, h, StateT.run_bind, StateT.run_get, pure_bind, StateT.run_monadLift,
    monadLift_self, bind_pure_comp, bind_map_left]
  rfl

/-- But for the log, asking for the supervisor yields the one in effect and fixes it. -/
theorem unlogged_supervisor (p : Session) :
    (supervisor.run p).unlogged = pure (p.effective, p.after .asks) := by
  cases h : p.supervisor? with
  | some s =>
      rw [supervisor_of_installed h, after_of_installed h, effective, h]
      rfl
  | none =>
      rw [run_supervisor_of_none h, Execution.unlogged_bind, unlogged_applyVariable, effective,
        after, h]
      rfl

/-- Asking for the supervisor writes no line, and yields the one in effect and fixes it. -/
theorem supervisor_spec (p : Session) :
    (supervisor.run p).diagnostics = [] ∧
      (supervisor.run p).value? = some (p.effective, p.after .asks) :=
  Execution.silent_of_unlogged (unlogged_supervisor p)

/-- But for the log, an installation is accepted or refused, and fixes the supervisor. -/
theorem unlogged_install (settings : Settings) (p : Session) :
    ((install settings).run p).unlogged =
      pure (p.supervisor?.isNone, p.after (.installs settings)) := by
  obtain ⟨buildDefault, variableBytes, files, current, supervisor?⟩ := p
  cases supervisor? <;> rfl

/-- An installation writes no line, and is accepted where the supervisor is not fixed. -/
theorem install_spec (settings : Settings) (p : Session) :
    ((install settings).run p).diagnostics = [] ∧
      ((install settings).run p).value? =
        some (p.supervisor?.isNone, p.after (.installs settings)) :=
  Execution.silent_of_unlogged (unlogged_install settings p)

/-- What is run outside of the session leaves it. -/
theorem run_lift {α : Type} (x : Execution α) (p : Session) :
    (x : Action α).run p = (fun value => (value, p)) <$> x := by
  rw [StateT.run_monadLift]
  rfl

section Entry

variable {γ τ ε : Type} [ArgumentContainer γ] [Castable τ] [ToString ε]

/-- An entry point does not touch the session where its main function does not. -/
theorem lift_entry (arguments : List String) (main : γ → Execution (Except ε τ)) :
    ((Entry.run arguments main : Execution (FixedInt .u8)) : Action (FixedInt .u8)) =
      Entry.run arguments fun given => (main given : Action (Except ε τ)) := by
  simp only [Entry.run, liftM_bind, liftM_pure]
  rfl

end Entry

/-! ## The runs of calls -/

/-- A call that asks for an installation is one. -/
theorem perform_of_installs {call : Call} {settings : Settings}
    (h : call.use = .installs settings) : call.perform = .installed <$> install settings := by
  cases call with
  | functionStep signal => cases signal <;> cases h
  | install given =>
      cases h
      rfl
  | exportedInstall proceeds =>
      cases h
      rfl
  | _ => cases h

/-- A call that asks for the supervisor answers with it. -/
theorem perform_of_asks {call : Call} (h : call.use = .asks) :
    call.perform = .supervisor <$> supervisor := by
  cases call with
  | functionStep signal => cases signal <;> cases h
  | supervisor => rfl
  | _ => cases h

/-- What is done through the supervisor of the session is a step if it is one for every
supervisor. -/
theorem map_supervisor_bind {α : Type} {f : Supervisor → Execution α} {answer : α → Answer}
    {step : Supervisor.Step} (h : ∀ s, answer <$> f s = Answer.ofResult <$> s.perform step) :
    answer <$> (supervisor >>= fun s => (f s : Action α)) =
      supervisor >>= fun s =>
        ((Answer.ofResult <$> s.perform step : Execution Answer) : Action Answer) := by
  simp only [map_bind, ← liftM_map, h]

/-- A primitive is a step if the step's value is made from that of the primitive. -/
theorem map_supervisor_bind_of_map {α : Type} {f : Supervisor → Execution α}
    {step : Supervisor.Step} (g : α → Option TypedInt) (h : ∀ s, s.perform step = g <$> f s) :
    (fun value => Answer.ofResult (g value)) <$> (supervisor >>= fun s => (f s : Action α)) =
      supervisor >>= fun s =>
        ((Answer.ofResult <$> s.perform step : Execution Answer) : Action Answer) := by
  refine map_supervisor_bind fun s => ?_
  rw [h, Functor.map_map]

/-- A panic that leaves nothing to go on with is a step, whatever the caller expects of it. -/
theorem map_supervisor_bind_of_unrecoverable {α : Type} (answer : α → Answer)
    (message : String) :
    answer <$> (supervisor >>= fun s => (s.panicUnrecoverable message : Action α)) =
      supervisor >>= fun s =>
        ((Answer.ofResult <$> s.perform (.panicUnrecoverable message) : Execution Answer) :
          Action Answer) := by
  refine map_supervisor_bind fun s => ?_
  rw [Supervisor.perform, Supervisor.map_panicUnrecoverable, Supervisor.map_panicUnrecoverable]

/-- A call that has a step performed has the supervisor of the session do it. -/
theorem perform_of_performs {call : Call} {step : Supervisor.Step}
    (h : call.use = .performs step) :
    call.perform = supervisor >>= fun s =>
      ((Answer.ofResult <$> s.perform step : Execution Answer) : Action Answer) := by
  cases call with
  | emit message =>
      cases h
      exact map_supervisor_bind_of_map (fun _ => none) fun s => rfl
  | exportedPanic bytes? =>
      cases h
      exact map_supervisor_bind_of_map (fun _ => none) fun s => rfl
  | panicUnrecoverable message =>
      cases h
      rw [← map_supervisor_bind_of_unrecoverable (fun answer => answer), id_map']
      rfl
  | checked op type lhs rhs =>
      -- The session and its supervisor name each of the five operations alike.
      cases h
      cases op <;> exact map_supervisor_bind_of_map (fun r => some ⟨type, r⟩) fun s => rfl
  | cast target source =>
      cases h
      exact map_supervisor_bind_of_map (fun r => some ⟨target, r⟩) fun s => rfl
  | exportedChecked symbol lhs rhs =>
      cases h
      exact map_supervisor_bind_of_map (fun r => some ⟨symbol.type, r⟩) fun s => rfl
  | functionStep signal =>
      -- Only a break and a continue need the supervisor; neither has a value to be resolved to.
      cases signal with
      | value x => cases h
      | returned payload => cases h
      | loopBreak =>
          cases h
          exact map_supervisor_bind_of_unrecoverable .resolved _
      | loopContinue =>
          cases h
          exact map_supervisor_bind_of_unrecoverable .resolved _
  | _ => cases h

/-- A call that does not touch the supervisor does not touch the session at all. -/
theorem perform_of_ignores {call : Call} (h : call.use = .ignores) :
    ∃ x : Execution Answer, call.perform = (x : Action Answer) ∧
      ∀ accepted, x.value? ≠ some (.installed accepted) := by
  cases call with
  | separatePanic other message =>
      refine ⟨(fun _ => .returned) <$> other.panic message, ?_, fun accepted => ?_⟩
      · rw [liftM_map]
        rfl
      · rw [Execution.value?_map]
        cases (other.panic message).value? <;> simp
  | exportedShift type value steps =>
      exact ⟨pure (.value ⟨type, value.arithmeticShiftRight steps⟩), rfl, fun _ => nofun⟩
  | entry arguments type main =>
      refine ⟨.exitCode <$> Entry.run arguments fun given => pure (main given), ?_,
        fun accepted => ?_⟩
      · rw [Call.perform, liftM_map, lift_entry]
        rfl
      · rw [Execution.value?_map]
        cases (Entry.run arguments fun given => (pure (main given) : Execution _)).value? <;> simp
  | functionStep signal =>
      cases signal with
      | value x => exact ⟨pure (.resolved (.ok x)), rfl, fun _ => nofun⟩
      | returned payload => exact ⟨pure (.resolved (.error payload)), rfl, fun _ => nofun⟩
      | loopBreak => cases h
      | loopContinue => cases h
  | _ => cases h

/-! ## What is seen of calls -/

/-- A call for an installation is accepted where the supervisor is not fixed. -/
theorem installs_spec {call : Call} {settings : Settings} (h : call.use = .installs settings)
    (p : Session) :
    (call.perform.run p).diagnostics = [] ∧
      (call.perform.run p).value? = some (.installed p.supervisor?.isNone, p.after call.use) := by
  obtain ⟨hline, hvalue⟩ := install_spec settings p
  rw [perform_of_installs h, StateT.run_map, Execution.diagnostics_map, Execution.value?_map,
    hvalue, h]
  exact ⟨hline, rfl⟩

/-- A call for the supervisor answers with the one in effect. -/
theorem asks_spec {call : Call} (h : call.use = .asks) (p : Session) :
    (call.perform.run p).diagnostics = [] ∧
      (call.perform.run p).value? = some (.supervisor p.effective, p.after call.use) := by
  obtain ⟨hline, hvalue⟩ := supervisor_spec p
  rw [perform_of_asks h, StateT.run_map, Execution.diagnostics_map, Execution.value?_map,
    hvalue, h]
  exact ⟨hline, rfl⟩

/-- A call for a step writes and answers what the supervisor in effect does. -/
theorem performs_spec {call : Call} {step : Supervisor.Step} (h : call.use = .performs step)
    (p : Session) :
    (call.perform.run p).diagnostics = (p.effective.perform step).diagnostics ∧
      (call.perform.run p).value? =
        (p.effective.perform step).value?.map fun result =>
          (.ofResult result, p.after call.use) := by
  obtain ⟨hline, hvalue⟩ := supervisor_spec p
  rw [perform_of_performs h, StateT.run_bind, Execution.diagnostics_bind hvalue,
    Execution.value?_bind hvalue, hline, run_lift, Execution.diagnostics_map,
    Execution.diagnostics_map, Execution.value?_map, Execution.value?_map, Option.map_map, h]
  exact ⟨rfl, rfl⟩

/-- A call that does not touch the supervisor is the same run in all sessions and leaves each. -/
theorem ignores_spec {call : Call} (h : call.use = .ignores) :
    ∃ x : Execution Answer, ∀ p, call.perform.run p = (fun answer => (answer, p)) <$> x := by
  obtain ⟨x, hx, -⟩ := perform_of_ignores h
  refine ⟨x, fun p => ?_⟩
  rw [hx, run_lift]

/-- A call that comes back leaves the session as its use does. -/
theorem session_of_perform {call : Call} {q : Session} {answer : Answer}
    (h : (call.perform.run p).value? = some (answer, q)) : q = p.after call.use := by
  cases huse : call.use with
  | installs settings =>
      rw [(installs_spec huse p).2, huse] at h
      cases h
      rfl
  | asks =>
      rw [(asks_spec huse p).2, huse] at h
      cases h
      rfl
  | performs step =>
      rw [(performs_spec huse p).2, huse] at h
      obtain ⟨result, -, hresult⟩ := Option.map_eq_some_iff.1 h
      cases hresult
      rfl
  | ignores =>
      obtain ⟨x, hx⟩ := ignores_spec huse
      rw [hx, Execution.value?_map] at h
      obtain ⟨result, -, hresult⟩ := Option.map_eq_some_iff.1 h
      cases hresult
      rfl

end CheckedExecution.Session
