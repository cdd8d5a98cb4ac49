import CheckedExecution.Proofs.Execution.InOrder
import CheckedExecution.Proofs.Supervisor.Panic
import CheckedExecution.Supervisor.Step

/-!
# One program in both modes

A step either is silent, and then the modes do not differ, or it panics with one message and then
yields a value or nothing (`perform_cases`). So a program runs in abort mode as it does in the other
mode up to the first step that writes a line, writes that line and ends. The main theorem,
`abort_run_is_prefix`, says so for all lists of steps.
-/

namespace CheckedExecution.Supervisor

/-- The step leaves nothing to go on with. -/
def Step.isUnrecoverable : Step → Bool
  | .panicUnrecoverable _ => true
  | _ => false

/-- What a step can do: yield a value in silence, panic and then yield a value, or panic with
nothing to go on with. -/
theorem perform_cases (step : Step) :
    (step.isUnrecoverable = false ∧
      ∃ value, ∀ s : Supervisor, s.perform step = ⟨[], some value⟩) ∨
    (step.isUnrecoverable = false ∧
      ∃ message value, ∀ s : Supervisor,
        s.perform step = (s.panic message >>= fun _ => pure value)) ∨
    ∃ message, step = .panicUnrecoverable message := by
  cases step with
  | checked op type lhs rhs =>
      cases h : evaluate op lhs rhs with
      | ok result =>
          refine .inl ⟨rfl, some ⟨type, result⟩, fun s => ?_⟩
          rw [perform, operation_eq, checked_of_ok h, Execution.map_of_value]
      | error faulted =>
          refine .inr (.inl ⟨rfl, faulted.fault.message, some ⟨type, faulted.fallback⟩,
            fun s => ?_⟩)
          rw [perform, operation_eq, checked_of_error h, map_bind]
          rfl
  | cast target source =>
      cases h : tryCast target source.value with
      | ok converted =>
          refine .inl ⟨rfl, some ⟨target, converted⟩, fun s => ?_⟩
          rw [perform, infallibleCast_of_ok h, Execution.map_of_value]
      | error error =>
          refine .inr (.inl ⟨rfl, error.message,
            some ⟨target, truncatingCast target source.value⟩, fun s => ?_⟩)
          rw [perform, infallibleCast_of_error h, map_bind]
          rfl
  | panic message =>
      refine .inr (.inl ⟨rfl, message, none, fun s => ?_⟩)
      rw [perform, map_eq_pure_bind]
  | panicUnrecoverable message => exact .inr (.inr ⟨message, rfl⟩)

/-- A step writes one line at most. -/
theorem length_diagnostics_perform_le (s : Supervisor) (step : Step) :
    (s.perform step).diagnostics.length ≤ 1 := by
  rcases perform_cases step with ⟨-, value, h⟩ | ⟨-, message, value, h⟩ | ⟨message, rfl⟩
  · rw [h]
    exact Nat.zero_le 1
  · rw [h, diagnostics_panic_bind_pure]
    exact Nat.le_refl 1
  · rw [perform, panicUnrecoverable_eq]
    exact Nat.le_refl 1

/-- A silent step is the same run in both modes, and the process goes on. -/
theorem perform_of_silent {step : Step}
    (h : (proceeding.perform step).diagnostics = []) (s : Supervisor) :
    s.perform step = proceeding.perform step ∧
      (proceeding.perform step).terminated = false := by
  rcases perform_cases step with ⟨-, value, hstep⟩ | ⟨-, message, value, hstep⟩ | ⟨message, rfl⟩
  · rw [hstep, hstep]
    exact ⟨rfl, rfl⟩
  · rw [hstep, diagnostics_panic_bind_pure] at h
    exact absurd h (List.cons_ne_nil _ _)
  · rw [perform, panicUnrecoverable_eq] at h
    exact absurd h (List.cons_ne_nil _ _)

/-- A step that writes a line writes the same line in abort mode, and the process ends. -/
theorem perform_of_reported {step : Step}
    (h : (proceeding.perform step).diagnostics ≠ []) :
    (aborting.perform step).diagnostics =
        (proceeding.perform step).diagnostics ∧
      (aborting.perform step).terminated = true := by
  rcases perform_cases step with ⟨-, value, hstep⟩ | ⟨-, message, value, hstep⟩ | ⟨message, rfl⟩
  · rw [hstep] at h
    exact absurd rfl h
  · rw [hstep, hstep, diagnostics_panic_bind_pure, diagnostics_panic_bind_pure, panic_abort]
    exact ⟨rfl, rfl⟩
  · simp only [perform, panicUnrecoverable_eq]
    exact ⟨trivial, rfl⟩

/-- In the mode that goes on, only a step that leaves nothing to go on with ends the process. -/
theorem terminated_perform_proceed (step : Step) :
    (proceeding.perform step).terminated = step.isUnrecoverable := by
  rcases perform_cases step with ⟨hstep, value, h⟩ | ⟨hstep, message, value, h⟩ | ⟨message, rfl⟩
  · rw [h, hstep]
    rfl
  · rw [h, hstep, panic_proceed]
    rfl
  · rw [perform, panicUnrecoverable_eq]
    rfl

/-- Silent steps are the same runs in both modes. -/
theorem map_perform_of_silent {steps : List Step}
    (h : ∀ step ∈ steps, (proceeding.perform step).diagnostics = []) (s : Supervisor) :
    steps.map s.perform = steps.map proceeding.perform :=
  List.map_congr_left fun step hstep => (perform_of_silent (h step hstep) s).1

/-- A program whose steps are all silent runs to its end in both modes. -/
theorem performAll_of_silent {steps : List Step}
    (h : ∀ step ∈ steps, (proceeding.perform step).diagnostics = []) (s : Supervisor) :
    s.performAll steps = steps.map proceeding.perform := by
  rw [performAll, map_perform_of_silent h s]
  apply Execution.upToTermination_eq_self
  intro x hx
  obtain ⟨step, hstep, rfl⟩ := List.mem_map.1 hx
  exact (perform_of_silent (h step hstep) proceeding).2

/-- If no run of a program writes a line, no step was left out, and all of them are silent. -/
theorem silent_of_performAll {steps : List Step}
    (h : ∀ x ∈ proceeding.performAll steps, x.diagnostics = []) :
    ∀ step ∈ steps, (proceeding.perform step).diagnostics = [] := by
  induction steps with
  | nil => simp
  | cons first rest ih =>
      have hfirst : (proceeding.perform first).diagnostics = [] := by
        apply h
        rw [performAll, List.map_cons, Execution.upToTermination]
        exact List.mem_cons_self
      have hlive := (perform_of_silent hfirst proceeding).2
      rw [performAll, List.map_cons,
        Execution.upToTermination_cons_of_not_terminated hlive] at h
      intro step hstep
      rcases List.mem_cons.1 hstep with rfl | hstep
      · exact hfirst
      · exact ih (fun x hx => h x (List.mem_cons_of_mem _ hx)) step hstep

/-- In abort mode, the first step that writes a line is the last that is run. -/
theorem performAll_abort_of_reported {before : List Step} {step : Step}
    (hbefore : ∀ b ∈ before, (proceeding.perform b).diagnostics = [])
    (hstep : (proceeding.perform step).diagnostics ≠ []) (after : List Step) :
    aborting.performAll (before ++ step :: after) =
      before.map proceeding.perform ++ [aborting.perform step] := by
  have hlive : ∀ x ∈ before.map aborting.perform, x.terminated = false := by
    intro x hx
    rw [map_perform_of_silent hbefore] at hx
    obtain ⟨b, hb, rfl⟩ := List.mem_map.1 hx
    exact (perform_of_silent (hbefore b hb) proceeding).2
  rw [performAll, List.map_append, List.map_cons, Execution.upToTermination_append hlive,
    Execution.upToTermination_cons_of_terminated (perform_of_reported hstep).2,
    map_perform_of_silent hbefore]

/-- The lines of a program, run as a whole, are those of the steps that happen, in their order. -/
theorem diagnostics_sequence (s : Supervisor) (steps : List Step) :
    (s.sequence steps).diagnostics = (s.performAll steps).flatMap (·.diagnostics) :=
  Execution.diagnostics_mapM s.perform steps

/-- A program, run as a whole, ends the process if one of the steps that happen does. -/
theorem terminated_sequence (s : Supervisor) (steps : List Step) :
    (s.sequence steps).terminated = (s.performAll steps).any (·.terminated) := by
  rw [sequence, Execution.terminated_mapM, performAll, Execution.any_terminated_upToTermination]

/-- In the mode that goes on, the steps before the first that leaves nothing to go on with are run,
and that step too. Each is the run of the step alone. -/
theorem getElem?_performAll_proceed {steps : List Step} {i : Nat} {step : Step}
    (h : steps[i]? = some step) :
    (proceeding.performAll steps)[i]? =
      if (steps.take i).any Step.isUnrecoverable then none
      else (proceeding.performAll [step])[0]? := by
  have hterminated : ((steps.map proceeding.perform).take i).any (·.terminated) =
      (steps.take i).any Step.isUnrecoverable := by
    rw [← List.map_take, List.any_map]
    exact congrArg _ (funext terminated_perform_proceed)
  rw [performAll, performAll, Execution.getElem?_upToTermination,
    Execution.getElem?_upToTermination, hterminated, List.getElem?_map, h]
  simp

/-- A program does the same in both modes up to the first step that writes a line. In the mode that
goes on, each step does what it does alone, and the lines are those of the steps in order. In abort
mode, the program ends with the first step that writes a line, and what it did before is what it
does in the other mode. -/
theorem abort_run_is_prefix (steps : List Step) :
    (∀ (s : Supervisor) (step : Step), (s.perform step).diagnostics.length ≤ 1) ∧
    (∀ s : Supervisor,
      (s.sequence steps).diagnostics = (s.performAll steps).flatMap (·.diagnostics) ∧
      (s.sequence steps).terminated = (s.performAll steps).any (·.terminated)) ∧
    (∀ i step, steps[i]? = some step →
      (proceeding.performAll steps)[i]? =
        if (steps.take i).any Step.isUnrecoverable then none
        else (proceeding.performAll [step])[0]?) ∧
    (∀ step, (proceeding.perform step).terminated = step.isUnrecoverable) ∧
    (∀ k x, (proceeding.performAll steps)[k]? = some x → x.diagnostics ≠ [] →
      (∀ y ∈ (proceeding.performAll steps).take k, y.diagnostics = []) →
      ∃ y, aborting.performAll steps = (proceeding.performAll steps).take k ++ [y] ∧
        y.diagnostics = x.diagnostics ∧ y.terminated = true ∧
        (aborting.sequence steps).diagnostics = x.diagnostics) ∧
    ((∀ x ∈ proceeding.performAll steps, x.diagnostics = []) →
      aborting.performAll steps = proceeding.performAll steps ∧
      ∀ s : Supervisor,
        (s.sequence steps).diagnostics = [] ∧ (s.sequence steps).terminated = false) := by
  refine ⟨length_diagnostics_perform_le,
    fun s => ⟨diagnostics_sequence s steps, terminated_sequence s steps⟩,
    fun i step => getElem?_performAll_proceed, terminated_perform_proceed, ?_, ?_⟩
  · -- What happens before `k` is silent, so in abort mode `k` is reached and the first to end it.
    intro k x hx hline hsilent
    obtain ⟨runs, later, hruns, -, htake⟩ := Execution.split_of_getElem?_upToTermination hx
    obtain ⟨before, rest, rfl, rfl, hrest⟩ := List.map_eq_append_iff.1 hruns
    obtain ⟨step, after, rfl, rfl, rfl⟩ := List.map_eq_cons_iff.1 hrest
    have hbefore : ∀ b ∈ before, (proceeding.perform b).diagnostics = [] := by
      intro b hb
      apply hsilent
      rw [performAll, htake]
      exact List.mem_map_of_mem hb
    have habort := performAll_abort_of_reported hbefore hline after
    obtain ⟨hsame, hend⟩ := perform_of_reported hline
    refine ⟨aborting.perform step, ?_, hsame, hend, ?_⟩
    · rw [habort, performAll, htake]
    · have hempty : (before.map proceeding.perform).flatMap (·.diagnostics) = [] := by
        simpa using hbefore
      rw [diagnostics_sequence, habort, List.flatMap_append, hempty, List.flatMap_singleton,
        List.nil_append, hsame]
  · -- No line means no termination either, so silence of what happens is silence of every step.
    intro h
    have hsilent := silent_of_performAll h
    refine ⟨?_, fun s => ⟨?_, ?_⟩⟩
    · rw [performAll_of_silent hsilent, performAll_of_silent hsilent]
    · rw [diagnostics_sequence, performAll_of_silent hsilent]
      simpa using hsilent
    · rw [terminated_sequence, performAll_of_silent hsilent, List.any_map, List.any_eq_false]
      intro step hstep
      rw [Function.comp_apply, (perform_of_silent (hsilent step hstep) s).2]
      exact Bool.false_ne_true

end CheckedExecution.Supervisor
