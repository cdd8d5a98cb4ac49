import CheckedExecution.Execution

/-!
# Runs without their log

The log is kept only where somebody asks for it, so what a process shows of a run is the run without
its log records. Leaving them out respects composition (`unlogged_bind`), and what stands on the
diagnostic stream is not part of them (`diagnostics_unlogged`).
-/

namespace CheckedExecution

/-- The event is a record in the log. -/
def Event.isLogged : Event → Bool
  | logged _ => true
  | _ => false

namespace Execution

variable {α β : Type}

/-- The run without its log records. -/
def unlogged (x : Execution α) : Execution α :=
  ⟨x.events.filter fun event => !event.isLogged, x.value?⟩

/-- A pure run has no records. -/
@[simp]
theorem unlogged_pure (value : α) : (pure value : Execution α).unlogged = pure value := rfl

/-- A composition without its records is composed of its parts without theirs. -/
theorem unlogged_bind (x : Execution α) (f : α → Execution β) :
    (x >>= f).unlogged = x.unlogged >>= fun value => (f value).unlogged := by
  obtain ⟨events, value?⟩ := x
  cases value? with
  | none => rfl
  | some value => simp [unlogged]

/-- Mapping over a run leaves its records. -/
theorem unlogged_map (f : α → β) (x : Execution α) : (f <$> x).unlogged = f <$> x.unlogged := by
  rw [← bind_pure_comp, unlogged_bind]
  simp only [unlogged_pure, bind_pure_comp]

/-- No line of the diagnostic stream is a record. -/
@[simp]
theorem diagnostics_unlogged (x : Execution α) : x.unlogged.diagnostics = x.diagnostics := by
  rw [diagnostics, diagnostics, unlogged, List.filterMap_filter]
  congr 1
  funext event
  cases event <;> rfl

/-- No line of the output stream is a record. -/
@[simp]
theorem outputs_unlogged (x : Execution α) : x.unlogged.outputs = x.outputs := by
  rw [outputs, outputs, unlogged, List.filterMap_filter]
  congr 1
  funext event
  cases event <;> rfl

/-- A run that is pure but for its records writes no line and has the value. -/
theorem silent_of_unlogged {x : Execution α} {value : α} (h : x.unlogged = pure value) :
    x.diagnostics = [] ∧ x.value? = some value := by
  have hvalue : x.unlogged.value? = some value := by
    rw [h]
    rfl
  refine ⟨?_, hvalue⟩
  rw [← diagnostics_unlogged, h]
  rfl

end Execution

end CheckedExecution
