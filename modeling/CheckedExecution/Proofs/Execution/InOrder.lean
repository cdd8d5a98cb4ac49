import CheckedExecution.Execution

/-!
# Runs one after another

Running the members of a list in order can be looked at from two sides: as one execution, whose
events are those of everything that happened, and as the list of the runs that happened, which ends
with the first that is terminated (`upToTermination`). The lemmas below describe the list and say
that the execution is made of it (`events_mapM`, `terminated_mapM`).
-/

namespace CheckedExecution.Execution

variable {α β : Type}

/-- The lines of a composition are those of its parts in order. -/
theorem diagnostics_bind {x : Execution α} {value : α} (h : x.value? = some value)
    (f : α → Execution β) : (x >>= f).diagnostics = x.diagnostics ++ (f value).diagnostics := by
  obtain ⟨events, value?⟩ := x
  subst h
  exact List.filterMap_append

/-- The value of a composition is that of what follows the value of the first part. -/
theorem value?_bind {x : Execution α} {value : α} (h : x.value? = some value)
    (f : α → Execution β) : (x >>= f).value? = (f value).value? := by
  obtain ⟨events, value?⟩ := x
  subst h
  rfl

/-- A composition whose first part is terminated is terminated. -/
theorem value?_bind_of_none {x : Execution α} (h : x.value? = none) (f : α → Execution β) :
    (x >>= f).value? = none := by
  obtain ⟨events, value?⟩ := x
  subst h
  rfl

/-- A composition with a value is made of parts with values. -/
theorem value?_bind_eq_some {x : Execution α} {f : α → Execution β} {result : β}
    (h : (x >>= f).value? = some result) :
    ∃ value, x.value? = some value ∧ (f value).value? = some result := by
  cases hx : x.value? with
  | none =>
      rw [value?_bind_of_none hx] at h
      cases h
  | some value =>
      rw [value?_bind hx] at h
      exact ⟨value, rfl, h⟩

/-- Mapping over a run leaves its lines. -/
theorem diagnostics_map (f : α → β) (x : Execution α) : (f <$> x).diagnostics = x.diagnostics := by
  obtain ⟨events, value?⟩ := x
  cases value? <;> simp [diagnostics]

/-- Mapping over a run maps over its value. -/
theorem value?_map (f : α → β) (x : Execution α) : (f <$> x).value? = x.value?.map f := by
  obtain ⟨events, value?⟩ := x
  cases value? <;> simp

/-- The runs that follow a run that is not terminated happen as they would without it. -/
theorem upToTermination_cons_of_not_terminated {x : Execution α} (h : x.terminated = false)
    (rest : List (Execution α)) : upToTermination (x :: rest) = x :: upToTermination rest := by
  rw [upToTermination, h]
  rfl

/-- Nothing happens after a run that is terminated. -/
theorem upToTermination_cons_of_terminated {x : Execution α} (h : x.terminated = true)
    (rest : List (Execution α)) : upToTermination (x :: rest) = [x] := by
  rw [upToTermination, h]
  rfl

/-- Runs that are not terminated all happen, and then what follows them. -/
theorem upToTermination_append {before : List (Execution α)}
    (h : ∀ x ∈ before, x.terminated = false) (rest : List (Execution α)) :
    upToTermination (before ++ rest) = before ++ upToTermination rest := by
  induction before with
  | nil => rfl
  | cons x before ih =>
      rw [List.cons_append, upToTermination_cons_of_not_terminated (h x (by simp)),
        ih fun y hy => h y (by simp [hy]), List.cons_append]

/-- All runs happen if none of them is terminated. -/
theorem upToTermination_eq_self {runs : List (Execution α)}
    (h : ∀ x ∈ runs, x.terminated = false) : upToTermination runs = runs := by
  have happend := upToTermination_append h []
  rwa [List.append_nil, upToTermination, List.append_nil] at happend

/-- A run happens exactly if none before it is terminated. -/
theorem getElem?_upToTermination (runs : List (Execution α)) (i : Nat) :
    (upToTermination runs)[i]? = if (runs.take i).any terminated then none else runs[i]? := by
  induction runs generalizing i with
  | nil => simp [upToTermination]
  | cons x rest ih =>
      cases hx : x.terminated with
      | true =>
          rw [upToTermination_cons_of_terminated hx]
          cases i with
          | zero => simp
          | succ i => simp [hx]
      | false =>
          rw [upToTermination_cons_of_not_terminated hx]
          cases i with
          | zero => simp
          | succ i => simp [hx, ih]

/-- What comes before a run that happens is not terminated, and it is what happens before. -/
theorem split_of_getElem?_upToTermination {runs : List (Execution α)} {k : Nat}
    {x : Execution α} (h : (upToTermination runs)[k]? = some x) :
    ∃ before rest, runs = before ++ x :: rest ∧ (∀ y ∈ before, y.terminated = false) ∧
      (upToTermination runs).take k = before := by
  rw [getElem?_upToTermination] at h
  split at h
  · cases h
  · rename_i hbefore
    have hlive : ∀ y ∈ runs.take k, y.terminated = false := by
      simpa using hbefore
    obtain ⟨hk, hx⟩ := List.getElem?_eq_some_iff.1 h
    have hsplit : runs = runs.take k ++ x :: runs.drop (k + 1) := by
      rw [← hx, List.getElem_cons_drop, List.take_append_drop]
    have happen := upToTermination_append hlive (x :: runs.drop (k + 1))
    rw [← hsplit] at happen
    refine ⟨runs.take k, runs.drop (k + 1), hsplit, hlive, ?_⟩
    rw [happen]
    exact List.take_left' (List.length_take_of_le (Nat.le_of_lt hk))

/-- Some run that happens is terminated if any is. -/
theorem any_terminated_upToTermination (runs : List (Execution α)) :
    (upToTermination runs).any terminated = runs.any terminated := by
  induction runs with
  | nil => rfl
  | cons x rest ih =>
      cases hx : x.terminated with
      | true => simp [upToTermination_cons_of_terminated hx, hx]
      | false => simp [upToTermination_cons_of_not_terminated hx, hx, ih]

/-- The execution of a list in order has the events of the runs that happen. -/
theorem events_mapM (f : α → Execution β) (items : List α) :
    (items.mapM f).events = (upToTermination (items.map f)).flatMap events := by
  induction items with
  | nil => rfl
  | cons item rest ih =>
      rw [List.mapM_cons, List.map_cons]
      obtain ⟨events, value?⟩ := f item
      cases value? with
      | none =>
          rw [upToTermination_cons_of_terminated rfl]
          simp
      | some value =>
          rw [upToTermination_cons_of_not_terminated rfl, List.flatMap_cons, ← ih]
          obtain ⟨later, values?⟩ := rest.mapM f
          cases values? <;> simp

/-- The execution of a list in order is terminated if a member's run is. -/
theorem terminated_mapM (f : α → Execution β) (items : List α) :
    (items.mapM f).terminated = (items.map f).any terminated := by
  induction items with
  | nil => rfl
  | cons item rest ih =>
      rw [List.mapM_cons, List.map_cons, List.any_cons, ← ih]
      obtain ⟨events, value?⟩ := f item
      cases value? with
      | none => rfl
      | some value =>
          obtain ⟨later, values?⟩ := rest.mapM f
          cases values? <;> rfl

/-- The lines of the execution of a list are those of the runs that happen, in their order. -/
theorem diagnostics_mapM (f : α → Execution β) (items : List α) :
    (items.mapM f).diagnostics = (upToTermination (items.map f)).flatMap diagnostics := by
  rw [diagnostics, events_mapM, List.filterMap_flatMap]
  rfl

/-- The text of one line. -/
theorem lineText_singleton (line : String) : lineText [line] = line ++ "\n" := by
  rw [lineText, List.map_singleton, String.join_cons, String.join_nil, String.append_empty]

/-- The texts of runs one after another are the text of all their lines. -/
theorem join_diagnosticText (runs : List (Execution α)) :
    String.join (runs.map diagnosticText) = lineText (runs.flatMap diagnostics) := by
  induction runs with
  | nil => rfl
  | cons x rest ih =>
      rw [List.map_cons, String.join_cons, ih, List.flatMap_cons, diagnosticText, lineText,
        lineText, lineText, List.map_append, String.join_append]

end CheckedExecution.Execution
