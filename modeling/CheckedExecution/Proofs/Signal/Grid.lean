import CheckedExecution.Proofs.Signal.Loop

/-!
# What two nested loops do with their cells

The inner loop evaluates the cells of a row up to the first that stops it, and the outer loop enters
the rows up to the first that is not followed by another. Which signals stop a row, and what a
stopped row is followed by, depends on the label (`LoopLabel.stopsRow`, `LoopLabel.passesOn`,
`LoopLabel.finishesRow`). `runGridFrom_eq` gives the whole run in these terms. The main theorem,
`grid_evaluates_in_order`, adds for each cell and each row when it is reached.
-/

namespace CheckedExecution

variable {ι α ρ : Type}

namespace LoopLabel

/-- The signal keeps the later cells of its row from being evaluated. Without a label a break or a
return does, and under the label of the outer loop everything but a value. -/
def stopsRow : LoopLabel → Signal α ρ → Bool
  | inner, s => s.isLoopBreak || s.isReturned
  | outer, s => !s.isValue

/-- A row that the signal stopped is followed by the next row. Without a label a break leads there,
and under the label of the outer loop a continue. -/
def resumes : LoopLabel → Signal α ρ → Bool
  | inner, s => s.isLoopBreak
  | outer, s => s.isLoopContinue

/-- The row is followed by the next one: what stops it, if anything does, leads there. -/
def passesOn (label : LoopLabel) (cells : List (Signal α ρ)) : Bool :=
  (cells.find? label.stopsRow).all label.resumes

/-- What stands after the inner loop runs at the end of the row. Without a label, what stops the
row, if anything does, has to be a break. Under the label of the outer loop all cells have to be
values. -/
def finishesRow : LoopLabel → List (Signal α ρ) → Bool
  | inner, cells => (cells.find? inner.stopsRow).all Signal.isLoopBreak
  | outer, cells => cells.all Signal.isValue

end LoopLabel

/-! ## The run of a row -/

/-- Only a value is split into a value. -/
theorem Signal.eq_value_of_loopStep_ok {s : Signal α ρ} {x : α} (h : s.loopStep = .ok x) :
    s = value x := by
  cases s with
  | value y => exact congrArg value (Except.ok.inj h)
  | returned payload => cases h
  | loopBreak => cases h
  | loopContinue => cases h

/-- A signal without a value leaves nothing but its evaluation. -/
theorem Signal.trace_of_loopStep_error {s : Signal α ρ} {exit : LoopExit ρ}
    (h : s.loopStep = .error exit) (wrap : α → α) (depth : Nat) (position : ι) :
    s.trace wrap depth position = [.evaluated position] := by
  cases s with
  | value x => cases h
  | returned payload => rfl
  | loopBreak => rfl
  | loopContinue => rfl

/-- Only a return has a payload. -/
theorem Signal.eq_returned_of_payload? {s : Signal α ρ} {payload : ρ}
    (h : s.payload? = some payload) : s = returned payload := by
  cases s with
  | returned given => exact congrArg returned (Option.some.inj h)
  | value x => cases h
  | loopBreak => cases h
  | loopContinue => cases h

namespace LoopLabel

/-- A value stops no row. -/
theorem stopsRow_value (label : LoopLabel) (x : α) :
    label.stopsRow (.value x : Signal α ρ) = false := by
  cases label <;> rfl

/-- A signal without a value stops the row exactly if the inner loop ends with its exit. -/
theorem stopsRow_of_loopStep_error (label : LoopLabel) {s : Signal α ρ} {exit : LoopExit ρ}
    (h : s.loopStep = .error exit) : label.stopsRow s = (label.rowEnd? exit).isSome := by
  cases s with
  | value x => cases h
  | returned payload | loopBreak | loopContinue =>
      cases h
      cases label <;> rfl

/-- How a row ends, by the signal that stops it, if any. -/
def ending (label : LoopLabel) : Option (Signal α ρ) → RowEnd ρ
  | none => .finished
  | some s =>
      match s.loopStep with
      | .ok _ => .finished
      | .error exit => (label.rowEnd? exit).getD .finished

end LoopLabel

/-- The run of a row: the traces of its cells up to the first that stops it. -/
theorem runRowFrom_eq (label : LoopLabel) (wrap : α → α) (depth row start : Nat)
    (cells : List (Signal α ρ)) :
    runRowFrom label wrap depth row start cells =
      ((through label.stopsRow start cells).flatMap fun (s, c) => s.trace wrap depth (row, c),
        label.ending (cells.find? label.stopsRow)) := by
  induction cells generalizing start with
  | nil => rfl
  | cons s rest ih =>
      cases hs : s.loopStep with
      | ok x =>
          obtain rfl := Signal.eq_value_of_loopStep_ok hs
          rw [runRowFrom, Signal.nest_value, through_cons_of_neg (label.stopsRow_value x),
            List.find?_cons_of_neg (Bool.eq_false_iff.1 (label.stopsRow_value x))]
          simp [Signal.loopStep, ih, Signal.trace]
      | error exit =>
          -- The exit ends the inner loop or not; in the one case the row is over with it.
          have hstops := label.stopsRow_of_loopStep_error hs
          rw [runRowFrom, Signal.nest_of_loopStep_error hs]
          cases hend : label.rowEnd? exit with
          | none =>
              rw [hend] at hstops
              rw [through_cons_of_neg hstops, List.find?_cons_of_neg (Bool.eq_false_iff.1 hstops)]
              simp [hs, hend, ih, Signal.trace_of_loopStep_error hs]
          | some ending =>
              rw [hend] at hstops
              rw [through_cons_of_pos hstops, List.find?_cons_of_pos hstops]
              simp [hs, hend, LoopLabel.ending, Signal.trace_of_loopStep_error hs]

/-! ## The run of a grid -/

/-- The events of a row that is entered: the traces of its cells up to the first that stops it, and
what stands after the inner loop if that runs. -/
def LoopLabel.rowTrace (label : LoopLabel) (wrap : α → α) (depth : Nat)
    (cells : List (Signal α ρ)) (row : Nat) : List (LoopEvent (Nat × Nat) α) :=
  ((through label.stopsRow 0 cells).flatMap fun (s, c) => s.trace wrap depth (row, c)) ++
    if label.finishesRow cells then [.rowFinished row] else []

/-- Under the label of the outer loop, what stands after the inner loop runs exactly if nothing
stops the row. -/
theorem LoopLabel.finishesRow_outer (cells : List (Signal α ρ)) :
    outer.finishesRow cells = (cells.find? outer.stopsRow).isNone := by
  rw [finishesRow, Bool.eq_iff_iff, Option.isNone_iff_eq_none, List.find?_eq_none,
    List.all_eq_true]
  simp [stopsRow]

/-- How a row ends says whether it is followed by another, whether what stands after the inner loop
runs, and what the function returns, if the row makes it return. -/
theorem LoopLabel.ending_spec (label : LoopLabel) (cells : List (Signal α ρ)) :
    match label.ending (cells.find? label.stopsRow) with
    | .finished => label.passesOn cells = true ∧ label.finishesRow cells = true
    | .skipOuter => label.passesOn cells = true ∧ label.finishesRow cells = false
    | .leaveOuter => label.passesOn cells = false ∧ label.finishesRow cells = false ∧
        (cells.find? label.stopsRow).bind Signal.payload? = none
    | .returned payload => label.passesOn cells = false ∧ label.finishesRow cells = false ∧
        (cells.find? label.stopsRow).bind Signal.payload? = some payload := by
  have hstops : ∀ s, cells.find? label.stopsRow = some s → label.stopsRow s = true :=
    fun s => List.find?_some
  -- The row is read through the signal that stops it, which cannot be one that stops no row.
  cases label with
  | inner =>
      rw [passesOn, finishesRow]
      generalize cells.find? inner.stopsRow = last? at hstops
      match last? with
      | none => exact ⟨rfl, rfl⟩
      | some (.value x) => cases hstops _ rfl
      | some (.returned payload) => exact ⟨rfl, rfl, rfl⟩
      | some .loopBreak => exact ⟨rfl, rfl⟩
      | some .loopContinue => cases hstops _ rfl
  | outer =>
      rw [passesOn, finishesRow_outer]
      generalize cells.find? outer.stopsRow = last? at hstops
      match last? with
      | none => exact ⟨rfl, rfl⟩
      | some (.value x) => cases hstops _ rfl
      | some (.returned payload) => exact ⟨rfl, rfl, rfl⟩
      | some .loopBreak => exact ⟨rfl, rfl, rfl⟩
      | some .loopContinue => exact ⟨rfl, rfl⟩

/-- A row leaves its trace, and then the next row is entered or the run is over. -/
theorem runGridFrom_cons (label : LoopLabel) (wrap : α → α) (depth row : Nat)
    (cells : List (Signal α ρ)) (rest : List (List (Signal α ρ))) :
    runGridFrom label wrap depth row (cells :: rest) =
      if label.passesOn cells then
        (runGridFrom label wrap depth (row + 1) rest).after (label.rowTrace wrap depth cells row)
      else
        ⟨label.rowTrace wrap depth cells row,
          (cells.find? label.stopsRow).bind Signal.payload?⟩ := by
  -- Of the four ways to end a row, two enter the next one and two end the run.
  have hspec := label.ending_spec cells
  rw [runGridFrom, runRowFrom_eq, LoopLabel.rowTrace]
  cases hend : label.ending (cells.find? label.stopsRow) with
  | finished | skipOuter =>
      rw [hend] at hspec
      obtain ⟨hpasses, hfinishes⟩ := hspec
      simp [hpasses, hfinishes]
  | leaveOuter | returned payload =>
      rw [hend] at hspec
      obtain ⟨hpasses, hfinishes, hpayload⟩ := hspec
      simp [hpasses, hfinishes, hpayload]

/-- The run of a grid: the traces of its rows up to the first that is not followed by another. -/
theorem runGridFrom_eq (label : LoopLabel) (wrap : α → α) (depth start : Nat)
    (rows : List (List (Signal α ρ))) :
    runGridFrom label wrap depth start rows =
      ⟨(through (fun cells => !label.passesOn cells) start rows).flatMap
          fun (cells, r) => label.rowTrace wrap depth cells r,
        (rows.find? fun cells => !label.passesOn cells).bind fun cells =>
          (cells.find? label.stopsRow).bind Signal.payload?⟩ := by
  induction rows generalizing start with
  | nil => rfl
  | cons cells rest ih =>
      rw [runGridFrom_cons]
      cases hpasses : label.passesOn cells with
      | true =>
          rw [through_cons_of_neg (by simp [hpasses]), List.find?_cons_of_neg (by simp [hpasses])]
          simp [ih, LoopRun.after]
      | false =>
          rw [through_cons_of_pos (by simp [hpasses]), List.find?_cons_of_pos (by simp [hpasses])]
          simp

/-! ## The cells that are reached -/

namespace LoopLabel

variable {label : LoopLabel} {rows : List (List (Signal α ρ))}

/-- The rows that are entered, in their order, each with its position. -/
def entered (label : LoopLabel) (rows : List (List (Signal α ρ))) :
    List (List (Signal α ρ) × Nat) :=
  through (fun cells => !label.passesOn cells) 0 rows

/-- The cells that are evaluated, in their order, each with its row and column. -/
def reached (label : LoopLabel) (rows : List (List (Signal α ρ))) :
    List (Signal α ρ × (Nat × Nat)) :=
  (label.entered rows).flatMap fun (cells, r) =>
    (through label.stopsRow 0 cells).map fun (s, c) => (s, (r, c))

/-- A row is entered exactly if every earlier one is followed by the next. -/
theorem mem_entered {cells : List (Signal α ρ)} {r : Nat} :
    (cells, r) ∈ label.entered rows ↔
      rows[r]? = some cells ∧ ∀ earlier ∈ rows.take r, label.passesOn earlier = true := by
  rw [entered, mem_through]
  simp only [Bool.not_eq_false']

/-- A cell is reached exactly if its row is entered and no earlier cell stops the row. -/
theorem mem_reached {s : Signal α ρ} {r c : Nat} :
    (s, (r, c)) ∈ label.reached rows ↔
      ∃ cells, (cells, r) ∈ label.entered rows ∧ (s, c) ∈ through label.stopsRow 0 cells := by
  simp only [reached, List.mem_flatMap, List.mem_map, Prod.exists, Prod.mk.injEq]
  constructor
  · rintro ⟨cells, r, hrow, s, c, hcell, rfl, rfl, rfl⟩
    exact ⟨cells, hrow, hcell⟩
  · rintro ⟨cells, hrow, hcell⟩
    exact ⟨cells, r, hrow, s, c, hcell, rfl, rfl, rfl⟩

/-- A position is reached exactly if a cell stands there, no earlier cell stops its row, and every
earlier row is followed by the next. -/
theorem exists_mem_reached {r c : Nat} :
    (∃ s, (s, (r, c)) ∈ label.reached rows) ↔
      ∃ cells s, rows[r]? = some cells ∧ cells[c]? = some s ∧
        (∀ earlier ∈ cells.take c, label.stopsRow earlier = false) ∧
        ∀ earlier ∈ rows.take r, label.passesOn earlier = true := by
  constructor
  · rintro ⟨s, h⟩
    obtain ⟨cells, hrow, hcell⟩ := mem_reached.1 h
    obtain ⟨hcells, hentered⟩ := mem_entered.1 hrow
    obtain ⟨hs, hbefore⟩ := mem_through.1 hcell
    exact ⟨cells, s, hcells, hs, hbefore, hentered⟩
  · rintro ⟨cells, s, hcells, hs, hbefore, hentered⟩
    exact ⟨s, mem_reached.2
      ⟨cells, mem_entered.2 ⟨hcells, hentered⟩, mem_through.2 ⟨hs, hbefore⟩⟩⟩

/-- What is reached at a position is the cell that stands there. -/
theorem getElem?_of_mem_reached {s : Signal α ρ} {r c : Nat} {cells : List (Signal α ρ)}
    (h : (s, (r, c)) ∈ label.reached rows) (hcells : rows[r]? = some cells) :
    cells[c]? = some s := by
  obtain ⟨entered, hrow, hcell⟩ := mem_reached.1 h
  have hsame : rows[r]? = some entered := (mem_entered.1 hrow).1
  rw [hcells] at hsame
  cases hsame
  exact (mem_through.1 hcell).1

/-- The cells are reached in the order of their rows, and in each row in the order of their
columns. -/
theorem pairwise_reached (label : LoopLabel) (rows : List (List (Signal α ρ))) :
    (label.reached rows).Pairwise fun (_, (r, c)) (_, (r', c')) => r < r' ∨ r = r' ∧ c < c' := by
  rw [reached, List.pairwise_flatMap]
  -- Within a row the columns decide, and between two rows the rows alone.
  constructor
  · rintro ⟨cells, r⟩ -
    rw [List.pairwise_map]
    exact (pairwise_through label.stopsRow cells).imp fun h => .inr ⟨rfl, h⟩
  · refine (pairwise_through _ rows).imp fun {x y} h s hs s' hs' => ?_
    obtain ⟨_, -, rfl⟩ := List.mem_map.1 hs
    obtain ⟨_, -, rfl⟩ := List.mem_map.1 hs'
    exact .inl h

/-- A row that a return stops is not followed by another. -/
theorem passesOn_of_returned {cells : List (Signal α ρ)} {payload : ρ}
    (h : cells.find? label.stopsRow = some (.returned payload)) :
    label.passesOn cells = false := by
  rw [passesOn, h]
  cases label <;> rfl

end LoopLabel

/-! ## What is seen of a grid -/

/-- The value that the loop body runs on. -/
def LoopEvent.body? : LoopEvent ι α → Option α
  | body value => some value
  | _ => none

/-- A value reaches the loop body once, wrapped once by each nested construct. -/
theorem Signal.body?_trace (wrap : α → α) (depth : Nat) (position : ι) (s : Signal α ρ) :
    (s.trace wrap depth position).filterMap LoopEvent.body? =
      (s.value?.map wrap^[depth]).toList := by
  cases s <;> simp [trace, List.filterMap_cons, LoopEvent.body?, value?]

/-- No signal runs what stands after a loop. -/
theorem Signal.rowFinished_not_mem_trace (wrap : α → α) (depth row : Nat)
    (position : Nat × Nat) (s : Signal α ρ) :
    .rowFinished row ∉ s.trace wrap depth position := by
  cases s <;> simp [trace]

/-- The trace of a row ends with what stands after the inner loop exactly if that runs. -/
theorem LoopLabel.rowFinished_mem_rowTrace (label : LoopLabel) {wrap : α → α} {depth : Nat}
    {cells : List (Signal α ρ)} {r row : Nat} :
    .rowFinished r ∈ label.rowTrace wrap depth cells row ↔
      r = row ∧ label.finishesRow cells = true := by
  have htraces : .rowFinished r ∉ (through label.stopsRow 0 cells).flatMap fun (s, c) =>
      s.trace wrap depth (row, c) := by
    rw [List.mem_flatMap]
    rintro ⟨⟨s, c⟩, -, h⟩
    exact s.rowFinished_not_mem_trace wrap depth r (row, c) h
  rw [rowTrace, List.mem_append, or_iff_right htraces]
  split <;> simp_all

section Grid

variable (label : LoopLabel) (wrap : α → α) (depth : Nat) (rows : List (List (Signal α ρ)))

/-- What is seen of a grid's cells is what is seen of those that are reached, in their order. -/
theorem filterMap_runGrid {γ : Type} {f : LoopEvent (Nat × Nat) α → Option γ}
    (hf : ∀ row, f (.rowFinished row) = none) :
    (runGrid label wrap depth rows).events.filterMap f =
      (label.reached rows).flatMap fun (s, position) =>
        (s.trace wrap depth position).filterMap f := by
  have hrow : ∀ (cells : List (Signal α ρ)) (r : Nat),
      (label.rowTrace wrap depth cells r).filterMap f =
        (through label.stopsRow 0 cells).flatMap fun (s, c) =>
          (s.trace wrap depth (r, c)).filterMap f := by
    intro cells r
    rw [LoopLabel.rowTrace, List.filterMap_append, List.filterMap_flatMap]
    split <;> simp [hf]
  simp only [runGrid, runGridFrom_eq, List.filterMap_flatMap, hrow, LoopLabel.reached,
    LoopLabel.entered, List.flatMap_assoc, List.flatMap_map]

/-- The cells that are reached are evaluated, each once. -/
theorem evaluated?_runGrid :
    (runGrid label wrap depth rows).events.filterMap LoopEvent.evaluated? =
      (label.reached rows).map Prod.snd := by
  rw [filterMap_runGrid label wrap depth rows fun _ => rfl, List.map_eq_flatMap]
  simp only [Signal.evaluated?_trace]

/-- A cell is evaluated exactly if it is reached. -/
theorem evaluated_mem_runGrid {r c : Nat} :
    .evaluated (r, c) ∈ (runGrid label wrap depth rows).events ↔
      ∃ s, (s, (r, c)) ∈ label.reached rows := by
  rw [← LoopEvent.mem_filterMap_evaluated?, evaluated?_runGrid, List.mem_map]
  constructor
  · rintro ⟨⟨s, position⟩, h, rfl⟩
    exact ⟨s, h⟩
  · rintro ⟨s, h⟩
    exact ⟨(s, (r, c)), h, rfl⟩

/-- The values among the cells that are reached reach the loop body, each once. -/
theorem body?_runGrid :
    (runGrid label wrap depth rows).events.filterMap LoopEvent.body? =
      (label.reached rows).filterMap fun (s, _) => s.value?.map wrap^[depth] := by
  rw [filterMap_runGrid label wrap depth rows fun _ => rfl, List.filterMap_eq_flatMap_toList]
  simp only [Signal.body?_trace]

/-- What stands after the inner loop runs for the rows that are entered and that allow for it. -/
theorem rowFinished_mem_runGrid {r : Nat} :
    .rowFinished r ∈ (runGrid label wrap depth rows).events ↔
      ∃ cells, (cells, r) ∈ label.entered rows ∧ label.finishesRow cells = true := by
  rw [runGrid, runGridFrom_eq, List.mem_flatMap]
  constructor
  · rintro ⟨⟨cells, row⟩, hrow, h⟩
    obtain ⟨rfl, hfinishes⟩ := label.rowFinished_mem_rowTrace.1 h
    exact ⟨cells, hrow, hfinishes⟩
  · rintro ⟨cells, hrow, hfinishes⟩
    exact ⟨(cells, r), hrow, label.rowFinished_mem_rowTrace.2 ⟨rfl, hfinishes⟩⟩

/-- The function returns the payload of the return that is reached, if any. -/
theorem returned?_runGrid {payload : ρ} :
    (runGrid label wrap depth rows).returned? = some payload ↔
      ∃ position, (.returned payload, position) ∈ label.reached rows := by
  rw [runGrid, runGridFrom_eq]
  constructor
  · intro h
    obtain ⟨cells, hcells, h⟩ := Option.bind_eq_some_iff.1 h
    obtain ⟨s, hs, hpayload⟩ := Option.bind_eq_some_iff.1 h
    obtain rfl := Signal.eq_returned_of_payload? hpayload
    -- What was searched for was found at a position that is reached.
    obtain ⟨-, r, hr⟩ := find?_eq_some_iff_mem_through.1 hcells
    obtain ⟨-, c, hc⟩ := find?_eq_some_iff_mem_through.1 hs
    exact ⟨(r, c), LoopLabel.mem_reached.2 ⟨cells, hr, hc⟩⟩
  · rintro ⟨⟨r, c⟩, h⟩
    obtain ⟨cells, hr, hc⟩ := LoopLabel.mem_reached.1 h
    -- The return stops its row, and the row is the last that is entered.
    have hlast : cells.find? label.stopsRow = some (.returned payload) :=
      find?_eq_some_iff_mem_through.2 ⟨by cases label <;> rfl, c, hc⟩
    have hrow : (rows.find? fun cells => !label.passesOn cells) = some cells :=
      find?_eq_some_iff_mem_through.2 ⟨by simp [LoopLabel.passesOn_of_returned hlast], r, hr⟩
    simp [hrow, hlast, Signal.payload?]

/-- A return is reached exactly if it stands at a position that is evaluated. -/
theorem returned_mem_reached_iff {payload : ρ} :
    (∃ position, (.returned payload, position) ∈ label.reached rows) ↔
      ∃ r c cells, .evaluated (r, c) ∈ (runGrid label wrap depth rows).events ∧
        rows[r]? = some cells ∧ cells[c]? = some (.returned payload) := by
  constructor
  · rintro ⟨⟨r, c⟩, h⟩
    obtain ⟨cells, hrow, hcell⟩ := LoopLabel.mem_reached.1 h
    exact ⟨r, c, cells, (evaluated_mem_runGrid label wrap depth rows).2 ⟨_, h⟩,
      (LoopLabel.mem_entered.1 hrow).1, (mem_through.1 hcell).1⟩
  · rintro ⟨r, c, cells, h, hcells, hreturned⟩
    obtain ⟨s, hs⟩ := (evaluated_mem_runGrid label wrap depth rows).1 h
    have hcell := LoopLabel.getElem?_of_mem_reached hs hcells
    rw [hreturned] at hcell
    cases hcell
    exact ⟨(r, c), hs⟩

/-- Two nested loops evaluate their cells row by row. A cell is evaluated exactly if no earlier cell
stops its row and every earlier row is followed by the next; each evaluated value reaches the loop
body once, wrapped once by each nested construct, in the order of evaluation. What stands after the
inner loop runs for a row that is entered exactly if what stops the row, if anything does, allows
for it. The function returns the payload of the return that is evaluated, if there is one. All of
this holds with and without the label, which decide what stops a row and what follows it. -/
theorem grid_evaluates_in_order :
    let run := runGrid label wrap depth rows
    run.events =
      (label.entered rows).flatMap (fun (cells, r) => label.rowTrace wrap depth cells r) ∧
    run.events.filterMap LoopEvent.evaluated? = (label.reached rows).map Prod.snd ∧
    ((label.reached rows).Pairwise
      fun (_, (r, c)) (_, (r', c')) => r < r' ∨ r = r' ∧ c < c') ∧
    (∀ r c, .evaluated (r, c) ∈ run.events ↔
      ∃ cells s, rows[r]? = some cells ∧ cells[c]? = some s ∧
        (∀ earlier ∈ cells.take c, label.stopsRow earlier = false) ∧
        ∀ earlier ∈ rows.take r, label.passesOn earlier = true) ∧
    (∀ r, .rowFinished r ∈ run.events ↔
      ∃ cells, rows[r]? = some cells ∧
        (∀ earlier ∈ rows.take r, label.passesOn earlier = true) ∧
        label.finishesRow cells = true) ∧
    run.events.filterMap LoopEvent.body? =
      (label.reached rows).filterMap (fun (s, _) => s.value?.map wrap^[depth]) ∧
    ∀ payload, run.returned? = some payload ↔
      ∃ r c cells, .evaluated (r, c) ∈ run.events ∧ rows[r]? = some cells ∧
        cells[c]? = some (.returned payload) := by
  intro run
  refine ⟨congrArg LoopRun.events (runGridFrom_eq label wrap depth 0 rows),
    evaluated?_runGrid label wrap depth rows, label.pairwise_reached rows, fun r c => ?_,
    fun r => ?_, body?_runGrid label wrap depth rows, fun payload => ?_⟩
  · exact (evaluated_mem_runGrid label wrap depth rows).trans LoopLabel.exists_mem_reached
  · simp only [run, rowFinished_mem_runGrid, LoopLabel.mem_entered, and_assoc]
  · exact (returned?_runGrid label wrap depth rows).trans
      (returned_mem_reached_iff label wrap depth rows)

end Grid

end CheckedExecution
