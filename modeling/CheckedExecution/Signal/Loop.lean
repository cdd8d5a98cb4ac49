import CheckedExecution.Signal

/-!
# Loops over signals

A loop evaluates one signal per iteration, passes it out through constructs nested in one another,
and resolves it in the loop. Each nested construct runs its body on a value and wraps up anything
else unchanged (`nest_of_loopStep_error`), so the loop acts on the signal as it was evaluated.

Two loops may be nested. The inner one then acts on itself, or through a label on the outer one.
Every run is given by the events that it passes through and by the payload it returns, if any.
-/

namespace CheckedExecution

/-- What happens while signals are evaluated in loops, cells being numbered within their row. -/
inductive LoopEvent (ι α : Type) where
  /-- The signal at a position is evaluated. -/
  | evaluated (position : ι)
  /-- The body of a nested construct runs, the innermost construct having depth one. -/
  | nested (depth : Nat) (value : α)
  /-- The rest of the loop body runs. -/
  | body (value : α)
  /-- What stands after the loop runs. -/
  | finished
  /-- What stands after the inner loop runs, at the end of a row. -/
  | rowFinished (row : Nat)
  deriving DecidableEq

/-- The run of a function over its loops: the events, and the payload of a return. -/
structure LoopRun (ι α ρ : Type) where
  events : List (LoopEvent ι α)
  returned? : Option ρ
  deriving DecidableEq

/-- The loop that a break or continue of the inner loop acts on. -/
inductive LoopLabel where
  | inner
  | outer
  deriving DecidableEq

variable {ι α ρ : Type}

/-- A run with further events in front. -/
def LoopRun.after (events : List (LoopEvent ι α)) (run : LoopRun ι α ρ) : LoopRun ι α ρ :=
  ⟨events ++ run.events, run.returned?⟩

/-- The signal passed out through nested constructs, each of which wraps a value once. -/
def Signal.nest (wrap : α → α) : Nat → Signal α ρ → List (LoopEvent ι α) × Signal α ρ
  | 0, s => ([], s)
  | depth + 1, s =>
      let (events, inner) := nest wrap depth s
      match inner.loopStep with
      | .ok x => (events ++ [.nested (depth + 1) x], .value (wrap x))
      | .error exit => (events, exit.toSignal)

/-- The run of a loop from the given iteration on. -/
def runLoopFrom (wrap : α → α) (depth : Nat) :
    Nat → List (Signal α ρ) → LoopRun Nat α ρ
  | _, [] => ⟨[.finished], none⟩
  | index, s :: rest =>
      let (events, resolved) := s.nest wrap depth
      let start := .evaluated index :: events
      match resolved.loopStep with
      | .ok x => (runLoopFrom wrap depth (index + 1) rest).after (start ++ [.body x])
      | .error (.returned payload) => ⟨start, some payload⟩
      | .error .leave => ⟨start ++ [.finished], none⟩
      | .error .skip => (runLoopFrom wrap depth (index + 1) rest).after start

/-- The run of a loop over the signals, each nested in so many constructs. -/
def runLoop (wrap : α → α) (depth : Nat) (signals : List (Signal α ρ)) : LoopRun Nat α ρ :=
  runLoopFrom wrap depth 0 signals

/-- How an inner loop ends. -/
inductive RowEnd (ρ : Type) where
  /-- The inner loop is over, and what stands after it runs. -/
  | finished
  /-- The function returns the payload. -/
  | returned (payload : ρ)
  /-- The outer loop is left. -/
  | leaveOuter
  /-- The outer loop goes on with its next row. -/
  | skipOuter
  deriving DecidableEq

/-- The end of the row for an exit under a label. Without it the row goes on. -/
def LoopLabel.rowEnd? : LoopLabel → LoopExit ρ → Option (RowEnd ρ)
  | _, .returned payload => some (.returned payload)
  | inner, .leave => some .finished
  | inner, .skip => none
  | outer, .leave => some .leaveOuter
  | outer, .skip => some .skipOuter

/-- The events of a row from the given column on, and how the row ends. -/
def runRowFrom (label : LoopLabel) (wrap : α → α) (depth row : Nat) :
    Nat → List (Signal α ρ) → List (LoopEvent (Nat × Nat) α) × RowEnd ρ
  | _, [] => ([], .finished)
  | column, s :: rest =>
      let (events, resolved) := s.nest wrap depth
      let start := .evaluated (row, column) :: events
      match resolved.loopStep with
      | .ok x =>
          let (later, ending) := runRowFrom label wrap depth row (column + 1) rest
          (start ++ .body x :: later, ending)
      | .error exit =>
          match label.rowEnd? exit with
          | some ending => (start, ending)
          | none =>
              let (later, ending) := runRowFrom label wrap depth row (column + 1) rest
              (start ++ later, ending)

/-- The run of two nested loops from the given row on. -/
def runGridFrom (label : LoopLabel) (wrap : α → α) (depth : Nat) :
    Nat → List (List (Signal α ρ)) → LoopRun (Nat × Nat) α ρ
  | _, [] => ⟨[], none⟩
  | row, cells :: rest =>
      let (events, ending) := runRowFrom label wrap depth row 0 cells
      match ending with
      | .finished =>
          (runGridFrom label wrap depth (row + 1) rest).after (events ++ [.rowFinished row])
      | .returned payload => ⟨events, some payload⟩
      | .leaveOuter => ⟨events, none⟩
      | .skipOuter => (runGridFrom label wrap depth (row + 1) rest).after events

/-- The run of two nested loops over rows of signals, each nested in so many constructs. -/
def runGrid (label : LoopLabel) (wrap : α → α) (depth : Nat) (rows : List (List (Signal α ρ))) :
    LoopRun (Nat × Nat) α ρ :=
  runGridFrom label wrap depth 0 rows

/-- A signal without a value passes through every nested construct unchanged and runs none of their
bodies. -/
theorem Signal.nest_of_loopStep_error {wrap : α → α} {s : Signal α ρ} {exit : LoopExit ρ}
    (h : s.loopStep = .error exit) (depth : Nat) :
    (s.nest wrap depth : List (LoopEvent ι α) × Signal α ρ) = ([], s) := by
  induction depth with
  | zero => rfl
  | succ depth ih => simp [nest, ih, h, toSignal_of_loopStep_error h]

end CheckedExecution
