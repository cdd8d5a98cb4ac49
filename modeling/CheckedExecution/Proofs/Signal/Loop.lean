import CheckedExecution.Signal.Loop
import Mathlib.Data.List.Basic
import Mathlib.Logic.Function.Iterate

/-!
# What a loop does with its signals

A loop evaluates its signals up to the first break or return, that one included, and nothing else
decides how far it gets. A value runs the bodies of the nested constructs from the innermost on and
then the loop body; any other signal runs none of them (`Signal.trace`). `runLoopFrom_eq` gives the
whole run in these terms. The main theorem, `signals_cross_nesting`, adds that the nesting leaves no
other mark on a run than the wrapping of its values.
-/

namespace CheckedExecution

variable {ι α ρ : Type}

/-! ## Members up to the first with a property -/

/-- The members of a list up to the first with the property, that one included, each with its
position. -/
def through {β : Type} (p : β → Bool) (start : Nat) (l : List β) : List (β × Nat) :=
  (l.zipIdx start).take (l.findIdx p + 1)

section Through

variable {β : Type} {p : β → Bool}

/-- Nothing follows a member with the property. -/
theorem through_cons_of_pos {x : β} (h : p x = true) (start : Nat) (rest : List β) :
    through p start (x :: rest) = [(x, start)] := by
  simp [through, List.findIdx_cons, h]

/-- What follows a member without the property is the same in any company. -/
theorem through_cons_of_neg {x : β} (h : p x = false) (start : Nat) (rest : List β) :
    through p start (x :: rest) = (x, start) :: through p (start + 1) rest := by
  simp [through, List.findIdx_cons, h]

/-- A position is not behind the first member with the property exactly if no member before it has
the property. -/
theorem le_findIdx_iff {i : Nat} {l : List β} (hi : i < l.length) :
    i ≤ l.findIdx p ↔ ∀ y ∈ l.take i, p y = false := by
  constructor
  · intro h y hy
    obtain ⟨j, hj, rfl⟩ := List.mem_take_iff_getElem.1 hy
    exact List.not_of_lt_findIdx (by omega)
  · intro h
    refine List.le_findIdx_of_not hi fun j hj => h _ ?_
    exact List.mem_take_iff_getElem.2 ⟨j, by omega, rfl⟩

/-- A member is reached exactly if none before it has the property. -/
theorem mem_through {x : β} {i : Nat} {l : List β} :
    (x, i) ∈ through p 0 l ↔ l[i]? = some x ∧ ∀ y ∈ l.take i, p y = false := by
  have hmem : (x, i) ∈ through p 0 l ↔ i ≤ l.findIdx p ∧ l[i]? = some x := by
    simp only [through, List.mem_iff_getElem?, List.getElem?_take, List.getElem?_zipIdx,
      Nat.lt_succ_iff, Nat.zero_add, Option.ite_none_right_eq_some, Option.map_eq_some_iff,
      Prod.mk.injEq, ↓existsAndEq, true_and, exists_eq_right_right]
  rw [hmem, and_comm]
  refine and_congr_right fun hx => le_findIdx_iff ?_
  exact (List.getElem?_eq_some_iff.1 hx).1

/-- The first member with the property is the one that is reached and has it. -/
theorem find?_eq_some_iff_mem_through {x : β} {l : List β} :
    l.find? p = some x ↔ p x = true ∧ ∃ i, (x, i) ∈ through p 0 l := by
  constructor
  · intro h
    rw [List.find?_eq_getElem?_findIdx] at h
    obtain ⟨hlt, rfl⟩ := List.getElem?_eq_some_iff.1 h
    exact ⟨List.findIdx_getElem, _, mem_through.2 ⟨h, (le_findIdx_iff hlt).1 (Nat.le_refl _)⟩⟩
  · rintro ⟨hx, i, hi⟩
    obtain ⟨hget, hbefore⟩ := mem_through.1 hi
    obtain ⟨hlt, rfl⟩ := List.getElem?_eq_some_iff.1 hget
    have hle := (le_findIdx_iff hlt).2 hbefore
    -- Were the position in front of the first member with the property, it would not have it.
    rw [List.find?_eq_getElem?_findIdx, ← hget]
    refine congrArg _ (Nat.le_antisymm (Nat.le_of_not_lt fun hlt' => ?_) hle)
    exact absurd hx (Bool.eq_false_iff.1 (List.not_of_lt_findIdx hlt'))

/-- The positions that are reached are the first ones. -/
theorem map_snd_through (p : β → Bool) (l : List β) :
    (through p 0 l).map Prod.snd = List.range (min (l.findIdx p + 1) l.length) := by
  rw [through, List.map_take, List.zipIdx_map_snd, ← List.range_eq_range', List.take_range]

/-- The members that are reached stand in the order of their positions. -/
theorem pairwise_through (p : β → Bool) (l : List β) :
    (through p 0 l).Pairwise fun x y => x.2 < y.2 := by
  rw [← List.pairwise_map, map_snd_through]
  exact List.pairwise_lt_range

end Through

/-! ## Signals in nested constructs -/

/-- The events of a signal that is evaluated at a position: for a value, the bodies of the nested
constructs from the innermost on, each on the value as it is wrapped so far, and the loop body. -/
def Signal.trace (wrap : α → α) (depth : Nat) (position : ι) :
    Signal α ρ → List (LoopEvent ι α)
  | value x =>
      .evaluated position :: (List.range depth).map (fun d => .nested (d + 1) (wrap^[d] x)) ++
        [.body (wrap^[depth] x)]
  | returned _ | loopBreak | loopContinue => [.evaluated position]

/-- A value runs the body of every nested construct and comes out wrapped once by each. -/
theorem Signal.nest_value (wrap : α → α) (depth : Nat) (x : α) :
    ((value x : Signal α ρ).nest wrap depth : List (LoopEvent ι α) × Signal α ρ) =
      ((List.range depth).map fun d => .nested (d + 1) (wrap^[d] x), value (wrap^[depth] x)) := by
  induction depth with
  | zero => rfl
  | succ depth ih =>
      rw [nest, ih, List.range_succ, List.map_append, Function.iterate_succ_apply']
      rfl

/-! ## What is left of a run without its nesting -/

/-- The position of an evaluation. -/
def LoopEvent.evaluated? : LoopEvent ι α → Option ι
  | evaluated position => some position
  | _ => none

/-- The evaluations are the events that have a position. -/
theorem LoopEvent.mem_filterMap_evaluated? {events : List (LoopEvent ι α)} {position : ι} :
    position ∈ events.filterMap evaluated? ↔ .evaluated position ∈ events := by
  rw [List.mem_filterMap]
  constructor
  · rintro ⟨event, hmem, hevent⟩
    cases event with
    | evaluated given =>
        cases hevent
        exact hmem
    | nested | body | finished | rowFinished => cases hevent
  · exact fun h => ⟨_, h, rfl⟩

/-- The event without its value, and nothing for the body of a nested construct. -/
def LoopEvent.outline? : LoopEvent ι α → Option (LoopEvent ι Unit)
  | evaluated position => some (.evaluated position)
  | nested _ _ => none
  | body _ => some (.body ())
  | finished => some .finished
  | rowFinished row => some (.rowFinished row)

/-- The run without nested constructs and values. The payload of a return stays. -/
def LoopRun.outline (run : LoopRun ι α ρ) : LoopRun ι Unit ρ :=
  ⟨run.events.filterMap LoopEvent.outline?, run.returned?⟩

/-- A signal is evaluated once. -/
theorem Signal.evaluated?_trace (wrap : α → α) (depth : Nat) (position : ι) (s : Signal α ρ) :
    (s.trace wrap depth position).filterMap LoopEvent.evaluated? = [position] := by
  cases s <;> simp [trace, LoopEvent.evaluated?]

/-- Without its nesting, the trace of a signal shows whether it has a value. -/
theorem Signal.outline?_trace (wrap : α → α) (depth : Nat) (position : ι) (s : Signal α ρ) :
    (s.trace wrap depth position).filterMap LoopEvent.outline? =
      .evaluated position :: if s.isValue then [.body ()] else [] := by
  cases s <;> simp [trace, LoopEvent.outline?, isValue]

/-! ## The run of a loop -/

/-- The signal ends the loop that it is resolved in. -/
def Signal.endsLoop (s : Signal α ρ) : Bool :=
  s.isLoopBreak || s.isReturned

/-- What stands after the loop runs unless a return ended it. -/
def afterLoop (last? : Option (Signal α ρ)) : List (LoopEvent ι α) :=
  if last?.any Signal.isReturned then [] else [.finished]

/-- The run of a loop: the traces of its signals up to the first that ends it. -/
theorem runLoopFrom_eq (wrap : α → α) (depth start : Nat) (signals : List (Signal α ρ)) :
    runLoopFrom wrap depth start signals =
      ⟨(through Signal.endsLoop start signals).flatMap (fun (s, i) => s.trace wrap depth i) ++
          afterLoop (signals.find? Signal.endsLoop),
        (signals.find? Signal.endsLoop).bind Signal.payload?⟩ := by
  -- By the signals from each position on: a value and a continue hand over to the rest, and the
  -- other two are the last that is evaluated.
  induction signals generalizing start with
  | nil => rfl
  | cons s rest ih =>
      cases s with
      | value x =>
          rw [runLoopFrom, Signal.nest_value, through_cons_of_neg rfl,
            List.find?_cons_of_neg Bool.false_ne_true]
          simp [Signal.loopStep, ih, LoopRun.after, Signal.trace]
      | returned payload | loopBreak =>
          rw [runLoopFrom, Signal.nest_of_loopStep_error rfl, through_cons_of_pos rfl,
            List.find?_cons_of_pos rfl]
          rfl
      | loopContinue =>
          rw [runLoopFrom, Signal.nest_of_loopStep_error rfl, through_cons_of_neg rfl,
            List.find?_cons_of_neg Bool.false_ne_true]
          simp [Signal.loopStep, ih, LoopRun.after, Signal.trace]

/-- The loop evaluates its signals up to the first that ends it, in order. -/
theorem evaluated?_runLoop (wrap : α → α) (depth : Nat) (signals : List (Signal α ρ)) :
    (runLoop wrap depth signals).events.filterMap LoopEvent.evaluated? =
      List.range (min (signals.findIdx Signal.endsLoop + 1) signals.length) := by
  have hafter : (afterLoop (signals.find? Signal.endsLoop) : List (LoopEvent Nat α)).filterMap
      LoopEvent.evaluated? = [] := by
    rw [afterLoop]
    split <;> rfl
  rw [runLoop, runLoopFrom_eq, List.filterMap_append, hafter, List.append_nil,
    List.filterMap_flatMap, ← map_snd_through, List.map_eq_flatMap]
  simp only [Signal.evaluated?_trace]

/-- Without its nesting, a run shows nothing of the depth and of the wrapping. -/
theorem outline_runLoop (wrap wrap' : α → α) (depth depth' : Nat) (signals : List (Signal α ρ)) :
    (runLoop wrap depth signals).outline = (runLoop wrap' depth' signals).outline := by
  simp only [runLoop, runLoopFrom_eq, LoopRun.outline, List.filterMap_append,
    List.filterMap_flatMap, Signal.outline?_trace]

/-- Signals cross any nesting unchanged. Let `k` be the position of the first break or return, or
the number of signals if there is none. The signals up to `k` are evaluated in order. Each of them
that is a value runs the body of every nested construct once, from the innermost on, and reaches the
loop body wrapped once by each; the others run none of these. A return at `k` is what the function
returns; otherwise what stands after the loop runs. Nothing else in a run depends on the nesting. -/
theorem signals_cross_nesting (wrap : α → α) (depth : Nat) (signals : List (Signal α ρ)) :
    let k := signals.findIdx fun s => s.isLoopBreak || s.isReturned
    let run := runLoop wrap depth signals
    run.events = (signals.zipIdx.take (k + 1)).flatMap (fun (s, i) => s.trace wrap depth i) ++
      (if signals[k]?.any Signal.isReturned then [] else [.finished]) ∧
    run.events.filterMap LoopEvent.evaluated? = List.range (min (k + 1) signals.length) ∧
    run.returned? = signals[k]?.bind Signal.payload? ∧
    ∀ (wrap' : α → α) (depth' : Nat), (runLoop wrap' depth' signals).outline = run.outline := by
  intro k run
  have hlast : signals[k]? = signals.find? Signal.endsLoop :=
    List.find?_eq_getElem?_findIdx.symm
  have hrun := runLoopFrom_eq wrap depth 0 signals
  refine ⟨?_, evaluated?_runLoop wrap depth signals, ?_, fun wrap' depth' => ?_⟩
  · rw [hlast]
    exact congrArg LoopRun.events hrun
  · rw [hlast]
    exact congrArg LoopRun.returned? hrun
  · exact outline_runLoop wrap' wrap depth' depth signals

end CheckedExecution
