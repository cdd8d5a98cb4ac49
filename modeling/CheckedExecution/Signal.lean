/-!
# Control signals

An expression that may cut the surrounding code short evaluates to a signal: a plain value, a return
from the function, or a break or continue of the enclosing loop. A resolution point inside a loop
splits a signal into its value or the exit that the loop acts on (`loopStep`), and a construct that
only passes the exit on wraps it up again (`LoopExit.toSignal`), which loses nothing
(`toSignal_of_loopStep_error`).
-/

namespace CheckedExecution

/-- The outcome of an expression that may cut the surrounding code short. -/
inductive Signal (α ρ : Type) where
  /-- A plain value. -/
  | value (value : α)
  /-- The function returns the payload. -/
  | returned (payload : ρ)
  /-- The nearest enclosing loop is left. -/
  | loopBreak
  /-- The nearest enclosing loop goes on with its next iteration. -/
  | loopContinue
  deriving DecidableEq

/-- What a loop acts on when there is no value. -/
inductive LoopExit (ρ : Type) where
  /-- The function returns the payload. -/
  | returned (payload : ρ)
  /-- The loop is left. -/
  | leave
  /-- The loop goes on with its next iteration. -/
  | skip
  deriving DecidableEq

variable {α ρ : Type}

namespace Signal

/-- The signal carries a value. -/
def isValue : Signal α ρ → Bool
  | value _ => true
  | _ => false

/-- The signal returns from the function. -/
def isReturned : Signal α ρ → Bool
  | returned _ => true
  | _ => false

/-- The signal leaves the loop. -/
def isLoopBreak : Signal α ρ → Bool
  | loopBreak => true
  | _ => false

/-- The signal goes on with the next iteration. -/
def isLoopContinue : Signal α ρ → Bool
  | loopContinue => true
  | _ => false

/-- The value, if there is one. -/
def value? : Signal α ρ → Option α
  | value x => some x
  | _ => none

/-- The payload of a return, if it is one. -/
def payload? : Signal α ρ → Option ρ
  | returned payload => some payload
  | _ => none

/-- The value, or the exit that a loop acts on. -/
def loopStep : Signal α ρ → Except (LoopExit ρ) α
  | value x => .ok x
  | returned payload => .error (.returned payload)
  | loopBreak => .error .leave
  | loopContinue => .error .skip

end Signal

/-- The exit wrapped up again, for the next resolution point. -/
def LoopExit.toSignal : LoopExit ρ → Signal α ρ
  | returned payload => .returned payload
  | leave => .loopBreak
  | skip => .loopContinue

/-- Wrapping an exit up again gives the signal it came from. -/
theorem Signal.toSignal_of_loopStep_error {s : Signal α ρ} {exit : LoopExit ρ}
    (h : s.loopStep = .error exit) : (exit.toSignal : Signal α ρ) = s := by
  cases s <;> simp_all [loopStep] <;> subst h <;> rfl

end CheckedExecution
