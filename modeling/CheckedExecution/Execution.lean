/-!
# Executions

An execution is what running something leaves behind: the events in the order in which they
happened, and the value, which is absent exactly when the process was terminated on the way.
Executions compose: what follows a terminated execution never runs (`terminated_bind`), and the
events of a composition are those of its parts in order (`events_bind_of_value`).
-/

namespace CheckedExecution

/-- How much a log record matters. -/
inductive LogLevel where
  | trace | debug | info | warn
  deriving DecidableEq

/-- The level as it is written in a log. -/
def LogLevel.name : LogLevel → String
  | trace => "TRACE"
  | debug => "DEBUG"
  | info => "INFO"
  | warn => "WARN"

/-- A log record, with the part of the program that wrote it. -/
structure LogRecord where
  level : LogLevel
  target : String
  message : String
  deriving DecidableEq

/-- The record on one line. -/
def LogRecord.text (r : LogRecord) : String :=
  r.level.name ++ " " ++ r.target ++ ": " ++ r.message

/-- Something that can be observed of a running process. -/
inductive Event where
  /-- A line on the diagnostic stream. -/
  | diagnostic (line : String)
  /-- A line on the output stream. -/
  | output (line : String)
  /-- A record in the log. -/
  | logged (record : LogRecord)
  deriving DecidableEq

/-- The events of a run in order, and its value unless the process was terminated. -/
@[ext]
structure Execution (α : Type) where
  events : List Event
  value? : Option α
  deriving DecidableEq

namespace Execution

variable {α β : Type}

/-- A run with a value and no event. -/
def done (value : α) : Execution α :=
  ⟨[], some value⟩

/-- The second run after the first, unless the first was terminated. -/
def andThen (x : Execution α) (f : α → Execution β) : Execution β :=
  match x.value? with
  | none => ⟨x.events, none⟩
  | some value => ⟨x.events ++ (f value).events, (f value).value?⟩

instance : Monad Execution where
  pure := done
  bind := andThen

/-- The run that is terminated at once. -/
def terminate : Execution α :=
  ⟨[], none⟩

/-- A single event. -/
def happen (event : Event) : Execution Unit :=
  ⟨[event], some ()⟩

/-- A line on the diagnostic stream. -/
def diagnose (line : String) : Execution Unit :=
  happen (.diagnostic line)

/-- A line on the output stream. -/
def print (line : String) : Execution Unit :=
  happen (.output line)

/-- A record in the log. -/
def log (level : LogLevel) (target message : String) : Execution Unit :=
  happen (.logged ⟨level, target, message⟩)

/-- The lines of the diagnostic stream. -/
def diagnostics (x : Execution α) : List String :=
  x.events.filterMap fun
    | .diagnostic line => some line
    | _ => none

/-- The lines of the output stream. -/
def outputs (x : Execution α) : List String :=
  x.events.filterMap fun
    | .output line => some line
    | _ => none

/-- The text of lines, each with its end. -/
def lineText (lines : List String) : String :=
  String.join (lines.map (· ++ "\n"))

/-- What stands on the diagnostic stream. -/
def diagnosticText (x : Execution α) : String :=
  lineText x.diagnostics

/-- What stands on the output stream. -/
def outputText (x : Execution α) : String :=
  lineText x.outputs

/-- The log records. -/
def records (x : Execution α) : List LogRecord :=
  x.events.filterMap fun
    | .logged record => some record
    | _ => none

/-- The process was terminated. -/
def terminated (x : Execution α) : Bool :=
  x.value?.isNone

/-- The runs that happen when each follows the one before: up to the first that is terminated. -/
def upToTermination : List (Execution α) → List (Execution α)
  | [] => []
  | x :: rest => x :: if x.terminated then [] else upToTermination rest

/-- A pure run has a value and no event. -/
@[simp]
theorem pure_eq (value : α) : (pure value : Execution α) = ⟨[], some value⟩ := rfl

/-- A run that is terminated at once has neither. -/
@[simp]
theorem terminate_eq : (terminate : Execution α) = ⟨[], none⟩ := rfl

/-- Nothing runs after termination. -/
@[simp]
theorem terminated_bind (events : List Event) (f : α → Execution β) :
    ((⟨events, none⟩ : Execution α) >>= f) = ⟨events, none⟩ := rfl

/-- What follows a value runs with it, after the events so far. -/
@[simp]
theorem events_bind_of_value (events : List Event) (value : α) (f : α → Execution β) :
    ((⟨events, some value⟩ : Execution α) >>= f) =
      ⟨events ++ (f value).events, (f value).value?⟩ := rfl

/-- Mapping over a run with a value keeps its events. -/
@[simp]
theorem map_of_value (events : List Event) (value : α) (f : α → β) :
    f <$> (⟨events, some value⟩ : Execution α) = ⟨events, some (f value)⟩ := by
  simp [Functor.map, andThen, done]

/-- Mapping over a terminated run does nothing. -/
@[simp]
theorem map_terminated (events : List Event) (f : α → β) :
    f <$> (⟨events, none⟩ : Execution α) = ⟨events, none⟩ := rfl

/-- Composition is associative, and runs without events are its units. -/
instance : LawfulMonad Execution :=
  LawfulMonad.mk' Execution
    (by
      intro α x
      obtain ⟨events, value?⟩ := x
      cases value? <;> simp [Functor.map, andThen, done])
    (by
      intro α β value f
      simp)
    (by
      intro α β γ x f g
      obtain ⟨events, value?⟩ := x
      cases value? with
      | none => rfl
      | some value =>
          simp only [events_bind_of_value]
          generalize f value = y
          obtain ⟨later, value'?⟩ := y
          cases value'? <;> simp)

end Execution

end CheckedExecution
