/-!
# Panic modes

What happens after a panic has been reported: the process aborts, or it proceeds with a value that
stands in for the missing result.
-/

namespace CheckedExecution

/-- What happens after a panic has been reported. -/
inductive PanicMode where
  /-- The process is terminated. -/
  | abort
  /-- The caller goes on. -/
  | proceed
  deriving DecidableEq

namespace PanicMode

/-- Both modes. -/
def all : List PanicMode :=
  [abort, proceed]

/-- The name of the mode in a configuration. -/
def name : PanicMode → String
  | abort => "abort"
  | proceed => "continue"

/-- The name of the mode in a log. -/
def label : PanicMode → String
  | abort => "Abort"
  | proceed => "Continue"

/-- The mode of a name, which is matched exactly. -/
def ofName? (text : String) : Option PanicMode :=
  all.find? fun mode => mode.name == text

/-- Looking up a mode's own name finds the mode. -/
@[simp]
theorem ofName?_name (mode : PanicMode) : ofName? mode.name = some mode := by
  cases mode <;> decide

end PanicMode

end CheckedExecution
