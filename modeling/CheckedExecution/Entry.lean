import CheckedExecution.Cast
import CheckedExecution.Execution
import CheckedExecution.Text.Utf8

/-!
# Entry points

A program's main function gets its arguments in a container, in order and without any left out, and
its result becomes an exit code: a value is cut to its low eight bits, and an error is reported on
the diagnostic stream with a fixed code.
-/

namespace CheckedExecution

/-- A container of arguments: it can be empty, and an argument can be appended. -/
class ArgumentContainer (γ : Type) where
  empty : γ
  append : γ → String → γ

/-- A list takes arguments at its end. -/
instance : ArgumentContainer (List String) where
  empty := []
  append arguments argument := arguments ++ [argument]

/-- An array takes arguments at its end. -/
instance : ArgumentContainer (Array String) where
  empty := #[]
  append := Array.push

namespace Entry

/-- The container with all arguments appended in order. -/
def collect (γ : Type) [ArgumentContainer γ] (arguments : List String) : γ :=
  arguments.foldl ArgumentContainer.append ArgumentContainer.empty

/-- The exit code of a program that ended with an error. -/
def errorCode : FixedInt .u8 :=
  FixedInt.one .u8

/-- The line that reports an error. -/
def errorLine (message : String) : String :=
  "Runtime error: " ++ message

/-- The part of the program that the log names for entry points. -/
def logTarget : String :=
  "tern_runtime::entry"

/-- The exit code of a result. An error is reported. -/
def exitCode {τ ε : Type} [Castable τ] [ToString ε] :
    Except ε τ → Execution (FixedInt .u8)
  | .ok value => return truncatingCast .u8 value
  | .error error => do
      Execution.diagnose (errorLine (toString error))
      return errorCode

/-- The exit code of a main function that is run on the arguments. -/
def run {γ τ ε : Type} [ArgumentContainer γ] [Castable τ] [ToString ε] {m : Type → Type} [Monad m]
    [MonadLiftT Execution m] (arguments : List String) (main : γ → m (Except ε τ)) :
    m (FixedInt .u8) := do
  let result ← main (collect γ arguments)
  let code ← exitCode result
  Execution.log .debug logTarget ("entry point finished with exit code " ++ code.toDecimal)
  return code

/-- The arguments that a process is started with, as text. Bytes that are not text are replaced, and
no argument is left out. -/
def decodeArguments (raw : List (List UInt8)) : List String :=
  raw.map Utf8.decodeLossy

/-- The exit code of a main function that is run on the arguments of a process, the program's name
first. -/
def runProcess {γ τ ε : Type} [ArgumentContainer γ] [Castable τ] [ToString ε] {m : Type → Type}
    [Monad m] [MonadLiftT Execution m] (raw : List (List UInt8)) (main : γ → m (Except ε τ)) :
    m (FixedInt .u8) := do
  let arguments := decodeArguments raw
  Execution.log .debug logTarget
    ("entering program with " ++ String.ofList (Decimal.digits arguments.length) ++
      " argument(s)")
  run arguments main

/-- Collecting into a list gives the arguments. -/
@[simp]
theorem collect_list (arguments : List String) : collect (List String) arguments = arguments := by
  have h : ∀ (rest seen : List String),
      rest.foldl ArgumentContainer.append seen = seen ++ rest := by
    intro rest
    induction rest with
    | nil => simp
    | cons argument rest ih =>
        intro seen
        rw [List.foldl_cons, ih]
        simp [ArgumentContainer.append]
  exact (h arguments []).trans (List.nil_append arguments)

end Entry

end CheckedExecution
