import CheckedExecution.FixedInt.Shift
import CheckedExecution.Settings
import CheckedExecution.Signal
import CheckedExecution.Supervisor

/-!
# Sessions

A session is the run of one process. It has one supervisor, which is fixed by the first use.
`install` fixes the one that it is given, and every other use fixes the one of the build with the
variable of the environment applied. Once fixed it is what every use gets
(`supervisor_of_installed`). Natively compiled programs reach the operations through exported
symbols, a table with a row for each type.
-/

namespace CheckedExecution

/-- What the run of a process has: the default mode of its build, a variable of the environment, the
files and the current directory, and its supervisor once it is fixed. -/
structure Session where
  buildDefault : PanicMode
  variableBytes : Option (List UInt8)
  files : FileSystem
  current : Location
  supervisor? : Option Supervisor
  deriving DecidableEq

namespace Session

/-- Something done in a session. -/
abbrev Action := StateT Session Execution

/-- A session at its start, whose supervisor is not fixed. -/
def fresh (buildDefault : PanicMode) (variableBytes : Option (List UInt8)) (files : FileSystem)
    (current : Location) : Session :=
  ⟨buildDefault, variableBytes, files, current, none⟩

/-- What the log calls the part of the program that panics. -/
def panicTarget : String :=
  "tern_runtime::panic"

/-- Fixes the supervisor. The answer is no, and nothing changes, where it is fixed already. -/
def install (settings : Settings) : Action Bool := do
  match (← get).supervisor? with
  | none =>
      modify fun p => { p with supervisor? := some ⟨settings.panicMode⟩ }
      Execution.log .debug panicTarget
        ("installed runtime with panic mode " ++ settings.panicMode.label)
      return true
  | some _ =>
      Execution.log .warn panicTarget
        ("runtime already installed, ignoring panic mode " ++ settings.panicMode.label)
      return false

/-- The supervisor of the session. The first use fixes that of the build with the variable
applied. -/
def supervisor : Action Supervisor := do
  let p ← get
  match p.supervisor? with
  | some s => return s
  | none =>
      let settings ←
        Settings.applyVariable ⟨p.buildDefault⟩ (Settings.variableText? p.variableBytes)
      Execution.log .debug panicTarget
        ("installing default runtime, panic mode " ++ settings.panicMode.label)
      modify fun p => { p with supervisor? := some ⟨settings.panicMode⟩ }
      return ⟨settings.panicMode⟩

/-- Once fixed, the supervisor is the one that every use gets, and nothing else happens. -/
theorem supervisor_of_installed {p : Session} {s : Supervisor} (h : p.supervisor? = some s) :
    supervisor.run p = ⟨[], some (s, p)⟩ := by
  simp [supervisor, h, StateT.run_bind]

/-- Panics through the supervisor of the session. -/
def emit (message : String) : Action Unit := do
  (← supervisor).panic message

variable {t : IntType}

/-- The operation through the supervisor of the session. -/
def checked (op : ArithmeticOp) (a b : FixedInt t) : Action (FixedInt t) := do
  (← supervisor).checked op a b

/-- The sum through the supervisor of the session. -/
def checkedAdd (a b : FixedInt t) : Action (FixedInt t) := do
  (← supervisor).checkedAdd a b

/-- The difference through the supervisor of the session. -/
def checkedSub (a b : FixedInt t) : Action (FixedInt t) := do
  (← supervisor).checkedSub a b

/-- The product through the supervisor of the session. -/
def checkedMul (a b : FixedInt t) : Action (FixedInt t) := do
  (← supervisor).checkedMul a b

/-- The quotient through the supervisor of the session. -/
def checkedDiv (a b : FixedInt t) : Action (FixedInt t) := do
  (← supervisor).checkedDiv a b

/-- The remainder through the supervisor of the session. -/
def checkedMod (a b : FixedInt t) : Action (FixedInt t) := do
  (← supervisor).checkedMod a b

/-- The operation by its own name, through the supervisor of the session. -/
def operation (op : ArithmeticOp) (a b : FixedInt t) : Action (FixedInt t) :=
  match op with
  | .add => checkedAdd a b
  | .sub => checkedSub a b
  | .mul => checkedMul a b
  | .div => checkedDiv a b
  | .mod => checkedMod a b

/-- Under its own name each operation is what the shared definition makes of it. -/
@[simp]
theorem operation_eq (op : ArithmeticOp) (a b : FixedInt t) :
    operation op a b = checked op a b := by
  cases op <;> rfl

/-- The cast through the supervisor of the session. -/
def infallibleCast {α : Type} [Castable α] (target : IntType) (value : α) :
    Action (FixedInt target) := do
  (← supervisor).infallibleCast target value

/-! ## Signals outside of loops -/

/-- What is reported for an exit that has no loop to act on. -/
def strayExitMessage (what : String) : String :=
  "Loop " ++ what ++ " reached a return-only resolution point"

/-- The value of a signal outside of any loop, or the payload that the function returns. A break or
continue leaves nothing to go on with and ends the process. -/
def functionStep {α ρ : Type} (s : Signal α ρ) : Action (Except ρ α) := do
  match s.loopStep with
  | .ok x => return .ok x
  | .error (.returned payload) => return .error payload
  | .error .leave => (← supervisor).panicUnrecoverable (strayExitMessage "break")
  | .error .skip => (← supervisor).panicUnrecoverable (strayExitMessage "continue")

/-- A function body that resolves signals one after another and does something with each value. The
payload is that of the return that ended it, if one did. -/
def functionBody {α ρ : Type} (use : α → Action Unit) : List (Signal α ρ) → Action (Option ρ)
  | [] => return none
  | s :: rest => do
      match ← functionStep s with
      | .error payload => return some payload
      | .ok x =>
          use x
          functionBody use rest

/-! ## Exported symbols -/

/-- The symbols that are exported for a type, one for each operation and one for the right shift. -/
structure ExportRow where
  type : IntType
  add : String
  sub : String
  mul : String
  div : String
  mod : String
  shift : String
  deriving DecidableEq

/-- The exported symbols, a row for each type. -/
def exportTable : List ExportRow :=
  [⟨.i8, "tern_checked_add_i8", "tern_checked_sub_i8", "tern_checked_mul_i8",
      "tern_checked_div_i8", "tern_checked_mod_i8", "tern_shr_i8"⟩,
   ⟨.i16, "tern_checked_add_i16", "tern_checked_sub_i16", "tern_checked_mul_i16",
      "tern_checked_div_i16", "tern_checked_mod_i16", "tern_shr_i16"⟩,
   ⟨.i32, "tern_checked_add_i32", "tern_checked_sub_i32", "tern_checked_mul_i32",
      "tern_checked_div_i32", "tern_checked_mod_i32", "tern_shr_i32"⟩,
   ⟨.i64, "tern_checked_add_i64", "tern_checked_sub_i64", "tern_checked_mul_i64",
      "tern_checked_div_i64", "tern_checked_mod_i64", "tern_shr_i64"⟩,
   ⟨.u8, "tern_checked_add_u8", "tern_checked_sub_u8", "tern_checked_mul_u8",
      "tern_checked_div_u8", "tern_checked_mod_u8", "tern_shr_u8"⟩,
   ⟨.u16, "tern_checked_add_u16", "tern_checked_sub_u16", "tern_checked_mul_u16",
      "tern_checked_div_u16", "tern_checked_mod_u16", "tern_shr_u16"⟩,
   ⟨.u32, "tern_checked_add_u32", "tern_checked_sub_u32", "tern_checked_mul_u32",
      "tern_checked_div_u32", "tern_checked_mod_u32", "tern_shr_u32"⟩,
   ⟨.u64, "tern_checked_add_u64", "tern_checked_sub_u64", "tern_checked_mul_u64",
      "tern_checked_div_u64", "tern_checked_mod_u64", "tern_shr_u64"⟩]

/-- The types that symbols are exported for. -/
def exportTypes : List IntType :=
  exportTable.map ExportRow.type

/-- An exported operation on two values of a type. -/
structure ArithmeticExport where
  op : ArithmeticOp
  type : IntType
  deriving DecidableEq

/-- The symbols of a row, each with the operation that its place in the row stands for. -/
def ExportRow.operations (row : ExportRow) : List (String × ArithmeticExport) :=
  [(row.add, ⟨.add, row.type⟩), (row.sub, ⟨.sub, row.type⟩), (row.mul, ⟨.mul, row.type⟩),
   (row.div, ⟨.div, row.type⟩), (row.mod, ⟨.mod, row.type⟩)]

/-- The symbols of all operations, each with its operation. -/
def arithmeticSymbols : List (String × ArithmeticExport) :=
  exportTable.flatMap ExportRow.operations

/-- The exported operations. -/
def arithmeticExports : List ArithmeticExport :=
  arithmeticSymbols.map Prod.snd

/-- The operation that a symbol is exported for. -/
def arithmeticExport? (symbol : String) : Option ArithmeticExport :=
  arithmeticSymbols.lookup symbol

/-- A call of an exported operation. -/
def ArithmeticExport.call (e : ArithmeticExport) (a b : FixedInt e.type) :
    Action (FixedInt e.type) := do
  (← supervisor).operation e.op a b

/-- The type that a symbol exports the right shift for. -/
def shiftExport? (symbol : String) : Option IntType :=
  (exportTable.map fun row => (row.shift, row.type)).lookup symbol

/-- What a symbol is found to stand for is behind it in the table. -/
theorem mem_of_lookup {α : Type} {table : List (String × α)} {symbol : String} {x : α}
    (h : table.lookup symbol = some x) : (symbol, x) ∈ table := by
  obtain ⟨_, _, rfl, -⟩ := List.lookup_eq_some_iff.1 h
  exact List.mem_append_right _ List.mem_cons_self

/-- A call of the exported right shift, which leaves the session alone. -/
def callShift {type : IntType} (value : FixedInt type) (steps : Nat) : Action (FixedInt type) :=
  return value.arithmeticShiftRight steps

/-- A call of the exported installation. -/
def callInstall (proceeds : Bool) : Action Bool :=
  install ⟨if proceeds then .proceed else .abort⟩

/-- The text that a pointer leads to: the bytes before the first zero byte, decoded lossily, and a
fixed text for the null pointer. -/
def messageAt : Option (List UInt8) → String
  | none => "<no message>"
  | some bytes => Utf8.decodeLossy (bytes.takeWhile (· ≠ 0))

/-- A call of the exported panic with a pointer to bytes, or with the null pointer. -/
def callPanic (bytes? : Option (List UInt8)) : Action Unit :=
  emit (messageAt bytes?)

end Session

end CheckedExecution
