import CheckedExecution.Proofs.Session.FirstUse
import CheckedExecution.Proofs.Supervisor.Modes
import Mathlib.Data.List.Forall2

/-!
# A session refines its supervisor

Operations, casts and panics can be asked of the session, of its exported symbols, or of a
supervisor that the caller holds. `Refines` relates the run of a call to the run of a step: the same
lines, the same answer, and an end of the process in the one where there is one in the other. A call
refines its step and leaves the supervisor in effect (`refines_perform`, `effective_of_perform`), so
a program of calls refines the program of its steps. The main theorem,
`session_refines_supervisor`, also says which operation each exported symbol stands for.
-/

namespace CheckedExecution.Session

/-- What can be asked of a session and of a supervisor alike. -/
inductive Request where
  /-- The result of an operation. -/
  | checked (op : ArithmeticOp) (type : IntType) (lhs rhs : FixedInt type)
  /-- A value at a target type. -/
  | cast (target : IntType) (source : TypedInt)
  /-- The result of an operation through its exported symbol. -/
  | exportedChecked (symbol : ArithmeticExport) (lhs rhs : FixedInt symbol.type)
  /-- A panic. -/
  | panic (message : String)
  /-- A panic through the exported symbol, with a pointer to bytes or the null pointer. -/
  | exportedPanic (bytes? : Option (List UInt8))

/-- The request, made of the session. -/
def Request.call : Request → Call
  | checked op type lhs rhs => .checked op type lhs rhs
  | cast target source => .cast target source
  | exportedChecked symbol lhs rhs => .exportedChecked symbol lhs rhs
  | panic message => .emit message
  | exportedPanic bytes? => .exportedPanic bytes?

/-- The request, made of a supervisor. -/
def Request.step : Request → Supervisor.Step
  | checked op type lhs rhs => .checked op type lhs rhs
  | cast target source => .cast target source
  | exportedChecked symbol lhs rhs => .checked symbol.op symbol.type lhs rhs
  | panic message => .panic message
  | exportedPanic bytes? => .panic (messageAt bytes?)

/-- Made of the session, a request has the session's supervisor perform its step. -/
theorem Request.use_call (request : Request) : request.call.use = .performs request.step := by
  cases request <;> rfl

/-- The run of a call is seen from outside as the run of a step. -/
structure Refines (x : Execution (Answer × Session)) (y : Execution (Option TypedInt)) : Prop where
  diagnostics_eq : x.diagnostics = y.diagnostics
  answer_eq : answer? x = y.value?.map Answer.ofResult

/-- Runs that are seen alike end the process alike. -/
theorem Refines.terminated_eq {x : Execution (Answer × Session)} {y : Execution (Option TypedInt)}
    (h : Refines x y) : x.terminated = y.terminated := by
  have hanswer : (answer? x).isNone = y.value?.isNone := by
    rw [h.answer_eq, Option.isNone_map]
  rw [answer?, Option.isNone_map] at hanswer
  exact hanswer

variable {p : Session}

/-- A use other than an installation leaves the supervisor in effect, whether or not it is the one
that fixes it. -/
theorem effective_after (p : Session) {use : Use} (h : ∀ settings, use ≠ .installs settings) :
    (p.after use).effective = p.effective := by
  rw [after]
  split
  · rw [Use.mode_of_not_installs h]
    rfl
  · rfl

/-- A request that is made of the session refines the step of the supervisor in effect. -/
theorem refines_perform (p : Session) (request : Request) :
    Refines (request.call.perform.run p) (p.effective.perform request.step) := by
  obtain ⟨hline, hvalue⟩ := performs_spec request.use_call p
  refine ⟨hline, ?_⟩
  rw [answer?, hvalue, Option.map_map]
  rfl

/-- A request that comes back leaves the supervisor in effect. -/
theorem effective_of_perform {request : Request} {answer : Answer} {q : Session}
    (h : (request.call.perform.run p).value? = some (answer, q)) : q.effective = p.effective := by
  rw [session_of_perform h]
  exact effective_after p (by simp [request.use_call])

/-- Requests that are made of the session refine the steps of the supervisor in effect, one by
one. -/
theorem refines_performAll (p : Session) (requests : List Request) :
    List.Forall₂ Refines (performAll (requests.map Request.call) p)
      (p.effective.performAll (requests.map Request.step)) := by
  -- Each request hands its session on, so the induction is over the requests for all sessions.
  induction requests generalizing p with
  | nil => exact .nil
  | cons request rest ih =>
      have hrefines := refines_perform p request
      -- Either side goes on exactly if its first run came back, which both did or neither.
      rw [performAll, List.map_cons, List.map_cons, List.map_cons, runAll, Supervisor.performAll,
        List.map_cons, Execution.upToTermination, ← hrefines.terminated_eq]
      refine .cons hrefines ?_
      cases hvalue : (request.call.perform.run p).value? with
      | none =>
          rw [Execution.terminated, hvalue]
          exact .nil
      | some value =>
          obtain ⟨answer, q⟩ := value
          rw [Execution.terminated, hvalue, ← effective_of_perform hvalue]
          exact ih q

/-- Lists of runs that are seen alike have the same observations. -/
theorem map_eq_of_refines {γ : Type} {xs : List (Execution (Answer × Session))}
    {ys : List (Execution (Option TypedInt))} (h : List.Forall₂ Refines xs ys)
    {f : Execution (Answer × Session) → γ} {g : Execution (Option TypedInt) → γ}
    (hfg : ∀ x y, Refines x y → f x = g y) : xs.map f = ys.map g := by
  rw [← List.forall₂_eq_eq_eq, List.forall₂_map_left_iff, List.forall₂_map_right_iff]
  exact h.imp hfg

/-- What stands on the diagnostic stream of the session is what the supervisor reported, each line
with its end. -/
theorem diagnosticText_performAll (p : Session) (requests : List Request) :
    String.join ((performAll (requests.map Request.call) p).map (·.diagnosticText)) =
      String.join ((p.effective.sequence (requests.map Request.step)).diagnostics.map
        (· ++ "\n")) := by
  have hlines := map_eq_of_refines (refines_performAll p requests) fun _ _ => Refines.diagnostics_eq
  rw [Execution.join_diagnosticText, Supervisor.diagnostics_sequence, List.flatMap_def, hlines,
    ← List.flatMap_def]
  rfl

/-! ## Exported symbols -/

/-- Each operation is found under the symbol made of its name and that of its type. -/
theorem arithmeticExport?_symbol (op : ArithmeticOp) :
    ∀ type ∈ exportTypes,
      arithmeticExport? ("tern_checked_" ++ op.name ++ "_" ++ type.name) = some ⟨op, type⟩ := by
  cases op <;> decide +kernel

/-- Each symbol of the table is made of the names of the operation that its place stands for and of
the type of its row. -/
theorem symbol_of_mem_arithmeticSymbols :
    ∀ entry ∈ arithmeticSymbols, entry.2.type ∈ exportTypes ∧
      entry.1 = "tern_checked_" ++ entry.2.op.name ++ "_" ++ entry.2.type.name := by
  decide +kernel

/-- A symbol is exported for an operation at a type exactly if it is made of their names. -/
theorem arithmeticExport?_eq_some_iff {symbol : String} {e : ArithmeticExport} :
    arithmeticExport? symbol = some e ↔
      e.type ∈ exportTypes ∧ symbol = "tern_checked_" ++ e.op.name ++ "_" ++ e.type.name := by
  constructor
  · exact fun h => symbol_of_mem_arithmeticSymbols _ (mem_of_lookup h)
  · rintro ⟨htype, rfl⟩
    exact arithmeticExport?_symbol e.op e.type htype

/-- A cast through the session goes through the underlying integer. -/
theorem infallibleCast_castSource {α : Type} [Castable α] (target : IntType) (value : α) :
    infallibleCast target value = infallibleCast target (castSource value) := rfl

/-- A call of an exported operation refines the operation of the supervisor in effect. -/
theorem exported_spec (e : ArithmeticExport) (a b : FixedInt e.type) (p : Session) :
    ((e.call a b).run p).diagnostics = (p.effective.checked e.op a b).diagnostics ∧
      ((e.call a b).run p).value?.map Prod.fst = (p.effective.checked e.op a b).value? := by
  obtain ⟨hline, hvalue⟩ := supervisor_spec p
  simp only [ArithmeticExport.call, Supervisor.operation_eq]
  rw [StateT.run_bind, Execution.diagnostics_bind hvalue, Execution.value?_bind hvalue,
    hline, run_lift, Execution.diagnostics_map, Execution.value?_map, Option.map_map]
  exact ⟨rfl, congrFun Option.map_id_fun' _⟩

/-- A program of operations, casts and panics does the same whether it goes through the session and
its exported symbols or through the supervisor in effect: each request is answered alike, the
process ends at the same request or not at all, and the diagnostic stream of the session holds the
lines that the supervisor reports. Each of the forty exported symbols stands for its own operation
at its own type, and no other symbol stands for any. The named operations of a session and of a
supervisor are what the shared definitions make of them. -/
theorem session_refines_supervisor (p : Session) (requests : List Request) :
    let runs := performAll (requests.map Request.call) p
    let explicit := p.effective.performAll (requests.map Request.step)
    runs.map answer? = explicit.map (fun y => y.value?.map Answer.ofResult) ∧
    runs.map (·.terminated) = explicit.map (·.terminated) ∧
    String.join (runs.map (·.diagnosticText)) =
      String.join ((p.effective.sequence (requests.map Request.step)).diagnostics.map
        (· ++ "\n")) ∧
    arithmeticExports.length = 40 ∧
    exportTypes = [.i8, .i16, .i32, .i64, .u8, .u16, .u32, .u64] ∧
    (∀ symbol e, arithmeticExport? symbol = some e ↔
      e.type ∈ exportTypes ∧ symbol = "tern_checked_" ++ e.op.name ++ "_" ++ e.type.name) ∧
    (∀ (op : ArithmeticOp) (type : IntType), type ∈ exportTypes →
      arithmeticExport? ("tern_checked_" ++ op.name ++ "_" ++ type.name) = some ⟨op, type⟩ ∧
      ∀ (q : Session) (lhs rhs : FixedInt type),
        let x := (ArithmeticExport.call ⟨op, type⟩ lhs rhs).run q
        x.diagnostics = (q.effective.checked op lhs rhs).diagnostics ∧
        x.value?.map Prod.fst = (q.effective.checked op lhs rhs).value?) ∧
    (∀ (type : IntType) (op : ArithmeticOp) (lhs rhs : FixedInt type),
      operation op lhs rhs = checked op lhs rhs ∧
        ∀ s : Supervisor, s.operation op lhs rhs = s.checked op lhs rhs) ∧
    (∀ (α : Type) [Castable α] (target : IntType) (value : α),
      infallibleCast target value = infallibleCast target (castSource value)) := by
  intro runs explicit
  have hrefines := refines_performAll p requests
  refine ⟨map_eq_of_refines hrefines fun _ _ => Refines.answer_eq,
    map_eq_of_refines hrefines fun _ _ => Refines.terminated_eq,
    diagnosticText_performAll p requests, by decide, by decide,
    fun symbol e => arithmeticExport?_eq_some_iff, fun op type htype => ⟨?_, ?_⟩, ?_, ?_⟩
  · exact arithmeticExport?_symbol op type htype
  · exact fun q lhs rhs => exported_spec ⟨op, type⟩ lhs rhs q
  · exact fun type op lhs rhs => ⟨operation_eq op lhs rhs, fun s => s.operation_eq op lhs rhs⟩
  · exact fun α _ => infallibleCast_castSource

end CheckedExecution.Session
