import CheckedExecution.Proofs.Arithmetic.Evaluation
import CheckedExecution.Proofs.FixedInt.Literal
import CheckedExecution.Proofs.Supervisor.Panic

/-!
# What a report tells about its cause

A fault is reported with the operation, its kind and its operands, and a refused cast with the
number and the target type. These are the cause, and the report is a function of it. It is also
enough to recover it. The words in front of the first number say what failed, since no such opening
is the beginning of another (`opening_append_inj`), a number ends at the blank behind it, and what
follows is the other operand or the target. So two reports are equal exactly if their causes are
(`message_inj`). The main theorem, `report_identifies_cause`, says this of everything that can go
wrong at run time, and that a fault can be had again from its text.
-/

namespace CheckedExecution

/-- What went wrong, without the types that it went wrong at. -/
inductive Cause where
  /-- An operation on two numbers has no result. -/
  | arithmetic (op : ArithmeticOp) (kind : FaultKind) (lhs rhs : Int)
  /-- A number is no value of the target type. -/
  | cast (value : Int) (target : IntType)
  deriving DecidableEq

namespace Cause

/-- The operation that failed and how it did, absent for a cast. -/
def failure? : Cause → Option (ArithmeticOp × FaultKind)
  | arithmetic op kind _ _ => some (op, kind)
  | cast _ _ => none

/-- How the operation failed, absent for a cast. -/
def kind? (c : Cause) : Option FaultKind :=
  c.failure?.map Prod.snd

/-- The number that is reported first. -/
def subject : Cause → Int
  | arithmetic _ _ lhs _ => lhs
  | cast value _ => value

/-- The report of the cause. -/
def message : Cause → String
  | arithmetic op kind lhs rhs =>
      Fault.message ⟨op, kind, String.ofList (Decimal.ofInt lhs), String.ofList (Decimal.ofInt rhs)⟩
  | cast value target => CastError.message ⟨value, target⟩

/-! ## The parts of a report -/

/-- The words of a report in front of its first number. -/
def opening : Option (ArithmeticOp × FaultKind) → String
  | some (op, kind) => kind.text ++ " in checked " ++ op.noun ++ " '"
  | none => "Integer cast out of range: "

/-- Everything that can fail, a cast first. -/
def failures : List (Option (ArithmeticOp × FaultKind)) :=
  none :: ArithmeticOp.all.flatMap fun op =>
    [some (op, FaultKind.overflow), some (op, FaultKind.divisionByZero)]

/-- The words of a report behind the blank that follows its first number. -/
def closing : Cause → String
  | arithmetic op _ _ rhs => op.symbol ++ " " ++ String.ofList (Decimal.ofInt rhs) ++ "'"
  | cast _ target => "does not fit in " ++ target.name

/-- A report is put together from its parts. -/
theorem message_eq_parts (c : Cause) :
    c.message =
      opening c.failure? ++ (String.ofList (Decimal.ofInt c.subject) ++ (" " ++ c.closing)) := by
  cases c with
  | arithmetic op kind lhs rhs =>
      unfold message Fault.message failure? opening subject closing
      simp only [String.append_assoc]
  | cast value target =>
      have hblank : " does not fit in " = " " ++ "does not fit in " := by decide
      unfold message CastError.message failure? opening subject closing
      simp only [hblank, String.append_assoc]

/-- There is nothing else that can fail. -/
theorem mem_failures (failure : Option (ArithmeticOp × FaultKind)) : failure ∈ failures := by
  rcases failure with _ | ⟨op, kind⟩
  · decide
  · cases op <;> cases kind <;> decide

/-- No opening is the beginning of another. -/
theorem opening_prefixFree {f g : Option (ArithmeticOp × FaultKind)}
    (h : (opening f).toList <+: (opening g).toList) : f = g := by
  have hall : ∀ f ∈ failures, ∀ g ∈ failures,
      (opening f).toList <+: (opening g).toList → f = g := by decide +kernel
  exact hall f (mem_failures f) g (mem_failures g) h

/-- So the opening of a text is known, whatever follows it. -/
theorem opening_append_inj {f g : Option (ArithmeticOp × FaultKind)} {rest rest' : String}
    (h : opening f ++ rest = opening g ++ rest') : f = g := by
  have htext := congrArg String.toList h
  rw [String.toList_append, String.toList_append] at htext
  have hf : (opening f).toList <+: (opening g).toList ++ rest'.toList := ⟨rest.toList, htext⟩
  rcases List.prefix_or_prefix_of_prefix hf (List.prefix_append _ _) with hbegins | hbegins
  · exact opening_prefixFree hbegins
  · exact (opening_prefixFree hbegins).symm

/-- What failed, the first number and the words behind it make up the cause. -/
theorem eq_of_parts {c d : Cause} (hfailure : c.failure? = d.failure?)
    (hsubject : c.subject = d.subject) (hclosing : c.closing = d.closing) : c = d := by
  cases c with
  | arithmetic op kind lhs rhs =>
      cases d with
      | arithmetic op' kind' lhs' rhs' =>
          obtain ⟨rfl, rfl⟩ := Prod.mk.inj (Option.some.inj hfailure)
          have hlhs : lhs = lhs' := hsubject
          have htext := (String.append_right_inj _).1 ((String.append_left_inj _).1 hclosing)
          have hrhs : rhs = rhs' := Decimal.ofInt_injective (String.ofList_injective htext)
          rw [hlhs, hrhs]
      | cast => cases hfailure
  | cast value target =>
      cases d with
      | arithmetic => cases hfailure
      | cast value' target' =>
          have hvalue : value = value' := hsubject
          have hname : target.name = target'.name := (String.append_right_inj _).1 hclosing
          rw [hvalue, IntType.name_injective hname]

/-- Two reports are equal exactly if their causes are. -/
theorem message_inj {c d : Cause} : c.message = d.message ↔ c = d := by
  constructor
  · intro h
    rw [message_eq_parts, message_eq_parts] at h
    have hfailure : c.failure? = d.failure? := opening_append_inj h
    rw [hfailure, String.append_right_inj] at h
    obtain ⟨hsubject, hclosing⟩ := Decimal.ofInt_append_blank_inj h
    exact eq_of_parts hfailure hsubject hclosing
  · intro h
    rw [h]

end Cause

/-! ## What goes wrong at run time -/

/-- Something that goes wrong: an operation that faults, or a cast of a value that does not fit. -/
inductive Mishap : Type 1 where
  /-- The operation on two values of a type faults. -/
  | arithmetic {t : IntType} (op : ArithmeticOp) (a b : FixedInt t) (faulted : Faulted t) :
      evaluate op a b = .error faulted → Mishap
  /-- The target type does not contain the number of the value. -/
  | cast {α : Type} [Castable α] (target : IntType) (value : α) :
      ¬ target.Contains (castSource value).toInt → Mishap

namespace Mishap

/-- The cause of a mishap, with the numbers of the values that took part in it. -/
def cause : Mishap → Cause
  | arithmetic op a b faulted _ => .arithmetic op faulted.fault.kind a.toInt b.toInt
  | cast target value _ => .cast (castSource value).toInt target

/-- The message of the fault, or of the error that refuses the value. -/
def message : Mishap → String
  | arithmetic _ _ _ faulted _ => faulted.fault.message
  | cast target value _ => CastError.message ⟨(castSource value).toInt, target⟩

/-- The lines that a supervisor writes when the operation or the cast is carried out under it. -/
def lines (s : Supervisor) : Mishap → List String
  | arithmetic op a b _ _ => (s.checked op a b).diagnostics
  | cast target value _ => (s.infallibleCast target value).diagnostics

end Mishap

variable {t : IntType} {op : ArithmeticOp} {a b : FixedInt t} {faulted : Faulted t}

/-- A fault records the operation and the decimals of both operands. -/
theorem fault_of_evaluate_eq_error (h : evaluate op a b = .error faulted) :
    faulted.fault = ⟨op, faulted.fault.kind, a.toDecimal, b.toDecimal⟩ := by
  have hevaluates := evaluates_evaluate op a b
  rw [h] at hevaluates
  cases hevaluates with
  | zeroDivisor => rfl
  | overflow => rfl

namespace Mishap

/-- The message of a mishap is the report of its cause. -/
theorem message_eq (m : Mishap) : m.message = m.cause.message := by
  cases m with
  | arithmetic op a b faulted h =>
      show faulted.fault.message = Fault.message ⟨op, faulted.fault.kind, a.toDecimal, b.toDecimal⟩
      rw [← fault_of_evaluate_eq_error h]
  | cast => rfl

/-- A mishap is reported by one line, which says its message. -/
theorem lines_eq (s : Supervisor) (m : Mishap) :
    m.lines s = [Supervisor.panicLine m.message] := by
  cases m with
  | arithmetic op a b faulted h =>
      show (s.checked op a b).diagnostics = _
      rw [Supervisor.checked_of_error h, Supervisor.diagnostics_panic_bind_pure]
      rfl
  | cast target value h =>
      show (s.infallibleCast target value).diagnostics = _
      rw [Supervisor.infallibleCast_of_error (tryCast_of_not_contains h),
        Supervisor.diagnostics_panic_bind_pure]
      rfl

/-- The report of a mishap identifies its cause. Two messages are equal exactly if both mishaps are
faults of the same operation and kind with the same numbers in the same order, or both are casts of
the same number to the same type. So a division by zero is never reported like an overflow, nor a
fault like a cast. And a fault can be had again from what it records: both operands are read back at
the type, and the recorded operation on them faults in the same way with the same fallback. -/
theorem report_identifies_cause :
    (∀ m n : Mishap, m.message = n.message ↔ m.cause = n.cause) ∧
    (∀ m n : Mishap, m.cause.kind? ≠ n.cause.kind? → m.message ≠ n.message) ∧
    (∀ (s : Supervisor) (m : Mishap), m.lines s = [Supervisor.panicLine m.message]) ∧
    ∀ (t : IntType) (op : ArithmeticOp) (a b : FixedInt t) (faulted : Faulted t),
      evaluate op a b = .error faulted →
        FixedInt.ofLiteral t faulted.fault.lhs = .ok a ∧
        FixedInt.ofLiteral t faulted.fault.rhs = .ok b ∧
        evaluate faulted.fault.op a b = .error faulted := by
  have hinj : ∀ m n : Mishap, m.message = n.message ↔ m.cause = n.cause := by
    intro m n
    rw [message_eq, message_eq, Cause.message_inj]
  refine ⟨hinj, fun m n hkind hmessage => ?_, lines_eq, fun t op a b faulted h => ?_⟩
  · apply hkind
    rw [(hinj m n).1 hmessage]
  · rw [fault_of_evaluate_eq_error h]
    exact ⟨FixedInt.ofLiteral_toDecimal a, FixedInt.ofLiteral_toDecimal b, h⟩

end Mishap

end CheckedExecution
