import CheckedExecution.Proofs.Arithmetic.Evaluation
import CheckedExecution.Proofs.Execution.InOrder
import CheckedExecution.Proofs.Supervisor.Panic

/-!
# Checked operations under a supervisor

Of an operation two things matter to the program around it: whether it fits, and the value that the
program goes on with (`ArithmeticOp.Fits`, `ArithmeticOp.yield`). An operation that fits is silent
and yields its result. Any other one panics, and where the program survives that, it goes on with
the fallback.
-/

namespace CheckedExecution

namespace ArithmeticOp

variable {t : IntType} {op : ArithmeticOp} {a b : FixedInt t} {g v : Int}

/-- An operation has one gauge at most. -/
theorem gauge_unique {a b g other : Int} (h : op.Gauge a b g) (hother : op.Gauge a b other) :
    g = other := by
  cases op with
  | add | sub | mul => exact h.trans hother.symm
  | div | mod =>
      obtain ⟨_, h⟩ := h
      obtain ⟨_, hother⟩ := hother
      exact (truncatedDivision_iff.1 h).2.1.trans (truncatedDivision_iff.1 hother).2.1.symm

/-- The two divisions have one gauge. -/
theorem gauge_of_divides {op : ArithmeticOp} {a b : Int} (hdivides : op.Divides) (hb : b ≠ 0) :
    op.Gauge a b (a.tdiv b) := by
  have hdivision : TruncatedDivision a b (a.tdiv b) (a.tmod b) :=
    truncatedDivision_iff.2 ⟨hb, rfl, rfl⟩
  rcases hdivides with rfl | rfl <;> exact ⟨_, hdivision⟩

/-- The exact result of a division is the truncated quotient. -/
theorem exact_div {a b : Int} (hb : b ≠ 0) : div.Exact a b (a.tdiv b) :=
  ⟨_, truncatedDivision_iff.2 ⟨hb, rfl, rfl⟩⟩

/-- The exact result of a remainder is what the truncated quotient leaves. -/
theorem exact_mod {a b : Int} (hb : b ≠ 0) : mod.Exact a b (a.tmod b) :=
  ⟨_, truncatedDivision_iff.2 ⟨hb, rfl, rfl⟩⟩

/-- The operation has a gauge, and that is a value of the type. -/
def Fits (op : ArithmeticOp) (a b : FixedInt t) : Prop :=
  ∃ g, op.Gauge a.toInt b.toInt g ∧ t.Contains g

/-- The value of the operation: its result, or the fallback where it has none. -/
def yield (op : ArithmeticOp) (a b : FixedInt t) : FixedInt t :=
  match evaluate op a b with
  | .ok result => result
  | .error faulted => faulted.fallback

/-- A division by zero does not fit. -/
theorem not_fits_of_zero (hdivides : op.Divides) (hb : b.toInt = 0) : ¬ op.Fits a b :=
  fun ⟨_, hg, _⟩ => not_gauge_of_zero hdivides hb hg

/-- Any other operation fits exactly if the type contains its gauge. -/
theorem fits_iff (hg : op.Gauge a.toInt b.toInt g) : op.Fits a b ↔ t.Contains g := by
  constructor
  · rintro ⟨other, hother, hin⟩
    rwa [gauge_unique hg hother]
  · intro hin
    exact ⟨g, hg, hin⟩

/-- A division by zero yields the dividend. -/
theorem yield_of_zero (hdivides : op.Divides) (hb : b.toInt = 0) : op.yield a b = a := by
  rw [yield, evaluate_of_zero hdivides hb]

/-- Any other operation yields the value congruent to its exact result, whether it fits or not. -/
theorem yield_of_exact (hg : op.Gauge a.toInt b.toInt g) (hv : op.Exact a.toInt b.toInt v) :
    op.yield a b = FixedInt.wrap t v := by
  by_cases hin : t.Contains g
  · rw [yield, evaluate_of_contains hg hv hin]
  · rw [yield, evaluate_of_not_contains hg hv hin]

/-- For a divisor other than zero the division yields the residue of the quotient. -/
theorem yield_div (a b : FixedInt t) (hb : b.toInt ≠ 0) :
    div.yield a b = FixedInt.wrap t (a.toInt.tdiv b.toInt) :=
  yield_of_exact (gauge_of_divides (.inl rfl) hb) (exact_div hb)

/-- It leaves the exact remainder, which is a value of the type whether the quotient is one or not.
-/
theorem toInt_yield_mod (a b : FixedInt t) (hb : b.toInt ≠ 0) :
    (mod.yield a b).toInt = a.toInt.tmod b.toInt := by
  rw [yield_of_exact (gauge_of_divides (.inr rfl) hb) (exact_mod hb)]
  exact FixedInt.toInt_wrap_of_contains (FixedInt.contains_tmod a b.toInt)

/-- An operation that fits has its value as its result. -/
theorem evaluate_of_fits (h : op.Fits a b) : evaluate op a b = .ok (op.yield a b) := by
  obtain ⟨g, hg, hin⟩ := h
  obtain ⟨_, v, -, hv⟩ := exists_gauge_exact fun hzero => not_gauge_of_zero hzero.1 hzero.2 hg
  rw [yield_of_exact hg hv, evaluate_of_contains hg hv hin]

/-- An operation that does not fit has its value as the fallback of a fault. -/
theorem evaluate_of_not_fits (h : ¬ op.Fits a b) :
    ∃ fault, evaluate op a b = .error ⟨fault, op.yield a b⟩ := by
  by_cases hzero : op.Divides ∧ b.toInt = 0
  · rw [yield_of_zero hzero.1 hzero.2, evaluate_of_zero hzero.1 hzero.2]
    exact ⟨_, rfl⟩
  · obtain ⟨g, v, hg, hv⟩ := exists_gauge_exact hzero
    rw [yield_of_exact hg hv, evaluate_of_not_contains hg hv ((fits_iff hg).not.1 h)]
    exact ⟨_, rfl⟩

end ArithmeticOp

namespace Supervisor

variable {t : IntType} {op : ArithmeticOp} {a b : FixedInt t}

/-- An operation that fits is silent in both modes. -/
theorem checked_of_fits (h : op.Fits a b) (s : Supervisor) :
    s.checked op a b = ⟨[], some (op.yield a b)⟩ :=
  checked_of_ok (ArithmeticOp.evaluate_of_fits h) s

/-- An operation that does not fit panics before it yields its value. -/
theorem checked_of_not_fits (h : ¬ op.Fits a b) :
    ∃ message, ∀ s : Supervisor,
      s.checked op a b = (s.panic message >>= fun _ => pure (op.yield a b)) := by
  obtain ⟨fault, hfault⟩ := ArithmeticOp.evaluate_of_not_fits h
  refine ⟨fault.message, fun s => ?_⟩
  rw [checked_of_error hfault]

/-- In the mode that goes on, every operation yields its value. -/
theorem value?_checked_proceed (op : ArithmeticOp) (a b : FixedInt t) :
    (proceeding.checked op a b).value? = some (op.yield a b) := by
  by_cases h : op.Fits a b
  · rw [checked_of_fits h]
  · obtain ⟨message, hpanic⟩ := checked_of_not_fits h
    rw [hpanic, panic_proceed]
    rfl

/-- In abort mode, an operation that does not fit does not come back. -/
theorem value?_checked_abort (h : ¬ op.Fits a b) : (aborting.checked op a b).value? = none := by
  obtain ⟨message, hpanic⟩ := checked_of_not_fits h
  rw [hpanic, panic_abort]
  rfl

/-- The operations that fit are the silent ones. -/
theorem diagnostics_checked_eq_nil_iff (s : Supervisor) :
    (s.checked op a b).diagnostics = [] ↔ op.Fits a b := by
  constructor
  · intro hsilent
    by_contra h
    obtain ⟨message, hpanic⟩ := checked_of_not_fits h
    rw [hpanic, diagnostics_panic_bind_pure] at hsilent
    exact List.cons_ne_nil _ _ hsilent
  · intro h
    rw [checked_of_fits h]
    rfl

end Supervisor

end CheckedExecution
