import CheckedExecution.Proofs.Cast.Policies
import CheckedExecution.Proofs.Supervisor.Checked

/-!
# Expressions of checked operations

An expression has values of one type at its leaves, and sums, differences and products above them.
It is run under a supervisor from left to right, and it has an exact integer. Where a panic does not
end the process, every overflow leaves the residue of the exact integer (`value?_run_proceed`), so
the result is that residue whatever happened on the way, at the type itself and at every narrower
one. In abort mode a run that comes back has met no overflow at all (`run_of_contains`,
`value?_run_abort`). The main theorem is `run_agrees_with_integer`.
-/

namespace CheckedExecution

/-- The operations that respect residues. -/
inductive RingOp where
  | add | sub | mul

namespace RingOp

/-- The checked operation. -/
def checkedOp : RingOp → ArithmeticOp
  | add => .add
  | sub => .sub
  | mul => .mul

/-- The operation on integers. -/
def onInt : RingOp → Int → Int → Int
  | add, a, b => a + b
  | sub, a, b => a - b
  | mul, a, b => a * b

/-- The integer operation is the exact meaning of the checked one. -/
theorem exact_onInt (op : RingOp) (a b : Int) : op.checkedOp.Exact a b (op.onInt a b) := by
  cases op <;> rfl

/-- The checked operation is gauged by its result. -/
theorem gauge_onInt (op : RingOp) (a b : Int) : op.checkedOp.Gauge a b (op.onInt a b) := by
  cases op <;> rfl

/-- The residue of the result depends on nothing but the residues of the operands. -/
theorem onInt_modEq (op : RingOp) {n a a' b b' : Int} (ha : a ≡ a' [ZMOD n])
    (hb : b ≡ b' [ZMOD n]) : op.onInt a b ≡ op.onInt a' b' [ZMOD n] := by
  cases op with
  | add => exact ha.add hb
  | sub => exact ha.sub hb
  | mul => exact ha.mul hb

variable {t : IntType}

/-- The operation fits exactly if the result is a value of the type. -/
theorem fits_iff (op : RingOp) (a b : FixedInt t) :
    op.checkedOp.Fits a b ↔ t.Contains (op.onInt a.toInt b.toInt) :=
  ArithmeticOp.fits_iff (op.gauge_onInt a.toInt b.toInt)

/-- It yields the residue of the result, whether it fits or not. -/
theorem yield_eq (op : RingOp) (a b : FixedInt t) :
    op.checkedOp.yield a b = FixedInt.wrap t (op.onInt a.toInt b.toInt) :=
  ArithmeticOp.yield_of_exact (op.gauge_onInt a.toInt b.toInt) (op.exact_onInt a.toInt b.toInt)

end RingOp

/-- An expression over values of a type. -/
inductive Expression (t : IntType) where
  /-- A value. -/
  | leaf (value : FixedInt t)
  /-- An operation on two expressions. -/
  | node (op : RingOp) (left right : Expression t)

namespace Expression

variable {t : IntType}

/-- The run under a supervisor: the operands from left to right, and then the operation. -/
def run (s : Supervisor) : Expression t → Execution (FixedInt t)
  | leaf value => pure value
  | node op left right => do
      let a ← left.run s
      let b ← right.run s
      s.operation op.checkedOp a b

/-- The exact integer of the expression. -/
def exact : Expression t → Int
  | leaf value => value.toInt
  | node op left right => op.onInt left.exact right.exact

/-- The exact integers of the inner nodes, operands first. -/
def innerValues : Expression t → List Int
  | leaf _ => []
  | node op left right =>
      left.innerValues ++ right.innerValues ++ [op.onInt left.exact right.exact]

/-- The expression with each leaf truncated to a type. -/
def truncate (target : IntType) : Expression t → Expression target
  | leaf value => leaf (truncatingCast target value)
  | node op left right => node op (left.truncate target) (right.truncate target)

/-- All inner nodes of an operation are values of the type if those of its operands are, and it is
one itself. -/
theorem forall_innerValues_node {op : RingOp} {left right : Expression t} {P : Int → Prop} :
    (∀ v ∈ (node op left right).innerValues, P v) ↔
      (∀ v ∈ left.innerValues, P v) ∧ (∀ v ∈ right.innerValues, P v) ∧
        P (node op left right).exact := by
  simp only [innerValues, exact, List.forall_mem_append, List.forall_mem_singleton, and_assoc]

/-- Where all inner nodes are values of the type, the expression is one. -/
theorem contains_exact {e : Expression t} (h : ∀ v ∈ e.innerValues, t.Contains v) :
    t.Contains e.exact := by
  cases e with
  | leaf value => exact value.contained
  | node op left right => exact (forall_innerValues_node.1 h).2.2

/-- The exact result of an operation is made from the operands as they are in the type, where these
fit. -/
theorem onInt_wrap (op : RingOp) {left right : Expression t} (hleft : t.Contains left.exact)
    (hright : t.Contains right.exact) :
    op.onInt (FixedInt.wrap t left.exact).toInt (FixedInt.wrap t right.exact).toInt =
      (node op left right).exact := by
  rw [FixedInt.toInt_wrap_of_contains hleft, FixedInt.toInt_wrap_of_contains hright, exact]

/-- In the mode that goes on, the result is the residue of the exact integer. -/
theorem value?_run_proceed (e : Expression t) :
    (e.run Supervisor.proceeding).value? = some (FixedInt.wrap t e.exact) := by
  induction e with
  | leaf value => exact congrArg some (FixedInt.wrap_toInt value).symm
  | node op left right ihleft ihright =>
      -- The operands are residues already, which the operation does not see.
      have hresidue := op.onInt_modEq (FixedInt.wrap_modEq t left.exact)
        (FixedInt.wrap_modEq t right.exact)
      rw [run, Execution.value?_bind ihleft, Execution.value?_bind ihright,
        Supervisor.operation_eq, Supervisor.value?_checked_proceed, op.yield_eq, exact]
      exact congrArg some (FixedInt.ext (IntType.wrap_congr hresidue))

/-- Truncating the leaves keeps the residue of the exact integer. -/
theorem exact_truncate (target : IntType) (e : Expression t) :
    (e.truncate target).exact ≡ e.exact [ZMOD 2 ^ target.bits] := by
  induction e with
  | leaf value =>
      rw [truncate, exact, truncatingCast_eq_wrap]
      exact FixedInt.wrap_modEq target value.toInt
  | node op left right ihleft ihright => exact op.onInt_modEq ihleft ihright

/-- Where all inner nodes are values of the type, the run is silent in both modes and yields the
exact integer. -/
theorem run_of_contains {e : Expression t} (h : ∀ v ∈ e.innerValues, t.Contains v)
    (s : Supervisor) : e.run s = ⟨[], some (FixedInt.wrap t e.exact)⟩ := by
  induction e with
  | leaf value => rw [run, exact, FixedInt.wrap_toInt, Execution.pure_eq]
  | node op left right ihleft ihright =>
      -- Both operands fit, so the operation is made on their exact integers.
      obtain ⟨hleft, hright, hroot⟩ := forall_innerValues_node.1 h
      have hresult := onInt_wrap op (contains_exact hleft) (contains_exact hright)
      rw [← hresult] at hroot ⊢
      rw [run, ihleft hleft, ihright hright]
      simp [Supervisor.checked_of_fits ((op.fits_iff _ _).2 hroot), op.yield_eq]

/-- In abort mode, the run does not come back where an inner node is no value of the type. -/
theorem value?_run_abort {e : Expression t} (h : ¬ ∀ v ∈ e.innerValues, t.Contains v) :
    (e.run Supervisor.aborting).value? = none := by
  induction e with
  | leaf value => simp [innerValues] at h
  | node op left right ihleft ihright =>
      -- The operands run from left to right, and the run ends in the first that overflows.
      by_cases hleft : ∀ v ∈ left.innerValues, t.Contains v
      · by_cases hright : ∀ v ∈ right.innerValues, t.Contains v
        · have hroot : ¬ t.Contains (node op left right).exact :=
            fun hroot => h (forall_innerValues_node.2 ⟨hleft, hright, hroot⟩)
          rw [← onInt_wrap op (contains_exact hleft) (contains_exact hright)] at hroot
          rw [run, run_of_contains hleft, run_of_contains hright]
          simp [Supervisor.value?_checked_abort ((op.fits_iff _ _).not.2 hroot)]
        · rw [run, run_of_contains hleft, Execution.events_bind_of_value]
          exact Execution.value?_bind_of_none (ihright hright) _
      · exact Execution.value?_bind_of_none (ihleft hleft) _

/-- In abort mode, the run comes back exactly if all inner nodes are values of the type. -/
theorem terminated_run_abort (e : Expression t) :
    (e.run Supervisor.aborting).terminated = false ↔ ∀ v ∈ e.innerValues, t.Contains v := by
  by_cases h : ∀ v ∈ e.innerValues, t.Contains v
  · rw [run_of_contains h]
    exact iff_of_true rfl h
  · rw [Execution.terminated, value?_run_abort h]
    exact iff_of_false Bool.noConfusion h

/-- An expression of sums, differences and products follows its exact integer. Where a panic does
not end the process, the result is the one value of the type congruent to that integer. So it does
not depend on how the integer is expressed, and truncating it to a type that is not wider gives what
the expression over the truncated leaves gives there. In abort mode, the run comes back exactly if
all inner nodes are values of the type, and then it is silent and the result is the integer. -/
theorem run_agrees_with_integer (e : Expression t) :
    (∃ result, (e.run Supervisor.proceeding).value? = some result ∧
      ∀ c : FixedInt t, c = result ↔ c.toInt ≡ e.exact [ZMOD 2 ^ t.bits]) ∧
    (∀ other : Expression t, other.exact = e.exact →
      (other.run Supervisor.proceeding).value? = (e.run Supervisor.proceeding).value?) ∧
    (∀ target : IntType, target.bits ≤ t.bits →
      (e.run Supervisor.proceeding).value?.map (truncatingCast target) =
        ((e.truncate target).run Supervisor.proceeding).value?) ∧
    ((e.run Supervisor.aborting).terminated = false ↔ ∀ v ∈ e.innerValues, t.Contains v) ∧
    (∀ result, (e.run Supervisor.aborting).value? = some result →
      result.toInt = e.exact ∧ (e.run Supervisor.aborting).diagnostics = []) := by
  refine ⟨⟨_, value?_run_proceed e, fun c => FixedInt.eq_wrap_iff⟩, ?_, ?_, ?_, ?_⟩
  · intro other hother
    rw [value?_run_proceed, value?_run_proceed, hother]
  · intro target hbits
    have hresidue : FixedInt.wrap target (e.truncate target).exact = FixedInt.wrap target e.exact :=
      FixedInt.ext (IntType.wrap_congr (exact_truncate target e))
    rw [value?_run_proceed, value?_run_proceed, hresidue, Option.map_some,
      truncatingCast_wrap hbits]
  · exact terminated_run_abort e
  · intro result hresult
    by_cases h : ∀ v ∈ e.innerValues, t.Contains v
    · rw [run_of_contains h] at hresult ⊢
      cases hresult
      exact ⟨FixedInt.toInt_wrap_of_contains (contains_exact h), rfl⟩
    · rw [value?_run_abort h] at hresult
      cases hresult

/-- An overflow on the way leaves no mark on the result, but in abort mode it is the end. -/
example :
    let hundred : Expression .i8 := leaf ⟨100, by decide⟩
    let e := node .sub (node .add hundred hundred) hundred
    (e.run Supervisor.proceeding).value? = some ⟨100, by decide⟩ ∧
      (e.run Supervisor.aborting).value? = none := by
  decide

end Expression

end CheckedExecution
