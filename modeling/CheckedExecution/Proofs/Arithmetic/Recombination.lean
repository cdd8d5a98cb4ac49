import CheckedExecution.Proofs.Arithmetic.Expression

/-!
# Quotient and remainder put together again

The quotient times the divisor plus the remainder is the dividend. With checked operations this
survives every fallback: a zero divisor makes both divisions yield the dividend, and where the
quotient does not fit, it is wrapped, and so is its product with the divisor
(`yield_recombined`). If the quotient exists in the type, then none of the four operations panics,
for the product and the sum lie between zero and the dividend (`recombine_of_hasQuotient`). The main
theorem is `recombine_restores_dividend`.
-/

namespace CheckedExecution

namespace FixedInt

variable {t : IntType}

/-- The exact quotient exists and is a value of the type: the divisor is not zero, and the operands
are not the least value of a signed type and minus one. -/
def HasQuotient (a b : FixedInt t) : Prop :=
  b.toInt ≠ 0 ∧ ¬ (t.signed = true ∧ a = FixedInt.min t ∧ b.toInt = -1)

/-- For a divisor other than zero the quotient is missing only where it is no value of the type. -/
theorem hasQuotient_iff {a b : FixedInt t} (hb : b.toInt ≠ 0) :
    HasQuotient a b ↔ t.Contains (a.toInt.tdiv b.toInt) := by
  rw [contains_tdiv_iff a b hb, HasQuotient, FixedInt.ext_iff]
  constructor
  · rintro ⟨-, h⟩ ⟨hmin, hone⟩
    -- Minus one is a value of signed types only.
    exact h ⟨signed_of_neg b (by omega), hmin, hone⟩
  · intro h
    exact ⟨hb, fun ⟨_, hmin, hone⟩ => h ⟨hmin, hone⟩⟩

end FixedInt

namespace ArithmeticOp

variable {t : IntType}

/-- A division fits exactly if the quotient exists. -/
theorem fits_iff_hasQuotient {op : ArithmeticOp} {a b : FixedInt t} (hdivides : op.Divides) :
    op.Fits a b ↔ FixedInt.HasQuotient a b := by
  by_cases hb : b.toInt = 0
  · exact iff_of_false (not_fits_of_zero hdivides hb) fun h => h.1 hb
  · rw [fits_iff (gauge_of_divides hdivides hb), FixedInt.hasQuotient_iff hb]

variable (a b : FixedInt t)

/-- A product yields the residue of the exact one. -/
theorem yield_mul : mul.yield a b = FixedInt.wrap t (a.toInt * b.toInt) :=
  RingOp.mul.yield_eq a b

/-- A sum yields the residue of the exact one. -/
theorem yield_add : add.yield a b = FixedInt.wrap t (a.toInt + b.toInt) :=
  RingOp.add.yield_eq a b

/-- Whatever the operands, the four values make up the dividend. -/
theorem yield_recombined :
    add.yield (mul.yield (div.yield a b) b) (mod.yield a b) = a := by
  rw [yield_add, yield_mul, eq_comm, FixedInt.eq_wrap_iff]
  by_cases hb : b.toInt = 0
  · -- Both divisions yield the dividend, and the product with zero takes one of the two away.
    have hproduct := FixedInt.wrap_modEq t (a.toInt * b.toInt)
    rw [hb, Int.mul_zero] at hproduct
    rw [yield_of_zero (.inl rfl) hb, yield_of_zero (.inr rfl) hb, hb, Int.mul_zero]
    simpa using (hproduct.add_right a.toInt).symm
  · -- A quotient that is wrapped keeps its residue, and that is all the product and the sum see.
    rw [yield_div a b hb, toInt_yield_mod a b hb]
    have hquotient := FixedInt.wrap_modEq t (a.toInt.tdiv b.toInt)
    have hproduct := (FixedInt.wrap_modEq t _).trans (hquotient.mul_right b.toInt)
    have hsum := (hproduct.add_right (a.toInt.tmod b.toInt)).symm
    rwa [Int.tdiv_mul_add_tmod] at hsum

end ArithmeticOp

namespace Supervisor

variable {t : IntType}

/-- The quotient times the divisor plus the remainder, each by a checked operation. -/
def recombine (s : Supervisor) (a b : FixedInt t) : Execution (FixedInt t) := do
  let quotient ← s.checkedDiv a b
  let product ← s.checkedMul quotient b
  let remainder ← s.checkedMod a b
  s.checkedAdd product remainder

variable {a b : FixedInt t}

/-- All four operations are applied by the one shared definition. -/
theorem recombine_eq (s : Supervisor) :
    s.recombine a b = (do
      let quotient ← s.checked .div a b
      let product ← s.checked .mul quotient b
      let remainder ← s.checked .mod a b
      s.checked .add product remainder) := rfl

/-- Where the quotient exists, all four operations are silent in both modes. -/
theorem recombine_of_hasQuotient (h : FixedInt.HasQuotient a b) (s : Supervisor) :
    s.recombine a b = ⟨[], some a⟩ := by
  have hb := h.1
  have hdiv : ArithmeticOp.div.Fits a b := (ArithmeticOp.fits_iff_hasQuotient (.inl rfl)).2 h
  have hmod : ArithmeticOp.mod.Fits a b := (ArithmeticOp.fits_iff_hasQuotient (.inr rfl)).2 h
  have hquotient : (ArithmeticOp.div.yield a b).toInt = a.toInt.tdiv b.toInt := by
    rw [ArithmeticOp.yield_div a b hb]
    exact FixedInt.toInt_wrap_of_contains ((FixedInt.hasQuotient_iff hb).1 h)
  have hcontained : t.Contains ((ArithmeticOp.div.yield a b).toInt * b.toInt) := by
    rw [hquotient]
    exact FixedInt.contains_tdiv_mul a b.toInt
  have hproduct :
      (ArithmeticOp.mul.yield (ArithmeticOp.div.yield a b) b).toInt =
        a.toInt.tdiv b.toInt * b.toInt := by
    rw [ArithmeticOp.yield_mul, FixedInt.toInt_wrap_of_contains hcontained, hquotient]
  have hsum : t.Contains ((ArithmeticOp.mul.yield (ArithmeticOp.div.yield a b) b).toInt +
      (ArithmeticOp.mod.yield a b).toInt) := by
    rw [hproduct, ArithmeticOp.toInt_yield_mod a b hb, Int.tdiv_mul_add_tmod]
    exact a.contained
  have hmul : ArithmeticOp.mul.Fits (ArithmeticOp.div.yield a b) b := ⟨_, rfl, hcontained⟩
  have hadd : ArithmeticOp.add.Fits (ArithmeticOp.mul.yield (ArithmeticOp.div.yield a b) b)
      (ArithmeticOp.mod.yield a b) := ⟨_, rfl, hsum⟩
  rw [recombine_eq, checked_of_fits hdiv, Execution.events_bind_of_value, checked_of_fits hmul,
    Execution.events_bind_of_value, checked_of_fits hmod, Execution.events_bind_of_value,
    checked_of_fits hadd, ArithmeticOp.yield_recombined]
  rfl

/-- Where it does not, the division writes a line. -/
theorem diagnostics_recombine_ne_nil (h : ¬ FixedInt.HasQuotient a b) :
    (proceeding.recombine a b).diagnostics ≠ [] := by
  have hdiv : ¬ ArithmeticOp.div.Fits a b := (ArithmeticOp.fits_iff_hasQuotient (.inl rfl)).not.2 h
  rw [recombine_eq, Execution.diagnostics_bind (value?_checked_proceed .div a b)]
  intro hsilent
  exact hdiv ((diagnostics_checked_eq_nil_iff proceeding).1 (List.append_eq_nil_iff.1 hsilent).1)

/-- In abort mode the division is then the end. -/
theorem value?_recombine_abort (h : ¬ FixedInt.HasQuotient a b) :
    (aborting.recombine a b).value? = none := by
  have hdiv : ¬ ArithmeticOp.div.Fits a b := (ArithmeticOp.fits_iff_hasQuotient (.inl rfl)).not.2 h
  rw [recombine_eq]
  exact Execution.value?_bind_of_none (value?_checked_abort hdiv) _

/-- In the mode that goes on, the result is the dividend. -/
theorem value?_recombine_proceed (a b : FixedInt t) :
    (proceeding.recombine a b).value? = some a := by
  rw [recombine_eq, Execution.value?_bind (value?_checked_proceed .div a b),
    Execution.value?_bind (value?_checked_proceed .mul _ b),
    Execution.value?_bind (value?_checked_proceed .mod a b),
    value?_checked_proceed, ArithmeticOp.yield_recombined]

/-- Quotient and remainder make up the dividend again, whatever the operands. Where a panic does not
end the process, the result is the dividend even for a zero divisor and for a quotient that does not
fit, and the four operations are silent exactly if the quotient exists. In abort mode they come back
exactly then, again with the dividend. -/
theorem recombine_restores_dividend (a b : FixedInt t) :
    (proceeding.recombine a b).value? = some a ∧
    ((proceeding.recombine a b).diagnostics = [] ↔ FixedInt.HasQuotient a b) ∧
    ((aborting.recombine a b).terminated = false ↔ FixedInt.HasQuotient a b) ∧
    ((aborting.recombine a b).value? = some a ↔ FixedInt.HasQuotient a b) := by
  refine ⟨value?_recombine_proceed a b, ?_⟩
  by_cases h : FixedInt.HasQuotient a b
  · rw [recombine_of_hasQuotient h, recombine_of_hasQuotient h]
    exact ⟨iff_of_true rfl h, iff_of_true rfl h, iff_of_true rfl h⟩
  · rw [Execution.terminated, value?_recombine_abort h]
    exact ⟨iff_of_false (diagnostics_recombine_ne_nil h) h, iff_of_false Bool.noConfusion h,
      iff_of_false (Option.some_ne_none a).symm h⟩

end Supervisor

end CheckedExecution
