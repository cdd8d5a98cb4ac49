import CheckedExecution.Proofs.Cast.Policies
import CheckedExecution.Proofs.Supervisor.Checked

/-!
# An operation at a wider type

Where every value of a type is a value of a wider one, an operation can be carried out at the wider
type and its result be cast back. Truncating the result gives the value that the operation has at
the type itself, whether it fits at either type or not (`yield_widen`). A cast that panics where it
should reports the same operations as the type itself does (`fits_iff_widen`), with one exception:
the remainder of the least value and minus one has a quotient that only the wider type contains. The
main theorem is `checked_agrees_at_wider_type`.
-/

namespace CheckedExecution

namespace IntType

variable {t w : IntType}

/-- Every value of the type is a value of the other one. -/
def Within (t w : IntType) : Prop :=
  w.minValue ≤ t.minValue ∧ t.maxValue ≤ w.maxValue

/-- Whether a type lies within another is decided by its bounds. -/
instance (t w : IntType) : Decidable (t.Within w) :=
  inferInstanceAs (Decidable (_ ∧ _))

/-- The wider type contains what the type does. -/
theorem Within.contains (h : t.Within w) {v : Int} (hv : t.Contains v) : w.Contains v :=
  ⟨Int.le_trans h.1 hv.1, Int.le_trans hv.2 h.2⟩

/-- The wider type has no fewer bits. -/
theorem Within.bits_le (h : t.Within w) : t.bits ≤ w.bits := by
  have hvalues : (2 : Int) ^ t.bits ≤ 2 ^ w.bits := by
    show t.modulus ≤ w.modulus
    have ht := t.maxValue_eq
    have hw := w.maxValue_eq
    obtain ⟨hlow, hhigh⟩ := h
    omega
  norm_cast at hvalues
  exact (Nat.pow_le_pow_iff_right (by decide)).1 hvalues

/-- A type around a signed one is signed. -/
theorem Within.signed (h : t.Within w) (ht : t.signed = true) : w.signed = true := by
  have hneg : w.minValue < 0 := by
    have hmin := minValue_of_signed ht
    have hmax := t.maxValue_pos
    have hlow := h.1
    omega
  exact FixedInt.signed_of_neg (FixedInt.min w) hneg

/-- If the wider type has further values, it has the one next to the greatest of a signed type. -/
theorem Within.contains_succ_maxValue (h : t.Within w) (ht : t.signed = true) {v : Int}
    (hw : w.Contains v) (hv : ¬ t.Contains v) : w.Contains (t.maxValue + 1) := by
  have hsigned := minValue_of_signed ht
  have hwide := minValue_of_signed (h.signed ht)
  have hmax := t.maxValue_pos
  obtain ⟨hlow, hhigh⟩ := h
  unfold Contains at *
  omega

end IntType

namespace FixedInt

variable {t w : IntType}

/-- The value as a value of the wider type. -/
def widen (h : t.Within w) (a : FixedInt t) : FixedInt w :=
  ⟨a.toInt, h.contains a.contained⟩

/-- Widening keeps the number. -/
@[simp]
theorem toInt_widen (h : t.Within w) (a : FixedInt t) : (a.widen h).toInt = a.toInt := rfl

/-- Widening is what a cast does, which never fails here. -/
theorem fallibleCast_widen (h : t.Within w) (a : FixedInt t) :
    fallibleCast w a = some (a.widen h) :=
  fallibleCast_eq_some_iff.2 rfl

/-- Truncating takes a widened value back. -/
theorem truncatingCast_widen (h : t.Within w) (a : FixedInt t) :
    truncatingCast t (a.widen h) = a := by
  rw [truncatingCast_eq_wrap]
  exact wrap_toInt a

end FixedInt

namespace ArithmeticOp

variable {t w : IntType}

/-- The wider type hides the overflow of the operation: it is the remainder of the least value and
minus one, and the wider type has values that the type has not. -/
def OverflowHidden (w : IntType) (op : ArithmeticOp) (a b : FixedInt t) : Prop :=
  op = .mod ∧ a = FixedInt.min t ∧ b.toInt = -1 ∧ ∃ v, w.Contains v ∧ ¬ t.Contains v

/-- The value of an operation is the truncated value of the operation at the wider type. -/
theorem yield_widen (h : t.Within w) (op : ArithmeticOp) (a b : FixedInt t) :
    op.yield a b = truncatingCast t (op.yield (a.widen h) (b.widen h)) := by
  by_cases hzero : op.Divides ∧ b.toInt = 0
  · have hwide : (b.widen h).toInt = 0 := hzero.2
    rw [yield_of_zero hzero.1 hzero.2, yield_of_zero hzero.1 hwide,
      FixedInt.truncatingCast_widen]
  · -- The exact result is the same at both types, and each type wraps it.
    obtain ⟨g, v, hg, hv⟩ := exists_gauge_exact hzero
    rw [yield_of_exact hg hv, yield_of_exact (a := a.widen h) (b := b.widen h) hg hv,
      truncatingCast_wrap h.bits_le]

/-- An operation fits exactly if it fits at the wider type with a result that the type contains,
unless the wider type hides an overflow. -/
theorem fits_iff_widen (h : t.Within w) {op : ArithmeticOp} {a b : FixedInt t}
    (hseen : ¬ OverflowHidden w op a b) :
    op.Fits a b ↔ op.Fits (a.widen h) (b.widen h) ∧
      t.Contains (op.yield (a.widen h) (b.widen h)).toInt := by
  by_cases hzero : op.Divides ∧ b.toInt = 0
  · exact iff_of_false (not_fits_of_zero hzero.1 hzero.2) fun hwide =>
      not_fits_of_zero (b := b.widen h) hzero.1 hzero.2 hwide.1
  · obtain ⟨g, v, hg, hv⟩ := exists_gauge_exact hzero
    rw [fits_iff hg, fits_iff (a := a.widen h) (b := b.widen h) hg,
      yield_of_exact (a := a.widen h) (b := b.widen h) hg hv]
    constructor
    · intro hin
      have hexact := contains_exact hg hv hin
      refine ⟨h.contains hin, ?_⟩
      rwa [FixedInt.toInt_wrap_of_contains (h.contains hexact)]
    · rintro ⟨hwide, hback⟩
      rw [FixedInt.toInt_wrap_of_contains
        (contains_exact (a := a.widen h) (b := b.widen h) hg hv hwide)] at hback
      rcases exact_cases hg hv with ⟨-, rfl⟩ | ⟨rfl, rfl, rfl⟩
      · exact hback
      · -- A remainder always fits, so what is left to see is its quotient.
        by_contra hout
        have hb : b.toInt ≠ 0 := fun hb => hzero ⟨.inr rfl, hb⟩
        obtain ⟨hmin, hone⟩ := not_not.1 ((FixedInt.contains_tdiv_iff a b hb).not.1 hout)
        exact hseen ⟨rfl, FixedInt.ext hmin, hone, _, hwide, hout⟩

/-- Where the wider type hides the overflow, the operation fits there, and its result is a value of
the type. -/
theorem fits_widen_of_overflowHidden (h : t.Within w) {op : ArithmeticOp} {a b : FixedInt t}
    (hhidden : OverflowHidden w op a b) :
    op.Fits (a.widen h) (b.widen h) ∧ t.Contains (op.yield (a.widen h) (b.widen h)).toInt := by
  obtain ⟨rfl, rfl, hone, v, hw, hv⟩ := hhidden
  have hsigned : t.signed = true := FixedInt.signed_of_neg b (by omega)
  have hb : (b.widen h).toInt ≠ 0 := by
    rw [FixedInt.toInt_widen, hone]
    decide
  constructor
  · have hquotient : t.minValue.tdiv b.toInt = t.maxValue + 1 := by
      rw [hone, IntType.minValue_of_signed hsigned, Int.tdiv_neg, Int.tdiv_one]
      omega
    refine (fits_iff (gauge_of_divides (.inr rfl) hb)).2 ?_
    show w.Contains (t.minValue.tdiv b.toInt)
    rw [hquotient]
    exact h.contains_succ_maxValue hsigned hw hv
  · rw [toInt_yield_mod _ _ hb]
    exact FixedInt.contains_tmod (FixedInt.min t) b.toInt

end ArithmeticOp

namespace Supervisor

variable {t w : IntType}

/-- The type itself reports the overflow that the wider type hides. -/
theorem diagnostics_checked_of_overflowHidden {op : ArithmeticOp} {a b : FixedInt t}
    (hhidden : ArithmeticOp.OverflowHidden w op a b) (s : Supervisor) :
    (s.checked op a b).diagnostics =
      [panicLine (Fault.message ⟨op, .overflow, a.toDecimal, b.toDecimal⟩)] := by
  obtain ⟨rfl, rfl, hone, -⟩ := hhidden
  have hb : b.toInt ≠ 0 := by omega
  have hout := (FixedInt.contains_tdiv_iff (FixedInt.min t) b hb).not.2
    (not_not.2 ⟨rfl, hone⟩)
  have hfault := evaluate_of_not_contains (ArithmeticOp.gauge_of_divides (.inr rfl) hb)
    (ArithmeticOp.exact_mod hb) hout
  rw [checked_of_error hfault, diagnostics_panic_bind_pure]

/-- An operation agrees with the same operation at a wider type. Where a panic does not end the
process, its value is the truncated value of the other, faults included. It is silent exactly if the
other is and an infallible cast of the other's value back to the type is, but for one case: the
remainder of the least value and minus one where the wider type has further values. There only the
operation at the type itself reports an overflow. -/
theorem checked_agrees_at_wider_type (h : t.Within w) (op : ArithmeticOp) (a b : FixedInt t) :
    fallibleCast w a = some (a.widen h) ∧ fallibleCast w b = some (b.widen h) ∧
    ∃ narrow wide,
      (proceeding.checked op a b).value? = some narrow ∧
      (proceeding.checked op (a.widen h) (b.widen h)).value? = some wide ∧
      narrow = truncatingCast t wide ∧
      (¬ ArithmeticOp.OverflowHidden w op a b → ∀ s : Supervisor,
        ((s.checked op a b).diagnostics = [] ↔
          (s.checked op (a.widen h) (b.widen h)).diagnostics = [] ∧
            (s.infallibleCast t wide).diagnostics = [])) ∧
      (ArithmeticOp.OverflowHidden w op a b → ∀ s : Supervisor,
        (s.checked op a b).diagnostics =
            [panicLine (Fault.message ⟨op, .overflow, a.toDecimal, b.toDecimal⟩)] ∧
          (s.checked op (a.widen h) (b.widen h)).diagnostics = [] ∧
          (s.infallibleCast t wide).diagnostics = []) := by
  refine ⟨FixedInt.fallibleCast_widen h a, FixedInt.fallibleCast_widen h b, _, _,
    value?_checked_proceed op a b, value?_checked_proceed op _ _,
    ArithmeticOp.yield_widen h op a b, fun hseen s => ?_, fun hhidden s => ?_⟩
  · rw [diagnostics_checked_eq_nil_iff, diagnostics_checked_eq_nil_iff,
      diagnostics_infallibleCast_eq_nil_iff]
    exact ArithmeticOp.fits_iff_widen h hseen
  · obtain ⟨hfits, hback⟩ := ArithmeticOp.fits_widen_of_overflowHidden h hhidden
    exact ⟨diagnostics_checked_of_overflowHidden hhidden s,
      (diagnostics_checked_eq_nil_iff s).2 hfits,
      (diagnostics_infallibleCast_eq_nil_iff s).2 hback⟩

/-- The remainder of the least value and minus one, at eight bits and at sixteen. -/
theorem sixteen_bits_hide_overflow :
    IntType.Within .i8 .i16 ∧
    ArithmeticOp.OverflowHidden .i16 .mod (FixedInt.min .i8) ⟨-1, by decide⟩ ∧
    (aborting.checked .mod (FixedInt.min .i8) ⟨-1, by decide⟩).diagnostics =
      ["Panic: Overflow in checked modulo '-128 % -1'"] ∧
    (aborting.checked .mod (⟨-128, by decide⟩ : FixedInt .i16) ⟨-1, by decide⟩).diagnostics =
      [] := by
  have hwithin : IntType.Within .i8 .i16 := by decide
  have hhidden : ArithmeticOp.OverflowHidden .i16 .mod (FixedInt.min .i8) ⟨-1, by decide⟩ :=
    ⟨rfl, rfl, rfl, 128, by decide, by decide⟩
  obtain ⟨-, -, _, _, -, -, -, -, hreport⟩ :=
    checked_agrees_at_wider_type hwithin .mod (FixedInt.min .i8) ⟨-1, by decide⟩
  obtain ⟨hnarrow, hwide, -⟩ := hreport hhidden aborting
  refine ⟨hwithin, hhidden, ?_, hwide⟩
  rw [hnarrow]
  decide +kernel

end Supervisor

end CheckedExecution
