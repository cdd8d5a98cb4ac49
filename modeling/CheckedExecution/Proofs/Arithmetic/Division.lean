import CheckedExecution.FixedInt.Wide
import CheckedExecution.Proofs.FixedInt.Residue

/-!
# Division that truncates towards zero

`TruncatedDivision a b q r` says what a quotient and a remainder have to satisfy, without saying how
they are computed. For a divisor other than zero there is exactly one such pair
(`truncatedDivision_iff`), and for a zero divisor there is none. Of all values of a type, only the
least one of a signed type and minus one have a quotient outside of the type
(`FixedInt.contains_tdiv_iff`).
-/

namespace CheckedExecution

/-- The quotient and the remainder make up the dividend, the remainder is smaller than the divisor
in magnitude, and it has the sign of the dividend unless it is zero. -/
structure TruncatedDivision (a b q r : Int) : Prop where
  dividend : b * q + r = a
  remainder_lt : r.natAbs < b.natAbs
  nonneg : 0 ≤ a → 0 ≤ r
  nonpos : a ≤ 0 → r ≤ 0

/-- There is one quotient and one remainder for each divisor other than zero. -/
theorem truncatedDivision_iff {a b q r : Int} :
    TruncatedDivision a b q r ↔ b ≠ 0 ∧ q = a.tdiv b ∧ r = a.tmod b := by
  constructor
  · rintro ⟨hdividend, hlt, hnonneg, hnonpos⟩
    have hb : b ≠ 0 := by
      rintro rfl
      exact Nat.not_lt_zero _ hlt
    refine ⟨hb, ?_⟩
    rcases Int.le_total 0 a with ha | ha
    · have hunique := (Int.tdiv_tmod_unique (q := q) (r := r) ha hb).2
        ⟨by omega, hnonneg ha, by omega⟩
      exact ⟨hunique.1.symm, hunique.2.symm⟩
    · have hunique := (Int.tdiv_tmod_unique' (q := q) (r := r) ha hb).2
        ⟨by omega, by omega, hnonpos ha⟩
      exact ⟨hunique.1.symm, hunique.2.symm⟩
  · rintro ⟨hb, rfl, rfl⟩
    refine ⟨Int.mul_tdiv_add_tmod a b, ?_, Int.tmod_nonneg b, ?_⟩
    · rw [Int.natAbs_tmod]
      exact Nat.mod_lt _ (by omega)
    · intro ha
      have hneg := Int.tmod_nonneg b (Int.neg_nonneg_of_nonpos ha)
      rw [Int.neg_tmod] at hneg
      omega

/-- A remainder lies between zero and the dividend. -/
theorem tmod_between_zero (a b : Int) :
    0 ≤ a.tmod b ∧ a.tmod b ≤ a ∨ a ≤ a.tmod b ∧ a.tmod b ≤ 0 := by
  have hle : (a.tmod b).natAbs ≤ a.natAbs := by
    rw [Int.natAbs_tmod]
    exact Nat.mod_le _ _
  rcases Int.le_total 0 a with ha | ha
  · have hnonneg := Int.tmod_nonneg b ha
    omega
  · have hneg := Int.tmod_nonneg b (Int.neg_nonneg_of_nonpos ha)
    rw [Int.neg_tmod] at hneg
    omega

namespace FixedInt

variable {t : IntType}

/-- A remainder is a value of the dividend's type. -/
theorem contains_tmod (a : FixedInt t) (b : Int) : t.Contains (a.toInt.tmod b) :=
  IntType.contains_of_between_zero a.contained (tmod_between_zero a.toInt b)

/-- So is what the quotient accounts for, which is the dividend without the remainder. -/
theorem contains_tdiv_mul (a : FixedInt t) (b : Int) : t.Contains (a.toInt.tdiv b * b) := by
  have hdividend := Int.tdiv_mul_add_tmod a.toInt b
  have hbetween := tmod_between_zero a.toInt b
  apply IntType.contains_of_between_zero a.contained
  omega

/-- A quotient by a divisor other than zero and minus one is a value of the dividend's type. A
positive divisor moves the dividend towards zero, and any other one at least halves it. -/
theorem contains_tdiv (a b : FixedInt t) (hzero : b.toInt ≠ 0) (hone : b.toInt ≠ -1) :
    t.Contains (a.toInt.tdiv b.toInt) := by
  rcases Int.lt_or_gt_of_ne hzero with hneg | hpos
  · -- Half of the least value is far from both bounds, so the sign of the quotient does not matter.
    have hmin := IntType.minValue_of_signed (signed_of_neg b hneg)
    have hmax := t.maxValue_pos
    have hhalf : (a.toInt.tdiv b.toInt).natAbs ≤ a.toInt.natAbs / 2 := by
      rw [Int.natAbs_tdiv]
      exact Nat.div_le_div_left (by omega) (by decide)
    obtain ⟨hlow, hhigh⟩ := a.contained
    constructor <;> omega
  · have hle := Int.natAbs_tdiv_le_natAbs a.toInt b.toInt
    apply IntType.contains_of_between_zero a.contained
    rcases Int.le_total 0 a.toInt with ha | ha
    · have hnonneg := Int.tdiv_nonneg ha (Int.le_of_lt hpos)
      omega
    · have hnonneg := Int.tdiv_nonneg (Int.neg_nonneg_of_nonpos ha) (Int.le_of_lt hpos)
      rw [Int.neg_tdiv] at hnonneg
      omega

/-- The quotient of two values is a value of their type, but for the least value of a signed type
divided by minus one. -/
theorem contains_tdiv_iff (a b : FixedInt t) (hzero : b.toInt ≠ 0) :
    t.Contains (a.toInt.tdiv b.toInt) ↔ ¬ (a.toInt = t.minValue ∧ b.toInt = -1) := by
  by_cases hone : b.toInt = -1
  · have hmin := IntType.minValue_of_signed (signed_of_neg b (by omega))
    obtain ⟨hlow, hhigh⟩ := a.contained
    have hquotient : a.toInt.tdiv b.toInt = -a.toInt := by
      rw [hone, Int.tdiv_neg, Int.tdiv_one]
    rw [hquotient]
    unfold IntType.Contains
    omega
  · simp [contains_tdiv a b hzero hone, hone]

/-- Where the quotient is not a value of the type, the remainder is zero. -/
theorem tmod_eq_zero_of_not_contains_tdiv (a b : FixedInt t)
    (h : ¬ t.Contains (a.toInt.tdiv b.toInt)) : a.toInt.tmod b.toInt = 0 := by
  by_cases hzero : b.toInt = 0
  · rw [hzero, Int.tdiv_zero] at h
    exact absurd t.contains_zero h
  · rw [contains_tdiv_iff a b hzero, not_not] at h
    rw [h.2, Int.tmod_neg, Int.tmod_one]

end FixedInt

end CheckedExecution
