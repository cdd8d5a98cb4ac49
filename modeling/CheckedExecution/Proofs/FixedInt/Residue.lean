import CheckedExecution.FixedInt
import Mathlib.Data.Int.ModEq

/-!
# Values of a type as residues

A type has exactly one value in each residue class modulo two to its width, so a value is fixed by
the class that it lies in. `FixedInt.eq_wrap_iff` is the form in which wrapped results are
recognised: the wrapped value of an integer is the one value congruent to it.
-/

namespace CheckedExecution

namespace IntType

/-- The least value of a type is not positive. -/
theorem minValue_nonpos (t : IntType) : t.minValue ≤ 0 :=
  t.contains_zero.1

/-- The greatest value of a type is positive. -/
theorem maxValue_pos (t : IntType) : 0 < t.maxValue := by
  cases t <;> decide

/-- A signed type reaches one further below zero than above it. -/
theorem minValue_of_signed {t : IntType} (h : t.signed = true) :
    t.minValue = -t.maxValue - 1 := by
  revert h
  cases t <;> decide

/-- An integer on the way from zero to a value of the type is a value of the type. -/
theorem contains_of_between_zero {t : IntType} {v w : Int} (h : t.Contains v)
    (hw : 0 ≤ w ∧ w ≤ v ∨ v ≤ w ∧ w ≤ 0) : t.Contains w := by
  have hmin := t.minValue_nonpos
  have hmax := t.maxValue_pos
  obtain ⟨hlow, hhigh⟩ := h
  constructor <;> omega

/-- Two values of a type in one residue class are equal. -/
theorem eq_of_modEq {t : IntType} {v w : Int} (hv : t.Contains v) (hw : t.Contains w)
    (h : v ≡ w [ZMOD 2 ^ t.bits]) : v = w := by
  rw [← wrap_of_contains hv, ← wrap_of_contains hw]
  exact wrap_congr h

end IntType

namespace FixedInt

variable {t : IntType}

/-- The wrapped value lies in the residue class of the integer. -/
theorem wrap_modEq (t : IntType) (v : Int) : (wrap t v).toInt ≡ v [ZMOD 2 ^ t.bits] :=
  t.wrap_emod v

/-- The wrapped value of an integer is the one value of the type in its residue class. -/
theorem eq_wrap_iff {v : Int} {c : FixedInt t} : c = wrap t v ↔ c.toInt ≡ v [ZMOD 2 ^ t.bits] := by
  constructor
  · rintro rfl
    exact wrap_modEq t v
  · intro h
    apply FixedInt.ext
    exact IntType.eq_of_modEq c.contained (wrap t v).contained (h.trans (wrap_modEq t v).symm)

/-- Integers are wrapped to one value exactly if they lie in one residue class. -/
theorem wrap_eq_wrap_iff {v w : Int} : wrap t v = wrap t w ↔ v ≡ w [ZMOD 2 ^ t.bits] := by
  rw [eq_wrap_iff]
  constructor
  · intro h
    exact (wrap_modEq t v).symm.trans h
  · intro h
    exact (wrap_modEq t v).trans h

/-- Wrapping leaves an integer that the type contains as it is. -/
theorem toInt_wrap_of_contains {v : Int} (h : t.Contains v) : (wrap t v).toInt = v :=
  IntType.wrap_of_contains h

end FixedInt

end CheckedExecution
