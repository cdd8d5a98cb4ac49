import CheckedExecution.FixedInt.Pattern

/-!
# Right shifts

`shiftRight` moves the bits of a value to the right and fills in copies of its sign. A shift by the
width or more leaves copies of the sign alone: minus one or zero. For a signed type
`arithmeticShiftRight` puts the sign bit of the value back afterwards. The sign bit is the value
masked with the least value of the type, whose pattern has ones from its sign bit on.
-/

namespace CheckedExecution.FixedInt

variable {t : IntType}

/-- Shifting an integer to the right moves it towards zero or minus one, so the type still contains
it. -/
theorem contains_shiftRight (a : FixedInt t) (steps : Nat) : t.Contains (a.toInt >>> steps) := by
  have hpow : (0 : Int) < 2 ^ steps := Int.pow_pos (by decide)
  have hmin := a.contained.1
  have hmax := a.contained.2
  have hzero := t.contains_zero
  have hle : (2 : Int) ^ steps ≥ 1 := hpow
  rw [Int.shiftRight_eq_div_pow]
  push_cast
  constructor
  · apply Int.le_ediv_of_mul_le hpow
    have hneg := hzero.1
    calc t.minValue * 2 ^ steps ≤ t.minValue * 1 := Int.mul_le_mul_of_nonpos_left hneg hle
      _ = t.minValue := Int.mul_one _
      _ ≤ a.toInt := hmin
  · by_cases h : 0 ≤ a.toInt
    · exact Int.le_trans (Int.ediv_le_self _ h) hmax
    · have : a.toInt / 2 ^ steps < 0 := Int.ediv_neg_of_neg_of_pos (by omega) hpow
      have := hzero.2
      omega

/-- The bits moved right by the number of steps, copies of the sign filled in. From the width on
only copies of the sign are left. -/
def shiftRight (a : FixedInt t) (steps : Nat) : FixedInt t :=
  if steps < t.bits then ⟨a.toInt >>> steps, contains_shiftRight a steps⟩
  else if a.toInt < 0 then wrap t (-1)
  else zero t

/-- The value with every bit but the sign bit cleared. Unsigned types have no sign bit. -/
def signBit (a : FixedInt t) : FixedInt t :=
  if t.signed then ofPattern t (a.toPattern &&& (min t).toPattern) else zero t

/-- The right shift, at a signed type with the sign bit of the value put back on. -/
def arithmeticShiftRight (a : FixedInt t) (steps : Nat) : FixedInt t :=
  if t.signed then ofPattern t ((a.shiftRight steps).toPattern ||| a.signBit.toPattern)
  else a.shiftRight steps

end CheckedExecution.FixedInt
