import CheckedExecution.FixedInt

/-!
# Bit patterns of 128 bits

A value has a two's-complement pattern of 128 bits: a signed value is sign-extended and an unsigned
one zero-extended. A pattern is read at a type through its low bits. Reading a value's pattern at
the value's own type gives the value again (`ofPattern_toPattern`), and at any type it gives the
value congruent to it modulo two to the width (`ofPattern_toPattern_eq_wrap`).
-/

namespace CheckedExecution.FixedInt

variable {t : IntType}

/-- The two's-complement pattern of the value. -/
def toPattern (a : FixedInt t) : BitVec 128 :=
  BitVec.ofInt 128 a.toInt

/-- The low bits of the pattern, read at the type. -/
def ofPattern (t : IntType) (pattern : BitVec 128) : FixedInt t :=
  wrap t pattern.toNat

/-- The width of a type divides the width of a pattern. -/
theorem modulus_dvd (t : IntType) : t.modulus ∣ IntType.u128.modulus := by
  cases t <;> decide

/-- The pattern of a value is congruent to the value at every width. -/
theorem toNat_toPattern_emod (t : IntType) {u : IntType} (a : FixedInt u) :
    (a.toPattern.toNat : Int) % t.modulus = a.toInt % t.modulus := by
  unfold toPattern
  rw [BitVec.toNat_ofInt, Int.toNat_of_nonneg (Int.emod_nonneg _ (by decide))]
  exact Int.emod_emod_of_dvd _ (modulus_dvd t)

/-- Reading a pattern keeps its residue modulo two to the width. -/
theorem ofPattern_emod (t : IntType) (pattern : BitVec 128) :
    (ofPattern t pattern).toInt % t.modulus = (pattern.toNat : Int) % t.modulus :=
  t.wrap_emod _

/-- Reading the pattern of a value at any type is wrapping the value. -/
theorem ofPattern_toPattern_eq_wrap (t : IntType) {u : IntType} (a : FixedInt u) :
    ofPattern t a.toPattern = wrap t a.toInt :=
  FixedInt.ext (IntType.wrap_congr (toNat_toPattern_emod t a))

/-- Reading the pattern of a value at its own type gives the value. -/
@[simp]
theorem ofPattern_toPattern (a : FixedInt t) : ofPattern t a.toPattern = a := by
  rw [ofPattern_toPattern_eq_wrap, wrap_toInt]

end CheckedExecution.FixedInt
