import CheckedExecution.FixedInt.Pattern
import CheckedExecution.FixedInt.Wide
import CheckedExecution.Proofs.FixedInt.Residue

/-!
# What patterns and common forms encode

A pattern of 128 bits is read at a type through its low bits, as a two's-complement number or as a
natural number (`toInt_ofPattern`). Writing the value again extends these low bits by copies of
their sign or by zeros (`toPattern_ofPattern`), so the patterns of the values of a type are the
extended ones. Bit by bit this is a condition on the bits above the low ones (`eq_extend_iff`): at
128 bits there are none, and every pattern is a value's.

A common form is a value's own exactly if its case agrees with the sign of its number
(`toWide_eq_iff`). Narrowing also accepts the negative case of a number that is not negative, at
signed types, and then the case is lost. The main theorem is `codecs_are_exact`.
-/

namespace CheckedExecution

namespace IntType

/-- The number that the bits of a value write: in two's complement at a signed type, and as a
natural number at an unsigned one. -/
def number (t : IntType) (low : BitVec t.bits) : Int :=
  if t.signed then low.toInt else low.toNat

/-- The pattern of 128 bits that extends the bits of a value: by copies of their sign at a signed
type, and by zeros at an unsigned one. -/
def extend (t : IntType) (low : BitVec t.bits) : BitVec 128 :=
  if t.signed then low.signExtend 128 else low.setWidth 128

/-- The number that the bits of a value write is a value of the type. -/
theorem contains_number (t : IntType) (low : BitVec t.bits) : t.Contains (t.number low) := by
  unfold Contains minValue maxValue number
  by_cases h : t.signed = true
  · rw [if_pos h, if_pos h, if_pos h]
    exact ⟨BitVec.le_toInt low, Int.le_sub_one_of_lt BitVec.toInt_lt⟩
  · have hlt : (low.toNat : Int) < 2 ^ t.bits := by exact_mod_cast low.isLt
    rw [if_neg h, if_neg h, if_neg h]
    exact ⟨Int.natCast_nonneg _, Int.le_sub_one_of_lt hlt⟩

/-- The two ways to read bits as a number differ by a multiple of two to the width. -/
theorem number_modEq (t : IntType) (low : BitVec t.bits) :
    t.number low ≡ low.toNat [ZMOD 2 ^ t.bits] := by
  unfold number
  split
  · rw [BitVec.toInt_eq_toNat_bmod]
    have hmod := Int.bmod_emod (x := (low.toNat : Int)) (m := 2 ^ t.bits)
    push_cast at hmod ⊢
    exact hmod
  · rfl

/-- The pattern of the number that the bits write extends the bits. -/
theorem ofInt_number (t : IntType) (low : BitVec t.bits) :
    BitVec.ofInt 128 (t.number low) = t.extend low := by
  unfold number extend
  split
  · -- A sign extension is defined as the pattern of the number in two's complement.
    rfl
  · rw [BitVec.ofInt_natCast, BitVec.ofNat_toNat]

/-- The bits of an extension are the low bits, and above them copies of the top one at a signed
type. -/
theorem getLsbD_extend (t : IntType) (pattern : BitVec 128) {i : Nat} (hi : i < 128) :
    (t.extend (pattern.setWidth t.bits)).getLsbD i =
      if i < t.bits then pattern.getLsbD i else t.signed && pattern.getLsbD (t.bits - 1) := by
  -- There is a top bit, which the sign extension copies.
  have hbits : 0 < t.bits := by cases t <;> decide
  unfold extend
  by_cases h : t.signed = true
  · rw [if_pos h, BitVec.getLsbD_signExtend, BitVec.msb_setWidth, BitVec.getLsbD_setWidth]
    by_cases hlow : i < t.bits <;> simp [hi, hlow, hbits, h]
  · rw [if_neg h, BitVec.getLsbD_setWidth, BitVec.getLsbD_setWidth]
    by_cases hlow : i < t.bits <;> simp [hi, hlow, h]

/-- A pattern extends its own low bits exactly if each bit above them is as the extension has it. -/
theorem eq_extend_iff (t : IntType) (pattern : BitVec 128) :
    pattern = t.extend (pattern.setWidth t.bits) ↔
      ∀ i, t.bits ≤ i → i < 128 →
        pattern.getLsbD i = (t.signed && pattern.getLsbD (t.bits - 1)) := by
  constructor
  · intro h i habove hi
    calc pattern.getLsbD i = (t.extend (pattern.setWidth t.bits)).getLsbD i :=
          congrArg (BitVec.getLsbD · i) h
      _ = (t.signed && pattern.getLsbD (t.bits - 1)) := by
          rw [getLsbD_extend t pattern hi, if_neg (Nat.not_lt.2 habove)]
  · intro h
    refine BitVec.eq_of_getLsbD_eq fun i hi => ?_
    rw [getLsbD_extend t pattern hi]
    split
    · rfl
    · rename_i habove
      exact h i (Nat.not_lt.1 habove) hi

end IntType

/-- Common forms of one number in one case are equal. -/
theorem Wide.eq_iff {v w : Wide} : v = w ↔ v.toInt = w.toInt ∧ v.isNegative = w.isNegative := by
  cases v <;> cases w <;> simp [Wide.toInt, Wide.isNegative, FixedInt.ext_iff]

namespace FixedInt

variable {t : IntType}

/-! ## Patterns -/

/-- A pattern is read as the number that its low bits write. -/
theorem toInt_ofPattern (t : IntType) (pattern : BitVec 128) :
    (ofPattern t pattern).toInt = t.number (pattern.setWidth t.bits) := by
  apply IntType.eq_of_modEq (ofPattern t pattern).contained (t.contains_number _)
  have hlow : ((pattern.setWidth t.bits).toNat : Int) ≡ pattern.toNat [ZMOD 2 ^ t.bits] := by
    rw [BitVec.toNat_setWidth]
    push_cast
    exact Int.mod_modEq _ _
  calc (ofPattern t pattern).toInt ≡ pattern.toNat [ZMOD 2 ^ t.bits] := ofPattern_emod t pattern
    _ ≡ (pattern.setWidth t.bits).toNat [ZMOD 2 ^ t.bits] := hlow.symm
    _ ≡ t.number (pattern.setWidth t.bits) [ZMOD 2 ^ t.bits] := (t.number_modEq _).symm

/-- Reading a pattern and writing the value extends the low bits of the pattern. -/
theorem toPattern_ofPattern (t : IntType) (pattern : BitVec 128) :
    (ofPattern t pattern).toPattern = t.extend (pattern.setWidth t.bits) := by
  rw [toPattern, toInt_ofPattern, IntType.ofInt_number]

/-! ## Common forms -/

/-- A common form is that of a value exactly if it has the value's number and its case agrees with
the sign of the number. -/
theorem toWide_eq_iff {a : FixedInt t} {w : Wide} :
    a.toWide = w ↔ a.toInt = w.toInt ∧ (w.isNegative = true ↔ w.toInt < 0) := by
  rw [Wide.eq_iff, toInt_toWide, isNegative_toWide]
  refine and_congr_right fun hnumber => ?_
  rw [hnumber, eq_comm, Bool.eq_iff_iff, decide_eq_true_iff]

/-! ## Both codecs -/

/-- Both codecs are exact at every type. A value is found again from its pattern and from its common
form. A pattern is read as the one value of the type that is congruent to it, and it is the pattern
of this value exactly if it extends its own low bits, that is, if its bits above them repeat the top
one at a signed type and are zero at an unsigned one. Narrowing a common form succeeds exactly with
the value of its number, in the nonnegative case or at a signed type, and the form is then the
value's own exactly if its case agrees with the sign of its number. -/
theorem codecs_are_exact (t : IntType) :
    (∀ a : FixedInt t, ofPattern t a.toPattern = a ∧ ofWide? t a.toWide = some a) ∧
    (∀ pattern : BitVec 128,
      (∀ a : FixedInt t, a = ofPattern t pattern ↔ a.toInt ≡ pattern.toNat [ZMOD 2 ^ t.bits]) ∧
      ((ofPattern t pattern).toPattern = pattern ↔
        pattern = t.extend (pattern.setWidth t.bits)) ∧
      (pattern = t.extend (pattern.setWidth t.bits) ↔
        ∀ i, t.bits ≤ i → i < 128 →
          pattern.getLsbD i = (t.signed && pattern.getLsbD (t.bits - 1)))) ∧
    ∀ (w : Wide) (a : FixedInt t),
      (ofWide? t w = some a ↔
        a.toInt = w.toInt ∧ (w.isNegative = false ∨ t.signed = true)) ∧
      (ofWide? t w = some a → (a.toWide = w ↔ (w.isNegative = true ↔ w.toInt < 0))) := by
  refine ⟨fun a => ⟨ofPattern_toPattern a, ofWide?_toWide a⟩,
    fun pattern => ⟨fun a => ?_, ?_, t.eq_extend_iff pattern⟩, fun w a => ⟨?_, fun h => ?_⟩⟩
  · exact eq_wrap_iff
  · rw [toPattern_ofPattern, eq_comm]
  · rw [ofWide?_eq_some_iff]
    cases w.isNegative <;> simp
  · obtain ⟨hnumber, -⟩ := ofWide?_eq_some_iff.1 h
    rw [toWide_eq_iff]
    exact and_iff_right hnumber

/-- A negative case with a positive number narrows to an octet with a sign, which widens to the
nonnegative case. -/
theorem contradicted_case_is_lost :
    ofWide? .i8 (.negative ⟨5, by decide⟩) = some ⟨5, by decide⟩ ∧
    (⟨5, by decide⟩ : FixedInt .i8).toWide ≠ .negative ⟨5, by decide⟩ := by
  have hnarrow : ofWide? .i8 (.negative ⟨5, by decide⟩) = some ⟨5, by decide⟩ := by decide
  refine ⟨hnarrow, fun hwiden => ?_⟩
  obtain ⟨-, -, hforms⟩ := codecs_are_exact .i8
  have hcase := ((hforms _ _).2 hnarrow).1 hwiden
  exact absurd (hcase.1 rfl) (by decide)

end FixedInt

end CheckedExecution
