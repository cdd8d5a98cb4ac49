import CheckedExecution.Proofs.FixedInt.Residue
import CheckedExecution.Session.Call
import Mathlib.Data.Rat.Floor

/-!
# Right shifts as division

A right shift divides by a power of two and rounds down, for every number of steps
(`toInt_shiftRight`): from the width on, the quotient of a value is minus one or zero, which are the
copies of its sign. The sign bit that the mask leaves is told by the sign (`signBit_eq`). Putting it
back on changes nothing, since the pattern of a negative value has nothing but ones there already
(`toPattern_or_signBit`). The main theorem, `shift_rounds_down`, adds that shifts one after another
are a shift by the sum of their steps, and what the exported symbols do.
-/

namespace CheckedExecution.FixedInt

variable {t : IntType}

/-! ## The sign bit -/

/-- A bit of the pattern of a negative integer is the opposite of that of its complement. -/
theorem getLsbD_ofInt_negSucc {n i : Nat} (hi : i < 128) :
    (BitVec.ofInt 128 (Int.negSucc n)).getLsbD i = !n.testBit i := by
  rw [BitVec.ofInt_negSucc_eq_not_ofNat, BitVec.getLsbD_not, BitVec.getLsbD_ofNat]
  simp only [hi, decide_true, Bool.true_and]

/-- The pattern of a negative integer that is not below the opposite of a power of two has ones from
this power on. -/
theorem getLsbD_ofInt_of_neg {v : Int} {k i : Nat} (hlow : -2 ^ k ≤ v) (hneg : v < 0) (hk : k ≤ i)
    (hi : i < 128) : (BitVec.ofInt 128 v).getLsbD i = true := by
  obtain ⟨n, rfl⟩ := Int.eq_negSucc_of_lt_zero hneg
  have hn : n < 2 ^ k := by
    have hcast : (n : Int) < 2 ^ k := by omega
    exact_mod_cast hcast
  have hwide : n < 2 ^ i := Nat.lt_of_lt_of_le hn (Nat.pow_le_pow_right (by decide) hk)
  rw [getLsbD_ofInt_negSucc hi, Nat.testBit_lt_two_pow hwide]
  rfl

/-- The pattern of a nonnegative integer below a power of two has no one from this power on. -/
theorem getLsbD_ofInt_of_nonneg {v : Int} {k i : Nat} (hnonneg : 0 ≤ v) (hhigh : v < 2 ^ k)
    (hk : k ≤ i) : (BitVec.ofInt 128 v).getLsbD i = false := by
  obtain ⟨n, rfl⟩ := Int.eq_ofNat_of_zero_le hnonneg
  have hn : n < 2 ^ k := by exact_mod_cast hhigh
  have hwide : n < 2 ^ i := Nat.lt_of_lt_of_le hn (Nat.pow_le_pow_right (by decide) hk)
  rw [BitVec.ofInt_natCast, BitVec.getLsbD_ofNat, Nat.testBit_lt_two_pow hwide, Bool.and_false]

/-- The pattern of the opposite of a power of two has no one below this power. -/
theorem le_of_getLsbD_neg_two_pow {k i : Nat} (hi : i < 128)
    (h : (BitVec.ofInt 128 (-2 ^ k)).getLsbD i = true) : k ≤ i := by
  have hcomplement : (-2 ^ k : Int) = Int.negSucc (2 ^ k - 1) := by
    rw [Int.negSucc_eq, ← Int.natCast_succ, Nat.succ_eq_add_one,
      Nat.sub_add_cancel Nat.one_le_two_pow, Int.natCast_pow]
    rfl
  rw [hcomplement, getLsbD_ofInt_negSucc hi, Nat.testBit_two_pow_sub_one] at h
  simpa using h

/-- The least value of a signed type is the opposite of a power of two. -/
theorem toInt_min_of_signed (h : t.signed = true) : (min t).toInt = -2 ^ (t.bits - 1) := by
  show t.minValue = -2 ^ (t.bits - 1)
  rw [IntType.minValue, if_pos h]
  rfl

/-- The values of a signed type are below a power of two. -/
theorem toInt_lt_of_signed (a : FixedInt t) (h : t.signed = true) :
    a.toInt < 2 ^ (t.bits - 1) := by
  have hmax := a.contained.2
  rw [IntType.maxValue, if_pos h] at hmax
  exact Int.lt_of_le_sub_one hmax

/-- The pattern of the least value of a signed type has no one below the sign bit of the type. -/
theorem le_of_getLsbD_min {i : Nat} (h : t.signed = true) (hi : i < 128)
    (hbit : (min t).toPattern.getLsbD i = true) : t.bits - 1 ≤ i := by
  rw [toPattern, toInt_min_of_signed h] at hbit
  exact le_of_getLsbD_neg_two_pow hi hbit

/-- The pattern of a negative value has a one wherever that of the least value has one. -/
theorem toPattern_and_min_of_neg {a : FixedInt t} (hneg : a.toInt < 0) :
    a.toPattern &&& (min t).toPattern = (min t).toPattern := by
  have hsigned := signed_of_neg a hneg
  have hlow : -2 ^ (t.bits - 1) ≤ a.toInt := toInt_min_of_signed hsigned ▸ a.contained.1
  refine BitVec.eq_of_getLsbD_eq fun i hi => ?_
  rw [BitVec.getLsbD_and]
  cases hbit : (min t).toPattern.getLsbD i with
  | false => rw [Bool.and_false]
  | true =>
      have hone := getLsbD_ofInt_of_neg hlow hneg (le_of_getLsbD_min hsigned hi hbit) hi
      rw [toPattern, hone, Bool.and_true]

/-- The pattern of a nonnegative value has no one where that of the least value has one. -/
theorem toPattern_and_min_of_nonneg {a : FixedInt t} (h : t.signed = true)
    (hnonneg : 0 ≤ a.toInt) : a.toPattern &&& (min t).toPattern = 0#128 := by
  refine BitVec.eq_of_getLsbD_eq fun i hi => ?_
  rw [BitVec.getLsbD_and, BitVec.getLsbD_zero]
  cases hbit : (min t).toPattern.getLsbD i with
  | false => rw [Bool.and_false]
  | true =>
      have hzero := getLsbD_ofInt_of_nonneg hnonneg (toInt_lt_of_signed a h)
        (le_of_getLsbD_min h hi hbit)
      rw [toPattern, hzero, Bool.false_and]

/-- The sign bit is the least value for a negative value, and zero for any other. -/
theorem signBit_eq (a : FixedInt t) : a.signBit = if a.toInt < 0 then min t else zero t := by
  unfold signBit
  by_cases hsigned : t.signed = true
  · rw [if_pos hsigned]
    split
    · rename_i hneg
      rw [toPattern_and_min_of_neg hneg, ofPattern_toPattern]
    · rename_i hneg
      rw [toPattern_and_min_of_nonneg hsigned (Int.not_lt.1 hneg)]
      exact FixedInt.ext (IntType.wrap_of_contains t.contains_zero)
  · rw [if_neg hsigned, if_neg fun hneg => hsigned (signed_of_neg a hneg)]

/-- Putting the sign bit of a value on a value that is negative if the first is changes nothing. -/
theorem toPattern_or_signBit {a b : FixedInt t} (h : a.toInt < 0 → b.toInt < 0) :
    b.toPattern ||| a.signBit.toPattern = b.toPattern := by
  rw [signBit_eq]
  split
  · rename_i hneg
    -- All ones of the mask are ones of the second value already.
    rw [← toPattern_and_min_of_neg (h hneg)]
    refine BitVec.eq_of_getLsbD_eq fun i _ => ?_
    rw [BitVec.getLsbD_or, BitVec.getLsbD_and]
    cases b.toPattern.getLsbD i <;> rfl
  · exact BitVec.or_zero

/-! ## The quotient -/

/-- From the width on, the quotient of a value is minus one or zero. -/
theorem toInt_ediv_of_bits_le (a : FixedInt t) {steps : Nat} (h : t.bits ≤ steps) :
    a.toInt / 2 ^ steps = if a.toInt < 0 then -1 else 0 := by
  have hmodulus : t.modulus ≤ 2 ^ steps := pow_le_pow_right₀ (by decide : (1 : Int) ≤ 2) h
  have hpos : (0 : Int) < 2 ^ steps := Int.pow_pos (by decide)
  have hlimits := t.maxValue_eq
  have hmin := t.minValue_nonpos
  have hmax := t.maxValue_pos
  obtain ⟨hlow, hhigh⟩ := a.contained
  split
  · rename_i hneg
    have hnegative := Int.ediv_neg_of_neg_of_pos hneg hpos
    have hleast : -1 ≤ a.toInt / 2 ^ steps := Int.le_ediv_of_mul_le hpos (by omega)
    omega
  · exact Int.ediv_eq_zero_of_lt (by omega) (by omega)

/-- A right shift divides and rounds down. -/
theorem toInt_shiftRight (a : FixedInt t) (steps : Nat) :
    (a.shiftRight steps).toInt = a.toInt / 2 ^ steps := by
  unfold shiftRight
  by_cases hsteps : steps < t.bits
  · rw [if_pos hsteps]
    show a.toInt >>> steps = a.toInt / 2 ^ steps
    rw [Int.shiftRight_eq_div_pow]
    push_cast
    rfl
  · rw [if_neg hsteps, toInt_ediv_of_bits_le a (Nat.not_lt.1 hsteps)]
    by_cases hneg : a.toInt < 0
    · -- Minus one lies between a negative value and zero.
      have hone : t.Contains (-1) := IntType.contains_of_between_zero a.contained (by omega)
      rw [if_pos hneg, if_pos hneg, toInt_wrap_of_contains hone]
    · rw [if_neg hneg, if_neg hneg]
      rfl

/-- Putting the sign bit back on does not change the shifted value. -/
theorem arithmeticShiftRight_eq_shiftRight (a : FixedInt t) (steps : Nat) :
    a.arithmeticShiftRight steps = a.shiftRight steps := by
  have hsign : a.toInt < 0 → (a.shiftRight steps).toInt < 0 := by
    intro hneg
    rw [toInt_shiftRight]
    exact Int.ediv_neg_of_neg_of_pos hneg (Int.pow_pos (by decide))
  unfold arithmeticShiftRight
  split
  · rw [toPattern_or_signBit hsign, ofPattern_toPattern]
  · rfl

/-- The shifted value is the quotient by a power of two, rounded down. -/
theorem toInt_arithmeticShiftRight (a : FixedInt t) (steps : Nat) :
    (a.arithmeticShiftRight steps).toInt = a.toInt / 2 ^ steps := by
  rw [arithmeticShiftRight_eq_shiftRight, toInt_shiftRight]

/-- Shifts one after another are a shift by all of their steps. -/
theorem arithmeticShiftRight_add (a : FixedInt t) (steps further : Nat) :
    (a.arithmeticShiftRight steps).arithmeticShiftRight further =
      a.arithmeticShiftRight (steps + further) := by
  apply FixedInt.ext
  rw [toInt_arithmeticShiftRight, toInt_arithmeticShiftRight, toInt_arithmeticShiftRight,
    Int.ediv_ediv_of_nonneg (Int.pow_nonneg (by decide)), ← Int.pow_add]

/-! ## The exported symbols -/

/-- The symbol of a right shift is found for its type. -/
theorem shiftExport?_symbol :
    ∀ type ∈ Session.exportTypes,
      Session.shiftExport? ("tern_shr_" ++ type.name) = some type := by
  decide +kernel

/-- Each row has the symbol of its own type. -/
theorem shift_of_mem_exportTable :
    ∀ row ∈ Session.exportTable,
      row.type ∈ Session.exportTypes ∧ row.shift = "tern_shr_" ++ row.type.name := by
  decide +kernel

/-- A symbol exports the right shift for a type exactly if it is the symbol of this type. -/
theorem shiftExport?_eq_some_iff {symbol : String} {type : IntType} :
    Session.shiftExport? symbol = some type ↔
      type ∈ Session.exportTypes ∧ symbol = "tern_shr_" ++ type.name := by
  constructor
  · intro h
    obtain ⟨row, hrow, heq⟩ := List.mem_map.1 (Session.mem_of_lookup h)
    obtain ⟨rfl, rfl⟩ := Prod.mk.inj heq
    exact shift_of_mem_exportTable row hrow
  · rintro ⟨htype, rfl⟩
    exact shiftExport?_symbol type htype

/-- A right shift is the quotient by a power of two, rounded down, whatever the type, the value and
the number of steps. Putting the sign bit back on never changes it, and shifts one after another are
one shift. Each exported symbol stands for the shift at its own type, and no other symbol for any. A
call of it answers with the shifted value, leaves any session as it is, with or without a
supervisor, and nothing else happens. -/
theorem shift_rounds_down (a : FixedInt t) (steps : Nat) :
    (a.arithmeticShiftRight steps).toInt = ⌊(a.toInt : ℚ) / 2 ^ steps⌋ ∧
    a.arithmeticShiftRight steps = a.shiftRight steps ∧
    (∀ further, (a.arithmeticShiftRight steps).arithmeticShiftRight further =
      a.arithmeticShiftRight (steps + further)) ∧
    (∀ p : Session, (Session.callShift a steps).run p =
      ⟨[], some (a.arithmeticShiftRight steps, p)⟩) ∧
    (∀ symbol type, Session.shiftExport? symbol = some type ↔
      type ∈ Session.exportTypes ∧ symbol = "tern_shr_" ++ type.name) ∧
    ∀ type ∈ Session.exportTypes,
      Session.shiftExport? ("tern_shr_" ++ type.name) = some type ∧
      ∀ (value : FixedInt type) (p : Session),
        (Session.Call.exportedShift type value steps).perform.run p =
          ⟨[], some (.value ⟨type, value.arithmeticShiftRight steps⟩, p)⟩ := by
  refine ⟨?_, arithmeticShiftRight_eq_shiftRight a steps, arithmeticShiftRight_add a steps,
    fun p => rfl, fun symbol type => shiftExport?_eq_some_iff,
    fun type htype => ⟨shiftExport?_symbol type htype, fun value p => rfl⟩⟩
  have hfloor := Rat.floor_intCast_div_natCast a.toInt (2 ^ steps)
  push_cast at hfloor
  rw [toInt_arithmeticShiftRight, hfloor]

/-- A negative value is rounded away from zero, and from the width on minus one is left. -/
example :
    ((⟨-7, by decide⟩ : FixedInt .i8).arithmeticShiftRight 1).toInt = -4 ∧
      ((⟨-7, by decide⟩ : FixedInt .i8).arithmeticShiftRight 300).toInt = -1 := by
  decide +kernel

end CheckedExecution.FixedInt
