import CheckedExecution.Proofs.FixedInt.Residue
import CheckedExecution.Proofs.Supervisor.Panic

/-!
# Agreement of the cast policies

The policies that ask whether a value fits go through the common form of all values, and truncation
goes through the bit pattern. Both come down to the same integer: a value fits exactly when the
target type contains it (`fallibleCast_eq_some_iff`), and its low bits are the value congruent to it
(`truncatingCast_eq_wrap`). The main theorem, `cast_policies_agree`, says what every policy does
with a value that fits and with one that does not.
-/

namespace CheckedExecution

variable {α : Type} [Castable α] {target : IntType} {value : α}

/-- A cast succeeds exactly with the value of the same number. A negative number is refused by
unsigned types before its range is looked at, but it has no value there either. -/
theorem fallibleCast_eq_some_iff {y : FixedInt target} :
    fallibleCast target value = some y ↔ y.toInt = (castSource value).toInt := by
  rw [fallibleCast, FixedInt.ofWide?_eq_some_iff, FixedInt.toInt_toWide,
    FixedInt.isNegative_toWide, decide_eq_true_eq]
  constructor
  · exact fun h => h.1
  · -- A type with a value of a negative number is signed, so the early refusal never applies.
    intro h
    refine ⟨h, fun hneg => FixedInt.signed_of_neg y ?_⟩
    rwa [h]

/-- A cast fails exactly when the target type does not contain the number. -/
theorem fallibleCast_eq_none_iff :
    fallibleCast target value = none ↔ ¬ target.Contains (castSource value).toInt := by
  rw [Option.eq_none_iff_forall_ne_some]
  constructor
  · intro h hin
    exact h ⟨_, hin⟩ (fallibleCast_eq_some_iff.2 rfl)
  · intro h y hy
    exact h (fallibleCast_eq_some_iff.1 hy ▸ y.contained)

/-- The low bits of a value are the value of the target type congruent to it. -/
theorem truncatingCast_eq_wrap (target : IntType) (value : α) :
    truncatingCast target value = FixedInt.wrap target (castSource value).toInt :=
  FixedInt.ofPattern_toPattern_eq_wrap target (castSource value)

/-- Truncating to a type that is not wider keeps the residue that the wider type has. -/
theorem truncatingCast_wrap {t : IntType} (h : target.bits ≤ t.bits) (v : Int) :
    truncatingCast target (FixedInt.wrap t v) = FixedInt.wrap target v := by
  rw [truncatingCast_eq_wrap, FixedInt.eq_wrap_iff]
  have hwide : (FixedInt.wrap t v).toInt ≡ v [ZMOD 2 ^ target.bits] :=
    (FixedInt.wrap_modEq t v).of_dvd (pow_dvd_pow 2 h)
  exact (FixedInt.wrap_modEq target _).trans hwide

/-- The range check asks whether the target type contains the number. -/
theorem isWithinRange_iff :
    isWithinRange target value = true ↔ target.Contains (castSource value).toInt := by
  rw [isWithinRange, Option.isSome_iff_ne_none, ne_eq, fallibleCast_eq_none_iff, not_not]

/-! ## Values that fit -/

section Contained

variable (h : target.Contains (castSource value).toInt)
include h

/-- A value that fits is present. -/
theorem fallibleCast_of_contains :
    fallibleCast target value = some ⟨(castSource value).toInt, h⟩ :=
  fallibleCast_eq_some_iff.2 rfl

/-- A value that fits is no error. -/
theorem tryCast_of_contains : tryCast target value = .ok ⟨(castSource value).toInt, h⟩ := by
  rw [tryCast, fallibleCast_of_contains h]

/-- A value that fits is not cut to a bound. -/
theorem saturatingCast_of_contains :
    saturatingCast target value = ⟨(castSource value).toInt, h⟩ := by
  rw [saturatingCast, fallibleCast_of_contains h]

/-- A value that fits has nothing but low bits. -/
theorem truncatingCast_of_contains :
    truncatingCast target value = ⟨(castSource value).toInt, h⟩ := by
  rw [truncatingCast_eq_wrap]
  exact FixedInt.wrap_toInt ⟨(castSource value).toInt, h⟩

end Contained

/-! ## Values that do not fit -/

section Outside

variable (h : ¬ target.Contains (castSource value).toInt)
include h

/-- A value that does not fit is reported with its number and the target type. -/
theorem tryCast_of_not_contains :
    tryCast target value = .error ⟨(castSource value).toInt, target⟩ := by
  rw [tryCast, fallibleCast_eq_none_iff.2 h]

/-- A value that does not fit is cut to the bound on the side of its sign. -/
theorem saturatingCast_of_not_contains :
    saturatingCast target value =
      if (castSource value).toInt < 0 then FixedInt.min target else FixedInt.max target := by
  simp [saturatingCast, fallibleCast_eq_none_iff.2 h]

end Outside

/-- A value below the target type is cut to the least value. -/
theorem saturatingCast_of_lt_minValue (h : (castSource value).toInt < target.minValue) :
    saturatingCast target value = FixedInt.min target := by
  have hneg : (castSource value).toInt < 0 := Int.lt_of_lt_of_le h target.minValue_nonpos
  rw [saturatingCast_of_not_contains fun hin => Int.not_le.2 h hin.1, if_pos hneg]

/-- A value above the target type is cut to the greatest value. -/
theorem saturatingCast_of_maxValue_lt (h : target.maxValue < (castSource value).toInt) :
    saturatingCast target value = FixedInt.max target := by
  have hpos : 0 < (castSource value).toInt := Int.lt_trans target.maxValue_pos h
  rw [saturatingCast_of_not_contains fun hin => Int.not_le.2 h hin.2,
    if_neg (Int.not_lt.2 (Int.le_of_lt hpos))]

/-- An infallible cast is silent exactly if the target type contains the number. -/
theorem Supervisor.diagnostics_infallibleCast_eq_nil_iff (s : Supervisor) :
    (s.infallibleCast target value).diagnostics = [] ↔
      target.Contains (castSource value).toInt := by
  constructor
  · intro hsilent
    by_contra h
    rw [infallibleCast_of_error (tryCast_of_not_contains h),
      diagnostics_panic_bind_pure] at hsilent
    exact List.cons_ne_nil _ _ hsilent
  · intro h
    rw [infallibleCast_of_ok (tryCast_of_contains h)]
    rfl

/-- The report of a cast that failed, with the canonical decimal of the number. -/
theorem message_of_outside (value : α) (target : IntType) :
    (⟨(castSource value).toInt, target⟩ : CastError).message =
      "Integer cast out of range: " ++ (castSource value).toDecimal ++ " does not fit in " ++
        target.name := rfl

/-- All policies agree with one another and with the exact number. A value that fits is the same
value under each of them, and an infallible cast of it is silent in both modes. A value that does
not fit is refused, cut to the bound that it lies beyond, or truncated to the one value congruent to
it, and an infallible cast of it writes one line. -/
theorem cast_policies_agree (target : IntType) (value : α) :
    (target.Contains (castSource value).toInt →
      ∃ y : FixedInt target, y.toInt = (castSource value).toInt ∧
        isWithinRange target value = true ∧ fallibleCast target value = some y ∧
        tryCast target value = .ok y ∧ saturatingCast target value = y ∧
        truncatingCast target value = y ∧
        ∀ s : Supervisor, s.infallibleCast target value = ⟨[], some y⟩) ∧
    (¬ target.Contains (castSource value).toInt →
      isWithinRange target value = false ∧ fallibleCast target value = none ∧
      (∃ error, tryCast target value = .error error ∧ error.value = (castSource value).toInt ∧
        error.target = target ∧
        error.message = "Integer cast out of range: " ++ (castSource value).toDecimal ++
          " does not fit in " ++ target.name) ∧
      ((castSource value).toInt < target.minValue →
        saturatingCast target value = FixedInt.min target) ∧
      (target.maxValue < (castSource value).toInt →
        saturatingCast target value = FixedInt.max target) ∧
      (∀ y : FixedInt target, y = truncatingCast target value ↔
        y.toInt ≡ (castSource value).toInt [ZMOD 2 ^ target.bits]) ∧
      (∀ s : Supervisor, (s.infallibleCast target value).diagnostics =
        ["Panic: Integer cast out of range: " ++ (castSource value).toDecimal ++
          " does not fit in " ++ target.name]) ∧
      (Supervisor.proceeding.infallibleCast target value).value? =
        some (truncatingCast target value) ∧
      (Supervisor.aborting.infallibleCast target value).value? = none) := by
  constructor
  · intro h
    exact ⟨⟨(castSource value).toInt, h⟩, rfl, isWithinRange_iff.2 h, fallibleCast_of_contains h,
      tryCast_of_contains h, saturatingCast_of_contains h, truncatingCast_of_contains h,
      Supervisor.infallibleCast_of_ok (tryCast_of_contains h)⟩
  · intro h
    have htry := tryCast_of_not_contains h
    have hwithin : isWithinRange target value = false := by
      rw [← Bool.not_eq_true, isWithinRange_iff]
      exact h
    refine ⟨hwithin, fallibleCast_eq_none_iff.2 h,
      ⟨_, htry, rfl, rfl, message_of_outside value target⟩, saturatingCast_of_lt_minValue,
      saturatingCast_of_maxValue_lt, fun y => ?_, fun s => ?_, ?_, ?_⟩
    · rw [truncatingCast_eq_wrap, FixedInt.eq_wrap_iff]
    · rw [Supervisor.infallibleCast_of_error htry, Supervisor.diagnostics_panic_bind_pure,
        message_of_outside, Supervisor.panicLine]
      simp only [← String.append_assoc]
      rfl
    · rw [Supervisor.infallibleCast_of_error htry, Supervisor.panic_proceed]
      rfl
    · rw [Supervisor.infallibleCast_of_error htry, Supervisor.panic_abort]
      rfl

end CheckedExecution
