import CheckedExecution.Cast
import CheckedExecution.Proofs.Cast.Policies

/-!
# Casts in constants agree with casts at run time

The check of a cast in a constant reads the value once as signed and once as unsigned, and each
reading is wrong for some values. The sign of the value says which reading is compared, and that one
is right (`fitsConstant_eq`), so the check asks whether the target type contains the number. The
main theorem, `constant_cast_agrees`, compares the cast with every one that reports whether the
value fits.
-/

namespace CheckedExecution

variable {α : Type} [Castable α] {target : IntType} {value : α}

/-- The least value of a type is read right as signed. -/
theorem toInt_wrap_i128_minValue (t : IntType) :
    (FixedInt.wrap .i128 t.minValue).toInt = t.minValue := by
  cases t <;> rfl

/-- The greatest value of a type is read right as unsigned. -/
theorem toInt_wrap_u128_maxValue (t : IntType) :
    (FixedInt.wrap .u128 t.maxValue).toInt = t.maxValue := by
  cases t <;> rfl

/-- The check asks whether the target type contains the value. Only the reading that is right for
the sign of the value is looked at. -/
theorem fitsConstant_eq {t : IntType} (a : FixedInt t) (target : IntType) :
    fitsConstant (decide (a.toInt < 0)) (FixedInt.wrap .i128 a.toInt)
        (FixedInt.wrap .u128 a.toInt) (FixedInt.wrap .i128 target.minValue)
        (FixedInt.wrap .u128 target.maxValue) = decide (target.Contains a.toInt) := by
  have hmin := target.minValue_nonpos
  have hmax := target.maxValue_pos
  unfold fitsConstant IntType.Contains
  by_cases hneg : a.toInt < 0
  · have hread := FixedInt.toInt_wrap_of_contains (IntType.contains_i128_of_neg a.contained hneg)
    rw [if_pos (decide_eq_true hneg), hread, toInt_wrap_i128_minValue]
    exact decide_eq_decide.2 ⟨fun h => ⟨h, by omega⟩, fun h => h.1⟩
  · have hread := FixedInt.toInt_wrap_of_contains
      (IntType.contains_u128_of_nonneg a.contained (Int.not_lt.1 hneg))
    rw [if_neg (by simpa using hneg), hread, toInt_wrap_u128_maxValue]
    exact decide_eq_decide.2 ⟨fun h => ⟨by omega, h⟩, fun h => h.2⟩

/-- A cast in a constant succeeds with the value of the same number where the target type contains
it. -/
theorem constantCast_eq (target : IntType) (value : α) :
    constantCast target value =
      if h : target.Contains (castSource value).toInt then .ok ⟨(castSource value).toInt, h⟩
      else .error .outOfRange := by
  unfold constantCast
  simp only [fitsConstant_eq, decide_eq_true_eq]
  split
  · rename_i h
    exact congrArg Except.ok (FixedInt.wrap_toInt ⟨_, h⟩)
  · rfl

/-- A cast in a constant differs from the cast that reports an error in the error alone. -/
theorem constantCast_eq_mapError (target : IntType) (value : α) :
    constantCast target value = (tryCast target value).mapError fun _ => .outOfRange := by
  rw [constantCast_eq]
  by_cases h : target.Contains (castSource value).toInt
  · rw [dif_pos h, tryCast_of_contains h]
    rfl
  · rw [dif_neg h, tryCast_of_not_contains h]
    rfl

/-- A cast in a constant has a value exactly where the fallible cast has one, and that value. -/
theorem constantCast_eq_ok_iff {y : FixedInt target} :
    constantCast target value = .ok y ↔ fallibleCast target value = some y := by
  rw [fallibleCast_eq_some_iff, constantCast_eq]
  constructor
  · intro h
    split at h
    · cases h
      rfl
    · cases h
  · intro h
    rw [dif_pos (h ▸ y.contained)]
    exact congrArg Except.ok (FixedInt.ext h.symm)

/-- A cast in a constant fails exactly where the target type does not contain the number. -/
theorem constantCast_eq_error_iff :
    constantCast target value = .error .outOfRange ↔
      ¬ target.Contains (castSource value).toInt := by
  rw [constantCast_eq]
  by_cases h : target.Contains (castSource value).toInt
  · simp [h]
  · simp [h]

/-- A cast in a constant agrees with the casts at run time, for every source, target and value. It
has a value exactly where the fallible cast has one, and the same. Anywhere else its report is the
same for all values and types. It asks no supervisor, and whatever mode a supervisor has, the
infallible cast panics exactly where the cast in a constant fails. -/
theorem constant_cast_agrees (target : IntType) (value : α) :
    (∀ y, constantCast target value = .ok y ↔ fallibleCast target value = some y) ∧
    (constantCast target value = .error .outOfRange ↔ fallibleCast target value = none) ∧
    ConstantCastError.message .outOfRange = "Integer cast out of range" ∧
    constantCast target value = (tryCast target value).mapError (fun _ => .outOfRange) ∧
    ∀ s : Supervisor,
      (∀ y, constantCast target value = .ok y → s.infallibleCast target value = ⟨[], some y⟩) ∧
      (constantCast target value = .error .outOfRange ↔
        (s.infallibleCast target value).diagnostics ≠ []) := by
  refine ⟨fun y => constantCast_eq_ok_iff, ?_, rfl, constantCast_eq_mapError target value,
    fun s => ⟨fun y hy => ?_, ?_⟩⟩
  · rw [constantCast_eq_error_iff, fallibleCast_eq_none_iff]
  · have hnumber := fallibleCast_eq_some_iff.1 (constantCast_eq_ok_iff.1 hy)
    have hin : target.Contains (castSource value).toInt := hnumber ▸ y.contained
    have hvalue : (⟨(castSource value).toInt, hin⟩ : FixedInt target) = y :=
      FixedInt.ext hnumber.symm
    rw [Supervisor.infallibleCast_of_ok (tryCast_of_contains hin), hvalue]
  · rw [constantCast_eq_error_iff, ne_eq, Supervisor.diagnostics_infallibleCast_eq_nil_iff]

end CheckedExecution
