import CheckedExecution.Proofs.Cast.Policies

/-!
# Saturation keeps order and distance

A saturating cast takes the case of the common form, and not a comparison with the bounds, to tell
which bound a value that does not fit is cut to. It is the cut to the interval of the target type
all the same (`toInt_saturatingCast`), for sources of any width and sign. So it keeps the order of
values of different types, it yields the nearest value of the target type, and a cut to a larger
interval on the way is not seen. The main theorem is `saturations_keep_order`.
-/

namespace CheckedExecution

variable {α β : Type} [Castable α] [Castable β] {middle target : IntType}

/-- Saturating cuts the number to the interval of the target type. -/
theorem toInt_saturatingCast (target : IntType) (value : α) :
    (saturatingCast target value).toInt =
      max target.minValue (min (castSource value).toInt target.maxValue) := by
  by_cases hlow : (castSource value).toInt < target.minValue
  · have hbounds := target.contains_minValue.2
    rw [saturatingCast_of_lt_minValue hlow]
    show target.minValue = _
    omega
  · by_cases hhigh : target.maxValue < (castSource value).toInt
    · have hbounds := target.contains_minValue.2
      rw [saturatingCast_of_maxValue_lt hhigh]
      show target.maxValue = _
      omega
    · have hin : target.Contains (castSource value).toInt := ⟨by omega, by omega⟩
      rw [saturatingCast_of_contains hin]
      show (castSource value).toInt = _
      omega

/-- Saturating keeps the order of numbers, whatever the types of the values. -/
theorem saturatingCast_le {x : α} {y : β} (h : (castSource x).toInt ≤ (castSource y).toInt) :
    saturatingCast target x ≤ saturatingCast target y := by
  show (saturatingCast target x).toInt ≤ (saturatingCast target y).toInt
  rw [toInt_saturatingCast, toInt_saturatingCast]
  omega

/-- Every other value of the target type is farther from the number. -/
theorem saturatingCast_nearest (value : α) {other : FixedInt target}
    (h : other ≠ saturatingCast target value) :
    ((saturatingCast target value).toInt - (castSource value).toInt).natAbs <
      (other.toInt - (castSource value).toInt).natAbs := by
  obtain ⟨hlow, hhigh⟩ := other.contained
  have hne : other.toInt ≠ (saturatingCast target value).toInt := fun heq => h (FixedInt.ext heq)
  rw [toInt_saturatingCast] at hne ⊢
  omega

/-- A saturation on the way to a type whose values the middle type has is not seen. -/
theorem saturatingCast_saturatingCast (h : ∀ v, target.Contains v → middle.Contains v)
    (value : α) :
    saturatingCast target (saturatingCast middle value) = saturatingCast target value := by
  obtain ⟨hlow, -⟩ := h _ target.contains_minValue
  obtain ⟨-, hhigh⟩ := h _ target.contains_maxValue
  have hbounds := target.contains_minValue.2
  have hmiddle : (castSource (saturatingCast middle value)).toInt =
      max middle.minValue (min (castSource value).toInt middle.maxValue) :=
    toInt_saturatingCast middle value
  apply FixedInt.ext
  rw [toInt_saturatingCast, toInt_saturatingCast, hmiddle]
  omega

/-- Saturating casts keep order, take the nearest value and compose. Of two values of any types, the
one that is not greater stays so. Every value of the target type other than the result is farther
from the number that is cast. A saturation to a type that has all values of the target type, on the
way there, is not seen in the result. -/
theorem saturations_keep_order :
    (∀ (α β : Type) [Castable α] [Castable β] (target : IntType) (x : α) (y : β),
      (castSource x).toInt ≤ (castSource y).toInt →
        saturatingCast target x ≤ saturatingCast target y) ∧
    (∀ (α : Type) [Castable α] (target : IntType) (value : α) (other : FixedInt target),
      other ≠ saturatingCast target value →
        ((saturatingCast target value).toInt - (castSource value).toInt).natAbs <
          (other.toInt - (castSource value).toInt).natAbs) ∧
    (∀ (α : Type) [Castable α] (middle target : IntType) (value : α),
      (∀ v, target.Contains v → middle.Contains v) →
        saturatingCast target (saturatingCast middle value) = saturatingCast target value) := by
  refine ⟨?_, ?_, ?_⟩
  · intro α β _ _ target x y h
    exact saturatingCast_le h
  · intro α _ target value other h
    exact saturatingCast_nearest value h
  · intro α _ middle target value h
    exact saturatingCast_saturatingCast h value

/-- A negative value and one beyond every signed type keep their order among octets, where the
greatest octet is nearest to the second, and the way through signed words leads there too. -/
theorem order_survives_between_signs :
    saturatingCast .u8 (⟨-1, by decide⟩ : FixedInt .i8) ≤
      saturatingCast .u8 (FixedInt.max .u128) ∧
    ((255 : Int) - (FixedInt.max .u128).toInt).natAbs <
      ((254 : Int) - (FixedInt.max .u128).toInt).natAbs ∧
    saturatingCast .i64 (FixedInt.max .u128) = FixedInt.max .i64 ∧
    saturatingCast .u8 (FixedInt.max .i64) = saturatingCast .u8 (FixedInt.max .u128) := by
  have hmiddle : saturatingCast .i64 (FixedInt.max .u128) = FixedInt.max .i64 := by decide
  have hwithin : ∀ v, IntType.Contains .u8 v → IntType.Contains .i64 v := by
    intro v ⟨hlow, hhigh⟩
    have hlower : IntType.minValue .i64 ≤ IntType.minValue .u8 := by decide
    have hupper : IntType.maxValue .u8 ≤ IntType.maxValue .i64 := by decide
    exact ⟨Int.le_trans hlower hlow, Int.le_trans hhigh hupper⟩
  obtain ⟨horder, hnearest, hcompose⟩ := saturations_keep_order
  refine ⟨horder (FixedInt .i8) (FixedInt .u128) .u8 ⟨-1, by decide⟩ (FixedInt.max .u128)
    (by decide), ?_, hmiddle, ?_⟩
  · exact hnearest (FixedInt .u128) .u8 (FixedInt.max .u128) ⟨254, by decide⟩ (by decide)
  · rw [← hmiddle]
    exact hcompose (FixedInt .u128) .i64 .u8 (FixedInt.max .u128) hwithin

end CheckedExecution
