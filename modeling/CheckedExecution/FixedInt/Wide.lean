import CheckedExecution.FixedInt

/-!
# A common form for all values

A value of any type widens to a `Wide`: a negative number in the widest signed type, or a
nonnegative one in the widest unsigned type. Together the two cases hold every value of every type,
and narrowing back gives the value again (`ofWide?_toWide`).

The case of a `Wide`, and not the sign of the number it carries, decides whether it counts as
negative. A negative case never narrows to an unsigned type.
-/

namespace CheckedExecution

/-- A number tagged with its sign, in the widest type of that sign. -/
inductive Wide where
  | negative (value : FixedInt .i128)
  | nonnegative (value : FixedInt .u128)
  deriving DecidableEq

namespace Wide

/-- The number, whichever the case. -/
def toInt : Wide → Int
  | negative value => value.toInt
  | nonnegative value => value.toInt

/-- The case is the negative one. -/
def isNegative : Wide → Bool
  | negative _ => true
  | nonnegative _ => false

end Wide

namespace FixedInt

variable {t : IntType}

/-- The value in the common form, the case following its sign. -/
def toWide (a : FixedInt t) : Wide :=
  if h : a.toInt < 0 then
    .negative ⟨a.toInt, IntType.contains_i128_of_neg a.contained h⟩
  else
    .nonnegative ⟨a.toInt, IntType.contains_u128_of_nonneg a.contained (by omega)⟩

/-- The number as a value of the type, if it fits. Unsigned types refuse the negative case. -/
def ofWide? (t : IntType) : Wide → Option (FixedInt t)
  | .negative value => if t.signed then ofInt? t value.toInt else none
  | .nonnegative value => ofInt? t value.toInt

/-- Widening keeps the number. -/
@[simp]
theorem toInt_toWide (a : FixedInt t) : a.toWide.toInt = a.toInt := by
  unfold toWide
  split <;> rfl

/-- Widening takes the case that the sign asks for. -/
@[simp]
theorem isNegative_toWide (a : FixedInt t) : a.toWide.isNegative = decide (a.toInt < 0) := by
  unfold toWide
  split <;> simp_all [Wide.isNegative]

/-- Narrowing succeeds exactly with the value of the same number, in the nonnegative case or at a
signed type. -/
theorem ofWide?_eq_some_iff {w : Wide} {a : FixedInt t} :
    ofWide? t w = some a ↔ a.toInt = w.toInt ∧ (w.isNegative = true → t.signed = true) := by
  cases w with
  | negative value =>
      by_cases h : t.signed = true <;>
        simp [ofWide?, Wide.toInt, Wide.isNegative, h, ofInt?_eq_some_iff]
  | nonnegative value => simp [ofWide?, Wide.toInt, Wide.isNegative, ofInt?_eq_some_iff]

/-- A type with a negative value is signed. -/
theorem signed_of_neg (a : FixedInt t) (h : a.toInt < 0) : t.signed = true := by
  have hmin := a.contained.1
  unfold IntType.minValue at hmin
  split at hmin
  · assumption
  · omega

/-- Narrowing to the type a value came from gives the value. -/
@[simp]
theorem ofWide?_toWide (a : FixedInt t) : ofWide? t a.toWide = some a := by
  rw [ofWide?_eq_some_iff]
  exact ⟨by simp, fun h => signed_of_neg a (by simpa using h)⟩

end FixedInt

end CheckedExecution
