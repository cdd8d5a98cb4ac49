import CheckedExecution.IntType

/-!
# Values of the integer types

`FixedInt t` is an integer together with the proof that the type `t` contains it, so equal integers
are equal values (`FixedInt.ext`). An integer enters a type in one of two ways: `ofInt?` refuses
what does not fit, and `wrap` takes the congruent value.
-/

namespace CheckedExecution

/-- A value of the integer type `t`. -/
@[ext]
structure FixedInt (t : IntType) where
  toInt : Int
  contained : t.Contains toInt
  deriving DecidableEq

namespace FixedInt

variable {t : IntType}

/-- The integer as a value of the type, if it fits. -/
def ofInt? (t : IntType) (v : Int) : Option (FixedInt t) :=
  if h : t.Contains v then some ⟨v, h⟩ else none

/-- The value of the type that is congruent to the integer modulo two to the width. -/
def wrap (t : IntType) (v : Int) : FixedInt t :=
  ⟨t.wrap v, t.wrap_contains v⟩

/-- The least value. -/
def min (t : IntType) : FixedInt t :=
  ⟨t.minValue, t.contains_minValue⟩

/-- The greatest value. -/
def max (t : IntType) : FixedInt t :=
  ⟨t.maxValue, t.contains_maxValue⟩

/-- Zero. -/
def zero (t : IntType) : FixedInt t :=
  ⟨0, t.contains_zero⟩

/-- One. -/
def one (t : IntType) : FixedInt t :=
  ⟨1, t.contains_one⟩

instance : Inhabited (FixedInt t) := ⟨zero t⟩

/-- Values are ordered as integers. -/
instance : LE (FixedInt t) := ⟨fun a b => a.toInt ≤ b.toInt⟩

/-- An integer enters a type unchanged exactly when the type contains it. -/
theorem ofInt?_eq_some_iff {v : Int} {a : FixedInt t} : ofInt? t v = some a ↔ a.toInt = v := by
  unfold ofInt?
  split
  · simp [FixedInt.ext_iff, eq_comm]
  · rename_i h
    simp only [reduceCtorEq, false_iff]
    rintro rfl
    exact h a.contained

/-- A value enters its own type. -/
@[simp]
theorem ofInt?_toInt (a : FixedInt t) : ofInt? t a.toInt = some a :=
  ofInt?_eq_some_iff.2 rfl

/-- Wrapping a value's own integer gives the value. -/
@[simp]
theorem wrap_toInt (a : FixedInt t) : wrap t a.toInt = a :=
  FixedInt.ext (IntType.wrap_of_contains a.contained)

end FixedInt

end CheckedExecution
