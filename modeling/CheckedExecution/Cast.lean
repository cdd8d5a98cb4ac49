import CheckedExecution.FixedInt.Wide
import CheckedExecution.FixedInt.Pattern
import CheckedExecution.FixedInt.Literal

/-!
# Casts between integer types

A value of any integer type, or of any enumeration with an underlying integer, is cast to an integer
type under one of several policies. The policies that ask whether the value fits go through the
common form `Wide`, and truncation goes through the bit pattern. A value that does not fit is absent
(`fallibleCast`), an error (`tryCast`), the nearer bound (`saturatingCast`) or its low bits
(`truncatingCast`).
-/

namespace CheckedExecution

/-- A type whose values are cast through an integer of a fixed type. -/
class Castable (α : Type) where
  type : IntType
  underlying : α → FixedInt type

/-- An integer is cast as itself. -/
instance (t : IntType) : Castable (FixedInt t) where
  type := t
  underlying value := value

/-- The number that was refused by the target type. -/
structure CastError where
  value : Int
  target : IntType
  deriving DecidableEq

/-- The report of a refused cast. -/
def CastError.message (e : CastError) : String :=
  "Integer cast out of range: " ++ String.ofList (Decimal.ofInt e.value) ++ " does not fit in " ++
    e.target.name

variable {α : Type} [Castable α]

/-- The integer that a value is cast through. -/
def castSource (value : α) : FixedInt (Castable.type α) :=
  Castable.underlying value

/-- The value at the target type, if it fits. -/
def fallibleCast (target : IntType) (value : α) : Option (FixedInt target) :=
  FixedInt.ofWide? target (castSource value).toWide

/-- The value fits the target type. -/
def isWithinRange (target : IntType) (value : α) : Bool :=
  (fallibleCast target value).isSome

/-- The value at the target type, or the error that names both. -/
def tryCast (target : IntType) (value : α) : Except CastError (FixedInt target) :=
  match fallibleCast target value with
  | some converted => .ok converted
  | none => .error ⟨(castSource value).toInt, target⟩

/-- The value at the target type, or the bound on the side of its sign. -/
def saturatingCast (target : IntType) (value : α) : FixedInt target :=
  match fallibleCast target value with
  | some converted => converted
  | none =>
      if (castSource value).toWide.isNegative then FixedInt.min target else FixedInt.max target

/-- The low bits of the value, read at the target type. -/
def truncatingCast (target : IntType) (value : α) : FixedInt target :=
  FixedInt.ofPattern target (castSource value).toPattern

/-! ## Casts in constants

The check behind a cast in a constant works on two readings of the value, one in the widest signed
and one in the widest unsigned type. Each reading alone may be wrong: the sign of the value says
which of them is compared with a bound. -/

/-- The value lies within the bounds. A negative value is compared through its signed reading with
the lower bound, and any other value through its unsigned reading with the upper bound. -/
def fitsConstant (negative : Bool) (signed : FixedInt .i128) (unsigned : FixedInt .u128)
    (lower : FixedInt .i128) (upper : FixedInt .u128) : Bool :=
  if negative then lower.toInt ≤ signed.toInt else unsigned.toInt ≤ upper.toInt

/-- A constant that does not fit its type. -/
inductive ConstantCastError where
  | outOfRange
  deriving DecidableEq

/-- The report of a constant that does not fit, which names neither value nor type. -/
def ConstantCastError.message : ConstantCastError → String
  | .outOfRange => "Integer cast out of range"

/-- The value at the target type, checked in the manner of constants. -/
def constantCast (target : IntType) (value : α) : Except ConstantCastError (FixedInt target) :=
  let source := (castSource value).toInt
  if fitsConstant (decide (source < 0)) (FixedInt.wrap .i128 source) (FixedInt.wrap .u128 source)
      (FixedInt.wrap .i128 target.minValue) (FixedInt.wrap .u128 target.maxValue) then
    .ok (FixedInt.wrap target source)
  else
    .error .outOfRange

end CheckedExecution
