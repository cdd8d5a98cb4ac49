import CheckedExecution.FixedInt

/-!
# Arithmetic that reports overflow

Each operation computes the exact integer, returns the value of the type congruent to it, and says
whether the exact integer lies outside the type. Division truncates towards zero, and the remainder
takes the sign of the dividend. The remainder reports the overflow of the quotient: of all operands
only the least value of a signed type and minus one have a quotient that does not fit, and there the
remainder is zero.
-/

namespace CheckedExecution.FixedInt

variable {t : IntType}

/-- The exact integer wrapped into the type, and whether it lies outside. -/
def overflowing (t : IntType) (exact : Int) : FixedInt t × Bool :=
  (wrap t exact, !decide (t.Contains exact))

/-- The sum and whether it overflows. -/
def overflowingAdd (a b : FixedInt t) : FixedInt t × Bool :=
  overflowing t (a.toInt + b.toInt)

/-- The difference and whether it overflows. -/
def overflowingSub (a b : FixedInt t) : FixedInt t × Bool :=
  overflowing t (a.toInt - b.toInt)

/-- The product and whether it overflows. -/
def overflowingMul (a b : FixedInt t) : FixedInt t × Bool :=
  overflowing t (a.toInt * b.toInt)

/-- The quotient and whether it overflows, for a divisor other than zero. -/
def overflowingDiv? (a b : FixedInt t) : Option (FixedInt t × Bool) :=
  if b.toInt = 0 then none else some (overflowing t (a.toInt.tdiv b.toInt))

/-- The remainder and whether the quotient overflows, for a divisor other than zero. -/
def overflowingRem? (a b : FixedInt t) : Option (FixedInt t × Bool) :=
  if b.toInt = 0 then none
  else some (wrap t (a.toInt.tmod b.toInt), (overflowing t (a.toInt.tdiv b.toInt)).2)

/-- The sum, wrapped. -/
def wrappingAdd (a b : FixedInt t) : FixedInt t :=
  (overflowingAdd a b).1

end CheckedExecution.FixedInt
