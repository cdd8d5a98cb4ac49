import CheckedExecution.FixedInt.Overflowing

/-!
# Ranges

A range counts from its start up to its stop, which it does not yield. It yields the current value
and moves on by one, wrapping around past the greatest value of the type, until the current value is
the stop. A range whose start lies above its stop therefore passes through the greatest and the
least value of the type.
-/

namespace CheckedExecution

/-- A range with the value that it yields next. The fields may be assigned at any time. -/
structure Range (t : IntType) where
  start : FixedInt t
  stop : FixedInt t
  current : FixedInt t
  deriving DecidableEq

namespace Range

variable {t : IntType}

/-- The range that has yielded nothing yet. -/
def ofBounds (start stop : FixedInt t) : Range t :=
  ⟨start, stop, start⟩

/-- The next value, absent at the stop, and the range after it. -/
def next (r : Range t) : Option (FixedInt t) × Range t :=
  if r.current = r.stop then (none, r)
  else (some r.current, { r with current := r.current.wrappingAdd (FixedInt.one t) })

/-- Up to the given number of values, and the range after them. -/
def take : Nat → Range t → List (FixedInt t) × Range t
  | 0, r => ([], r)
  | count + 1, r =>
      match r.next with
      | (none, rest) => ([], rest)
      | (some value, rest) =>
          let (values, last) := take count rest
          (value :: values, last)

end Range

end CheckedExecution
