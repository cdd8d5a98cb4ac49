/-!
# Fixed-width integer types

The twelve integer types of the language: the signed and the unsigned type of each of the widths 8,
16, 32, 64 and 128, and a signed and an unsigned machine word of 64 bits. A type has a width and a
sign, hence a least and a greatest value, and `wrap` sends every integer to the one value of the
type that is congruent to it modulo two to the width (`wrap_contains`, `wrap_emod`,
`wrap_of_contains`).
-/

namespace CheckedExecution

/-- The integer types. `isize` and `usize` are machine words of 64 bits. -/
inductive IntType where
  | i8 | i16 | i32 | i64 | i128 | isize
  | u8 | u16 | u32 | u64 | u128 | usize
  deriving DecidableEq

namespace IntType

/-- Every integer type, the signed ones first. -/
def all : List IntType :=
  [i8, i16, i32, i64, i128, isize, u8, u16, u32, u64, u128, usize]

/-- The name of the type in the language. -/
def name : IntType → String
  | i8 => "i8"
  | i16 => "i16"
  | i32 => "i32"
  | i64 => "i64"
  | i128 => "i128"
  | isize => "isize"
  | u8 => "u8"
  | u16 => "u16"
  | u32 => "u32"
  | u64 => "u64"
  | u128 => "u128"
  | usize => "usize"

/-- The type of a name, which is matched exactly. -/
def ofName? (text : String) : Option IntType :=
  all.find? fun t => t.name == text

/-- The width in bits. -/
def bits : IntType → Nat
  | i8 | u8 => 8
  | i16 | u16 => 16
  | i32 | u32 => 32
  | i64 | u64 | isize | usize => 64
  | i128 | u128 => 128

/-- The type has negative values. -/
def signed : IntType → Bool
  | i8 | i16 | i32 | i64 | i128 | isize => true
  | u8 | u16 | u32 | u64 | u128 | usize => false

/-- The number of values of the type, two to the width. -/
def modulus (t : IntType) : Int :=
  Int.pow 2 t.bits

/-- The least value of the type. -/
def minValue (t : IntType) : Int :=
  if t.signed then -Int.pow 2 (t.bits - 1) else 0

/-- The greatest value of the type. -/
def maxValue (t : IntType) : Int :=
  if t.signed then Int.pow 2 (t.bits - 1) - 1 else Int.pow 2 t.bits - 1

/-- The integer is a value of the type. -/
def Contains (t : IntType) (v : Int) : Prop :=
  t.minValue ≤ v ∧ v ≤ t.maxValue

/-- Containment is decided by two comparisons. -/
instance (t : IntType) (v : Int) : Decidable (t.Contains v) :=
  inferInstanceAs (Decidable (_ ∧ _))

/-- The value of the type that is congruent to the integer modulo two to the width. -/
def wrap (t : IntType) (v : Int) : Int :=
  t.minValue + (v - t.minValue) % t.modulus

/-- Looking up a type's own name finds the type. -/
@[simp]
theorem ofName?_name (t : IntType) : ofName? t.name = some t := by
  cases t <;> decide

/-- Types are told apart by their names. -/
theorem name_injective {t u : IntType} (h : t.name = u.name) : t = u := by
  apply Option.some.inj
  rw [← ofName?_name t, h, ofName?_name]

/-- The number of values is positive. -/
theorem modulus_pos (t : IntType) : 0 < t.modulus := by
  cases t <;> decide

/-- The values of a type are as many as its modulus. -/
theorem maxValue_eq (t : IntType) : t.maxValue = t.minValue + t.modulus - 1 := by
  cases t <;> decide

/-- Zero is a value of every type. -/
theorem contains_zero (t : IntType) : t.Contains 0 := by
  cases t <;> decide

/-- One is a value of every type. -/
theorem contains_one (t : IntType) : t.Contains 1 := by
  cases t <;> decide

/-- The least value is a value. -/
theorem contains_minValue (t : IntType) : t.Contains t.minValue := by
  cases t <;> decide

/-- The greatest value is a value. -/
theorem contains_maxValue (t : IntType) : t.Contains t.maxValue := by
  cases t <;> decide

/-- Wrapping always yields a value of the type. -/
theorem wrap_contains (t : IntType) (v : Int) : t.Contains (t.wrap v) := by
  have hpos := t.modulus_pos
  have hmax := t.maxValue_eq
  have hlow := Int.emod_nonneg (v - t.minValue) (by omega : t.modulus ≠ 0)
  have hhigh := Int.emod_lt_of_pos (v - t.minValue) hpos
  unfold Contains wrap
  constructor <;> omega

/-- Wrapping keeps the residue modulo two to the width. -/
theorem wrap_emod (t : IntType) (v : Int) : t.wrap v % t.modulus = v % t.modulus := by
  unfold wrap
  rw [Int.add_emod_emod]
  congr 1
  omega

/-- Wrapping leaves the values of the type as they are. -/
theorem wrap_of_contains {t : IntType} {v : Int} (h : t.Contains v) : t.wrap v = v := by
  have hmax := t.maxValue_eq
  obtain ⟨hlow, hhigh⟩ := h
  unfold wrap
  rw [Int.emod_eq_of_lt (by omega) (by omega)]
  omega

/-- Wrapping depends only on the residue. -/
theorem wrap_congr {t : IntType} {v w : Int} (h : v % t.modulus = w % t.modulus) :
    t.wrap v = t.wrap w := by
  unfold wrap
  rw [Int.sub_emod, h, ← Int.sub_emod]

/-- Every negative value of a type is a value of the widest signed type. -/
theorem contains_i128_of_neg {t : IntType} {v : Int} (h : t.Contains v) (hneg : v < 0) :
    i128.Contains v := by
  have hlow : i128.minValue ≤ t.minValue := by cases t <;> decide
  have hmax : (0 : Int) ≤ i128.maxValue := by decide
  obtain ⟨hmin, -⟩ := h
  constructor <;> omega

/-- Every nonnegative value of a type is a value of the widest unsigned type. -/
theorem contains_u128_of_nonneg {t : IntType} {v : Int} (h : t.Contains v) (hnonneg : 0 ≤ v) :
    u128.Contains v := by
  have hhigh : t.maxValue ≤ u128.maxValue := by cases t <;> decide
  have hmin : u128.minValue = 0 := by decide
  obtain ⟨-, hmax⟩ := h
  constructor <;> omega

end IntType

end CheckedExecution
