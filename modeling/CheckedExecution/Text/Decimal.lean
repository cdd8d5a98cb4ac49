/-!
# Decimal text of integers

`Decimal.ofInt` writes an integer canonically: a minus sign for a negative number, and digits
without leading zeros. `Decimal.toInt?` reads more than it writes: a leading plus sign and leading
zeros are accepted, and a minus sign only where the caller allows one. What is written is read back
(`toInt?_ofInt`).
-/

namespace CheckedExecution.Decimal

/-- The decimal digits of a natural number, without leading zeros. -/
def digits (n : Nat) : List Char :=
  Nat.toDigits 10 n

/-- The canonical decimal text of an integer. -/
def ofInt (v : Int) : List Char :=
  if v < 0 then '-' :: digits v.natAbs else digits v.natAbs

/-- The number written by one or more ASCII digits. -/
def toNat? (text : List Char) : Option Nat :=
  if text ≠ [] ∧ text.all Char.isDigit then some (Nat.ofDigitChars 10 text 0) else none

/-- The integer written by an optional sign and one or more ASCII digits. A minus sign is read only
where `minus` allows it. -/
def toInt? (minus : Bool) (text : List Char) : Option Int :=
  match text with
  | '+' :: rest => (toNat? rest).map fun (n : Nat) => (n : Int)
  | '-' :: rest => if minus then (toNat? rest).map fun (n : Nat) => -(n : Int) else none
  | rest => (toNat? rest).map fun (n : Nat) => (n : Int)

/-- The digits of a number are read back. -/
theorem toNat?_digits (n : Nat) : toNat? (digits n) = some n := by
  have hne : digits n ≠ [] := Nat.toDigits_ne_nil
  have hall : (digits n).all Char.isDigit = true := by
    rw [List.all_eq_true]
    exact fun c hc => Nat.isDigit_of_mem_toDigits (by decide) (by decide) hc
  unfold toNat?
  rw [if_pos ⟨hne, hall⟩]
  exact congrArg some (Nat.ofDigitChars_toDigits (by decide) (by decide))

/-- Digits begin with neither sign. -/
theorem head_digits (n : Nat) {c : Char} {rest : List Char} (h : digits n = c :: rest) :
    c ≠ '+' ∧ c ≠ '-' := by
  have hdigit : c.isDigit = true :=
    Nat.isDigit_of_mem_toDigits (by decide) (by decide) (n := n) (b := 10)
      (show c ∈ digits n by rw [h]; exact List.mem_cons_self)
  constructor <;> rintro rfl <;> exact absurd hdigit (by decide)

/-- A text that begins with neither sign is read as digits. -/
theorem toInt?_of_unsigned {minus : Bool} {text : List Char}
    (h : ∀ c rest, text = c :: rest → c ≠ '+' ∧ c ≠ '-') :
    toInt? minus text = (toNat? text).map fun (n : Nat) => (n : Int) := by
  unfold toInt?
  split
  · exact absurd rfl (h _ _ rfl).1
  · exact absurd rfl (h _ _ rfl).2
  · rfl

/-- The canonical text of an integer is read back, where a minus sign is allowed or not needed. -/
theorem toInt?_ofInt {minus : Bool} {v : Int} (h : v < 0 → minus = true) :
    toInt? minus (ofInt v) = some v := by
  unfold ofInt
  split
  · rename_i hneg
    rw [h hneg]
    simp only [toInt?, toNat?_digits, if_true, Option.map_some]
    congr 1
    omega
  · rw [toInt?_of_unsigned fun _ _ heq => head_digits _ heq, toNat?_digits, Option.map_some]
    congr 1
    omega

end CheckedExecution.Decimal
