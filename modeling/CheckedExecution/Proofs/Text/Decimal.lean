import CheckedExecution.Text.Decimal
import Mathlib.Algebra.Group.Nat.Defs
import Mathlib.Data.List.Induction

/-!
# What decimal text denotes

One or more digits write a number by place value, and with a sign in front an integer (`Denotes`).
The reader of decimals reads exactly that (`toInt?_eq_some_iff`). Of all texts that denote an
integer one is canonical: it has no plus sign and no zero in front, and no sign at all for zero. The
writer of decimals writes exactly that one (`canonical_denotes_iff`), so it writes different
integers differently (`ofInt_injective`).
-/

namespace CheckedExecution.Decimal

/-- The number that digits write: each counts ten to the number of digits behind it. -/
def placeValue : List Char → Nat
  | [] => 0
  | c :: rest => (c.toNat - '0'.toNat) * 10 ^ rest.length + placeValue rest

/-- One or more digits. -/
structure IsNumeral (text : List Char) : Prop where
  ne_nil : text ≠ []
  digits : ∀ c ∈ text, c.isDigit = true

/-- Digits that begin with another one than zero. -/
structure IsLeading (text : List Char) : Prop extends IsNumeral text where
  head_ne : text.head? ≠ some '0'

/-- The text denotes the integer. A minus sign is part of a text only where it is allowed. -/
inductive Denotes (minus : Bool) : List Char → Int → Prop where
  /-- Digits denote their number. -/
  | unsigned {text : List Char} : IsNumeral text → Denotes minus text (placeValue text)
  /-- So they do behind a plus sign. -/
  | plus {text : List Char} : IsNumeral text → Denotes minus ('+' :: text) (placeValue text)
  /-- Behind a minus sign they denote the number's opposite. -/
  | negated {text : List Char} :
      minus = true → IsNumeral text → Denotes minus ('-' :: text) (-(placeValue text))

/-- The text is as short as it can be. -/
inductive IsCanonical : List Char → Prop where
  /-- Zero has one digit and no sign. -/
  | zero : IsCanonical ['0']
  /-- A positive number has no zero in front and no sign. -/
  | positive {text : List Char} : IsLeading text → IsCanonical text
  /-- A negative number has no zero in front and a minus sign. -/
  | negative {text : List Char} : IsLeading text → IsCanonical ('-' :: text)

/-- The text with zeros put behind its sign, or in front where it has none. -/
def insertZeros (zeros : Nat) : List Char → List Char
  | '+' :: rest => '+' :: (List.replicate zeros '0' ++ rest)
  | '-' :: rest => '-' :: (List.replicate zeros '0' ++ rest)
  | text => List.replicate zeros '0' ++ text

/-! ## Digits -/

/-- Reading digits from left to right adds up their place values. -/
theorem ofDigitChars_eq (text : List Char) : Nat.ofDigitChars 10 text 0 = placeValue text := by
  induction text with
  | nil => rfl
  | cons c rest ih =>
      rw [Nat.ofDigitChars_cons, Nat.ofDigitChars_eq_ofDigitChars_zero, ih, placeValue,
        Nat.mul_zero, Nat.zero_add, Nat.mul_comm]

/-- A further digit multiplies the number by ten and is added to it. -/
theorem placeValue_append_singleton (text : List Char) (c : Char) :
    placeValue (text ++ [c]) = 10 * placeValue text + (c.toNat - '0'.toNat) := by
  rw [← ofDigitChars_eq, ← ofDigitChars_eq, Nat.ofDigitChars_append, Nat.ofDigitChars_cons,
    Nat.ofDigitChars_nil]

/-- Exactly one or more digits are read as a number, and as the one that they write. -/
theorem toNat?_eq_some_iff {text : List Char} {n : Nat} :
    toNat? text = some n ↔ IsNumeral text ∧ placeValue text = n := by
  unfold toNat?
  rw [ofDigitChars_eq]
  split
  · rename_i h
    have hnumeral : IsNumeral text := ⟨h.1, List.all_eq_true.1 h.2⟩
    simp [hnumeral]
  · rename_i h
    constructor
    · intro hnone
      cases hnone
    · intro hsome
      exact absurd ⟨hsome.1.ne_nil, List.all_eq_true.2 hsome.1.digits⟩ h

/-- The digits that are written for a number are digits. -/
theorem isNumeral_digits (n : Nat) : IsNumeral (digits n) :=
  (toNat?_eq_some_iff.1 (toNat?_digits n)).1

/-- Digits with zeros in front are digits. -/
theorem IsNumeral.replicate_append {text : List Char} (h : IsNumeral text) (zeros : Nat) :
    IsNumeral (List.replicate zeros '0' ++ text) := by
  refine ⟨List.append_ne_nil_of_right_ne_nil _ h.ne_nil, fun c hc => ?_⟩
  rcases List.mem_append.1 hc with hc | hc
  · rw [List.eq_of_mem_replicate hc]
    decide
  · exact h.digits c hc

/-- Zeros in front of digits do not change what is read. -/
theorem toNat?_replicate_append {text : List Char} (h : IsNumeral text) (zeros : Nat) :
    toNat? (List.replicate zeros '0' ++ text) = toNat? text := by
  rw [toNat?_eq_some_iff.2 ⟨h, rfl⟩, toNat?_eq_some_iff]
  refine ⟨h.replicate_append zeros, ?_⟩
  rw [← ofDigitChars_eq, Nat.ofDigitChars_append, Nat.ofDigitChars_replicate_zero, Nat.mul_zero,
    ofDigitChars_eq]

/-- A digit is neither sign. -/
theorem ne_sign_of_isDigit {c : Char} (h : c.isDigit = true) : c ≠ '+' ∧ c ≠ '-' := by
  constructor <;> rintro rfl <;> exact absurd h (by decide)

/-- Digits begin with neither sign. -/
theorem IsNumeral.head_ne_sign {text : List Char} (h : IsNumeral text) :
    ∀ c rest, text = c :: rest → c ≠ '+' ∧ c ≠ '-' := by
  intro c rest htext
  apply ne_sign_of_isDigit
  apply h.digits
  rw [htext]
  exact List.mem_cons_self

/-! ## Signs -/

/-- Exactly the texts that denote an integer are read, and as the integer that they denote. -/
theorem toInt?_eq_some_iff {minus : Bool} {text : List Char} {v : Int} :
    toInt? minus text = some v ↔ Denotes minus text v := by
  constructor
  · intro h
    unfold toInt? at h
    split at h
    · obtain ⟨n, hn, rfl⟩ := Option.map_eq_some_iff.1 h
      obtain ⟨hnumeral, rfl⟩ := toNat?_eq_some_iff.1 hn
      exact .plus hnumeral
    · split at h
      · rename_i hminus
        obtain ⟨n, hn, rfl⟩ := Option.map_eq_some_iff.1 h
        obtain ⟨hnumeral, rfl⟩ := toNat?_eq_some_iff.1 hn
        exact .negated hminus hnumeral
      · cases h
    · obtain ⟨n, hn, rfl⟩ := Option.map_eq_some_iff.1 h
      obtain ⟨hnumeral, rfl⟩ := toNat?_eq_some_iff.1 hn
      exact .unsigned hnumeral
  · intro h
    cases h with
    | unsigned hnumeral =>
        rw [toInt?_of_unsigned hnumeral.head_ne_sign, toNat?_eq_some_iff.2 ⟨hnumeral, rfl⟩]
        rfl
    | plus hnumeral =>
        rw [toInt?, toNat?_eq_some_iff.2 ⟨hnumeral, rfl⟩]
        rfl
    | negated hminus hnumeral =>
        rw [toInt?, if_pos hminus, toNat?_eq_some_iff.2 ⟨hnumeral, rfl⟩]
        rfl

/-- A text denotes one integer at most. -/
theorem Denotes.unique {minus : Bool} {text : List Char} {v w : Int} (hv : Denotes minus text v)
    (hw : Denotes minus text w) : v = w :=
  Option.some.inj ((toInt?_eq_some_iff.2 hv).symm.trans (toInt?_eq_some_iff.2 hw))

/-- What a text denotes where no minus sign is allowed it also denotes where one is. -/
theorem Denotes.allow {minus : Bool} {text : List Char} {v : Int} (h : Denotes minus text v) :
    Denotes true text v := by
  cases h with
  | unsigned hnumeral => exact .unsigned hnumeral
  | plus hnumeral => exact .plus hnumeral
  | negated _ hnumeral => exact .negated rfl hnumeral

/-- Digits have no sign, so zeros are put in front of them. -/
theorem insertZeros_of_isNumeral {text : List Char} (h : IsNumeral text) (zeros : Nat) :
    insertZeros zeros text = List.replicate zeros '0' ++ text := by
  unfold insertZeros
  split
  · exact absurd rfl (h.head_ne_sign _ _ rfl).1
  · exact absurd rfl (h.head_ne_sign _ _ rfl).2
  · rfl

/-- Zeros behind its sign do not change what is read of the text that is written for an integer. -/
theorem toInt?_insertZeros (minus : Bool) (zeros : Nat) (v : Int) :
    toInt? minus (insertZeros zeros (ofInt v)) = toInt? minus (ofInt v) := by
  have hdigits := isNumeral_digits v.natAbs
  unfold ofInt
  split
  · simp only [insertZeros, toInt?, toNat?_replicate_append hdigits]
  · rw [insertZeros_of_isNumeral hdigits, toInt?_of_unsigned hdigits.head_ne_sign,
      toInt?_of_unsigned (hdigits.replicate_append zeros).head_ne_sign,
      toNat?_replicate_append hdigits]

/-- Putting no zeros into a text leaves it. -/
theorem insertZeros_zero (text : List Char) : insertZeros 0 text = text := by
  unfold insertZeros
  split <;> rfl

/-- Putting zeros into a text adds no other character. -/
theorem mem_insertZeros {zeros : Nat} {text : List Char} {c : Char}
    (h : c ∈ insertZeros zeros text) : c = '0' ∨ c ∈ text := by
  have hzero : c ∈ List.replicate zeros '0' → c = '0' := List.eq_of_mem_replicate
  unfold insertZeros at h
  split at h <;> simp only [List.mem_cons, List.mem_append] at h ⊢ <;> grind

/-! ## Canonical text -/

/-- A digit is the digit of its number. -/
theorem digitChar_of_isDigit {c : Char} (h : c.isDigit = true) :
    c.toNat - '0'.toNat < 10 ∧ Nat.digitChar (c.toNat - '0'.toNat) = c := by
  have hrange : 48 ≤ c.toNat ∧ c.toNat ≤ 57 := by
    simp only [Char.isDigit, Bool.and_eq_true, decide_eq_true_eq] at h
    exact h
  have hlt : c.toNat - '0'.toNat < 10 := by
    show c.toNat - 48 < 10
    omega
  refine ⟨hlt, Char.toNat_inj.1 ?_⟩
  rw [Nat.toNat_digitChar_of_lt_ten hlt]
  show 48 + (c.toNat - 48) = c.toNat
  omega

/-- The digits of a positive number have no zero in front. -/
theorem isLeading_digits {n : Nat} (h : 0 < n) : IsLeading (digits n) := by
  refine ⟨isNumeral_digits n, ?_⟩
  unfold digits
  induction n using Nat.base_induction 10 (by decide) with
  | single m hm =>
      rw [Nat.toDigits_of_lt_base hm]
      simp
      omega
  | digit m k hk hm ih =>
      obtain ⟨c, rest, hcons⟩ := List.exists_cons_of_ne_nil (Nat.toDigits_ne_nil (n := m) (b := 10))
      rw [← Nat.toDigits_append_toDigits (by decide) hm hk]
      rw [hcons] at ih ⊢
      exact ih hm

/-- A number whose digits have no zero in front is positive. -/
theorem pos_of_digits_eq {n : Nat} {text : List Char} (h : IsLeading text)
    (hdigits : digits n = text) : 0 < n := by
  apply Nat.pos_of_ne_zero
  intro hzero
  apply h.head_ne
  rw [← hdigits, hzero]
  rfl

/-- Digits without a zero in front are the ones that are written for their number. -/
theorem digits_placeValue {text : List Char} (h : IsLeading text) :
    digits (placeValue text) = text := by
  -- Numbers grow by digits at the end, so the induction takes the text apart there.
  induction text using List.reverseRecOn with
  | nil => exact absurd rfl h.ne_nil
  | append_singleton rest c ih =>
      obtain ⟨hlt, hchar⟩ := digitChar_of_isDigit (h.digits c (by simp))
      rw [placeValue_append_singleton]
      cases rest with
      | nil =>
          show Nat.toDigits 10 (10 * 0 + (c.toNat - '0'.toNat)) = [c]
          rw [Nat.mul_zero, Nat.zero_add, Nat.toDigits_of_lt_base hlt, hchar]
      | cons d tail =>
          have hrest : IsLeading (d :: tail) :=
            ⟨⟨List.cons_ne_nil d tail, fun e he => h.digits e (List.mem_append_left [c] he)⟩,
              h.head_ne⟩
          have hpos : 0 < placeValue (d :: tail) := pos_of_digits_eq hrest (ih hrest)
          rw [digits, ← Nat.toDigits_append_toDigits (by decide) hpos hlt,
            Nat.toDigits_of_lt_base hlt, hchar]
          exact congrArg (· ++ [c]) (ih hrest)

/-- The text that is written for an integer is canonical. -/
theorem isCanonical_ofInt (v : Int) : IsCanonical (ofInt v) := by
  unfold ofInt
  split
  · rename_i hneg
    exact .negative (isLeading_digits (by omega))
  · by_cases hzero : v.natAbs = 0
    · rw [hzero]
      exact .zero
    · exact .positive (isLeading_digits (by omega))

/-- The text that is written for an integer denotes it. -/
theorem denotes_ofInt (v : Int) : Denotes true (ofInt v) v :=
  toInt?_eq_some_iff.1 (toInt?_ofInt fun _ => rfl)

/-- A text is the one that is written for an integer exactly if it is canonical and denotes it. -/
theorem canonical_denotes_iff {text : List Char} {v : Int} :
    IsCanonical text ∧ Denotes true text v ↔ text = ofInt v := by
  constructor
  · intro h
    obtain ⟨hcanonical, hv⟩ := h
    cases hcanonical with
    | zero =>
        have hzero : v = 0 := hv.unique (.unsigned (isNumeral_digits 0))
        rw [hzero]
        rfl
    | positive hleading =>
        have hvalue : v = placeValue text := hv.unique (.unsigned hleading.toIsNumeral)
        have hnonneg : ¬ v < 0 := by omega
        rw [ofInt, if_neg hnonneg, hvalue, Int.natAbs_natCast, digits_placeValue hleading]
    | negative hleading =>
        have hvalue := hv.unique (.negated rfl hleading.toIsNumeral)
        have hpos := pos_of_digits_eq hleading (digits_placeValue hleading)
        have hneg : v < 0 := by omega
        rw [ofInt, if_pos hneg, hvalue, Int.natAbs_neg, Int.natAbs_natCast,
          digits_placeValue hleading]
  · intro h
    rw [h]
    exact ⟨isCanonical_ofInt v, denotes_ofInt v⟩

/-- A string is the decimal of an integer exactly if it is canonical and denotes it. -/
theorem eq_ofList_ofInt_iff {text : String} {v : Int} :
    text = String.ofList (ofInt v) ↔ IsCanonical text.toList ∧ Denotes true text.toList v := by
  rw [canonical_denotes_iff]
  exact ⟨fun h => h ▸ String.toList_ofList, fun h => h ▸ String.ofList_toList.symm⟩

/-- Nothing but digits and a minus sign is written for an integer. -/
theorem mem_ofInt {v : Int} {c : Char} (h : c ∈ ofInt v) : c = '-' ∨ c.isDigit = true := by
  have hdigits := (isNumeral_digits v.natAbs).digits
  unfold ofInt at h
  split at h
  · rcases List.mem_cons.1 h with hc | hc
    · exact .inl hc
    · exact .inr (hdigits c hc)
  · exact .inr (hdigits c h)

/-- Different integers are written differently. -/
theorem ofInt_injective {v w : Int} (h : ofInt v = ofInt w) : v = w := by
  apply (denotes_ofInt v).unique
  rw [h]
  exact denotes_ofInt w

/-- The text that is written for an integer has no blank in it. -/
theorem ne_blank_of_mem_ofInt {v : Int} {c : Char} (h : c ∈ ofInt v) : (c != ' ') = true := by
  rw [bne_iff_ne]
  rintro rfl
  rcases mem_ofInt h with hminus | hdigit
  · cases hminus
  · cases hdigit

/-- So an integer and what follows it are told apart by a blank between them. -/
theorem ofInt_append_blank_inj {v w : Int} {rest rest' : String}
    (h : String.ofList (ofInt v) ++ (" " ++ rest) = String.ofList (ofInt w) ++ (" " ++ rest')) :
    v = w ∧ rest = rest' := by
  have hfirst : ∀ (u : Int) (tail : String),
      (String.ofList (ofInt u) ++ (" " ++ tail)).toList.takeWhile (· != ' ') = ofInt u := by
    intro u tail
    rw [String.toList_append, String.toList_append, String.toList_ofList,
      List.takeWhile_append_of_pos fun _ => ne_blank_of_mem_ofInt]
    exact List.append_nil (ofInt u)
  have hvalue : v = w := by
    apply ofInt_injective
    rw [← hfirst v rest, h, hfirst]
  rw [hvalue, String.append_right_inj, String.append_right_inj] at h
  exact ⟨hvalue, h⟩

end CheckedExecution.Decimal
