import CheckedExecution.Text.Utf8

/-!
# Text through its bytes

A character is written as one to four bytes, and the decoder reads them as this character again,
whatever follows them (`partsFrom_encodeChar`). So the bytes of a text have no invalid part, and the
text is decoded from them (`decode?_encode`).
-/

namespace CheckedExecution.Utf8

/-- The least byte that may follow a first byte. -/
def secondLower (n : Nat) : UInt8 :=
  if n = 0xe0 then 0xa0 else if n = 0xf0 then 0x90 else 0x80

/-- The greatest byte that may follow a first byte. -/
def secondUpper (n : Nat) : UInt8 :=
  if n = 0xed then 0x9f else if n = 0xf4 then 0x8f else 0xbf

/-! ## First bytes -/

/-- A byte of seven bits is a character. -/
theorem first_of_ascii {n : Nat} (h : n ≤ 0x7f) :
    first (UInt8.ofNat n) = some (.inl (Char.ofNat n)) := by
  have hn : n % 256 = n := by omega
  simp [first, UInt8.le_iff_toNat_le, hn, h]

/-- The first of two bytes. -/
theorem first_of_two {n : Nat} (hlower : 0xc2 ≤ n) (hupper : n ≤ 0xdf) :
    first (UInt8.ofNat n) = some (.inr (.inside 1 0x80 0xbf (n - 0xc0))) := by
  have hn : n % 256 = n := by omega
  have hascii : ¬ n ≤ 127 := by omega
  have htail : ¬ n < 194 := by omega
  simp [first, UInt8.le_iff_toNat_le, UInt8.lt_iff_toNat_lt, hn, hascii, htail, hupper]

/-- The first of three bytes. -/
theorem first_of_three {n : Nat} (hlower : 0xe0 ≤ n) (hupper : n ≤ 0xef) :
    first (UInt8.ofNat n) =
      some (.inr (.inside 2 (secondLower n) (secondUpper n) (n - 0xe0))) := by
  have hn : n % 256 = n := by omega
  have hascii : ¬ n ≤ 127 := by omega
  have htail : ¬ n < 194 := by omega
  have htwo : ¬ n ≤ 223 := by omega
  have hfour : n ≠ 240 ∧ n ≠ 244 := by omega
  simp only [first, UInt8.le_iff_toNat_le, UInt8.lt_iff_toNat_lt, ← UInt8.toNat_inj,
    UInt8.toNat_ofNat', UInt8.reduceToNat, Nat.reducePow, hn, hascii, htail, htwo, hupper, if_false,
    if_true, secondLower, secondUpper, hfour]
  by_cases hleast : n = 224
  · subst hleast
    rfl
  · by_cases hsurrogate : n = 237
    · subst hsurrogate
      rfl
    · simp only [hleast, hsurrogate, if_false]

/-- The first of four bytes. -/
theorem first_of_four {n : Nat} (hlower : 0xf0 ≤ n) (hupper : n ≤ 0xf4) :
    first (UInt8.ofNat n) =
      some (.inr (.inside 3 (secondLower n) (secondUpper n) (n - 0xf0))) := by
  have hcases : n = 240 ∨ n = 241 ∨ n = 242 ∨ n = 243 ∨ n = 244 := by omega
  rcases hcases with rfl | rfl | rfl | rfl | rfl <;> rfl

/-! ## Further bytes -/

variable {owed bits n : Nat} {lower upper : UInt8}

/-- A byte that continues a character which is not complete with it. -/
theorem partsFrom_inside_succ (hlower : lower.toNat ≤ n) (hupper : n ≤ upper.toNat)
    (rest : List UInt8) :
    partsFrom (.inside (owed + 2) lower upper bits) (UInt8.ofNat n :: rest) =
      partsFrom (.inside (owed + 1) 0x80 0xbf (bits * 64 + n % 64)) rest := by
  have hn : n % 256 = n := Nat.mod_eq_of_lt (Nat.lt_of_le_of_lt hupper upper.toNat_lt)
  simp [partsFrom, step, UInt8.le_iff_toNat_le, hn, hlower, hupper]

/-- A byte that completes a character. -/
theorem partsFrom_inside_one (hlower : lower.toNat ≤ n) (hupper : n ≤ upper.toNat)
    (rest : List UInt8) :
    partsFrom (.inside 1 lower upper bits) (UInt8.ofNat n :: rest) =
      some (Char.ofNat (bits * 64 + n % 64)) :: partsFrom .start rest := by
  have hn : n % 256 = n := Nat.mod_eq_of_lt (Nat.lt_of_le_of_lt hupper upper.toNat_lt)
  simp [partsFrom, step, UInt8.le_iff_toNat_le, hn, hlower, hupper]

/-- A first byte that completes nothing. -/
theorem partsFrom_start {state : State} (h : first (UInt8.ofNat n) = some (.inr state))
    (rest : List UInt8) :
    partsFrom .start (UInt8.ofNat n :: rest) = partsFrom state rest := by
  simp [partsFrom, step, readFirst, h]

/-! ## Characters and texts -/

/-- The bytes of a character are read as this character, whatever follows them. -/
theorem partsFrom_encodeChar (c : Char) (rest : List UInt8) :
    partsFrom .start (String.utf8EncodeChar c ++ rest) = some c :: partsFrom .start rest := by
  have hchar : ∀ n, n = c.val.toNat → some (Char.ofNat n) = some c := by
    rintro n rfl
    exact congrArg some (Char.ofNat_toNat c)
  have hvalid : c.val.toNat < 0xd800 ∨ 0xdfff < c.val.toNat ∧ c.val.toNat < 0x110000 := c.valid
  unfold String.utf8EncodeChar
  generalize c.val.toNat = v at hchar hvalid
  dsimp only
  split
  · rename_i hascii
    simp only [List.cons_append, List.nil_append, partsFrom, step, readFirst, first_of_ascii hascii,
      hchar v rfl]
  · split
    · rw [List.cons_append, partsFrom_start (first_of_two (by omega) (by omega)),
        List.cons_append, List.nil_append, partsFrom_inside_one (by simp) (by simp; omega),
        hchar _ (by omega)]
    · split
      · -- The second byte keeps out what has a shorter form and what is a surrogate.
        rw [List.cons_append, partsFrom_start (first_of_three (by omega) (by omega)),
          List.cons_append, partsFrom_inside_succ, List.cons_append, List.nil_append,
          partsFrom_inside_one (by simp) (by simp; omega), hchar _ (by omega)]
        · unfold secondLower
          split
          · simp
            omega
          · rw [if_neg (by omega)]
            simp
        · unfold secondUpper
          split
          · simp
            omega
          · rw [if_neg (by omega)]
            simp
            omega
      · rw [List.cons_append, partsFrom_start (first_of_four (by omega) (by omega)),
          List.cons_append, partsFrom_inside_succ, List.cons_append,
          partsFrom_inside_succ (by simp) (by simp; omega), List.cons_append, List.nil_append,
          partsFrom_inside_one (by simp) (by simp; omega), hchar _ (by omega)]
        · unfold secondLower
          rw [if_neg (by omega)]
          split
          · simp
            omega
          · simp
        · unfold secondUpper
          rw [if_neg (by omega)]
          split
          · simp
            omega
          · simp
            omega

/-- The bytes of a text are its characters, whatever follows them. -/
theorem parts_encode_append (text : String) (rest : List UInt8) :
    parts (encode text ++ rest) = text.toList.map some ++ parts rest := by
  unfold parts encode
  induction text.toList with
  | nil => rfl
  | cons c more ih =>
      rw [List.flatMap_cons, List.append_assoc, partsFrom_encodeChar, ih, List.map_cons,
        List.cons_append]

/-- The bytes of a text have no invalid part. -/
theorem parts_encode (text : String) : parts (encode text) = text.toList.map some := by
  rw [← List.append_nil (encode text), parts_encode_append]
  exact List.append_nil _

/-- A text is decoded from its bytes. -/
theorem decode?_encode (text : String) : decode? (encode text) = some text := by
  have hmap : ∀ chars : List Char, (chars.map some).mapM id = some chars := by
    intro chars
    induction chars with
    | nil => rfl
    | cons c rest ih => simp [List.mapM_cons, ih]
  rw [decode?, parts_encode, hmap, Option.map_some, String.ofList_toList]

end CheckedExecution.Utf8
