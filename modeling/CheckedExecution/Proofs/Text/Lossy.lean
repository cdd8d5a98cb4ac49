import CheckedExecution.Proofs.Text.Utf8
import Mathlib.Data.List.Basic

/-!
# Invalid parts

What the decoder makes of bytes that are not all valid. They fall into characters and maximal
invalid parts in one way (`Split`), and this is what the decoder finds (`split_iff`). What may
complete each of its states is told by `State.Completes`, which for the state that a first byte
leads to is the rest of a character (`encodeChar_iff_completes`).
-/

namespace CheckedExecution.Utf8

/-! ## Characters and maximal invalid parts -/

/-- The bytes are those of a character but for some at its end. -/
def BeginsChar (bytes : List UInt8) : Prop :=
  ∃ c more, more ≠ [] ∧ String.utf8EncodeChar c = bytes ++ more

/-- No character begins the bytes, and the first of them are the most that belong to one character,
or a single byte that belongs to none. -/
structure MaximalInvalid (bad rest : List UInt8) : Prop where
  ne_nil : bad ≠ []
  no_char : ∀ c, ¬ String.utf8EncodeChar c <+: bad ++ rest
  begun : bad.length = 1 ∨ BeginsChar bad
  longest : ∀ more, more <+: bad ++ rest → BeginsChar more → more.length ≤ bad.length

/-- The bytes fall into the parts. -/
inductive Split : List UInt8 → List Part → Prop where
  | nil : Split [] []
  | char {c : Char} {rest : List UInt8} {parts : List Part} :
      Split rest parts → Split (String.utf8EncodeChar c ++ rest) (some c :: parts)
  | invalid {bad rest : List UInt8} {parts : List Part} :
      MaximalInvalid bad rest → Split rest parts → Split (bad ++ rest) (none :: parts)

/-- The bytes complete a state to a character. -/
inductive State.Completes : State → List UInt8 → Char → Prop where
  | last {owed bits : Nat} {lower upper b : UInt8} :
      owed ≤ 1 → lower ≤ b → b ≤ upper →
      Completes (.inside owed lower upper bits) [b] (Char.ofNat (bits * 64 + b.toNat % 64))
  | further {owed bits : Nat} {lower upper b : UInt8} {tail : List UInt8} {c : Char} :
      ¬ owed ≤ 1 → lower ≤ b → b ≤ upper →
      Completes (.inside (owed - 1) 0x80 0xbf (bits * 64 + b.toNat % 64)) tail c →
      Completes (.inside owed lower upper bits) (b :: tail) c

/-- The bytes go along with what completes the state for so long and no longer. -/
structure Stuck (state : State) (seen bytes : List UInt8) : Prop where
  begun : ∃ more c, more ≠ [] ∧ state.Completes (seen ++ more) c
  incomplete : ∀ tail c, state.Completes tail c → ¬ tail <+: bytes
  longest : ∀ tail c more, state.Completes tail c → more <+: tail → more <+: bytes →
    more.length ≤ seen.length

/-! ## The bytes of a character -/

/-- The bounds of a second byte are those of every further byte, but after four first bytes. -/
theorem second_bounds {m n : Nat}
    (h : (secondLower m).toNat ≤ n ∧ n ≤ (secondUpper m).toNat) :
    0x80 ≤ n ∧ n ≤ 0xbf ∧ (m = 0xe0 → 0xa0 ≤ n) ∧ (m = 0xed → n ≤ 0x9f) ∧
      (m = 0xf0 → 0x90 ≤ n) ∧ (m = 0xf4 → n ≤ 0x8f) := by
  obtain ⟨hlower, hupper⟩ := h
  unfold secondLower at hlower
  unfold secondUpper at hupper
  split_ifs at hlower hupper <;> simp at hlower hupper <;> omega

/-- A valid value is that of its character. -/
theorem toNat_val_ofNat {n : Nat} (h : n.isValidChar) : (Char.ofNat n).val.toNat = n := by
  have hchar : Char.ofNat n = Char.ofNatAux n h := dif_pos h
  rw [hchar]
  rfl

/-- The character of one byte. -/
theorem encodeChar_one {m : Nat} (hm : m ≤ 0x7f) :
    String.utf8EncodeChar (Char.ofNat m) = [.ofNat m] := by
  rw [String.utf8EncodeChar, toNat_val_ofNat (.inl (by omega)), if_pos hm]

/-- The character of two bytes. -/
theorem encodeChar_two {m n : Nat} (hm : 0xc2 ≤ m ∧ m ≤ 0xdf) (hn : 0x80 ≤ n ∧ n ≤ 0xbf) :
    String.utf8EncodeChar (Char.ofNat ((m - 0xc0) * 64 + n % 64)) = [.ofNat m, .ofNat n] := by
  rw [String.utf8EncodeChar, toNat_val_ofNat (.inl (by omega)), if_neg (by omega),
    if_pos (by omega)]
  congr 3 <;> omega

/-- The character of three bytes. -/
theorem encodeChar_three {m n o : Nat} (hm : 0xe0 ≤ m ∧ m ≤ 0xef)
    (hn : (secondLower m).toNat ≤ n ∧ n ≤ (secondUpper m).toNat) (ho : 0x80 ≤ o ∧ o ≤ 0xbf) :
    String.utf8EncodeChar (Char.ofNat (((m - 0xe0) * 64 + n % 64) * 64 + o % 64)) =
      [.ofNat m, .ofNat n, .ofNat o] := by
  -- The bounds of the second byte keep out what has a shorter form and what is a surrogate.
  have hsecond := second_bounds hn
  rw [String.utf8EncodeChar, toNat_val_ofNat (by unfold Nat.isValidChar; omega), if_neg (by omega),
    if_neg (by omega), if_pos (by omega)]
  congr 4 <;> omega

/-- The character of four bytes. -/
theorem encodeChar_four {m n o p : Nat} (hm : 0xf0 ≤ m ∧ m ≤ 0xf4)
    (hn : (secondLower m).toNat ≤ n ∧ n ≤ (secondUpper m).toNat) (ho : 0x80 ≤ o ∧ o ≤ 0xbf)
    (hp : 0x80 ≤ p ∧ p ≤ 0xbf) :
    String.utf8EncodeChar
        (Char.ofNat ((((m - 0xf0) * 64 + n % 64) * 64 + o % 64) * 64 + p % 64)) =
      [.ofNat m, .ofNat n, .ofNat o, .ofNat p] := by
  have hsecond := second_bounds hn
  rw [String.utf8EncodeChar, toNat_val_ofNat (by unfold Nat.isValidChar; omega), if_neg (by omega),
    if_neg (by omega), if_neg (by omega)]
  congr 5 <;> omega

/-! ## First bytes -/

/-- A first byte is a character, begins one of two, three or four bytes, or begins none. -/
theorem first_cases (b : UInt8) :
    b.toNat ≤ 0x7f ∧ first b = some (.inl (Char.ofNat b.toNat)) ∨
    (0xc2 ≤ b.toNat ∧ b.toNat ≤ 0xdf) ∧
      first b = some (.inr (.inside 1 0x80 0xbf (b.toNat - 0xc0))) ∨
    (0xe0 ≤ b.toNat ∧ b.toNat ≤ 0xef) ∧
      first b =
        some (.inr (.inside 2 (secondLower b.toNat) (secondUpper b.toNat) (b.toNat - 0xe0))) ∨
    (0xf0 ≤ b.toNat ∧ b.toNat ≤ 0xf4) ∧
      first b =
        some (.inr (.inside 3 (secondLower b.toNat) (secondUpper b.toNat) (b.toNat - 0xf0))) ∨
    first b = none := by
  have hcases : b.toNat ≤ 0x7f ∨ (0xc2 ≤ b.toNat ∧ b.toNat ≤ 0xdf) ∨
      (0xe0 ≤ b.toNat ∧ b.toNat ≤ 0xef) ∨ (0xf0 ≤ b.toNat ∧ b.toNat ≤ 0xf4) ∨
      (0x80 ≤ b.toNat ∧ b.toNat ≤ 0xc1 ∨ 0xf5 ≤ b.toNat) := by omega
  rcases hcases with h | h | h | h | h
  · exact .inl ⟨h, by simpa using first_of_ascii h⟩
  · exact .inr (.inl ⟨h, by simpa using first_of_two h.1 h.2⟩)
  · exact .inr (.inr (.inl ⟨h, by simpa using first_of_three h.1 h.2⟩))
  · exact .inr (.inr (.inr (.inl ⟨h, by simpa using first_of_four h.1 h.2⟩)))
  · refine .inr (.inr (.inr (.inr ?_)))
    simp only [first, UInt8.le_iff_toNat_le, UInt8.lt_iff_toNat_lt, ← UInt8.toNat_inj,
      UInt8.reduceToNat]
    grind

/-- What completes the state after a first byte is the rest of a character. -/
theorem encodeChar_of_completes {b : UInt8} {state : State} {tail : List UInt8} {c : Char}
    (hfirst : first b = some (.inr state)) (h : state.Completes tail c) :
    String.utf8EncodeChar c = b :: tail := by
  -- The state owes one, two or three bytes, and what completes it has as many.
  rcases first_cases b with ⟨-, hb⟩ | ⟨hrange, hb⟩ | ⟨hrange, hb⟩ | ⟨hrange, hb⟩ | hb
  · cases hb.symm.trans hfirst
  · cases hb.symm.trans hfirst
    cases h with
    | last _ hlower hupper => simpa using encodeChar_two hrange ⟨hlower, hupper⟩
    | further hmore => omega
  · cases hb.symm.trans hfirst
    cases h with
    | last hmore => omega
    | further _ hlower hupper h =>
        cases h with
        | last _ hlower' hupper' =>
            simpa using encodeChar_three hrange ⟨hlower, hupper⟩ ⟨hlower', hupper'⟩
        | further hmore => omega
  · cases hb.symm.trans hfirst
    cases h with
    | last hmore => omega
    | further _ hlower hupper h =>
        cases h with
        | last hmore => omega
        | further _ hlower' hupper' h =>
            cases h with
            | last _ hlower'' hupper'' =>
                simpa using encodeChar_four hrange ⟨hlower, hupper⟩ ⟨hlower', hupper'⟩
                  ⟨hlower'', hupper''⟩
            | further hmore => omega
  · cases hb.symm.trans hfirst

/-- A first byte that is a character is all of it. -/
theorem encodeChar_of_first {b : UInt8} {c : Char} (h : first b = some (.inl c)) :
    String.utf8EncodeChar c = [b] := by
  rcases first_cases b with ⟨hrange, hb⟩ | ⟨-, hb⟩ | ⟨-, hb⟩ | ⟨-, hb⟩ | hb
  · cases hb.symm.trans h
    simpa using encodeChar_one hrange
  all_goals cases hb.symm.trans h

/-- After a first byte that is no character a byte can follow, and only one that begins none. -/
theorem exists_inside_of_first {b : UInt8} {state : State} (h : first b = some (.inr state)) :
    ∃ owed bits lower upper, (0x80 ≤ lower ∧ lower ≤ upper ∧ upper ≤ 0xbf) ∧
      state = .inside owed lower upper bits := by
  have hsecond : ∀ m, (0x80 : UInt8) ≤ secondLower m ∧ secondLower m ≤ secondUpper m ∧
      secondUpper m ≤ 0xbf := by
    intro m
    unfold secondLower secondUpper
    grind
  rcases first_cases b with ⟨-, hb⟩ | ⟨-, hb⟩ | ⟨-, hb⟩ | ⟨-, hb⟩ | hb
  · cases hb.symm.trans h
  · cases hb.symm.trans h
    exact ⟨_, _, _, _, ⟨by decide, by decide, by decide⟩, rfl⟩
  · cases hb.symm.trans h
    exact ⟨_, _, _, _, hsecond _, rfl⟩
  · cases hb.symm.trans h
    exact ⟨_, _, _, _, hsecond _, rfl⟩
  · cases hb.symm.trans h

/-! ## Further bytes -/

variable {owed bits : Nat} {lower upper b : UInt8}

/-- A state with a byte that can follow can be completed. -/
theorem exists_completes (h : lower ≤ upper) :
    ∃ tail c, (State.inside owed lower upper bits).Completes tail c := by
  induction owed generalizing lower upper bits with
  | zero => exact ⟨_, _, .last (Nat.zero_le 1) (UInt8.le_refl lower) h⟩
  | succ owed ih =>
      by_cases hlast : owed + 1 ≤ 1
      · exact ⟨_, _, .last hlast (UInt8.le_refl lower) h⟩
      · obtain ⟨tail, c, hmore⟩ := ih (by decide : (0x80 : UInt8) ≤ 0xbf)
        exact ⟨_, _, .further hlast (UInt8.le_refl lower) h hmore⟩

/-- What completes a state begins with a byte that can follow. -/
theorem exists_cons_of_completes {tail : List UInt8} {c : Char}
    (h : (State.inside owed lower upper bits).Completes tail c) :
    ∃ b rest, tail = b :: rest ∧ lower ≤ b ∧ b ≤ upper := by
  cases h with
  | last _ hlower hupper => exact ⟨_, _, rfl, hlower, hupper⟩
  | further _ hlower hupper _ => exact ⟨_, _, rfl, hlower, hupper⟩

/-- Bytes that do not begin with one that can follow are stuck at once. -/
theorem stuck_nil {bytes : List UInt8} (h : lower ≤ upper)
    (hbytes : ∀ b rest, bytes = b :: rest → ¬ (lower ≤ b ∧ b ≤ upper)) :
    Stuck (.inside owed lower upper bits) [] bytes := by
  have hnone : ∀ tail c, (State.inside owed lower upper bits).Completes tail c →
      ∀ more, more <+: tail → more <+: bytes → more = [] := by
    rintro tail c htail more hmore ⟨after, hafter⟩
    cases more with
    | nil => rfl
    | cons d more =>
        obtain ⟨b, rest, rfl, hrange⟩ := exists_cons_of_completes htail
        obtain ⟨rfl, -⟩ := List.cons_prefix_cons.1 hmore
        exact absurd hrange (hbytes d _ hafter.symm)
  refine ⟨?_, fun tail c htail hprefix => ?_, fun tail c more htail hmore hprefix => ?_⟩
  · obtain ⟨tail, c, htail⟩ := exists_completes h
    obtain ⟨b, rest, rfl, -⟩ := exists_cons_of_completes htail
    exact ⟨b :: rest, c, nofun, htail⟩
  · obtain ⟨b, rest, rfl, -⟩ := exists_cons_of_completes htail
    cases hnone _ c htail _ List.prefix_rfl hprefix
  · exact Nat.le_of_eq (congrArg List.length (hnone tail c htail more hmore hprefix))

/-- What completes a state that owes more bytes goes on behind its first. -/
theorem completes_of_cons {tail : List UInt8} {c : Char} (howed : ¬ owed ≤ 1)
    (h : (State.inside owed lower upper bits).Completes (b :: tail) c) :
    (State.inside (owed - 1) 0x80 0xbf (bits * 64 + b.toNat % 64)).Completes tail c := by
  cases h with
  | last hlast => exact absurd hlast howed
  | further _ _ _ h => exact h

/-- A byte that can follow leaves bytes that are stuck where they were. -/
theorem Stuck.cons {seen bytes : List UInt8} (howed : ¬ owed ≤ 1) (hlower : lower ≤ b)
    (hupper : b ≤ upper)
    (h : Stuck (.inside (owed - 1) 0x80 0xbf (bits * 64 + b.toNat % 64)) seen bytes) :
    Stuck (.inside owed lower upper bits) (b :: seen) (b :: bytes) := by
  obtain ⟨⟨more, c, hne, hmore⟩, hincomplete, hlongest⟩ := h
  refine ⟨⟨more, c, hne, .further howed hlower hupper hmore⟩,
    fun tail d htail hprefix => ?_, fun tail d further htail hfurther hprefix => ?_⟩
  · obtain ⟨b', rest, rfl, -⟩ := exists_cons_of_completes htail
    obtain ⟨rfl, hrest⟩ := List.cons_prefix_cons.1 hprefix
    exact hincomplete rest d (completes_of_cons howed htail) hrest
  · cases further with
    | nil => exact Nat.zero_le _
    | cons b' further =>
        obtain ⟨b'', rest, rfl, -⟩ := exists_cons_of_completes htail
        obtain ⟨rfl, hrest⟩ := List.cons_prefix_cons.1 hfurther
        obtain ⟨rfl, hbytes⟩ := List.cons_prefix_cons.1 hprefix
        exact Nat.succ_le_succ
          (hlongest rest d further (completes_of_cons howed htail) hrest hbytes)

/-- A byte that cannot follow ends an invalid part and is read again. -/
theorem partsFrom_of_not_range (h : ¬ (lower ≤ b ∧ b ≤ upper)) (rest : List UInt8) :
    partsFrom (.inside owed lower upper bits) (b :: rest) = none :: parts (b :: rest) := by
  rw [partsFrom, step, if_neg h]
  rfl

/-- Inside a character the decoder completes it, or it is stuck and begins again. -/
theorem partsFrom_inside_cases (bytes : List UInt8) (owed bits : Nat) {lower upper : UInt8}
    (h : lower ≤ upper) :
    (∃ tail c rest, (State.inside owed lower upper bits).Completes tail c ∧
      bytes = tail ++ rest ∧
      partsFrom (.inside owed lower upper bits) bytes = some c :: parts rest) ∨
    ∃ seen rest, Stuck (.inside owed lower upper bits) seen bytes ∧ bytes = seen ++ rest ∧
      partsFrom (.inside owed lower upper bits) bytes = none :: parts rest := by
  induction bytes generalizing owed lower upper bits with
  | nil => exact .inr ⟨[], [], stuck_nil h nofun, rfl, rfl⟩
  | cons b bytes ih =>
      by_cases hrange : lower ≤ b ∧ b ≤ upper
      · by_cases howed : owed ≤ 1
        · refine .inl ⟨[b], _, bytes, .last howed hrange.1 hrange.2, rfl, ?_⟩
          rw [partsFrom, step, if_pos hrange, if_pos howed]
          rfl
        · have hparts : partsFrom (.inside owed lower upper bits) (b :: bytes) =
              partsFrom (.inside (owed - 1) 0x80 0xbf (bits * 64 + b.toNat % 64)) bytes := by
            rw [partsFrom, step, if_pos hrange, if_neg howed]
            rfl
          rw [hparts]
          have hfurther : (0x80 : UInt8) ≤ 0xbf := by decide
          rcases ih (owed - 1) (bits * 64 + b.toNat % 64) hfurther with
            ⟨tail, c, rest, htail, rfl, heq⟩ | ⟨seen, rest, hstuck, rfl, heq⟩
          · exact .inl ⟨b :: tail, c, rest, .further howed hrange.1 hrange.2 htail, rfl, heq⟩
          · exact .inr ⟨b :: seen, rest, hstuck.cons howed hrange.1 hrange.2, rfl, heq⟩
      · refine .inr ⟨[], b :: bytes, stuck_nil h ?_, rfl, ?_⟩
        · rintro d rest ⟨⟩
          exact hrange
        · exact partsFrom_of_not_range hrange bytes

/-- After a first byte the decoder is in the state that it leads to. -/
theorem parts_of_first {state : State} (h : first b = some (.inr state)) (rest : List UInt8) :
    parts (b :: rest) = partsFrom state rest := by
  simp [parts, partsFrom, step, readFirst, h]

/-- A byte that begins nothing is an invalid part. -/
theorem parts_of_none (h : first b = none) (rest : List UInt8) :
    parts (b :: rest) = none :: parts rest := by
  simp [parts, partsFrom, step, readFirst, h]

/-- The bytes of a character are one part. -/
theorem parts_encodeChar (c : Char) (rest : List UInt8) :
    parts (String.utf8EncodeChar c ++ rest) = some c :: parts rest :=
  partsFrom_encodeChar c rest

/-- The first byte of a character begins something. -/
theorem first_ne_none {c : Char} {tail : List UInt8} (h : String.utf8EncodeChar c = b :: tail) :
    first b ≠ none := by
  intro hnone
  have hparts := parts_encodeChar c []
  rw [h, List.append_nil, parts_of_none hnone] at hparts
  cases hparts

/-- What completes the state after a first byte is what goes on from the byte to a character. -/
theorem encodeChar_iff_completes {state : State} (hfirst : first b = some (.inr state))
    {tail : List UInt8} {c : Char} :
    String.utf8EncodeChar c = b :: tail ↔ state.Completes tail c := by
  refine ⟨fun h => ?_, encodeChar_of_completes hfirst⟩
  have hparts := parts_encodeChar c []
  rw [h, List.append_nil, parts_of_first hfirst] at hparts
  obtain ⟨owed, bits, lower, upper, ⟨-, hle, -⟩, rfl⟩ := exists_inside_of_first hfirst
  rcases partsFrom_inside_cases tail owed bits hle with
    ⟨tail', d, rest, hcompletes, rfl, heq⟩ | ⟨seen, rest, -, -, heq⟩
  · obtain ⟨hchar, -⟩ := List.cons.inj (heq.symm.trans hparts)
    cases hchar
    -- Nothing is left over, since both are the bytes of one character.
    have hsame := h.symm.trans (encodeChar_of_completes hfirst hcompletes)
    rw [List.cons_inj_right, List.append_right_eq_self] at hsame
    rwa [hsame, List.append_nil]
  · cases heq.symm.trans hparts

/-! ## Parts -/

/-- A character that begins bytes has the same first byte. -/
theorem exists_cons_of_encodeChar_prefix {c : Char} {bytes : List UInt8}
    (h : String.utf8EncodeChar c <+: b :: bytes) :
    ∃ tail, String.utf8EncodeChar c = b :: tail ∧ tail <+: bytes := by
  cases hc : String.utf8EncodeChar c with
  | nil => exact absurd hc String.utf8EncodeChar_ne_nil
  | cons d tail =>
      rw [hc] at h
      obtain ⟨rfl, htail⟩ := List.cons_prefix_cons.1 h
      exact ⟨tail, rfl, htail⟩

/-- A byte that begins nothing is a maximal invalid part. -/
theorem maximalInvalid_of_none (h : first b = none) (rest : List UInt8) :
    MaximalInvalid [b] rest := by
  have hnot : ∀ c tail, String.utf8EncodeChar c ≠ b :: tail := fun c tail hc => first_ne_none hc h
  refine ⟨nofun, fun c hprefix => ?_, .inl rfl, fun more hprefix hbegun => ?_⟩
  · obtain ⟨tail, hc, -⟩ := exists_cons_of_encodeChar_prefix hprefix
    exact hnot c tail hc
  · cases more with
    | nil => exact Nat.zero_le _
    | cons d more =>
        obtain ⟨rfl, -⟩ := List.cons_prefix_cons.1 hprefix
        obtain ⟨c, after, -, hc⟩ := hbegun
        exact absurd hc (hnot c _)

/-- A first byte with the bytes that go along with it is a maximal invalid part. -/
theorem maximalInvalid_of_stuck {state : State} (hfirst : first b = some (.inr state))
    {seen rest : List UInt8} (h : Stuck state seen (seen ++ rest)) :
    MaximalInvalid (b :: seen) rest := by
  obtain ⟨⟨more, c, hne, hmore⟩, hincomplete, hlongest⟩ := h
  refine ⟨nofun, fun c hprefix => ?_, .inr ⟨c, more, hne, encodeChar_of_completes hfirst hmore⟩,
    fun further hprefix hbegun => ?_⟩
  · obtain ⟨tail, hc, htail⟩ := exists_cons_of_encodeChar_prefix hprefix
    exact hincomplete tail c ((encodeChar_iff_completes hfirst).1 hc) htail
  · cases further with
    | nil => exact Nat.zero_le _
    | cons d further =>
        obtain ⟨rfl, hfurther⟩ := List.cons_prefix_cons.1 hprefix
        obtain ⟨c, after, -, hc⟩ := hbegun
        exact Nat.succ_le_succ (hlongest _ c further ((encodeChar_iff_completes hfirst).1 hc)
          (List.prefix_append further after) hfurther)

/-- The decoder begins with a character or with a maximal invalid part. -/
theorem parts_cons (b : UInt8) (bytes : List UInt8) :
    (∃ c rest, b :: bytes = String.utf8EncodeChar c ++ rest ∧
      parts (b :: bytes) = some c :: parts rest) ∨
    ∃ bad rest, b :: bytes = bad ++ rest ∧ MaximalInvalid bad rest ∧
      parts (b :: bytes) = none :: parts rest := by
  cases hfirst : first b with
  | none =>
      exact .inr ⟨[b], bytes, rfl, maximalInvalid_of_none hfirst bytes,
        parts_of_none hfirst bytes⟩
  | some begun =>
      cases begun with
      | inl c =>
          have hc := encodeChar_of_first hfirst
          refine .inl ⟨c, bytes, by rw [hc]; rfl, ?_⟩
          rw [← parts_encodeChar, hc]
          rfl
      | inr state =>
          obtain ⟨owed, bits, lower, upper, ⟨-, hle, -⟩, rfl⟩ := exists_inside_of_first hfirst
          rw [parts_of_first hfirst]
          rcases partsFrom_inside_cases bytes owed bits hle with
            ⟨tail, c, rest, htail, rfl, heq⟩ | ⟨seen, rest, hstuck, rfl, heq⟩
          · refine .inl ⟨c, rest, ?_, heq⟩
            rw [encodeChar_of_completes hfirst htail]
            rfl
          · exact .inr ⟨b :: seen, rest, rfl, maximalInvalid_of_stuck hfirst hstuck, heq⟩

/-- The bytes fall into the parts that the decoder finds. -/
theorem split_parts (bytes : List UInt8) : Split bytes (parts bytes) := by
  induction hlength : bytes.length using Nat.strongRecOn generalizing bytes with
  | ind length ih =>
    cases bytes with
    | nil => exact .nil
    | cons b bytes =>
        have hshorter : ∀ front rest, front ≠ [] → b :: bytes = front ++ rest →
            rest.length < length := by
          intro front rest hne heq
          have hpos := List.length_pos_iff.2 hne
          rw [← hlength, heq, List.length_append]
          omega
        rcases parts_cons b bytes with ⟨c, rest, heq, hparts⟩ | ⟨bad, rest, heq, hbad, hparts⟩
        · have hsmaller := hshorter _ rest String.utf8EncodeChar_ne_nil heq
          rw [hparts, heq]
          exact .char (ih rest.length hsmaller rest rfl)
        · have hsmaller := hshorter bad rest hbad.ne_nil heq
          rw [hparts, heq]
          exact .invalid hbad (ih rest.length hsmaller rest rfl)

variable {bytes bad rest other otherRest : List UInt8}

/-- No part of the bytes that could be invalid is longer than the maximal one. -/
theorem MaximalInvalid.length_le (h : MaximalInvalid bad rest)
    (hother : MaximalInvalid other otherRest) (heq : bad ++ rest = other ++ otherRest) :
    bad.length ≤ other.length := by
  rcases h.begun with hone | hbegun
  · rw [hone]
    exact List.length_pos_iff.2 hother.ne_nil
  · exact hother.longest bad (heq ▸ List.prefix_append bad rest) hbegun

/-- There is one maximal invalid part that bytes can begin with. -/
theorem MaximalInvalid.unique (h : MaximalInvalid bad rest)
    (hother : MaximalInvalid other otherRest) (heq : bad ++ rest = other ++ otherRest) :
    bad = other ∧ rest = otherRest :=
  List.append_inj heq (Nat.le_antisymm (h.length_le hother heq) (hother.length_le h heq.symm))

/-- A maximal invalid part is one part for the decoder. -/
theorem parts_of_maximalInvalid (h : MaximalInvalid bad rest) :
    parts (bad ++ rest) = none :: parts rest := by
  cases hbytes : bad ++ rest with
  | nil => exact absurd (List.append_eq_nil_iff.1 hbytes).1 h.ne_nil
  | cons b bytes =>
      rcases parts_cons b bytes with ⟨c, after, heq, -⟩ | ⟨other, after, heq, hother, hparts⟩
      · exact absurd ⟨after, (hbytes.trans heq).symm⟩ (h.no_char c)
      · rw [hparts, (h.unique hother (hbytes.trans heq)).2]

/-- The bytes fall into parts in one way, and the decoder finds it. -/
theorem split_iff {found : List Part} : Split bytes found ↔ found = parts bytes := by
  refine ⟨fun h => ?_, fun h => h ▸ split_parts bytes⟩
  induction h with
  | nil => rfl
  | char _ ih => rw [parts_encodeChar, ih]
  | invalid hbad _ ih => rw [parts_of_maximalInvalid hbad, ih]

/-! ## Texts -/

/-- The text is that of the bytes with each maximal invalid part replaced by U+FFFD. -/
def IsLossy (bytes : List UInt8) (text : String) : Prop :=
  ∃ found, Split bytes found ∧ text = String.ofList (found.map fun part => part.getD '\uFFFD')

/-- Bytes have the text that they are decoded to, and no other. -/
theorem isLossy_iff {text : String} : IsLossy bytes text ↔ text = decodeLossy bytes := by
  simp only [IsLossy, split_iff, exists_eq_left, decodeLossy]

/-- A text is decoded from its bytes without loss. -/
theorem decodeLossy_encode (text : String) : decodeLossy (encode text) = text := by
  rw [decodeLossy, parts_encode, List.map_map]
  exact (congrArg String.ofList (List.map_id text.toList)).trans String.ofList_toList

/-! ## Texts among invalid bytes -/

/-- Inside a character, a byte can follow, and only one that begins none. -/
def State.Bounded : State → Prop
  | .start => True
  | .inside _ lower upper _ => 0x80 ≤ lower ∧ lower ≤ upper ∧ upper ≤ 0xbf

/-- The first byte of a character is none that continues one. -/
theorem not_continues_of_encodeChar {c : Char} {tail : List UInt8}
    (h : String.utf8EncodeChar c = b :: tail) : ¬ (0x80 ≤ b ∧ b ≤ 0xbf) := by
  simp only [UInt8.le_iff_toNat_le, UInt8.reduceToNat]
  rcases first_cases b with ⟨hrange, -⟩ | ⟨hrange, -⟩ | ⟨hrange, -⟩ | ⟨hrange, -⟩ | hb
  · omega
  · omega
  · omega
  · omega
  · exact absurd hb (first_ne_none h)

/-- A byte between characters leads to a bounded state. -/
theorem bounded_readFirst (b : UInt8) : (readFirst b).2.Bounded := by
  unfold readFirst
  split
  · trivial
  · rename_i hfirst
    obtain ⟨owed, bits, lower, upper, hbounds, rfl⟩ := exists_inside_of_first hfirst
    exact hbounds
  · trivial

/-- A byte leads from a bounded state to a bounded state. -/
theorem State.Bounded.step {state : State} (h : state.Bounded) (b : UInt8) :
    (Utf8.step state b).2.Bounded := by
  cases state with
  | start => exact bounded_readFirst b
  | inside owed lower upper bits =>
      by_cases hrange : lower ≤ b ∧ b ≤ upper
      · by_cases howed : owed ≤ 1
        · simp [Utf8.step, hrange, howed, Bounded]
        · simp [Utf8.step, hrange, howed, Bounded]
      · simp only [Utf8.step, if_neg hrange]
        exact bounded_readFirst b

/-- Where a byte that continues nothing stands, the decoder begins again. -/
theorem partsFrom_append {state : State} (h : state.Bounded) (hb : ¬ (0x80 ≤ b ∧ b ≤ 0xbf))
    (before rest : List UInt8) :
    partsFrom state (before ++ b :: rest) = partsFrom state before ++ parts (b :: rest) := by
  induction before generalizing state with
  | nil =>
      cases state with
      | start => rfl
      | inside owed lower upper bits =>
          obtain ⟨hlower, -, hupper⟩ := h
          have hnot : ¬ (lower ≤ b ∧ b ≤ upper) := fun hrange =>
            hb ⟨UInt8.le_trans hlower hrange.1, UInt8.le_trans hrange.2 hupper⟩
          rw [List.nil_append, partsFrom_of_not_range hnot]
          rfl
  | cons d before ih =>
      rw [List.cons_append, partsFrom, partsFrom]
      simp only [ih (h.step d), List.append_assoc]

/-- The first character of a text begins its bytes. -/
theorem exists_encode_eq_cons {text : String} (h : text ≠ "") :
    ∃ b rest, encode text = b :: rest ∧ ¬ (0x80 ≤ b ∧ b ≤ 0xbf) := by
  cases htext : text.toList with
  | nil => exact absurd (String.toList_eq_nil_iff.1 htext) h
  | cons c more =>
      cases hc : String.utf8EncodeChar c with
      | nil => exact absurd hc String.utf8EncodeChar_ne_nil
      | cons b tail =>
          refine ⟨b, tail ++ more.flatMap String.utf8EncodeChar, ?_, not_continues_of_encodeChar hc⟩
          rw [encode, htext, List.flatMap_cons, hc, List.cons_append]

/-- A text is kept among any bytes, and does not change what these are decoded to. -/
theorem decodeLossy_append (before : List UInt8) {text : String} (h : text ≠ "")
    (after : List UInt8) :
    decodeLossy (before ++ encode text ++ after) =
      decodeLossy before ++ text ++ decodeLossy after := by
  have hparts : parts (before ++ (encode text ++ after)) =
      parts before ++ parts (encode text ++ after) := by
    obtain ⟨b, rest, heq, hb⟩ := exists_encode_eq_cons h
    rw [heq]
    have hstart : State.start.Bounded := trivial
    exact partsFrom_append hstart hb before (rest ++ after)
  rw [List.append_assoc, decodeLossy, hparts, parts_encode_append, List.map_append,
    List.map_append, List.map_map, String.ofList_append, String.ofList_append, String.append_assoc]
  refine congrArg (decodeLossy before ++ ·) (congrArg (· ++ decodeLossy after) ?_)
  exact (congrArg String.ofList (List.map_id text.toList)).trans String.ofList_toList

/-! ## The zero byte -/

/-- Only the character of value zero has a zero byte. -/
theorem eq_of_zero_mem_encodeChar {c : Char} (h : 0 ∈ String.utf8EncodeChar c) : c = '\x00' := by
  have hzero : ∀ n : Nat, (0 : UInt8) = .ofNat n ↔ n % 256 = 0 := fun n => by
    rw [← UInt8.toNat_inj, UInt8.toNat_ofNat', eq_comm]
    rfl
  have hval : c.val.toNat = 0 → c = '\x00' := fun hc => Char.ext (UInt32.toNat_inj.1 hc)
  unfold String.utf8EncodeChar at h
  generalize c.val.toNat = v at h hval
  dsimp only at h
  split_ifs at h <;> simp only [List.mem_cons, List.not_mem_nil, or_false, hzero] at h
  all_goals exact hval (by omega)

/-- The bytes of a text have a zero byte only if the text has the character of value zero. -/
theorem zero_notMem_encode {text : String} (h : '\x00' ∉ text.toList) : 0 ∉ encode text := by
  intro hzero
  obtain ⟨c, hc, hmem⟩ := List.mem_flatMap.1 hzero
  exact h (eq_of_zero_mem_encodeChar hmem ▸ hc)

end CheckedExecution.Utf8
