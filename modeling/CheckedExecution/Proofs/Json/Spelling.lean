import CheckedExecution.Proofs.Json.Numeral
import Mathlib.Data.List.Basic

/-!
# Texts and their tokens

A text spells tokens with any blanks between them (`Spells`). A string may be spelled with escapes,
and a number ends where no number goes on. The machine reads exactly the tokens that are spelled
(`tokens?_eq_some_iff`). What may follow each of its states is told by `LexState.Rest`, and one step
of the machine takes one character off the front of that (`rest_cons_iff`).
-/

namespace CheckedExecution.Json

/-! ## Spellings -/

/-- The number that hexadecimal digits write behind those of a number. -/
def hexValue? (code : Nat) : List Char → Option Nat
  | [] => some code
  | c :: rest => (hexDigit? c).bind fun digit => hexValue? (code * 16 + digit) rest

/-- The spellings of a string between its quotes. -/
inductive SpelledText : Text → List Char → Prop where
  | nil : SpelledText [] []
  /-- A character stands for itself. -/
  | plain {c : Char} {text : Text} {body : List Char} :
      c ≠ '"' → c ≠ '\\' → 0x20 ≤ c.toNat → SpelledText text body →
      SpelledText (.char c :: text) (c :: body)
  /-- A short escape. -/
  | short {letter c : Char} {text : Text} {body : List Char} :
      shortEscape? letter = some c → SpelledText text body →
      SpelledText (.char c :: text) ('\\' :: letter :: body)
  /-- The escape of a code unit. -/
  | escaped {digits : List Char} {code : Nat} {text : Text} {body : List Char} :
      digits.length = 4 → hexValue? 0 digits = some code → SpelledText text body →
      SpelledText (.escaped code :: text) ('\\' :: 'u' :: digits ++ body)

/-- The spellings of a token. -/
inductive Spelled : Token → List Char → Prop where
  | mark {c : Char} {token : Token} : punctuation? c = some token → Spelled token [c]
  | null : Spelled .null ['n', 'u', 'l', 'l']
  | yes : Spelled (.truth true) ['t', 'r', 'u', 'e']
  | no : Spelled (.truth false) ['f', 'a', 'l', 's', 'e']
  | number {text : List Char} : IsNumber text → Spelled (.number text) text
  | string {text : Text} {body : List Char} :
      SpelledText text body → Spelled (.string text) ('"' :: body ++ ['"'])

/-- The token is over where the rest begins: a number does not go on into it. -/
def Token.EndsBefore : Token → List Char → Prop
  | .number text, c :: _ => ∀ more, ¬ IsNumber (text ++ c :: more)
  | _, _ => True

/-- The text spells the tokens, with any blanks between them. -/
inductive Spells : List Char → List Token → Prop where
  | nil : Spells [] []
  | blank {c : Char} {text : List Char} {tokens : List Token} :
      isBlank c = true → Spells text tokens → Spells (c :: text) tokens
  | token {token : Token} {spelling rest : List Char} {tokens : List Token} :
      Spelled token spelling → token.EndsBefore rest → Spells rest tokens →
      Spells (spelling ++ rest) (token :: tokens)

/-! ## The states of the machine -/

/-- What follows inside a string. -/
def StringRest (seen : Text) (text : List Char) (tokens : List Token) : Prop :=
  ∃ units body rest more, SpelledText units body ∧ Spells rest more ∧ text = body ++ '"' :: rest ∧
    tokens = .string (seen.reverse ++ units) :: more

/-- What follows inside the escape of a code unit. -/
def HexRest (seen : Text) (owed code : Nat) (text : List Char) (tokens : List Token) : Prop :=
  ∃ digits rest unit, digits.length = owed ∧ hexValue? code digits = some unit ∧
    StringRest (.escaped unit :: seen) rest tokens ∧ text = digits ++ rest

/-- What may follow a state, with the tokens that it spells together with what has been read. -/
def LexState.Rest : LexState → List Char → List Token → Prop
  | between, text, tokens => Spells text tokens
  | word letters token, text, tokens =>
      ∃ rest more, letters ≠ [] ∧ Spells rest more ∧ text = letters ++ rest ∧
        tokens = token :: more
  | number state seen, text, tokens =>
      ∃ digits rest more, state.Rest digits ∧ Spells rest more ∧
        (∀ c tail, rest = c :: tail → ∀ later, ¬ state.Rest (digits ++ c :: later)) ∧
        text = digits ++ rest ∧ tokens = .number (seen.reverse ++ digits) :: more
  | string seen, text, tokens => StringRest seen text tokens
  | escape seen, text, tokens =>
      ∃ letter rest, text = letter :: rest ∧
        ((∃ c, shortEscape? letter = some c ∧ StringRest (.char c :: seen) rest tokens) ∨
          letter = 'u' ∧ HexRest seen 4 0 rest tokens)
  | hex seen owed code, text, tokens => HexRest seen (max owed 1) code text tokens

/-- What a state has become after a character, and what follows then. -/
def LexState.RestAfter (state : LexState) (c : Char) (text : List Char) (tokens : List Token) :
    Prop :=
  ∃ out following more, state.next? c = some (out, following) ∧ following.Rest text more ∧
    tokens = out ++ more

/-! ## Between tokens -/

/-- Punctuation is neither blank nor a digit, and its token is over with it. -/
theorem spec_of_punctuation {c : Char} {token : Token} (h : punctuation? c = some token) :
    isBlank c = false ∧ c.isDigit = false ∧ ∀ rest, token.EndsBefore rest := by
  unfold punctuation? at h
  split at h
  case h_7 => cases h
  all_goals
    cases h
    exact ⟨rfl, rfl, fun _ => trivial⟩

/-- A digit begins a number, which is over at once if the digit is a zero. -/
theorem begin?_of_isDigit {c : Char} (h : c.isDigit = true) :
    begin? c = some ([], .number (if c = '0' then .zero else .integer) [c]) := by
  have hne : ∀ d : Char, d.isDigit = false → c ≠ d := by
    rintro d hd rfl
    rw [h] at hd
    cases hd
  have hmark : punctuation? c = none := by
    rw [Option.eq_none_iff_forall_ne_some]
    intro token htoken
    rw [(spec_of_punctuation htoken).2.1] at h
    cases h
  by_cases hzero : c = '0'
  · subst hzero
    rfl
  · simp [begin?, isBlank, hmark, hne, h, hzero]

/-- Numbers are begun by their first character. -/
theorem exists_begin?_of_isNumber {c : Char} {text : List Char} (h : IsNumber (c :: text)) :
    ∃ state, begin? c = some ([], .number state [c]) ∧ state.Rest text := by
  rcases h with ⟨rfl, hinteger⟩ | ⟨rfl, hfraction⟩ | ⟨hzero, hdigit, hrest⟩
  · exact ⟨.minus, rfl, hinteger⟩
  · exact ⟨.zero, rfl, hfraction⟩
  · exact ⟨.integer, by rw [begin?_of_isDigit hdigit, if_neg hzero], hrest⟩

/-- What a first character begins: nothing, a mark, a string, a number or a word. -/
theorem begin?_cases {c : Char} {out : List Token} {following : LexState}
    (h : begin? c = some (out, following)) :
    (isBlank c = true ∧ out = [] ∧ following = .between) ∨
    (∃ token, punctuation? c = some token ∧ out = [token] ∧ following = .between) ∨
    (c = '"' ∧ out = [] ∧ following = .string []) ∨
    (∃ state, (∀ text, state.Rest text → IsNumber (c :: text)) ∧ out = [] ∧
      following = .number state [c]) ∨
    ∃ letters token, Spelled token (c :: letters) ∧ (∀ rest, token.EndsBefore rest) ∧ out = [] ∧
      following = .word letters token := by
  unfold begin? at h
  split at h
  · rename_i hblank
    cases h
    exact .inl ⟨hblank, rfl, rfl⟩
  split at h
  · rename_i token htoken
    cases h
    exact .inr (.inl ⟨token, htoken, rfl, rfl⟩)
  split at h
  · rename_i hquote
    cases h
    exact .inr (.inr (.inl ⟨hquote, rfl, rfl⟩))
  split at h
  · rename_i hminus
    cases h
    exact .inr (.inr (.inr (.inl ⟨.minus, fun text hrest => .inl ⟨hminus, hrest⟩, rfl, rfl⟩)))
  split at h
  · rename_i hzero
    cases h
    exact .inr (.inr (.inr (.inl ⟨.zero, fun text hrest => .inr (.inl ⟨hzero, hrest⟩), rfl, rfl⟩)))
  split at h
  · rename_i hzero hdigit
    cases h
    exact .inr (.inr (.inr (.inl
      ⟨.integer, fun text hrest => .inr (.inr ⟨hzero, hdigit, hrest⟩), rfl, rfl⟩)))
  split at h
  · rename_i hletter
    cases h
    exact .inr (.inr (.inr (.inr
      ⟨['r', 'u', 'e'], .truth true, hletter ▸ .yes, fun _ => trivial, rfl, rfl⟩)))
  split at h
  · rename_i hletter
    cases h
    exact .inr (.inr (.inr (.inr
      ⟨['a', 'l', 's', 'e'], .truth false, hletter ▸ .no, fun _ => trivial, rfl, rfl⟩)))
  split at h
  · rename_i hletter
    cases h
    exact .inr (.inr (.inr (.inr
      ⟨['u', 'l', 'l'], .null, hletter ▸ .null, fun _ => trivial, rfl, rfl⟩)))
  · cases h

/-- A state that a first character begins a number with goes on to one. -/
theorem isNumber_of_begin? {c : Char} {state : NumberState} {seen text : List Char}
    (h : begin? c = some ([], .number state seen)) (hrest : state.Rest text) :
    IsNumber (c :: text) := by
  rcases begin?_cases h with ⟨-, -, hstate⟩ | ⟨_, -, hout, -⟩ | ⟨-, -, hstate⟩ |
    ⟨_, hnumber, -, hstate⟩ | ⟨_, _, -, -, -, hstate⟩
  case inr.inr.inr.inl =>
    cases hstate
    exact hnumber text hrest
  case inr.inl => cases hout
  all_goals cases hstate

/-- What is spelled goes on as its first character begins. -/
theorem restAfter_of_spells {c : Char} {text : List Char} {tokens : List Token}
    (h : Spells (c :: text) tokens) : LexState.between.RestAfter c text tokens := by
  generalize hwhole : c :: text = whole at h
  cases h with
  | nil => cases hwhole
  | blank hblank h =>
      cases hwhole
      exact ⟨[], .between, tokens, by simp [LexState.next?, begin?, hblank], h, rfl⟩
  | @token token spelling rest tokens hspelled hends h =>
      cases hspelled with
      | mark hmark =>
          cases hwhole
          have hbegin : begin? c = some ([token], .between) := by
            simp [begin?, hmark, (spec_of_punctuation hmark).1]
          exact ⟨[token], .between, tokens, hbegin, h, rfl⟩
      | null =>
          cases hwhole
          exact ⟨[], .word ['u', 'l', 'l'] .null, _, rfl, ⟨_, _, nofun, h, rfl, rfl⟩, rfl⟩
      | yes =>
          cases hwhole
          exact ⟨[], .word ['r', 'u', 'e'] (.truth true), _, rfl, ⟨_, _, nofun, h, rfl, rfl⟩, rfl⟩
      | no =>
          cases hwhole
          exact ⟨[], .word ['a', 'l', 's', 'e'] (.truth false), _, rfl,
            ⟨_, _, nofun, h, rfl, rfl⟩, rfl⟩
      | number hnumber =>
          cases spelling with
          | nil => cases hnumber
          | cons first digits =>
              cases hwhole
              obtain ⟨state, hbegin, hrest⟩ := exists_begin?_of_isNumber hnumber
              refine ⟨[], .number state [c], _, hbegin,
                ⟨digits, rest, tokens, hrest, h, ?_, rfl, rfl⟩, rfl⟩
              rintro d tail rfl later hlater
              exact hends later (isNumber_of_begin? hbegin hlater)
      | @string units body hbody =>
          cases hwhole
          exact ⟨[], .string [], _, rfl,
            ⟨units, body, rest, tokens, hbody, h, List.append_assoc body ['"'] rest, rfl⟩, rfl⟩

/-- What a first character begins is spelled with it. -/
theorem spells_of_restAfter {c : Char} {text : List Char} {tokens : List Token}
    (h : LexState.between.RestAfter c text tokens) : Spells (c :: text) tokens := by
  obtain ⟨out, following, more, hnext, hrest, rfl⟩ := h
  rcases begin?_cases hnext with ⟨hblank, rfl, rfl⟩ | ⟨token, hmark, rfl, rfl⟩ | ⟨rfl, rfl, rfl⟩ |
    ⟨state, hnumber, rfl, rfl⟩ | ⟨letters, token, hspelled, hends, rfl, rfl⟩
  · exact .blank hblank hrest
  · exact .token (.mark hmark) ((spec_of_punctuation hmark).2.2 text) hrest
  · obtain ⟨units, body, rest, later, hbody, hlater, rfl, rfl⟩ := hrest
    have hends : (Token.string units).EndsBefore rest := trivial
    have hspells := Spells.token (.string hbody) hends hlater
    rwa [List.append_assoc, List.singleton_append] at hspells
  · obtain ⟨digits, rest, later, hdigits, hlater, hends, rfl, rfl⟩ := hrest
    refine Spells.token (.number (hnumber digits hdigits)) ?_ hlater
    cases rest with
    | nil => trivial
    | cons d tail =>
        intro further hfurther
        obtain ⟨other, hbegin, hother⟩ := exists_begin?_of_isNumber hfurther
        cases hbegin.symm.trans hnext
        exact hends d tail rfl further hother
  · obtain ⟨rest, later, hne, hlater, rfl, rfl⟩ := hrest
    exact Spells.token hspelled (hends rest) hlater

/-! ## Inside a token -/

/-- A string that goes on behind a unit goes on with a spelling of the unit. -/
theorem stringRest_append {unit : StringUnit} (spelling : List Char)
    (hunit : ∀ {units body}, SpelledText units body →
      SpelledText (unit :: units) (spelling ++ body))
    {seen : Text} {text : List Char} {tokens : List Token}
    (h : StringRest (unit :: seen) text tokens) : StringRest seen (spelling ++ text) tokens := by
  obtain ⟨units, body, rest, more, hbody, hrest, rfl, rfl⟩ := h
  refine ⟨unit :: units, spelling ++ body, rest, more, hunit hbody, hrest, ?_, ?_⟩
  · rw [List.append_assoc]
  · rw [List.reverse_cons, List.append_assoc, List.singleton_append]

/-- A string goes on with the quote that ends it, with a character or with an escape. -/
theorem stringRest_cons_iff {seen : Text} {c : Char} {text : List Char} {tokens : List Token} :
    StringRest seen (c :: text) tokens ↔
      (c = '"' ∧ ∃ more, Spells text more ∧ tokens = .string seen.reverse :: more) ∨
      (c = '\\' ∧ (LexState.escape seen).Rest text tokens) ∨
      c ≠ '"' ∧ c ≠ '\\' ∧ 0x20 ≤ c.toNat ∧ StringRest (.char c :: seen) text tokens := by
  constructor
  · rintro ⟨units, body, rest, more, hbody, hrest, htext, rfl⟩
    -- The first unit has been seen once it is read.
    have hseen : ∀ (unit : StringUnit) (units : Text),
        Token.string (seen.reverse ++ unit :: units) :: more =
          .string ((unit :: seen).reverse ++ units) :: more := by
      intro unit units
      rw [List.reverse_cons, List.append_assoc, List.singleton_append]
    cases hbody with
    | nil =>
        cases htext
        exact .inl ⟨rfl, more, hrest, by rw [List.append_nil]⟩
    | plain hquote hslash hcontrol hbody =>
        cases htext
        exact .inr (.inr ⟨hquote, hslash, hcontrol, _, _, rest, more, hbody, hrest, rfl, hseen _ _⟩)
    | short hletter hbody =>
        cases htext
        exact .inr (.inl ⟨rfl, _, _, rfl, .inl ⟨_, hletter, _, _, rest, more, hbody, hrest, rfl,
          hseen _ _⟩⟩)
    | escaped hlength hcode hbody =>
        cases htext
        exact .inr (.inl ⟨rfl, 'u', _, rfl, .inr ⟨rfl, _, _, _, hlength, hcode,
          ⟨_, _, rest, more, hbody, hrest, rfl, hseen _ _⟩, List.append_assoc _ _ _⟩⟩)
  · rintro (⟨rfl, more, hmore, rfl⟩ | ⟨rfl, letter, rest, rfl, ⟨d, hletter, hrest⟩ |
      ⟨rfl, digits, rest, unit, hlength, hcode, hrest, rfl⟩⟩ | ⟨hquote, hslash, hcontrol, hrest⟩)
    · exact ⟨[], [], text, more, .nil, hmore, rfl, by rw [List.append_nil]⟩
    · exact stringRest_append ['\\', letter] (fun hbody => .short hletter hbody) hrest
    · exact stringRest_append ('\\' :: 'u' :: digits)
        (fun hbody => .escaped hlength hcode hbody) hrest
    · exact stringRest_append [c] (fun hbody => .plain hquote hslash hcontrol hbody) hrest

/-- The digits of a code unit go on with one, until none is owed. -/
theorem hexRest_cons_iff {seen : Text} {owed code : Nat} {c : Char} {text : List Char}
    {tokens : List Token} :
    HexRest seen (owed + 1) code (c :: text) tokens ↔
      ∃ digit, hexDigit? c = some digit ∧ HexRest seen owed (code * 16 + digit) text tokens := by
  constructor
  · rintro ⟨digits, rest, unit, hlength, hcode, hrest, htext⟩
    cases digits with
    | nil => cases hlength
    | cons d digits =>
        cases htext
        obtain ⟨digit, hdigit, hcode⟩ := Option.bind_eq_some_iff.1 hcode
        exact ⟨digit, hdigit, digits, rest, unit, Nat.succ.inj hlength, hcode, hrest, rfl⟩
  · rintro ⟨digit, hdigit, digits, rest, unit, hlength, hcode, hrest, rfl⟩
    refine ⟨c :: digits, rest, unit, congrArg Nat.succ hlength, ?_, hrest, rfl⟩
    rw [hexValue?, hdigit]
    exact hcode

/-- Where no digit is owed, the code unit has been read. -/
theorem hexRest_zero_iff {seen : Text} {code : Nat} {text : List Char} {tokens : List Token} :
    HexRest seen 0 code text tokens ↔ StringRest (.escaped code :: seen) text tokens := by
  constructor
  · rintro ⟨digits, rest, unit, hlength, hcode, hrest, rfl⟩
    obtain rfl := List.eq_nil_of_length_eq_zero hlength
    cases hcode
    exact hrest
  · intro h
    exact ⟨[], text, code, rfl, rfl, h, rfl⟩

/-- A word goes on with its next character. -/
theorem word_rest_cons_iff {letters : List Char} {token : Token} {c : Char} {text : List Char}
    {tokens : List Token} :
    (LexState.word letters token).Rest (c :: text) tokens ↔
      (LexState.word letters token).RestAfter c text tokens := by
  constructor
  · rintro ⟨rest, more, hne, hmore, htext, rfl⟩
    match letters with
    | [] => exact absurd rfl hne
    | [last] =>
        cases htext
        exact ⟨[token], .between, more, if_pos rfl, hmore, rfl⟩
    | expected :: next :: letters =>
        cases htext
        exact ⟨[], .word (next :: letters) token, token :: more, if_pos rfl,
          ⟨rest, more, nofun, hmore, rfl, rfl⟩, rfl⟩
  · rintro ⟨out, following, more, hnext, hrest, rfl⟩
    match letters with
    | [] => cases hnext
    | [last] =>
        obtain ⟨rfl, hstep⟩ := Option.ite_none_right_eq_some.1 hnext
        cases hstep
        exact ⟨text, more, nofun, hrest, rfl, rfl⟩
    | expected :: next :: letters =>
        obtain ⟨rfl, hstep⟩ := Option.ite_none_right_eq_some.1 hnext
        cases hstep
        obtain ⟨rest, later, -, hlater, rfl, rfl⟩ := hrest
        exact ⟨rest, later, nofun, hlater, rfl, rfl⟩

/-- A number goes on with a character that can continue it. -/
theorem number_rest_cons_iff_of_continues {state following : NumberState} {c : Char}
    (hnext : state.next? c = some following) {seen text : List Char} {tokens : List Token} :
    (LexState.number state seen).Rest (c :: text) tokens ↔
      (LexState.number following (c :: seen)).Rest text tokens := by
  have hstep : ∀ digits, state.Rest (c :: digits) ↔ following.Rest digits := by
    intro digits
    rw [NumberState.rest_cons_iff, hnext]
    exact ⟨fun ⟨_, h, hrest⟩ => Option.some.inj h ▸ hrest, fun hrest => ⟨_, rfl, hrest⟩⟩
  constructor
  · rintro ⟨digits, rest, more, hdigits, hmore, hends, htext, rfl⟩
    cases digits with
    | nil =>
        -- The number does not end here, since it goes on with the character.
        obtain ⟨later, hlater⟩ := following.exists_rest
        exact absurd ((hstep later).2 hlater) (hends c text htext.symm later)
    | cons d digits =>
        cases htext
        refine ⟨digits, rest, more, (hstep digits).1 hdigits, hmore, ?_, rfl, ?_⟩
        · intro d tail hrest later hlater
          exact hends d tail hrest later ((hstep _).2 hlater)
        · rw [List.reverse_cons, List.append_assoc, List.singleton_append]
  · rintro ⟨digits, rest, more, hdigits, hmore, hends, rfl, rfl⟩
    refine ⟨c :: digits, rest, more, (hstep digits).2 hdigits, hmore, ?_, rfl, ?_⟩
    · intro d tail hrest later hlater
      exact hends d tail hrest later ((hstep _).1 hlater)
    · rw [List.reverse_cons, List.append_assoc, List.singleton_append]

/-- A number that a character cannot continue is over before it. -/
theorem number_rest_cons_iff_of_ends {state : NumberState} {c : Char}
    (hnext : state.next? c = none) {seen text : List Char} {tokens : List Token} :
    (LexState.number state seen).Rest (c :: text) tokens ↔
      state.complete = true ∧
        ∃ more, Spells (c :: text) more ∧ tokens = .number seen.reverse :: more := by
  rw [NumberState.next?_eq_none_iff] at hnext
  rw [← NumberState.rest_nil_iff]
  constructor
  · rintro ⟨digits, rest, more, hdigits, hmore, hends, htext, rfl⟩
    cases digits with
    | nil =>
        cases htext
        exact ⟨hdigits, more, hmore, by rw [List.append_nil]⟩
    | cons d digits =>
        cases htext
        exact absurd hdigits (hnext digits)
  · rintro ⟨hcomplete, more, hmore, rfl⟩
    refine ⟨[], c :: text, more, hcomplete, hmore, ?_, rfl, by rw [List.append_nil]⟩
    rintro d tail ⟨⟩ later
    exact hnext later

/-- What may follow a state goes on as the state does with the first character. -/
theorem LexState.rest_cons_iff (state : LexState) (c : Char) (text : List Char)
    (tokens : List Token) : state.Rest (c :: text) tokens ↔ state.RestAfter c text tokens := by
  cases state with
  | between => exact ⟨restAfter_of_spells, spells_of_restAfter⟩
  | word letters token => exact word_rest_cons_iff
  | number state seen =>
      cases hnext : state.next? c with
      | some following =>
          rw [number_rest_cons_iff_of_continues hnext]
          simp [RestAfter, next?, hnext]
      | none =>
          rw [number_rest_cons_iff_of_ends hnext]
          constructor
          · rintro ⟨hcomplete, more, hmore, rfl⟩
            obtain ⟨out, following, later, hbegin, hlater, rfl⟩ := restAfter_of_spells hmore
            refine ⟨.number seen.reverse :: out, following, later, ?_, hlater, rfl⟩
            simp only [next?, hnext, hcomplete, if_true]
            exact congrArg _ hbegin
          · rintro ⟨out, following, later, hstep, hlater, rfl⟩
            simp only [next?, hnext, Option.ite_none_right_eq_some] at hstep
            obtain ⟨hcomplete, hstep⟩ := hstep
            obtain ⟨⟨out', following'⟩, hbegin, heq⟩ := Option.map_eq_some_iff.1 hstep
            cases heq
            exact ⟨hcomplete, _, spells_of_restAfter ⟨_, _, later, hbegin, hlater, rfl⟩, rfl⟩
  | string seen =>
      rw [Rest, stringRest_cons_iff]
      by_cases hquote : c = '"'
      · simp [RestAfter, next?, Rest, hquote]
      by_cases hslash : c = '\\'
      · simp [RestAfter, next?, Rest, hslash]
      by_cases hcontrol : c.toNat < 0x20
      · simp [RestAfter, next?, hquote, hslash, hcontrol, Nat.not_le.2 hcontrol]
      · simp [RestAfter, next?, Rest, hquote, hslash, hcontrol, Nat.not_lt.1 hcontrol]
  | escape seen =>
      by_cases hunit : c = 'u'
      · subst hunit
        simp [RestAfter, next?, Rest, shortEscape?]
      · cases hletter : shortEscape? c with
        | none => simp [RestAfter, next?, Rest, hunit, hletter]
        | some d => simp [RestAfter, next?, Rest, hunit, hletter]
  | hex seen owed code =>
      have hmax : max owed 1 = (max owed 1 - 1) + 1 := by omega
      rw [Rest, hmax, hexRest_cons_iff]
      cases hdigit : hexDigit? c with
      | none => simp [RestAfter, next?, hdigit]
      | some digit =>
          by_cases howed : owed ≤ 1
          · simp [RestAfter, next?, Rest, hdigit, howed, hexRest_zero_iff]
          · have hnot : max owed 1 - 1 = max (owed - 1) 1 := by omega
            simp [RestAfter, next?, Rest, hdigit, howed, hnot]

/-! ## The end of the text -/

/-- Every token takes a character. -/
theorem ne_nil_of_spelled {token : Token} {spelling : List Char} (h : Spelled token spelling) :
    spelling ≠ [] := by
  rintro rfl
  cases h with
  | number hnumber => cases hnumber

/-- The empty text spells no token. -/
theorem spells_nil_iff {tokens : List Token} : Spells [] tokens ↔ tokens = [] := by
  constructor
  · intro h
    generalize htext : [] = text at h
    cases h with
    | nil => rfl
    | blank => cases htext
    | token hspelled =>
        exact absurd (List.append_eq_nil_iff.1 htext.symm).1 (ne_nil_of_spelled hspelled)
  · rintro rfl
    exact .nil

/-- Nothing need follow a state exactly if the text may end there. -/
theorem LexState.rest_nil_iff (state : LexState) (tokens : List Token) :
    state.Rest [] tokens ↔ state.finish? = some tokens := by
  cases state with
  | between => simp [Rest, finish?, spells_nil_iff, eq_comm]
  | word letters token =>
      constructor
      · rintro ⟨rest, more, hne, -, htext, -⟩
        exact absurd (List.append_eq_nil_iff.1 htext.symm).1 hne
      · nofun
  | number state seen =>
    simp only [Rest, finish?, Option.ite_none_right_eq_some, ← NumberState.rest_nil_iff]
    constructor
    · rintro ⟨digits, rest, more, hdigits, hmore, hends, htext, rfl⟩
      obtain ⟨rfl, rfl⟩ := List.append_eq_nil_iff.1 htext.symm
      cases spells_nil_iff.1 hmore
      exact ⟨hdigits, by rw [List.append_nil]⟩
    · rintro ⟨hcomplete, heq⟩
      cases heq
      exact ⟨[], [], [], hcomplete, .nil, nofun, rfl, by rw [List.append_nil]⟩
  | string seen => simp [Rest, finish?, StringRest]
  | escape seen => simp [Rest, finish?]
  | hex seen owed code =>
      simp [Rest, finish?, HexRest, StringRest]

/-! ## Whole texts -/

/-- The machine reads, after the tokens so far, those that may follow its state. -/
theorem foldlM_lexStep_eq_some_iff (text : List Char) (before tokens : List Token)
    (begun : LexState) :
    (do
      let (seen, state) ← text.foldlM lexStep (before, begun)
      let last ← state.finish?
      return seen.reverse ++ last) = some tokens ↔
      ∃ more, begun.Rest text more ∧ before.reverse ++ more = tokens := by
  induction text generalizing before begun with
  | nil => simp [LexState.rest_nil_iff, Option.bind_eq_some_iff]
  | cons c text ih =>
      simp only [List.foldlM_cons, lexStep, LexState.rest_cons_iff, LexState.RestAfter]
      cases hnext : begun.next? c with
      | none => simp
      | some step =>
          obtain ⟨out, following⟩ := step
          refine (ih (out.reverse ++ before) following).trans ?_
          constructor
          · rintro ⟨more, hmore, rfl⟩
            exact ⟨out ++ more, ⟨out, following, more, rfl, hmore, rfl⟩, by simp⟩
          · rintro ⟨_, ⟨_, _, more, hstep, hmore, rfl⟩, rfl⟩
            cases hstep
            exact ⟨more, hmore, by simp⟩

/-- A text has the tokens that it spells. -/
theorem tokens?_eq_some_iff {text : List Char} {tokens : List Token} :
    tokens? text = some tokens ↔ Spells text tokens := by
  refine (foldlM_lexStep_eq_some_iff text [] tokens .between).trans ?_
  exact ⟨fun ⟨_, h, heq⟩ => heq ▸ h, fun h => ⟨tokens, h, rfl⟩⟩

end CheckedExecution.Json
