import CheckedExecution.Json.Token
import Mathlib.Logic.Basic

/-!
# Numbers of JSON

The grammar of numbers, each part with what may follow it: an optional sign, an integer part without
leading zeros, an optional fraction and an optional exponent. What may follow each state of the
machine is a part of this grammar (`NumberState.Rest`), and one step of the machine takes one
character off its front (`rest_cons_iff`). A state that no character can continue is one from which
no number goes on (`next?_eq_none_iff`).
-/

namespace CheckedExecution.Json

/-! ## The grammar -/

/-- Digits, possibly none, and then what the predicate asks for. -/
inductive DigitsThen (P : List Char → Prop) : List Char → Prop where
  | here {text : List Char} : P text → DigitsThen P text
  | digit {c : Char} {text : List Char} :
      c.isDigit = true → DigitsThen P text → DigitsThen P (c :: text)

/-- A digit or more, and then what the predicate asks for. -/
def SomeDigitsThen (P : List Char → Prop) : List Char → Prop
  | [] => False
  | c :: rest => c.isDigit = true ∧ DigitsThen P rest

/-- Nothing more. -/
def Nothing (text : List Char) : Prop :=
  text = []

/-- An optional sign and digits. -/
def SignedDigits : List Char → Prop
  | [] => False
  | c :: rest => (c = '+' ∨ c = '-') ∧ SomeDigitsThen Nothing rest ∨
      SomeDigitsThen Nothing (c :: rest)

/-- An optional exponent. -/
def ExponentPart : List Char → Prop
  | [] => True
  | c :: rest => (c = 'e' ∨ c = 'E') ∧ SignedDigits rest

/-- An optional fraction and what follows it. -/
def FractionPart : List Char → Prop
  | [] => True
  | c :: rest => c = '.' ∧ SomeDigitsThen ExponentPart rest ∨ ExponentPart (c :: rest)

/-- An integer part and what follows it. It is a zero alone, or it does not begin with a zero. -/
def IntegerPart : List Char → Prop
  | [] => False
  | c :: rest => c = '0' ∧ FractionPart rest ∨
      c ≠ '0' ∧ c.isDigit = true ∧ DigitsThen FractionPart rest

/-- A number. -/
def IsNumber : List Char → Prop
  | [] => False
  | c :: rest => c = '-' ∧ IntegerPart rest ∨ IntegerPart (c :: rest)

/-! ## The machine -/

/-- Digits go on with a digit, or they are over. -/
theorem digitsThen_cons_iff {P : List Char → Prop} {c : Char} {text : List Char} :
    DigitsThen P (c :: text) ↔ P (c :: text) ∨ c.isDigit = true ∧ DigitsThen P text := by
  constructor
  · intro h
    cases h with
    | here h => exact .inl h
    | digit hdigit h => exact .inr ⟨hdigit, h⟩
  · rintro (h | ⟨hdigit, h⟩)
    · exact .here h
    · exact .digit hdigit h

/-- At the end of the text the digits are over. -/
theorem digitsThen_nil_iff {P : List Char → Prop} : DigitsThen P [] ↔ P [] := by
  constructor
  · intro h
    cases h with
    | here h => exact h
  · exact .here

/-- Some digits begin with one. -/
theorem someDigitsThen_cons_iff {P : List Char → Prop} {c : Char} {text : List Char} :
    SomeDigitsThen P (c :: text) ↔ c.isDigit = true ∧ DigitsThen P text := Iff.rfl

/-- A digit is none of the other characters of a number. -/
theorem not_punctuation_of_isDigit {c : Char} (h : c.isDigit = true) :
    c ≠ '.' ∧ ¬ (c = 'e' ∨ c = 'E') ∧ ¬ (c = '+' ∨ c = '-') := by
  refine ⟨?_, ?_, ?_⟩
  · rintro rfl
    cases h
  · rintro (rfl | rfl) <;> cases h
  · rintro (rfl | rfl) <;> cases h

namespace NumberState

/-- What may follow a state. -/
def Rest : NumberState → List Char → Prop
  | minus => IntegerPart
  | zero => FractionPart
  | integer => DigitsThen FractionPart
  | point => SomeDigitsThen ExponentPart
  | fraction => DigitsThen ExponentPart
  | mark => SignedDigits
  | markSign => SomeDigitsThen Nothing
  | exponent => DigitsThen Nothing

/-- Nothing need follow a state in which a number may end. -/
theorem rest_nil_iff (state : NumberState) : state.Rest [] ↔ state.complete = true := by
  cases state with
  | integer | fraction | exponent =>
      simp [Rest, complete, digitsThen_nil_iff, FractionPart, ExponentPart, Nothing]
  | minus | zero | point | mark | markSign =>
      simp [Rest, complete, IntegerPart, FractionPart, SomeDigitsThen, SignedDigits]

/-- What follows a state is a character that can continue the number, and what follows then. -/
theorem rest_cons_iff (state : NumberState) (c : Char) (text : List Char) :
    state.Rest (c :: text) ↔ ∃ following, state.next? c = some following ∧ following.Rest text := by
  -- A digit goes on with digits, and any other character of a number ends them.
  cases state with
  | minus =>
      by_cases hzero : c = '0'
      · simp [Rest, next?, IntegerPart, hzero]
      · by_cases hdigit : c.isDigit = true <;> simp [Rest, next?, IntegerPart, hzero, hdigit]
  | zero =>
      by_cases hpoint : c = '.'
      · simp [Rest, next?, FractionPart, ExponentPart, hpoint]
      · by_cases hmark : c = 'e' ∨ c = 'E' <;>
          simp [Rest, next?, FractionPart, ExponentPart, hpoint, hmark]
  | integer =>
      simp only [Rest, next?, digitsThen_cons_iff, FractionPart, ExponentPart]
      by_cases hdigit : c.isDigit = true
      · obtain ⟨hpoint, hmark, -⟩ := not_punctuation_of_isDigit hdigit
        simp [hdigit, hpoint, hmark]
      · by_cases hpoint : c = '.'
        · simp [hpoint]
        · by_cases hmark : c = 'e' ∨ c = 'E' <;> simp [hdigit, hpoint, hmark]
  | fraction =>
      simp only [Rest, next?, digitsThen_cons_iff, ExponentPart]
      by_cases hdigit : c.isDigit = true
      · obtain ⟨-, hmark, -⟩ := not_punctuation_of_isDigit hdigit
        simp [hdigit, hmark]
      · by_cases hmark : c = 'e' ∨ c = 'E' <;> simp [hdigit, hmark]
  | mark =>
      simp only [Rest, next?, SignedDigits, someDigitsThen_cons_iff]
      by_cases hdigit : c.isDigit = true
      · obtain ⟨-, -, hsign⟩ := not_punctuation_of_isDigit hdigit
        simp [hdigit, hsign]
      · by_cases hsign : c = '+' ∨ c = '-' <;> simp [hdigit, hsign]
  | exponent =>
      by_cases hdigit : c.isDigit = true <;>
        simp [Rest, next?, digitsThen_cons_iff, Nothing, hdigit]
  | point | markSign =>
      by_cases hdigit : c.isDigit = true <;> simp [Rest, next?, SomeDigitsThen, hdigit]

/-- Every state can go on to the end of a number. -/
theorem exists_rest (state : NumberState) : ∃ text, state.Rest text := by
  cases state with
  | zero | integer | fraction | exponent => exact ⟨[], (rest_nil_iff _).2 rfl⟩
  | minus | point | mark | markSign =>
      exact ⟨['0'], (rest_cons_iff _ _ _).2 ⟨_, rfl, (rest_nil_iff _).2 rfl⟩⟩

/-- A character cannot continue a number exactly if no number goes on with it. -/
theorem next?_eq_none_iff {state : NumberState} {c : Char} :
    state.next? c = none ↔ ∀ text, ¬ state.Rest (c :: text) := by
  simp only [rest_cons_iff]
  constructor
  · rintro h text ⟨following, hnext, -⟩
    rw [h] at hnext
    cases hnext
  · intro h
    rw [Option.eq_none_iff_forall_ne_some]
    intro following hnext
    obtain ⟨text, hrest⟩ := following.exists_rest
    exact h text ⟨following, hnext, hrest⟩

end NumberState

end CheckedExecution.Json
