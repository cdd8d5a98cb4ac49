import CheckedExecution.Proofs.FixedInt.Literal

/-!
# The grammar of literals

`IsLiteral t text n` is the grammar of literals of a type, with the integer that a literal denotes:
white space at the ends, an optional sign and one or more digits. A minus sign belongs to signed
types only, and nothing is said of the range. Every text has one such integer at most
(`IsLiteral.unique`). The main theorem, `ofLiteral_accepts_grammar`, says that what is read is a
literal whose integer is a value of the type, and that any other text is refused as it was given.
-/

namespace CheckedExecution.FixedInt

variable {t : IntType} {text : String} {n : Int}

/-- The text is a literal of the type, and it denotes the integer. -/
def IsLiteral (t : IntType) (text : String) (n : Int) : Prop :=
  ∃ body, Text.Trims text.toList body ∧ Decimal.Denotes t.signed body n

/-- What the grammar has to be asked about is what trimming leaves. -/
theorem isLiteral_iff :
    IsLiteral t text n ↔ Decimal.Denotes t.signed (Text.trim text.toList) n := by
  constructor
  · rintro ⟨body, hbody, hdenotes⟩
    rwa [← Text.trims_iff.1 hbody]
  · intro hdenotes
    exact ⟨_, Text.trims_trim text.toList, hdenotes⟩

/-- A literal denotes one integer. -/
theorem IsLiteral.unique {other : Int} (h : IsLiteral t text n) (hother : IsLiteral t text other) :
    n = other :=
  (isLiteral_iff.1 h).unique (isLiteral_iff.1 hother)

/-- A literal is read as a value exactly if it denotes the value's integer. -/
theorem ofLiteral_eq_ok_iff_isLiteral {v : FixedInt t} :
    ofLiteral t text = .ok v ↔ IsLiteral t text v.toInt :=
  ofLiteral_eq_ok_iff.trans isLiteral_iff.symm

/-- Some value is read exactly if the literal denotes an integer in the range of the type. -/
theorem exists_ofLiteral_eq_ok_iff :
    (∃ v : FixedInt t, ofLiteral t text = .ok v) ↔ ∃ n, IsLiteral t text n ∧ t.Contains n := by
  constructor
  · rintro ⟨v, hv⟩
    exact ⟨v.toInt, ofLiteral_eq_ok_iff_isLiteral.1 hv, v.contained⟩
  · rintro ⟨n, hn, hin⟩
    exact ⟨⟨n, hin⟩, ofLiteral_eq_ok_iff_isLiteral.2 hn⟩

/-- A refused text is reported as it was given. -/
theorem ofLiteral_eq_error_iff {error : LiteralError} :
    ofLiteral t text = .error error ↔
      error = ⟨t, text⟩ ∧ ¬ ∃ v : FixedInt t, ofLiteral t text = .ok v := by
  unfold ofLiteral
  cases ofDecimal? t (Text.trim text.toList) with
  | some v => simp
  | none => simp [eq_comm]

/-- A literal denotes one integer. It is read exactly if its grammar admits it and its integer lies
in the range of the type, and then it is read as that integer. Any number of zeros may stand behind
the sign, at the ends of the range as well. Every other text is refused, and the report has the type
and the text with the white space that it was given with. -/
theorem ofLiteral_accepts_grammar (t : IntType) (text : String) :
    (∀ n other, IsLiteral t text n → IsLiteral t text other → n = other) ∧
    (∀ v : FixedInt t, ofLiteral t text = .ok v ↔ IsLiteral t text v.toInt) ∧
    ((∃ v : FixedInt t, ofLiteral t text = .ok v) ↔
      ∃ n, IsLiteral t text n ∧ t.minValue ≤ n ∧ n ≤ t.maxValue) ∧
    (∀ error, ofLiteral t text = .error error ↔
      error = ⟨t, text⟩ ∧ ¬ ∃ n, IsLiteral t text n ∧ t.minValue ≤ n ∧ n ≤ t.maxValue) ∧
    ∀ (v : FixedInt t) (zeros : Nat),
      ofLiteral t (String.ofList (Decimal.insertZeros zeros v.toDecimal.toList)) = .ok v := by
  refine ⟨fun n other => IsLiteral.unique, fun v => ofLiteral_eq_ok_iff_isLiteral,
    exists_ofLiteral_eq_ok_iff, fun error => ?_, fun v zeros => ofLiteral_insertZeros zeros v⟩
  rw [ofLiteral_eq_error_iff, exists_ofLiteral_eq_ok_iff]
  rfl

/-- A sign without digits, two signs and white space behind a sign are refused at every type, and a
minus sign is refused at an unsigned one, be it in front of zero. -/
example : (["+", "- 1", "--1", "1 2", ""].all fun text =>
      IntType.all.all fun t => (ofLiteral t text).toOption.isNone) = true ∧
    ofLiteral .u8 "-0" = .error ⟨.u8, "-0"⟩ ∧
    ofLiteral .i8 "\t-0128 " = .ok (FixedInt.min .i8) := by
  decide +kernel

end CheckedExecution.FixedInt
