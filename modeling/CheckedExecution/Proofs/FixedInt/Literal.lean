import CheckedExecution.Proofs.Cast.Policies
import CheckedExecution.Proofs.Text.Blank
import CheckedExecution.Proofs.Text.Decimal

/-!
# Literals and casts

A literal is read at a type exactly if what trimming leaves of it denotes a value of the type
(`ofLiteral_eq_ok_iff`). White space around the decimal of a value and zeros behind its sign do not
matter, so writing a value and reading it at another type is casting it there. That is the main
theorem, `literals_agree_with_casts`.
-/

namespace CheckedExecution.FixedInt

variable {t : IntType}

/-- A literal is read as the value that its text denotes, white space at the ends left aside. -/
theorem ofLiteral_eq_ok_iff {text : String} {w : FixedInt t} :
    ofLiteral t text = .ok w ↔ Decimal.Denotes t.signed (Text.trim text.toList) w.toInt := by
  have hdecimal : ofLiteral t text = .ok w ↔
      ofDecimal? t (Text.trim text.toList) = some w := by
    unfold ofLiteral
    cases ofDecimal? t (Text.trim text.toList) <;> simp
  rw [hdecimal, ofDecimal?, Option.bind_eq_some_iff]
  constructor
  · rintro ⟨v, hv, hw⟩
    rw [ofInt?_eq_some_iff.1 hw]
    exact Decimal.toInt?_eq_some_iff.1 hv
  · intro h
    exact ⟨w.toInt, Decimal.toInt?_eq_some_iff.2 h, ofInt?_toInt w⟩

/-- What is written for an integer is read, at any type, exactly as the value of that integer. -/
theorem denotes_ofInt_iff {v : Int} {w : FixedInt t} :
    Decimal.Denotes t.signed (Decimal.ofInt v) w.toInt ↔ w.toInt = v := by
  constructor
  · intro h
    exact h.allow.unique (Decimal.denotes_ofInt v)
  · intro h
    rw [h, ← Decimal.toInt?_eq_some_iff]
    -- A type that has the value has the minus sign that the text may begin with.
    refine Decimal.toInt?_ofInt fun hneg => signed_of_neg w ?_
    rwa [h]

/-- White space around the decimal of an integer and zeros behind its sign do not change what is
read. -/
theorem ofLiteral_padded_eq_ok_iff {left right : List Char} (hleft : Text.IsBlank left)
    (hright : Text.IsBlank right) (zeros : Nat) {v : Int} {w : FixedInt t} :
    ofLiteral t (String.ofList (left ++ Decimal.insertZeros zeros (Decimal.ofInt v) ++ right)) =
      .ok w ↔ w.toInt = v := by
  have hsolid : ∀ c ∈ Decimal.insertZeros zeros (Decimal.ofInt v), Text.isBlank c = false := by
    intro c hc
    rcases Decimal.mem_insertZeros hc with rfl | hc
    · rfl
    · rcases Decimal.mem_ofInt hc with rfl | hdigit
      · rfl
      · exact Text.isBlank_of_isDigit hdigit
  rw [ofLiteral_eq_ok_iff, String.toList_ofList, Text.trim_append hleft hright hsolid,
    ← Decimal.toInt?_eq_some_iff, Decimal.toInt?_insertZeros, Decimal.toInt?_eq_some_iff,
    denotes_ofInt_iff]

/-- The decimal of a value as characters. -/
theorem toList_toDecimal (a : FixedInt t) : a.toDecimal.toList = Decimal.ofInt a.toInt :=
  String.toList_ofList

/-- A value is read back from its decimal, with any number of zeros behind the sign. -/
theorem ofLiteral_insertZeros (zeros : Nat) (a : FixedInt t) :
    ofLiteral t (String.ofList (Decimal.insertZeros zeros a.toDecimal.toList)) = .ok a := by
  have hnil : Text.IsBlank [] := fun _ hc => absurd hc List.not_mem_nil
  have hread := (ofLiteral_padded_eq_ok_iff hnil hnil zeros).2 (Eq.refl a.toInt)
  rwa [List.nil_append, List.append_nil, ← toList_toDecimal] at hread

/-- A value is read back from its decimal. -/
theorem ofLiteral_toDecimal (a : FixedInt t) : ofLiteral t a.toDecimal = .ok a := by
  have hread := ofLiteral_insertZeros 0 a
  rwa [Decimal.insertZeros_zero, String.ofList_toList] at hread

/-- Writing a value of one type and reading it at another is casting it. With white space around the
decimal and zeros behind its sign, the literal is read as a value of the target exactly if the cast
yields that value, so at the type it came from every value is read back. What is read of any literal
at any type is written as the one canonical text of the integer that the literal denotes. -/
theorem literals_agree_with_casts {source : IntType} (target : IntType) (value : FixedInt source)
    (zeros : Nat) {left right : List Char} (hleft : Text.IsBlank left)
    (hright : Text.IsBlank right) :
    let text := String.ofList (left ++ Decimal.insertZeros zeros value.toDecimal.toList ++ right)
    (∀ w : FixedInt target, ofLiteral target text = .ok w ↔ fallibleCast target value = some w) ∧
    ofLiteral source text = .ok value ∧
    ∀ (type : IntType) (literal : String) (w : FixedInt type), ofLiteral type literal = .ok w →
      ∃ before body after, literal.toList = before ++ body ++ after ∧
        Text.IsBlank before ∧ Text.IsBlank after ∧
        Decimal.Denotes type.signed body w.toInt ∧
        ∀ canonical, canonical = w.toDecimal.toList ↔
          Decimal.IsCanonical canonical ∧ Decimal.Denotes true canonical w.toInt := by
  intro text
  have hread : ∀ (type : IntType) (w : FixedInt type),
      ofLiteral type text = .ok w ↔ w.toInt = value.toInt := by
    intro type w
    show ofLiteral type (String.ofList _) = _ ↔ _
    rw [toList_toDecimal]
    exact ofLiteral_padded_eq_ok_iff hleft hright zeros
  refine ⟨fun w => ?_, (hread source value).2 rfl, fun type literal w h => ?_⟩
  · rw [hread, fallibleCast_eq_some_iff]
    rfl
  · obtain ⟨before, after, hbefore, hafter, htext⟩ := Text.exists_trim literal.toList
    refine ⟨before, Text.trim literal.toList, after, htext, hbefore, hafter,
      ofLiteral_eq_ok_iff.1 h, fun canonical => ?_⟩
    rw [toList_toDecimal]
    exact Decimal.canonical_denotes_iff.symm

/-- A negative value with white space around it and zeros behind its sign. -/
theorem padded_negative_literal_is_read :
    Text.IsBlank ['\t', '\u00a0'] ∧ Text.IsBlank ['\u3000'] ∧
    String.ofList (['\t', '\u00a0'] ++
      Decimal.insertZeros 3 (⟨-300, by decide⟩ : FixedInt .i64).toDecimal.toList ++ ['\u3000']) =
        "\t\u00a0-000300\u3000" ∧
    ofLiteral .i16 "\t\u00a0-000300\u3000" = .ok ⟨-300, by decide⟩ := by
  have htext : String.ofList (['\t', '\u00a0'] ++
      Decimal.insertZeros 3 (⟨-300, by decide⟩ : FixedInt .i64).toDecimal.toList ++ ['\u3000']) =
        "\t\u00a0-000300\u3000" := by decide +kernel
  have hagree := literals_agree_with_casts .i16 (⟨-300, by decide⟩ : FixedInt .i64) 3
    (show Text.IsBlank ['\t', '\u00a0'] by decide) (show Text.IsBlank ['\u3000'] by decide)
  refine ⟨by decide, by decide, htext, ?_⟩
  rw [← htext]
  exact (hagree.1 _).2 (by decide)

end CheckedExecution.FixedInt
