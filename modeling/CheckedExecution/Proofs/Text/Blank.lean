import CheckedExecution.Text.Character

/-!
# Trimmed text

Trimming takes white space away from the two ends of a text and nothing else (`exists_trim`), and it
takes away all of it. `Trims` says so without saying how, and there is one text that it holds of
(`trims_iff`).
-/

namespace CheckedExecution.Text

/-- The text is nothing but white space. -/
def IsBlank (text : List Char) : Prop :=
  ∀ c ∈ text, isBlank c = true

/-- Whether a text is nothing but white space is decided character by character. -/
instance (text : List Char) : Decidable (IsBlank text) :=
  decidable_of_iff (text.all isBlank = true) List.all_eq_true

/-- Dropping white space takes away a blank text. -/
theorem dropWhile_isBlank_append {blank : List Char} (h : IsBlank blank) (rest : List Char) :
    (blank ++ rest).dropWhile isBlank = rest.dropWhile isBlank :=
  List.dropWhile_append_of_pos h

/-- Dropping white space leaves a text that does not begin with any. -/
theorem dropWhile_isBlank_of_head {text : List Char}
    (h : ∀ c, text.head? = some c → isBlank c = false) : text.dropWhile isBlank = text := by
  cases text with
  | nil => rfl
  | cons c rest => simp [h c rfl]

/-- What is left after dropping white space does not begin with any. -/
theorem head_dropWhile_isBlank {text : List Char} {c : Char}
    (h : (text.dropWhile isBlank).head? = some c) : isBlank c = false := by
  have hhead := List.head?_dropWhile_not isBlank text
  rwa [h] at hhead

/-- `Trims text body` says that `body` is what is left of `text` without the white space at its two
ends. -/
structure Trims (text body : List Char) : Prop where
  surrounded : ∃ left right, IsBlank left ∧ IsBlank right ∧ text = left ++ body ++ right
  head_solid : ∀ c, body.head? = some c → isBlank c = false
  last_solid : ∀ c, body.getLast? = some c → isBlank c = false

/-- A text is what trimming leaves of it between white space. -/
theorem exists_trim (text : List Char) :
    ∃ left right, IsBlank left ∧ IsBlank right ∧ text = left ++ trim text ++ right := by
  have hblank : ∀ l : List Char, IsBlank (l.takeWhile isBlank) := by
    intro l c hc
    exact List.all_eq_true.1 List.all_takeWhile c hc
  let front := text.dropWhile isBlank
  refine ⟨text.takeWhile isBlank, (front.reverse.takeWhile isBlank).reverse, hblank text, ?_, ?_⟩
  · intro c hc
    exact hblank front.reverse c (List.mem_reverse.1 hc)
  · have hfront : front = trim text ++ (front.reverse.takeWhile isBlank).reverse := by
      rw [trim, ← List.reverse_append, List.takeWhile_append_dropWhile, List.reverse_reverse]
    rw [List.append_assoc, ← hfront, List.takeWhile_append_dropWhile]

/-- Trimming is one way to get at what is left. -/
theorem trims_trim (text : List Char) : Trims text (trim text) := by
  refine ⟨exists_trim text, fun c hc => ?_, fun c hc => ?_⟩
  · -- What trimming leaves begins as the text does that has lost the white space in front.
    have hprefix : trim text <+: text.dropWhile isBlank := by
      rw [trim, ← List.reverse_suffix, List.reverse_reverse]
      exact List.dropWhile_suffix isBlank
    obtain ⟨back, hback⟩ := hprefix
    have hfront : (text.dropWhile isBlank).head? = some c := by
      rw [← hback, List.head?_append, hc, Option.some_or]
    exact head_dropWhile_isBlank hfront
  · rw [trim, List.getLast?_reverse] at hc
    exact head_dropWhile_isBlank hc

/-- There is no other way. -/
theorem trims_iff {text body : List Char} : Trims text body ↔ body = trim text := by
  constructor
  · rintro ⟨⟨left, right, hleft, hright, rfl⟩, hhead, hlast⟩
    cases body with
    | nil =>
        have hnil : right.dropWhile isBlank = [] := by
          have hdrop := dropWhile_isBlank_append hright []
          rwa [List.append_nil] at hdrop
        rw [trim, List.append_nil, dropWhile_isBlank_append hleft, hnil]
        rfl
    | cons c rest =>
        have hfront : (left ++ c :: rest ++ right).dropWhile isBlank = c :: rest ++ right := by
          rw [List.append_assoc, dropWhile_isBlank_append hleft]
          exact dropWhile_isBlank_of_head hhead
        have hright' : IsBlank right.reverse := fun d hd => hright d (List.mem_reverse.1 hd)
        have hback : (c :: rest ++ right).reverse.dropWhile isBlank = (c :: rest).reverse := by
          rw [List.reverse_append, dropWhile_isBlank_append hright']
          apply dropWhile_isBlank_of_head
          rwa [List.head?_reverse]
        rw [trim, hfront, hback, List.reverse_reverse]
  · rintro rfl
    exact trims_trim text

/-- What stands between white space and has none itself is what trimming leaves. -/
theorem trim_append {left solid right : List Char} (hleft : IsBlank left) (hright : IsBlank right)
    (hsolid : ∀ c ∈ solid, isBlank c = false) : trim (left ++ solid ++ right) = solid :=
  (trims_iff.1 ⟨⟨left, right, hleft, hright, rfl⟩,
    fun c hc => hsolid c (List.mem_of_mem_head? hc),
    fun c hc => hsolid c (List.mem_of_getLast? hc)⟩).symm

/-- No digit is white space. -/
theorem isBlank_of_isDigit {c : Char} (h : c.isDigit = true) : isBlank c = false := by
  have hrange : 48 ≤ c.toNat ∧ c.toNat ≤ 57 := by
    simp only [Char.isDigit, Bool.and_eq_true, decide_eq_true_eq] at h
    exact h
  unfold isBlank
  simp
  omega

/-- White space is no letter, so lower case leaves it. -/
theorem toLower_of_isBlank {c : Char} (h : isBlank c = true) : c.toLower = c := by
  have hletter : ¬ (65 ≤ c.toNat ∧ c.toNat ≤ 90) := by
    simp only [isBlank, Bool.or_eq_true, Bool.and_eq_true, decide_eq_true_eq, beq_iff_eq] at h
    omega
  refine dif_neg fun hbounds => hletter ?_
  exact ⟨UInt32.le_iff_toNat_le.1 hbounds.1, UInt32.le_iff_toNat_le.1 hbounds.2⟩

end CheckedExecution.Text
