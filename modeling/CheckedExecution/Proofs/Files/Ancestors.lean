import CheckedExecution.Files.Path
import Mathlib.Data.List.Basic

/-!
# The ancestors of a path

The ancestors of a path are the path itself, its parent, the parent of that, and so on. Each is what
the one before it begins with, up to its last step (`exists_piece_of_parent`), so there are as many
as the path has steps, and the path itself (`isSome_ancestor?`). The candidates are the ancestors in
order (`getElem?_candidates`).
-/

namespace CheckedExecution.Path

/-- What taking the parent a number of times leads to, unless the ancestors have ended by then. -/
def ancestor? (p : Path) : Nat → Option Path
  | 0 => some p
  | k + 1 => (p.ancestor? k).bind parent?

variable {p q : Path}

/-- The further ancestors are those of the parent. -/
theorem ancestor?_succ (p : Path) (k : Nat) :
    p.ancestor? (k + 1) = p.parent?.bind fun q => q.ancestor? k := by
  induction k with
  | zero => exact (Option.bind_fun_some p.parent?).symm
  | succ k ih =>
      rw [ancestor?, ih, Option.bind_assoc]
      rfl

/-- Past a parent the ancestors are the parent's. -/
theorem ancestor?_of_parent (h : p.parent? = some q) (k : Nat) :
    p.ancestor? (k + 1) = q.ancestor? k := by
  rw [ancestor?_succ, h, Option.bind_some]

/-- An ancestor is the path itself or an ancestor of its parent. -/
theorem ancestor?_cases {k : Nat} {candidate : Path} (h : p.ancestor? k = some candidate) :
    k = 0 ∧ candidate = p ∨
      ∃ l q, k = l + 1 ∧ p.parent? = some q ∧ q.ancestor? l = some candidate := by
  cases k with
  | zero =>
      cases h
      exact .inl ⟨rfl, rfl⟩
  | succ l =>
      rw [ancestor?_succ] at h
      obtain ⟨q, hparent, hq⟩ := Option.bind_eq_some_iff.1 h
      exact .inr ⟨l, q, rfl, hparent, hq⟩

/-! ## Pieces and steps -/

/-- The pieces of an entry are those of the directory and its name. -/
theorem pieces_entry (p : Path) (name : String) :
    (p.entry name).pieces = p.pieces ++ [.name name] :=
  List.filter_append _ _

/-- Trimming the end leaves nothing where nothing counts, and otherwise the stretches up to the last
that counts. -/
theorem trimEnd_cases (stretches : List PathPiece) :
    trimEnd stretches = [] ∧ stretches.filter (!·.idle) = [] ∨
      ∃ init last, trimEnd stretches = init ++ [last] ∧ last.idle = false ∧
        stretches.filter (!·.idle) = init.filter (!·.idle) ++ [last] := by
  induction stretches with
  | nil => exact .inl ⟨rfl, rfl⟩
  | cons stretch rest ih =>
      rw [trimEnd, List.filter_cons]
      rcases ih with ⟨hkept, hfilter⟩ | ⟨init, last, hkept, hlast, hfilter⟩
      · cases hidle : stretch.idle with
        | true => simp [hkept, hfilter]
        | false => exact .inr ⟨[], stretch, by simp [hkept], hidle, by simp [hfilter]⟩
      · refine .inr ⟨stretch :: init, last, by simp [hkept], hlast, ?_⟩
        rw [hfilter, List.filter_cons]
        cases stretch.idle <;> rfl

/-- A path that ends earlier than another, but not before its leading dot, has the same. -/
theorem leadingDot_body_of_prefix {more : List PathPiece} (habsolute : q.absolute = p.absolute)
    (hstretches : q.stretches = p.leadingDot ++ more) (hmore : more <+: p.body) :
    q.leadingDot = p.leadingDot ∧ q.body = more := by
  have hdot : q.leadingDot = p.leadingDot := by
    by_cases h : p.absolute = false ∧ p.stretches.head? = some .here
    · have hp : p.leadingDot = [.here] := if_pos h
      rw [hp] at hstretches ⊢
      exact if_pos ⟨habsolute.trans h.1, by rw [hstretches]; rfl⟩
    · have hp : p.leadingDot = [] := if_neg h
      have hbegins : q.stretches <+: p.stretches := by
        rw [hstretches, ← p.leadingDot_append_body, hp]
        exact hmore
      rw [hp]
      refine if_neg fun ⟨hrelative, hhead⟩ => h ⟨habsolute.symm.trans hrelative, ?_⟩
      obtain ⟨further, hfurther⟩ := hbegins
      rw [← hfurther, List.head?_append, hhead]
      rfl
  refine ⟨hdot, ?_⟩
  rw [body, hdot, hstretches, List.drop_left]

/-- What trimming the end leaves out does not count. -/
theorem filter_trimEnd (stretches : List PathPiece) :
    (trimEnd stretches).filter (!·.idle) = stretches.filter (!·.idle) := by
  rcases trimEnd_cases stretches with ⟨hkept, hfilter⟩ | ⟨init, last, hkept, hlast, hfilter⟩
  · rw [hkept, hfilter]
    rfl
  · rw [hkept, hfilter, List.filter_append]
    simp [hlast]

/-- A leading dot is a dot. -/
theorem leadingDot_of_ne_nil (h : p.leadingDot ≠ []) : p.leadingDot = [.here] := by
  unfold leadingDot at h ⊢
  split_ifs at h ⊢
  · rfl
  · exact absurd rfl h

/-- A path goes on from its parent, in the text and in the steps, to a piece that is its last step.
-/
theorem exists_piece_of_parent (h : p.parent? = some q) :
    q.absolute = p.absolute ∧ ∃ between piece after,
      p.stretches = q.stretches ++ between ++ piece :: after ∧ piece ≠ .blank ∧
      p.steps = q.steps ++ [piece] := by
  unfold parent? at h
  dsimp only at h
  rcases trimEnd_cases p.body with ⟨hkept, hfilter⟩ | ⟨init, last, hkept, hlast, hfilter⟩
  · -- Nothing is left but the leading dot.
    rw [if_pos hkept] at h
    split at h
    · cases h
    · rename_i hne
      cases h
      have hdot := leadingDot_of_ne_nil hne
      refine ⟨rfl, [], .here, p.body, ?_, by decide, ?_⟩
      · rw [← p.leadingDot_append_body, hdot]
        rfl
      · rw [steps, hfilter, hdot]
        simp [steps, leadingDot, body]
  · rw [hkept, if_neg (by simp), List.dropLast_concat] at h
    cases h
    obtain ⟨between, hinit⟩ := trimEnd_isPrefix init
    obtain ⟨after, hbody⟩ := trimEnd_isPrefix p.body
    rw [hkept, ← hinit] at hbody
    have hprefix : trimEnd init <+: p.body := by
      rw [← hbody, List.append_assoc, List.append_assoc]
      exact List.prefix_append _ _
    obtain ⟨hdot, hrest⟩ := leadingDot_body_of_prefix (p := p)
      (q := ⟨p.absolute, p.leadingDot ++ trimEnd init, false⟩) rfl rfl hprefix
    refine ⟨rfl, between, last, after, ?_, ?_, ?_⟩
    · rw [← p.leadingDot_append_body, ← hbody]
      simp only [List.append_assoc, List.singleton_append]
    · rintro rfl
      cases hlast
    · rw [steps, steps, hdot, hrest, hfilter, filter_trimEnd, List.append_assoc]

/-- The pieces of a path are those of its parent and at least one more. -/
theorem pieces_eq_of_parent (h : p.parent? = some q) :
    ∃ piece rest, p.pieces = q.pieces ++ piece :: rest := by
  obtain ⟨-, between, piece, after, hstretches, hpiece, -⟩ := exists_piece_of_parent h
  have hne : (between ++ piece :: after).filter (· ≠ .blank) ≠ [] := fun hnil =>
    List.filter_eq_nil_iff.1 hnil piece (by simp) (by simpa using hpiece)
  obtain ⟨first, rest, hmore⟩ := List.exists_cons_of_ne_nil hne
  refine ⟨first, rest, ?_⟩
  rw [pieces, hstretches, List.append_assoc, List.filter_append, hmore]
  rfl

/-- A path has no parent exactly if it has no step. -/
theorem parent?_eq_none_iff : p.parent? = none ↔ p.steps = [] := by
  unfold parent? steps
  dsimp only
  rcases trimEnd_cases p.body with ⟨hkept, hfilter⟩ | ⟨init, last, hkept, -, hfilter⟩
  · simp [hkept, hfilter]
  · simp [hkept, hfilter]

/-! ## How many there are -/

/-- There is the path itself and one ancestor for each of its steps. -/
theorem isSome_ancestor? (p : Path) (k : Nat) :
    (p.ancestor? k).isSome = true ↔ k ≤ p.steps.length := by
  induction k generalizing p with
  | zero => simp [ancestor?]
  | succ k ih =>
      cases hparent : p.parent? with
      | none => simp [ancestor?_succ, hparent, parent?_eq_none_iff.1 hparent]
      | some q =>
          obtain ⟨-, _, _, _, -, -, hsteps⟩ := exists_piece_of_parent hparent
          rw [ancestor?_of_parent hparent, ih, hsteps, List.length_append, List.length_singleton]
          exact Nat.succ_le_succ_iff.symm

/-- The candidates are the ancestors in order. -/
theorem getElem?_candidates (p : Path) (k : Nat) : p.candidates[k]? = p.ancestor? k := by
  induction p using candidates.induct generalizing k with
  | case1 p ih =>
      rw [candidates_eq]
      cases k with
      | zero => rfl
      | succ k =>
          rw [List.getElem?_cons_succ, ancestor?_succ]
          cases hparent : p.parent? with
          | none => rfl
          | some q => exact ih q hparent k

/-- A dot and a double separator stay in the text of a parent, unless what is cut off is next to
them. -/
example : (ofText "./a/.//b/./c//").candidates.map text =
    ["./a/.//b/./c//", "./a/.//b", "./a", ".", ""] := by decide +kernel

/-- A search for an entry at the candidates looks at the path itself and then goes on with the
parent. -/
theorem find?_candidates (stands : Path → Bool) (name : String) (p : Path) :
    (p.candidates.map (·.entry name)).find? stands =
      if stands (p.entry name) then some (p.entry name)
      else p.parent?.bind fun q => (q.candidates.map (·.entry name)).find? stands := by
  rw [candidates_eq, List.map_cons, List.find?_cons]
  cases stands (p.entry name) with
  | true => rfl
  | false => cases p.parent? <;> rfl

end CheckedExecution.Path
