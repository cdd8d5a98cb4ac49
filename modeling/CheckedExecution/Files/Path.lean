/-!
# Paths

A path is what its text writes: the stretches between its separators, empty ones included, so two
texts of one file may be two paths. Following a path only its pieces matter, the stretches that are
not empty.

The parent of a path is found on the text alone, by cutting off the last piece, be it a name or two
dots. Stretches that stay where they are, which are the empty ones and single dots, are cut off
with it and in front of it, but stay further inside. Only a dot that a path begins with counts as a
piece of its own, unless the path begins at the root. The candidates of a path are the path, its
parent, the parent of that, and so on to the end (`candidates_eq`).
-/

namespace CheckedExecution

/-- A stretch of a path. -/
inductive PathPiece where
  /-- Nothing, between two separators that follow each other. -/
  | blank
  /-- One dot: the directory itself. -/
  | here
  /-- Two dots: the directory above. -/
  | up
  /-- An entry of the directory. -/
  | name (text : String)
  deriving DecidableEq

/-- A path by its stretches. -/
structure Path where
  /-- The path begins at the root. -/
  absolute : Bool
  /-- What stands between the separators, behind the first one of a path that begins at the root. -/
  stretches : List PathPiece
  /-- A separator stands at the end, so that only a directory can be meant. -/
  slash : Bool
  deriving DecidableEq

namespace PathPiece

/-- The stretch that a text writes. -/
def ofText (text : String) : PathPiece :=
  if text = "" then blank else if text = "." then here else if text = ".." then up else name text

/-- The stretch as it is written. -/
def text : PathPiece → String
  | blank => ""
  | here => "."
  | up => ".."
  | name text => text

/-- The stretch stays where it is. -/
def idle : PathPiece → Bool
  | blank | here => true
  | up | name _ => false

end PathPiece

namespace Path

/-- The text between separators, empty stretches included. -/
def split : List Char → List (List Char)
  | [] => [[]]
  | c :: rest =>
      if c = '/' then [] :: split rest
      else
        match split rest with
        | [] => [[c]]
        | stretch :: more => (c :: stretch) :: more

/-- The path that a text writes. Behind a separator at the end there is no stretch. -/
def ofText (text : String) : Path :=
  let chars := text.toList
  let found := split (if chars.head? = some '/' then chars.tail else chars)
  let stretches := if found.getLast? = some [] then found.dropLast else found
  { absolute := chars.head? = some '/'
    stretches := stretches.map fun stretch => PathPiece.ofText (String.ofList stretch)
    slash := chars.getLast? = some '/' }

/-- The path from the root through the given names. -/
def ofNames (names : List String) : Path :=
  ⟨true, names.map .name, false⟩

/-- The path as it is written. -/
def text (p : Path) : String :=
  let body := "/".intercalate (p.stretches.map PathPiece.text)
  (if p.absolute then "/" else "") ++ body ++ (if p.slash ∧ p.stretches ≠ [] then "/" else "")

/-- The path of an entry of the directory that the path names. -/
def entry (p : Path) (name : String) : Path :=
  ⟨p.absolute, p.stretches ++ [.name name], false⟩

/-- The pieces that are followed: all stretches but the empty ones. -/
def pieces (p : Path) : List PathPiece :=
  p.stretches.filter (· ≠ .blank)

/-! ## Parents -/

/-- The dot that counts as a piece, if the path begins with one and not at the root. -/
def leadingDot (p : Path) : List PathPiece :=
  if p.absolute = false ∧ p.stretches.head? = some .here then [.here] else []

/-- The stretches behind that dot. -/
def body (p : Path) : List PathPiece :=
  p.stretches.drop p.leadingDot.length

/-- The stretches without those at the end that stay where they are. -/
def trimEnd : List PathPiece → List PathPiece
  | [] => []
  | stretch :: rest =>
      let kept := trimEnd rest
      if kept = [] ∧ stretch.idle then [] else stretch :: kept

/-- The path without its last piece. The root and the empty path have no parent. -/
def parent? (p : Path) : Option Path :=
  let kept := trimEnd p.body
  if kept = [] then
    if p.leadingDot = [] then none else some ⟨p.absolute, [], false⟩
  else some ⟨p.absolute, p.leadingDot ++ trimEnd kept.dropLast, false⟩

/-- The pieces that count for the parent. -/
def steps (p : Path) : List PathPiece :=
  p.leadingDot ++ p.body.filter fun stretch => !stretch.idle

/-- A path begins with its leading dot, if there is one. -/
theorem leadingDot_append_body (p : Path) : p.leadingDot ++ p.body = p.stretches := by
  unfold body leadingDot
  split
  · rename_i h
    obtain ⟨rest, hrest⟩ := List.head?_eq_some_iff.1 h.2
    rw [hrest]
    rfl
  · rfl

/-- Only stretches at the end are left out. -/
theorem trimEnd_isPrefix (stretches : List PathPiece) : trimEnd stretches <+: stretches := by
  induction stretches with
  | nil => exact List.prefix_rfl
  | cons stretch rest ih =>
      unfold trimEnd
      dsimp only
      split
      · exact List.nil_prefix
      · exact (List.prefix_cons_inj stretch).2 ih

/-- A parent has fewer stretches. -/
theorem length_stretches_parent {p q : Path} (h : p.parent? = some q) :
    q.stretches.length < p.stretches.length := by
  have hlength := congrArg List.length p.leadingDot_append_body
  rw [List.length_append] at hlength
  unfold parent? at h
  dsimp only at h
  split at h
  · split at h
    · cases h
    · rename_i hlead
      have hpos := List.length_pos_iff.2 hlead
      cases h
      rw [List.length_nil]
      omega
  · rename_i hkept
    have hpos := List.length_pos_iff.2 hkept
    have hbody := (trimEnd_isPrefix p.body).length_le
    have hinit := (trimEnd_isPrefix (trimEnd p.body).dropLast).length_le
    rw [List.length_dropLast] at hinit
    cases h
    rw [List.length_append]
    omega

/-- The path, its parent, the parent of that, and so on. -/
def candidates (p : Path) : List Path :=
  p :: match _ : p.parent? with
    | none => []
    | some q => candidates q
termination_by p.stretches.length
decreasing_by exact length_stretches_parent (by assumption)

/-- The candidates are the path and the candidates of its parent. -/
theorem candidates_eq (p : Path) :
    p.candidates = p :: ((p.parent?.map candidates).getD []) := by
  rw [candidates]
  congr 1
  split <;> rename_i h <;> simp [h]

end Path

end CheckedExecution
