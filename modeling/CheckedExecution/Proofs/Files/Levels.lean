import CheckedExecution.Proofs.Files.Ancestors
import CheckedExecution.Proofs.Files.Trail

/-!
# The levels of a path

A path that names a directory leads there through one directory after the other, from the root or
from the current directory on. These are its levels, from the last back to the first. The
ancestors of the path name them in this order, since each gives up the last step of the one before
(`levels_eq`, `Reaches.of_parent`). The levels of a direct path are the locations from the directory
up to where the path begins (`Direct.mem_levels_iff`). A path without two dots is direct
(`direct_of_up_notMem`), and any other may lead through any directory.
-/

namespace CheckedExecution

namespace Path

/-- The location where a path begins: the root or the current directory. -/
def origin (current : Location) (p : Path) : Location :=
  if p.absolute then [] else current

/-- The location that the steps of a path lead to, if everything on the way is a directory. -/
def destination (current : Location) (p : Path) : Location :=
  p.steps.foldl PathPiece.leads (p.origin current)

/-- The locations that the steps of a path lead through, from its destination back to its origin. -/
def levels (current : Location) (p : Path) : List Location :=
  (p.steps.scanl PathPiece.leads (p.origin current)).reverse

variable {current : Location} {p q : Path}

/-- A parent begins where the path does. -/
theorem origin_of_parent (h : p.parent? = some q) (current : Location) :
    q.origin current = p.origin current := by
  rw [origin, origin, (exists_piece_of_parent h).1]

/-- Leaving out stretches that stay where they are changes nothing. -/
theorem foldl_filter_leads {keep : PathPiece → Bool}
    (h : ∀ stretch : PathPiece, keep stretch = false → stretch.idle = true)
    (stretches : List PathPiece) (origin : Location) :
    (stretches.filter keep).foldl PathPiece.leads origin =
      stretches.foldl PathPiece.leads origin := by
  induction stretches generalizing origin with
  | nil => rfl
  | cons stretch rest ih =>
      rw [List.filter_cons]
      cases hkeep : keep stretch with
      | true => exact ih (stretch.leads origin)
      | false =>
          have hstays : stretch.leads origin = origin := by
            have hidle := h stretch hkeep
            cases stretch with
            | blank | here => rfl
            | up | name text => cases hidle
          show (rest.filter keep).foldl _ origin = rest.foldl _ (stretch.leads origin)
          rw [ih, hstays]

/-- The pieces of a path lead where its steps do. -/
theorem foldl_pieces (p : Path) (origin : Location) :
    p.pieces.foldl PathPiece.leads origin = p.steps.foldl PathPiece.leads origin := by
  have hblank : ∀ stretch : PathPiece, decide (stretch ≠ .blank) = false →
      stretch.idle = true := by
    intro stretch hstretch
    rw [not_not.1 (of_decide_eq_false hstretch)]
    rfl
  rw [steps, List.foldl_append, foldl_filter_leads (by simp), ← List.foldl_append,
    p.leadingDot_append_body, pieces, foldl_filter_leads hblank]

/-- The last step of a path leads from the destination of its parent to its own. -/
theorem destination_of_parent (h : p.parent? = some q) (current : Location) :
    ∃ piece : PathPiece, p.destination current = piece.leads (q.destination current) := by
  obtain ⟨-, _, piece, _, -, -, hsteps⟩ := exists_piece_of_parent h
  refine ⟨piece, ?_⟩
  rw [destination, hsteps, ← origin_of_parent h, List.foldl_append]
  rfl

/-- The levels of a path are its destination and the levels of its parent. -/
theorem levels_eq (current : Location) (p : Path) :
    p.levels current = p.destination current :: (p.parent?.map (levels current)).getD [] := by
  unfold levels destination
  cases hparent : p.parent? with
  | none =>
      rw [parent?_eq_none_iff.1 hparent]
      rfl
  | some q =>
      obtain ⟨-, _, piece, _, -, -, hsteps⟩ := exists_piece_of_parent hparent
      rw [hsteps, ← origin_of_parent hparent, List.scanl_append, List.foldl_append,
        List.reverse_append]
      rfl

/-- The origin is a level. -/
theorem origin_mem_levels (current : Location) (p : Path) :
    p.origin current ∈ p.levels current :=
  List.mem_reverse.2 (List.mem_of_mem_head? List.head?_scanl)

/-- A piece leads to a location that has at most one name more. -/
theorem length_leads_le (piece : PathPiece) (origin : Location) :
    (piece.leads origin).length ≤ origin.length + 1 := by
  cases piece with
  | blank | here => exact Nat.le_succ _
  | up =>
      show origin.dropLast.length ≤ origin.length + 1
      rw [List.length_dropLast]
      omega
  | name text =>
      show (origin ++ [text]).length ≤ origin.length + 1
      rw [List.length_append, List.length_singleton]

/-- The levels do not go up by more than one name at a time, so before they come to a shorter
location they come to one of each length up to that of the destination. -/
theorem exists_level_of_length {before after : List Location} {level : Location} {n : Nat}
    (hlevels : p.levels current = before ++ level :: after) (hlevel : level.length < n)
    (hn : n ≤ (p.destination current).length) : ∃ deeper ∈ before, deeper.length = n := by
  induction p using candidates.induct generalizing before with
  | case1 p ih =>
      rw [levels_eq] at hlevels
      cases before with
      | nil =>
          obtain ⟨rfl, -⟩ := List.cons.inj hlevels
          exact absurd hlevel (Nat.not_lt.2 hn)
      | cons first rest =>
          obtain ⟨rfl, hrest⟩ := List.cons.inj hlevels
          rcases Nat.eq_or_lt_of_le hn with heq | hlt
          · exact ⟨_, List.mem_cons_self, heq.symm⟩
          · cases hparent : p.parent? with
            | none =>
                rw [hparent] at hrest
                simp at hrest
            | some q =>
                rw [hparent] at hrest
                obtain ⟨piece, hpiece⟩ := destination_of_parent hparent current
                have hstep := length_leads_le piece (q.destination current)
                rw [← hpiece] at hstep
                obtain ⟨deeper, hdeeper, hlength⟩ := ih q hparent hrest (by omega)
                exact ⟨deeper, List.mem_cons_of_mem _ hdeeper, hlength⟩

/-! ## Direct paths -/

/-- The path leads through nothing but locations between its origin and its destination. -/
def Direct (current : Location) (p : Path) : Prop :=
  ∀ level ∈ p.levels current, p.origin current <+: level ∧ level <+: p.destination current

/-- Whether a path is direct is decided by its levels. -/
instance (current : Location) (p : Path) : Decidable (p.Direct current) :=
  inferInstanceAs (Decidable (∀ level ∈ p.levels current, _ ∧ _))

/-- The levels of a direct path come to each location above its destination before they come to a
shorter one. -/
theorem Direct.mem_before (h : p.Direct current) {before after : List Location}
    {level deeper : Location} (hlevels : p.levels current = before ++ level :: after)
    (hdeeper : deeper <+: p.destination current) (hlength : level.length < deeper.length) :
    deeper ∈ before := by
  obtain ⟨other, hother, heq⟩ := exists_level_of_length hlevels hlength hdeeper.length_le
  have hmem : other ∈ p.levels current := hlevels ▸ List.mem_append_left _ hother
  -- Of each length there is only one location above the destination.
  have hprefix := List.prefix_of_prefix_length_le (h other hmem).2 hdeeper (Nat.le_of_eq heq)
  exact hprefix.eq_of_length heq ▸ hother

/-- A direct path leads through every location between its origin and its destination. -/
theorem Direct.mem_levels_iff (h : p.Direct current) {level : Location} :
    level ∈ p.levels current ↔
      p.origin current <+: level ∧ level <+: p.destination current := by
  refine ⟨h level, fun ⟨hlow, hhigh⟩ => ?_⟩
  rcases Nat.eq_or_lt_of_le hlow.length_le with heq | hlt
  · rw [← hlow.eq_of_length heq]
    exact origin_mem_levels current p
  · obtain ⟨before, after, hlevels⟩ := List.append_of_mem (origin_mem_levels current p)
    exact hlevels ▸ List.mem_append_left _ (h.mem_before hlevels hhigh hlt)

/-- Only two dots lead out of where they are. -/
theorem prefix_leads {piece : PathPiece} (h : piece ≠ .up) (origin : Location) :
    origin <+: piece.leads origin := by
  cases piece with
  | blank | here => exact List.prefix_rfl
  | up => exact absurd rfl h
  | name text => exact List.prefix_append origin [text]

/-- Without two dots pieces lead to a location below the one where they begin. -/
theorem prefix_foldl_leads {pieces : List PathPiece} (h : .up ∉ pieces) (origin : Location) :
    origin <+: pieces.foldl PathPiece.leads origin := by
  induction pieces generalizing origin with
  | nil => exact List.prefix_rfl
  | cons piece rest ih =>
      obtain ⟨hpiece, hrest⟩ := List.ne_and_not_mem_of_not_mem_cons h
      exact (prefix_leads hpiece.symm origin).trans (ih hrest (piece.leads origin))

/-- Without two dots pieces lead through locations between the one where they begin and the one that
they lead to. -/
theorem between_of_mem_scanl_leads {pieces : List PathPiece} (h : .up ∉ pieces)
    {origin level : Location} (hlevel : level ∈ pieces.scanl PathPiece.leads origin) :
    origin <+: level ∧ level <+: pieces.foldl PathPiece.leads origin := by
  induction pieces generalizing origin with
  | nil =>
      obtain rfl := List.mem_singleton.1 (List.scanl_nil ▸ hlevel)
      exact ⟨List.prefix_rfl, List.prefix_rfl⟩
  | cons piece rest ih =>
      obtain ⟨hpiece, hrest⟩ := List.ne_and_not_mem_of_not_mem_cons h
      rw [List.scanl_cons, List.mem_cons] at hlevel
      rcases hlevel with rfl | hlevel
      · exact ⟨List.prefix_rfl, prefix_foldl_leads h level⟩
      · obtain ⟨hlow, hhigh⟩ := ih hrest hlevel
        exact ⟨(prefix_leads hpiece.symm origin).trans hlow, hhigh⟩

/-- A path without two dots has no step of two dots. -/
theorem up_notMem_steps (h : .up ∉ p.pieces) : .up ∉ p.steps := by
  intro hmem
  have hstretch : .up ∈ p.stretches := by
    rw [← p.leadingDot_append_body]
    rcases List.mem_append.1 hmem with hmem | hmem
    · exact List.mem_append_left _ hmem
    · exact List.mem_append_right _ (List.mem_of_mem_filter hmem)
  exact h (List.mem_filter.2 ⟨hstretch, by decide⟩)

/-- A path without two dots is direct. -/
theorem direct_of_up_notMem (h : .up ∉ p.pieces) (current : Location) : p.Direct current :=
  fun _ hlevel => between_of_mem_scanl_leads (up_notMem_steps h) (List.mem_reverse.1 hlevel)

end Path

namespace FileSystem

variable {fs : FileSystem} {current origin location directory : Location} {p q : Path}

/-- A way through pieces and then others goes on from where the first lead. -/
theorem walk_append (fs : FileSystem) (origin : Location) (first second : List PathPiece) :
    fs.walk origin (first ++ second) =
      fs.walk origin first >>= fun location => fs.walk location second := by
  induction first generalizing origin with
  | nil => rfl
  | cons piece rest ih =>
      rw [List.cons_append, walk_cons, walk_cons]
      split
      · rfl
      · exact ih (piece.leads origin)
      · rfl

/-- A way that goes on after a location begins in a directory there. -/
theorem lookup_of_walk_cons {piece : PathPiece} {rest : List PathPiece}
    (h : fs.walk origin (piece :: rest) = .ok location) :
    fs.lookup origin = some .directory ∧ fs.walk (piece.leads origin) rest = .ok location := by
  rw [walk_cons] at h
  split at h
  · cases h
  · rename_i hdirectory
    exact ⟨hdirectory, h⟩
  · cases h

/-- A way leads where its pieces do. -/
theorem eq_foldl_of_walk {pieces : List PathPiece} (h : fs.walk origin pieces = .ok location) :
    location = pieces.foldl PathPiece.leads origin := by
  induction pieces generalizing origin with
  | nil =>
      cases h
      rfl
  | cons piece rest ih => exact ih (lookup_of_walk_cons h).2

/-- The path leads from its origin to the directory, which exists. -/
structure Reaches (fs : FileSystem) (current : Location) (p : Path) (directory : Location) :
    Prop where
  walk_eq : fs.walk (p.origin current) p.pieces = .ok directory
  lookup_eq : fs.lookup directory = some .directory

/-- The directory that a path leads to is its destination. -/
theorem Reaches.destination_eq (h : fs.Reaches current p directory) :
    p.destination current = directory := by
  rw [eq_foldl_of_walk h.walk_eq, Path.foldl_pieces]
  rfl

/-- The parent of a path that leads to a directory leads to a directory. -/
theorem Reaches.of_parent (h : fs.Reaches current p directory) (hparent : p.parent? = some q) :
    ∃ above, fs.Reaches current q above := by
  obtain ⟨piece, rest, hpieces⟩ := Path.pieces_eq_of_parent hparent
  have hwalk := h.walk_eq
  rw [hpieces, walk_append, ← Path.origin_of_parent hparent] at hwalk
  cases hinit : fs.walk (q.origin current) q.pieces with
  | error cause =>
      rw [hinit] at hwalk
      cases hwalk
  | ok above =>
      rw [hinit] at hwalk
      exact ⟨above, hinit, (lookup_of_walk_cons hwalk).1⟩

/-- A path with pieces is located by following them from its origin. -/
theorem locate_of_pieces_ne_nil (h : p.pieces ≠ []) :
    fs.locate current p = fs.walk (p.origin current) p.pieces := by
  unfold locate Path.origin
  cases p.absolute with
  | true => rfl
  | false => exact if_neg h

/-- Where a path is located, following its pieces leads there. -/
theorem walk_of_locate (h : fs.locate current p = .ok location) :
    fs.walk (p.origin current) p.pieces = .ok location := by
  unfold locate at h
  unfold Path.origin
  split_ifs at h ⊢
  · exact h
  · exact h

/-- The entry of a directory that a path leads to is located below it. -/
theorem Reaches.locate_entry (h : fs.Reaches current p directory) (name : String) :
    fs.locate current (p.entry name) = .ok (directory ++ [name]) := by
  rw [locate_of_pieces_ne_nil (by simp [Path.pieces_entry])]
  show fs.walk (p.origin current) (p.entry name).pieces = .ok (directory ++ [name])
  rw [Path.pieces_entry, walk_append, h.walk_eq]
  show fs.walk directory [.name name] = .ok (directory ++ [name])
  rw [walk_cons, h.lookup_eq]
  rfl

/-- The entry exists exactly if something stands at that location. -/
theorem Reaches.exists?_entry (h : fs.Reaches current p directory) (name : String) :
    fs.exists? current (p.entry name) = (fs.lookup (directory ++ [name])).isSome := by
  have hslash : (p.entry name).slash = false := rfl
  unfold exists?
  rw [h.locate_entry name]
  dsimp only
  split <;> simp_all

/-- The path names the directory, which exists. -/
structure Names (fs : FileSystem) (current : Location) (p : Path) (directory : Location) : Prop
    where
  locate_eq : fs.locate current p = .ok directory
  lookup_eq : fs.lookup directory = some .directory

/-- A path leads to the directory that it names. -/
theorem Names.reaches (h : fs.Names current p directory) : fs.Reaches current p directory :=
  ⟨walk_of_locate h.locate_eq, h.lookup_eq⟩

end FileSystem

end CheckedExecution
