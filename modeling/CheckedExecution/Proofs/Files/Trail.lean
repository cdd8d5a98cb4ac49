import CheckedExecution.Proofs.Files.Locations

/-!
# What following a path looks at

Following a path looks at one location after the other, from where it begins to where it leads, and
ends at the first that is not a directory (`trail`). Nothing else of a file system matters: on two
that agree at these locations a path leads to the same place (`locate_congr`), exists in both or in
neither (`exists?_congr`) and reads the same (`read_congr`).
-/

namespace CheckedExecution

/-- The location that a piece leads to from a directory. -/
def PathPiece.leads (origin : Location) : PathPiece → Location
  | blank | here => origin
  | up => origin.dropLast
  | name text => origin ++ [text]

namespace FileSystem

/-- The locations that are looked at on the way along the pieces, the last one included. -/
def trail (fs : FileSystem) (origin : Location) : List PathPiece → List Location
  | [] => [origin]
  | piece :: rest =>
      origin ::
        if fs.lookup origin = some .directory then fs.trail (piece.leads origin) rest else []

/-- The locations that are looked at on the way along a path. The empty path has none. -/
def lookedAt (fs : FileSystem) (current : Location) (path : Path) : List Location :=
  if path.absolute then fs.trail [] path.pieces
  else if path.pieces = [] then []
  else fs.trail current path.pieces

/-- The same stands in both file systems at each of the locations. -/
def Agrees (other fs : FileSystem) (locations : List Location) : Prop :=
  ∀ location ∈ locations, other.lookup location = fs.lookup location

variable {fs other : FileSystem} {origin location current : Location} {path : Path}

/-- A way goes on with the next piece if it begins in a directory. -/
theorem walk_cons (fs : FileSystem) (origin : Location) (piece : PathPiece)
    (rest : List PathPiece) :
    fs.walk origin (piece :: rest) =
      match fs.lookup origin with
      | none => .error .notFound
      | some .directory => fs.walk (piece.leads origin) rest
      | some _ => .error .notADirectory := by
  cases piece <;> rfl

/-- From a directory the trail goes on where the piece leads. -/
theorem trail_cons_of_directory (h : fs.lookup origin = some .directory) (piece : PathPiece)
    (rest : List PathPiece) :
    fs.trail origin (piece :: rest) = origin :: fs.trail (piece.leads origin) rest := by
  rw [trail, if_pos h]

/-- Every trail begins where the way does. -/
theorem mem_trail_origin (fs : FileSystem) (origin : Location) (pieces : List PathPiece) :
    origin ∈ fs.trail origin pieces := by
  cases pieces <;> exact List.mem_cons_self

/-- Where a way leads is on its trail. -/
theorem mem_trail_of_walk {pieces : List PathPiece} (h : fs.walk origin pieces = .ok location) :
    location ∈ fs.trail origin pieces := by
  induction pieces generalizing origin with
  | nil =>
      cases h
      exact fs.mem_trail_origin location []
  | cons piece rest ih =>
      rw [walk_cons] at h
      split at h
      · cases h
      · rename_i hdirectory
        rw [trail_cons_of_directory hdirectory]
        exact List.mem_cons_of_mem origin (ih h)
      · cases h

/-- Where the file systems agree along a trail, the way leads to the same place. -/
theorem walk_congr {pieces : List PathPiece} (h : other.Agrees fs (fs.trail origin pieces)) :
    other.walk origin pieces = fs.walk origin pieces := by
  induction pieces generalizing origin with
  | nil => rfl
  | cons piece rest ih =>
      rw [walk_cons, walk_cons, h origin (fs.mem_trail_origin origin _)]
      split
      · rfl
      · rename_i hdirectory
        rw [trail_cons_of_directory hdirectory] at h
        exact ih fun location hlocation => h location (List.mem_cons_of_mem origin hlocation)
      · rfl

/-- Where a path leads is among the locations that are looked at. -/
theorem mem_lookedAt_of_locate (h : fs.locate current path = .ok location) :
    location ∈ fs.lookedAt current path := by
  unfold locate at h
  unfold lookedAt
  split_ifs at h ⊢
  · exact mem_trail_of_walk h
  · exact mem_trail_of_walk h

/-- Where a path leads depends on the locations that are looked at. -/
theorem locate_congr (h : other.Agrees fs (fs.lookedAt current path)) :
    other.locate current path = fs.locate current path := by
  unfold lookedAt at h
  unfold locate
  split_ifs at h ⊢
  · exact walk_congr h
  · rfl
  · exact walk_congr h

/-- What exists at a path depends on the locations that are looked at. -/
theorem exists?_congr (h : other.Agrees fs (fs.lookedAt current path)) :
    other.exists? current path = fs.exists? current path := by
  rw [Bool.eq_iff_iff, exists?_iff, exists?_iff, locate_congr h]
  refine exists_congr fun location => exists_congr fun entry => and_congr_right fun hlocate => ?_
  rw [h location (mem_lookedAt_of_locate hlocate)]

/-- What is read along a path depends on the locations that are looked at. -/
theorem read_congr (h : other.Agrees fs (fs.lookedAt current path)) :
    other.read current path = fs.read current path := by
  unfold read
  rw [locate_congr h]
  cases hlocate : fs.locate current path with
  | error cause => rfl
  | ok location =>
      have hlookup := h location (mem_lookedAt_of_locate hlocate)
      simp only [bind, Except.bind, hlookup]

end FileSystem

end CheckedExecution
