import CheckedExecution.Files.Path

/-!
# File systems

A file system says what stands at each location, a location being the names that lead to it from the
root. A path is followed piece by piece from a directory: every location that it passes through has
to be a directory, and two dots lead to the location above the one that was reached. Reading and
writing report why they fail.
-/

namespace CheckedExecution

/-- The names that lead from the root to an entry. -/
abbrev Location := List String

/-- What stands at a location. -/
inductive Entry where
  | file (content : List UInt8)
  /-- A file that may not be read or written. -/
  | locked
  | directory
  deriving DecidableEq

/-- Why a file cannot be read or written. -/
inductive FileError where
  | notFound
  | permissionDenied
  | isADirectory
  | notADirectory
  /-- The content is not text. -/
  | invalidData
  deriving DecidableEq

/-- The report of a failed access. -/
def FileError.message : FileError → String
  | notFound => "No such file or directory (os error 2)"
  | permissionDenied => "Permission denied (os error 13)"
  | isADirectory => "Is a directory (os error 21)"
  | notADirectory => "Not a directory (os error 20)"
  | invalidData => "stream did not contain valid UTF-8"

/-- The entries below the root, each with its location. -/
structure FileSystem where
  entries : List (Location × Entry)
  deriving DecidableEq

namespace FileSystem

/-- The file system with nothing but its root. -/
def empty : FileSystem :=
  ⟨[]⟩

/-- What stands at a location. The root is a directory. -/
def lookup (fs : FileSystem) (location : Location) : Option Entry :=
  if location = [] then some .directory else fs.entries.lookup location

/-- The file system with the entry at the location, and everything else as before. -/
def insert (fs : FileSystem) (location : Location) (entry : Entry) : FileSystem :=
  ⟨(location, entry) :: fs.entries.filter fun e => e.1 ≠ location⟩

/-- The location that the pieces lead to from a directory. Something need not stand there, but every
location on the way is a directory. -/
def walk (fs : FileSystem) (origin : Location) : List PathPiece → Except FileError Location
  | [] => .ok origin
  | piece :: rest =>
      match fs.lookup origin with
      | none => .error .notFound
      | some .directory =>
          match piece with
          | .blank | .here => fs.walk origin rest
          | .up => fs.walk origin.dropLast rest
          | .name name => fs.walk (origin ++ [name]) rest
      | some _ => .error .notADirectory

/-- The location that a path leads to, seen from the current directory. The empty path leads
nowhere. -/
def locate (fs : FileSystem) (current : Location) (path : Path) : Except FileError Location :=
  if path.absolute then fs.walk [] path.pieces
  else if path.pieces = [] then .error .notFound
  else fs.walk current path.pieces

/-- Something stands where the path leads. -/
def exists? (fs : FileSystem) (current : Location) (path : Path) : Bool :=
  match fs.locate current path with
  | .error _ => false
  | .ok location =>
      match fs.lookup location with
      | none => false
      | some .directory => true
      | some _ => !path.slash

/-- The content of the file that the path leads to. -/
def read (fs : FileSystem) (current : Location) (path : Path) : Except FileError (List UInt8) := do
  match fs.lookup (← fs.locate current path) with
  | none => .error .notFound
  | some .directory => .error .isADirectory
  | some (.file content) => if path.slash then .error .notADirectory else .ok content
  | some .locked => if path.slash then .error .notADirectory else .error .permissionDenied

/-- The file system with the content written to the file that the path leads to. The file is made if
it does not exist, but its directory is not. -/
def write (fs : FileSystem) (current : Location) (path : Path) (content : List UInt8) :
    Except FileError FileSystem := do
  let location ← fs.locate current path
  if path.slash then .error .isADirectory
  else
    match fs.lookup location with
    | some .directory => .error .isADirectory
    | some .locked => .error .permissionDenied
    | _ => .ok (fs.insert location (.file content))

/-- The file system with a directory at every location that the pieces pass through, and the
location they lead to. -/
def makeDirectories (fs : FileSystem) (origin : Location) :
    List PathPiece → Except FileError (FileSystem × Location)
  | [] => .ok (fs, origin)
  | .blank :: rest | .here :: rest => fs.makeDirectories origin rest
  | .up :: rest => fs.makeDirectories origin.dropLast rest
  | .name name :: rest =>
      let location := origin ++ [name]
      match fs.lookup location with
      | none => (fs.insert location .directory).makeDirectories location rest
      | some .directory => fs.makeDirectories location rest
      | some _ => .error .notADirectory

/-- What was inserted is found, and everything else as before. -/
theorem lookup_insert (fs : FileSystem) {location : Location} (entry : Entry) (other : Location)
    (h : location ≠ []) :
    (fs.insert location entry).lookup other =
      if other = location then some entry else fs.lookup other := by
  unfold lookup insert
  by_cases hroot : other = []
  · subst hroot
    simp [Ne.symm h]
  · by_cases heq : other = location
    · subst heq
      simp [hroot]
    · simp only [hroot, if_false, heq, List.lookup_cons, beq_eq_false_iff_ne.2 heq]
      induction fs.entries with
      | nil => rfl
      | cons e rest ih =>
          obtain ⟨key, value⟩ := e
          by_cases hkey : key = location
          · subst hkey
            simpa [List.lookup_cons, beq_eq_false_iff_ne.2 heq] using ih
          · simp only [List.filter_cons, hkey, ne_eq, not_false_eq_true, decide_true, if_true,
              List.lookup_cons]
            split
            · rfl
            · exact ih

end FileSystem

end CheckedExecution
