import CheckedExecution.Files.FileSystem
import Mathlib.Data.List.Infix

/-!
# Paths through names

A path from the root through names leads to the location of these names as long as everything above
it is a directory (`walk_names`). What stands there is then what a look-up of the location finds, so
existence, reading and writing along such a path are statements about locations (`exists?_ofNames`,
`read_ofNames`, `write_ofNames`).
-/

namespace CheckedExecution

namespace Path

/-- The path of an entry of a directory goes through one more name. -/
theorem entry_ofNames (names : Location) (name : String) :
    (ofNames names).entry name = ofNames (names ++ [name]) := by
  simp [ofNames, entry]

/-- The root has no parent. -/
theorem parent?_ofNames_nil : (ofNames []).parent? = none := rfl

/-- Names are pieces. -/
theorem pieces_ofNames (names : Location) : (ofNames names).pieces = names.map .name :=
  List.filter_eq_self.2 fun stretch hstretch => by
    obtain ⟨name, -, rfl⟩ := List.mem_map.1 hstretch
    rfl

/-- No name is left out at the end. -/
theorem trimEnd_names (names : Location) :
    trimEnd (names.map .name) = names.map PathPiece.name := by
  induction names with
  | nil => rfl
  | cons name rest ih =>
      rw [List.map_cons, trimEnd, ih]
      exact if_neg fun h => nomatch h.2

/-- The parent of any other path through names has one name less. -/
theorem parent?_ofNames_append (names : Location) (name : String) :
    (ofNames (names ++ [name])).parent? = some (ofNames names) := by
  have hlead : (ofNames (names ++ [name])).leadingDot = [] := if_neg fun h => nomatch h.1
  have hbody : (ofNames (names ++ [name])).body = (names ++ [name]).map .name := by
    rw [body, hlead]
    rfl
  rw [parent?, hbody, trimEnd_names, hlead, List.map_append, List.map_singleton,
    List.dropLast_concat, trimEnd_names, if_neg (by simp)]
  rfl

end Path

namespace FileSystem

/-- The entry stands at the location, and everything above the location is a directory. -/
structure Stands (fs : FileSystem) (location : Location) (entry : Entry) : Prop where
  lookup_eq : fs.lookup location = some entry
  lookup_above : ∀ above, above <+: location → above ≠ location →
    fs.lookup above = some .directory

/-- What stands at a location is decided by looking at the locations above it. -/
instance (fs : FileSystem) (location : Location) (entry : Entry) :
    Decidable (fs.Stands location entry) :=
  decidable_of_iff (fs.lookup location = some entry ∧ ∀ above ∈ location.inits,
    above ≠ location → fs.lookup above = some .directory)
    ⟨fun h => ⟨h.1, fun above habove => h.2 above ((List.mem_inits above location).2 habove)⟩,
      fun h => ⟨h.lookup_eq, fun above habove =>
        h.lookup_above above ((List.mem_inits above location).1 habove)⟩⟩

/-- What reading the entry gives. -/
def contentOf : Entry → Except FileError (List UInt8)
  | .file content => .ok content
  | .locked => .error .permissionDenied
  | .directory => .error .isADirectory

variable {fs : FileSystem} {location : Location} {entry : Entry}

/-- Above an entry of a directory is nothing but directories. -/
theorem Stands.lookup_above_append (hdirectory : fs.Stands location .directory) (name : String) :
    ∀ above, above <+: location ++ [name] → above ≠ location ++ [name] →
      fs.lookup above = some .directory := by
  intro above hinitial hne
  rcases List.prefix_concat_iff.1 hinitial with rfl | habove
  · exact absurd rfl hne
  · by_cases heq : above = location
    · rw [heq]
      exact hdirectory.lookup_eq
    · exact hdirectory.lookup_above above habove heq

/-- Below a directory stands whatever a look-up finds. -/
theorem Stands.of_lookup (hdirectory : fs.Stands location .directory) {name : String}
    (h : fs.lookup (location ++ [name]) = some entry) : fs.Stands (location ++ [name]) entry :=
  ⟨h, hdirectory.lookup_above_append name⟩

/-- Everything above a location where something stands is a directory with directories above. -/
theorem Stands.above (h : fs.Stands location entry) {above : Location}
    (hinitial : above <+: location) (hne : above ≠ location) : fs.Stands above .directory := by
  refine ⟨h.lookup_above above hinitial hne, fun higher hhigher hne' => ?_⟩
  refine h.lookup_above higher (hhigher.trans hinitial) fun heq => hne ?_
  subst heq
  exact hinitial.eq_of_length_le hhigher.length_le

/-- Names lead from one directory down to the next. -/
theorem walk_names (fs : FileSystem) (origin names : Location) :
    fs.walk origin (names.map .name) = .ok location ↔
      location = origin ++ names ∧ ∀ above, above <+: names → above ≠ names →
        fs.lookup (origin ++ above) = some .directory := by
  -- Each name moves the origin, so the induction is for all origins at once.
  induction names generalizing origin with
  | nil =>
      simp only [List.map_nil, walk, Except.ok.injEq, List.append_nil, List.prefix_nil]
      exact ⟨fun h => ⟨h.symm, fun _ h hne => absurd h hne⟩, fun h => h.1.symm⟩
  | cons name rest ih =>
      rw [List.map_cons, walk]
      have hroot : (∀ above, above <+: name :: rest → above ≠ name :: rest →
          fs.lookup (origin ++ above) = some .directory) →
          fs.lookup origin = some .directory := by
        intro h
        have hnil := h [] List.nil_prefix (List.cons_ne_nil name rest).symm
        rwa [List.append_nil] at hnil
      cases hlookup : fs.lookup origin with
      | none =>
          refine ⟨fun h => (nomatch h), fun h => ?_⟩
          rw [hlookup] at hroot
          exact nomatch hroot h.2
      | some entry =>
          cases entry with
          | file _ | locked =>
              refine ⟨fun h => (nomatch h), fun h => ?_⟩
              rw [hlookup] at hroot
              exact nomatch hroot h.2
          | directory =>
              dsimp only
              rw [ih, List.append_assoc, List.singleton_append]
              refine and_congr_right fun _ =>
                ⟨fun h above hinitial hne => ?_, fun h above hinitial hne => ?_⟩
              · rcases List.prefix_cons_iff.1 hinitial with rfl | ⟨further, rfl, hfurther⟩
                · rw [List.append_nil]
                  exact hlookup
                · have hbelow := h further hfurther fun heq => hne (heq ▸ rfl)
                  rwa [List.append_assoc, List.singleton_append] at hbelow
              · rw [List.append_assoc, List.singleton_append]
                exact h (name :: above) ((List.prefix_cons_inj name).2 hinitial) fun heq =>
                  hne (List.cons.inj heq).2

variable (current : Location)

/-- Something exists at a path exactly if an entry is where the path leads. A separator at the end
asks for a directory. -/
theorem exists?_iff (fs : FileSystem) (path : Path) :
    fs.exists? current path = true ↔ ∃ location entry, fs.locate current path = .ok location ∧
      fs.lookup location = some entry ∧ (path.slash = true → entry = .directory) := by
  unfold exists?
  cases fs.locate current path with
  | error cause => simp
  | ok location =>
      cases hlookup : fs.lookup location with
      | none => simp [hlookup]
      | some entry => cases entry <;> simp [hlookup]

/-- Reading along a path without a separator at the end reads the entry where the path leads. -/
theorem read_of_lookup {path : Path} (hlocate : fs.locate current path = .ok location)
    (hlookup : fs.lookup location = some entry) (hslash : path.slash = false) :
    fs.read current path = contentOf entry := by
  simp only [read, hlocate, hlookup, hslash, bind, Except.bind]
  cases entry <;> rfl

/-- A path through names leads to the location of these names, if anywhere. -/
theorem locate_ofNames (fs : FileSystem) (names : Location) :
    fs.locate current (.ofNames names) = .ok location ↔
      location = names ∧ ∀ above, above <+: names → above ≠ names →
        fs.lookup above = some .directory := by
  show fs.walk [] (Path.ofNames names).pieces = .ok location ↔ _
  rw [Path.pieces_ofNames, walk_names, List.nil_append]
  simp only [List.nil_append]

/-- Something exists at a path through names exactly if an entry stands at their location. -/
theorem exists?_ofNames (fs : FileSystem) (names : Location) :
    fs.exists? current (.ofNames names) = true ↔ ∃ entry, fs.Stands names entry := by
  rw [exists?_iff]
  constructor
  · rintro ⟨location, entry, hlocate, hlookup, -⟩
    obtain ⟨rfl, habove⟩ := (locate_ofNames current fs names).1 hlocate
    exact ⟨entry, hlookup, habove⟩
  · rintro ⟨entry, hlookup, habove⟩
    exact ⟨names, entry, (locate_ofNames current fs names).2 ⟨rfl, habove⟩, hlookup,
      fun hslash => nomatch hslash⟩

/-- Reading along a path through names reads the entry that stands at their location. -/
theorem read_ofNames {names : Location} (h : fs.Stands names entry) :
    fs.read current (.ofNames names) = contentOf entry :=
  read_of_lookup current ((locate_ofNames current fs names).2 ⟨rfl, h.lookup_above⟩) h.lookup_eq rfl

/-- Writing to a new name of a directory makes a file there. -/
theorem write_ofNames {names : Location} {name : String} (hdirectory : fs.Stands names .directory)
    (hnew : fs.lookup (names ++ [name]) = none) (content : List UInt8) :
    fs.write current (.ofNames (names ++ [name])) content =
      .ok (fs.insert (names ++ [name]) (.file content)) := by
  have hlocate := (locate_ofNames current fs _).2 ⟨rfl, hdirectory.lookup_above_append name⟩
  simp only [write, hlocate, hnew, bind, Except.bind]
  rfl

/-! ## What stays -/

/-- Everything that stands in the earlier file system stands in the later one too. -/
def Extends (later earlier : FileSystem) : Prop :=
  ∀ location entry, earlier.lookup location = some entry → later.lookup location = some entry

/-- A file system that nothing happens to stays. -/
theorem Extends.refl (fs : FileSystem) : fs.Extends fs :=
  fun _ _ h => h

/-- What stays twice stays. -/
theorem Extends.trans {first second third : FileSystem} (h : third.Extends second)
    (h' : second.Extends first) : third.Extends first :=
  fun location entry hentry => h location entry (h' location entry hentry)

/-- What stands below directories still does when everything stays. -/
theorem Extends.stands {later : FileSystem} (h : later.Extends fs)
    (hstands : fs.Stands location entry) : later.Stands location entry :=
  ⟨h location entry hstands.lookup_eq, fun above hinitial hne =>
    h above .directory (hstands.lookup_above above hinitial hne)⟩

/-- A new entry leaves the others. -/
theorem extends_insert (hnew : fs.lookup location = none) (entry : Entry) :
    (fs.insert location entry).Extends fs := by
  intro other otherEntry hother
  have hroot : location ≠ [] := by
    rintro rfl
    cases hnew
  have hne : other ≠ location := by
    rintro rfl
    rw [hnew] at hother
    cases hother
  rw [lookup_insert fs entry other hroot, if_neg hne]
  exact hother

/-- Writing to a path where nothing exists leaves everything that does. -/
theorem extends_write {path : Path} {content : List UInt8} {later : FileSystem}
    (hnew : fs.exists? current path = false) (h : fs.write current path content = .ok later) :
    later.Extends fs := by
  unfold exists? at hnew
  unfold write at h
  cases hlocate : fs.locate current path with
  | error cause =>
      rw [hlocate] at h
      cases h
  | ok location =>
      simp only [hlocate, bind, Except.bind] at hnew h
      cases hslash : path.slash with
      | true =>
          rw [hslash] at h
          cases h
      | false =>
          rw [hslash] at h hnew
          cases hlookup : fs.lookup location with
          | none =>
              rw [hlookup] at h
              cases h
              exact extends_insert hlookup _
          | some entry =>
              rw [hlookup] at h hnew
              cases entry with
              | directory => cases h
              | file _ | locked => cases hnew

end FileSystem

end CheckedExecution
