import CheckedExecution.Proofs.Files.Levels
import CheckedExecution.Settings

/-!
# The search and the spelling of its path

The search for settings gives up the last piece of a path again and again, and so it comes to the
levels of the path, from the directory that the path names back to where the path begins
(`located_nearest?`). On a direct path, and so on any without two dots, these are the directory and
those above it, as far up as the root for a path that begins there and as far as the current
directory for any other. All such paths of either kind have the same settings for one directory
(`search_follows_spelling`). With two dots the search may come to directories that are not above the
one that is named (`two_dots_search_below`).
-/

namespace CheckedExecution.Settings

/-- An entry of the directory has the name of a file of settings, whatever it is. -/
def hasFile (files : FileSystem) (level : Location) : Bool :=
  (files.lookup (level ++ [fileName])).isSome

/-- The level is the nearest with an entry of the name of a file of settings, from the directory up
to the origin. -/
structure NearestFrom (files : FileSystem) (origin directory level : Location) : Prop where
  level_above : level <+: directory
  origin_above : origin <+: level
  has_file : hasFile files level = true
  none_below : ∀ deeper, deeper <+: directory → level.length < deeper.length →
    hasFile files deeper = false

variable {files : FileSystem} {current origin directory level other : Location} {p q : Path}

/-! ## Where the search comes to -/

/-- The search loads the file of the first level of its path that has one. -/
theorem located_nearest? (h : files.Reaches current p directory) :
    (nearest? files current p).map (files.locate current) =
      ((p.levels current).find? (hasFile files)).map fun level => .ok (level ++ [fileName]) := by
  induction p using Path.candidates.induct generalizing directory with
  | case1 p ih =>
      have hexists : files.exists? current (p.entry fileName) = hasFile files directory :=
        h.exists?_entry fileName
      rw [nearest?, Path.find?_candidates, Path.levels_eq, List.find?_cons, h.destination_eq,
        hexists]
      cases hasFile files directory with
      | true =>
          rw [if_pos rfl, Option.map_some, h.locate_entry fileName]
          rfl
      | false =>
          rw [if_neg Bool.false_ne_true]
          cases hparent : p.parent? with
          | none => rfl
          | some q =>
              obtain ⟨above, habove⟩ := h.of_parent hparent
              exact ih q hparent habove

/-- The file that the search finds is that of a level of its path. -/
theorem exists_level_of_nearest? {path : Path} (h : files.Reaches current p directory)
    (hpath : nearest? files current p = some path) :
    ∃ level ∈ p.levels current, files.locate current path = .ok (level ++ [fileName]) := by
  have hlocated := located_nearest? h
  rw [hpath, Option.map_some] at hlocated
  obtain ⟨level, hlevel, hlocate⟩ := Option.map_eq_some_iff.1 hlocated.symm
  exact ⟨level, List.mem_of_find?_eq_some hlevel, hlocate.symm⟩

/-- Where no level has a file, the settings are those of the build. -/
theorem ofDirectory_of_absent (h : files.Reaches current p directory)
    (habsent : ∀ level ∈ p.levels current, hasFile files level = false)
    (buildDefault : PanicMode) :
    ofDirectory buildDefault files current p = .ok ⟨buildDefault⟩ := by
  have hnone : (p.levels current).find? (hasFile files) = none :=
    List.find?_eq_none.2 fun level hlevel => Bool.eq_false_iff.1 (habsent level hlevel)
  have hlocated := located_nearest? h
  rw [hnone, Option.map_none, Option.map_eq_none_iff] at hlocated
  rw [ofDirectory, hlocated]

/-- What the search finds is the entry of a directory. -/
theorem slash_of_nearest? {path : Path} (h : nearest? files current p = some path) :
    path.slash = false := by
  obtain ⟨candidate, -, rfl⟩ := List.mem_map.1 (List.mem_of_find?_eq_some h)
  rfl

/-- Searches that come to one file have the same settings. -/
theorem ofDirectory_congr_of_located
    (h : (nearest? files current p).map (files.locate current) =
      (nearest? files current q).map (files.locate current)) (buildDefault : PanicMode) :
    ofDirectory buildDefault files current p = ofDirectory buildDefault files current q := by
  unfold ofDirectory
  cases hp : nearest? files current p with
  | none =>
      rw [hp] at h
      rw [Option.map_eq_none_iff.1 h.symm]
  | some path =>
      rw [hp] at h
      obtain ⟨path', hq, hlocate⟩ := Option.map_eq_some_iff.1 h.symm
      rw [hq]
      simp only [ofFile, FileSystem.read, hlocate, slash_of_nearest? hp, slash_of_nearest? hq]

/-! ## Direct paths -/

/-- There is one nearest level. -/
theorem NearestFrom.unique (h : NearestFrom files origin directory level)
    (hother : NearestFrom files origin directory other) : level = other := by
  rcases Nat.lt_trichotomy level.length other.length with hlt | heq | hlt
  · have hnone := h.none_below other hother.level_above hlt
    rw [hother.has_file] at hnone
    cases hnone
  · have habove :=
      List.prefix_of_prefix_length_le h.level_above hother.level_above (Nat.le_of_eq heq)
    exact habove.eq_of_length heq
  · have hnone := hother.none_below level h.level_above hlt
    rw [h.has_file] at hnone
    cases hnone

/-- The first level of a direct path that has a file is the nearest. -/
theorem nearestFrom_of_find? (hdirect : p.Direct current)
    (h : (p.levels current).find? (hasFile files) = some level) :
    NearestFrom files (p.origin current) (p.destination current) level := by
  obtain ⟨hlow, hhigh⟩ := hdirect level (List.mem_of_find?_eq_some h)
  obtain ⟨hfile, before, after, hlevels, hbefore⟩ := List.find?_eq_some_iff_append.1 h
  refine ⟨hhigh, hlow, hfile, fun deeper hdeeper hlength => ?_⟩
  simpa using hbefore deeper (hdirect.mem_before hlevels hdeeper hlength)

/-- On a direct path the search comes to the nearest level from the directory up to the origin. -/
theorem find?_levels_eq_some_iff (hdirect : p.Direct current) :
    (p.levels current).find? (hasFile files) = some level ↔
      NearestFrom files (p.origin current) (p.destination current) level := by
  constructor
  · exact nearestFrom_of_find? hdirect
  · intro h
    have hmem := hdirect.mem_levels_iff.2 ⟨h.origin_above, h.level_above⟩
    have hfound : ((p.levels current).find? (hasFile files)).isSome = true :=
      List.find?_isSome.2 ⟨level, hmem, h.has_file⟩
    obtain ⟨other, hother⟩ := Option.isSome_iff_exists.1 hfound
    rw [hother, h.unique (nearestFrom_of_find? hdirect hother)]

/-- Paths that lead to the same directory have the same settings if a level is the nearest for one
exactly if it is for the other. -/
theorem ofDirectory_congr_of_nearestFrom (hp : files.Reaches current p directory)
    (hq : files.Reaches current q directory) (hpdirect : p.Direct current)
    (hqdirect : q.Direct current)
    (h : ∀ level, NearestFrom files (p.origin current) directory level ↔
      NearestFrom files (q.origin current) directory level) (buildDefault : PanicMode) :
    ofDirectory buildDefault files current p = ofDirectory buildDefault files current q := by
  refine ofDirectory_congr_of_located ?_ buildDefault
  have hfind : (p.levels current).find? (hasFile files) =
      (q.levels current).find? (hasFile files) := by
    refine Option.ext fun level => ?_
    rw [find?_levels_eq_some_iff hpdirect, find?_levels_eq_some_iff hqdirect, hp.destination_eq,
      hq.destination_eq]
    exact h level
  rw [located_nearest? hp, located_nearest? hq, hfind]

/-- The nearest level from the root on is the nearest from another origin on if that has one. -/
theorem nearestFrom_iff_of_hasFile (hlow : origin <+: level) (hhigh : level <+: directory)
    (hfile : hasFile files level = true) :
    NearestFrom files origin directory other ↔ NearestFrom files [] directory other := by
  constructor
  · exact fun h => ⟨h.level_above, List.nil_prefix, h.has_file, h.none_below⟩
  · intro h
    have hle : level.length ≤ other.length := by
      by_contra hlt
      have hnone := h.none_below level hhigh (Nat.not_le.1 hlt)
      rw [hfile] at hnone
      cases hnone
    have habove := List.prefix_of_prefix_length_le hhigh h.level_above hle
    exact ⟨h.level_above, hlow.trans habove, h.has_file, h.none_below⟩

/-- The search goes back along its path: it loads the file of the first directory that has one, of
all that the path leads through, from the one that it names back to where it begins. So a direct
path, such as one without two dots, has the file of a directory at or above the one that it names.
For one directory all direct paths from the root have the same settings, and so have all from the
current directory. A path from the current directory agrees with one from the root if there is a
file on the way, and has the settings of the build if there is none, since it does not come to
anything above. -/
theorem search_follows_spelling (h : files.Names current p directory) (buildDefault : PanicMode) :
    (nearest? files current p).map (files.locate current) =
      ((p.levels current).find? (hasFile files)).map (fun level => .ok (level ++ [fileName])) ∧
    (.up ∉ p.pieces → p.Direct current) ∧
    (p.Direct current →
      (∀ path, nearest? files current p = some path →
        ∃ level, level <+: directory ∧
          files.locate current path = .ok (level ++ [fileName])) ∧
      ∀ q, q.Direct current → files.Names current q directory →
        (q.absolute = p.absolute →
          ofDirectory buildDefault files current q =
            ofDirectory buildDefault files current p) ∧
        (q.absolute = false → p.absolute = true →
          (∀ level, current <+: level → level <+: directory → hasFile files level = true →
            ofDirectory buildDefault files current q =
              ofDirectory buildDefault files current p) ∧
          ((∀ level, current <+: level → level <+: directory → hasFile files level = false) →
            ofDirectory buildDefault files current q = .ok ⟨buildDefault⟩))) := by
  have hp := h.reaches
  refine ⟨located_nearest? hp, fun hup => Path.direct_of_up_notMem hup current,
    fun hpdirect => ⟨fun path hpath => ?_, fun q hqdirect hqnames => ?_⟩⟩
  · obtain ⟨level, hlevel, hlocate⟩ := exists_level_of_nearest? hp hpath
    exact ⟨level, hp.destination_eq ▸ (hpdirect level hlevel).2, hlocate⟩
  · have hq := hqnames.reaches
    refine ⟨fun hsame => ?_, fun hqrelative hpabsolute => ⟨?_, fun habsent => ?_⟩⟩
    · have horigin : q.origin current = p.origin current := by
        rw [Path.origin, Path.origin, hsame]
      exact ofDirectory_congr_of_nearestFrom hq hp hqdirect hpdirect
        (fun level => by rw [horigin]) buildDefault
    · intro level hlow hhigh hfile
      refine ofDirectory_congr_of_nearestFrom hq hp hqdirect hpdirect (fun other => ?_)
        buildDefault
      rw [Path.origin, Path.origin, hqrelative, hpabsolute]
      exact nearestFrom_iff_of_hasFile hlow hhigh hfile
    · refine ofDirectory_of_absent hq (fun level hlevel => ?_) buildDefault
      obtain ⟨hlow, hhigh⟩ := hqdirect level hlevel
      rw [Path.origin, hqrelative] at hlow
      exact habsent level hlow (hq.destination_eq ▸ hhigh)

/-- A path from the root that goes into one directory twice and one from the current directory, for
this directory below a file of settings. -/
theorem both_spellings_find_file :
    let files : FileSystem :=
      ⟨[(["a"], .directory), (["a", "b"], .directory),
        (["a", fileName], .file (Utf8.encode "[\"continue\"]"))]⟩
    let long := Path.ofText "/a/./b/../b"
    let short := Path.ofText "b/"
    files.Names ["a"] long ["a", "b"] ∧ files.Names ["a"] short ["a", "b"] ∧
    long.Direct ["a"] ∧ short.Direct ["a"] ∧ hasFile files ["a"] = true ∧
    ofDirectory .abort files ["a"] short = ofDirectory .abort files ["a"] long ∧
    ofDirectory .abort files ["a"] long = .ok ⟨.proceed⟩ := by
  intro files long short
  have hlong : files.Names ["a"] long ["a", "b"] := ⟨by decide +kernel, by decide⟩
  have hshort : files.Names ["a"] short ["a", "b"] := ⟨by decide +kernel, by decide⟩
  have hlongDirect : long.Direct ["a"] := by decide +kernel
  have hshortDirect : short.Direct ["a"] := by decide +kernel
  have hfile : hasFile files ["a"] = true := by decide +kernel
  obtain ⟨-, -, hfollow⟩ := search_follows_spelling hlong .abort
  obtain ⟨-, hmixed⟩ := (hfollow hlongDirect).2 short hshortDirect hshort
  obtain ⟨hagree, -⟩ := hmixed (by decide +kernel) (by decide +kernel)
  exact ⟨hlong, hshort, hlongDirect, hshortDirect, hfile,
    hagree ["a"] List.prefix_rfl (List.prefix_append ["a"] ["b"]) hfile, by decide +kernel⟩

/-- Two paths that name one directory and have different settings: the one that ends in two dots has
the file of a directory below. Nor has a path of one dot the file of a directory above the current
one. -/
theorem two_dots_search_below :
    let files : FileSystem :=
      ⟨[(["a"], .directory), (["a", "b"], .directory),
        ([fileName], .file (Utf8.encode "[\"abort\"]")),
        (["a", "b", fileName], .file (Utf8.encode "[\"continue\"]"))]⟩
    files.Names [] (.ofText "a") ["a"] ∧ files.Names [] (.ofText "a/b/..") ["a"] ∧
    ofDirectory .abort files [] (.ofText "a") = .ok ⟨.abort⟩ ∧
    ofDirectory .abort files [] (.ofText "a/b/..") = .ok ⟨.proceed⟩ ∧
    (nearest? files [] (.ofText "a/b/..")).map (files.locate []) =
      some (.ok ["a", "b", fileName]) ∧
    files.Names ["a"] (.ofText ".") ["a"] ∧ files.Names ["a"] (.ofText "/a") ["a"] ∧
    ofDirectory .proceed files ["a"] (.ofText ".") = .ok ⟨.proceed⟩ ∧
    ofDirectory .proceed files ["a"] (.ofText "/a") = .ok ⟨.abort⟩ := by
  refine ⟨⟨?_, ?_⟩, ⟨?_, ?_⟩, ?_, ?_, ?_, ⟨?_, ?_⟩, ⟨?_, ?_⟩, ?_, ?_⟩ <;> decide +kernel

end CheckedExecution.Settings
