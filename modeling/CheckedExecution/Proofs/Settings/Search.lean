import CheckedExecution.Proofs.Execution.Unlogged
import CheckedExecution.Proofs.Files.Trail
import CheckedExecution.Proofs.Settings.Layers

/-!
# The search for the nearest file

The search comes to one ancestor of a path after the other and stops at the first where an entry has
the name of a file of settings. The entry it stops at decides, whatever is wrong with it, and
without one the build does (`Decided`). The main theorem, `nearest_candidate_decides`, says so of
every file system and of every other way to answer whether something exists and what it holds, and
that nothing counts but the entries that the search comes to.
-/

namespace CheckedExecution.Settings

variable {α : Type}

/-- The search by any means to tell what exists and to load it. -/
def search (stands : Path → Bool) (load : Path → α) (otherwise : α) (p : Path) : α :=
  match (p.candidates.map (·.entry fileName)).find? stands with
  | some path => load path
  | none => otherwise

/-- The search comes to the ancestor: at none of the nearer ones is there an entry. -/
structure Examined (stands : Path → Bool) (p : Path) (k : Nat) (candidate : Path) : Prop where
  ancestor_eq : p.ancestor? k = some candidate
  none_nearer : ∀ nearer other, nearer < k → p.ancestor? nearer = some other →
    stands (other.entry fileName) = false

/-- The result that the ancestors of a path decide on. -/
inductive Decided (stands : Path → Bool) (load : Path → α) (otherwise : α) (p : Path) : α → Prop
    where
  /-- The nearest entry is loaded. -/
  | nearest {k : Nat} {candidate : Path} :
      Examined stands p k candidate → stands (candidate.entry fileName) = true →
      Decided stands load otherwise p (load (candidate.entry fileName))
  /-- There is no entry. -/
  | absent :
      (∀ k candidate, p.ancestor? k = some candidate →
        stands (candidate.entry fileName) = false) →
      Decided stands load otherwise p otherwise

variable {stands : Path → Bool} {load : Path → α} {otherwise : α} {p q : Path} {result : α}

/-! ## One step -/

/-- The search takes the entry of the path itself, and otherwise goes on with the parent. -/
theorem search_eq (stands : Path → Bool) (load : Path → α) (otherwise : α) (p : Path) :
    search stands load otherwise p =
      if stands (p.entry fileName) then load (p.entry fileName)
      else
        match p.parent? with
        | none => otherwise
        | some q => search stands load otherwise q := by
  rw [search, Path.find?_candidates]
  cases stands (p.entry fileName) with
  | true => rfl
  | false => cases p.parent? <;> rfl

/-- The search comes to the path itself. -/
theorem examined_zero (stands : Path → Bool) (p : Path) : Examined stands p 0 p :=
  ⟨rfl, fun _ _ hnearer => absurd hnearer (Nat.not_lt_zero _)⟩

/-- What the search from the parent comes to, the search from a path without an entry does. -/
theorem Examined.of_parent (hparent : p.parent? = some q)
    (hhere : stands (p.entry fileName) = false) {k : Nat} {candidate : Path}
    (h : Examined stands q k candidate) : Examined stands p (k + 1) candidate := by
  have hancestor := (Path.ancestor?_of_parent hparent k).trans h.ancestor_eq
  refine ⟨hancestor, fun nearer other hlt hother => ?_⟩
  rcases Path.ancestor?_cases hother with ⟨-, rfl⟩ | ⟨l, _, rfl, hparent', hother⟩
  · exact hhere
  · cases hparent.symm.trans hparent'
    exact h.none_nearer l other (Nat.lt_of_succ_lt_succ hlt) hother

/-- A path without an entry leaves the decision to its parent. -/
theorem Decided.of_parent (hparent : p.parent? = some q) (hhere : stands (p.entry fileName) = false)
    (h : Decided stands load otherwise q result) : Decided stands load otherwise p result := by
  cases h with
  | nearest hexamined hstands => exact .nearest (hexamined.of_parent hparent hhere) hstands
  | absent habsent =>
      refine .absent fun k candidate hancestor => ?_
      rcases Path.ancestor?_cases hancestor with ⟨-, rfl⟩ | ⟨l, _, -, hparent', hancestor⟩
      · exact hhere
      · cases hparent.symm.trans hparent'
        exact habsent l candidate hancestor

/-- A path without an entry and without a parent leaves the decision to the build. -/
theorem Decided.of_end (hparent : p.parent? = none) (hhere : stands (p.entry fileName) = false) :
    Decided stands load otherwise p otherwise := by
  refine .absent fun k candidate hancestor => ?_
  rcases Path.ancestor?_cases hancestor with ⟨-, rfl⟩ | ⟨_, _, -, hparent', -⟩
  · exact hhere
  · cases hparent.symm.trans hparent'

/-! ## The whole search -/

/-- The search ends with a result that the ancestors decide on. -/
theorem decided_search (stands : Path → Bool) (load : Path → α) (otherwise : α) (p : Path) :
    Decided stands load otherwise p (search stands load otherwise p) := by
  induction p using Path.candidates.induct with
  | case1 p ih =>
      rw [search_eq]
      cases hhere : stands (p.entry fileName) with
      | true => exact .nearest (examined_zero stands p) hhere
      | false =>
          cases hparent : p.parent? with
          | none => exact .of_end hparent hhere
          | some q => exact .of_parent hparent hhere (ih q hparent)

/-- The search comes to one entry only. -/
theorem Examined.unique {k l : Nat} {candidate other : Path} (h : Examined stands p k candidate)
    (hother : Examined stands p l other) (hstands : stands (candidate.entry fileName) = true)
    (hstands' : stands (other.entry fileName) = true) : candidate = other := by
  rcases Nat.lt_trichotomy k l with hlt | rfl | hlt
  · rw [hother.none_nearer k candidate hlt h.ancestor_eq] at hstands
    cases hstands
  · exact Option.some.inj (h.ancestor_eq.symm.trans hother.ancestor_eq)
  · rw [h.none_nearer l other hlt hother.ancestor_eq] at hstands'
    cases hstands'

/-- The ancestors decide on one result. -/
theorem Decided.unique {other : α} (h : Decided stands load otherwise p result)
    (hother : Decided stands load otherwise p other) : result = other := by
  cases h with
  | nearest hexamined hstands =>
      cases hother with
      | nearest hexamined' hstands' => rw [hexamined.unique hexamined' hstands hstands']
      | absent habsent =>
          rw [habsent _ _ hexamined.ancestor_eq] at hstands
          cases hstands
  | absent habsent =>
      cases hother with
      | nearest hexamined hstands =>
          rw [habsent _ _ hexamined.ancestor_eq] at hstands
          cases hstands
      | absent => rfl

/-- The search ends with the result that the ancestors decide on. -/
theorem search_eq_iff : search stands load otherwise p = result ↔
    Decided stands load otherwise p result := by
  constructor
  · rintro rfl
    exact decided_search stands load otherwise p
  · exact (decided_search stands load otherwise p).unique

/-- Where no ancestor has an entry, the search comes to all of them. -/
theorem examined_of_absent
    (habsent : ∀ k candidate, p.ancestor? k = some candidate →
      stands (candidate.entry fileName) = false)
    {k : Nat} {candidate : Path} (h : p.ancestor? k = some candidate) :
    Examined stands p k candidate :=
  ⟨h, fun nearer other _ hother => habsent nearer other hother⟩

/-- The search comes to everything that is nearer than what it comes to. -/
theorem Examined.nearer {k l : Nat} {candidate other : Path} (h : Examined stands p k candidate)
    (hlt : l < k) (hother : p.ancestor? l = some other) : Examined stands p l other :=
  ⟨hother, fun nearer further hnearer => h.none_nearer nearer further (hnearer.trans hlt)⟩

/-- Only the entries that the search comes to count: whether they exist, and what loading one that
does gives. -/
theorem search_congr {stands' : Path → Bool} {load' : Path → α}
    (h : ∀ k candidate, Examined stands p k candidate →
      stands' (candidate.entry fileName) = stands (candidate.entry fileName) ∧
        (stands (candidate.entry fileName) = true →
          load' (candidate.entry fileName) = load (candidate.entry fileName))) :
    search stands' load' otherwise p = search stands load otherwise p := by
  have hdecided := decided_search stands load otherwise p
  rw [search_eq_iff]
  generalize search stands load otherwise p = result at hdecided
  cases hdecided with
  | nearest hexamined hstands =>
      obtain ⟨hexists, hload⟩ := h _ _ hexamined
      rw [← hload hstands]
      refine .nearest ⟨hexamined.ancestor_eq, fun nearer other hlt hother => ?_⟩
        (hexists.trans hstands)
      rw [(h nearer other (hexamined.nearer hlt hother)).1]
      exact hexamined.none_nearer nearer other hlt hother
  | absent habsent =>
      refine .absent fun k candidate hancestor => ?_
      rw [(h k candidate (examined_of_absent habsent hancestor)).1]
      exact habsent k candidate hancestor

/-! ## Settings -/

section Loading

variable (buildDefault : PanicMode) {files other : FileSystem} {current otherCurrent : Location}

/-- But for the log, loading a file is reading its settings. -/
theorem unlogged_loadFile (files : FileSystem) (current : Location) (path : Path)
    (shown : String) :
    (loadFile buildDefault files current path shown).unlogged =
      pure (ofFile buildDefault files current path) := by
  rw [loadFile]
  cases ofFile buildDefault files current path <;> rfl

/-- But for the log, loading from a directory is reading the settings of the nearest file. -/
theorem unlogged_loadDirectory (files : FileSystem) (current : Location) (directory : Path) :
    (loadDirectory buildDefault files current directory).unlogged =
      pure (ofDirectory buildDefault files current directory) := by
  rw [loadDirectory, ofDirectory]
  cases nearest? files current directory with
  | none => rfl
  | some path => exact unlogged_loadFile buildDefault files current path path.text

/-- The settings of the nearest file are found by a search of the file system. -/
theorem ofDirectory_eq_search (files : FileSystem) (current : Location) (p : Path) :
    ofDirectory buildDefault files current p =
      search (files.exists? current) (ofFile buildDefault files current) (.ok ⟨buildDefault⟩) p :=
  rfl

/-- The settings are what the nearest entry amounts to, be it a directory, not text or not settings.
-/
theorem ofDirectory_of_examined {k : Nat} {candidate : Path}
    (h : Examined (files.exists? current) p k candidate)
    (hexists : files.exists? current (candidate.entry fileName) = true) :
    ∃ location entry found, files.locate current (candidate.entry fileName) = .ok location ∧
      files.lookup location = some entry ∧ Holds (FileSystem.contentOf entry) found ∧
      ofDirectory buildDefault files current p = withDefault buildDefault found := by
  obtain ⟨location, entry, hlocate, hlookup, -⟩ :=
    (FileSystem.exists?_iff current files _).1 hexists
  obtain ⟨found, hfound⟩ := exists_holds (FileSystem.contentOf entry)
  refine ⟨location, entry, found, hlocate, hlookup, hfound, ?_⟩
  have hread := FileSystem.read_of_lookup current hlocate hlookup rfl
  rw [ofDirectory_eq_search, search_eq_iff.2 (.nearest h hexists)]
  exact ofFile_of_holds (hread ▸ hfound) buildDefault

/-- Whether the entries that the search comes to exist, and what they hold, is all that counts. -/
theorem ofDirectory_congr
    (h : ∀ k candidate, Examined (files.exists? current) p k candidate →
      other.exists? otherCurrent (candidate.entry fileName) =
          files.exists? current (candidate.entry fileName) ∧
        other.read otherCurrent (candidate.entry fileName) =
          files.read current (candidate.entry fileName)) :
    ofDirectory buildDefault other otherCurrent p = ofDirectory buildDefault files current p := by
  refine search_congr fun k candidate hexamined => ?_
  obtain ⟨hexists, hread⟩ := h k candidate hexamined
  refine ⟨hexists, fun _ => ?_⟩
  rw [ofFile, hread, ofFile]

/-- What stands at the locations on the way to these entries is all that counts. -/
theorem ofDirectory_congr_of_agrees
    (h : ∀ k candidate, Examined (files.exists? current) p k candidate →
      other.Agrees files (files.lookedAt current (candidate.entry fileName))) :
    ofDirectory buildDefault other current p = ofDirectory buildDefault files current p :=
  ofDirectory_congr buildDefault fun k candidate hexamined =>
    ⟨FileSystem.exists?_congr (h k candidate hexamined),
      FileSystem.read_congr (h k candidate hexamined)⟩

end Loading

/-- Loading from a directory always ends, since the path has one ancestor more than steps, and the
nearest ancestor with an entry decides on the result: it is that of loading this entry, a failure
included, and that of the build without one. No entry behind it and no other file counts. This holds
by whatever means existence is told and entries are loaded. -/
theorem nearest_candidate_decides (p : Path) :
    (∀ k, p.candidates[k]? = p.ancestor? k ∧
      ((p.ancestor? k).isSome = true ↔ k ≤ p.steps.length)) ∧
    (∀ buildDefault files current,
      (loadDirectory buildDefault files current p).value? =
        some (ofDirectory buildDefault files current p) ∧
      (∀ result, ofDirectory buildDefault files current p = result ↔
        Decided (files.exists? current) (ofFile buildDefault files current) (.ok ⟨buildDefault⟩) p
          result) ∧
      (∀ k candidate, Examined (files.exists? current) p k candidate →
        files.exists? current (candidate.entry fileName) = true →
        ∃ location entry found, files.locate current (candidate.entry fileName) = .ok location ∧
          files.lookup location = some entry ∧ Holds (FileSystem.contentOf entry) found ∧
          ofDirectory buildDefault files current p = withDefault buildDefault found) ∧
      (∀ (other : FileSystem) (otherCurrent : Location),
        (∀ k candidate, Examined (files.exists? current) p k candidate →
          other.exists? otherCurrent (candidate.entry fileName) =
              files.exists? current (candidate.entry fileName) ∧
            other.read otherCurrent (candidate.entry fileName) =
              files.read current (candidate.entry fileName)) →
        ofDirectory buildDefault other otherCurrent p =
          ofDirectory buildDefault files current p) ∧
      (∀ other : FileSystem,
        (∀ k candidate, Examined (files.exists? current) p k candidate →
          other.Agrees files (files.lookedAt current (candidate.entry fileName))) →
        ofDirectory buildDefault other current p = ofDirectory buildDefault files current p)) ∧
    ∀ {α : Type} (stands stands' : Path → Bool) (load load' : Path → α) (otherwise : α),
      (∀ result, search stands load otherwise p = result ↔
        Decided stands load otherwise p result) ∧
      ((∀ k candidate, Examined stands p k candidate →
        stands' (candidate.entry fileName) = stands (candidate.entry fileName) ∧
          (stands (candidate.entry fileName) = true →
            load' (candidate.entry fileName) = load (candidate.entry fileName))) →
        search stands' load' otherwise p = search stands load otherwise p) := by
  refine ⟨fun k => ⟨p.getElem?_candidates k, p.isSome_ancestor? k⟩,
    fun buildDefault files current => ⟨?_, ?_, ?_, ?_, ?_⟩, ?_⟩
  · have hunlogged := unlogged_loadDirectory buildDefault files current p
    exact (Execution.silent_of_unlogged hunlogged).2
  · exact fun result => search_eq_iff
  · exact fun k candidate => ofDirectory_of_examined buildDefault
  · exact fun other otherCurrent => ofDirectory_congr buildDefault
  · exact fun other => ofDirectory_congr_of_agrees buildDefault
  · exact fun stands stands' load load' otherwise => ⟨fun result => search_eq_iff, search_congr⟩

/-- An entry that cannot be read is not passed over for one that can. -/
example :
    ofDirectory .abort ⟨[(["a"], .directory), (["a", fileName], .directory),
      ([fileName], .file (Utf8.encode "[\"continue\"]"))]⟩ [] (.ofNames ["a"]) =
      .error (.unreadable .isADirectory) := by
  decide +kernel

end CheckedExecution.Settings
