import CheckedExecution.Settings
import CheckedExecution.Proofs.Files.Ancestors
import CheckedExecution.Proofs.Files.Locations
import CheckedExecution.Proofs.Text.Blank
import Mathlib.Data.List.Induction

/-!
# Where the mode comes from

The panic mode is decided by layers: an option of the command line, the variable of the environment,
a file of settings, and at last the build (`decidedMode`). Which file that is and what it says is
told by `Found`, in terms of what stands at the locations above the current directory. Every
invocation finds one thing (`exists_found`), and the settings that are loaded are those of the file
that is found (`ofSource_of_found`).
-/

namespace CheckedExecution.Settings

/-! ## What a file says -/

/-- The settings of a mode that may be left open, and then is that of the build. -/
def withDefault (buildDefault : PanicMode) (found : Except SettingsError (Option PanicMode)) :
    Except SettingsError Settings :=
  found.map fun mode? => ⟨mode?.getD buildDefault⟩

/-- An error stays one. -/
@[simp]
theorem withDefault_error (buildDefault : PanicMode) (cause : SettingsError) :
    withDefault buildDefault (.error cause) = .error cause := rfl

/-- A mode that is left open is that of the build. -/
@[simp]
theorem withDefault_ok (buildDefault : PanicMode) (mode? : Option PanicMode) :
    withDefault buildDefault (.ok mode?) = .ok ⟨mode?.getD buildDefault⟩ := rfl

/-- What two builds make of a file tells what the file says. -/
theorem withDefault_injective {found other : Except SettingsError (Option PanicMode)}
    (h : ∀ buildDefault, withDefault buildDefault found = withDefault buildDefault other) :
    found = other := by
  cases found with
  | error cause =>
      cases other with
      | error otherCause => simpa using h .abort
      | ok otherMode? => cases h .abort
  | ok mode? =>
      cases other with
      | error otherCause => cases h .abort
      | ok otherMode? =>
          have hdefault : ∀ buildDefault,
              mode?.getD buildDefault = otherMode?.getD buildDefault := by
            simpa using h
          have habort := hdefault .abort
          have hproceed := hdefault .proceed
          -- Only a mode that is left open follows the build.
          cases mode? with
          | none =>
              cases otherMode? with
              | none => rfl
              | some mode => exact absurd (habort.trans hproceed.symm) (by decide)
          | some mode =>
              cases otherMode? with
              | none => exact absurd (habort.symm.trans hproceed) (by decide)
              | some otherMode => exact congrArg (fun mode => Except.ok (some mode)) habort

/-- `Holds content found` says what the content of a file amounts to, whatever the build: a mode, no
mode, or an error. -/
inductive Holds : Except FileError (List UInt8) → Except SettingsError (Option PanicMode) → Prop
    where
  /-- A file that cannot be read. -/
  | unreadable (cause : FileError) : Holds (.error cause) (.error (.unreadable cause))
  /-- Bytes that are not text. -/
  | undecodable {bytes : List UInt8} :
      Utf8.decode? bytes = none → Holds (.ok bytes) (.error (.unreadable .invalidData))
  /-- A text that describes settings or does not. -/
  | text {bytes : List UInt8} {text : String} {found : Except SettingsError (Option PanicMode)} :
      Utf8.decode? bytes = some text →
      (∀ buildDefault, ofJson buildDefault text = withDefault buildDefault found) →
      Holds (.ok bytes) found

/-- The level is the nearest at a directory or above it where an entry has the name of a file of
settings, whatever that entry is. -/
structure Nearest (files : FileSystem) (directory level : Location) : Prop where
  level_above : level <+: directory
  stands : ∃ entry, files.Stands (level ++ [fileName]) entry
  none_below : ∀ deeper, deeper <+: directory → level.length < deeper.length →
    ∀ entry, ¬ files.Stands (deeper ++ [fileName]) entry

/-- `Found files current path? found` says what the file of settings amounts to that an invocation
uses: the one that it names, or else the nearest one at the current directory or above it. -/
inductive Found (files : FileSystem) (current : Location) :
    Option String → Except SettingsError (Option PanicMode) → Prop where
  /-- The file that is named, be it missing. -/
  | named {text : String} {found : Except SettingsError (Option PanicMode)} :
      Holds (files.read current (.ofText text)) found → Found files current (some text) found
  /-- The nearest file. -/
  | nearest {level : Location} {entry : Entry} {found : Except SettingsError (Option PanicMode)} :
      Nearest files current level → files.Stands (level ++ [fileName]) entry →
      Holds (FileSystem.contentOf entry) found → Found files current none found
  /-- There is no file, which leaves the mode open. -/
  | absent :
      (∀ level, level <+: current → ∀ entry, ¬ files.Stands (level ++ [fileName]) entry) →
      Found files current none (.ok none)

/-- The settings of the file that an invocation names, or else of the nearest one. -/
def ofSource (buildDefault : PanicMode) (files : FileSystem) (current : Location) :
    Option String → Except SettingsError Settings
  | some text => ofFile buildDefault files current (.ofText text)
  | none => ofDirectory buildDefault files current (.ofNames current)

/-- A document leaves the mode open or not, whatever the build. -/
theorem exists_ofDocument? (document : Json.Document) :
    ∃ mode?? : Option (Option PanicMode), ∀ buildDefault,
      ofDocument? buildDefault document = mode??.map fun mode? => ⟨mode?.getD buildDefault⟩ := by
  cases document with
  | object members => exact ⟨modeOfMembers? members, fun _ => rfl⟩
  | array items =>
      match items with
      | [] => exact ⟨some none, fun _ => rfl⟩
      | [item] =>
          refine ⟨(modeOfDocument? item).map some, fun buildDefault => ?_⟩
          rw [ofDocument?, Option.map_map]
          rfl
      | _ :: _ :: _ => exact ⟨none, fun _ => rfl⟩
  | null | truth | number | string => exact ⟨none, fun _ => rfl⟩

/-- A text leaves the mode open or not, or is in error, whatever the build. -/
theorem exists_ofJson (text : String) :
    ∃ found, ∀ buildDefault, ofJson buildDefault text = withDefault buildDefault found := by
  unfold ofJson
  cases Json.Document.ofText? text with
  | none => exact ⟨.error .malformed, fun _ => rfl⟩
  | some document =>
      obtain ⟨mode??, hmode⟩ := exists_ofDocument? document
      cases mode?? with
      | none => exact ⟨.error .unsuitable, fun buildDefault => by simp [hmode]⟩
      | some mode? => exact ⟨.ok mode?, fun buildDefault => by simp [hmode]⟩

/-- Every content amounts to something. -/
theorem exists_holds (content : Except FileError (List UInt8)) : ∃ found, Holds content found := by
  cases content with
  | error cause => exact ⟨_, .unreadable cause⟩
  | ok bytes =>
      cases hdecode : Utf8.decode? bytes with
      | none => exact ⟨_, .undecodable hdecode⟩
      | some text =>
          obtain ⟨found, hfound⟩ := exists_ofJson text
          exact ⟨found, .text hdecode hfound⟩

/-- The settings of a file are what its content amounts to. -/
theorem ofFile_of_holds {files : FileSystem} {current : Location} {path : Path}
    {found : Except SettingsError (Option PanicMode)} (h : Holds (files.read current path) found)
    (buildDefault : PanicMode) :
    ofFile buildDefault files current path = withDefault buildDefault found := by
  unfold ofFile
  generalize files.read current path = content at h
  cases h with
  | unreadable cause => rfl
  | undecodable hdecode => simp [hdecode]
  | text hdecode hfound => simp [hdecode, hfound]

/-! ## Which file is used -/

variable {files : FileSystem} (current : Location)

/-- The search looks at a directory first and then at those above it. -/
theorem nearest?_ofNames_append (files : FileSystem) (names : Location) (name : String) :
    nearest? files current (.ofNames (names ++ [name])) =
      if files.exists? current (.ofNames (names ++ [name] ++ [fileName])) then
        some (.ofNames (names ++ [name] ++ [fileName]))
      else nearest? files current (.ofNames names) := by
  rw [nearest?, Path.find?_candidates, Path.parent?_ofNames_append, Path.entry_ofNames]
  rfl

/-- At the root the search ends. -/
theorem nearest?_ofNames_nil (files : FileSystem) :
    nearest? files current (.ofNames []) =
      if files.exists? current (.ofNames [fileName]) then some (.ofNames [fileName])
      else none := by
  rw [nearest?, Path.find?_candidates, Path.parent?_ofNames_nil, Path.entry_ofNames]
  rfl

/-- The search finds the nearest file. -/
theorem nearest?_of_nearest {names level : Location} (h : Nearest files names level) :
    nearest? files current (.ofNames names) = some (.ofNames (level ++ [fileName])) := by
  have hexists := (FileSystem.exists?_ofNames current files (level ++ [fileName])).2 h.stands
  induction names using List.reverseRecOn with
  | nil =>
      obtain rfl := List.prefix_nil.1 h.level_above
      rw [nearest?_ofNames_nil]
      exact if_pos hexists
  | append_singleton names name ih =>
      rw [nearest?_ofNames_append]
      rcases List.prefix_concat_iff.1 h.level_above with rfl | hlevel
      · exact if_pos hexists
      · have hlength : level.length < (names ++ [name]).length := by
          rw [List.length_append, List.length_singleton]
          exact Nat.lt_succ_of_le hlevel.length_le
        have hhere : ¬ files.exists? current (.ofNames (names ++ [name] ++ [fileName])) = true := by
          rw [FileSystem.exists?_ofNames]
          exact fun ⟨entry, hentry⟩ => h.none_below _ List.prefix_rfl hlength entry hentry
        rw [if_neg hhere]
        exact ih ⟨hlevel, h.stands, fun deeper hdeeper =>
          h.none_below deeper (hdeeper.trans (List.prefix_append names [name]))⟩

/-- The search finds nothing where there is no file. -/
theorem nearest?_of_absent {names : Location}
    (h : ∀ level, level <+: names → ∀ entry, ¬ files.Stands (level ++ [fileName]) entry) :
    nearest? files current (.ofNames names) = none := by
  have hhere : ∀ level, level <+: names →
      ¬ files.exists? current (.ofNames (level ++ [fileName])) = true := by
    intro level hlevel
    rw [FileSystem.exists?_ofNames]
    exact fun ⟨entry, hentry⟩ => h level hlevel entry hentry
  induction names using List.reverseRecOn with
  | nil =>
      rw [nearest?_ofNames_nil]
      exact if_neg (hhere [] List.prefix_rfl)
  | append_singleton names name ih =>
      have habove : ∀ level, level <+: names → level <+: names ++ [name] :=
        fun level hlevel => hlevel.trans (List.prefix_append names [name])
      rw [nearest?_ofNames_append, if_neg (hhere _ List.prefix_rfl)]
      exact ih (fun level hlevel => h level (habove level hlevel))
        fun level hlevel => hhere level (habove level hlevel)

/-- At a directory or above it there is a nearest file, or none at all. -/
theorem nearest_or_absent (files : FileSystem) (names : Location) :
    (∃ level, Nearest files names level) ∨
      ∀ level, level <+: names → ∀ entry, ¬ files.Stands (level ++ [fileName]) entry := by
  classical
  induction names using List.reverseRecOn with
  | nil =>
      by_cases hstands : ∃ entry, files.Stands [fileName] entry
      · refine .inl ⟨[], List.prefix_rfl, hstands, fun deeper hdeeper hlength => ?_⟩
        exact absurd hdeeper.length_le (Nat.not_le.2 hlength)
      · refine .inr fun level hlevel entry hentry => ?_
        obtain rfl := List.prefix_nil.1 hlevel
        exact hstands ⟨entry, hentry⟩
  | append_singleton names name ih =>
      by_cases hstands : ∃ entry, files.Stands (names ++ [name] ++ [fileName]) entry
      · refine .inl ⟨names ++ [name], List.prefix_rfl, hstands, fun deeper hdeeper hlength => ?_⟩
        exact absurd hdeeper.length_le (Nat.not_le.2 hlength)
      · rcases ih with ⟨level, hlevel⟩ | habsent
        · refine .inl ⟨level, hlevel.level_above.trans (List.prefix_append names [name]),
            hlevel.stands, fun deeper hdeeper hlength entry hentry => ?_⟩
          rcases List.prefix_concat_iff.1 hdeeper with rfl | habove
          · exact hstands ⟨entry, hentry⟩
          · exact hlevel.none_below deeper habove hlength entry hentry
        · refine .inr fun level hlevel entry hentry => ?_
          rcases List.prefix_concat_iff.1 hlevel with rfl | habove
          · exact hstands ⟨entry, hentry⟩
          · exact habsent level habove entry hentry

/-- Every invocation finds something. -/
theorem exists_found (files : FileSystem) (current : Location) (path? : Option String) :
    ∃ found, Found files current path? found := by
  cases path? with
  | some text =>
      obtain ⟨found, hholds⟩ := exists_holds (files.read current (.ofText text))
      exact ⟨found, .named hholds⟩
  | none =>
      rcases nearest_or_absent files current with ⟨level, hlevel⟩ | habsent
      · obtain ⟨entry, hentry⟩ := hlevel.stands
        obtain ⟨found, hholds⟩ := exists_holds (FileSystem.contentOf entry)
        exact ⟨found, .nearest hlevel hentry hholds⟩
      · exact ⟨_, .absent habsent⟩

/-- The settings of an invocation are what it finds, with the mode of the build where that is left
open. -/
theorem ofSource_of_found {current : Location} {path? : Option String}
    {found : Except SettingsError (Option PanicMode)} (h : Found files current path? found)
    (buildDefault : PanicMode) :
    ofSource buildDefault files current path? = withDefault buildDefault found := by
  cases h with
  | named hholds => exact ofFile_of_holds hholds buildDefault
  | nearest hlevel hentry hholds =>
      rw [ofSource, ofDirectory, nearest?_of_nearest current hlevel]
      refine ofFile_of_holds ?_ buildDefault
      rwa [FileSystem.read_ofNames current hentry]
  | absent habsent =>
      rw [ofSource, ofDirectory, nearest?_of_absent current habsent]
      rfl

/-- An invocation finds one thing. -/
theorem Found.unique {current : Location} {path? : Option String}
    {found other : Except SettingsError (Option PanicMode)} (h : Found files current path? found)
    (hother : Found files current path? other) : found = other := by
  refine withDefault_injective fun buildDefault => ?_
  rw [← ofSource_of_found h, ofSource_of_found hother]

/-! ## Which layer decides -/

/-- The words that the variable says a mode with, in lower case. -/
def variableWords : PanicMode → List String
  | .proceed => ["1", "true", "yes", "on"]
  | .abort => ["0", "false", "no", "off"]

/-- The variable says the mode whose words have its word. -/
theorem modeOfVariable?_eq_some_iff_word {text : String} {mode : PanicMode} :
    modeOfVariable? text = some mode ↔ variableWord text ∈ variableWords mode := by
  have hdisjoint : ∀ word ∈ variableWords .proceed, word ∉ variableWords .abort := by decide
  show (if variableWord text ∈ variableWords .proceed then some PanicMode.proceed
    else if variableWord text ∈ variableWords .abort then some .abort else none) = some mode ↔ _
  by_cases hproceed : variableWord text ∈ variableWords .proceed
  · rw [if_pos hproceed]
    have habort := hdisjoint _ hproceed
    cases mode <;> simp [hproceed, habort]
  · rw [if_neg hproceed]
    cases mode <;> simp [hproceed]

/-- The words of the variable have no white space. -/
theorem solid_of_mem_variableWords {mode : PanicMode} {word : String}
    (h : word ∈ variableWords mode) : ∀ c ∈ word.toList, Text.isBlank c = false := by
  have hall : (variableWords mode).all (fun word =>
      word.toList.all fun c => !Text.isBlank c) = true := by
    cases mode <;> rfl
  have hword := List.all_eq_true.1 (List.all_eq_true.1 hall word h)
  exact fun c hc => by simpa using hword c hc

/-- The variable says a mode exactly if it is one of the mode's words, in any case, between white
space. -/
theorem modeOfVariable?_eq_some_iff {text : String} {mode : PanicMode} :
    modeOfVariable? text = some mode ↔ ∃ left word right, Text.IsBlank left ∧ Text.IsBlank right ∧
      text.toList = left ++ word ++ right ∧
      String.ofList (Text.lower word) ∈ variableWords mode := by
  rw [modeOfVariable?_eq_some_iff_word]
  constructor
  · intro h
    obtain ⟨left, right, hleft, hright, htext⟩ := Text.exists_trim text.toList
    exact ⟨left, _, right, hleft, hright, htext, h⟩
  · rintro ⟨left, word, right, hleft, hright, htext, hword⟩
    have hsolid := solid_of_mem_variableWords hword
    rw [String.toList_ofList] at hsolid
    rw [variableWord, htext, Text.trim_append hleft hright]
    · exact hword
    · intro c hc
      refine Bool.eq_false_iff.2 fun hblank => ?_
      have hlower := hsolid c.toLower (List.mem_map_of_mem hc)
      rw [Text.toLower_of_isBlank hblank, hblank] at hlower
      cases hlower

/-- What the layers above the build say about the mode, the one that counts most first: the option
of the command line, the variable of the environment and the file of settings. -/
def layers (proceeds : Bool) (variableBytes : Option (List UInt8)) (file : Option PanicMode) :
    List (Option PanicMode) :=
  [if proceeds then some .proceed else none, (variableText? variableBytes).bind modeOfVariable?,
    file]

/-- The mode of the first layer that says one, and otherwise that of the build. -/
def decidedMode (buildDefault : PanicMode) (said : List (Option PanicMode)) : PanicMode :=
  (said.findSome? id).getD buildDefault

/-- The option over the variable over the settings that were found is the mode of the first layer.
-/
theorem override_eq_decidedMode (buildDefault : PanicMode) (proceeds : Bool)
    (variableBytes : Option (List UInt8)) (file : Option PanicMode) :
    (if proceeds then ⟨.proceed⟩
      else override ⟨file.getD buildDefault⟩ (variableText? variableBytes)) =
      (⟨decidedMode buildDefault (layers proceeds variableBytes file)⟩ : Settings) := by
  cases proceeds with
  | true => rfl
  | false =>
      unfold override decidedMode layers
      cases (variableText? variableBytes).bind modeOfVariable? with
      | some mode => rfl
      | none => cases file <;> rfl

end CheckedExecution.Settings
