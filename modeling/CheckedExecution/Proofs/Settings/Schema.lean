import CheckedExecution.Proofs.Json.Document
import CheckedExecution.Proofs.Json.Escape
import CheckedExecution.Proofs.Json.Spelling
import CheckedExecution.Settings

/-!
# The schema of settings

A document describes settings if it is an object that gives the panic mode at most once, or an array
of at most the mode (`Describes`). The texts that settings are read from are those that write such
a document (`settings_accept_schema`), whatever else the members of an object hold. Members under
other keys, blanks and escapes make no difference.
-/

namespace CheckedExecution.Settings

open Json (Document Spells Token)

/-! ## The schema -/

/-- The text writes the document. -/
def Writes (text : String) (document : Document) : Prop :=
  Spells text.toList document.tokens

/-- The document is a value for the mode: its name, or an object with the name as its only key and
the value null. -/
inductive IsMode : Document → PanicMode → Prop where
  | name {text : Json.Text} {mode : PanicMode} :
      text.decode? = some mode.name.toList → IsMode (.string text) mode
  | tag {key : Json.Text} {mode : PanicMode} :
      key.decode? = some mode.name.toList → IsMode (.object [(key, .null)]) mode

/-- The values that members hold under the key of the panic mode. -/
def modeValues (members : List (Json.Text × Document)) : List Document :=
  (members.filter fun member => member.1.decode? = some panicModeKey.toList).map Prod.snd

/-- Every key is a string of characters: no surrogate is outside a pair. -/
def HaveKeys (members : List (Json.Text × Document)) : Prop :=
  ∀ member ∈ members, member.1.decode?.isSome = true

/-- The document describes settings, with the mode that it gives. -/
inductive Describes : Document → Option PanicMode → Prop where
  | object {members : List (Json.Text × Document)} :
      HaveKeys members → modeValues members = [] → Describes (.object members) none
  | objectWith {members : List (Json.Text × Document)} {value : Document} {mode : PanicMode} :
      HaveKeys members → modeValues members = [value] → IsMode value mode →
      Describes (.object members) (some mode)
  | array : Describes (.array []) none
  | arrayWith {value : Document} {mode : PanicMode} :
      IsMode value mode → Describes (.array [value]) (some mode)

/-! ## Reading -/

/-- A text writes the document that is read from it. -/
theorem ofText?_eq_some_iff {text : String} {document : Document} :
    Document.ofText? text = some document ↔ Writes text document := by
  rw [Document.ofText?, Option.bind_eq_some_iff]
  simp only [Json.tokens?_eq_some_iff, Json.ofTokens?_eq_some_iff]
  constructor
  · rintro ⟨_, h, rfl⟩
    exact h
  · exact fun h => ⟨_, h, rfl⟩

/-- A string names the mode whose name it is decoded to. -/
theorem modeOfText?_eq_some_iff {text : Json.Text} {mode : PanicMode} :
    modeOfText? text = some mode ↔ text.decode? = some mode.name.toList := by
  rw [modeOfText?, Option.bind_eq_some_iff]
  constructor
  · rintro ⟨chars, hchars, hmode⟩
    have hname := List.find?_some hmode
    rw [hchars, eq_of_beq hname, String.toList_ofList]
  · intro h
    exact ⟨_, h, by rw [String.ofList_toList, PanicMode.ofName?_name]⟩

/-- The values for a mode are those that it is read from. -/
theorem modeOfDocument?_eq_some_iff {document : Document} {mode : PanicMode} :
    modeOfDocument? document = some mode ↔ IsMode document mode := by
  constructor
  · intro h
    unfold modeOfDocument? at h
    split at h
    · exact .name (modeOfText?_eq_some_iff.1 h)
    · exact .tag (modeOfText?_eq_some_iff.1 h)
    · cases h
  · rintro (h | h)
    · exact modeOfText?_eq_some_iff.2 h
    · exact modeOfText?_eq_some_iff.2 h

/-- The mode that the values under its key give: one value at most, and that has to be a mode. -/
def modeOfValues? : List Document → Option (Option PanicMode)
  | [] => some none
  | [value] => (modeOfDocument? value).map some
  | _ => none

/-- A member under the key of the mode holds a value for it, and no other does. -/
theorem modeValues_cons (key : Json.Text) (value : Document)
    (rest : List (Json.Text × Document)) :
    modeValues ((key, value) :: rest) =
      if key.decode? = some panicModeKey.toList then value :: modeValues rest
      else modeValues rest := by
  by_cases h : key.decode? = some panicModeKey.toList <;> simp [modeValues, h]

/-- The mode among members is that of the values under its key, if all keys are strings of
characters. -/
theorem modeOfMembers?_eq_of_haveKeys {members : List (Json.Text × Document)}
    (h : HaveKeys members) : modeOfMembers? members = modeOfValues? (modeValues members) := by
  induction members with
  | nil => rfl
  | cons member rest ih =>
      obtain ⟨key, value⟩ := member
      obtain ⟨hkey, hrest⟩ := List.forall_mem_cons.1 h
      obtain ⟨name, hname⟩ := Option.isSome_iff_exists.1 hkey
      rw [modeOfMembers?, ih hrest, modeValues_cons, hname]
      by_cases hmode : name = panicModeKey.toList
      · subst hmode
        -- A later value under the key refuses the members, whether it is a mode or not.
        rcases modeValues rest with _ | ⟨other, _ | ⟨another, more⟩⟩
        · simp [modeOfValues?]
        · cases hother : modeOfDocument? other <;> simp [modeOfValues?, hother]
        · simp [modeOfValues?]
      · have hkey : String.ofList name ≠ panicModeKey :=
          fun heq => hmode (by rw [← heq, String.toList_ofList])
        simp [hkey, hmode]

/-- Members with a key that is not a string of characters have no mode. -/
theorem haveKeys_of_modeOfMembers? {members : List (Json.Text × Document)}
    {mode? : Option PanicMode} (h : modeOfMembers? members = some mode?) : HaveKeys members := by
  induction members generalizing mode? with
  | nil => exact nofun
  | cons member rest ih =>
      obtain ⟨key, value⟩ := member
      simp only [modeOfMembers?, Option.bind_eq_bind, Option.bind_eq_some_iff] at h
      obtain ⟨name, hname, later, hlater, -⟩ := h
      exact List.forall_mem_cons.2 ⟨Option.isSome_iff_exists.2 ⟨name, hname⟩, ih hlater⟩

/-- Members have no mode if a key is not a string of characters. -/
theorem modeOfMembers?_eq_none {members : List (Json.Text × Document)} (h : ¬ HaveKeys members) :
    modeOfMembers? members = none :=
  Option.eq_none_iff_forall_ne_some.2 fun _ hmode => h (haveKeys_of_modeOfMembers? hmode)

/-- Members have a mode if an object with them describes settings. -/
theorem modeOfMembers?_eq_some_iff {members : List (Json.Text × Document)}
    {mode? : Option PanicMode} :
    modeOfMembers? members = some mode? ↔ Describes (.object members) mode? := by
  constructor
  · intro h
    have hkeys := haveKeys_of_modeOfMembers? h
    rw [modeOfMembers?_eq_of_haveKeys hkeys] at h
    unfold modeOfValues? at h
    split at h
    · rename_i hvalues
      cases h
      exact .object hkeys hvalues
    · rename_i value hvalues
      obtain ⟨mode, hmode, rfl⟩ := Option.map_eq_some_iff.1 h
      exact .objectWith hkeys hvalues (modeOfDocument?_eq_some_iff.1 hmode)
    · cases h
  · rintro (⟨hkeys, hvalues⟩ | ⟨hkeys, hvalues, hmode⟩)
    · rw [modeOfMembers?_eq_of_haveKeys hkeys, hvalues, modeOfValues?]
    · rw [modeOfMembers?_eq_of_haveKeys hkeys, hvalues, modeOfValues?,
        modeOfDocument?_eq_some_iff.2 hmode, Option.map_some]

/-- A document has the settings that it describes. -/
theorem ofDocument?_eq_some_iff {buildDefault : PanicMode} {document : Document}
    {settings : Settings} :
    ofDocument? buildDefault document = some settings ↔
      ∃ mode?, Describes document mode? ∧ settings = ⟨mode?.getD buildDefault⟩ := by
  constructor
  · intro h
    unfold ofDocument? at h
    split at h
    · obtain ⟨mode?, hmode, rfl⟩ := Option.map_eq_some_iff.1 h
      exact ⟨mode?, modeOfMembers?_eq_some_iff.1 hmode, rfl⟩
    · cases h
      exact ⟨none, .array, rfl⟩
    · obtain ⟨mode, hmode, rfl⟩ := Option.map_eq_some_iff.1 h
      exact ⟨some mode, .arrayWith (modeOfDocument?_eq_some_iff.1 hmode), rfl⟩
    · cases h
  · rintro ⟨mode?, h, rfl⟩
    cases h with
    | object hkeys hvalues =>
        rw [ofDocument?, modeOfMembers?_eq_some_iff.2 (.object hkeys hvalues), Option.map_some]
    | objectWith hkeys hvalues hmode =>
        rw [ofDocument?, modeOfMembers?_eq_some_iff.2 (.objectWith hkeys hvalues hmode),
          Option.map_some]
    | array => rfl
    | arrayWith hmode =>
        rw [ofDocument?, modeOfDocument?_eq_some_iff.2 hmode, Option.map_some, Option.getD_some]

/-- A text has the settings that the document it writes describes. -/
theorem ofJson_eq_ok_iff {buildDefault : PanicMode} {text : String} {settings : Settings} :
    ofJson buildDefault text = .ok settings ↔
      ∃ document mode?, Writes text document ∧ Describes document mode? ∧
        settings = ⟨mode?.getD buildDefault⟩ := by
  simp only [← ofText?_eq_some_iff, exists_and_left, ← ofDocument?_eq_some_iff]
  unfold ofJson
  cases Document.ofText? text with
  | none => simp
  | some document => cases h : ofDocument? buildDefault document <;> simp [h]

/-! ## What makes no difference -/

variable {buildDefault : PanicMode}

/-- Whether a text is JSON and which settings its document has is all that matters. -/
theorem ofJson_congr {text other : String}
    (h : (Document.ofText? text).map (ofDocument? buildDefault) =
      (Document.ofText? other).map (ofDocument? buildDefault)) :
    ofJson buildDefault text = ofJson buildDefault other := by
  have hread : ∀ text, ofJson buildDefault text =
      match (Document.ofText? text).map (ofDocument? buildDefault) with
      | none => .error .malformed
      | some none => .error .unsuitable
      | some (some settings) => .ok settings := by
    intro text
    unfold ofJson
    cases Document.ofText? text with
    | none => rfl
    | some document => cases h : ofDocument? buildDefault document <;> simp [h]
  rw [hread, hread, h]

/-- A string names the same mode without escapes. -/
theorem modeOfText?_plain (text : Json.Text) : modeOfText? text.plain = modeOfText? text := by
  rw [modeOfText?, Json.decode?_plain, modeOfText?]

/-- A document is the same mode without escapes. -/
theorem modeOfDocument?_mapText_plain (document : Document) :
    modeOfDocument? (document.mapText Json.Text.plain) = modeOfDocument? document := by
  match document with
  | .string text => exact modeOfText?_plain text
  | .object [(key, value)] =>
      cases value with
      | null => exact modeOfText?_plain key
      | _ => rfl
  | .object ((_, value) :: (_, _) :: _) => cases value <;> rfl
  | .object [] => rfl
  | .null | .truth _ | .number _ | .array _ => rfl

/-- Members have the same mode without escapes. -/
theorem modeOfMembers?_mapMembers_plain (members : List (Json.Text × Document)) :
    modeOfMembers? (Json.mapMembers Json.Text.plain members) = modeOfMembers? members := by
  induction members with
  | nil => rfl
  | cons member rest ih =>
      rw [Json.mapMembers, modeOfMembers?, Json.decode?_plain, ih, modeOfDocument?_mapText_plain,
        modeOfMembers?]

/-- A document has the same settings without escapes. -/
theorem ofDocument?_mapText_plain (document : Document) :
    ofDocument? buildDefault (document.mapText Json.Text.plain) =
      ofDocument? buildDefault document := by
  match document with
  | .object members =>
      rw [Document.mapText, ofDocument?, modeOfMembers?_mapMembers_plain, ofDocument?]
  | .array [item] =>
      rw [Document.mapText, Json.mapItems, Json.mapItems, ofDocument?,
        modeOfDocument?_mapText_plain, ofDocument?]
  | .array [] | .array (_ :: _ :: _) | .null | .truth _ | .number _ | .string _ => rfl

/-- Texts whose tokens are alike but for their escapes have the same settings. -/
theorem ofJson_congr_of_alike {text other : String} {tokens others : List Token}
    (htext : Spells text.toList tokens) (hother : Spells other.toList others)
    (halike : List.Forall₂ Token.Alike tokens others) :
    ofJson buildDefault text = ofJson buildDefault other := by
  have hplain : ofDocument? buildDefault =
      ofDocument? buildDefault ∘ Document.mapText Json.Text.plain :=
    funext fun document => (ofDocument?_mapText_plain document).symm
  refine ofJson_congr ?_
  rw [Document.ofText?, Document.ofText?, Json.tokens?_eq_some_iff.2 htext,
    Json.tokens?_eq_some_iff.2 hother, Option.bind_some, Option.bind_some, hplain,
    ← Option.map_map, ← Option.map_map, Json.mapText_plain_congr halike]

/-- Texts that write objects with the same values under the key of the mode have the same
settings. -/
theorem ofJson_congr_of_modeValues {text other : String}
    {members others : List (Json.Text × Document)}
    (htext : Writes text (.object members)) (hother : Writes other (.object others))
    (hkeys : HaveKeys members ↔ HaveKeys others) (h : modeValues members = modeValues others) :
    ofJson buildDefault text = ofJson buildDefault other := by
  have hmode : modeOfMembers? members = modeOfMembers? others := by
    by_cases hdecode : HaveKeys members
    · rw [modeOfMembers?_eq_of_haveKeys hdecode, modeOfMembers?_eq_of_haveKeys (hkeys.1 hdecode), h]
    · rw [modeOfMembers?_eq_none hdecode, modeOfMembers?_eq_none (mt hkeys.2 hdecode)]
  refine ofJson_congr ?_
  rw [ofText?_eq_some_iff.2 htext, ofText?_eq_some_iff.2 hother, Option.map_some,
    Option.map_some, ofDocument?, ofDocument?, hmode]

/-- Settings are read from exactly the texts that write a document of their schema, with the mode
that it gives or else the one of the build. Of an object only the values under the key of the mode
matter, so members under other keys, whatever values they hold, can be added, moved, repeated and
left out. Of a text only its tokens matter, so there may be any blanks between them, and the strings
can be escaped in any way. -/
theorem settings_accept_schema (buildDefault : PanicMode) (text : String) :
    (∀ settings, ofJson buildDefault text = .ok settings ↔
      ∃ document mode?, Writes text document ∧ Describes document mode? ∧
        settings = ⟨mode?.getD buildDefault⟩) ∧
    (∀ (other : String) (members others : List (Json.Text × Document)),
      Writes text (.object members) → Writes other (.object others) →
      (HaveKeys members ↔ HaveKeys others) → modeValues members = modeValues others →
      ofJson buildDefault text = ofJson buildDefault other) ∧
    (∀ (other : String) (tokens others : List Token),
      Spells text.toList tokens → Spells other.toList others →
      List.Forall₂ Token.Alike tokens others →
      ofJson buildDefault text = ofJson buildDefault other) :=
  ⟨fun _ => ofJson_eq_ok_iff, fun _ _ _ => ofJson_congr_of_modeValues,
    fun _ _ _ => ofJson_congr_of_alike⟩

/-- An object with escapes, blanks and a member that does not matter, one without the member, and
one without the escapes. -/
theorem nested_member_is_skipped :
    let text :=
      "\x7b \"panic\\u005fmode\" : \"c\\u006fntinue\",\n\"x\": [1e400, \"\\ud800\"] \x7d"
    let bare := "\x7b\"panic\\u005fmode\":\"c\\u006fntinue\"\x7d"
    let plain := "\x7b\"panic_mode\":\"continue\"\x7d"
    ofJson .abort text = .ok ⟨.proceed⟩ ∧ ofJson .abort text = ofJson .abort bare ∧
      ofJson .abort bare = ofJson .abort plain := by
  intro text bare plain
  let key : Json.Text := "panic".toList.map .char ++ .escaped 0x5f :: "mode".toList.map .char
  let name : Json.Text := .char 'c' :: .escaped 0x6f :: "ntinue".toList.map .char
  let extra : Document := .array [.number "1e400".toList, .string [.escaped 0xd800]]
  let members : List (Json.Text × Document) := [(key, .string name), ([.char 'x'], extra)]
  have htext : Writes text (.object members) := Json.tokens?_eq_some_iff.1 (by decide +kernel)
  have hbare : Writes bare (.object [(key, .string name)]) :=
    Json.tokens?_eq_some_iff.1 (by decide +kernel)
  have hplain : Spells plain.toList
      [.openBrace, .string ("panic_mode".toList.map .char), .colon,
        .string ("continue".toList.map .char), .closeBrace] :=
    Json.tokens?_eq_some_iff.1 (by decide +kernel)
  have hkeys : HaveKeys members := by
    unfold HaveKeys
    decide +kernel
  have hkey : HaveKeys [(key, .string name)] := by
    unfold HaveKeys
    decide +kernel
  obtain ⟨haccept, hskip, -⟩ := settings_accept_schema .abort text
  obtain ⟨-, -, hescape⟩ := settings_accept_schema .abort bare
  refine ⟨(haccept _).2 ⟨_, some .proceed, htext, .objectWith hkeys rfl (.name ?_), rfl⟩, ?_, ?_⟩
  · decide +kernel
  · exact hskip _ _ _ htext hbare ⟨fun _ => hkey, fun _ => hkeys⟩ rfl
  · refine hescape _ _ _ hbare hplain ?_
    exact .cons (.same _) (.cons (.string (by decide +kernel)) (.cons (.same _)
      (.cons (.string (by decide +kernel)) (.cons (.same _) .nil))))

end CheckedExecution.Settings
