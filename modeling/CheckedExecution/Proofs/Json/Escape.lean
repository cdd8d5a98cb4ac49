import CheckedExecution.Json.Document
import Mathlib.Data.List.Basic

/-!
# Escapes

How the strings of a document are escaped does not matter to its shape: building commutes with
changing every string (`ofTokens?_mapText`). Tokens that are alike but for the escapes of their
strings (`Token.Alike`) make documents that are the same once every string is decoded
(`mapText_plain_congr`).
-/

namespace CheckedExecution.Json

/-! ## Strings without escapes -/

/-- The same string without escapes. A string that cannot be decoded is a lone surrogate. -/
def Text.plain (text : Text) : Text :=
  match text.decode? with
  | some chars => chars.map .char
  | none => [.escaped 0xd800]

/-- A string without escapes is decoded to its characters. -/
theorem decode?_map_char (chars : List Char) :
    Text.decode? (chars.map .char) = some chars := by
  induction chars with
  | nil => rfl
  | cons c rest ih => rw [List.map_cons, Text.decode?, ih, Option.map_some]

/-- The string without escapes is decoded to the same characters. -/
theorem decode?_plain (text : Text) : text.plain.decode? = text.decode? := by
  unfold Text.plain
  cases h : text.decode? with
  | none => decide
  | some chars => exact decode?_map_char chars

/-- The tokens are the same, or strings that are decoded to the same characters. -/
inductive Token.Alike : Token → Token → Prop where
  | same (token : Token) : Token.Alike token token
  | string {text other : Text} :
      text.decode? = other.decode? → Token.Alike (.string text) (.string other)

/-! ## Changing every string -/

/-- The token with its string changed. -/
def Token.mapText (f : Text → Text) : Token → Token
  | .string text => .string (f text)
  | token => token

mutual

/-- The document with every string and every key changed. -/
def Document.mapText (f : Text → Text) : Document → Document
  | .null => .null
  | .truth value => .truth value
  | .number text => .number text
  | .string text => .string (f text)
  | .array items => .array (mapItems f items)
  | .object members => .object (mapMembers f members)

/-- The items with every string changed. -/
def mapItems (f : Text → Text) : List Document → List Document
  | [] => []
  | item :: rest => item.mapText f :: mapItems f rest

/-- The members with every string and every key changed. -/
def mapMembers (f : Text → Text) : List (Text × Document) → List (Text × Document)
  | [] => []
  | (key, value) :: rest => (f key, value.mapText f) :: mapMembers f rest

end

variable (f : Text → Text)

/-- The items are changed one by one. -/
theorem mapItems_eq_map (items : List Document) : mapItems f items = items.map (·.mapText f) := by
  induction items with
  | nil => rfl
  | cons item rest ih => rw [mapItems, ih, List.map_cons]

/-- The members are changed one by one. -/
theorem mapMembers_eq_map (members : List (Text × Document)) :
    mapMembers f members = members.map fun (key, value) => (f key, value.mapText f) := by
  induction members with
  | nil => rfl
  | cons member rest ih => rw [mapMembers, ih, List.map_cons]

/-- What is open with every string and every key changed. -/
def Frame.mapText : Frame → Frame
  | .array items => .array (mapItems f items)
  | .member members key => .member (mapMembers f members) (f key)

/-- What may come next with every string and every key changed. -/
def Expectation.mapText : Expectation → Expectation
  | .value => .value
  | .first => .first
  | .key members begun => .key (mapMembers f members) begun
  | .colon members name => .colon (mapMembers f members) (f name)
  | .complete document => .complete (document.mapText f)

/-- Where building stands with every string and every key changed. -/
def BuildState.mapText (state : BuildState) : BuildState :=
  (state.1.map (Frame.mapText f), state.2.mapText f)

/-- A value begins alike whatever its strings are. -/
theorem beginValue?_mapText (stack : List Frame) (token : Token) :
    beginValue? (stack.map (Frame.mapText f)) (token.mapText f) =
      (beginValue? stack token).map (BuildState.mapText f) := by
  cases token <;> rfl

/-- What follows a bracket that opens an array commutes with changing every string. -/
theorem buildStep_first_mapText (stack : List Frame) (token : Token) :
    buildStep (BuildState.mapText f (stack, .first)) (token.mapText f) =
      (buildStep (stack, .first) token).map (BuildState.mapText f) := by
  match stack with
  | [] | .array [] :: _ | .array (_ :: _) :: _ | .member _ _ :: _ => cases token <;> rfl

/-- What follows a value commutes with changing every string. -/
theorem buildStep_complete_mapText (stack : List Frame) (document : Document) (token : Token) :
    buildStep (BuildState.mapText f (stack, .complete document)) (token.mapText f) =
      (buildStep (stack, .complete document) token).map (BuildState.mapText f) := by
  match stack with
  | [] => cases token <;> rfl
  | .array items :: stack =>
      cases token with
      | closeBracket =>
          simp [BuildState.mapText, Frame.mapText, Expectation.mapText, buildStep, Token.mapText,
            Document.mapText, mapItems_eq_map]
      | _ => rfl
  | .member members key :: stack =>
      cases token with
      | closeBrace =>
          simp [BuildState.mapText, Frame.mapText, Expectation.mapText, buildStep, Token.mapText,
            Document.mapText, mapMembers_eq_map]
      | _ => rfl

/-- A step commutes with changing every string. -/
theorem buildStep_mapText (state : BuildState) (token : Token) :
    buildStep (BuildState.mapText f state) (token.mapText f) =
      (buildStep state token).map (BuildState.mapText f) := by
  obtain ⟨stack, expected⟩ := state
  cases expected with
  | value => exact beginValue?_mapText f stack token
  | first => exact buildStep_first_mapText f stack token
  | key members begun =>
      cases token with
      | closeBrace =>
          cases begun <;>
            simp [BuildState.mapText, Expectation.mapText, buildStep, Token.mapText,
              Document.mapText, mapMembers_eq_map]
      | _ => cases begun <;> rfl
  | colon members name => cases token <;> rfl
  | complete document => exact buildStep_complete_mapText f stack document token

/-- Building commutes with changing every string. -/
theorem foldlM_buildStep_mapText (tokens : List Token) (state : BuildState) :
    (tokens.map (Token.mapText f)).foldlM buildStep (BuildState.mapText f state) =
      (tokens.foldlM buildStep state).map (BuildState.mapText f) := by
  induction tokens generalizing state with
  | nil => rfl
  | cons token rest ih =>
      rw [List.map_cons, List.foldlM_cons, List.foldlM_cons, buildStep_mapText]
      cases buildStep state token with
      | none => rfl
      | some following => exact ih following

/-- The tokens with every string changed make the document with every string changed. -/
theorem ofTokens?_mapText (tokens : List Token) :
    Document.ofTokens? (tokens.map (Token.mapText f)) =
      (Document.ofTokens? tokens).map (Document.mapText f) := by
  have hfold : (tokens.map (Token.mapText f)).foldlM buildStep ([], .value) =
      (tokens.foldlM buildStep ([], .value)).map (BuildState.mapText f) :=
    foldlM_buildStep_mapText f tokens ([], .value)
  rw [Document.ofTokens?, Document.ofTokens?, hfold]
  rcases tokens.foldlM buildStep ([], .value) with _ | ⟨_ | ⟨frame, stack⟩, expected⟩
  · rfl
  · cases expected <;> rfl
  · rfl

/-- Tokens that are alike but for their escapes make documents that are the same without escapes. -/
theorem mapText_plain_congr {tokens others : List Token}
    (h : List.Forall₂ Token.Alike tokens others) :
    (Document.ofTokens? tokens).map (Document.mapText Text.plain) =
      (Document.ofTokens? others).map (Document.mapText Text.plain) := by
  have hplain : tokens.map (Token.mapText Text.plain) = others.map (Token.mapText Text.plain) := by
    induction h with
    | nil => rfl
    | cons halike _ ih =>
        rw [List.map_cons, List.map_cons, ih]
        cases halike with
        | same => rfl
        | string hdecode => simp only [Token.mapText, Text.plain, hdecode]
  rw [← ofTokens?_mapText, ← ofTokens?_mapText, hplain]

end CheckedExecution.Json
