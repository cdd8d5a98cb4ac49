import CheckedExecution.Json.Document
import Mathlib.Data.List.Basic

/-!
# Documents and their tokens

A document is built from exactly the tokens that it is written with (`ofTokens?_eq_some_iff`), to
any depth. In the one direction every state of the machine tells the tokens that have led to it
(`written_buildStep`). In the other the tokens of a document lead past it, whatever is open around
it (`build_tokens`).
-/

namespace CheckedExecution.Json

/-! ## From the tokens to the document -/

/-- The tokens of items that each have a comma behind them. -/
def itemsWithCommas (items : List Document) : List Token :=
  items.flatMap fun item => item.tokens ++ [.comma]

/-- The tokens of members that each have a comma behind them. -/
def membersWithCommas (members : List (Text × Document)) : List Token :=
  members.flatMap fun (key, value) => .string key :: .colon :: value.tokens ++ [.comma]

/-- Commas before items and commas behind them are the same but for the ends. -/
theorem itemTokens_append (items : List Document) (last : Document) :
    itemTokens (items ++ [last]) = .comma :: itemsWithCommas items ++ last.tokens := by
  induction items with
  | nil => simp [itemTokens, itemsWithCommas]
  | cons item rest ih =>
      rw [List.cons_append, itemTokens, ih]
      simp [itemsWithCommas]

/-- Commas before members and commas behind them are the same but for the ends. -/
theorem memberTokens_append (members : List (Text × Document)) (key : Text) (value : Document) :
    memberTokens (members ++ [(key, value)]) =
      .comma :: membersWithCommas members ++ .string key :: .colon :: value.tokens := by
  induction members with
  | nil => simp [memberTokens, membersWithCommas]
  | cons member rest ih =>
      rw [List.cons_append, memberTokens, ih]
      simp [membersWithCommas]

/-- The tokens of an array, from its last item. -/
theorem tokens_array_append (items : List Document) (last : Document) :
    (Document.array (items ++ [last])).tokens =
      .openBracket :: itemsWithCommas items ++ last.tokens ++ [.closeBracket] := by
  cases items with
  | nil => simp [Document.tokens, itemTokens, itemsWithCommas]
  | cons item rest =>
      rw [List.cons_append, Document.tokens, itemTokens_append]
      simp [itemsWithCommas]

/-- The tokens of an object, from its last member. -/
theorem tokens_object_append (members : List (Text × Document)) (key : Text) (value : Document) :
    (Document.object (members ++ [(key, value)])).tokens =
      .openBrace :: membersWithCommas members ++ .string key :: .colon :: value.tokens ++
        [.closeBrace] := by
  cases members with
  | nil => simp [Document.tokens, memberTokens, membersWithCommas]
  | cons member rest =>
      rw [List.cons_append, Document.tokens, memberTokens_append]
      simp [membersWithCommas]

/-- The tokens from the beginning of an open array or object up to the value that it waits for. -/
def Frame.written : Frame → List Token
  | .array items => .openBracket :: itemsWithCommas items.reverse
  | .member members key =>
      .openBrace :: membersWithCommas members.reverse ++ [.string key, .colon]

/-- The tokens behind what is open. -/
def Expectation.written : Expectation → List Token
  | .value => []
  | .first => []
  | .key members _ => .openBrace :: membersWithCommas members.reverse
  | .colon members name => .openBrace :: membersWithCommas members.reverse ++ [.string name]
  | .complete document => document.tokens

/-- The tokens of what is open, the outermost first. -/
def stackWritten (stack : List Frame) : List Token :=
  stack.reverse.flatMap Frame.written

/-- The tokens that lead to a state. -/
def written (s : BuildState) : List Token :=
  stackWritten s.1 ++ s.2.written

/-- An object that has not begun has no members. -/
def Expectation.Sound : Expectation → Prop
  | .key members false => members = []
  | _ => True

/-- The innermost array or object is written last. -/
theorem stackWritten_cons (frame : Frame) (stack : List Frame) :
    stackWritten (frame :: stack) = stackWritten stack ++ frame.written := by
  simp [stackWritten]

/-- A token that begins a value is written behind what is open. -/
theorem written_beginValue {stack : List Frame} {token : Token} {s : BuildState}
    (h : beginValue? stack token = some s) :
    s.2.Sound ∧ written s = stackWritten stack ++ [token] := by
  cases token with
  | openBracket =>
      cases h
      refine ⟨trivial, ?_⟩
      rw [written, stackWritten_cons]
      simp [Frame.written, Expectation.written, itemsWithCommas]
  | null | truth | number | string | openBrace =>
      cases h
      simp [Expectation.Sound, written, Expectation.written, Document.tokens, membersWithCommas]
  | _ => cases h

/-- Every token is written behind those that have led to the state before it. -/
theorem written_buildStep {s following : BuildState} {token : Token} (hsound : s.2.Sound)
    (h : buildStep s token = some following) :
    following.2.Sound ∧ written following = written s ++ [token] := by
  unfold buildStep at h
  split at h
  -- A value is begun.
  · obtain ⟨hfollowing, hwritten⟩ := written_beginValue h
    exact ⟨hfollowing, by rw [hwritten, written, Expectation.written, List.append_nil]⟩
  -- The first value of an array is begun, or the array is empty.
  · cases h
    refine ⟨trivial, ?_⟩
    rw [written, written, stackWritten_cons]
    simp [Frame.written, Expectation.written, Document.tokens, itemsWithCommas]
  · obtain ⟨hfollowing, hwritten⟩ := written_beginValue h
    exact ⟨hfollowing, by rw [hwritten, written, Expectation.written, List.append_nil]⟩
  -- A key, or the end of an empty object.
  · cases h
    exact ⟨trivial, by simp [written, Expectation.written]⟩
  · cases h
    cases hsound
    exact ⟨trivial, by simp [written, Expectation.written, Document.tokens, membersWithCommas]⟩
  · cases h
  -- A colon.
  · cases h
    refine ⟨trivial, ?_⟩
    rw [written, written, stackWritten_cons]
    simp [Frame.written, Expectation.written]
  · cases h
  -- Behind an item a comma or the end of the array.
  · cases h
    refine ⟨trivial, ?_⟩
    rw [written, written, stackWritten_cons, stackWritten_cons]
    simp [Frame.written, Expectation.written, itemsWithCommas]
  · cases h
    refine ⟨trivial, ?_⟩
    rw [written, written, stackWritten_cons, List.reverse_cons, Expectation.written,
      tokens_array_append]
    simp [Frame.written, Expectation.written]
  -- Behind a member a comma or the end of the object.
  · cases h
    refine ⟨trivial, ?_⟩
    rw [written, written, stackWritten_cons]
    simp [Frame.written, Expectation.written, membersWithCommas]
  · cases h
    refine ⟨trivial, ?_⟩
    rw [written, written, stackWritten_cons, List.reverse_cons, Expectation.written,
      tokens_object_append]
    simp [Frame.written, Expectation.written]
  · cases h

/-- Tokens are written behind those that have led to the state before them. -/
theorem written_foldlM {s following : BuildState} {tokens : List Token} (hsound : s.2.Sound)
    (h : tokens.foldlM buildStep s = some following) :
    written following = written s ++ tokens := by
  induction tokens generalizing s with
  | nil =>
      cases h
      rw [List.append_nil]
  | cons token rest ih =>
      rw [List.foldlM_cons] at h
      obtain ⟨next, hstep, hrest⟩ := Option.bind_eq_some_iff.1 h
      obtain ⟨hnext, hwritten⟩ := written_buildStep hsound hstep
      rw [ih hnext hrest, hwritten, List.append_assoc, List.singleton_append]

/-! ## From the document to the tokens -/

/-- The tokens of a document do not begin with the end of an array. -/
theorem tokens_eq_cons (document : Document) :
    ∃ token rest, document.tokens = token :: rest ∧ token ≠ .closeBracket := by
  match document with
  | .null | .truth _ | .number _ | .string _ => exact ⟨_, [], rfl, nofun⟩
  | .array [] | .array (_ :: _) => exact ⟨.openBracket, _, rfl, nofun⟩
  | .object [] | .object ((_, _) :: _) => exact ⟨.openBrace, _, rfl, nofun⟩

/-- What may begin the first value of an array is what may begin any value. -/
theorem buildStep_first {token : Token} (h : token ≠ .closeBracket) (stack : List Frame) :
    buildStep (stack, .first) token = buildStep (stack, .value) token := by
  cases token with
  | closeBracket => exact absurd rfl h
  | _ => simp only [buildStep]

/-- The tokens of a document do the same whether it comes first in an array or not. -/
theorem foldlM_first (document : Document) (stack : List Frame) :
    document.tokens.foldlM buildStep (stack, .first) =
      document.tokens.foldlM buildStep (stack, .value) := by
  obtain ⟨token, rest, htokens, htoken⟩ := tokens_eq_cons document
  rw [htokens, List.foldlM_cons, List.foldlM_cons, buildStep_first htoken]

mutual

/-- The tokens of a document lead past it, whatever is open around it. -/
theorem build_tokens : ∀ (document : Document) (stack : List Frame),
    document.tokens.foldlM buildStep (stack, .value) = some (stack, .complete document)
  | .null, _ | .truth _, _ | .number _, _ | .string _, _ | .array [], _ | .object [], _ => rfl
  | .array (item :: rest), stack => by
      rw [Document.tokens, List.append_assoc, List.cons_append, List.foldlM_cons]
      show (item.tokens ++ (itemTokens rest ++ [Token.closeBracket])).foldlM buildStep
        (.array [] :: stack, .first) = _
      rw [List.foldlM_append, foldlM_first, build_tokens item]
      exact build_itemTokens rest [] item stack
  | .object ((key, value) :: rest), stack => by
      rw [Document.tokens, List.append_assoc, List.cons_append, List.cons_append, List.cons_append,
        List.foldlM_cons]
      show (value.tokens ++ (memberTokens rest ++ [Token.closeBrace])).foldlM buildStep
        (.member [] key :: stack, .value) = _
      rw [List.foldlM_append, build_tokens value]
      exact build_memberTokens rest [] key value stack

/-- The tokens of further items lead to the end of the array. -/
theorem build_itemTokens : ∀ (rest items : List Document) (last : Document) (stack : List Frame),
    (itemTokens rest ++ [Token.closeBracket]).foldlM buildStep
        (.array items :: stack, .complete last) =
      some (stack, .complete (.array (items.reverse ++ last :: rest)))
  | [], items, last, stack => by
      show some (stack, Expectation.complete (.array (last :: items).reverse)) = _
      rw [List.reverse_cons]
  | item :: rest, items, last, stack => by
      rw [itemTokens, List.append_assoc, List.cons_append, List.foldlM_cons]
      show (item.tokens ++ (itemTokens rest ++ [Token.closeBracket])).foldlM buildStep
        (.array (last :: items) :: stack, .value) = _
      rw [List.foldlM_append, build_tokens item]
      show (itemTokens rest ++ [Token.closeBracket]).foldlM buildStep
        (.array (last :: items) :: stack, .complete item) = _
      rw [build_itemTokens rest (last :: items) item stack, List.reverse_cons, List.append_assoc,
        List.singleton_append]

/-- The tokens of further members lead to the end of the object. -/
theorem build_memberTokens : ∀ (rest members : List (Text × Document)) (key : Text)
    (last : Document) (stack : List Frame),
    (memberTokens rest ++ [Token.closeBrace]).foldlM buildStep
        (.member members key :: stack, .complete last) =
      some (stack, .complete (.object (members.reverse ++ (key, last) :: rest)))
  | [], members, key, last, stack => by
      show some (stack, Expectation.complete (.object ((key, last) :: members).reverse)) = _
      rw [List.reverse_cons]
  | (name, value) :: rest, members, key, last, stack => by
      rw [memberTokens, List.append_assoc, List.cons_append, List.cons_append, List.cons_append,
        List.foldlM_cons]
      show (value.tokens ++ (memberTokens rest ++ [Token.closeBrace])).foldlM buildStep
        (.member ((key, last) :: members) name :: stack, .value) = _
      rw [List.foldlM_append, build_tokens value]
      show (memberTokens rest ++ [Token.closeBrace]).foldlM buildStep
        (.member ((key, last) :: members) name :: stack, .complete value) = _
      rw [build_memberTokens rest ((key, last) :: members) name value stack, List.reverse_cons,
        List.append_assoc, List.singleton_append]

end

/-- A document is built from the tokens that it is written with, and from no others. -/
theorem ofTokens?_eq_some_iff {tokens : List Token} {document : Document} :
    Document.ofTokens? tokens = some document ↔ tokens = document.tokens := by
  constructor
  · intro h
    unfold Document.ofTokens? at h
    split at h
    · rename_i hfold
      cases h
      have hsound : Expectation.value.Sound := trivial
      exact (written_foldlM hsound hfold).symm
    · cases h
  · rintro rfl
    rw [Document.ofTokens?, build_tokens]

end CheckedExecution.Json
