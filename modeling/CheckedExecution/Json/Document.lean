import CheckedExecution.Json.Token

/-!
# JSON documents

A document is built from its tokens by a machine with a stack of the arrays and objects that are
still open, so documents may be nested to any depth. `Document.tokens` is the inverse: the tokens of
a document in the one order in which they can be written.
-/

namespace CheckedExecution.Json

/-- A JSON document. Members of an object are in the order in which they were written, and a key may
occur more than once. -/
inductive Document where
  | null
  | truth (value : Bool)
  | number (text : List Char)
  | string (text : Text)
  | array (items : List Document)
  | object (members : List (Text × Document))

/-- An array or object that is still open, with what it holds so far, the last element first. -/
inductive Frame where
  | array (items : List Document)
  /-- An object that waits for the value of a key. -/
  | member (members : List (Text × Document)) (key : Text)

/-- What may come next. -/
inductive Expectation where
  /-- A value. -/
  | value
  /-- A value, or the end of the array that has just been opened. -/
  | first
  /-- A key, or at the beginning of an object its end. -/
  | key (members : List (Text × Document)) (begun : Bool)
  /-- The colon after a key. -/
  | colon (members : List (Text × Document)) (key : Text)
  /-- Whatever may follow a value. -/
  | complete (document : Document)

/-- Where building stands: what is open, the innermost first, and what may come next. -/
abbrev BuildState := List Frame × Expectation

/-- The state after a token where a value may begin. -/
def beginValue? (stack : List Frame) : Token → Option BuildState
  | .null => some (stack, .complete .null)
  | .truth value => some (stack, .complete (.truth value))
  | .number text => some (stack, .complete (.number text))
  | .string text => some (stack, .complete (.string text))
  | .openBracket => some (.array [] :: stack, .first)
  | .openBrace => some (stack, .key [] false)
  | _ => none

/-- The state after another token. -/
def buildStep : BuildState → Token → Option BuildState
  | (stack, .value), token => beginValue? stack token
  | (.array [] :: stack, .first), .closeBracket => some (stack, .complete (.array []))
  | (stack, .first), token => beginValue? stack token
  | (stack, .key members _), .string key => some (stack, .colon members key)
  | (stack, .key members false), .closeBrace => some (stack, .complete (.object members.reverse))
  | (_, .key _ _), _ => none
  | (stack, .colon members key), .colon => some (.member members key :: stack, .value)
  | (_, .colon _ _), _ => none
  | (.array items :: stack, .complete document), .comma =>
      some (.array (document :: items) :: stack, .value)
  | (.array items :: stack, .complete document), .closeBracket =>
      some (stack, .complete (.array (document :: items).reverse))
  | (.member members key :: stack, .complete document), .comma =>
      some (stack, .key ((key, document) :: members) true)
  | (.member members key :: stack, .complete document), .closeBrace =>
      some (stack, .complete (.object ((key, document) :: members).reverse))
  | (_, .complete _), _ => none

/-- The document that all tokens together make. -/
def Document.ofTokens? (tokens : List Token) : Option Document :=
  match tokens.foldlM buildStep ([], .value) with
  | some ([], .complete document) => some document
  | _ => none

/-- The document that a text writes. -/
def Document.ofText? (text : String) : Option Document :=
  (tokens? text.toList).bind Document.ofTokens?

mutual

/-- The tokens of a document. -/
def Document.tokens : Document → List Token
  | .null => [.null]
  | .truth value => [.truth value]
  | .number text => [.number text]
  | .string text => [.string text]
  | .array [] => [.openBracket, .closeBracket]
  | .array (item :: rest) => .openBracket :: item.tokens ++ itemTokens rest ++ [.closeBracket]
  | .object [] => [.openBrace, .closeBrace]
  | .object ((key, value) :: rest) =>
      .openBrace :: .string key :: .colon :: value.tokens ++ memberTokens rest ++ [.closeBrace]

/-- The tokens of further items of an array. -/
def itemTokens : List Document → List Token
  | [] => []
  | item :: rest => .comma :: item.tokens ++ itemTokens rest

/-- The tokens of further members of an object. -/
def memberTokens : List (Text × Document) → List Token
  | [] => []
  | (key, value) :: rest => .comma :: .string key :: .colon :: value.tokens ++ memberTokens rest

end

end CheckedExecution.Json
