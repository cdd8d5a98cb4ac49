/-!
# Tokens of JSON

The text of a JSON document is read one character at a time into tokens. Between tokens the machine
skips blanks; inside a number, a string or a word it knows how far it has come. A number ends where
the next character cannot continue it. Strings keep each escape of a code unit apart, so that a
lone surrogate is a token like any other and is refused only where the string is decoded.
-/

namespace CheckedExecution.Json

/-- An element of a string: a character, or the escape of a UTF-16 code unit. -/
inductive StringUnit where
  | char (c : Char)
  | escaped (code : Nat)
  deriving DecidableEq

/-- A string as it was read. -/
abbrev Text := List StringUnit

/-- A token of JSON. -/
inductive Token where
  | openBrace | closeBrace | openBracket | closeBracket | comma | colon
  | null
  | truth (value : Bool)
  | number (text : List Char)
  | string (text : Text)
  deriving DecidableEq

/-- How far a number has come. -/
inductive NumberState where
  | minus | zero | integer | point | fraction | mark | markSign | exponent
  deriving DecidableEq

namespace NumberState

/-- The state after another character of the number, if it can continue the number. -/
def next? : NumberState → Char → Option NumberState
  | minus, c => if c = '0' then some zero else if c.isDigit then some integer else none
  | zero, c => if c = '.' then some point else if c = 'e' ∨ c = 'E' then some mark else none
  | integer, c =>
      if c.isDigit then some integer
      else if c = '.' then some point
      else if c = 'e' ∨ c = 'E' then some mark
      else none
  | point, c => if c.isDigit then some fraction else none
  | fraction, c =>
      if c.isDigit then some fraction else if c = 'e' ∨ c = 'E' then some mark else none
  | mark, c =>
      if c.isDigit then some exponent else if c = '+' ∨ c = '-' then some markSign else none
  | markSign, c => if c.isDigit then some exponent else none
  | exponent, c => if c.isDigit then some exponent else none

/-- The number may end here. -/
def complete : NumberState → Bool
  | zero | integer | fraction | exponent => true
  | minus | point | mark | markSign => false

end NumberState

/-- Where reading stands. What has been read of a number or a string is kept last element first. -/
inductive LexState where
  | between
  /-- Inside a word, with the characters that are still to come. -/
  | word (rest : List Char) (token : Token)
  | number (state : NumberState) (seen : List Char)
  | string (seen : Text)
  /-- After the backslash of an escape. -/
  | escape (seen : Text)
  /-- Inside the escape of a code unit, with the number of digits that are still to come. -/
  | hex (seen : Text) (owed code : Nat)
  deriving DecidableEq

/-- The character is skipped between tokens. -/
def isBlank (c : Char) : Bool :=
  c = ' ' || c = '\n' || c = '\t' || c = '\r'

/-- The value of a hexadecimal digit. -/
def hexDigit? (c : Char) : Option Nat :=
  if c.isDigit then some (c.toNat - '0'.toNat)
  else if 'a' ≤ c ∧ c ≤ 'f' then some (c.toNat - 'a'.toNat + 10)
  else if 'A' ≤ c ∧ c ≤ 'F' then some (c.toNat - 'A'.toNat + 10)
  else none

/-- The character that a short escape stands for. -/
def shortEscape? : Char → Option Char
  | '"' => some '"'
  | '\\' => some '\\'
  | '/' => some '/'
  | 'b' => some '\x08'
  | 'f' => some '\x0c'
  | 'n' => some '\n'
  | 'r' => some '\r'
  | 't' => some '\t'
  | _ => none

/-- The token of a single punctuation mark. -/
def punctuation? : Char → Option Token
  | '\x7b' => some .openBrace
  | '\x7d' => some .closeBrace
  | '[' => some .openBracket
  | ']' => some .closeBracket
  | ',' => some .comma
  | ':' => some .colon
  | _ => none

/-- The tokens that a character completes between tokens, and the state after it. -/
def begin? (c : Char) : Option (List Token × LexState) :=
  if isBlank c then some ([], .between)
  else
    match punctuation? c with
    | some token => some ([token], .between)
    | none =>
        if c = '"' then some ([], .string [])
        else if c = '-' then some ([], .number .minus [c])
        else if c = '0' then some ([], .number .zero [c])
        else if c.isDigit then some ([], .number .integer [c])
        else if c = 't' then some ([], .word ['r', 'u', 'e'] (.truth true))
        else if c = 'f' then some ([], .word ['a', 'l', 's', 'e'] (.truth false))
        else if c = 'n' then some ([], .word ['u', 'l', 'l'] .null)
        else none

/-- The tokens that a character completes, and the state after it. -/
def LexState.next? : LexState → Char → Option (List Token × LexState)
  | between, c => begin? c
  | word [] _, _ => none
  | word [last] token, c => if c = last then some ([token], between) else none
  | word (expected :: rest) token, c => if c = expected then some ([], word rest token) else none
  | number state seen, c =>
      match state.next? c with
      | some following => some ([], number following (c :: seen))
      | none =>
          if state.complete then
            (begin? c).map fun (tokens, following) =>
              (Token.number seen.reverse :: tokens, following)
          else none
  | string seen, c =>
      if c = '"' then some ([.string seen.reverse], between)
      else if c = '\\' then some ([], escape seen)
      else if c.toNat < 0x20 then none
      else some ([], string (.char c :: seen))
  | escape seen, c =>
      if c = 'u' then some ([], hex seen 4 0)
      else (shortEscape? c).map fun e => ([], string (.char e :: seen))
  | hex seen owed code, c =>
      (hexDigit? c).map fun digit =>
        let code := code * 16 + digit
        if owed ≤ 1 then ([], string (.escaped code :: seen)) else ([], hex seen (owed - 1) code)

/-- The tokens that the end of the text completes. -/
def LexState.finish? : LexState → Option (List Token)
  | between => some []
  | number state seen => if state.complete then some [.number seen.reverse] else none
  | _ => none

/-- One step of the machine on the tokens so far, the last one first. -/
def lexStep (progress : List Token × LexState) (c : Char) : Option (List Token × LexState) :=
  (progress.2.next? c).map fun (tokens, state) => (tokens.reverse ++ progress.1, state)

/-- The tokens of a text. -/
def tokens? (text : List Char) : Option (List Token) := do
  let (seen, state) ← text.foldlM lexStep ([], .between)
  let last ← state.finish?
  return seen.reverse ++ last

/-- The code unit begins a surrogate pair. -/
def isHighSurrogate (code : Nat) : Bool :=
  0xd800 ≤ code && code ≤ 0xdbff

/-- The code unit ends a surrogate pair. -/
def isLowSurrogate (code : Nat) : Bool :=
  0xdc00 ≤ code && code ≤ 0xdfff

/-- The characters of a string, the escapes of a surrogate pair joined to one. A string with a
surrogate outside a pair has none. -/
def Text.decode? : Text → Option (List Char)
  | [] => some []
  | .char c :: rest => (Text.decode? rest).map (c :: ·)
  | .escaped high :: .escaped low :: rest =>
      if isHighSurrogate high then
        if isLowSurrogate low then
          (Text.decode? rest).map
            (Char.ofNat (0x10000 + (high - 0xd800) * 0x400 + (low - 0xdc00)) :: ·)
        else none
      else if isLowSurrogate high then none
      else (Text.decode? (.escaped low :: rest)).map (Char.ofNat high :: ·)
  | .escaped code :: rest =>
      if isHighSurrogate code || isLowSurrogate code then none
      else (Text.decode? rest).map (Char.ofNat code :: ·)

end CheckedExecution.Json
