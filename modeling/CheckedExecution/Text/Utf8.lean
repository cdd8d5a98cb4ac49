/-!
# UTF-8

Decoding reads one byte at a time. Between characters it expects a first byte; inside a character it
knows how many bytes are still owed and the bounds of the next one. A byte that cannot continue the
character ends an invalid part and is itself read as a first byte, so that every maximal invalid
part counts once. `decodeLossy` replaces each invalid part, and `decode?` refuses a text that has
one.
-/

namespace CheckedExecution.Utf8

/-- The bytes of a text. -/
def encode (text : String) : List UInt8 :=
  text.toList.flatMap String.utf8EncodeChar

/-- Where decoding stands between two bytes. -/
inductive State where
  /-- Between characters. -/
  | start
  /-- Inside a character: so many bytes are owed, the next one lies between two bounds, and the bits
  read so far have this value. -/
  | inside (owed : Nat) (lower upper : UInt8) (bits : Nat)
  deriving DecidableEq

/-- What a first byte begins: a whole character, the inside of one, or nothing. -/
def first (b : UInt8) : Option (Char ⊕ State) :=
  if b ≤ 0x7f then some (.inl (Char.ofNat b.toNat))
  else if b < 0xc2 then none
  else if b ≤ 0xdf then some (.inr (.inside 1 0x80 0xbf (b.toNat - 0xc0)))
  else if b = 0xe0 then some (.inr (.inside 2 0xa0 0xbf 0))
  else if b = 0xed then some (.inr (.inside 2 0x80 0x9f 0x0d))
  else if b ≤ 0xef then some (.inr (.inside 2 0x80 0xbf (b.toNat - 0xe0)))
  else if b = 0xf0 then some (.inr (.inside 3 0x90 0xbf 0))
  else if b ≤ 0xf3 then some (.inr (.inside 3 0x80 0xbf (b.toNat - 0xf0)))
  else if b = 0xf4 then some (.inr (.inside 3 0x80 0x8f 4))
  else none

/-- A part of a byte text: a character, or nothing for a maximal invalid part. -/
abbrev Part := Option Char

/-- The parts that a first byte completes, and the state after it. -/
def readFirst (b : UInt8) : List Part × State :=
  match first b with
  | some (.inl c) => ([some c], .start)
  | some (.inr state) => ([], state)
  | none => ([none], .start)

/-- The parts that a byte completes, and the state after it. -/
def step : State → UInt8 → List Part × State
  | .start, b => readFirst b
  | .inside owed lower upper bits, b =>
      if lower ≤ b ∧ b ≤ upper then
        let bits := bits * 64 + b.toNat % 64
        if owed ≤ 1 then ([some (Char.ofNat bits)], .start)
        else ([], .inside (owed - 1) 0x80 0xbf bits)
      else
        let (parts, state) := readFirst b
        (none :: parts, state)

/-- The part that the end of the text completes. -/
def finish : State → List Part
  | .start => []
  | .inside .. => [none]

/-- The parts of the bytes that follow a state. -/
def partsFrom : State → List UInt8 → List Part
  | state, [] => finish state
  | state, b :: rest =>
      let (parts, following) := step state b
      parts ++ partsFrom following rest

/-- The characters and the maximal invalid parts of the bytes, in order. -/
def parts (bytes : List UInt8) : List Part :=
  partsFrom .start bytes

/-- The text of the bytes, each maximal invalid part replaced by U+FFFD. -/
def decodeLossy (bytes : List UInt8) : String :=
  String.ofList ((parts bytes).map fun part => part.getD '\uFFFD')

/-- The text of the bytes, if all of them are valid. -/
def decode? (bytes : List UInt8) : Option String :=
  ((parts bytes).mapM id).map String.ofList

end CheckedExecution.Utf8
