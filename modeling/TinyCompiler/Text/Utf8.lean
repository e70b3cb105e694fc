import TinyCompiler.Text.Quoted

/-!
# Text in bytes

Decoding of UTF-8, one byte at a time, with a precise account of the first place where the bytes
are no text, and the reading of line ends: a carriage return, alone or before a line feed, counts
as a line feed.
-/

namespace TinyCompiler.Text

/-- Why bytes are no text. -/
inductive EncodingFault where
  /-- A byte that cannot begin a character. -/
  | badStart
  /-- A byte that cannot continue the character begun before it. -/
  | badContinuation
  /-- The bytes end inside a character. -/
  | cutShort
  deriving DecidableEq, Repr

/-- The first fault of a sequence of bytes: the bytes from `start` on, `size` of them, of which
`first` is the first. -/
structure EncodingError where
  fault : EncodingFault
  start : Nat
  size : Nat
  first : UInt8
  deriving DecidableEq, Repr

/-- The reason as words. -/
def EncodingFault.reason : EncodingFault → String
  | .badStart => "invalid start byte"
  | .badContinuation => "invalid continuation byte"
  | .cutShort => "unexpected end of data"

/-- The error as a sentence. -/
def EncodingError.message (e : EncodingError) : String :=
  let place :=
    if e.size = 1 then
      "byte 0x" ++ String.ofList (hexadecimal 2 e.first.toNat) ++ " in position " ++ toString e.start
    else
      "bytes in position " ++ toString e.start ++ "-" ++ toString (e.start + e.size - 1)
  "'utf-8' codec can't decode " ++ place ++ ": " ++ e.fault.reason

/-- A character whose bytes are being read: where it began, how many bytes of it were read, the bits
so far, and the ranges in which its remaining bytes must lie. -/
structure OpenChar where
  start : Nat
  first : UInt8
  size : Nat
  bits : Nat
  due : List (Nat × Nat)

/-- The range of a byte that continues a character. -/
def tailRange : Nat × Nat := (0x80, 0xBF)

/-- What a first byte announces: its bits of the character, and the ranges of the bytes to come.
Second bytes are restricted so that no character has two forms and surrogates have none. -/
def announced (b : Nat) : Option (Nat × List (Nat × Nat)) :=
  if b < 0x80 then some (b, [])
  else if b < 0xC2 then none
  else if b < 0xE0 then some (b - 0xC0, [tailRange])
  else if b = 0xE0 then some (0, [(0xA0, 0xBF), tailRange])
  else if b = 0xED then some (0xD, [(0x80, 0x9F), tailRange])
  else if b < 0xF0 then some (b - 0xE0, [tailRange, tailRange])
  else if b = 0xF0 then some (0, [(0x90, 0xBF), tailRange, tailRange])
  else if b < 0xF4 then some (b - 0xF0, [tailRange, tailRange, tailRange])
  else if b = 0xF4 then some (4, [(0x80, 0x8F), tailRange, tailRange])
  else none

/-- Decodes the bytes from a position on; `pending` is the character that is being read. -/
def decodeFrom : (position : Nat) → (pending : Option OpenChar) → List UInt8 →
    Except EncodingError (List Char)
  | _, none, [] => .ok []
  | _, some c, [] => .error ⟨.cutShort, c.start, c.size, c.first⟩
  | position, none, b :: rest =>
    match announced b.toNat with
    | none => .error ⟨.badStart, position, 1, b⟩
    | some (bits, []) => (Char.ofNat bits :: ·) <$> decodeFrom (position + 1) none rest
    | some (bits, due) => decodeFrom (position + 1) (some ⟨position, b, 1, bits, due⟩) rest
  | position, some c, b :: rest =>
    match c.due with
    | [] => .error ⟨.badContinuation, c.start, c.size, c.first⟩
    | (low, high) :: due =>
      if low ≤ b.toNat ∧ b.toNat ≤ high then
        let bits := c.bits * 64 + (b.toNat - 0x80)
        if due.isEmpty then (Char.ofNat bits :: ·) <$> decodeFrom (position + 1) none rest
        else decodeFrom (position + 1) (some ⟨c.start, c.first, c.size + 1, bits, due⟩) rest
      else .error ⟨.badContinuation, c.start, c.size, c.first⟩

/-- Line ends of all kinds as line feeds. -/
def unifyLineEnds : List Char → List Char
  | [] => []
  | '\r' :: '\n' :: rest => '\n' :: unifyLineEnds rest
  | '\r' :: rest => '\n' :: unifyLineEnds rest
  | c :: rest => c :: unifyLineEnds rest

/-- The text that a file's bytes hold. -/
def readBytes (bytes : List UInt8) : Except EncodingError String :=
  (String.ofList ∘ unifyLineEnds) <$> decodeFrom 0 none bytes

end TinyCompiler.Text
