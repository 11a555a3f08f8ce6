import TaggedStack.Text.CodePoint

/-!
# Reading UTF-8

The reader goes through the bytes one at a time. The first byte of a character says how many
bytes follow and in which range the first of them lies; that range excludes overlong forms,
surrogates and numbers above `0x10FFFF`. The first byte that does not fit ends the reading.
The error then covers the bytes of the character that were read before it, and at the end of
the input all bytes of the unfinished character.
-/

namespace TaggedStack.Utf8

/-- What is wrong with a character's bytes. -/
inductive Problem
  | start
  | continuation
  | unfinished
  deriving DecidableEq, Repr

/-- The wording of a problem. -/
def Problem.message : Problem → String
  | start => "invalid start byte"
  | continuation => "invalid continuation byte"
  | unfinished => "unexpected end of data"

/-- Where the bytes of a character go wrong. -/
structure DecodeError where
  /-- Position of the character's first byte. -/
  position : Nat
  /-- The character's first byte. -/
  first : UInt8
  /-- How many bytes the error covers. -/
  count : Nat
  problem : Problem
  deriving DecidableEq, Repr

/-- The wording of a decoding error: a single byte is shown, several are given by their
positions. -/
def DecodeError.message (e : DecodeError) : String :=
  let place :=
    if e.count = 1 then
      let digits := Nat.toDigits 16 e.first.toNat
      let shown := String.ofList (List.replicate (2 - digits.length) '0' ++ digits)
      s!"byte 0x{shown} in position {e.position}"
    else
      let last := e.position + e.count - 1
      s!"bytes in position {e.position}-{last}"
  s!"'utf-8' codec can't decode {place}: {e.problem.message}"

/-- A character of which some bytes were read. -/
structure Begun where
  /-- Position of its first byte. -/
  position : Nat
  first : UInt8
  /-- How many bytes were read. -/
  count : Nat
  /-- How many bytes are missing. -/
  missing : Nat
  /-- Least value of the next byte. -/
  low : Nat
  /-- Greatest value of the next byte. -/
  high : Nat
  /-- The bits read so far. -/
  bits : Nat

/-- What the first byte of a character of several bytes announces: how many bytes follow,
the range of the next one, and the first bits. -/
def announced (b : Nat) : Option (Nat × Nat × Nat × Nat) :=
  if 0xC2 ≤ b ∧ b ≤ 0xDF then some (1, 0x80, 0xBF, b - 0xC0)
  else if b = 0xE0 then some (2, 0xA0, 0xBF, 0)
  else if b = 0xED then some (2, 0x80, 0x9F, 0xD)
  else if 0xE1 ≤ b ∧ b ≤ 0xEF then some (2, 0x80, 0xBF, b - 0xE0)
  else if b = 0xF0 then some (3, 0x90, 0xBF, 0)
  else if 0xF1 ≤ b ∧ b ≤ 0xF3 then some (3, 0x80, 0xBF, b - 0xF0)
  else if b = 0xF4 then some (3, 0x80, 0x8F, 4)
  else none

/-- The characters of bytes that start at a position, after a character begun before. -/
def decodeFrom : (position : Nat) → Option Begun → List UInt8 → Except DecodeError (List Char)
  | _, none, [] => .ok []
  | _, some p, [] => .error ⟨p.position, p.first, p.count, .unfinished⟩
  | position, none, b :: rest =>
    if b.toNat < 0x80 then
      (Char.ofNat b.toNat :: ·) <$> decodeFrom (position + 1) none rest
    else
      match announced b.toNat with
      | some (missing, low, high, bits) =>
        decodeFrom (position + 1) (some ⟨position, b, 1, missing, low, high, bits⟩) rest
      | none => .error ⟨position, b, 1, .start⟩
  | position, some p, b :: rest =>
    if p.low ≤ b.toNat ∧ b.toNat ≤ p.high then
      let bits := p.bits * 0x40 + b.toNat % 0x40
      if p.missing ≤ 1 then
        (Char.ofNat bits :: ·) <$> decodeFrom (position + 1) none rest
      else
        decodeFrom (position + 1)
          (some ⟨p.position, p.first, p.count + 1, p.missing - 1, 0x80, 0xBF, bits⟩) rest
    else .error ⟨p.position, p.first, p.count, .continuation⟩

/-- The characters of a list of bytes. -/
def decode (bytes : List UInt8) : Except DecodeError (List Char) := decodeFrom 0 none bytes

end TaggedStack.Utf8
