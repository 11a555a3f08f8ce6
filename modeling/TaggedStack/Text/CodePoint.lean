/-!
# Code points

Program output is a sequence of code points, and a program may print half of a surrogate
pair, which is no character. `Text` therefore is a list of code points; a `String` holds only
those texts that have no surrogates.

* `CodePoint.toChar_ofChar`: a character comes back from its code point.
-/

namespace TaggedStack

/-- A number from `0` to `0x10FFFF`. -/
abbrev CodePoint : Type := Fin 0x110000

/-- There are code points, so every number names one. -/
instance CodePoint.neZero : @NeZero Nat Zero.ofOfNat0 0x110000 := ⟨by decide⟩

/-- A sequence of code points, surrogates included. -/
abbrev Text : Type := List CodePoint

/-- Why a number is no code point. -/
inductive CodePointError
  /-- A signed number of 32 bits, but not from the range of code points. -/
  | outOfRange (value : Int)
  /-- Not even a signed number of 32 bits. -/
  | tooWide (value : Int)
  deriving DecidableEq, Repr

/-- The wording of a code point error. -/
def CodePointError.message : CodePointError → String
  | outOfRange _ => "chr() arg not in range(0x110000)"
  | tooWide _ => "signed integer does not fit in 32 bits"

namespace CodePoint

/-- The code point of a character. -/
def ofChar (c : Char) : CodePoint :=
  ⟨c.toNat, by
    have h := c.valid
    simp only [UInt32.isValidChar, Nat.isValidChar] at h
    show c.val.toNat < _
    omega⟩

/-- The code point with a given number. -/
def ofInt (value : Int) : Except CodePointError CodePoint :=
  if h : 0 ≤ value ∧ value < 0x110000 then .ok ⟨value.toNat, by omega⟩
  else if -0x80000000 ≤ value ∧ value < 0x80000000 then .error (.outOfRange value)
  else .error (.tooWide value)

/-- The code point of a number's low 16 bits. -/
def ofLowBits (value : Int) : CodePoint := ⟨(value % 0x10000).toNat, by omega⟩

/-- Whether a code point is half of a surrogate pair. -/
def isSurrogate (c : CodePoint) : Bool := 0xD800 ≤ c.val && c.val ≤ 0xDFFF

/-- The character shown in place of what cannot be shown. -/
def replacement : CodePoint := 0xFFFD

/-- A code point with surrogates replaced. -/
def scrub (c : CodePoint) : CodePoint := if c.isSurrogate then replacement else c

/-- The character of a code point, the replacement character for surrogates. -/
def toChar (c : CodePoint) : Char := Char.ofNat c.scrub.val

theorem isSurrogate_ofChar (c : Char) : (ofChar c).isSurrogate = false := by
  have h := c.valid
  simp only [UInt32.isValidChar, Nat.isValidChar] at h
  have hv : (ofChar c).val = c.val.toNat := rfl
  simp only [isSurrogate, hv]
  grind

theorem toChar_ofChar (c : Char) : (ofChar c).toChar = c := by
  simp only [toChar, scrub, isSurrogate_ofChar, Bool.false_eq_true, if_false]
  exact Char.ofNat_toNat c

end CodePoint

namespace Text

/-- The text of a list of numbers, or the error of the first that is no code point. -/
def ofInts (values : List Int) : Except CodePointError Text := values.mapM CodePoint.ofInt

/-- The code points of a string. -/
def ofString (s : String) : Text := s.toList.map CodePoint.ofChar

/-- The decimal text of a number. -/
def decimal (n : Int) : Text := ofString (toString n)

/-- The string of a text, with surrogates replaced. -/
def toString (t : Text) : String := String.ofList (t.map CodePoint.toChar)

end Text

end TaggedStack
