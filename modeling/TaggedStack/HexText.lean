import TaggedStack.Word
import TaggedStack.Text.Numeral
import TaggedStack.Text.Quoted

/-!
# Programs as hexadecimal text

One word a line. The part of a line from its first `#` (`0x23`) on is a comment; what is left is
stripped of white space, and a line with nothing left is skipped. Every other line must be a
signed hexadecimal numeral whose value is a machine word. Reading stops at the first line
that is not, and tells apart a line that is no numeral from a numeral out of range.

* `HexText.content`: what a line says.
* `HexText.readLine`: the word of a single line, or why it has none.
* `HexText.parse`: the words of a text.
-/

namespace TaggedStack.HexText

/-- Why a line has no word. Lines are counted from one. -/
inductive LineError
  | notNumeral (line : Nat) (content : Text)
  | outOfRange (line : Nat) (content : Text)
  deriving DecidableEq, Repr

/-- The wording of a line error. -/
def LineError.message : LineError → String
  | notNumeral line content => s!"Line {line}: not a hex word: {Text.quoted content}"
  | outOfRange line content =>
    s!"Line {line}: word out of 32-bit range: {Text.toString content}"

/-- What a line says: its part before a comment, without surrounding white space. -/
def content (line : Text) : Text := Text.strip Text.isBlank (line.takeWhile (· ≠ 0x23))

/-- The word of a line, `none` for a line that says nothing. -/
def readLine (number : Nat) (line : Text) : Except LineError (Option Int) :=
  let body := content line
  if body.isEmpty then .ok none
  else
    match Text.hexInt? body with
    | none => .error (.notNumeral number body)
    | some value =>
      if IsWord value then .ok (some value) else .error (.outOfRange number body)

/-- The words of lines, the first of which has the given number. -/
def readLines (number : Nat) : List Text → Except LineError (List Int)
  | [] => .ok []
  | line :: rest => do
    let word? ← readLine number line
    let words ← readLines (number + 1) rest
    return word?.toList ++ words

/-- The words of a text. -/
def parse (text : Text) : Except LineError (List Int) := readLines 1 (Text.lines text)

end TaggedStack.HexText
