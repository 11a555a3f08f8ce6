import TaggedStack.Text.Printable

/-!
# Quoted text

How a text is shown inside a message. It stands between single quotes, or between double
quotes if it has a single quote and no double one. The backslash and the enclosing quote are
escaped by a backslash, tab, line feed and carriage return by a letter, and other code points
that are not printable by their number in hexadecimal: two digits where they suffice, else
four, else eight.
-/

namespace TaggedStack.Text

/-- The last `width` hexadecimal digits of a number, in lower case. -/
def hexDigits : (width : Nat) → Nat → List Char
  | 0, _ => []
  | width + 1, n => hexDigits width (n / 16) ++ [Nat.digitChar (n % 16)]

/-- The quote that encloses a text. -/
def enclosing (t : Text) : Char :=
  let single := CodePoint.ofChar '\''
  let double := CodePoint.ofChar '"'
  if t.contains single && !t.contains double then '"' else '\''

/-- What stands for a code point between two quotes of the given kind. -/
def escaped (quote : Char) (c : CodePoint) : List Char :=
  if c = CodePoint.ofChar quote ∨ c = CodePoint.ofChar '\\' then ['\\', c.toChar]
  else if c = CodePoint.ofChar '\t' then ['\\', 't']
  else if c = CodePoint.ofChar '\n' then ['\\', 'n']
  else if c = CodePoint.ofChar '\r' then ['\\', 'r']
  else if c.isPrintable then [c.toChar]
  else if c.val < 0x100 then '\\' :: 'x' :: hexDigits 2 c.val
  else if c.val < 0x10000 then '\\' :: 'u' :: hexDigits 4 c.val
  else '\\' :: 'U' :: hexDigits 8 c.val

/-- A text as a message shows it. -/
def quoted (t : Text) : String :=
  let quote := t.enclosing
  String.ofList (quote :: t.flatMap (escaped quote) ++ [quote])

end TaggedStack.Text

namespace TaggedStack

/-- A string as a message shows it. -/
def quotedString (s : String) : String := (Text.ofString s).quoted

end TaggedStack
