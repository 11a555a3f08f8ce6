import TaggedStack.Text.CodePoint

/-!
# White space and line breaks

The code points that stripping a line removes, and those that end a line. Every line break is
blank; the zero-width space and the byte order mark are not.

* `isBlank_of_isWhitespace`: everything the core library takes for white space is blank.
* `isBlank_of_isBreak`: a line break is blank.
-/

namespace TaggedStack.Text

/-- White space. -/
def isBlank (c : CodePoint) : Bool :=
  let n := c.val
  (0x09 ≤ n && n ≤ 0x0D) || (0x1C ≤ n && n ≤ 0x20) || n == 0x85 || n == 0xA0 || n == 0x1680 ||
    (0x2000 ≤ n && n ≤ 0x200A) || n == 0x2028 || n == 0x2029 || n == 0x202F || n == 0x205F ||
    n == 0x3000

/-- Blanks that may surround a number: all but the four separators `0x1C` to `0x1F`. -/
def isOuterBlank (c : CodePoint) : Bool := isBlank c && !(0x1C ≤ c.val && c.val ≤ 0x1F)

/-- Code points that end a line. -/
def isBreak (c : CodePoint) : Bool :=
  let n := c.val
  (0x0A ≤ n && n ≤ 0x0D) || (0x1C ≤ n && n ≤ 0x1E) || n == 0x85 || n == 0x2028 || n == 0x2029

theorem isBlank_of_isBreak {c : CodePoint} (h : isBreak c) : isBlank c := by
  simp only [isBreak, isBlank, Bool.or_eq_true, Bool.and_eq_true, decide_eq_true_eq,
    beq_iff_eq] at h ⊢
  omega

theorem isBlank_of_isWhitespace {c : Char} (h : c.isWhitespace) : isBlank (.ofChar c) := by
  simp only [Char.isWhitespace, Bool.or_eq_true, decide_eq_true_eq] at h
  rcases h with ((rfl | rfl) | rfl) | rfl <;> decide

/-- A text without the code points of a class at its two ends. -/
def strip (drops : CodePoint → Bool) (s : Text) : Text :=
  ((s.dropWhile drops).reverse.dropWhile drops).reverse

/-- The lines of a text. A carriage return (`0x0D`) and a line feed (`0x0A`) after it are one
break, and a break at the very end starts no further line. -/
def lines : Text → List Text
  | [] => []
  | 0x0D :: 0x0A :: rest => [] :: lines rest
  | c :: rest =>
    if isBreak c then [] :: lines rest
    else
      match lines rest with
      | [] => [[c]]
      | line :: more => (c :: line) :: more

end TaggedStack.Text
