import TaggedStack.Text.Blank
import TaggedStack.Text.Digit

/-!
# Numerals

How a number is written. The digits of a numeral may be separated by single underscores, and
a sign may stand before them. A hexadecimal numeral may carry the mark `0x` after its sign,
itself followed by at most one underscore; the zero of the mark may belong to any script. Among
code points the underscore is `0x5F`, the signs are `0x2B` and `0x2D`, and the second half of the
mark is `0x78` or `0x58`.

* `digitRun`: one or more digits with single underscores between them.
* `hexInt?`: a signed hexadecimal numeral.
* `decimalInt?`: a signed decimal numeral, blanks around it allowed.
* `numeral`: the decimal numeral of a number, if it can be written.
* `written`: a text, if the numbers in it can be written in decimal.
* `worded`: what an error says whose wording has numbers in it.
-/

namespace TaggedStack.Text

/-- The value of what follows a digit, given the value so far: further digits, each after at
most one underscore. -/
def moreDigits (base : Nat) (digit? : CodePoint → Option Nat) (value : Nat) :
    Text → Option Nat
  | [] => some value
  | 0x5F :: c :: rest =>
    match digit? c with
    | some d => moreDigits base digit? (value * base + d) rest
    | none => none
  | c :: rest =>
    match digit? c with
    | some d => moreDigits base digit? (value * base + d) rest
    | none => none

/-- The value of one or more digits with single underscores between them. -/
def digitRun (base : Nat) (digit? : CodePoint → Option Nat) : Text → Option Nat
  | [] => none
  | c :: rest =>
    match digit? c with
    | some d => moreDigits base digit? d rest
    | none => none

/-- Reads an optional sign before a numeral. -/
def signed (numeral? : Text → Option Nat) : Text → Option Int
  | 0x2D :: rest => (numeral? rest).map fun n ↦ -(n : Int)
  | 0x2B :: rest => (numeral? rest).map fun n ↦ (n : Int)
  | s => (numeral? s).map fun n ↦ (n : Int)

/-- What follows the mark of a hexadecimal numeral, or all of it if it has none. -/
def dropHexMark : Text → Text
  | z :: x :: rest =>
    if decimal? z = some 0 ∧ (x = 0x78 ∨ x = 0x58) then
      match rest with
      | 0x5F :: rest => rest
      | rest => rest
    else z :: x :: rest
  | s => s

/-- The value of a signed hexadecimal numeral. -/
def hexInt? (s : Text) : Option Int :=
  signed (fun s ↦ digitRun 16 hexadecimal? (dropHexMark s)) s

/-- The most digits a decimal numeral may have, read or written. -/
def decimalDigitLimit : Nat := 4300

/-- The value of a signed decimal numeral with at most `decimalDigitLimit` digits. Blanks may
surround it. -/
def decimalInt? (s : Text) : Option Int :=
  let body := strip isOuterBlank s
  if body.countP (fun c ↦ (decimal? c).isSome) ≤ decimalDigitLimit then
    signed (digitRun 10 decimal?) body
  else none

/-- A number that has too many digits to be written. -/
structure DigitError where
  deriving DecidableEq, Repr

/-- The wording of a digit error. -/
def DigitError.message (_ : DigitError) : String :=
  s!"Exceeds the limit ({decimalDigitLimit} digits) for integer string conversion; " ++
    "use sys.set_int_max_str_digits() to increase the limit"

/-- The least number that has too many digits to be written, which is ten to the power of
`decimalDigitLimit`. The power is taken in two steps, both of them small enough to be evaluated in a
proof. -/
def writableLimit : Nat := Nat.pow (Nat.pow 10 43) 100

/-- Whether a number has few enough digits to be written. -/
def isWritable (n : Int) : Bool := n.natAbs < writableLimit

/-- The decimal numeral of a number, if it can be written. -/
def numeral (n : Int) : Except DigitError Text :=
  if isWritable n then .ok (decimal n) else .error ⟨⟩

/-- A text, if the numbers in it can be written. -/
def written (numbers : List Int) (text : String) : Except DigitError String :=
  if numbers.all isWritable then .ok text else .error ⟨⟩

/-- What an error says whose wording has numbers in it: where they cannot be written, it says
that. -/
def worded (numbers : List Int) (text : String) : String :=
  if numbers.all isWritable then text else DigitError.message ⟨⟩

theorem exists_written_eq_ok_iff {numbers : List Int} {text : String} :
    (∃ t, written numbers text = .ok t) ↔ ∀ n ∈ numbers, isWritable n = true := by
  rw [written, ← List.all_eq_true]
  split <;> simp [*]

theorem isWritable_of_lt {n : Int} (h : n.natAbs < 0x10000000000000000) : isWritable n = true := by
  have hlimit : 0x10000000000000000 ≤ writableLimit := by decide
  exact decide_eq_true (Nat.lt_of_lt_of_le h hlimit)

theorem numeral_eq_ok_iff {n : Int} {t : Text} :
    numeral n = .ok t ↔ isWritable n = true ∧ t = decimal n := by
  rw [numeral]
  split <;> simp [*, eq_comm]

theorem numeral_of_isWritable {n : Int} (h : isWritable n = true) : numeral n = .ok (decimal n) :=
  if_pos h

end TaggedStack.Text
