import TaggedStack.Instr
import TaggedStack.Text.Quoted

/-!
# Bundled programs

Two programs that come with the machine: one counts down, one prints a text. Jump targets are
one less than the instruction to resume at.

* `Demo.countdown`: prints the numbers below a start value, down to zero.
* `Demo.hello`: prints a text one code point at a time.
-/

namespace TaggedStack.Demo

/-- Prints the numbers from one below `start` down to zero, with a counter kept in the data
word numbered `address`. -/
def countdown (start address : Int) : Except CodecError (List Int) :=
  assembleItems [
    .number start,            -- 0
    .number address,          -- 1
    .op .stor,                -- 2, a jump to 2 resumes after it
    .number address,          -- 3
    .op .load,                -- 4
    .number 1,                -- 5
    .op .sub,                 -- 6
    .op .dup,                 -- 7
    .number address,          -- 8
    .op .stor,                -- 9
    .op .dup,                 -- 10
    .op .prn,                 -- 11
    .number 15,               -- 12
    .op .jz,                  -- 13, resumes at 16
    .number 2,                -- 14
    .op .jmp,                 -- 15
    .op .halt ]               -- 16

/-- A code point that is no single 16-bit unit. -/
structure WidePoint where
  point : CodePoint
  deriving DecidableEq, Repr

/-- The wording for a code point that is too wide. -/
def WidePoint.message (e : WidePoint) : String :=
  s!"PRNCHAR prints one UTF-16 code unit, cannot print {Text.quoted [e.point]}"

/-- The instructions that print a text, without the final halt. -/
def printing : Text → Except WidePoint (List Instr)
  | [] => .ok []
  | c :: rest =>
    if h : c.val ≤ 0xFFFF then
      ([.literal ⟨c.val, Nat.lt_of_le_of_lt h (by decide)⟩, .op .prnchar] ++ ·) <$> printing rest
    else .error ⟨c⟩

/-- The text printed when no other is asked for. -/
def greeting : Text := Text.ofString "Hello world"

/-- Prints a text one code point at a time, and halts. -/
def hello (text : Text) : Except WidePoint (List Int) := do
  let program ← printing text
  return assemble (program ++ [.op .halt])

end TaggedStack.Demo
