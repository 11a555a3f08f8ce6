/-!
# Quantities

A number that someone asked for, or a blank where the number should stand. A blank can be
carried along and shown, but using it as a number fails, and how it fails depends on the use.

* `Quantity.text`: how a quantity is shown.
* `BlankError`: the uses that fail on a blank.
-/

namespace TaggedStack

/-- A number that was asked for, or a blank in its place. -/
inductive Quantity
  | number (value : Int)
  | blank
  deriving DecidableEq, Repr

instance : Coe Int Quantity := ⟨.number⟩

namespace Quantity

/-- How a quantity is shown. -/
def text : Quantity → String
  | number value => toString value
  | blank => "[]"

/-- The numbers in what is shown of a quantity. -/
def numbers : Quantity → List Int
  | number value => [value]
  | blank => []

end Quantity

/-- The use that failed on a blank. -/
inductive BlankError
  /-- Comparing by `<`. -/
  | less
  /-- Comparing by `≤`. -/
  | atMost
  /-- Counting up to it. -/
  | count
  /-- Looking it up among names. -/
  | name
  /-- Seeding a source of random words with it. -/
  | seed
  deriving DecidableEq, Repr

/-- The wording of a blank error. -/
def BlankError.message : BlankError → String
  | less => "'<' not supported between instances of 'int' and 'list'"
  | atMost => "'<=' not supported between instances of 'int' and 'list'"
  | count => "'list' object cannot be interpreted as an integer"
  | name => "unhashable type: 'list'"
  | seed =>
    "The only supported seed types are: None,\nint, float, str, bytes, and bytearray."

end TaggedStack
