import TaggedStack.Layout

/-!
# Faults

A *fault* is what stops a running program: an address outside its region, an unknown
operation, a division by zero. A *failure* is anything that keeps an operation on memory or on
the machine from going through: a fault, a value that is no machine word, or a number with too
many digits to be written.

A fault is worded as soon as it arises. Where a number in its wording has too many digits there
is no fault, but a failure for the digits (`Failure.ofFault`); so an address far outside memory is
refused in one of two ways.

* `Fault.message`, `Failure.message`: how they are worded.
* `Layout.check`: whether an access may name an address.
* `Layout.rejection`: why an access to memory may not name an address.
* `Layout.rejection_eq_ite`: memory rejects an address as its layout does.
-/

namespace TaggedStack

/-- What stops a running program. -/
inductive Fault
  | outOfBounds (region : Region) (address : Int)
  | unknownOpcode (id : Int)
  | divisionByZero
  deriving DecidableEq, Repr

namespace Fault

/-- The wording of a fault. -/
def message : Fault → String
  | outOfBounds region address => s!"Pointer {address} is out of bounds for {region.name}"
  | unknownOpcode id => s!"Unknown primitive opcode {id}"
  | divisionByZero => "Division by zero"

/-- The numbers in the wording of a fault. -/
def numbers : Fault → List Int
  | outOfBounds _ address => [address]
  | unknownOpcode id => [id]
  | divisionByZero => []

/-- A short name that tells the region, but no address or number. -/
def kind : Fault → String
  | outOfBounds region _ => s!"OutOfBounds({region.name})"
  | unknownOpcode _ => "UnknownOpcode"
  | divisionByZero => "DivisionByZero"

end Fault

/-- What keeps an operation from going through. -/
inductive Failure
  | fault (cause : Fault)
  | wordRange (value : Int)
  | digits (cause : Text.DigitError)
  deriving DecidableEq, Repr

namespace Failure

/-- The wording of a failure. -/
def message : Failure → String
  | fault cause => cause.message
  | wordRange value => Text.worded [value] s!"Memory word must be 0-0xFFFFFFFF, got {value}"
  | digits cause => cause.message

/-- An address outside its region. -/
abbrev outOfBounds (region : Region) (address : Int) : Failure :=
  .fault (.outOfBounds region address)

/-- What comes of a fault: where its numbers cannot be written, that is the failure. -/
def ofFault (cause : Fault) : Failure :=
  if cause.numbers.all Text.isWritable then .fault cause else .digits ⟨⟩

theorem ofFault_outOfBounds (r : Region) (address : Int) :
    ofFault (.outOfBounds r address) =
      if Text.isWritable address then .outOfBounds r address else .digits ⟨⟩ := by
  rw [ofFault, Fault.numbers, List.all_cons, List.all_nil, Bool.and_true]

end Failure

namespace Layout

variable {l : Layout} {r : Region} {address : Int}

/-- Whether an access to a region may name an address, and why not. -/
def check (l : Layout) (r : Region) (address : Int) : Except Failure Unit :=
  if l.Admits r address then .ok () else .error (.ofFault (.outOfBounds r address))

/-- Why an access to memory may not name an address. Memory is taken to be available for every
layout, and so are the numerals of the addresses within reach of it, which are those up to a word
beyond its end. A memory whose size is an index is too small for this to matter. -/
def rejection (l : Layout) (r : Region) (address : Int) : Failure :=
  if address.natAbs < 0x100000000 + l.memSize then .outOfBounds r address
  else .ofFault (.outOfBounds r address)

theorem check_eq_ok_iff : l.check r address = .ok () ↔ l.Admits r address := by
  rw [check]
  split <;> simp [*]

/-- An address within reach of memory is named. -/
theorem rejection_of_reach (h0 : 0 ≤ address) (h : address < 0x100000000 + l.memSize) :
    l.rejection r address = .outOfBounds r address := if_pos (by omega)

/-- Memory rejects an address for its region if it can be written, and else for its digits, as long
as the addresses of the memory itself can be written. -/
theorem rejection_eq_ite (hsize : 0x100000000 + l.memSize ≤ Text.writableLimit) (r : Region)
    (address : Int) :
    l.rejection r address =
      if Text.isWritable address then .outOfBounds r address else .digits ⟨⟩ := by
  rw [rejection, Failure.ofFault_outOfBounds]
  split
  · next hreach =>
    have hwritable : Text.isWritable address = true :=
      decide_eq_true (Nat.lt_of_lt_of_le hreach hsize)
    rw [if_pos hwritable]
  · rfl

end Layout

end TaggedStack
