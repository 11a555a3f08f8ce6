import TaggedStack.Quantity
import TaggedStack.Text.Numeral

/-!
# Memory layouts

Memory is a row of words cut into three regions: the stack, the instructions and the program
data, in this order and without gaps. A layout says where the cuts are. Address `0` belongs to
the stack region but holds no value: it marks the empty stack, so no access admits it.

* `Layout.lack?`: why there is no room for the memory of a layout.
* `Layout.regionOf`: the region an address lies in.
* `Layout.Admits`: the addresses an access to a region may name.
* `Layout.admits_unique`: an address is admitted for at most one region.
* `Layout.exists_admits_iff`: the admitted addresses are those from `1` to the end of memory.
-/

namespace TaggedStack

/-- The three parts of memory. -/
inductive Region
  | stack
  | instruction
  | data
  deriving DecidableEq, Repr

namespace Region

/-- The regions in the order of their addresses. -/
def all : List Region := [stack, instruction, data]

/-- The name a region is shown under. -/
def name : Region → String
  | stack => "STACK"
  | instruction => "INSTRUCTION"
  | data => "PROGRAM_DATA"

/-- The region with the given name, if there is one. -/
def ofName? (name : String) : Option Region := all.find? (·.name == name)

@[simp]
theorem ofName?_name (r : Region) : ofName? r.name = some r := by cases r <;> decide

end Region

/-- A name that is no region's. -/
structure RegionError where
  name : String
  deriving DecidableEq, Repr

/-- The wording of a region error. -/
def RegionError.message (e : RegionError) : String := s!"Unknown region: {e.name}"

/-- The region with the given name. -/
def Region.ofName (name : String) : Except RegionError Region :=
  match ofName? name with
  | some r => .ok r
  | none => .error ⟨name⟩

/-- Where memory is cut. The stack and the instruction region have at least one word each; the
data region may be empty. -/
structure Layout where
  /-- The number of words of memory. -/
  memSize : Nat
  /-- The first instruction address. -/
  stackLimit : Nat
  /-- The first data address. -/
  dataBase : Nat
  stackLimit_pos : 0 < stackLimit
  stackLimit_lt : stackLimit < dataBase
  dataBase_le : dataBase ≤ memSize
  deriving DecidableEq

/-- Three quantities that are no layout. -/
structure LayoutError where
  memSize : Quantity
  stackLimit : Quantity
  dataBase : Quantity
  deriving DecidableEq, Repr

/-- The wording of a layout error. -/
def LayoutError.message (e : LayoutError) : String :=
  Text.worded ([e.stackLimit, e.dataBase, e.memSize].flatMap Quantity.numbers) <|
    "Layout must satisfy 0 < stack_limit < data_base <= mem_size, got " ++
      s!"stack_limit={e.stackLimit.text}, data_base={e.dataBase.text}, mem_size={e.memSize.text}"

/-- Why three quantities are no layout. -/
inductive BoundsError
  | order (cause : LayoutError)
  | blank (cause : BlankError)
  deriving DecidableEq, Repr

/-- Why there is no room for the memory of a layout. -/
inductive RoomError
  /-- Its size is no index. -/
  | unindexable
  /-- The host does not provide so much of it. -/
  | exhausted
  deriving DecidableEq, Repr

/-- The wording of a room error. -/
def RoomError.message : RoomError → String
  | unindexable => "cannot fit 'int' into an index-sized integer"
  | exhausted => ""

namespace Layout

/-- The layout of 150 words with 50 in each region. -/
def standard : Layout := ⟨150, 50, 100, by decide, by decide, by decide⟩

instance : Inhabited Layout := ⟨standard⟩

/-- The layout with the given cuts, if they are in order. -/
def ofBounds (memSize stackLimit dataBase : Int) : Except LayoutError Layout :=
  if h : 0 < stackLimit ∧ stackLimit < dataBase ∧ dataBase ≤ memSize then
    .ok ⟨memSize.toNat, stackLimit.toNat, dataBase.toNat, by omega, by omega, by omega⟩
  else .error ⟨memSize, stackLimit, dataBase⟩

/-- The layout with the given cuts, compared from the lowest up. A blank fails when it is
compared, so only if the cuts below it are in order. -/
def ofQuantities (memSize stackLimit dataBase : Quantity) : Except BoundsError Layout :=
  let misplaced : Except BoundsError Layout := .error (.order ⟨memSize, stackLimit, dataBase⟩)
  match stackLimit, dataBase, memSize with
  | .blank, _, _ => .error (.blank .less)
  | .number s, .blank, _ => if 0 < s then .error (.blank .less) else misplaced
  | .number s, .number d, .blank =>
    if 0 < s ∧ s < d then .error (.blank .atMost) else misplaced
  | .number s, .number d, .number m => (ofBounds m s d).mapError .order

/-- The least number that is no index. -/
def indexLimit : Nat := 0x8000000000000000

/-- Why there is no room for a layout's memory, if there is none. It is for the host to say for
which numbers of words it provides room, as long as these are indices. -/
def lack? (l : Layout) (provides : Nat → Bool) : Option RoomError :=
  if indexLimit ≤ l.memSize then some .unindexable
  else if provides l.memSize then none
  else some .exhausted

/-- What is lacking where there is no room for a layout's memory. -/
theorem lack?_of_not {l : Layout} {provides : Nat → Bool}
    (h : ¬(l.memSize < indexLimit ∧ provides l.memSize = true)) :
    l.lack? provides =
      some (if indexLimit ≤ l.memSize then .unindexable else .exhausted) := by
  rw [lack?]
  grind

theorem lack?_eq_none_iff {l : Layout} {provides : Nat → Bool} :
    l.lack? provides = none ↔ l.memSize < indexLimit ∧ provides l.memSize = true := by
  rw [lack?]
  grind

/-- The address of the first instruction. -/
abbrev instructionBase (l : Layout) : Nat := l.stackLimit

/-- How many instructions fit. -/
def instructionCapacity (l : Layout) : Nat := l.dataBase - l.stackLimit

/-- How many values the stack holds: address `0` is not used. -/
def stackCapacity (l : Layout) : Nat := l.stackLimit - 1

/-- How many words of program data there are. -/
def dataSize (l : Layout) : Nat := l.memSize - l.dataBase

/-- First address of a region and the address after its last. -/
def bounds (l : Layout) : Region → Nat × Nat
  | .stack => (0, l.stackLimit)
  | .instruction => (l.stackLimit, l.dataBase)
  | .data => (l.dataBase, l.memSize)

/-- The region an address lies in. -/
def regionOf (l : Layout) (address : Int) : Option Region :=
  Region.all.find? fun r ↦ (l.bounds r).1 ≤ address ∧ address < (l.bounds r).2

/-- Whether an access to a region may name an address. -/
def Admits (l : Layout) (r : Region) (address : Int) : Prop :=
  ¬(r = .stack ∧ address = 0) ∧ l.regionOf address = some r

instance (l : Layout) (r : Region) (address : Int) : Decidable (l.Admits r address) :=
  inferInstanceAs (Decidable (_ ∧ _))

/-- How a layout is shown. -/
def text (l : Layout) : String :=
  s!"MemoryLayout(mem_size={l.memSize}, stack_limit={l.stackLimit}, data_base={l.dataBase})"

/-- The numbers in the wording of a layout. -/
def numbers (l : Layout) : List Int := [l.memSize, l.stackLimit, l.dataBase]

/-! ### Which addresses are admitted -/

theorem regionOf_eq (l : Layout) (address : Int) :
    l.regionOf address =
      if address < 0 then none
      else if address < l.stackLimit then some .stack
      else if address < l.dataBase then some .instruction
      else if address < l.memSize then some .data
      else none := by
  have := l.stackLimit_lt
  have := l.dataBase_le
  simp only [regionOf, Region.all, bounds, List.find?_cons, List.find?_nil]
  grind

theorem admits_stack_iff (l : Layout) (address : Int) :
    l.Admits .stack address ↔ 0 < address ∧ address < l.stackLimit := by
  rw [Admits, regionOf_eq]
  grind

theorem admits_instruction_iff (l : Layout) (address : Int) :
    l.Admits .instruction address ↔ l.stackLimit ≤ address ∧ address < l.dataBase := by
  rw [Admits, regionOf_eq]
  grind

theorem admits_data_iff (l : Layout) (address : Int) :
    l.Admits .data address ↔ l.dataBase ≤ address ∧ address < l.memSize := by
  have := l.stackLimit_lt
  rw [Admits, regionOf_eq]
  grind

/-- An address is admitted for at most one region. -/
theorem admits_unique {l : Layout} {r s : Region} {address : Int}
    (hr : l.Admits r address) (hs : l.Admits s address) : r = s :=
  Option.some.inj (hr.2.symm.trans hs.2)

/-- Every address but `0` is admitted for some region. -/
theorem exists_admits_iff (l : Layout) (address : Int) :
    (∃ r, l.Admits r address) ↔ 0 < address ∧ address < l.memSize := by
  have := l.stackLimit_pos
  have := l.stackLimit_lt
  have := l.dataBase_le
  constructor
  · rintro ⟨_ | _ | _, h⟩
    · rw [admits_stack_iff] at h
      omega
    · rw [admits_instruction_iff] at h
      omega
    · rw [admits_data_iff] at h
      omega
  · intro h
    rcases Int.lt_or_le address l.stackLimit with h1 | h1
    · exact ⟨.stack, (l.admits_stack_iff _).2 ⟨h.1, h1⟩⟩
    · rcases Int.lt_or_le address l.dataBase with h2 | h2
      · exact ⟨.instruction, (l.admits_instruction_iff _).2 ⟨h1, h2⟩⟩
      · exact ⟨.data, (l.admits_data_iff _).2 ⟨h2, h.2⟩⟩

end Layout

end TaggedStack
