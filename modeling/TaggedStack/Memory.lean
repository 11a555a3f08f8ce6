import TaggedStack.Attempt
import TaggedStack.Fault
import TaggedStack.Word

/-!
# Memory

A memory is a layout and one word for each of its addresses. Every access names the region it
means, and is refused when the address is not admitted there. Writing also refuses values that
are no machine words, and looks at the value before the address.

Words are integers of any size: writing keeps them within 32 bits, but a memory may be given
its first words as they come. Memory is taken to be available: every layout has one, however
many words it asks for. Where a memory is to be had from outside, its lack is found out before
it is made (`Layout.lack?`).

* `Memory.get_set`: a word set is the word found.
* `Memory.get_set_of_ne`: other addresses keep their words.
* `Memory.load`: copies a program to the instruction region; words copied before a refusal
  stay.
-/

namespace TaggedStack

/-- A row of words cut by a layout. -/
structure Memory where
  layout : Layout
  words : Array Int
  size_words : words.size = layout.memSize
  deriving DecidableEq

/-- A list of words that does not fill a memory. -/
structure SizeError where
  needed : Nat
  given : Nat
  deriving DecidableEq, Repr

/-- The wording of a size error. -/
def SizeError.message (e : SizeError) : String :=
  Text.worded [e.needed, e.given] s!"Memory needs {e.needed} words, got {e.given}"

namespace Memory

/-- The memory that holds zero everywhere. -/
def blank (l : Layout) : Memory := ⟨l, Array.replicate l.memSize 0, by simp⟩

/-- The memory with the given words, which are not checked. -/
def ofWords (l : Layout) (words : List Int) : Except SizeError Memory :=
  if h : words.length = l.memSize then .ok ⟨l, words.toArray, by simp [h]⟩
  else .error ⟨l.memSize, words.length⟩

/-- The word at an address. It means something only for addresses an access admits. -/
def get (m : Memory) (address : Int) : Int := m.words.getD address.toNat 0

/-- The memory with the word at an address replaced. -/
def set (m : Memory) (address value : Int) : Memory :=
  { m with
    words := m.words.setIfInBounds address.toNat value
    size_words := by rw [Array.size_setIfInBounds, m.size_words] }

/-- The word at an address of a region. -/
def read (m : Memory) (r : Region) (address : Int) : Except Failure Int :=
  if m.layout.Admits r address then .ok (m.get address)
  else .error (m.layout.rejection r address)

/-- Why a value may not be written at an address of a region, if it may not. -/
def refusal (m : Memory) (r : Region) (address value : Int) : Option Failure :=
  if ¬IsWord value then some (.wordRange value)
  else if ¬m.layout.Admits r address then some (m.layout.rejection r address)
  else none

/-- The memory with a value written at an address of a region. -/
def write (m : Memory) (r : Region) (address value : Int) : Except Failure Memory :=
  match m.refusal r address value with
  | some e => .error e
  | none => .ok (m.set address value)

/-- The words of a region. -/
def regionWords (m : Memory) (r : Region) : List Int :=
  (m.words.extract (m.layout.bounds r).1 (m.layout.bounds r).2).toList

/-- Writes words one after another from an instruction address on. -/
def loadFrom (m : Memory) (address : Int) : List Int → Attempt Memory Failure Unit
  | [] => .succeed m ()
  | w :: ws =>
    match m.refusal .instruction address w with
    | some e => .fail m e
    | none => (m.set address w).loadFrom (address + 1) ws

/-- Copies a program to the start of the instruction region. Words copied before the first
one that is refused stay. -/
def load (m : Memory) (program : List Int) : Attempt Memory Failure Unit :=
  m.loadFrom m.layout.instructionBase program

/-! ### Reading after setting -/

@[simp]
theorem layout_set (m : Memory) (address value : Int) : (m.set address value).layout = m.layout :=
  rfl

theorem get_blank (l : Layout) (address : Int) : (blank l).get address = 0 := by
  simp only [get, blank, Array.getD_eq_getD_getElem?, Array.getElem?_replicate]
  split <;> rfl

/-- A word set is the word found. -/
theorem get_set {m : Memory} {address : Int} (h : address.toNat < m.layout.memSize)
    (value : Int) : (m.set address value).get address = value := by
  have h' : address.toNat < m.words.size := by rw [m.size_words]; exact h
  simp [get, set, Array.getD_eq_getD_getElem?, h']

/-- Other addresses keep their words. -/
theorem get_set_of_ne {m : Memory} {a b : Int} (h : a.toNat ≠ b.toNat) (value : Int) :
    (m.set a value).get b = m.get b := by
  simp [get, set, Array.getD_eq_getD_getElem?, Array.getElem?_setIfInBounds_ne h]

/-- A write is refused for its value first, then for its address. -/
theorem write_eq_ite (m : Memory) (r : Region) (address value : Int) :
    m.write r address value =
      if ¬IsWord value then .error (.wordRange value)
      else if ¬m.layout.Admits r address then .error (m.layout.rejection r address)
      else .ok (m.set address value) := by
  rw [write, refusal]
  by_cases hvalue : IsWord value
  · by_cases hadmits : m.layout.Admits r address <;> simp [hvalue, hadmits]
  · simp [hvalue]

theorem write_eq_ok_iff {m m' : Memory} {r : Region} {address value : Int} :
    m.write r address value = .ok m' ↔
      IsWord value ∧ m.layout.Admits r address ∧ m' = m.set address value := by
  unfold write refusal
  by_cases hv : IsWord value
  · by_cases ha : m.layout.Admits r address
    · simp [hv, ha, eq_comm]
    · simp [hv, ha]
  · simp [hv]

theorem read_eq_ok_iff {m : Memory} {r : Region} {address value : Int} :
    m.read r address = .ok value ↔ m.layout.Admits r address ∧ m.get address = value := by
  unfold read
  split <;> simp [*]

end Memory

end TaggedStack
