import TaggedStack.Text.Numeral

/-!
# Tagged words

A machine word has 32 bits. Bits 31 and 30 are its *tag*, bits 29 to 0 its *payload*.
Reading the two fields is total on all integers, negative ones included: an integer is read
through its residue modulo `2 ^ 32`, so the fields of `-1` are those of `0xFFFFFFFF`.
Packing two fields of the right width is total as well (`pack`); packing two arbitrary
integers checks both widths, the tag's first (`pack?`).

* `pack_lt`: a packed word has 32 bits.
* `tagOf_pack`, `payloadOf_pack`: reading undoes packing.
* `pack_tagOf_payloadOf`: packing the fields of any integer gives its residue.
-/

namespace TaggedStack

/-- The 30-bit part of a word. -/
abbrev Payload : Type := Fin 0x40000000

/-- The payload of a given value, if it has 30 bits. -/
def Payload.ofInt? (value : Int) : Option Payload :=
  if h : 0 ≤ value ∧ value < 0x40000000 then some ⟨value.toNat, by omega⟩ else none

/-- An integer is a machine word when it lies between `0` and `2 ^ 32 - 1`. -/
def IsWord (word : Int) : Prop := 0 ≤ word ∧ word < 0x100000000

instance (word : Int) : Decidable (IsWord word) := inferInstanceAs (Decidable (_ ∧ _))

/-! ### Tags -/

/-- The kind of a word, held by its two high bits. -/
inductive Tag
  | positive
  | primitive
  | negative
  | undefined
  deriving DecidableEq, Repr

namespace Tag

/-- The tag's two bits as a number. -/
def code : Tag → Nat
  | positive => 0
  | primitive => 1
  | negative => 2
  | undefined => 3

/-- The tag with the given two bits. -/
def ofCode : Fin 4 → Tag
  | 0 => positive
  | 1 => primitive
  | 2 => negative
  | 3 => undefined

/-- The name a tag is shown under. -/
def name : Tag → String
  | positive => "POSITIVE_INTEGER"
  | primitive => "PRIMITIVE"
  | negative => "NEGATIVE_INTEGER"
  | undefined => "UNDEFINED"

/-- Words of either integer tag push their payload, unsigned in both cases. -/
def isLiteral : Tag → Bool
  | positive | negative => true
  | primitive | undefined => false

theorem code_lt (t : Tag) : t.code < 4 := by cases t <;> decide

@[simp]
theorem ofCode_code (t : Tag) : ofCode ⟨t.code, t.code_lt⟩ = t := by cases t <;> rfl

@[simp]
theorem code_ofCode (c : Fin 4) : (ofCode c).code = c := by
  match c with
  | 0 => rfl
  | 1 => rfl
  | 2 => rfl
  | 3 => rfl

end Tag

/-! ### Fields -/

/-- Bits 31 and 30 of an integer. -/
def tagOf (word : Int) : Tag :=
  .ofCode ⟨(word / 0x40000000 % 4).toNat, by omega⟩

/-- Bits 29 to 0 of an integer. -/
def payloadOf (word : Int) : Payload :=
  ⟨(word % 0x40000000).toNat, by omega⟩

/-- The word with the given fields. -/
def pack (tag : Tag) (payload : Payload) : Int :=
  tag.code * 0x40000000 + payload.val

theorem pack_nonneg (t : Tag) (p : Payload) : 0 ≤ pack t p := by
  unfold pack
  omega

theorem pack_lt (t : Tag) (p : Payload) : pack t p < 0x100000000 := by
  have := t.code_lt
  have := p.isLt
  unfold pack
  omega

theorem isWord_pack (t : Tag) (p : Payload) : IsWord (pack t p) :=
  ⟨pack_nonneg t p, pack_lt t p⟩

@[simp]
theorem tagOf_pack (t : Tag) (p : Payload) : tagOf (pack t p) = t := by
  have h : (⟨(pack t p / 0x40000000 % 4).toNat, by omega⟩ : Fin 4) = ⟨t.code, t.code_lt⟩ := by
    have := t.code_lt
    have := p.isLt
    apply Fin.ext
    simp only [pack]
    omega
  rw [tagOf, h, Tag.ofCode_code]

@[simp]
theorem payloadOf_pack (t : Tag) (p : Payload) : payloadOf (pack t p) = p := by
  have := p.isLt
  apply Fin.ext
  simp only [payloadOf, pack]
  omega

/-- Reading both fields and packing them again keeps the low 32 bits. -/
theorem pack_tagOf_payloadOf (w : Int) : pack (tagOf w) (payloadOf w) = w % 0x100000000 := by
  simp only [pack, tagOf, payloadOf, Tag.code_ofCode]
  omega

/-! ### Packing arbitrary integers -/

/-- Why two integers are not the fields of a word. -/
inductive PackError
  | tagRange (tag : Int)
  | payloadRange (payload : Int)
  deriving DecidableEq, Repr

/-- The wording of a packing error. -/
def PackError.message : PackError → String
  | tagRange tag => Text.worded [tag] s!"Tag must be 0-3, got {tag}"
  | payloadRange payload =>
    Text.worded [payload] s!"Payload must be 0-0x3FFFFFFF, got {payload}"

/-- The word with the given fields; the tag's range is checked before the payload's. -/
def pack? (tag payload : Int) : Except PackError Int :=
  if h : 0 ≤ tag ∧ tag < 4 then
    match Payload.ofInt? payload with
    | some p => .ok (pack (.ofCode ⟨tag.toNat, by omega⟩) p)
    | none => .error (.payloadRange payload)
  else .error (.tagRange tag)

end TaggedStack
