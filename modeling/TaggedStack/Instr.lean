import TaggedStack.Word

/-!
# Instructions and assembly

An instruction is a word seen through its fields: two kinds of literal, a primitive
operation given by its number, and a reserved kind. Every tag and every payload is an
instruction, so decoding fails only on integers that are no machine words, and encoding
never fails (`Instr.word`).

The assembler also takes *items* that were not checked yet: plain numbers, reserved words
with any payload, and things that are no instruction at all. Its errors name the first item
that cannot be encoded.

* `Instr.ofWord_word`, `Instr.word_of_ofWord`: encoding and decoding are inverse.
* `Opcode.ofId?_id`: the twelve operations are told apart by their numbers.
-/

namespace TaggedStack

/-! ### Operations -/

/-- The primitive operations of the machine. -/
inductive Opcode
  | halt
  | add
  | sub
  | mul
  | div
  | dup
  | jmp
  | jz
  | prn
  | prnchar
  | load
  | stor
  deriving DecidableEq, Repr

namespace Opcode

/-- The operations in the order of their numbers. -/
def all : List Opcode :=
  [halt, add, sub, mul, div, dup, jmp, jz, prn, prnchar, load, stor]

/-- The number of operations. -/
abbrev count : Nat := 12

/-- The operation's number. -/
def id : Opcode → Fin count
  | halt => 0
  | add => 1
  | sub => 2
  | mul => 3
  | div => 4
  | dup => 5
  | jmp => 6
  | jz => 7
  | prn => 8
  | prnchar => 9
  | load => 10
  | stor => 11

/-- The operation with the given number, if there is one. -/
def ofId? : Int → Option Opcode
  | 0 => some halt
  | 1 => some add
  | 2 => some sub
  | 3 => some mul
  | 4 => some div
  | 5 => some dup
  | 6 => some jmp
  | 7 => some jz
  | 8 => some prn
  | 9 => some prnchar
  | 10 => some load
  | 11 => some stor
  | _ => none

/-- The operation's name. -/
def name : Opcode → String
  | halt => "HALT"
  | add => "ADD"
  | sub => "SUB"
  | mul => "MUL"
  | div => "DIV"
  | dup => "DUP"
  | jmp => "JMP"
  | jz => "JZ"
  | prn => "PRN"
  | prnchar => "PRNCHAR"
  | load => "LOAD"
  | stor => "STOR"

/-- The operation with the given name, if there is one. -/
def ofName? (name : String) : Option Opcode :=
  all.find? (·.name == name)

@[simp]
theorem ofId?_id (op : Opcode) : ofId? (op.id.val : Int) = some op := by cases op <;> rfl

theorem mem_all (op : Opcode) : op ∈ all := by cases op <;> decide

theorem length_all : all.length = count := rfl

end Opcode

/-! ### Instructions -/

/-- A machine word read as an instruction. -/
inductive Instr
  /-- Pushes its value. -/
  | literal (value : Payload)
  /-- Pushes its value too; the tag alone tells it from a plain literal. -/
  | negative (value : Payload)
  /-- Performs the operation with the given number. -/
  | primitive (id : Payload)
  /-- A word of the reserved tag. -/
  | reserved (data : Payload)
  deriving DecidableEq, Repr

/-- Why an integer or an item has no word. -/
inductive CodecError
  | literalRange (value : Int)
  | opcodeRange (id : Int)
  | payloadRange (data : Int)
  | wordRange (word : Int)
  | notInstruction (text : String)
  deriving DecidableEq, Repr

/-- The wording of a codec error. -/
def CodecError.message : CodecError → String
  | literalRange value =>
    Text.worded [value] s!"Literal value must be 0-0x3FFFFFFF, got {value}"
  | opcodeRange id => Text.worded [id] s!"Opcode id must be 0-0x3FFFFFFF, got {id}"
  | payloadRange data => (PackError.payloadRange data).message
  | wordRange word => Text.worded [word] s!"Word must be 0-0xFFFFFFFF, got {word}"
  | notInstruction text => s!"Unknown instruction: {text}"

namespace Instr

/-- The instruction that performs an operation. -/
def op (o : Opcode) : Instr := primitive (o.id.castLE (by decide))

/-- The tag of an instruction's word. -/
def tag : Instr → Tag
  | literal _ => .positive
  | negative _ => .negative
  | primitive _ => .primitive
  | reserved _ => .undefined

/-- The payload of an instruction's word. -/
def payload : Instr → Payload
  | literal value | negative value => value
  | primitive id => id
  | reserved data => data

/-- The instruction with the given fields. -/
def ofFields : Tag → Payload → Instr
  | .positive => literal
  | .negative => negative
  | .primitive => primitive
  | .undefined => reserved

/-- The word of an instruction. -/
def word (i : Instr) : Int := pack i.tag i.payload

/-- The instruction of a word; only integers outside the 32-bit range have none. -/
def ofWord (word : Int) : Except CodecError Instr :=
  if IsWord word then .ok (ofFields (tagOf word) (payloadOf word)) else .error (.wordRange word)

/-- The literal of a given value. -/
def ofLiteral (value : Int) : Except CodecError Instr :=
  match Payload.ofInt? value with
  | some p => .ok (literal p)
  | none => .error (.literalRange value)

/-- The literal of a given value under the negative tag. -/
def ofNegative (value : Int) : Except CodecError Instr :=
  match Payload.ofInt? value with
  | some p => .ok (negative p)
  | none => .error (.literalRange value)

/-- The primitive with a given number, which need not be that of an operation. -/
def ofOpcodeId (id : Int) : Except CodecError Instr :=
  match Payload.ofInt? id with
  | some p => .ok (primitive p)
  | none => .error (.opcodeRange id)

/-- How an instruction is shown: a primitive by the name of its operation where it has one. -/
def text : Instr → String
  | literal value => s!"Literal(value={value.val})"
  | negative value => s!"NegativeLiteral(value={value.val})"
  | primitive id =>
    match Opcode.ofId? id.val with
    | some o => o.name
    | none => s!"Primitive({id.val})"
  | reserved data => s!"Reserved(data={data.val})"

@[simp]
theorem ofFields_tag_payload (i : Instr) : ofFields i.tag i.payload = i := by cases i <;> rfl

@[simp]
theorem tag_ofFields (t : Tag) (p : Payload) : (ofFields t p).tag = t := by cases t <;> rfl

@[simp]
theorem payload_ofFields (t : Tag) (p : Payload) : (ofFields t p).payload = p := by
  cases t <;> rfl

theorem isWord_word (i : Instr) : IsWord i.word := isWord_pack _ _

/-- Decoding undoes encoding. -/
@[simp]
theorem ofWord_word (i : Instr) : ofWord i.word = .ok i := by
  have h : pack i.tag i.payload = i.word := rfl
  rw [ofWord, if_pos i.isWord_word, ← h, tagOf_pack, payloadOf_pack, ofFields_tag_payload]

/-- Encoding undoes decoding. -/
theorem word_of_ofWord {w : Int} {i : Instr} (h : ofWord w = .ok i) : i.word = w := by
  unfold ofWord at h
  split at h
  · next hw =>
    cases h
    rw [word, tag_ofFields, payload_ofFields, pack_tagOf_payloadOf]
    exact Int.emod_eq_of_lt hw.1 hw.2
  · cases h

end Instr

/-- The words of a list of instructions. -/
def assemble (program : List Instr) : List Int := program.map Instr.word

/-- Assembled words are machine words. -/
theorem isWord_of_mem_assemble {program : List Instr} {w : Int} (h : w ∈ assemble program) :
    IsWord w := by
  obtain ⟨i, -, rfl⟩ := List.mem_map.1 h
  exact i.isWord_word

/-! ### Items for the assembler -/

/-- What the assembler may be handed. -/
inductive Item
  /-- A plain number, taken as a literal. -/
  | number (value : Int)
  /-- A checked instruction. -/
  | instr (i : Instr)
  /-- A reserved word whose payload is checked only when it is encoded. -/
  | reserved (data : Int)
  /-- Something that is no instruction, known by its text. -/
  | foreign (text : String)
  deriving DecidableEq, Repr

namespace Item

/-- The item of an operation. -/
def op (o : Opcode) : Item := instr (.op o)

/-- How an item is shown. -/
def text : Item → String
  | number value => toString value
  | instr i => i.text
  | reserved data => s!"Reserved(data={data})"
  | foreign text => text

/-- The word of a single item. A plain number is no instruction here. -/
def encode : Item → Except CodecError Int
  | number value => .error (.notInstruction (toString value))
  | instr i => .ok i.word
  | reserved data =>
    match Payload.ofInt? data with
    | some p => .ok (Instr.reserved p).word
    | none => .error (.payloadRange data)
  | foreign text => .error (.notInstruction text)

/-- The word the assembler gives an item: a plain number counts as a literal. -/
def assembled : Item → Except CodecError Int
  | number value => Instr.word <$> Instr.ofLiteral value
  | item => item.encode

end Item

/-- The words of a list of items, or the error of the first item that has none. -/
def assembleItems (items : List Item) : Except CodecError (List Int) :=
  items.mapM Item.assembled

end TaggedStack
