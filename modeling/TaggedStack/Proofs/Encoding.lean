import Mathlib.Data.Int.Bitwise
import Mathlib.Data.List.Forall2
import TaggedStack.Proofs.Description

/-!
# Words and instructions determine each other

The fields of a word are digits of an integer: the tag in base four above the lowest thirty bits,
the payload those bits. Masks and shifts give the same fields, for negative integers too
(`tagBits_eq`, `payloadBits_eq`), because masking with `2 ^ k - 1` is the remainder modulo `2 ^ k`
whatever the sign. Shifting the tag up and joining it with the payload gives the packed word.

The checks on the way line up. Packing, the constructors of the three kinds of checked instruction
and the encoding of a reserved word all ask for the same range of payloads, and decoding asks for a
machine word and nothing else. So the assembler accepts exactly the items that *denote* an
instruction, and the words it gives are those that decode to the instructions denoted.

* `land_two_pow_sub_one`: a mask of low bits is a remainder.
* `pack?_eq_ok_iff`: which integers are packed, and to what.
* `assembleItems_eq_ok_iff`: which items are assembled, and to what.
* `words_and_instructions`: all of it together.
-/

namespace TaggedStack

/-! ### Masks and shifts -/

/-- The tag of an integer by a mask and a shift. -/
def tagBits (word : Int) : Int := Int.land word 0xC0000000 >>> (30 : Nat)

/-- The payload of an integer by a mask. -/
def payloadBits (word : Int) : Int := Int.land word 0x3FFFFFFF

/-- A tag shifted up and joined with a payload. -/
def joinBits (tag payload : Int) : Int := Int.lor (tag <<< (30 : Nat)) payload

/-- Clearing bits of a mask of low bits leaves the mask less what they amount to. -/
theorem ldiff_two_pow_sub_one (k n : Nat) :
    Nat.ldiff (2 ^ k - 1) n = 2 ^ k - (n % 2 ^ k + 1) := by
  have hlt : n % 2 ^ k < 2 ^ k := Nat.mod_lt n (Nat.two_pow_pos k)
  apply Nat.eq_of_testBit_eq
  intro i
  rw [Nat.testBit_ldiff, Nat.testBit_two_pow_sub_succ hlt, Nat.testBit_two_pow_sub_one,
    Nat.testBit_mod_two_pow]
  by_cases hi : i < k <;> simp [hi]

/-- A mask of low bits is a remainder, for integers of either sign. -/
theorem land_two_pow_sub_one (w : Int) (k : Nat) :
    Int.land w ((2 ^ k - 1 : Nat) : Int) = w % ((2 ^ k : Nat) : Int) := by
  rcases w with n | n
  · show ((n &&& (2 ^ k - 1) : Nat) : Int) = (n : Int) % _
    rw [Nat.and_two_pow_sub_one_eq_mod, Int.natCast_mod]
  · -- The bits of a negative integer are those of its complement turned around.
    have hpos : 0 < 2 ^ k := Nat.two_pow_pos k
    have hlt : n % 2 ^ k < 2 ^ k := Nat.mod_lt n hpos
    show ((Nat.ldiff (2 ^ k - 1) n : Nat) : Int) = _
    rw [ldiff_two_pow_sub_one, Int.negSucc_emod n (by exact_mod_cast hpos), ← Int.natCast_mod]
    omega

theorem ldiff_shiftRight (m n j : Nat) : Nat.ldiff m n >>> j = Nat.ldiff (m >>> j) (n >>> j) := by
  apply Nat.eq_of_testBit_eq
  intro i
  simp only [Nat.testBit_shiftRight, Nat.testBit_ldiff]

/-- Shifting down what a mask leaves is masking what is shifted down. -/
theorem land_shiftRight (w : Int) (m j : Nat) :
    Int.land w m >>> j = Int.land (w >>> j) ((m >>> j : Nat) : Int) := by
  rcases w with n | n
  · show (((n &&& m) >>> j : Nat) : Int) = ((n >>> j &&& m >>> j : Nat) : Int)
    rw [Nat.shiftRight_and_distrib]
  · show ((Nat.ldiff m n >>> j : Nat) : Int) = ((Nat.ldiff (m >>> j) (n >>> j) : Nat) : Int)
    rw [ldiff_shiftRight]

theorem code_tagOf (w : Int) : ((tagOf w).code : Int) = w / 0x40000000 % 4 := by
  rw [tagOf, Tag.code_ofCode]
  show ((w / 0x40000000 % 4).toNat : Int) = _
  omega

theorem val_payloadOf (w : Int) : ((payloadOf w).val : Int) = w % 0x40000000 := by
  show ((w % 0x40000000).toNat : Int) = _
  omega

/-- A mask and a shift give the tag. -/
theorem tagBits_eq (w : Int) : tagBits w = (tagOf w).code := by
  have hmask : (0xC0000000 >>> 30 : Nat) = 2 ^ 2 - 1 := by decide
  have hshift := land_shiftRight w 0xC0000000 30
  rw [hmask] at hshift
  calc tagBits w
      = Int.land (w >>> (30 : Nat)) ((2 ^ 2 - 1 : Nat) : Int) := hshift
    _ = w >>> (30 : Nat) % 4 := land_two_pow_sub_one _ 2
    _ = w / 0x40000000 % 4 := by rw [Int.shiftRight_eq_div_pow]; rfl
    _ = (tagOf w).code := (code_tagOf w).symm

/-- A mask gives the payload. -/
theorem payloadBits_eq (w : Int) : payloadBits w = (payloadOf w).val :=
  (land_two_pow_sub_one w 30).trans (val_payloadOf w).symm

/-- A shift and a join give the packed word. -/
theorem joinBits_eq_pack (t : Tag) (p : Payload) : joinBits t.code p.val = pack t p := by
  show ((t.code <<< 30 ||| p.val : Nat) : Int) = t.code * 0x40000000 + p.val
  rw [← Nat.shiftLeft_add_eq_or_of_lt p.isLt, Nat.shiftLeft_eq]
  push_cast
  rfl

/-! ### Ranges -/

theorem Tag.exists_code_eq_iff (c : Int) : (∃ t : Tag, c = t.code) ↔ 0 ≤ c ∧ c ≤ 3 := by
  constructor
  · intro h
    obtain ⟨t, rfl⟩ := h
    have ht := t.code_lt
    omega
  · intro h
    refine ⟨.ofCode ⟨c.toNat, by omega⟩, ?_⟩
    rw [Tag.code_ofCode]
    show c = (c.toNat : Int)
    omega

/-- Tags are told apart by their two bits. -/
theorem Tag.eq_of_code_eq {s t : Tag} (h : s.code = t.code) : s = t := by
  rw [← Tag.ofCode_code s, ← Tag.ofCode_code t]
  simp only [h]

theorem Payload.exists_val_eq_iff (v : Int) :
    (∃ p : Payload, v = p.val) ↔ 0 ≤ v ∧ v < 0x40000000 := by
  constructor
  · intro h
    obtain ⟨p, rfl⟩ := h
    have hp := p.isLt
    omega
  · intro h
    refine ⟨⟨v.toNat, by omega⟩, ?_⟩
    show v = (v.toNat : Int)
    omega

theorem Payload.ofInt?_eq_some_iff {v : Int} {p : Payload} :
    Payload.ofInt? v = some p ↔ v = p.val := by
  have hp := p.isLt
  unfold Payload.ofInt?
  split
  · rw [Option.some.injEq, Fin.ext_iff]
    show v.toNat = p.val ↔ _
    omega
  · simp only [reduceCtorEq, false_iff]
    omega

/-- What is built from a payload is built exactly for the integers that are payloads. -/
theorem checked_eq_ok_iff {ε β : Type} {f : Payload → β} {e : ε} {v : Int} {b : β} :
    (match Payload.ofInt? v with
      | some p => Except.ok (f p)
      | none => Except.error e) = .ok b ↔ ∃ p : Payload, v = p.val ∧ f p = b := by
  simp only [← Payload.ofInt?_eq_some_iff]
  rcases Payload.ofInt? v with - | p <;> simp

theorem exists_checked_iff {β : Type} (f : Payload → β) (v : Int) :
    (∃ b, ∃ p : Payload, v = p.val ∧ f p = b) ↔ 0 ≤ v ∧ v < 0x40000000 := by
  rw [← Payload.exists_val_eq_iff]
  constructor
  · intro h
    obtain ⟨-, p, hp, -⟩ := h
    exact ⟨p, hp⟩
  · intro h
    obtain ⟨p, hp⟩ := h
    exact ⟨f p, p, hp, rfl⟩

/-! ### Packing and building -/

/-- The integers that are packed are a tag's two bits and a payload. -/
theorem pack?_eq_ok_iff {tag payload w : Int} :
    pack? tag payload = .ok w ↔
      ∃ (t : Tag) (p : Payload), tag = t.code ∧ payload = p.val ∧ pack t p = w := by
  unfold pack?
  split
  · next htag =>
    have heq : tag = (Tag.ofCode ⟨tag.toNat, by omega⟩).code := by
      rw [Tag.code_ofCode]
      show tag = (tag.toNat : Int)
      omega
    refine checked_eq_ok_iff.trans ⟨?_, ?_⟩
    · intro h
      obtain ⟨p, hp, hw⟩ := h
      exact ⟨_, p, heq, hp, hw⟩
    · intro h
      obtain ⟨t, p, ht, hp, hw⟩ := h
      refine ⟨p, hp, ?_⟩
      rw [← hw]
      congr 1
      exact Tag.eq_of_code_eq (by omega)
  · next htag =>
    simp only [reduceCtorEq, false_iff]
    intro h
    obtain ⟨t, p, ht, -⟩ := h
    have hcode := (Tag.exists_code_eq_iff tag).1 ⟨t, ht⟩
    omega

/-- Packing goes through for the right widths only. -/
theorem exists_pack?_iff (tag payload : Int) :
    (∃ w, pack? tag payload = .ok w) ↔
      (0 ≤ tag ∧ tag ≤ 3) ∧ 0 ≤ payload ∧ payload < 0x40000000 := by
  rw [← Tag.exists_code_eq_iff, ← Payload.exists_val_eq_iff]
  simp only [pack?_eq_ok_iff]
  constructor
  · intro h
    obtain ⟨-, t, p, ht, hp, -⟩ := h
    exact ⟨⟨t, ht⟩, p, hp⟩
  · intro h
    obtain ⟨⟨t, ht⟩, p, hp⟩ := h
    exact ⟨_, t, p, ht, hp, rfl⟩

namespace Instr

/-- An integer is decoded when it is a machine word. -/
theorem exists_ofWord_iff (w : Int) : (∃ i, ofWord w = .ok i) ↔ IsWord w := by
  unfold ofWord
  split <;> simp [*]

/-- The constructors that check their value, each with the kind of instruction it makes. -/
def checkedConstructors : List ((Int → Except CodecError Instr) × (Payload → Instr)) :=
  [(ofLiteral, literal), (ofNegative, negative), (ofOpcodeId, primitive)]

theorem constructor_eq_ok_iff {build : Int → Except CodecError Instr} {make : Payload → Instr}
    (h : (build, make) ∈ checkedConstructors) {v : Int} {i : Instr} :
    build v = .ok i ↔ ∃ p : Payload, v = p.val ∧ make p = i := by
  simp only [checkedConstructors, List.mem_cons, Prod.mk.injEq, List.not_mem_nil, or_false] at h
  rcases h with ⟨rfl, rfl⟩ | ⟨rfl, rfl⟩ | ⟨rfl, rfl⟩ <;> exact checked_eq_ok_iff

end Instr

/-! ### Items -/

namespace Item

/-- The instruction an item stands for: a plain number is a literal, and a reserved word has to
have a payload. -/
inductive Denotes : Item → Instr → Prop
  | number (p : Payload) : Denotes (.number p.val) (.literal p)
  | instr (i : Instr) : Denotes (.instr i) i
  | reserved (p : Payload) : Denotes (.reserved p.val) (.reserved p)

/-- A reserved word is encoded when its payload is one. -/
theorem encode_reserved_eq_ok_iff {data w : Int} :
    (reserved data).encode = .ok w ↔
      ∃ p : Payload, data = p.val ∧ (Instr.reserved p).word = w :=
  checked_eq_ok_iff

/-- The assembler gives an item the word of the instruction it stands for. -/
theorem assembled_eq_ok_iff {item : Item} {w : Int} :
    item.assembled = .ok w ↔ ∃ i, item.Denotes i ∧ i.word = w := by
  cases item with
  | number value =>
    have hvalue : (number value).assembled = .ok w ↔
        ∃ p : Payload, value = p.val ∧ (Instr.literal p).word = w := by
      rw [← checked_eq_ok_iff (e := CodecError.literalRange value)]
      show Instr.word <$> Instr.ofLiteral value = _ ↔ _
      rw [Instr.ofLiteral]
      rcases Payload.ofInt? value with - | p <;> rfl
    rw [hvalue]
    constructor
    · intro h
      obtain ⟨p, rfl, hw⟩ := h
      exact ⟨_, .number p, hw⟩
    · intro h
      obtain ⟨_, hdenotes, hw⟩ := h
      cases hdenotes with
      | number p => exact ⟨p, rfl, hw⟩
  | instr i =>
    constructor
    · intro h
      exact ⟨i, .instr i, Except.ok.inj h⟩
    · intro h
      obtain ⟨_, ⟨⟩, rfl⟩ := h
      rfl
  | reserved data =>
    rw [show (reserved data).assembled = (reserved data).encode from rfl,
      encode_reserved_eq_ok_iff]
    constructor
    · intro h
      obtain ⟨p, rfl, hw⟩ := h
      exact ⟨_, .reserved p, hw⟩
    · intro h
      obtain ⟨_, hdenotes, hw⟩ := h
      cases hdenotes with
      | reserved p => exact ⟨p, rfl, hw⟩
  | foreign text =>
    constructor
    · intro h
      cases h
    · intro h
      obtain ⟨_, hdenotes, -⟩ := h
      cases hdenotes

end Item

/-- Items are assembled to the words of the instructions they stand for. -/
theorem assembleItems_eq_ok_iff {items : List Item} {ws : List Int} :
    assembleItems items = .ok ws ↔
      ∃ program, List.Forall₂ Item.Denotes items program ∧ ws = assemble program := by
  induction items generalizing ws with
  | nil =>
    constructor
    · intro h
      exact ⟨[], .nil, (Except.ok.inj h).symm⟩
    · intro h
      obtain ⟨_, ⟨⟩, rfl⟩ := h
      rfl
  | cons item items ih =>
    rw [assembleItems, List.mapM_cons]
    constructor
    · intro h
      obtain ⟨w, hw, h⟩ := exists_of_bind_eq_ok h
      obtain ⟨rest, hrest, h⟩ := exists_of_bind_eq_ok h
      obtain ⟨i, hi, rfl⟩ := Item.assembled_eq_ok_iff.1 hw
      obtain ⟨program, hprogram, rfl⟩ := ih.1 hrest
      exact ⟨i :: program, .cons hi hprogram, (Except.ok.inj h).symm⟩
    · intro h
      obtain ⟨_, hdenotes, rfl⟩ := h
      rcases hdenotes with _ | ⟨hi, hprogram⟩
      rw [Item.assembled_eq_ok_iff.2 ⟨_, hi, rfl⟩]
      show (assembleItems items >>= _ : Except CodecError (List Int)) = _
      rw [ih.2 ⟨_, hprogram, rfl⟩]
      rfl

theorem forall₂_denotes_instr (program : List Instr) :
    List.Forall₂ Item.Denotes (program.map .instr) program := by
  induction program with
  | nil => exact .nil
  | cons i program ih => exact .cons (.instr i) ih

/-! ### The whole codec -/

/-- **Words and instructions determine each other.** The fields of any integer are its digits, by
masks and shifts as well, and packing them gives its residue. Packing asks for both widths and is
undone by reading the fields. Decoding asks for a machine word and is undone by encoding; encoding
is undone by decoding. The checked constructors and the encoding of a reserved word ask for a
payload. The words that are assembled decode to the instructions that the items stand for, and
machine words decode to instructions that are assembled to the same words. -/
theorem words_and_instructions :
    (∀ w : Int,
      ((tagOf w).code : Int) = w / 0x40000000 % 4 ∧ tagBits w = (tagOf w).code ∧
        ((payloadOf w).val : Int) = w % 0x40000000 ∧ payloadBits w = (payloadOf w).val ∧
        pack? (tagOf w).code (payloadOf w).val = .ok (w % 0x100000000)) ∧
      (∀ tag payload : Int,
        ((∃ w, pack? tag payload = .ok w) ↔
          (0 ≤ tag ∧ tag ≤ 3) ∧ 0 ≤ payload ∧ payload < 0x40000000) ∧
          ∀ w, pack? tag payload = .ok w →
            w = joinBits tag payload ∧ ((tagOf w).code : Int) = tag ∧
              ((payloadOf w).val : Int) = payload) ∧
      (∀ w : Int,
        ((∃ i, Instr.ofWord w = .ok i) ↔ 0 ≤ w ∧ w < 0x100000000) ∧
          ∀ i, Instr.ofWord w = .ok i → (Item.instr i).encode = .ok w) ∧
      (∀ i : Instr, ∃ w, (Item.instr i).encode = .ok w ∧ Instr.ofWord w = .ok i) ∧
      (∀ build make, (build, make) ∈ Instr.checkedConstructors → ∀ v : Int,
        ((∃ i, build v = .ok i) ↔ 0 ≤ v ∧ v < 0x40000000) ∧
          ∀ i, build v = .ok i → ∃ p : Payload, v = p.val ∧ make p = i) ∧
      (∀ v : Int,
        ((∃ w, (Item.reserved v).encode = .ok w) ↔ 0 ≤ v ∧ v < 0x40000000) ∧
          ∀ w, (Item.reserved v).encode = .ok w →
            ∃ p : Payload, v = p.val ∧ Instr.ofWord w = .ok (.reserved p)) ∧
      (∀ (items : List Item) (ws : List Int),
        assembleItems items = .ok ws ↔
          ∃ program, List.Forall₂ Item.Denotes items program ∧
            ws.mapM Instr.ofWord = .ok program) ∧
      ∀ ws : List Int, (∀ w ∈ ws, 0 ≤ w ∧ w < 0x100000000) →
        ∃ program, ws.mapM Instr.ofWord = .ok program ∧
          assembleItems (program.map .instr) = .ok ws := by
  refine ⟨fun w ↦ ?_, fun tag payload ↦ ?_, fun w ↦ ?_, fun i ↦ ?_,
    fun build make hbuild v ↦ ?_, fun v ↦ ?_, fun items ws ↦ ?_, fun ws hws ↦ ?_⟩
  · exact ⟨code_tagOf w, tagBits_eq w, val_payloadOf w, payloadBits_eq w,
      pack?_eq_ok_iff.2 ⟨_, _, rfl, rfl, pack_tagOf_payloadOf w⟩⟩
  · refine ⟨exists_pack?_iff tag payload, fun w hw ↦ ?_⟩
    obtain ⟨t, p, rfl, rfl, rfl⟩ := pack?_eq_ok_iff.1 hw
    rw [tagOf_pack, payloadOf_pack, joinBits_eq_pack]
    exact ⟨rfl, rfl, rfl⟩
  · refine ⟨Instr.exists_ofWord_iff w, fun i hi ↦ ?_⟩
    rw [← Instr.word_of_ofWord hi]
    rfl
  · exact ⟨i.word, rfl, i.ofWord_word⟩
  · simp only [Instr.constructor_eq_ok_iff hbuild]
    exact ⟨exists_checked_iff make v, fun _ h ↦ h⟩
  · simp only [Item.encode_reserved_eq_ok_iff]
    refine ⟨exists_checked_iff (fun p ↦ (Instr.reserved p).word) v, fun w h ↦ ?_⟩
    obtain ⟨p, hp, rfl⟩ := h
    exact ⟨p, hp, Instr.ofWord_word _⟩
  · simp only [mapM_ofWord_eq_ok_iff]
    exact assembleItems_eq_ok_iff
  · obtain ⟨program, rfl⟩ := exists_assemble_eq hws
    exact ⟨program, mapM_ofWord_eq_ok_iff.2 rfl,
      assembleItems_eq_ok_iff.2 ⟨program, forall₂_denotes_instr program, rfl⟩⟩

/-- The fields of `-1` are those of the greatest word, and an addition after a plain number and a
reserved word is assembled and decoded again. -/
theorem words_and_instructions_mixed :
    tagBits (-1) = 3 ∧ payloadBits (-1) = 0x3FFFFFFF ∧
      (∃ w, pack? 2 5 = .ok w ∧ ((tagOf w).code : Int) = 2 ∧ ((payloadOf w).val : Int) = 5) ∧
      (∃ p : Payload, Instr.ofOpcodeId 1 = .ok (.primitive p) ∧ (1 : Int) = p.val) ∧
      assembleItems [.number 7, .reserved 9, .op .add] =
        .ok [7, 0xC0000009, 0x40000001] ∧
      ∃ program, [7, 0xC0000009, 0x40000001].mapM Instr.ofWord = .ok program ∧
        assembleItems (program.map .instr) = .ok [7, 0xC0000009, 0x40000001] := by
  obtain ⟨hfields, hpack, -, -, hbuild, -, hitems, hwords⟩ := words_and_instructions
  obtain ⟨w, hw⟩ := (hpack 2 5).1.2 (by decide)
  have hbuilt := hbuild Instr.ofOpcodeId Instr.primitive (by simp [Instr.checkedConstructors]) 1
  obtain ⟨i, hi⟩ := hbuilt.1.2 (by decide)
  obtain ⟨p, hp, rfl⟩ := hbuilt.2 i hi
  refine ⟨(hfields (-1)).2.1.trans rfl, (hfields (-1)).2.2.2.1.trans rfl,
    ⟨w, hw, ((hpack 2 5).2 w hw).2⟩, ⟨p, hi, hp⟩, ?_, hwords _ (by decide)⟩
  exact (hitems _ _).2 ⟨[.literal 7, .reserved 9, .op .add],
    .cons (.number 7) (.cons (.reserved 9) (.cons (.instr _) .nil)), rfl⟩

end TaggedStack
