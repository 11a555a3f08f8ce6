import TaggedStack.Proofs.Streams
import TaggedStack.Proofs.Verdicts

/-!
# Which cases are drawn, and when none is

Each of the three basic generators fails for reasons that can be read off its bounds, whatever words
are drawn. A case without structure and a structured one need room for a first word, since their
length is drawn from a range. For an expression there must be a depth to start from, a stack slot
for a constant, and room for its three instructions: then the shallowest expressions fit, which are
drawn at the latest when all deeper ones were too large. Nothing else can go wrong, for the numbers
drawn are always in the range of what they are used for.

The source is one on which rejection comes to an end, as it does on words given in advance. It has
to do so for numbers up to the largest that is asked for: a whole word, or one of the two lengths.

* `Generate.total_instructions`: all that is drawn for a structured case can be assembled.
* `Generate.total_fitting`, `Generate.ends_fitting_of_not_room`: whether a fitting expression is
  found.
* `Generate.cases_are_drawn`: the three generators.
-/

namespace TaggedStack

/-- At least one machine word and at most so many, and no foretold result. -/
structure Case.Plain (most : Int) (c : Case) : Prop where
  one_le : 1 ≤ c.words.length
  length_le : c.words.length ≤ most
  isWord : ∀ w ∈ c.words, IsWord w
  expected : c.expected = none

/-- The program of an expression that keeps within a layout, and the result of this expression. -/
structure Case.Foretold (l : Layout) (e : Expr) (c : Case) : Prop where
  words : c.words = e.compile
  length_le : c.words.length ≤ l.instructionCapacity
  stackDepth_le : e.stackDepth ≤ l.stackCapacity
  isWord : ∀ w ∈ c.words, IsWord w
  expected : c.expected = some (Trial.expected e)

namespace Generate

open Draw

variable {σ : Type} [WordSource σ] {limit : Nat} {config : Config} {c : Case}

/-! ### Words -/

theorem total_words (hword : 0x100000000 ≤ limit) (hlimit : config.maxLength ≤ limit)
    (hpos : 1 ≤ config.maxLength) : Total limit (words config : Draw σ Case) := by
  have hnumber : Total limit (between 0 0xFFFFFFFF : Draw σ Int) :=
    total_between (by decide) (by omega)
  refine Ends.bind (total_between hpos (by omega)) fun length _ ↦ ?_
  exact Ends.bind (hnumber.several length.toNat) fun ws _ ↦ total_pure _

theorem plain_of_words (h : (words config : Draw σ Case).Gives c) : c.Plain config.maxLength := by
  have hwellFormed := wellFormed_of_words h
  obtain ⟨length, hlength, h⟩ := h.exists_of_bind
  obtain ⟨ws, hws, h⟩ := h.exists_of_bind
  obtain rfl := h.eq_of_pure
  have hbounds := hlength.mem_between
  have hcount := hws.length_several
  refine ⟨?_, ?_, hwellFormed.isWord_of_mem, rfl⟩
  · show 1 ≤ ws.length
    omega
  · show (ws.length : Int) ≤ config.maxLength
    omega

/-! ### Instructions -/

theorem mem_smallLiteral {x : Int} (h : (smallLiteral : Draw σ Int).Gives x) :
    0 ≤ x ∧ x < 0x40000000 := by
  obtain ⟨r, -, h⟩ := h.exists_of_bind
  split at h
  · have := h.mem_between
    unfold maxPayload at this
    omega
  · have := h.mem_between
    omega

theorem total_smallLiteral (hlimit : 0x40000000 ≤ limit) :
    Total limit (smallLiteral : Draw σ Int) := by
  refine Ends.bind total_roll fun r _ ↦ ?_
  split
  · exact total_between (by decide) (by unfold maxPayload; omega)
  · exact total_between (by decide) (by omega)

/-- A checked instruction is made of every payload. -/
theorem total_checked {build : Int → Except CodecError Instr} (make : Payload → Instr)
    (hbuild : (build, make) ∈ Instr.checkedConstructors) {d : Draw σ Int} (hd : Total limit d)
    (hrange : ∀ x, d.Gives x → 0 ≤ x ∧ x < 0x40000000) : Total limit (checked build d) := by
  refine Ends.bind hd fun x hx ↦ ?_
  obtain ⟨i, hi⟩ := (exists_checked_iff make x).2 (hrange x hx)
  rw [(Instr.constructor_eq_ok_iff hbuild).2 hi]
  exact total_pure _

omit [WordSource σ] in
theorem exists_denotes_of_checked {build : Int → Except CodecError Instr} {d : Draw σ Int}
    {item : Item} (h : (checked build d).Gives item) : ∃ i, item.Denotes i := by
  obtain ⟨x, -, h⟩ := h.exists_of_bind
  split at h
  · next i _ =>
    obtain rfl := h.eq_of_pure
    exact ⟨i, .instr i⟩
  · exact absurd h (not_gives_fail _ item)

/-- An instruction of each kind is drawn. -/
theorem total_instruction (hlimit : 0x40000000 ≤ limit) (k : InstrKind) :
    Total limit (instruction k : Draw σ Item) := by
  have hcount : Opcode.count = 12 := rfl
  cases k with
  | literal =>
    exact total_checked Instr.literal (by simp [Instr.checkedConstructors])
      (total_smallLiteral hlimit) fun x ↦ mem_smallLiteral
  | primitive =>
    have hlength : Opcode.all.length ≤ limit := by
      rw [Opcode.length_all]
      omega
    exact (total_choice (by decide) hlength).map Item.op
  | negative =>
    exact total_checked Instr.negative (by simp [Instr.checkedConstructors])
      (total_smallLiteral hlimit) fun x ↦ mem_smallLiteral
  | reserved => exact (total_between (by decide) (by omega)).map Item.reserved
  | invalid =>
    refine total_checked Instr.primitive (by simp [Instr.checkedConstructors])
      (total_between (by decide) (by unfold maxPayload; omega)) fun x hx ↦ ?_
    have hbounds := hx.mem_between
    unfold maxPayload at hbounds
    omega

/-- What is drawn for a kind of instruction can be assembled. -/
theorem exists_denotes_of_instruction {k : InstrKind} {item : Item}
    (h : (instruction k : Draw σ Item).Gives item) : ∃ i, item.Denotes i := by
  cases k with
  | literal => exact exists_denotes_of_checked h
  | primitive =>
    obtain ⟨op, -, rfl⟩ := h.exists_of_map
    exact ⟨_, .instr _⟩
  | negative => exact exists_denotes_of_checked h
  | reserved =>
    obtain ⟨data, hdata, rfl⟩ := h.exists_of_map
    have hcount : Opcode.count = 12 := rfl
    have hbounds := hdata.mem_between
    obtain ⟨p, rfl⟩ := (Payload.exists_val_eq_iff data).2 (by omega)
    exact ⟨_, .reserved p⟩
  | invalid => exact exists_denotes_of_checked h

/-- Items that stand for instructions are assembled, each to one word. -/
theorem exists_assembleItems {items : List Item} (h : ∀ item ∈ items, ∃ i, item.Denotes i) :
    ∃ ws, assembleItems items = .ok ws ∧ ws.length = items.length := by
  obtain ⟨program, hprogram⟩ : ∃ program, List.Forall₂ Item.Denotes items program := by
    induction items with
    | nil => exact ⟨[], .nil⟩
    | cons item items ih =>
      obtain ⟨i, hi⟩ := h item List.mem_cons_self
      obtain ⟨program, hprogram⟩ := ih fun item hitem ↦ h item (List.mem_cons_of_mem _ hitem)
      exact ⟨i :: program, .cons hi hprogram⟩
  refine ⟨assemble program, assembleItems_eq_ok_iff.2 ⟨program, hprogram, rfl⟩, ?_⟩
  rw [length_assemble, hprogram.length_eq]

/-- All that is drawn for a structured case can be assembled, with or without a final halt. -/
theorem exists_denotes_of_program {n : Nat} {program : List Item}
    (h : (several (do instruction (← kind)) n : Draw σ (List Item)).Gives program)
    (unended : Bool) :
    ∀ item ∈ program ++ (if unended then [] else [.op .halt]), ∃ i, item.Denotes i := by
  refine List.forall_mem_append.2 ⟨fun item hitem ↦ ?_, ?_⟩
  · obtain ⟨k, -, h⟩ := (h.forall_mem_several item hitem).exists_of_bind
    exact exists_denotes_of_instruction h
  · split
    · exact fun _ hitem ↦ absurd hitem List.not_mem_nil
    · exact List.forall_mem_singleton.2 ⟨_, .instr _⟩

/-- **All that is drawn for a structured case can be assembled.** -/
theorem total_instructions (hword : 0x100000000 ≤ limit) (hlimit : config.maxInstructions ≤ limit)
    (hpos : 1 ≤ config.maxInstructions) : Total limit (instructions config : Draw σ Case) := by
  have hitem : Total limit (do instruction (← kind) : Draw σ Item) :=
    Ends.bind (total_weighted _ _) fun k _ ↦ total_instruction (by omega) k
  refine Ends.bind (total_between hpos (by omega)) fun count _ ↦ ?_
  refine Ends.bind (hitem.several count.toNat) fun program hprogram ↦ ?_
  refine Ends.bind total_roll fun r _ ↦ ?_
  obtain ⟨ws, hws, -⟩ := exists_assembleItems (exists_denotes_of_program hprogram _)
  rw [assembled, hws]
  exact total_pure _

theorem plain_of_instructions (h : (instructions config : Draw σ Case).Gives c) :
    c.Plain (config.maxInstructions + 1) := by
  have hwellFormed := wellFormed_of_instructions h
  obtain ⟨count, hcount, h⟩ := h.exists_of_bind
  obtain ⟨program, hprogram, h⟩ := h.exists_of_bind
  obtain ⟨r, -, h⟩ := h.exists_of_bind
  obtain ⟨ws, hws, hlength⟩ := exists_assembleItems (exists_denotes_of_program hprogram _)
  rw [assembled, hws] at h
  obtain rfl := h.eq_of_pure
  have hbounds := hcount.mem_between
  have hprogram := hprogram.length_several
  have hending : (if chance r (.ofRatio 1 10) then [] else [Item.op .halt]).length ≤ 1 := by
    split <;> decide
  rw [List.length_append] at hlength
  refine ⟨?_, ?_, hwellFormed.isWord_of_mem, rfl⟩
  · show 1 ≤ ws.length
    omega
  · show (ws.length : Int) ≤ config.maxInstructions + 1
    omega

/-! ### Expressions -/

section Expressions

variable {value : Draw σ Candidate} {l : Layout}

omit [WordSource σ] in
theorem exists_of_constant {e : Expr} (h : (constant value).Gives e) : ∃ p, e = .const p := by
  obtain ⟨c, -, h⟩ := h.exists_of_bind
  rw [Expr.ofCandidate] at h
  rcases hc : c.payload with cause | p
  · rw [hc] at h
    exact absurd h (not_gives_fail _ e)
  · rw [hc] at h
    exact ⟨p, h.eq_of_pure.symm⟩

theorem total_constant (hvalue : Total limit value)
    (hpayload : ∀ c, value.Gives c → ∃ p, c.payload = .ok p) : Total limit (constant value) := by
  refine Ends.bind hvalue fun c hc ↦ ?_
  obtain ⟨p, hp⟩ := hpayload c hc
  rw [Expr.ofCandidate, hp]
  exact total_pure (Expr.const p)

/-- An expression is drawn, whatever the rolls. -/
theorem total_randomExpr (hvalue : Total limit value)
    (hpayload : ∀ c, value.Gives c → ∃ p, c.payload = .ok p) (depth : Nat) :
    Total limit (randomExpr value depth) := by
  induction depth with
  | zero => exact total_constant hvalue hpayload
  | succ depth ih =>
    refine Ends.bind total_roll fun r _ ↦ ?_
    split
    · exact total_constant hvalue hpayload
    · exact Ends.bind ih fun left _ ↦ Ends.bind ih fun right _ ↦ total_pure _

/-- Whatever fits leaves room for a constant: a stack slot, and three instructions. -/
theorem room_of_fits {e : Expr} (h : Trial.fits e l = true) :
    2 ≤ l.stackLimit ∧ 3 ≤ l.instructionCapacity := by
  obtain ⟨hdepth, hlength⟩ := Trial.fits_iff.1 h
  have hpos := e.stackDepth_pos
  have hsize : 0 < e.size := by cases e <;> simp [Expr.size]
  rw [Expr.length_compile] at hlength
  unfold Layout.stackCapacity at hdepth
  omega

/-- A constant fits where there is room for one. -/
theorem fits_const (hroom : 2 ≤ l.stackLimit ∧ 3 ≤ l.instructionCapacity) (p : Payload) :
    Trial.fits (.const p) l = true := by
  refine Trial.fits_iff.2 ⟨?_, ?_⟩
  · unfold Layout.stackCapacity
    exact Nat.le_sub_of_add_le hroom.1
  · rw [Expr.length_compile]
    exact hroom.2

/-- **A fitting expression is found where there is room for a constant:** at the latest at depth
zero, where only constants are drawn. -/
theorem total_fitting (hvalue : Total limit value)
    (hpayload : ∀ c, value.Gives c → ∃ p, c.payload = .ok p)
    (hroom : 2 ≤ l.stackLimit ∧ 3 ≤ l.instructionCapacity) (depth : Nat) :
    Total limit (fitting value l depth) := by
  induction depth with
  | zero =>
    rw [fitting]
    refine Ends.bind (total_randomExpr hvalue hpayload 0) fun e he ↦ ?_
    obtain ⟨p, rfl⟩ := exists_of_constant he
    rw [if_pos (fits_const hroom p)]
    exact total_pure _
  | succ depth ih =>
    rw [fitting]
    refine Ends.bind (total_randomExpr hvalue hpayload (depth + 1)) fun e _ ↦ ?_
    split
    · exact total_pure _
    · exact ih

/-- Where there is no room for a constant, no expression fits. -/
theorem ends_fitting_of_not_room (hvalue : Total limit value)
    (hpayload : ∀ c, value.Gives c → ∃ p, c.payload = .ok p)
    (hroom : ¬(2 ≤ l.stackLimit ∧ 3 ≤ l.instructionCapacity)) (depth : Nat) :
    Ends limit (fitting value l depth) (· = .error (.noFit l)) := by
  induction depth with
  | zero =>
    rw [fitting]
    refine Ends.bind (total_randomExpr hvalue hpayload 0) fun e _ ↦ ?_
    rw [if_neg (mt room_of_fits hroom)]
    exact ends_fail _
  | succ depth ih =>
    rw [fitting]
    refine Ends.bind (total_randomExpr hvalue hpayload (depth + 1)) fun e _ ↦ ?_
    rw [if_neg (mt room_of_fits hroom)]
    exact ih

end Expressions

/-- The numbers that constants are made of. -/
def constantValue (maxValue : Option Int) : Draw σ Int :=
  match maxValue with
  | some high => between 0 high
  | none => digitOrGreatest

theorem expression_eq (maxValue : Option Int) :
    (expression config maxValue : Draw σ Case) =
      if 0 ≤ config.maxDepth then
        fitting (Candidate.number <$> constantValue maxValue) config.layout config.maxDepth.toNat
      else fail (.noFit config.layout) :=
  rfl

section ConstantValues

variable {maxValue : Option Int} (hvalue : ∀ high ∈ maxValue, 0 ≤ high ∧ high ≤ maxPayload)
include hvalue

theorem total_constantValue (hlimit : 0x40000000 ≤ limit) :
    Total limit (constantValue maxValue : Draw σ Int) := by
  cases maxValue with
  | none =>
    have hlength : [0, 1, 2, 3, 4, 5, 6, 7, 8, 9, maxPayload].length ≤ limit :=
      Nat.le_trans (by decide) hlimit
    exact total_choice (by decide) hlength
  | some high =>
    have hhigh := hvalue high rfl
    unfold maxPayload at hhigh
    exact total_between hhigh.1 (by omega)

theorem exists_payload_of_constantValue {candidate : Candidate}
    (h : (Candidate.number <$> constantValue maxValue : Draw σ Candidate).Gives candidate) :
    ∃ p, candidate.payload = .ok p := by
  obtain ⟨x, hx, rfl⟩ := h.exists_of_map
  have hrange : 0 ≤ x ∧ x < 0x40000000 := by
    cases maxValue with
    | none =>
      have hdigits : ∀ x ∈ [0, 1, 2, 3, 4, 5, 6, 7, 8, 9, maxPayload], 0 ≤ x ∧ x < 0x40000000 := by
        decide
      exact hdigits x hx.mem_choice
    | some high =>
      have hhigh := hvalue high rfl
      have hbounds := hx.mem_between
      unfold maxPayload at hhigh
      omega
  obtain ⟨p, rfl⟩ := (Payload.exists_val_eq_iff x).2 hrange
  exact ⟨p, Candidate.payload_eq_ok_iff.2 rfl⟩

end ConstantValues

theorem foretold_of_expression {maxValue : Option Int}
    (h : (expression config maxValue : Draw σ Case).Gives c) :
    ∃ e, c.Foretold config.layout e := by
  obtain ⟨e, hfits, rfl⟩ := exists_of_expression h
  obtain ⟨hdepth, hlength⟩ := Trial.fits_iff.1 hfits
  exact ⟨e, rfl, hlength, hdepth, Trial.isWord_of_mem_compile e, rfl⟩

/-! ### When a case is drawn -/

theorem ends_words (hword : 0x100000000 ≤ limit) (hlimit : config.maxLength ≤ limit) :
    Ends limit (words config : Draw σ Case) fun ending ↦
      if config.maxLength < 1 then ending = .error (.emptyRange 1 config.maxLength)
      else ∃ c, ending = .ok c ∧ c.Plain config.maxLength := by
  split
  · next hlt => exact Ends.bind_error (ends_between_of_lt hlt)
  · next hpos =>
    exact (total_words hword hlimit (Int.not_lt.1 hpos)).ends fun c hc ↦
      ⟨c, rfl, plain_of_words hc⟩

theorem ends_instructions (hword : 0x100000000 ≤ limit) (hlimit : config.maxInstructions ≤ limit) :
    Ends limit (instructions config : Draw σ Case) fun ending ↦
      if config.maxInstructions < 1 then ending = .error (.emptyRange 1 config.maxInstructions)
      else ∃ c, ending = .ok c ∧ c.Plain (config.maxInstructions + 1) := by
  split
  · next hlt => exact Ends.bind_error (ends_between_of_lt hlt)
  · next hpos =>
    exact (total_instructions hword hlimit (Int.not_lt.1 hpos)).ends fun c hc ↦
      ⟨c, rfl, plain_of_instructions hc⟩

theorem ends_expression (hword : 0x100000000 ≤ limit) {maxValue : Option Int}
    (hvalue : ∀ high ∈ maxValue, 0 ≤ high ∧ high ≤ maxPayload) :
    Ends limit (expression config maxValue : Draw σ Case) fun ending ↦
      if config.maxDepth < 0 ∨ config.layout.stackLimit < 2 ∨
          config.layout.instructionCapacity < 3 then
        ending = .error (.noFit config.layout)
      else ∃ c e, ending = .ok c ∧ c.Foretold config.layout e := by
  have htotal : Total limit (Candidate.number <$> constantValue maxValue : Draw σ Candidate) :=
    (total_constantValue hvalue (by omega)).map Candidate.number
  have hpayload : ∀ candidate,
      (Candidate.number <$> constantValue maxValue : Draw σ Candidate).Gives candidate →
        ∃ p, candidate.payload = .ok p :=
    fun _ h ↦ exists_payload_of_constantValue hvalue h
  split
  · next hcause =>
    rw [expression_eq]
    split
    · next hdepth => exact ends_fitting_of_not_room htotal hpayload (by omega) _
    · exact ends_fail _
  · next hroom =>
    have hdrawn : Total limit (expression config maxValue : Draw σ Case) := by
      rw [expression_eq, if_pos (by omega)]
      exact total_fitting htotal hpayload (by omega) _
    refine hdrawn.ends fun c hc ↦ ?_
    obtain ⟨e, he⟩ := foretold_of_expression hc
    exact ⟨c, e, rfl, he⟩

/-- **Each generator draws a well-formed case or fails for its own reason,** whatever the words, if
rejection comes to an end on the source. Words and instructions are refused for an empty range of
lengths, and else come to at least one machine word and at most the length allowed, or one more for
a final halt; nothing is foretold of them. Expressions are refused if there is no depth to draw from
or no room for a constant, and else come as the program of an expression that keeps within the
layout, with the result of this expression. -/
theorem cases_are_drawn {source : σ} {maxValue : Option Int}
    (hvalue : ∀ high ∈ maxValue, 0 ≤ high ∧ high ≤ maxPayload)
    (hreturns : Returns (max 0x100000000 (max config.maxLength config.maxInstructions).toNat)
      source) :
    (∃ ending later, (words config).Settles source ending later ∧
        if config.maxLength < 1 then ending = .error (.emptyRange 1 config.maxLength)
        else ∃ c, ending = .ok c ∧ c.Plain config.maxLength) ∧
      (∃ ending later, (instructions config).Settles source ending later ∧
        if config.maxInstructions < 1 then ending = .error (.emptyRange 1 config.maxInstructions)
        else ∃ c, ending = .ok c ∧ c.Plain (config.maxInstructions + 1)) ∧
      ∃ ending later, (expression config maxValue).Settles source ending later ∧
        if config.maxDepth < 0 ∨ config.layout.stackLimit < 2 ∨
            config.layout.instructionCapacity < 3 then
          ending = .error (.noFit config.layout)
        else ∃ c e, ending = .ok c ∧ c.Foretold config.layout e := by
  have hlength : config.maxLength ≤ max 0x100000000
      (max config.maxLength config.maxInstructions).toNat := by omega
  have hcount : config.maxInstructions ≤ max 0x100000000
      (max config.maxLength config.maxInstructions).toNat := by omega
  exact ⟨(ends_words (Nat.le_max_left _ _) hlength).exists_settles hreturns,
    (ends_instructions (Nat.le_max_left _ _) hcount).exists_settles hreturns,
    (ends_expression (Nat.le_max_left _ _) hvalue).exists_settles hreturns⟩

/-- A layout with one stack slot and room for three instructions, and words that ask for the deepest
expression: the constants that fit are reached. No length is allowed for words without structure. -/
theorem cases_are_drawn_tight :
    let config : Config :=
      { maxLength := 0, maxInstructions := 2, maxDepth := 2,
        layout := ⟨5, 2, 5, by decide, by decide, by decide⟩ }
    let source : WordStream := ⟨List.replicate 6 0xFFFFFFFF, 0⟩
    (∀ high ∈ some 7, (0 : Int) ≤ high ∧ high ≤ maxPayload) ∧
      Returns (max 0x100000000 (max config.maxLength config.maxInstructions).toNat) source ∧
      (∃ later, (words config).Settles source (.error (.emptyRange 1 0)) later) ∧
      (∃ c later, (instructions config).Settles source (.ok c) later ∧ c.Plain 3) ∧
      ∃ c e later, (expression config (some 7)).Settles source (.ok c) later ∧
        c.Foretold config.layout e := by
  intro config source
  have hvalue : ∀ high ∈ some 7, (0 : Int) ≤ high ∧ high ≤ maxPayload := by
    rintro _ ⟨⟩
    decide
  have hreturns : Returns (max 0x100000000 (max config.maxLength config.maxInstructions).toNat)
      source :=
    (WordStream.returns source).mono (by decide)
  obtain ⟨⟨_, later, hwords, rfl⟩, ⟨_, later', hcode, c, rfl, hplain⟩,
    _, later'', hexpr, c', e, rfl, hforetold⟩ := cases_are_drawn hvalue hreturns
  exact ⟨hvalue, hreturns, ⟨later, hwords⟩, ⟨c, later', hcode, hplain⟩, c', e, later'', hexpr,
    hforetold⟩

end Generate

end TaggedStack
