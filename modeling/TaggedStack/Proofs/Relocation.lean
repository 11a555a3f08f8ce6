import TaggedStack.Proofs.Lockstep

/-!
# Room to spare makes no difference

A program cannot tell where its regions lie, and it cannot tell how large they are either, unless it
meets their bounds. The list machine has no addresses, so only the second part is left to prove: a
list machine with longer lists (`ListMachine.Extends`) is in lockstep with the shorter one until the
shorter one finds an index out of bounds.

* `ListMachine.Extends.step`: one cycle is in lockstep, out-of-bounds faults of the smaller machine
  apart.
* `Memory.acceptance_of_le`: a program that fits is taken by a larger instruction region as well.
* `Trial.execute_of_larger_layout`: a result other than an out-of-bounds fault is the result in
  every larger layout.
-/

namespace TaggedStack

/-- Whether a fault is about an address outside its region. -/
def Fault.IsOutOfBounds (f : Fault) : Prop := ∃ r address, f = .outOfBounds r address

/-- Whether a result is a fault about an address outside its region. -/
def Result.IsOutOfBounds (result : Result) : Prop :=
  ∃ f : Fault, f.IsOutOfBounds ∧ result = .fault f.kind

theorem Fault.isOutOfBounds_outOfBounds (r : Region) (address : Int) :
    (Fault.outOfBounds r address).IsOutOfBounds := ⟨r, address, rfl⟩

theorem getElem?_of_isPrefix {α : Type} {xs ys : List α} {i : Nat} {x : α} (h : xs <+: ys)
    (hx : xs[i]? = some x) : ys[i]? = some x := by
  obtain ⟨rest, rfl⟩ := h
  rw [List.getElem?_append_left (List.getElem?_eq_some_iff.1 hx).1, hx]

theorem isPrefix_replicate {α : Type} (x : α) {m n : Nat} (h : m ≤ n) :
    List.replicate m x <+: List.replicate n x := by
  refine ⟨List.replicate (n - m) x, ?_⟩
  rw [List.replicate_append_replicate, Nat.add_sub_cancel' h]

/-- A layout all of whose regions have at least the room of those of another. -/
structure Layout.Within (l l' : Layout) : Prop where
  stack : l.stackCapacity ≤ l'.stackCapacity
  instruction : l.instructionCapacity ≤ l'.instructionCapacity
  data : l.dataSize ≤ l'.dataSize

namespace ListMachine

variable {l l' : Layout} {a : ListMachine l} {b : ListMachine l'}

/-- The second machine is the first with more room: there are instructions and data words behind
those of the first, and everything else is the same. -/
structure Extends (a : ListMachine l) (b : ListMachine l') : Prop where
  next_eq : b.next = a.next
  operands_eq : b.operands = a.operands
  program_isPrefix : a.program <+: b.program
  data_isPrefix : a.data <+: b.data
  running_eq : b.running = a.running

/-- Two results of an operation, the second with more room, after the same output. -/
def ExtendsWith (x : ListMachine l × Option Emission) (y : ListMachine l' × Option Emission) :
    Prop :=
  x.1.Extends y.1 ∧ y.2 = x.2

/-! ### The parts of an operation -/

theorem Extends.dropTop (h : a.Extends b) : a.dropTop.Extends b.dropTop :=
  { h with operands_eq := congrArg List.tail h.operands_eq }

theorem Extends.jump (h : a.Extends b) (target : Nat) : (a.jump target).Extends (b.jump target) :=
  { h with next_eq := rfl }

theorem Extends.pop (h : a.Extends b) :
    Lockstep Fault.IsOutOfBounds
      (fun (x : Word × ListMachine l) (y : Word × ListMachine l') ↦ y.1 = x.1 ∧ x.2.Extends y.2)
      a.pop b.pop := by
  cases hoperands : a.operands with
  | nil =>
    rw [pop_of_nil hoperands, pop_of_nil (h.operands_eq.trans hoperands)]
    exact .error _
  | cons v rest =>
    rw [pop_of_cons hoperands, pop_of_cons (h.operands_eq.trans hoperands)]
    exact .ok ⟨rfl, h.dropTop⟩

theorem Extends.popTwo (h : a.Extends b) :
    Lockstep Fault.IsOutOfBounds
      (fun (x : Word × Word × ListMachine l) (y : Word × Word × ListMachine l') ↦
        y.1 = x.1 ∧ y.2.1 = x.2.1 ∧ x.2.2.Extends y.2.2)
      a.popTwo b.popTwo := by
  refine h.pop.bind ?_
  rintro ⟨v, a'⟩ ⟨_, b'⟩ ⟨rfl, h'⟩
  refine h'.pop.bind ?_
  rintro ⟨w, a''⟩ ⟨_, b''⟩ ⟨rfl, h''⟩
  exact .ok ⟨rfl, rfl, h''⟩

/-- Where the smaller machine has room for an operand, the larger one has. -/
theorem Extends.pushing (h : a.Extends b) (hl : l.Within l') (value : Word) :
    Lockstep Fault.IsOutOfBounds ExtendsWith (a.pushing value) (b.pushing value) := by
  unfold ListMachine.pushing
  by_cases hroom : a.operands.length < l.stackCapacity
  · have hroom' : b.operands.length < l'.stackCapacity := by
      rw [h.operands_eq]
      exact Nat.lt_of_lt_of_le hroom hl.stack
    rw [push_of_lt value hroom, push_of_lt value hroom']
    exact .ok ⟨{ h with operands_eq := congrArg (value :: ·) h.operands_eq }, rfl⟩
  · rw [push_of_not_lt value hroom]
    exact .exempt (Fault.isOutOfBounds_outOfBounds _ _) _

theorem Extends.combining (h : a.Extends b) (hl : l.Within l') (f : Word → Word → Word) :
    Lockstep Fault.IsOutOfBounds ExtendsWith (a.combining f) (b.combining f) := by
  refine h.popTwo.bind ?_
  rintro ⟨x, y, a'⟩ ⟨_, _, b'⟩ ⟨rfl, rfl, h'⟩
  exact h'.pushing hl (f _ _)

theorem Extends.jumpTarget (h : a.Extends b) (hl : l.Within l') :
    Lockstep Fault.IsOutOfBounds
      (fun (x : Nat × ListMachine l) (y : Nat × ListMachine l') ↦ y.1 = x.1 ∧ x.2.Extends y.2)
      a.jumpTarget b.jumpTarget := by
  refine h.pop.bind ?_
  rintro ⟨_, a'⟩ ⟨target, b'⟩ ⟨rfl, h'⟩
  have hle := hl.instruction
  dsimp only
  exact .guard (by omega) (Fault.isOutOfBounds_outOfBounds _ _) fun _ ↦ .ok ⟨rfl, h'⟩

/-- A data word that both machines have stays the same word of both. -/
theorem Extends.store (h : a.Extends b) {index : Nat} (hindex : index < l.dataSize)
    (value : Word) : (a.store index value).Extends (b.store index value) := by
  obtain ⟨rest, hrest⟩ := h.data_isPrefix
  refine { h with data_isPrefix := ⟨rest, ?_⟩ }
  show a.data.set index value ++ rest = b.data.set index value
  rw [← hrest, List.set_append_left _ _ (by rw [a.length_data]; exact hindex)]

/-! ### Operations and cycles -/

theorem Extends.perform (h : a.Extends b) (hl : l.Within l') (op : Opcode) :
    Lockstep Fault.IsOutOfBounds ExtendsWith (a.perform op) (b.perform op) := by
  cases op with
  | halt => exact .ok ⟨{ h with running_eq := rfl }, rfl⟩
  | add => exact h.combining hl fun x y ↦ .wrap (x.val + y.val)
  | sub => exact h.combining hl fun x y ↦ .wrap (x.val - y.val)
  | mul => exact h.combining hl fun x y ↦ .wrap (x.val * y.val)
  | div =>
    refine h.popTwo.bind ?_
    rintro ⟨x, y, a'⟩ ⟨_, _, b'⟩ ⟨rfl, rfl, h'⟩
    exact .ite Iff.rfl (fun _ ↦ .error _) fun _ ↦ h'.pushing hl _
  | dup =>
    refine h.pop.bind ?_
    rintro ⟨value, a'⟩ ⟨_, b'⟩ ⟨rfl, -⟩
    exact h.pushing hl _
  | jmp =>
    refine (h.jumpTarget hl).bind ?_
    rintro ⟨target, a'⟩ ⟨_, b'⟩ ⟨rfl, h'⟩
    exact .ok ⟨h'.jump _, rfl⟩
  | jz =>
    refine (h.jumpTarget hl).bind ?_
    rintro ⟨_, a'⟩ ⟨target, b'⟩ ⟨rfl, h'⟩
    refine h'.pop.bind ?_
    rintro ⟨_, a''⟩ ⟨condition, b''⟩ ⟨rfl, h''⟩
    by_cases hzero : condition.val = 0
    · simp only [if_pos hzero]
      exact .ok ⟨h''.jump target, rfl⟩
    · simp only [if_neg hzero]
      exact .ok ⟨h'', rfl⟩
  | prn | prnchar =>
    refine h.pop.bind ?_
    rintro ⟨value, a'⟩ ⟨_, b'⟩ ⟨rfl, h'⟩
    exact .ok ⟨h', rfl⟩
  | load =>
    refine h.pop.bind ?_
    rintro ⟨_, a'⟩ ⟨index, b'⟩ ⟨rfl, h'⟩
    dsimp only
    cases hword : a'.data[index.val.toNat]? with
    | none => exact .exempt (Fault.isOutOfBounds_outOfBounds _ _) _
    | some value =>
      rw [getElem?_of_isPrefix h'.data_isPrefix hword]
      exact h'.pushing hl value
  | stor =>
    refine h.pop.bind ?_
    rintro ⟨_, a'⟩ ⟨index, b'⟩ ⟨rfl, h'⟩
    refine h'.pop.bind ?_
    rintro ⟨_, a''⟩ ⟨value, b''⟩ ⟨rfl, h''⟩
    have hle := hl.data
    have hnonneg := index.property.1
    dsimp only
    refine .guard (by omega) (Fault.isOutOfBounds_outOfBounds _ _) fun hlt ↦ ?_
    exact .ok ⟨h''.store (by omega) value, rfl⟩

theorem Extends.execute (h : a.Extends b) (hl : l.Within l') (i : Instr) :
    Lockstep Fault.IsOutOfBounds ExtendsWith (a.execute i) (b.execute i) := by
  cases i with
  | literal value | negative value => exact h.pushing hl _
  | primitive id | reserved id =>
    simp only [ListMachine.execute]
    cases Opcode.ofId? id.val with
    | some op => exact h.perform hl op
    | none => exact .error _

/-- One cycle is in lockstep until the smaller machine finds an index out of bounds. -/
theorem Extends.step (h : a.Extends b) (hl : l.Within l') :
    Lockstep Fault.IsOutOfBounds ExtendsWith a.step b.step := by
  unfold ListMachine.step
  cases hnext : a.program[a.next]? with
  | none => exact .exempt (Fault.isOutOfBounds_outOfBounds _ _) _
  | some i =>
    rw [h.next_eq, getElem?_of_isPrefix h.program_isPrefix hnext]
    have hadvanced : ({ a with next := a.next + 1 } : ListMachine l).Extends
        ({ b with next := a.next + 1 } : ListMachine l') := { h with next_eq := rfl }
    exact hadvanced.execute hl i

/-- A budgeted run is in lockstep until the smaller machine finds an index out of bounds. -/
theorem Extends.stepUpTo (h : a.Extends b) (hl : l.Within l') (n : Nat) :
    Lockstep Fault.IsOutOfBounds
      (fun (x : ListMachine l × Text) (y : ListMachine l' × Text) ↦ x.1.Extends y.1 ∧ y.2 = x.2)
      (a.stepUpTo n) (b.stepUpTo n) := by
  induction n generalizing a b with
  | zero => exact .ok ⟨h, rfl⟩
  | succ n ih =>
    rw [ListMachine.stepUpTo, ListMachine.stepUpTo, h.running_eq]
    refine .ite Iff.rfl (fun _ ↦ ?_) fun _ ↦ .ok ⟨h, rfl⟩
    refine (h.step hl).bind ?_
    rintro ⟨a', output⟩ ⟨b', _⟩ ⟨h', rfl⟩
    refine (ih h').bind ?_
    rintro ⟨a'', later⟩ ⟨b'', _⟩ ⟨h'', rfl⟩
    exact .ok ⟨h'', rfl⟩

/-- The result of the smaller machine is that of the larger one, unless it is out of bounds. -/
theorem Extends.result_eq (h : a.Extends b) (hl : l.Within l') {maxSteps : Int}
    (hbounds : ¬(a.result maxSteps).IsOutOfBounds) : b.result maxSteps = a.result maxSteps := by
  have hlock := h.stepUpTo hl maxSteps.toNat
  unfold ListMachine.result at hbounds ⊢
  generalize a.stepUpTo maxSteps.toNat = x at hlock hbounds ⊢
  generalize b.stepUpTo maxSteps.toNat = y at hlock ⊢
  cases hlock with
  | ok hmachines =>
    obtain ⟨hextends, houtput⟩ := hmachines
    dsimp only
    rw [hextends.running_eq, hextends.operands_eq, houtput]
  | error cause => rfl
  | exempt hcause => exact absurd ⟨_, hcause, rfl⟩ hbounds

/-! ### Loading -/

/-- Loading the same program keeps the larger machine larger: what follows the program is the same
literal on both sides. -/
theorem extends_loaded_blank (hl : l.Within l') {program : List Instr}
    (h : program.length ≤ l.instructionCapacity) :
    ((blank l).loaded program h).Extends
      ((blank l').loaded program (Nat.le_trans h hl.instruction)) where
  next_eq := rfl
  operands_eq := rfl
  program_isPrefix := by
    have hle := hl.instruction
    show program ++ (List.replicate _ _).drop _ <+: program ++ (List.replicate _ _).drop _
    rw [List.prefix_append_right_inj, List.drop_replicate, List.drop_replicate]
    exact isPrefix_replicate _ (by omega)
  data_isPrefix := isPrefix_replicate _ hl.data
  running_eq := rfl

end ListMachine

/-- A larger instruction region takes the same words of a program and ends the same way, unless the
program does not fit the smaller one. -/
theorem Memory.acceptance_of_le {l : Layout} (l' : Layout) {room room' : Nat} (hle : room ≤ room')
    {words : List Int}
    (h : acceptance l room words ≠ .error (.outOfBounds .instruction l.dataBase)) :
    accepted room' words = accepted room words ∧
      acceptance l' room' words = acceptance l room words := by
  induction words generalizing room room' with
  | nil => simp [acceptance]
  | cons w ws ih =>
    by_cases hw : IsWord w
    · obtain _ | room := room
      · exact absurd (acceptance_cons_of_full l hw ws) h
      · obtain _ | room' := room'
        · exact absurd hle (Nat.not_succ_le_zero room)
        · rw [acceptance_cons_of_isWord l hw] at h ⊢
          rw [acceptance_cons_of_isWord l' hw, accepted_cons_of_isWord hw,
            accepted_cons_of_isWord hw]
          obtain ⟨haccepted, hending⟩ := ih (Nat.le_of_succ_le_succ hle) h
          exact ⟨congrArg (w :: ·) haccepted, hending⟩
    · rw [acceptance_cons_of_not_isWord l hw, acceptance_cons_of_not_isWord l' hw,
        accepted_cons_of_not_isWord hw, accepted_cons_of_not_isWord hw]
      exact ⟨rfl, rfl⟩

namespace Trial

/-- **Layout independence.** A result other than an out-of-bounds fault does not depend on the
layout: it is the result in every layout with at least as much room in each of its regions. -/
theorem execute_of_larger_layout {l l' : Layout} (hstack : l.stackCapacity ≤ l'.stackCapacity)
    (hinstruction : l.instructionCapacity ≤ l'.instructionCapacity)
    (hdata : l.dataSize ≤ l'.dataSize) {words : List Int} {maxSteps : Int}
    (hbounds : ¬(execute words maxSteps l).IsOutOfBounds) :
    execute words maxSteps l' = execute words maxSteps l := by
  have hl : l.Within l' := ⟨hstack, hinstruction, hdata⟩
  have hfits : Memory.acceptance l l.instructionCapacity words ≠
      .error (.outOfBounds .instruction l.dataBase) := by
    intro hfull
    rw [execute_of_refused hfull] at hbounds
    exact hbounds ⟨_, Fault.isOutOfBounds_outOfBounds _ _, rfl⟩
  obtain ⟨haccepted, hending⟩ := Memory.acceptance_of_le l' hinstruction hfits
  cases hloads : Memory.acceptance l l.instructionCapacity words with
  | error e =>
    -- The words before the one that is refused fit, so it is refused everywhere.
    rw [execute_of_refused hloads, execute_of_refused (hending.trans hloads)]
  | ok u =>
    obtain ⟨program, hprogram, hlength⟩ := exists_accepted_eq_assemble l.instructionCapacity words
    rw [execute_of_accepted hloads hprogram hlength] at hbounds ⊢
    rw [execute_of_accepted (hending.trans hloads) (haccepted.trans hprogram)
      (Nat.le_trans hlength hinstruction)]
    exact (ListMachine.extends_loaded_blank hl hlength).result_eq hl hbounds

/-- A program that stores seven, loads it again and prints it has the same result in a layout where
it just fits and in one where every region begins elsewhere. -/
theorem execute_of_larger_layout_seven :
    let l : Layout := ⟨11, 3, 10, by decide, by decide, by decide⟩
    let l' : Layout := ⟨20, 5, 15, by decide, by decide, by decide⟩
    let words : List Int := [7, 0, 0x4000000B, 0, 0x4000000A, 0x40000008, 0x40000000]
    execute words 7 l = .success (Text.decimal 7) none ∧
      execute words 7 l' = execute words 7 l := by
  intro l l' words
  have hresult : execute words 7 l = .success (Text.decimal 7) none := by decide
  refine ⟨hresult, execute_of_larger_layout (by decide) (by decide) (by decide) ?_⟩
  rw [hresult]
  rintro ⟨f, -, hf⟩
  cases hf

end Trial

end TaggedStack
