import TaggedStack.Proofs.Actions
import TaggedStack.Proofs.Cycles

/-!
# Cycles in place

A cycle can also be carried out in place: on a copy of the state, which every part of it changes at
once, and with the sink itself, which is no copy. Operands are popped before they are looked at,
the registers are overwritten before the operation is known, and a fault in the middle leaves the
copy as it is. Dropping the copy undoes all of that, but not what was printed.

So the order matters in which an operation checks and prints. `InPlace.step_carriesOut` follows
every operation in the order of its parts: the cycle in place ends as `State.step` does, with the
same state and output if it goes through, and with the sink untouched if it does not.

* `InPlace.Workbench`: the copy, the pointer of its stack, and the sink.
* `InPlace.step`: the cycle in place.
* `InPlace.CarriesOut`: what a computation in place has to do with one that leaves nothing behind.
-/

namespace TaggedStack.InPlace

/-! ### The workbench -/

/-- What a cycle in place works on. -/
structure Workbench where
  /-- The copy of the machine's state. -/
  state : State
  /-- The stack pointer during an operation; it is written back to the copy in the end. -/
  pointer : Int
  /-- The machine's own sink. -/
  sink : Sink

/-- The word at an address of the copy. -/
def read (r : Region) (address : Int) : Action Workbench Int := do
  Action.demand ((← get).state.memory.read r address)

/-- Writes to the copy. -/
def write (r : Region) (address value : Int) : Action Workbench Unit := do
  let memory ← Action.demand ((← get).state.memory.write r address value)
  modify fun w ↦ { w with state := { w.state with memory := memory } }

/-- Gives up at an address that a region does not admit. -/
def check (r : Region) (address : Int) : Action Workbench Unit := do
  Action.check (← get).state.layout r address

def setIp (address : Int) : Action Workbench Unit :=
  modify fun w ↦ { w with state := { w.state with ip := address } }

/-- Prints at once. -/
def emit (e : Emission) : Action Workbench Unit :=
  modify fun w ↦ { w with sink := w.sink.emit e }

/-! ### Operations in place -/

/-- The word at the pointer. -/
def peek : Action Workbench Int := do
  read .stack (← get).pointer

def pop : Action Workbench Int := do
  let value ← peek
  modify fun w ↦ { w with pointer := w.pointer - 1 }
  return value

/-- Advances the pointer before it writes. -/
def push (value : Int) : Action Workbench Unit := do
  check .stack ((← get).pointer + 1)
  modify fun w ↦ { w with pointer := w.pointer + 1 }
  write .stack (← get).pointer value

def jumpTarget : Action Workbench Int := do
  let target ← pop
  let address := target + (← get).state.layout.instructionBase
  check .instruction address
  return address

def dataAddress : Action Workbench Int := do
  let offset ← pop
  return offset + (← get).state.layout.dataBase

def operands : Action Workbench (Int × Int) := do
  let b ← pop
  let a ← pop
  return (a, b)

def combine (f : Int → Int → Int) : Action Workbench Unit := do
  let (a, b) ← operands
  push (f a b % 0x100000000)

/-- An operation in place. -/
def perform : Opcode → Action Workbench Unit
  | .halt => modify fun w ↦ { w with state := { w.state with running := false } }
  | .add => combine (· + ·)
  | .sub => combine (· - ·)
  | .mul => combine (· * ·)
  | .div => do
    let (a, b) ← operands
    if b = 0 then throw (.fault .divisionByZero) else push (a / b)
  | .dup => do
    let value ← peek
    push value
  | .jmp => do
    let target ← jumpTarget
    setIp target
  | .jz => do
    let target ← jumpTarget
    let condition ← pop
    if condition = 0 then setIp target
  | .prn => do
    let value ← pop
    let numeral ← Action.demand ((Text.numeral value).mapError .digits)
    emit (.text numeral)
  | .prnchar => do
    let value ← pop
    emit (.point (.ofLowBits value))
  | .load => do
    let address ← dataAddress
    let value ← read .data address
    push value
  | .stor => do
    let address ← dataAddress
    let value ← pop
    write .data address value

/-! ### The cycle in place -/

def fetch : Action Workbench Unit := do
  let next := (← get).state.ip + 1
  check .instruction next
  setIp next

def decode : Action Workbench Unit := do
  let word ← read .instruction (← get).state.ip
  modify fun w ↦
    { w with state := { w.state with tag := tagOf word, data := ((payloadOf word).val : Int) } }

/-- Carries out what the given tag and data registers say. -/
def dispatch (tag : Tag) (data : Int) : Action Workbench Unit :=
  if tag.isLiteral then push data
  else
    match Opcode.ofId? data with
    | some op => perform op
    | none => throw (.ofFault (.unknownOpcode data))

def execute : Action Workbench Unit := do
  modify fun w ↦ { w with pointer := w.state.sp }
  let s := (← get).state
  dispatch s.tag s.data
  modify fun w ↦ { w with state := { w.state with sp := w.pointer } }

/-- The cycle in place. -/
def step : Action Workbench Unit := do
  fetch
  decode
  execute

/-! ### What a computation in place carries out -/

/-- A computation in place carries out one that leaves nothing behind: it goes through with a result
and a workbench that are as they should be, or it fails for the same reason, before it printed
anything. -/
inductive CarriesOut {α β : Type} (sink : Sink) (R : β → α → Workbench → Prop) :
    Except Failure β → EStateM.Result Failure Workbench α → Prop
  | ok {b : β} {a : α} {w : Workbench} (h : R b a w) : CarriesOut sink R (.ok b) (.ok a w)
  | error (e : Failure) {w : Workbench} (h : w.sink = sink) :
      CarriesOut sink R (.error e) (.error e w)

variable {α β α' β' : Type} {sink : Sink} {R : β → α → Workbench → Prop}
  {S : β' → α' → Workbench → Prop}

theorem CarriesOut.bind {x : Except Failure β} {f : β → Except Failure β'} {p : Action Workbench α}
    {g : α → Action Workbench α'} {w : Workbench} (h : CarriesOut sink R x (p w))
    (hfg : ∀ b a w', R b a w' → CarriesOut sink S (f b) (g a w')) :
    CarriesOut sink S (x >>= f) ((p >>= g) w) := by
  show CarriesOut sink S (x >>= f) (EStateM.bind p g w)
  unfold EStateM.bind
  generalize p w = result at h
  cases h with
  | ok h => exact hfg _ _ _ h
  | error e h => exact .error e h

/-- The last part of a computation in place may stand for more than one part of the other. -/
theorem CarriesOut.bind_left {T : β' → α → Workbench → Prop} {x : Except Failure β}
    {f : β → Except Failure β'} {result : EStateM.Result Failure Workbench α}
    (h : CarriesOut sink R x result)
    (hf : ∀ b a w, R b a w → CarriesOut sink T (f b) (.ok a w)) :
    CarriesOut sink T (x >>= f) result := by
  cases h with
  | ok h => exact hf _ _ _ h
  | error e h => exact .error e h

/-- The workbench holds the state and the output of an effect. -/
def Holds (sink : Sink) (effect : Effect) (w : Workbench) : Prop :=
  effect.state = { w.state with sp := w.pointer } ∧ w.sink = effect.output.elim sink sink.emit

variable {s : State} {p : Int}

/-- What is demanded in place changes nothing, whether or not it is there. -/
theorem demand_carriesOut (w : Workbench) (x : Except Failure β) :
    CarriesOut w.sink (fun v a w' ↦ a = v ∧ w' = w) x (Action.demand x w) := by
  cases x with
  | ok v => exact .ok ⟨rfl, rfl⟩
  | error e => exact .error e rfl

theorem read_carriesOut (w : Workbench) (r : Region) (address : Int) :
    CarriesOut w.sink (fun v a w' ↦ a = v ∧ w' = w) (w.state.memory.read r address)
      (read r address w) := demand_carriesOut w _

theorem pop_carriesOut :
    CarriesOut sink (fun x v w ↦ v = x.1 ∧ x.2.memory = s.memory ∧ w = ⟨s, x.2.pointer, sink⟩)
      (Stack.pop ⟨s.memory, p⟩) (pop ⟨s, p, sink⟩) := by
  have hread := read_carriesOut ⟨s, p, sink⟩ .stack p
  have hpop : Stack.pop ⟨s.memory, p⟩ = s.memory.read .stack p >>= fun value ↦
      .ok (value, ⟨s.memory, p - 1⟩) := by
    unfold Stack.pop Stack.peek
    cases s.memory.read .stack p <;> rfl
  rw [hpop]
  refine hread.bind ?_
  rintro v a w ⟨rfl, rfl⟩
  exact .ok ⟨rfl, rfl, rfl⟩

/-- A check in place is a check: it changes nothing, whether or not it fails. -/
theorem CarriesOut.check {r : Region} {address : Int} {w : Workbench} {x : Except Failure β}
    {g : Unit → Action Workbench α} (hsink : w.sink = sink)
    (h : w.state.layout.Admits r address → CarriesOut sink R x (g () w)) :
    CarriesOut sink R
      (if w.state.layout.Admits r address then x
        else .error (w.state.layout.rejection r address))
      ((check r address >>= g) w) := by
  show CarriesOut sink R _ ((Action.check w.state.layout r address >>= g) w)
  rw [Action.check_bind]
  by_cases hadmits : w.state.layout.Admits r address
  · rw [if_pos hadmits, if_pos hadmits]
    exact h hadmits
  · rw [if_neg hadmits, if_neg hadmits]
    exact .error _ hsink

theorem write_carriesOut (w : Workbench) (r : Region) (address value : Int) :
    CarriesOut w.sink
      (fun memory _ w' ↦ w' = { w with state := { w.state with memory := memory } })
      (w.state.memory.write r address value) (write r address value w) := by
  show CarriesOut _ _ _ ((Action.demand _ >>= _ : Action Workbench Unit) w)
  cases w.state.memory.write r address value with
  | ok memory => exact .ok rfl
  | error e => exact .error e rfl

/-- Pushing checks the address and then writes. -/
theorem pushing_eq (s : State) (p value : Int) :
    (s.withStack ⟨s.memory, p⟩).pushing value =
      if s.layout.Admits .stack (p + 1) then
        s.memory.write .stack (p + 1) value >>= fun memory ↦
          .ok ⟨{ s with memory := memory, sp := p + 1 }, none⟩
      else .error (s.layout.rejection .stack (p + 1)) := by
  show ((Stack.push ⟨s.memory, p⟩ value).toExcept >>= _ : Except Failure Effect) = _
  unfold Stack.push
  dsimp only
  split
  · cases s.memory.write .stack (p + 1) value <;> rfl
  · rfl

theorem push_carriesOut (value : Int) :
    CarriesOut sink (fun effect _ w ↦ Holds sink effect w)
      ((s.withStack ⟨s.memory, p⟩).pushing value) (push value ⟨s, p, sink⟩) := by
  rw [pushing_eq]
  refine CarriesOut.check (w := ⟨s, p, sink⟩) rfl fun _ ↦ ?_
  -- The pointer is advanced by now; the write may still refuse the value.
  refine (write_carriesOut ⟨s, p + 1, sink⟩ .stack (p + 1) value).bind_left ?_
  rintro memory _ _ rfl
  exact .ok ⟨rfl, rfl⟩

theorem jumpTarget_carriesOut :
    CarriesOut sink
      (fun x v w ↦ v = x.1 ∧ x.2.memory = s.memory ∧ w = ⟨s, x.2.pointer, sink⟩)
      s.jumpTarget (jumpTarget ⟨s, s.sp, sink⟩) := by
  refine CarriesOut.bind pop_carriesOut ?_
  rintro ⟨v, stack⟩ _ _ ⟨rfl, hmemory, rfl⟩
  exact CarriesOut.check (w := ⟨s, stack.pointer, sink⟩) rfl fun _ ↦ .ok ⟨rfl, hmemory, rfl⟩

theorem dataAddress_carriesOut :
    CarriesOut sink
      (fun x v w ↦ v = x.1 ∧ x.2.memory = s.memory ∧ w = ⟨s, x.2.pointer, sink⟩)
      s.dataAddress (dataAddress ⟨s, s.sp, sink⟩) := by
  refine CarriesOut.bind pop_carriesOut ?_
  rintro ⟨v, stack⟩ _ _ ⟨rfl, hmemory, rfl⟩
  exact .ok ⟨rfl, hmemory, rfl⟩

theorem operands_carriesOut :
    CarriesOut sink
      (fun x v w ↦ v = (x.1, x.2.1) ∧ x.2.2.memory = s.memory ∧ w = ⟨s, x.2.2.pointer, sink⟩)
      s.operands (operands ⟨s, s.sp, sink⟩) := by
  refine CarriesOut.bind pop_carriesOut ?_
  rintro ⟨b, ⟨_, _⟩⟩ _ _ ⟨rfl, rfl, rfl⟩
  refine CarriesOut.bind pop_carriesOut ?_
  rintro ⟨a, stack⟩ _ _ ⟨rfl, hmemory, rfl⟩
  exact .ok ⟨rfl, hmemory, rfl⟩

theorem combine_carriesOut (f : Int → Int → Int) :
    CarriesOut sink (fun effect _ w ↦ Holds sink effect w) (s.combining f)
      (combine f ⟨s, s.sp, sink⟩) := by
  refine operands_carriesOut.bind ?_
  rintro ⟨a, b, ⟨_, _⟩⟩ _ _ ⟨rfl, rfl, rfl⟩
  exact push_carriesOut _

/-! ### Operations and cycles -/

/-- Every operation in place ends as it should, and prints only when nothing can fail any more. -/
theorem perform_carriesOut (op : Opcode) :
    CarriesOut sink (fun effect _ w ↦ Holds sink effect w) (op.perform s)
      (perform op ⟨s, s.sp, sink⟩) := by
  cases op with
  | halt => exact .ok ⟨rfl, rfl⟩
  | add => exact combine_carriesOut _
  | sub => exact combine_carriesOut _
  | mul => exact combine_carriesOut _
  | div =>
    refine operands_carriesOut.bind ?_
    rintro ⟨a, b, ⟨_, _⟩⟩ _ _ ⟨rfl, rfl, rfl⟩
    dsimp only
    split
    · exact .error _ rfl
    · exact push_carriesOut _
  | dup =>
    refine (read_carriesOut ⟨s, s.sp, sink⟩ .stack s.sp).bind ?_
    rintro v _ _ ⟨rfl, rfl⟩
    exact push_carriesOut (p := s.sp) _
  | jmp =>
    refine jumpTarget_carriesOut.bind ?_
    rintro ⟨target, ⟨_, _⟩⟩ _ _ ⟨rfl, rfl, rfl⟩
    exact .ok ⟨rfl, rfl⟩
  | jz =>
    refine jumpTarget_carriesOut.bind ?_
    rintro ⟨target, ⟨_, _⟩⟩ _ _ ⟨rfl, rfl, rfl⟩
    refine CarriesOut.bind pop_carriesOut ?_
    rintro ⟨_, ⟨_, _⟩⟩ condition _ ⟨rfl, rfl, rfl⟩
    by_cases hzero : condition = 0
    · simp only [if_pos hzero]
      exact .ok ⟨rfl, rfl⟩
    · simp only [if_neg hzero]
      exact .ok ⟨rfl, rfl⟩
  | prn =>
    refine CarriesOut.bind pop_carriesOut ?_
    rintro ⟨value, ⟨_, q⟩⟩ _ _ ⟨rfl, rfl, rfl⟩
    refine (demand_carriesOut ⟨s, q, sink⟩ _).bind ?_
    rintro numeral _ _ ⟨rfl, rfl⟩
    exact .ok ⟨rfl, rfl⟩
  | prnchar =>
    refine CarriesOut.bind pop_carriesOut ?_
    rintro ⟨value, ⟨_, _⟩⟩ _ _ ⟨rfl, rfl, rfl⟩
    exact .ok ⟨rfl, rfl⟩
  | load =>
    refine dataAddress_carriesOut.bind ?_
    rintro ⟨address, ⟨_, p⟩⟩ _ _ ⟨rfl, rfl, rfl⟩
    refine (read_carriesOut ⟨s, p, sink⟩ .data _).bind ?_
    rintro v _ _ ⟨rfl, rfl⟩
    exact push_carriesOut _
  | stor =>
    refine dataAddress_carriesOut.bind ?_
    rintro ⟨address, ⟨_, p⟩⟩ _ _ ⟨rfl, rfl, rfl⟩
    refine CarriesOut.bind pop_carriesOut ?_
    rintro ⟨value, ⟨_, q⟩⟩ _ _ ⟨rfl, rfl, rfl⟩
    refine (write_carriesOut ⟨s, q, sink⟩ .data _ _).bind_left ?_
    rintro memory _ _ rfl
    exact .ok ⟨rfl, rfl⟩

theorem dispatch_carriesOut :
    CarriesOut sink (fun effect _ w ↦ Holds sink effect w) s.execute
      (dispatch s.tag s.data ⟨s, s.sp, sink⟩) := by
  unfold State.execute dispatch
  split
  · exact push_carriesOut (p := s.sp) _
  · cases Opcode.ofId? s.data with
    | some op => exact perform_carriesOut op
    | none => exact .error _ rfl

theorem execute_carriesOut :
    CarriesOut sink
      (fun effect _ w ↦ effect.state = w.state ∧ w.sink = effect.output.elim sink sink.emit)
      s.execute (execute ⟨s, p, sink⟩) := by
  rw [← bind_pure s.execute]
  -- The pointer is taken from the copy first, and written back to it in the end.
  refine CarriesOut.bind (w := ⟨s, s.sp, sink⟩) dispatch_carriesOut ?_
  rintro effect _ w ⟨hstate, hsink⟩
  exact .ok ⟨hstate, hsink⟩

theorem fetch_carriesOut :
    CarriesOut sink (fun t _ w ↦ w = ⟨t, p, sink⟩) s.fetch (fetch ⟨s, p, sink⟩) :=
  CarriesOut.check (w := ⟨s, p, sink⟩) rfl fun _ ↦ .ok rfl

theorem decode_carriesOut :
    CarriesOut sink (fun t _ w ↦ w = ⟨t, p, sink⟩) s.decode (decode ⟨s, p, sink⟩) := by
  refine (read_carriesOut ⟨s, p, sink⟩ .instruction s.ip).bind ?_
  rintro word _ _ ⟨rfl, rfl⟩
  exact .ok rfl

/-- A cycle in place ends as the cycle does. If it goes through, the copy and the sink are as they
should be; if it fails, the sink is as before, whatever became of the copy. -/
theorem step_carriesOut :
    CarriesOut sink
      (fun effect _ w ↦ effect.state = w.state ∧ w.sink = effect.output.elim sink sink.emit)
      s.step (step ⟨s, p, sink⟩) := by
  show CarriesOut _ _ ((s.fetch >>= State.decode) >>= State.execute) _
  rw [bind_assoc]
  refine fetch_carriesOut.bind ?_
  rintro fetched _ _ rfl
  refine decode_carriesOut.bind ?_
  rintro decoded _ _ rfl
  exact execute_carriesOut

end TaggedStack.InPlace
