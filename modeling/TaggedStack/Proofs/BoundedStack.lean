import TaggedStack.Proofs.StackCalls

/-!
# A stack in memory is a bounded list

To whoever calls it, a stack is a list of values with a bound on its length
(`Stack.Call.onList`). The list knows nothing of addresses. In memory there is more to see: a popped
word stays where it was until another value is put over it, and the words above the pointer at the
start are whatever the memory was given. None of this shows, since a call reads no higher than the
pointer and the pointer moves up only over a word that is written in the same call.

`Stack.Represents` is what every call keeps: the words from address `1` to the pointer are the
values of the list, from bottom to top. With it goes that nothing was written but on the stack.

* `Stack.ask`: the operation of a call; carried out in place, it comes to the same
  (`Stack.serve_eq_ask`).
* `Stack.Represents.ask`: a call gets the same answer from the stack and from its list, and leaves a
  stack and its list.
* `Stack.Represents.transcript`: the same for one call after another.
* `Stack.behaves_as_bounded_list`: the transcript of an empty stack.
-/

namespace TaggedStack.Stack

/-! ### Calls as operations -/

/-- The stack after a call, and its answer, by the operation of the call. Only a push leaves another
stack when it fails. -/
def ask (s : Stack) : Call → Attempt Stack Failure Answer
  | .push value => ⟨(s.push value).after, (s.push value).ending.map fun _ ↦ .done⟩
  | .pop =>
    match s.pop with
    | .ok (value, t) => .succeed t (.value value)
    | .error e => .fail s e
  | .peek => ⟨s, s.peek.map .value⟩
  | .items => ⟨s, s.items.map .values⟩

/-- A call carried out in place is the operation of the call. -/
theorem serve_eq_ask (s : Stack) (c : Call) : s.serve c = s.ask c := by
  cases c with
  | push value => exact serve_push s value
  | pop => exact serve_pop s
  | peek => exact serve_peek s
  | items => exact serve_items s

/-! ### Calls on a list -/

/-- A call on a list of values, the top one first, of which there may be as many as the stack of a
layout holds. Failures name the address where the stack would have found itself. -/
def Call.onList (l : Layout) (values : List Int) : Call → Attempt (List Int) Failure Answer
  | .push value =>
    if values.length < l.stackCapacity then .succeed (value :: values) .done
    else .fail values (.outOfBounds .stack l.stackLimit)
  | .pop =>
    match values with
    | [] => .fail [] (.outOfBounds .stack 0)
    | value :: rest => .succeed rest (.value value)
  | .peek =>
    match values with
    | [] => .fail [] (.outOfBounds .stack 0)
    | value :: rest => .succeed (value :: rest) (.value value)
  | .items => .succeed values (.values values.reverse)

/-- The outcomes of one call after another, each made on what the one before left. -/
def transcript {σ : Type} (answer : σ → Call → Attempt σ Failure Answer) :
    σ → List Call → List (Attempt σ Failure Answer)
  | _, [] => []
  | s, c :: calls => answer s c :: transcript answer (answer s c).after calls

/-! ### The values of a stack as a list -/

variable {m : Memory} {s : Stack} {values rest : List Int} {value : Int}

/-- A stack holds the values of a list, the top one first, and its memory is what it was before but
for the stack. -/
structure Represents (m : Memory) (s : Stack) (values : List Int) : Prop where
  layout_eq : s.memory.layout = m.layout
  pointer_eq : s.pointer = values.length
  length_le : values.length ≤ m.layout.stackCapacity
  stackWords_eq : s.memory.stackWords values.length = values.reverse
  getElem?_eq : ∀ i : Nat, ¬(1 ≤ i ∧ i < m.layout.stackLimit) →
    s.memory.words[i]? = m.words[i]?

/-- A stack without values is empty over any memory. -/
theorem represents_nil (m : Memory) : Represents m ⟨m, 0⟩ [] where
  layout_eq := rfl
  pointer_eq := rfl
  length_le := Nat.zero_le _
  stackWords_eq := rfl
  getElem?_eq _ _ := rfl

namespace Represents

theorem admits_next_iff (h : Represents m s values) :
    s.memory.layout.Admits .stack (s.pointer + 1) ↔ values.length < m.layout.stackCapacity := by
  have hlow : 0 ≤ s.pointer := by
    rw [h.pointer_eq]
    omega
  rw [Stack.admits_next_iff hlow, h.layout_eq, h.pointer_eq]
  omega

/-- A full stack is one whose next address is the first that is no stack address. -/
theorem pointer_add_one_of_full (h : Represents m s values)
    (hfull : ¬values.length < m.layout.stackCapacity) : s.pointer + 1 = m.layout.stackLimit := by
  have hle := h.length_le
  have hpos := m.layout.stackLimit_pos
  rw [h.pointer_eq]
  unfold Layout.stackCapacity at hfull hle
  omega

/-- A full stack has no address to offer but the first that is no stack address. -/
theorem rejection_of_full (h : Represents m s values)
    (hfull : ¬values.length < m.layout.stackCapacity) :
    s.memory.layout.rejection .stack (s.pointer + 1) = .outOfBounds .stack m.layout.stackLimit := by
  have hnext := h.pointer_add_one_of_full hfull
  have hlow : 0 ≤ s.pointer := by
    rw [h.pointer_eq]
    omega
  rw [Stack.rejection_of_le hlow (by omega) (by rw [h.layout_eq]; omega), hnext]

/-- The word at the pointer is the top value, and the words below are the others. -/
theorem stack_cons (h : Represents m s (value :: rest)) :
    s.memory.get s.pointer = value ∧ s.memory.stackWords rest.length = rest.reverse := by
  have hpointer : s.pointer = rest.length + 1 := h.pointer_eq
  rw [hpointer]
  exact Memory.stackWords_eq_reverse_cons h.stackWords_eq

theorem peek_nil (h : Represents m s []) : s.peek = .error (.outOfBounds .stack 0) := by
  have hpointer : s.pointer = 0 := h.pointer_eq
  have hrefused : ¬s.memory.layout.Admits .stack 0 := fun hadmits ↦ hadmits.1 ⟨rfl, rfl⟩
  rw [peek, Memory.read, hpointer, if_neg hrefused,
    Layout.rejection_of_reach (Int.le_refl 0) (by omega)]

theorem peek_cons (h : Represents m s (value :: rest)) : s.peek = .ok value := by
  have hadmits : s.memory.layout.Admits .stack s.pointer := by
    have hle := h.length_le
    rw [Layout.admits_stack_iff, h.layout_eq, h.pointer_eq]
    unfold Layout.stackCapacity at hle
    rw [List.length_cons] at hle ⊢
    omega
  exact Memory.read_eq_ok_iff.2 ⟨hadmits, h.stack_cons.1⟩

/-- Moving the pointer down drops the top value. Its word stays, but no longer counts. -/
theorem dropTop (h : Represents m s (value :: rest)) :
    Represents m ⟨s.memory, s.pointer - 1⟩ rest where
  layout_eq := h.layout_eq
  pointer_eq := by
    show s.pointer - 1 = rest.length
    rw [h.pointer_eq, List.length_cons]
    omega
  length_le := Nat.le_of_succ_le h.length_le
  stackWords_eq := h.stack_cons.2
  getElem?_eq := h.getElem?_eq

/-- Writing a value above the pointer and moving the pointer there adds the value. -/
theorem push (h : Represents m s values) (hroom : values.length < m.layout.stackCapacity)
    (value : Int) :
    Represents m ⟨s.memory.set (s.pointer + 1) value, s.pointer + 1⟩ (value :: values) := by
  have hadmits := h.admits_next_iff.2 hroom
  have hbounds := (s.memory.layout.admits_stack_iff _).1 hadmits
  refine { layout_eq := h.layout_eq, pointer_eq := ?_, length_le := hroom, stackWords_eq := ?_,
           getElem?_eq := fun i hi ↦ ?_ }
  · show s.pointer + 1 = ((values.length + 1 : Nat) : Int)
    rw [h.pointer_eq]
    omega
  · show (s.memory.set (s.pointer + 1) value).stackWords (values.length + 1) = _
    rw [h.pointer_eq] at hadmits ⊢
    rw [Memory.stackWords_set_next hadmits, h.stackWords_eq, List.reverse_cons]
  · -- The address written to is on the stack, so the words outside are what they were.
    show (s.memory.set (s.pointer + 1) value).words[i]? = _
    rw [h.layout_eq] at hbounds
    rw [Memory.getElem?_words_set hadmits, if_neg (by omega), h.getElem?_eq i hi]

/-! ### One call after another -/

/-- **A call gets the same answer from the stack and from its list,** and leaves a stack and its
list. -/
theorem ask (h : Represents m s values) {c : Call} (hc : ∀ v, c = .push v → IsWord v) :
    (s.ask c).ending = (c.onList m.layout values).ending ∧
      Represents m (s.ask c).after (c.onList m.layout values).after := by
  cases c with
  | push v =>
    rw [Stack.ask, push_eq, Call.onList]
    by_cases hroom : values.length < m.layout.stackCapacity
    · rw [if_pos (h.admits_next_iff.2 hroom), if_pos (hc v rfl), if_pos hroom]
      exact ⟨rfl, h.push hroom v⟩
    · rw [if_neg (mt h.admits_next_iff.1 hroom), if_neg hroom, h.rejection_of_full hroom]
      exact ⟨rfl, h⟩
  | pop =>
    rw [Stack.ask, pop]
    cases values with
    | nil =>
      rw [h.peek_nil]
      exact ⟨rfl, h⟩
    | cons value rest =>
      rw [h.peek_cons]
      exact ⟨rfl, h.dropTop⟩
  | peek =>
    rw [Stack.ask]
    cases values with
    | nil =>
      rw [h.peek_nil]
      exact ⟨rfl, h⟩
    | cons value rest =>
      rw [h.peek_cons]
      exact ⟨rfl, h⟩
  | items =>
    have hhigh : s.pointer ≤ s.memory.layout.stackCapacity := by
      rw [h.pointer_eq, h.layout_eq]
      exact Int.ofNat_le.2 h.length_le
    have hcount : s.pointer.toNat = values.length := by
      rw [h.pointer_eq]
      rfl
    rw [Stack.ask, items_eq hhigh, hcount, h.stackWords_eq]
    exact ⟨rfl, h⟩

/-- A transcript of the stack tells the same answers and depths as one of its list, and leaves a
stack and a list after every call. -/
theorem transcript (h : Represents m s values) {calls : List Call}
    (hcalls : ∀ v, .push v ∈ calls → IsWord v) :
    (Stack.transcript Stack.ask s calls).map (fun a ↦ (a.ending, a.after.pointer)) =
        (Stack.transcript (fun values c ↦ c.onList m.layout values) values calls).map
          (fun a ↦ (a.ending, (a.after.length : Int))) ∧
      ∀ a ∈ Stack.transcript Stack.ask s calls, ∃ values', Represents m a.after values' := by
  induction calls generalizing s values with
  | nil => exact ⟨rfl, List.forall_mem_nil _⟩
  | cons c calls ih =>
    have hfirst : ∀ v, c = .push v → IsWord v := by
      rintro v rfl
      exact hcalls v List.mem_cons_self
    obtain ⟨hending, hafter⟩ := h.ask hfirst
    obtain ⟨hrest, hleft⟩ := ih hafter fun v hv ↦ hcalls v (List.mem_cons_of_mem c hv)
    refine ⟨?_, List.forall_mem_cons.2 ⟨⟨_, hafter⟩, hleft⟩⟩
    rw [Stack.transcript, Stack.transcript, List.map_cons, List.map_cons, hrest, hending,
      hafter.pointer_eq]

end Represents

/-- **A stack is a bounded list.** Whatever the memory holds, an empty stack answers one call after
another as an empty list does that has room for as many values, with the same failures and the same
depth after each call, as long as machine words are pushed. No call changes a word outside the
addresses from `1` to the end of the stack. All this holds of calls in place as well. -/
theorem behaves_as_bounded_list (m : Memory) {calls : List Call}
    (hcalls : ∀ v, .push v ∈ calls → IsWord v) :
    transcript serve ⟨m, 0⟩ calls = transcript ask ⟨m, 0⟩ calls ∧
      (transcript ask ⟨m, 0⟩ calls).map (fun a ↦ (a.ending, a.after.pointer)) =
        (transcript (fun values c ↦ c.onList m.layout values) [] calls).map
          (fun a ↦ (a.ending, (a.after.length : Int))) ∧
      ∀ a ∈ transcript ask ⟨m, 0⟩ calls,
        a.after.memory.layout = m.layout ∧
          ∀ address : Nat, ¬(1 ≤ address ∧ address < m.layout.stackLimit) →
            a.after.memory.words[address]? = m.words[address]? := by
  obtain ⟨hanswers, hleft⟩ := (represents_nil m).transcript hcalls
  have hplace : serve = ask := funext fun s ↦ funext (serve_eq_ask s)
  refine ⟨by rw [hplace], hanswers, fun a ha ↦ ?_⟩
  obtain ⟨values, hvalues⟩ := hleft a ha
  exact ⟨hvalues.layout_eq, hvalues.getElem?_eq⟩

/-- A stack with room for two values, over a memory of words that are no machine words: it is filled
beyond its room, emptied beyond its last value and used again. -/
theorem behaves_as_bounded_list_stale :
    let m : Memory := ⟨⟨5, 3, 4, by decide, by decide, by decide⟩, #[-7, -8, -9, -1, -6], rfl⟩
    let calls : List Call :=
      [.push 1, .push 2, .push 3, .peek, .pop, .pop, .pop, .push 4, .items]
    (∀ v, .push v ∈ calls → IsWord v) ∧
      (transcript ask ⟨m, 0⟩ calls).map (fun a ↦ (a.ending, a.after.pointer)) =
        [(.ok .done, 1), (.ok .done, 2), (.error (.outOfBounds .stack 3), 2),
          (.ok (.value 2), 2), (.ok (.value 2), 1), (.ok (.value 1), 0),
          (.error (.outOfBounds .stack 0), 0), (.ok .done, 1), (.ok (.values [4]), 1)] := by
  intro m calls
  have hcalls : ∀ v, .push v ∈ calls → IsWord v := by
    intro v hv
    have hpushed : v = 1 ∨ v = 2 ∨ v = 3 ∨ v = 4 := by simpa [calls] using hv
    rcases hpushed with rfl | rfl | rfl | rfl <;> decide
  exact ⟨hcalls, (behaves_as_bounded_list m hcalls).2.1.trans rfl⟩

end TaggedStack.Stack
