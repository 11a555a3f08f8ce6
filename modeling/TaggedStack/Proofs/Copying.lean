import Mathlib.Data.Nat.Find
import Mathlib.Order.Bounds.Basic
import TaggedStack.Proofs.Lockstep
import TaggedStack.Proofs.Requests

/-!
# Copying a program, also when it breaks off

Where copying a program stops can be read off the program: at the least index at which there is no
room left, or at which the value is no machine word. If that is behind the program, the program is
copied as a whole. Otherwise the words before it are copied, and it decides how loading fails. At
the index where the room ends both reasons may hold at once, and then the value counts.

Memory is described as one row of words. Loading replaces a stretch of it, which begins with the
first instruction and is as long as what was copied. Everything before and behind that stretch is
what it was, the tail of an earlier program included.

* `Memory.StopsCopying`: the indices at which copying cannot go on.
* `Memory.accepted_eq_take`, `Memory.acceptance_of_isLeast`: what is copied, and how copying ends.
* `Memory.toList_setFrom`: setting words one after another, on the row of all words.
* `Machine.load_is_exact`: what loading a program returns and leaves, for every list of integers.
-/

namespace TaggedStack

namespace Memory

variable {m : Memory} {room k : Nat} {words : List Int}

/-! ### Where copying stops -/

/-- There is no room for a word with this index, or what is there is no machine word. -/
def StopsCopying (room : Nat) (words : List Int) (k : Nat) : Prop :=
  room ≤ k ∨ ∃ w, words[k]? = some w ∧ ¬IsWord w

/-- Copying stops somewhere: at the latest where the room ends. -/
theorem exists_isLeast_stopsCopying (room : Nat) (words : List Int) :
    ∃ k, IsLeast {k | StopsCopying room words k} k := by
  classical
  have hsome : ∃ k, StopsCopying room words k := ⟨room, .inl (Nat.le_refl room)⟩
  exact ⟨Nat.find hsome, Nat.find_spec hsome, fun _ hk ↦ Nat.find_min' hsome hk⟩

/-- There is room for all words before the index where copying stops. -/
theorem le_of_isLeast (h : IsLeast {k | StopsCopying room words k} k) : k ≤ room :=
  h.2 (.inl (Nat.le_refl room))

/-- All words before the index where copying stops are machine words. -/
theorem isWord_of_mem_take (h : IsLeast {k | StopsCopying room words k} k) {w : Int}
    (hw : w ∈ words.take k) : IsWord w := by
  obtain ⟨i, hi, rfl⟩ := List.mem_take_iff_getElem.1 hw
  by_contra hbad
  have hle : k ≤ i := h.2 (.inr ⟨_, List.getElem?_eq_getElem _, hbad⟩)
  omega

/-- **The words that are copied are those before the index where copying stops.** -/
theorem accepted_eq_take (h : IsLeast {k | StopsCopying room words k} k) :
    accepted room words = words.take k := by
  have hsplit : words.take room = words.take k ++ (words.drop k).take (room - k) := by
    rw [← List.take_add, Nat.add_sub_cancel' (le_of_isLeast h)]
  have hrest : ((words.drop k).take (room - k)).takeWhile (fun w ↦ decide (IsWord w)) = [] := by
    rcases h.1 with hfull | ⟨w, hw, hbad⟩
    · rw [Nat.sub_eq_zero_of_le hfull, List.take_zero, List.takeWhile_nil]
    · -- The value at the index ends the words that are copied, if there is room for it at all.
      obtain ⟨hlt, rfl⟩ := List.getElem?_eq_some_iff.1 hw
      rw [List.drop_eq_getElem_cons hlt]
      exact accepted_cons_of_not_isWord hbad _ _
  rw [accepted, hsplit, List.takeWhile_append_of_pos
    fun w hw ↦ decide_eq_true (isWord_of_mem_take h hw), hrest, List.append_nil]

/-- How copying ends is decided by the value at the index where it stops, if there is one. -/
theorem acceptance_of_isLeast (l : Layout) (h : IsLeast {k | StopsCopying room words k} k) :
    acceptance l room words =
      if hk : k < words.length then
        if IsWord words[k] then .error (.outOfBounds .instruction l.dataBase)
        else .error (.wordRange words[k])
      else .ok () := by
  rw [acceptance, accepted_eq_take h]
  by_cases hk : k < words.length
  · rw [List.length_take_of_le (Nat.le_of_lt hk), List.getElem?_eq_getElem hk, dif_pos hk]
  · rw [List.take_of_length_le (Nat.le_of_not_lt hk), List.getElem?_eq_none (Nat.le_refl _),
      dif_neg hk]

/-! ### The row of all words -/

/-- The words of a memory, with others in place of as many of them from the first instruction on. -/
def withInstructions (m : Memory) (ws : List Int) : List Int :=
  m.words.toList.take m.layout.instructionBase ++ ws ++
    m.words.toList.drop (m.layout.instructionBase + ws.length)

/-- Setting words one after another replaces a stretch of the row. -/
theorem toList_setFrom {address : Nat} {ws : List Int}
    (h : address + ws.length ≤ m.layout.memSize) :
    (m.setFrom address ws).words.toList =
      m.words.toList.take address ++ ws ++ m.words.toList.drop (address + ws.length) := by
  induction ws generalizing m address with
  | nil => simp [setFrom]
  | cons w ws ih =>
    rw [List.length_cons] at h
    have hlt : address < m.words.toList.length := by
      rw [Array.length_toList, m.size_words]
      omega
    have hset : (m.set address w).words.toList = m.words.toList.set address w :=
      Array.toList_setIfInBounds
    have hnext : (address : Int) + 1 = ((address + 1 : Nat) : Int) := rfl
    rw [setFrom, hnext, ih (by rw [layout_set]; omega), hset,
      List.take_succ_eq_append_getElem (by rwa [List.length_set]), List.getElem_set_self,
      List.take_set_of_le (Nat.le_refl _), List.drop_set_of_lt (by omega), List.length_cons,
      Nat.add_right_comm, Nat.add_assoc, List.append_assoc, List.append_assoc, List.append_assoc]
    rfl

/-- Loading replaces the words from the first instruction on by those that are copied. -/
theorem toList_after_load (h : IsLeast {k | StopsCopying m.layout.instructionCapacity words k} k) :
    (m.load words).after.words.toList = m.withInstructions (words.take k) := by
  have hlength := length_accepted_le m.layout.instructionCapacity words
  have hlt := m.layout.stackLimit_lt
  have hle := m.layout.dataBase_le
  rw [load_eq, ← accepted_eq_take h]
  refine toList_setFrom ?_
  simp only [Layout.instructionBase, Layout.instructionCapacity] at hlength ⊢
  omega

end Memory

namespace Machine

/-- **Loading is exact, also when it breaks off.** It stops at the least index at which there is no
room left or the value is no machine word. A program that ends before that index is copied as a
whole, and its length is returned. Otherwise a value that is no machine word is refused as such,
and a machine word for want of room, and just the words before the index have been copied. Nothing
but these words is changed, in memory or in the registers. -/
theorem load_is_exact (m : Machine) (words : List Int) :
    let l := m.state.layout
    let loaded := m.load words
    ∃ k, IsLeast {k | Memory.StopsCopying l.instructionCapacity words k} k ∧
      (words.length ≤ k →
        loaded.ending = .ok words.length ∧
          loaded.after.state.memory.words.toList = m.state.memory.withInstructions words) ∧
      (∀ hk : k < words.length,
        (¬IsWord words[k] → loaded.ending = .error (.wordRange words[k])) ∧
          (IsWord words[k] → loaded.ending = .error (.outOfBounds .instruction l.dataBase)) ∧
          loaded.after.state.memory.words.toList =
            m.state.memory.withInstructions (words.take k)) ∧
      loaded.after.state.layout = l ∧
      loaded.after.state = { m.state with memory := loaded.after.state.memory } := by
  intro l loaded
  obtain ⟨k, hk⟩ := Memory.exists_isLeast_stopsCopying l.instructionCapacity words
  have hstate : loaded.after.state =
      { m.state with memory := (m.state.memory.load words).after } := state_after_load m words
  have hwords : loaded.after.state.memory.words.toList =
      m.state.memory.withInstructions (words.take k) := by
    rw [hstate]
    exact Memory.toList_after_load hk
  have hending : loaded.ending =
      (Memory.acceptance l l.instructionCapacity words).map fun _ ↦ words.length := by
    rw [ending_load, Memory.load_eq]
  rw [Memory.acceptance_of_isLeast l hk] at hending
  refine ⟨k, hk, fun hle ↦ ?_, fun hlt ↦ ?_, ?_, ?_⟩
  · rw [dif_neg (Nat.not_lt_of_le hle)] at hending
    rw [List.take_of_length_le hle] at hwords
    exact ⟨hending, hwords⟩
  · rw [dif_pos hlt] at hending
    refine ⟨fun hbad ↦ ?_, fun hword ↦ ?_, hwords⟩
    · rw [hending, if_neg hbad]
      rfl
    · rw [hending, if_pos hword]
      rfl
  · rw [hstate]
    exact Memory.layout_after_load m.state.memory words
  · rw [hstate]

/-- Where the room ends, a value that is no machine word counts before the missing room. -/
example :
    let m := fresh ⟨6, 2, 4, by decide, by decide, by decide⟩ .emptyBuffer .silent
    (m.load [7, 8, -1]).ending = .error (.wordRange (-1)) ∧
      (m.load [7, 8, 9, -1]).ending = .error (.outOfBounds .instruction 4) ∧
      (m.load [7, -1, 9]).after.state.memory.words = #[0, 0, 7, 0, 0, 0] := by
  decide

end Machine

end TaggedStack
