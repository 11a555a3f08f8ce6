import Mathlib.Data.List.TakeWhile
import TaggedStack.Proofs.Regions

/-!
# What loading a program does to memory

Loading copies words until one is refused. A word is refused because it is no machine word, which
is looked at first, or because the instruction region is full. So the words that are copied can be
told beforehand (`Memory.accepted`), and loading writes them one after another and nothing else.

* `Memory.load_eq`: what is left by a load, and how it ends.
* `Memory.regionWords_after_load`: the instructions afterwards; the tail of an earlier program
  stays.
* `Memory.regionWords_after_load_of_ne`: the other regions are left alone.
-/

namespace TaggedStack.Memory

variable {m : Memory}

/-! ### Which words are copied -/

/-- The words that are copied where there is room for `room` of them: those before the first one
that is no machine word. -/
def accepted (room : Nat) (program : List Int) : List Int :=
  (program.take room).takeWhile fun w ↦ decide (IsWord w)

/-- How copying a program ends where there is room for `room` words: the word after the accepted
ones, if there is one, is refused. -/
def acceptance (l : Layout) (room : Nat) (program : List Int) : Except Failure Unit :=
  match program[(accepted room program).length]? with
  | none => .ok ()
  | some w =>
    if IsWord w then .error (.outOfBounds .instruction l.dataBase) else .error (.wordRange w)

@[simp]
theorem accepted_nil (room : Nat) : accepted room [] = [] := by simp [accepted]

@[simp]
theorem accepted_zero (program : List Int) : accepted 0 program = [] := by simp [accepted]

theorem accepted_cons_of_isWord {w : Int} (hw : IsWord w) (room : Nat) (ws : List Int) :
    accepted (room + 1) (w :: ws) = w :: accepted room ws := by
  simp [accepted, hw]

theorem accepted_cons_of_not_isWord {w : Int} (hw : ¬IsWord w) (room : Nat) (ws : List Int) :
    accepted room (w :: ws) = [] := by
  cases room <;> simp [accepted, hw]

theorem acceptance_cons_of_isWord (l : Layout) {w : Int} (hw : IsWord w) (room : Nat)
    (ws : List Int) : acceptance l (room + 1) (w :: ws) = acceptance l room ws := by
  rw [acceptance, acceptance, accepted_cons_of_isWord hw, List.length_cons,
    List.getElem?_cons_succ]

theorem acceptance_cons_of_full (l : Layout) {w : Int} (hw : IsWord w) (ws : List Int) :
    acceptance l 0 (w :: ws) = .error (.outOfBounds .instruction l.dataBase) := by
  rw [acceptance, accepted_zero, List.length_nil, List.getElem?_cons_zero]
  exact if_pos hw

theorem acceptance_cons_of_not_isWord (l : Layout) {w : Int} (hw : ¬IsWord w) (room : Nat)
    (ws : List Int) : acceptance l room (w :: ws) = .error (.wordRange w) := by
  rw [acceptance, accepted_cons_of_not_isWord hw, List.length_nil, List.getElem?_cons_zero]
  exact if_neg hw

/-- A word is refused for want of room, or because it is no machine word. -/
theorem acceptance_cases {l : Layout} {room : Nat} {program : List Int} {e : Failure}
    (h : acceptance l room program = .error e) :
    e = .outOfBounds .instruction l.dataBase ∨ ∃ w, e = .wordRange w := by
  rw [acceptance] at h
  split at h
  · cases h
  · next w _ =>
    split at h
    · exact Or.inl (Except.error.inj h).symm
    · exact Or.inr ⟨w, (Except.error.inj h).symm⟩

theorem length_accepted_le (room : Nat) (program : List Int) :
    (accepted room program).length ≤ room :=
  Nat.le_trans (List.takeWhile_prefix _).length_le (List.length_take_le _ _)

theorem isWord_of_mem_accepted {room : Nat} {program : List Int} {w : Int}
    (h : w ∈ accepted room program) : IsWord w :=
  of_decide_eq_true (List.all_eq_true.1 List.all_takeWhile w h)

/-- A program of machine words for which there is room is accepted as a whole. -/
theorem accepted_eq_self {room : Nat} {program : List Int} (hlen : program.length ≤ room)
    (h : ∀ w ∈ program, IsWord w) : accepted room program = program := by
  rw [accepted, List.take_of_length_le hlen, List.takeWhile_eq_self_iff]
  exact fun w hw ↦ decide_eq_true (h w hw)

/-- A program of machine words for which there is room is copied to its end. -/
theorem acceptance_eq_ok {l : Layout} {room : Nat} {program : List Int}
    (hlen : program.length ≤ room) (h : ∀ w ∈ program, IsWord w) :
    acceptance l room program = .ok () := by
  rw [acceptance, accepted_eq_self hlen h, List.getElem?_eq_none (Nat.le_refl _)]

/-- Of machine words, as many are copied as there is room for. -/
theorem accepted_of_isWord {words : List Int} (h : ∀ w ∈ words, IsWord w) (room : Nat) :
    accepted room words = words.take room := by
  rw [accepted, List.takeWhile_eq_self_iff]
  exact fun w hw ↦ decide_eq_true (h w (List.mem_of_mem_take hw))

/-- Machine words are refused only for want of room. -/
theorem acceptance_of_isWord (l : Layout) {words : List Int} (h : ∀ w ∈ words, IsWord w)
    (room : Nat) :
    acceptance l room words =
      if words.length ≤ room then .ok () else .error (.outOfBounds .instruction l.dataBase) := by
  split
  · next hle => exact acceptance_eq_ok hle h
  · next hle =>
    have hlt : room < words.length := Nat.lt_of_not_le hle
    rw [acceptance, accepted_of_isWord h, List.length_take_of_le (Nat.le_of_lt hlt),
      List.getElem?_eq_getElem hlt]
    exact if_pos (h _ (List.getElem_mem hlt))

/-- A program is refused for a value that is no machine word exactly when there is one among those
that are looked at: as many as there is room for, and one more. -/
theorem acceptance_eq_wordRange_iff (l : Layout) (room : Nat) (program : List Int) :
    (∃ w, acceptance l room program = .error (.wordRange w)) ↔
      ∃ i, ∃ h : i < program.length, i ≤ room ∧ ¬IsWord program[i] := by
  induction program generalizing room with
  | nil =>
    constructor
    · rintro ⟨w, hw⟩
      simp [acceptance] at hw
    · rintro ⟨i, hi, -⟩
      exact absurd hi (Nat.not_lt_zero i)
  | cons w ws ih =>
    by_cases hw : IsWord w
    · cases room with
      | zero =>
        rw [acceptance_cons_of_full l hw]
        constructor
        · rintro ⟨v, hv⟩
          cases hv
        · rintro ⟨i, hi, hle, hbad⟩
          obtain rfl : i = 0 := Nat.le_zero.1 hle
          exact absurd hw hbad
      | succ room =>
        -- The first word is fine, so every position moves by one.
        rw [acceptance_cons_of_isWord l hw, ih]
        constructor
        · rintro ⟨i, hi, hle, hbad⟩
          exact ⟨i + 1, Nat.succ_lt_succ hi, Nat.succ_le_succ hle, hbad⟩
        · rintro ⟨_ | i, hi, hle, hbad⟩
          · exact absurd hw hbad
          · exact ⟨i, Nat.lt_of_succ_lt_succ hi, Nat.le_of_succ_le_succ hle, hbad⟩
    · rw [acceptance_cons_of_not_isWord l hw]
      exact ⟨fun _ ↦ ⟨0, Nat.zero_lt_succ _, Nat.zero_le _, hw⟩, fun _ ↦ ⟨w, rfl⟩⟩

/-! ### Setting words one after another -/

/-- The memory with words set one after another from an address on. -/
def setFrom (m : Memory) (address : Int) : List Int → Memory
  | [] => m
  | w :: ws => (m.set address w).setFrom (address + 1) ws

@[simp]
theorem layout_setFrom (m : Memory) (address : Int) (ws : List Int) :
    (m.setFrom address ws).layout = m.layout := by
  induction ws generalizing m address with
  | nil => rfl
  | cons w ws ih => exact ih (m.set address w) (address + 1)

/-- Words outside the stretch that is set stay. -/
theorem get_setFrom_of_outside {address x : Int} {ws : List Int} (ha : 0 ≤ address) (hx : 0 ≤ x)
    (h : x < address ∨ address + ws.length ≤ x) : (m.setFrom address ws).get x = m.get x := by
  induction ws generalizing m address with
  | nil => rfl
  | cons w ws ih =>
    simp only [List.length_cons] at h
    rw [setFrom, ih (by omega) (by omega)]
    exact get_set_of_int_ne ha hx (by omega) w

/-- Words inside the stretch that is set are the words set. -/
theorem get_setFrom {address : Int} {ws : List Int} {i : Nat} (ha : 0 ≤ address)
    (hlen : address + ws.length ≤ m.layout.memSize) (hi : i < ws.length) :
    (m.setFrom address ws).get (address + i) = ws[i] := by
  induction ws generalizing m address i with
  | nil => exact absurd hi (Nat.not_lt_zero i)
  | cons w ws ih =>
    simp only [List.length_cons] at hlen hi
    cases i with
    | zero =>
      -- The first word is not touched again by the words after it.
      rw [setFrom, get_setFrom_of_outside (by omega) (by omega) (by omega)]
      simp only [Int.ofNat_zero, Int.add_zero, List.getElem_cons_zero]
      exact get_set (by omega) w
    | succ i =>
      have hshift : address + ((i + 1 : Nat) : Int) = address + 1 + i := by omega
      rw [setFrom, hshift, ih (by omega) (by rw [layout_set]; omega) (by omega)]
      rfl

/-- Setting machine words keeps a memory of machine words one. -/
theorem isWord_get_setFrom {address : Int} {ws : List Int} (hm : ∀ x, IsWord (m.get x))
    (hws : ∀ w ∈ ws, IsWord w) (x : Int) : IsWord ((m.setFrom address ws).get x) := by
  induction ws generalizing m address with
  | nil => exact hm x
  | cons w ws ih =>
    apply ih _ fun v hv ↦ hws v (List.mem_cons_of_mem w hv)
    intro y
    rcases m.get_set_cases address y w with h | h
    · rw [h]
      exact hm y
    · rw [h]
      exact hws w List.mem_cons_self

/-! ### Loading -/

/-- Copying from an instruction address on writes the accepted words, where there is room up to
the first data address. -/
theorem loadFrom_eq {room : Nat} {address : Int} (hroom : address + room = m.layout.dataBase)
    (hbase : m.layout.instructionBase ≤ address) (program : List Int) :
    m.loadFrom address program =
      ⟨m.setFrom address (accepted room program), acceptance m.layout room program⟩ := by
  induction program generalizing m address room with
  | nil => simp [loadFrom, setFrom, acceptance, Attempt.succeed]
  | cons w ws ih =>
    by_cases hw : IsWord w
    · have hadmits := m.layout.admits_instruction_iff address
      cases room with
      | zero =>
        -- The value is looked at before the address, so a word is what meets the full region.
        obtain rfl : address = m.layout.dataBase := by omega
        have hfull : ¬m.layout.Admits .instruction m.layout.dataBase :=
          fun h ↦ Int.lt_irrefl _ (hadmits.1 h).2
        have hnamed : m.layout.rejection .instruction m.layout.dataBase =
            .outOfBounds .instruction m.layout.dataBase :=
          Layout.rejection_of_reach (by omega) (by have := m.layout.dataBase_le; omega)
        rw [accepted_zero, acceptance_cons_of_full _ hw]
        simp only [loadFrom, refusal, hw, hfull, not_true_eq_false, not_false_eq_true, if_true,
          if_false, Attempt.fail, setFrom, hnamed]
      | succ room =>
        have hfree : m.layout.Admits .instruction address := hadmits.2 ⟨hbase, by omega⟩
        have hrest : (m.set address w).loadFrom (address + 1) ws =
            ⟨(m.set address w).setFrom (address + 1) (accepted room ws),
              acceptance (m.set address w).layout room ws⟩ :=
          ih (by rw [layout_set]; omega) (by rw [layout_set]; omega)
        rw [accepted_cons_of_isWord hw, acceptance_cons_of_isWord _ hw]
        simp only [loadFrom, refusal, hw, hfree, not_true_eq_false, if_false, hrest, setFrom,
          layout_set]
    · rw [accepted_cons_of_not_isWord hw, acceptance_cons_of_not_isWord _ hw]
      simp only [loadFrom, refusal, hw, not_false_eq_true, if_true, Attempt.fail, setFrom]

/-- Loading writes the accepted words, and nothing else. -/
theorem load_eq (m : Memory) (program : List Int) :
    m.load program =
      ⟨m.setFrom m.layout.instructionBase (accepted m.layout.instructionCapacity program),
        acceptance m.layout m.layout.instructionCapacity program⟩ := by
  have hlt := m.layout.stackLimit_lt
  refine loadFrom_eq ?_ (Int.le_refl _) program
  simp only [Layout.instructionBase, Layout.instructionCapacity]
  omega

@[simp]
theorem layout_after_load (m : Memory) (program : List Int) :
    (m.load program).after.layout = m.layout := by
  rw [load_eq, layout_setFrom]

/-- The stretch of memory a load may write to. -/
theorem get_after_load_of_outside {x : Int} (hx : 0 ≤ x)
    (h : x < m.layout.instructionBase ∨ m.layout.dataBase ≤ x) (program : List Int) :
    (m.load program).after.get x = m.get x := by
  have hlt := m.layout.stackLimit_lt
  have hlen := length_accepted_le m.layout.instructionCapacity program
  rw [load_eq]
  refine get_setFrom_of_outside (Int.natCast_nonneg _) hx ?_
  simp only [Layout.instructionBase, Layout.instructionCapacity] at h hlen ⊢
  omega

/-- The instructions after a load: the accepted words, then what was there before. -/
theorem regionWords_after_load (m : Memory) (program : List Int) :
    (m.load program).after.regionWords .instruction =
      accepted m.layout.instructionCapacity program ++
        (m.regionWords .instruction).drop
          (accepted m.layout.instructionCapacity program).length := by
  have hlt := m.layout.stackLimit_lt
  have hle := m.layout.dataBase_le
  have hlen := length_accepted_le m.layout.instructionCapacity program
  have hbase : m.layout.instructionBase = m.layout.stackLimit := rfl
  have hcap : m.layout.instructionCapacity = m.layout.dataBase - m.layout.stackLimit := rfl
  rw [load_eq]
  -- From here on only the number of the words counts, not where they come from.
  generalize accepted m.layout.instructionCapacity program = ws at hlen ⊢
  apply List.ext_getElem
  · simp only [length_regionWords, layout_setFrom, Layout.bounds, List.length_append,
      List.length_drop]
    omega
  · intro i hi hi'
    simp only [regionWords_eq, layout_setFrom, Layout.bounds, List.getElem_map,
      List.getElem_range]
    rcases Nat.lt_or_ge i ws.length with h | h
    · rw [List.getElem_append_left h]
      exact get_setFrom (Int.natCast_nonneg _) (by omega) h
    · rw [List.getElem_append_right h]
      simp only [List.getElem_drop, List.getElem_map, List.getElem_range]
      rw [get_setFrom_of_outside (Int.natCast_nonneg _) (by omega) (by omega)]
      congr 1
      omega

/-- A load leaves the other regions alone. -/
theorem regionWords_after_load_of_ne {r : Region} (hr : r ≠ .instruction) (m : Memory)
    (program : List Int) : (m.load program).after.regionWords r = m.regionWords r := by
  have hlt := m.layout.stackLimit_lt
  have hbase : m.layout.instructionBase = m.layout.stackLimit := rfl
  rw [regionWords_eq, regionWords_eq, layout_after_load]
  apply List.map_congr_left
  intro i hi
  rw [List.mem_range] at hi
  refine get_after_load_of_outside (by omega) ?_ program
  cases r with
  | stack =>
    simp only [Layout.bounds] at hi ⊢
    omega
  | instruction => exact absurd rfl hr
  | data =>
    simp only [Layout.bounds] at hi ⊢
    omega

/-- A load leaves the values on the stack alone. -/
theorem stackWords_after_load {count : Nat} (h : count < m.layout.stackLimit)
    (program : List Int) : (m.load program).after.stackWords count = m.stackWords count := by
  apply List.map_congr_left
  intro i hi
  rw [List.mem_range] at hi
  exact get_after_load_of_outside (by omega) (Or.inl (by simp only [Layout.instructionBase]; omega))
    program

/-- A load of machine words and others keeps a memory of machine words one. -/
theorem isWord_get_after_load (hm : ∀ x, IsWord (m.get x)) (program : List Int) (x : Int) :
    IsWord ((m.load program).after.get x) := by
  rw [load_eq]
  exact isWord_get_setFrom hm (fun _ hw ↦ isWord_of_mem_accepted hw) x

end TaggedStack.Memory
