import TaggedStack.Demo
import TaggedStack.Proofs.Passages

/-!
# Printing a text

The program of a text has a literal and an operation for each code point, and a halt at the end. An
operation prints the low 16 bits of its operand, so there is a program exactly for the texts whose
code points have no more; surrogates are among them. What the code of a text does is said for any
place in a program where it stands: it comes to its end with the stack as empty as it was, in two
cycles for each code point, each printed as an emission of its own.

* `Demo.printing_eq_error_iff`: a text is refused for the first code point that is too wide.
* `Demo.reaches_printed`: what the code of a text does, by induction on the text.
* `Demo.hello_prints_text`: which texts have a program, and the run of it.
-/

namespace TaggedStack.Demo

/-! ### The program of a text -/

/-- Whether a code point needs more than 16 bits. -/
def IsWide (c : CodePoint) : Prop := 0xFFFF < c.val

instance (c : CodePoint) : Decidable (IsWide c) := inferInstanceAs (Decidable (_ < _))

/-- The instructions that print one code point. -/
def pointCode (c : CodePoint) : List Instr :=
  [.literal (c.castLE (by decide)), .op .prnchar]

theorem printing_cons_of_not_isWide {c : CodePoint} (h : ¬IsWide c) (text : Text) :
    printing (c :: text) = (pointCode c ++ ·) <$> printing text :=
  dif_pos (Nat.not_lt.1 h)

theorem printing_cons_of_isWide {c : CodePoint} (h : IsWide c) (text : Text) :
    printing (c :: text) = .error ⟨c⟩ :=
  dif_neg (Nat.not_le.2 h)

/-- A text without wide code points has a program. -/
theorem printing_eq_ok {text : Text} (h : ∀ c ∈ text, ¬IsWide c) :
    printing text = .ok (text.flatMap pointCode) := by
  induction text with
  | nil => rfl
  | cons c text ih =>
    obtain ⟨hc, htext⟩ := List.forall_mem_cons.1 h
    rw [printing_cons_of_not_isWide hc, ih htext]
    rfl

/-- A text is refused for its first wide code point. -/
theorem printing_eq_error_iff {text : Text} {e : WidePoint} :
    printing text = .error e ↔ text.find? (fun c ↦ IsWide c) = some e.point := by
  induction text with
  | nil => simp [printing]
  | cons c text ih =>
    by_cases hc : IsWide c
    · rw [printing_cons_of_isWide hc, List.find?_cons_of_pos (by simpa using hc)]
      obtain ⟨point⟩ := e
      simp
    · rw [printing_cons_of_not_isWide hc, List.find?_cons_of_neg (by simpa using hc), ← ih]
      cases printing text <;> simp

/-- There is no program exactly for the texts with a wide code point. -/
theorem exists_hello_error_iff (text : Text) :
    (∃ e, hello text = .error e) ↔ ∃ c ∈ text, IsWide c := by
  have hprinting (e : WidePoint) : hello text = .error e ↔ printing text = .error e := by
    rw [hello]
    cases printing text <;> simp [bind, Except.bind, pure, Except.pure]
  simp only [hprinting, printing_eq_error_iff]
  constructor
  · intro h
    obtain ⟨e, he⟩ := h
    exact ⟨e.point, List.mem_of_find?_eq_some he, by simpa using List.find?_some he⟩
  · intro h
    obtain ⟨c, hc, hwide⟩ := h
    have hsome : (text.find? fun c ↦ IsWide c).isSome :=
      List.find?_isSome.2 ⟨c, hc, decide_eq_true hwide⟩
    obtain ⟨first, hfirst⟩ := Option.isSome_iff_exists.1 hsome
    exact ⟨⟨first⟩, hfirst⟩

/-- The program of a text without wide code points. -/
theorem hello_eq_ok {text : Text} (h : ∀ c ∈ text, ¬IsWide c) :
    hello text = .ok (assemble (text.flatMap pointCode ++ [.op .halt])) := by
  rw [hello, printing_eq_ok h]
  rfl

/-- Two instructions for each code point. -/
theorem length_flatMap_pointCode (text : Text) :
    (text.flatMap pointCode).length = 2 * text.length := by
  induction text with
  | nil => rfl
  | cons c text ih =>
    rw [List.flatMap_cons, List.length_append, ih, List.length_cons, Nat.mul_succ, Nat.add_comm]
    rfl

/-! ### What the program does -/

open ListMachine

variable {l : Layout} {a : ListMachine l}

/-- A code point of 16 bits is what its own low bits give. -/
theorem ofLowBits_val {c : CodePoint} (h : ¬IsWide c) : CodePoint.ofLowBits c.val = c := by
  have hle : c.val ≤ 0xFFFF := Nat.not_lt.1 h
  apply Fin.ext
  show ((c.val : Int) % 0x10000).toNat = c.val
  omega

/-- **Wherever it stands.** The code of a text prints its code points one at a time, in two cycles
each, and leaves the stack empty. -/
theorem reaches_printed (hrunning : a.running = true) (hroom : 1 ≤ l.stackCapacity) {text : Text}
    (htext : ∀ c ∈ text, ¬IsWide c) {index : Nat}
    (hcode : a.HasCode index (text.flatMap pointCode)) :
    (a.moved index [] (Nat.zero_le _)).Reaches (2 * text.length) (text.map .point)
      (a.moved (index + 2 * text.length) [] (Nat.zero_le _)) := by
  induction text generalizing index with
  | nil => exact .refl _
  | cons c text ih =>
    obtain ⟨hc, htext⟩ := List.forall_mem_cons.1 htext
    have hone : [Word.ofPayload (c.castLE (by decide))].length ≤ l.stackCapacity := hroom
    have hprint := step_moved_prnchar (h := hone) hcode.tail.head
    rw [show (Word.ofPayload (c.castLE (by decide))).val = c.val from rfl, ofLowBits_val hc]
      at hprint
    have hrest := ih htext hcode.right
    rw [show index + (pointCode c).length + 2 * text.length = index + 2 * (c :: text).length by
      rw [List.length_cons]; show index + 2 + _ = _; omega] at hrest
    refine .silent hrunning (step_moved_literal hcode.head ?_) (.printing hrunning hprint hrest)
    exact hroom

/-- **A text is printed as it is.** A text has no program exactly if one of its code points needs
more than 16 bits. Otherwise its program halts in every layout that has room for it, with an empty
stack and the program data as they were; each code point, a surrogate as any other, has been printed
as a piece of its own. -/
theorem hello_prints_text (text : Text) :
    ((∃ e, hello text = .error e) ↔ ∃ c ∈ text, 0xFFFF < c.val) ∧
      ((∀ c ∈ text, c.val ≤ 0xFFFF) → ∃ words, hello text = .ok words ∧
        ∀ (l : Layout) (journal : Journal), 1 ≤ l.stackCapacity →
          2 * text.length + 1 ≤ l.instructionCapacity →
          let loaded := (Machine.fresh l .emptyBuffer journal).load words
          loaded.ending = .ok (2 * text.length + 1) ∧
            ∃ last, loaded.after.StopsIn (2 * text.length + 1) .halted last ∧
              last.state.sp = 0 ∧ last.state.top = .ok none ∧
              last.sink = .buffer (text.map fun c ↦ [c]).toArray ∧
              last.state.memory.regionWords .data = (Memory.blank l).regionWords .data) := by
  refine ⟨exists_hello_error_iff text, fun hnarrow ↦ ?_⟩
  have htext : ∀ c ∈ text, ¬IsWide c := fun c hc ↦ Nat.not_lt.2 (hnarrow c hc)
  refine ⟨_, hello_eq_ok htext, fun l journal hroom hcapacity ↦ ?_⟩
  have hlength : (text.flatMap pointCode ++ [Instr.op .halt]).length = 2 * text.length + 1 := by
    rw [List.length_append, length_flatMap_pointCode, List.length_singleton]
  rw [← hlength] at hcapacity
  have hcode : ((blank l).loaded _ hcapacity).HasCode 0
    (text.flatMap pointCode ++ [Instr.op .halt]) := ⟨_, rfl⟩
  have hhalt := hcode.right.head
  rw [length_flatMap_pointCode] at hhalt
  have hpassage := (reaches_printed (a := (blank l).loaded _ hcapacity) rfl hroom htext
    hcode.left).trans (.silent rfl (step_moved_halt hhalt) (.refl _))
  obtain ⟨hending, last, hstops, hlast, hsink⟩ :=
    Machine.exists_stopsIn_of_reaches hcapacity hpassage rfl .emptyBuffer journal
  rw [hlength] at hending
  refine ⟨hending, last, hstops, hlast.sp_eq, hlast.top, ?_, ?_⟩
  · rw [hsink, List.append_nil, Sink.emptyBuffer, Sink.foldl_emit_buffer, List.map_map,
      Array.empty_append]
    rfl
  · rw [hlast.data_eq]
    exact (describes_initial l).data_eq.symm

/-- A lone surrogate and a letter fill the instructions of a small layout, and come out as they went
in. -/
theorem hello_prints_text_surrogate :
    let l : Layout := ⟨9, 2, 7, by decide, by decide, by decide⟩
    ∃ words, hello [0xD800, 0x48] = .ok words ∧
      ∃ last, ((Machine.fresh l .emptyBuffer .silent).load words).after.StopsIn 5 .halted last ∧
        last.state.sp = 0 ∧ last.sink.pieces = [[0xD800], [0x48]] ∧
        last.state.memory.regionWords .data = [0, 0] := by
  have hnarrow : ∀ c ∈ ([0xD800, 0x48] : Text), c.val ≤ 0xFFFF :=
    List.forall_mem_cons.2 ⟨by decide, List.forall_mem_singleton.2 (by decide)⟩
  obtain ⟨words, hwords, hruns⟩ := (hello_prints_text [0xD800, 0x48]).2 hnarrow
  obtain ⟨-, last, hstops, hsp, -, hsink, hdata⟩ :=
    hruns ⟨9, 2, 7, by decide, by decide, by decide⟩ .silent (by decide) (by decide)
  refine ⟨words, hwords, last, hstops, hsp, ?_, hdata⟩
  rw [hsink]
  rfl

end TaggedStack.Demo
