import TaggedStack.Proofs.Lockstep

/-!
# Where output goes does not matter

A cycle says what it prints; the sink has no say in what happens next. So two machines that differ
in their sinks go through the same states and stop for the same reasons, and their outputs come from
the same emissions, which a buffer keeps as they are and a stream shows with surrogates replaced.

A stream only replaces code points that are printed one by one, and leaves texts alone. That this
amounts to replacing all surrogates rests on what programs print: their texts are numbers in
decimal, which hold no surrogates.

* `Emission.OfProgram.scrubbed_eq`: what a stream shows of an emission.
* `Machine.mirrors_bisimulation`: cycles keep a machine with a stream a mirror of one with a buffer.
* `Machine.sink_choice_never_matters`: the same for every program, cycle by cycle and run by run.
-/

namespace TaggedStack

/-! ### What a stream shows -/

/-- A code point as a stream shows it: the replacement character for half of a surrogate pair. -/
def CodePoint.shown (c : CodePoint) : CodePoint :=
  if 0xD800 ≤ c.val ∧ c.val ≤ 0xDFFF then ⟨0xFFFD, by decide⟩ else c

theorem CodePoint.scrub_eq_shown (c : CodePoint) : c.scrub = c.shown := by
  simp only [scrub, shown, isSurrogate, Bool.and_eq_true, decide_eq_true_eq]
  rfl

/-- No surrogate is shown. -/
theorem CodePoint.shown_not_surrogate (c : CodePoint) :
    c.shown.val < 0xD800 ∨ 0xDFFF < c.shown.val := by
  unfold shown
  split
  · exact Or.inr (by decide)
  · omega

/-- What is shown has no more bits than what is printed. -/
theorem CodePoint.shown_le {c : CodePoint} (h : c.val ≤ 0xFFFF) : c.shown.val ≤ 0xFFFF := by
  unfold shown
  split
  · decide
  · exact h

/-- A number in decimal is written with digits and a minus. -/
theorem lt_of_mem_toString {n : Int} {c : Char} (h : c ∈ (toString n).toList) : c.toNat < 128 := by
  have hdigit : ∀ m : Nat, ∀ d ∈ (Nat.repr m).toList, d.toNat < 128 := by
    intro m d hd
    rw [Nat.toList_repr] at hd
    have hrange := Char.isDigit_iff_toNat.1 (Nat.isDigit_of_mem_toDigits (by decide) (by decide) hd)
    exact hrange.2.trans_lt (by decide)
  rw [Int.toString_eq_repr] at h
  rcases n with m | m
  · exact hdigit m c h
  · rw [Int.repr, String.toList_append] at h
    rcases List.mem_append.1 h with h | h
    · obtain rfl := List.mem_singleton.1 h
      decide
    · exact hdigit _ c h

theorem lt_of_mem_decimal {n : Int} {c : CodePoint} (h : c ∈ Text.decimal n) : c.val < 128 := by
  obtain ⟨d, hd, rfl⟩ := List.mem_map.1 h
  exact lt_of_mem_toString hd

namespace Emission.OfProgram

variable {e : Emission}

/-- A stream replaces the surrogates of what programs print, and nothing else. -/
theorem scrubbed_eq (h : e.OfProgram) : e.scrubbed = e.toText.map CodePoint.shown := by
  rcases h with n | n
  · -- There is nothing to replace in a number.
    have hshown : ∀ c ∈ Text.decimal n, c.shown = c := by
      intro c hc
      have := lt_of_mem_decimal hc
      exact if_neg (by omega)
    rw [toText, List.map_congr_left hshown, List.map_id']
    rfl
  · exact congrArg (fun c ↦ [c]) (CodePoint.scrub_eq_shown _)

theorem val_le (h : e.OfProgram) : ∀ c ∈ e.toText, c.val ≤ 0xFFFF := by
  intro c hc
  rcases h with n | n
  · have := lt_of_mem_decimal hc
    omega
  · obtain rfl := List.mem_singleton.1 hc
    exact CodePoint.ofLowBits_le n

end Emission.OfProgram

/-! ### Machines with different sinks -/

namespace Machine

/-- A machine that writes to a stream mirrors one that writes to a buffer: they are in the same
state, and the stream holds what the buffer holds, with surrogates replaced. -/
structure Mirrors (m m' : Machine) : Prop where
  state_eq : m'.state = m.state
  sinks : ∃ chunks written, m.sink = .buffer chunks ∧ m'.sink = .stream written ∧
    written.toList = chunks.toList.flatten.map CodePoint.shown
  not_surrogate : ∀ c ∈ m'.sink.text, c.val < 0xD800 ∨ 0xDFFF < c.val
  val_le : ∀ c ∈ m.sink.text ++ m'.sink.text, c.val ≤ 0xFFFF

variable {m m' : Machine}

/-- What holds of the stream follows from what holds of the buffer. -/
theorem Mirrors.of_buffer (chunks : Array Text) (written : Array CodePoint)
    (hstate : m'.state = m.state) (hm : m.sink = .buffer chunks) (hm' : m'.sink = .stream written)
    (hwritten : written.toList = chunks.toList.flatten.map CodePoint.shown)
    (hle : ∀ c ∈ chunks.toList.flatten, c.val ≤ 0xFFFF) : m.Mirrors m' := by
  refine ⟨hstate, ⟨chunks, written, hm, hm', hwritten⟩, ?_, ?_⟩
  · intro c hc
    rw [hm', Sink.text, hwritten] at hc
    obtain ⟨d, -, rfl⟩ := List.mem_map.1 hc
    exact d.shown_not_surrogate
  · intro c hc
    rw [hm, hm', Sink.text, Sink.text, hwritten] at hc
    rcases List.mem_append.1 hc with hc | hc
    · exact hle c hc
    · obtain ⟨d, hd, rfl⟩ := List.mem_map.1 hc
      exact CodePoint.shown_le (hle d hd)

/-- Mirrors stay mirrors when both print the same. -/
theorem Mirrors.accept {effect : Effect} (h : m.Mirrors m')
    (heffect : ∀ e, effect.output = some e → e.OfProgram) :
    (m.accept effect).Mirrors (m'.accept effect) := by
  obtain ⟨chunks, written, hm, hm', hwritten⟩ := h.sinks
  have hle : ∀ c ∈ chunks.toList.flatten, c.val ≤ 0xFFFF := fun c hc ↦
    h.val_le c (List.mem_append_left _ (by rwa [hm]))
  obtain ⟨state, - | e⟩ := effect
  · exact .of_buffer chunks written rfl hm hm' hwritten hle
  · have he := heffect e rfl
    refine .of_buffer (chunks.push e.toText) (written ++ e.scrubbed) rfl
      (congrArg (·.emit e) hm) (congrArg (·.emit e) hm') ?_ ?_
    · simp [hwritten, he.scrubbed_eq]
    · intro c hc
      simp only [Array.toList_push, List.flatten_append, List.flatten_singleton] at hc
      rcases List.mem_append.1 hc with hc | hc
      · exact hle c hc
      · exact he.val_le c hc

/-- What is recorded does not matter. -/
theorem Mirrors.of_eq {n n' : Machine} (h : m.Mirrors m') (hn : n.state = m.state)
    (hsink : n.sink = m.sink) (hn' : n'.state = m'.state) (hsink' : n'.sink = m'.sink) :
    n.Mirrors n' := by
  obtain ⟨hstate, hsinks, hsurrogate, hle⟩ := h
  refine ⟨?_, ?_, ?_, ?_⟩
  · rw [hn, hn', hstate]
  · rwa [hsink, hsink']
  · rwa [hsink']
  · rwa [hsink, hsink']

/-- **Cycles keep mirrors.** -/
theorem mirrors_bisimulation : Bisimulation Mirrors where
  running_eq h := by rw [h.state_eq]
  top_eq h := by rw [h.state_eq]
  step {m m'} h := by
    have htraced : (m.recordTrace State.stepEvent).Mirrors (m'.recordTrace State.stepEvent) :=
      h.of_eq (state_recordTrace ..) (sink_recordTrace ..) (state_recordTrace ..)
        (sink_recordTrace ..)
    cases hstep : m.state.step with
    | ok effect =>
      rw [step_of_state_ok hstep, step_of_state_ok (h.state_eq ▸ hstep)]
      exact ⟨rfl, htraced.accept fun e he ↦ State.ofProgram_of_step hstep he⟩
    | error e =>
      rw [step_of_state_error hstep, step_of_state_error (h.state_eq ▸ hstep)]
      exact ⟨rfl, htraced⟩
  record h _ _ := h.of_eq rfl rfl rfl rfl

/-- A program is loaded to a machine with a stream as to one with a buffer. -/
theorem mirrors_load (l : Layout) (words : List Int) (journal journal' : Journal) :
    ((fresh l .emptyBuffer journal).load words).after.Mirrors
      ((fresh l .emptyStream journal').load words).after := by
  refine .of_buffer #[] #[] ?_ ?_ ?_ rfl (by simp)
  · rw [state_after_load, state_after_load]
    rfl
  · exact sink_after_load _ words
  · exact sink_after_load _ words

/-- **The choice of the sink never matters.** A program is loaded the same way to a machine with a
buffer and to one with a stream. After any number of cycles, counted singly, as a budget or as the
length of a run, the two are in the same state and have stopped for the same reason, if at all. The
stream then holds the chunks of the buffer one after another with every surrogate replaced; so it
holds no surrogate, and neither output has a code point of more than 16 bits. -/
theorem sink_choice_never_matters (l : Layout) (words : List Int) (journal journal' : Journal) :
    let buffered := (fresh l .emptyBuffer journal).load words
    let streamed := (fresh l .emptyStream journal').load words
    streamed.ending = buffered.ending ∧ ∀ n,
      (buffered.after.afterCycles n).Mirrors (streamed.after.afterCycles n) ∧
      (streamed.after.afterCycles n).step.ending = (buffered.after.afterCycles n).step.ending ∧
      (buffered.after.stepUpTo n).after.Mirrors (streamed.after.stepUpTo n).after ∧
      (streamed.after.stepUpTo n).ending = (buffered.after.stepUpTo n).ending ∧
      (buffered.after.run n).after.Mirrors (streamed.after.run n).after ∧
      (streamed.after.run n).ending = (buffered.after.run n).ending := by
  intro buffered streamed
  have hload : buffered.after.Mirrors streamed.after := mirrors_load l words journal journal'
  refine ⟨?_, fun n ↦ ?_⟩
  · rw [ending_load, ending_load]
    rfl
  · have hcycles := mirrors_bisimulation.afterCycles hload n
    obtain ⟨hbudget, hstepped⟩ := mirrors_bisimulation.stepUpTo hload n
    obtain ⟨hending, hrun⟩ := mirrors_bisimulation.run hload n
    exact ⟨hcycles, (mirrors_bisimulation.step hcycles).1, hstepped, hbudget, hrun, hending⟩

end Machine

end TaggedStack
