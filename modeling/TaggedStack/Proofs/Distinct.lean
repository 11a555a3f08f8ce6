import Mathlib.Data.List.Induction
import Mathlib.Data.List.Nodup
import TaggedStack.Enumerate

/-!
# Leaving out repetitions

Programs are read one after the other, and one that was seen before is left out. What is seen is
what was read, so reading one program more adds it to those kept unless it is among those read
(`Enumerate.distinct_concat`). All else follows from this equation by induction from the end of the
list: no program is lost, none is repeated, and those kept stand in the order in which they were met
first.

The order is stated by indices: the index of a program in a list is that of its first occurrence.

* `Enumerate.mem_distinct_iff`: leaving out repetitions loses no program and adds none.
* `Enumerate.nodup_distinct`: no program is kept twice.
* `Enumerate.idxOf_distinct_lt_iff`: the order is that of first occurrences.
-/

namespace TaggedStack.Enumerate

/-- The programs seen and those kept, after one program more. -/
def keep (state : Std.HashSet (List Int) × Array (List Int)) (p : List Int) :
    Std.HashSet (List Int) × Array (List Int) :=
  if state.1.contains p then state else (state.1.insert p, state.2.push p)

theorem distinct_eq (programs : List (List Int)) :
    distinct programs = (programs.foldl keep (∅, #[])).2.toList :=
  rfl

/-- The programs seen are those read. -/
theorem mem_seen_iff {programs : List (List Int)} {p : List Int} :
    p ∈ (programs.foldl keep (∅, #[])).1 ↔ p ∈ programs := by
  induction programs using List.reverseRecOn with
  | nil => simp
  | append_singleton programs q ih =>
    rw [List.foldl_concat, keep, List.mem_append, List.mem_singleton, ← ih]
    split
    · next hq =>
      refine ⟨Or.inl, ?_⟩
      rintro (hp | rfl)
      · exact hp
      · exact hq
    · rw [Std.HashSet.mem_insert, beq_iff_eq, eq_comm, or_comm]

/-- **A program read last is kept unless it was read before.** -/
theorem distinct_concat (programs : List (List Int)) (p : List Int) :
    distinct (programs ++ [p]) =
      if p ∈ programs then distinct programs else distinct programs ++ [p] := by
  simp only [distinct_eq, List.foldl_concat, keep, Std.HashSet.contains_iff_mem, mem_seen_iff]
  split
  · rfl
  · exact Array.toList_push

/-- Leaving out repetitions loses no program and adds none. -/
theorem mem_distinct_iff {programs : List (List Int)} {p : List Int} :
    p ∈ distinct programs ↔ p ∈ programs := by
  induction programs using List.reverseRecOn with
  | nil => rfl
  | append_singleton programs q ih =>
    rw [distinct_concat, List.mem_append, List.mem_singleton]
    split
    · next hq =>
      rw [ih]
      refine ⟨Or.inl, ?_⟩
      rintro (hp | rfl)
      · exact hp
      · exact hq
    · rw [List.mem_append, List.mem_singleton, ih]

/-- No program is kept twice. -/
theorem nodup_distinct (programs : List (List Int)) : (distinct programs).Nodup := by
  induction programs using List.reverseRecOn with
  | nil => exact List.nodup_nil
  | append_singleton programs q ih =>
    rw [distinct_concat]
    split
    · exact ih
    · next hq =>
      rw [← List.concat_eq_append]
      exact ih.concat (mt mem_distinct_iff.1 hq)

/-- A program at the end of a list that does not hold it comes after all of the list. -/
theorem idxOf_lt_idxOf_concat {programs : List (List Int)} {p q : List Int} (hp : p ∈ programs)
    (hq : q ∉ programs) : (programs ++ [q]).idxOf p < (programs ++ [q]).idxOf q := by
  rw [List.idxOf_append_of_mem hp, List.idxOf_append_of_notMem hq]
  exact Nat.lt_add_right _ (List.idxOf_lt_length_of_mem hp)

/-- **Programs are kept in the order of their first occurrences.** -/
theorem idxOf_distinct_lt_iff {programs : List (List Int)} {p q : List Int} (hp : p ∈ programs)
    (hq : q ∈ programs) :
    (distinct programs).idxOf p < (distinct programs).idxOf q ↔
      programs.idxOf p < programs.idxOf q := by
  induction programs using List.reverseRecOn with
  | nil => cases hp
  | append_singleton programs r ih =>
    rw [List.mem_append, List.mem_singleton] at hp hq
    rw [distinct_concat]
    by_cases hr : r ∈ programs
    · -- Nothing is added, and both programs were read before.
      have hp : p ∈ programs := hp.elim id fun h ↦ h ▸ hr
      have hq : q ∈ programs := hq.elim id fun h ↦ h ▸ hr
      rw [if_pos hr, List.idxOf_append_of_mem hp, List.idxOf_append_of_mem hq, ih hp hq]
    · have hkept : r ∉ distinct programs := mt mem_distinct_iff.1 hr
      rw [if_neg hr]
      rcases hp with hp | rfl <;> rcases hq with hq | rfl
      · rw [List.idxOf_append_of_mem hp, List.idxOf_append_of_mem hq,
          List.idxOf_append_of_mem (mem_distinct_iff.2 hp),
          List.idxOf_append_of_mem (mem_distinct_iff.2 hq), ih hp hq]
      · exact iff_of_true (idxOf_lt_idxOf_concat (mem_distinct_iff.2 hp) hkept)
          (idxOf_lt_idxOf_concat hp hr)
      · exact iff_of_false
          (Nat.lt_asymm (idxOf_lt_idxOf_concat (mem_distinct_iff.2 hq) hkept))
          (Nat.lt_asymm (idxOf_lt_idxOf_concat hq hr))
      · exact iff_of_false (Nat.lt_irrefl _) (Nat.lt_irrefl _)

end TaggedStack.Enumerate
