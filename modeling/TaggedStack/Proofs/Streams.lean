import TaggedStack.Proofs.Returning

/-!
# Words given in advance return

A source of words given in advance goes on, after the last of them, by a linear congruence.
Rejection comes to an end on it, whatever the words were: an attempt is accepted as soon as the
highest bit of its last word is clear, and `2 ^ 31` words later the highest bit is the other one.

The second fact is a computation. The congruence is an affine map, doing it twice is an affine map
again, and doubling 31 times gives the map that adds `2 ^ 31`.

* `Draw.upcoming_lt`: a number of `k` bits is below `2 ^ (k - 1)` if the highest bit is clear.
* `WordStream.iterate_successor`: the words `2 ^ 31` apart.
* `WordStream.returns`: numbers with bounds up to `2 ^ 32` are drawn.
-/

namespace TaggedStack

open WordSource (skip)

/-! ### Attempts that are accepted -/

namespace Draw

variable {σ : Type} [WordSource σ] {source : σ}

/-- A number whose highest bit is clear. -/
theorem bitsAt_lt {n k : Nat} (hk : k < 32)
    (h : (WordSource.next (skip source n)).1.toNat < 2 ^ 31) :
    bitsAt source n (k + 1) < 2 ^ (32 * n + k) := by
  induction n generalizing source with
  | zero =>
    have hsplit : 2 ^ (32 - (k + 1)) * 2 ^ k = 2 ^ 31 := by
      rw [← Nat.pow_add]
      congr 1
      omega
    rw [bitsAt, Nat.shiftRight_eq_div_pow, Nat.mul_zero, Nat.zero_add]
    exact Nat.div_lt_of_lt_mul (hsplit ▸ h)
  | succ n ih =>
    rw [← WordSource.skip_skip] at h
    have hlow := (WordSource.next source).1.toNat_lt
    have hhigh := ih h
    have hsplit : 2 ^ (32 * (n + 1) + k) = 2 ^ (32 * n + k) * 2 ^ 32 := by
      rw [← Nat.pow_add]
      congr 1
      omega
    rw [bitsAt, hsplit]
    omega

theorem upcoming_lt {k : Nat}
    (h : (WordSource.next (skip source (k / 32))).1.toNat < 2 ^ 31) :
    upcoming source (k + 1) < 2 ^ k := by
  have hbits := bitsAt_lt (k := k % 32) (Nat.mod_lt k (by decide)) h
  have hk : k + 1 - 32 * (k / 32) = k % 32 + 1 := by omega
  rw [Nat.div_add_mod] at hbits
  rw [upcoming, Nat.add_sub_cancel, hk]
  exact hbits

/-- If some attempt is accepted, attempts do not run out. -/
theorem rejecting_ne_exhausted {n k j : Nat}
    (h : upcoming (skip source (j * wordsFor k)) k < n) (attempts : Nat) :
    ((rejecting n k (j + 1)).perform attempts source).1 ≠ .error .exhausted := by
  induction j generalizing source with
  | zero =>
    have hnow : upcoming source k < n := by simpa [WordSource.skip] using h
    rw [perform_rejecting_succ, if_pos hnow]
    exact nofun
  | succ j ih =>
    rw [perform_rejecting_succ]
    split
    · exact nofun
    · refine ih ?_
      rwa [WordSource.skip_skip, ← Nat.succ_mul]

end Draw

/-! ### The linear congruence -/

namespace WordStream

/-- The word after a word. -/
def successor (w : UInt32) : UInt32 := w * 1664525 + 1013904223

/-- The affine map with the given factor and offset. -/
def affine (p : UInt32 × UInt32) (w : UInt32) : UInt32 := w * p.1 + p.2

/-- Factor and offset of an affine map done twice. -/
def twice (p : UInt32 × UInt32) : UInt32 × UInt32 := (p.1 * p.1, p.2 * p.1 + p.2)

theorem iterate_affine_two (p : UInt32 × UInt32) : (affine p)^[2] = affine (twice p) := by
  funext w
  show (w * p.1 + p.2) * p.1 + p.2 = w * (p.1 * p.1) + (p.2 * p.1 + p.2)
  grind

theorem iterate_affine (p : UInt32 × UInt32) (k : Nat) :
    (affine p)^[2 ^ k] = affine (twice^[k] p) := by
  induction k generalizing p with
  | zero => rfl
  | succ k ih =>
    rw [Nat.pow_succ', Function.iterate_mul, iterate_affine_two, ih, Function.iterate_succ_apply]

/-- **Words that are `2 ^ 31` apart differ in the highest bit,** and in no other. -/
theorem iterate_successor (w : UInt32) : successor^[2 ^ 31] w = w + 0x80000000 := by
  have hdoubled : twice^[31] (1664525, 1013904223) = (1, 0x80000000) := by decide +kernel
  have hsuccessor : successor = affine (1664525, 1013904223) := rfl
  rw [hsuccessor, iterate_affine, hdoubled, affine, UInt32.mul_one]

/-- Of two words so far apart, one is below `2 ^ 31`. -/
theorem toNat_lt_or (w : UInt32) :
    w.toNat < 2 ^ 31 ∨ (successor^[2 ^ 31] w).toNat < 2 ^ 31 := by
  have hw := w.toNat_lt
  have hsum : (w + 0x80000000).toNat = (w.toNat + 2 ^ 31) % 2 ^ 32 := UInt32.toNat_add _ _
  rw [iterate_successor, hsum]
  omega

theorem next_nil (w : UInt32) :
    WordSource.next (⟨[], w⟩ : WordStream) = (successor w, ⟨[], successor w⟩) :=
  rfl

theorem skip_nil (w : UInt32) (words : Nat) :
    skip (⟨[], w⟩ : WordStream) words = ⟨[], successor^[words] w⟩ := by
  induction words generalizing w with
  | zero => rfl
  | succ words ih =>
    rw [skip, Function.iterate_succ_apply, next_nil, Function.iterate_succ_apply]
    exact ih (successor w)

/-- After the words given in advance, each word follows from the one before it. -/
theorem exists_skip_eq (source : WordStream) {words : Nat} (h : source.pending.length ≤ words) :
    ∃ w, skip source words = ⟨[], w⟩ := by
  obtain ⟨pending, previous⟩ := source
  induction pending generalizing previous words with
  | nil => exact ⟨_, skip_nil previous words⟩
  | cons w pending ih =>
    obtain ⟨words, rfl⟩ := Nat.exists_eq_add_of_le' (Nat.le_trans (Nat.le_add_left 1 _) h)
    exact ih w (Nat.le_of_add_le_add_right h)

/-- If words are taken in groups whose size divides `2 ^ 31`, then the last word of some group has
its highest bit clear. -/
theorem exists_last_lt (source : WordStream) {n : Nat} (h : n + 1 ∣ 2 ^ 31) :
    ∃ j, (WordSource.next (skip (skip source (j * (n + 1))) n)).1.toNat < 2 ^ 31 := by
  obtain ⟨apart, hapart⟩ := h
  obtain ⟨w, hw⟩ := exists_skip_eq source
    (Nat.le_mul_of_pos_right source.pending.length (Nat.succ_pos n))
  have hlast : ∀ w : UInt32, (WordSource.next (skip (⟨[], w⟩ : WordStream) n)).1 =
      successor^[n + 1] w := by
    intro w
    rw [skip_nil, next_nil, Function.iterate_succ_apply']
  rcases toNat_lt_or (successor^[n + 1] w) with hlt | hlt
  · refine ⟨source.pending.length, ?_⟩
    rw [hw, hlast]
    exact hlt
  · refine ⟨apart + source.pending.length, ?_⟩
    rw [Nat.add_mul, Nat.mul_comm apart, ← hapart, ← WordSource.skip_skip, hw, skip_nil, hlast,
      ← Function.iterate_add_apply, Nat.add_comm, Function.iterate_add_apply]
    exact hlt

/-- **Rejection comes to an end on words given in advance.** An attempt takes one word or two. -/
theorem returns (source : WordStream) : Draw.Returns 0x100000000 source := by
  intro words n hpos hle
  have hn : n ≠ 0 := Nat.ne_of_gt hpos
  have hlog : n.log2 < 33 := (Nat.log2_lt hn).2 (Nat.lt_of_le_of_lt hle (by decide))
  have hgroup : n.log2 / 32 + 1 ∣ 2 ^ 31 := by
    have hcases : n.log2 / 32 + 1 = 1 ∨ n.log2 / 32 + 1 = 2 := by omega
    rcases hcases with h | h <;> rw [h] <;> decide
  have hbits : Draw.bitLength n = n.log2 + 1 := if_neg hn
  obtain ⟨j, hj⟩ := exists_last_lt (skip source words) hgroup
  refine ⟨j + 1, ?_⟩
  rw [Draw.perform_below, hbits]
  refine Draw.rejecting_ne_exhausted ?_ (j + 1)
  exact Nat.lt_of_lt_of_le (Draw.upcoming_lt hj) (Nat.log2_self_le hn)

end WordStream

end TaggedStack
