import Mathlib.Logic.Function.Iterate
import TaggedStack.Proofs.Generation

/-!
# Drawings that return

The numbers drawn by rejection are the only part of a drawing that may take long. How many attempts
they may take is limited from outside; here the limit is taken away. A drawing *settles* on an
ending if it ends so for all large limits, and smaller limits change nothing but that attempts may
run out.

That rejection comes to an end is a property of the source. A source *returns* up to a bound on the
numbers if, after any number of words, some attempt is accepted for every number within that bound.
Whatever is drawn from such a source settles (`Draw.Ends`), and for a sequence of drawings this is
shown part by part: the first part settles on a value, and the second has to be looked at for the
values that the first part can give.

* `Draw.Settles.bind`: sequences settle.
* `Draw.settles_below`: a number drawn by rejection, if the source returns.
* `Draw.Ends.bind`, `Draw.Total.several`: the rules for sequences.
* `Draw.total_between`, `Draw.total_choice`: numbers of a range and choices are always drawn.
-/

namespace TaggedStack

variable {σ α β : Type}

/-- The state of a source after some words. -/
def WordSource.skip [WordSource σ] (source : σ) (words : Nat) : σ :=
  (fun s ↦ (WordSource.next s).2)^[words] source

open WordSource (skip)

theorem WordSource.skip_skip [WordSource σ] (source : σ) (m n : Nat) :
    skip (skip source m) n = skip source (n + m) :=
  (Function.iterate_add_apply _ n m source).symm

namespace Draw

/-! ### Endings -/

/-- A drawing's ending and the state it leaves, if numbers may take as many attempts as they
need. -/
structure Settles (d : Draw σ α) (source : σ) (ending : Except DrawError α) (later : σ) : Prop where
  /-- From some limit on the drawing ends like this. -/
  eventually : ∃ enough, ∀ attempts, enough ≤ attempts →
    d.perform attempts source = (ending, later)
  /-- Below it the drawing may only run out of attempts. -/
  exhausted_or : ∀ attempts, (d.perform attempts source).1 = .error .exhausted ∨
    d.perform attempts source = (ending, later)

theorem settles_of_forall {d : Draw σ α} {source : σ} {ending : Except DrawError α} {later : σ}
    (h : ∀ attempts, d.perform attempts source = (ending, later)) :
    d.Settles source ending later :=
  ⟨⟨0, fun attempts _ ↦ h attempts⟩, fun attempts ↦ .inr (h attempts)⟩

theorem Settles.gives {d : Draw σ α} {source later : σ} {x : α}
    (h : d.Settles source (.ok x) later) : d.Gives x := by
  obtain ⟨enough, henough⟩ := h.eventually
  exact ⟨enough, source, by rw [henough enough (Nat.le_refl enough)]⟩

/-- A drawing settles on one ending. -/
theorem Settles.unique {d : Draw σ α} {source later later' : σ}
    {ending ending' : Except DrawError α} (h : d.Settles source ending later)
    (h' : d.Settles source ending' later') : ending = ending' ∧ later = later' := by
  obtain ⟨m, hm⟩ := h.eventually
  obtain ⟨n, hn⟩ := h'.eventually
  have hsame := (hm (max m n) (Nat.le_max_left m n)).symm.trans (hn _ (Nat.le_max_right m n))
  exact Prod.mk.inj hsame

theorem perform_bind_of_ok {d : Draw σ α} {f : α → Draw σ β} {attempts : Nat} {source later : σ}
    {x : α} (h : d.perform attempts source = (.ok x, later)) :
    (d >>= f).perform attempts source = (f x).perform attempts later := by
  rw [perform_bind, h]

theorem fst_perform_bind_of_error {d : Draw σ α} {f : α → Draw σ β} {attempts : Nat} {source : σ}
    {e : DrawError} (h : (d.perform attempts source).1 = .error e) :
    ((d >>= f).perform attempts source).1 = .error e := by
  rw [perform_bind]
  rcases hfirst : d.perform attempts source with ⟨e' | x, later⟩
  · rw [hfirst] at h
    exact congrArg Except.error (Except.error.inj h)
  · rw [hfirst] at h
    cases h

/-- **A sequence settles as its parts do,** the second from where the first stops. -/
theorem Settles.bind {d : Draw σ α} {f : α → Draw σ β} {source middle later : σ} {x : α}
    {ending : Except DrawError β} (hd : d.Settles source (.ok x) middle)
    (hf : (f x).Settles middle ending later) : (d >>= f).Settles source ending later := by
  obtain ⟨m, hm⟩ := hd.eventually
  obtain ⟨n, hn⟩ := hf.eventually
  refine ⟨⟨max m n, fun attempts hle ↦ ?_⟩, fun attempts ↦ ?_⟩
  · rw [perform_bind_of_ok (hm attempts (Nat.le_trans (Nat.le_max_left m n) hle))]
    exact hn attempts (Nat.le_trans (Nat.le_max_right m n) hle)
  · rcases hd.exhausted_or attempts with hout | heq
    · exact .inl (fst_perform_bind_of_error hout)
    · rw [perform_bind_of_ok heq]
      exact hf.exhausted_or attempts

/-- A sequence settles on the error that its first part settles on. -/
theorem Settles.bind_error {d : Draw σ α} {f : α → Draw σ β} {source later : σ} {e : DrawError}
    (hd : d.Settles source (.error e) later) : (d >>= f).Settles source (.error e) later := by
  obtain ⟨m, hm⟩ := hd.eventually
  refine ⟨⟨m, fun attempts hle ↦ ?_⟩, fun attempts ↦ ?_⟩
  · rw [perform_bind, hm attempts hle]
  · rcases hd.exhausted_or attempts with hout | heq
    · exact .inl (fst_perform_bind_of_error hout)
    · rw [perform_bind, heq]
      exact .inr rfl

variable [WordSource σ]

/-! ### Numbers drawn by rejection -/

/-- Rejection comes to an end: after any number of words, and for every bound up to a limit, some
number of attempts is enough. -/
def Returns (limit : Nat) (source : σ) : Prop :=
  ∀ words n, 0 < n → n ≤ limit →
    ∃ attempts, ((below n : Draw σ Nat).perform attempts (skip source words)).1 ≠ .error .exhausted

theorem Returns.skip {limit : Nat} {source : σ} (h : Returns limit source) (words : Nat) :
    Returns limit (skip source words) := by
  intro more n hpos hle
  rw [WordSource.skip_skip]
  exact h (more + words) n hpos hle

theorem Returns.mono {limit limit' : Nat} {source : σ} (h : Returns limit source)
    (hle : limit' ≤ limit) : Returns limit' source :=
  fun words n hpos hn ↦ h words n hpos (Nat.le_trans hn hle)

theorem perform_word (attempts : Nat) (source : σ) :
    (word : Draw σ Nat).perform attempts source =
      (.ok (WordSource.next source).1.toNat, skip source 1) :=
  rfl

/-- The number of `n` whole words and `k` bits that comes next. -/
def bitsAt (source : σ) : (n k : Nat) → Nat
  | 0, k => (WordSource.next source).1.toNat >>> (32 - k)
  | n + 1, k => (WordSource.next source).1.toNat + bitsAt (skip source 1) n k * 0x100000000

theorem perform_wordsAndBits (n k attempts : Nat) (source : σ) :
    (wordsAndBits n k).perform attempts source =
      (.ok (bitsAt source n k), skip source (n + 1)) := by
  induction n generalizing source with
  | zero => exact perform_bind_of_ok (perform_word attempts source)
  | succ n ih =>
    rw [wordsAndBits, perform_bind_of_ok (perform_word attempts source),
      perform_bind_of_ok (ih (skip source 1)), WordSource.skip_skip]
    rfl

/-- The number of `k` bits that comes next. -/
def upcoming (source : σ) (k : Nat) : Nat :=
  bitsAt source ((k - 1) / 32) (k - 32 * ((k - 1) / 32))

/-- How many words a number of `k` bits takes. -/
def wordsFor (k : Nat) : Nat := (k - 1) / 32 + 1

/-- An attempt takes the number that comes next, or leaves it to the attempts that are left. -/
theorem perform_rejecting_succ (n k left attempts : Nat) (source : σ) :
    (rejecting n k (left + 1)).perform attempts source =
      (if upcoming source k < n then pure (upcoming source k) else rejecting n k left :
        Draw σ Nat).perform attempts (skip source (wordsFor k)) :=
  perform_bind_of_ok (perform_wordsAndBits _ _ attempts source)

/-- What a number of attempts comes to: all are rejected, or one is accepted and more attempts make
no difference. -/
theorem rejecting_cases (n k attempts : Nat) (source : σ) :
    (∀ a, ((rejecting n k attempts : Draw σ Nat).perform a source).1 = .error .exhausted) ∨
      ∃ r words, ∀ more a,
        (rejecting n k (attempts + more)).perform a source = (.ok r, skip source words) := by
  induction attempts generalizing source with
  | zero => exact .inl fun a ↦ rfl
  | succ attempts ih =>
    by_cases hlt : upcoming source k < n
    · refine .inr ⟨upcoming source k, wordsFor k, fun more a ↦ ?_⟩
      rw [Nat.add_right_comm, perform_rejecting_succ, if_pos hlt]
      rfl
    · rcases ih (skip source (wordsFor k)) with hout | ⟨r, words, hr⟩
      · refine .inl fun a ↦ ?_
        rw [perform_rejecting_succ, if_neg hlt, hout]
      · refine .inr ⟨r, words + wordsFor k, fun more a ↦ ?_⟩
        rw [Nat.add_right_comm, perform_rejecting_succ, if_neg hlt, hr, WordSource.skip_skip]

theorem perform_below (n attempts : Nat) (source : σ) :
    (below n : Draw σ Nat).perform attempts source =
      (rejecting n (bitLength n) attempts).perform attempts source :=
  rfl

/-- **A number drawn by rejection settles** if some number of attempts is enough. -/
theorem settles_below {n enough : Nat} {source : σ}
    (h : ((below n : Draw σ Nat).perform enough source).1 ≠ .error .exhausted) :
    ∃ r words, (below n).Settles source (.ok r) (skip source words) := by
  rcases rejecting_cases n (bitLength n) enough source with hout | ⟨r, words, hr⟩
  · exact absurd (hout enough) h
  · refine ⟨r, words, ⟨enough, fun attempts hle ↦ ?_⟩, fun attempts ↦ ?_⟩
    · obtain ⟨more, rfl⟩ := Nat.exists_eq_add_of_le hle
      exact hr more _
    · rcases rejecting_cases n (bitLength n) attempts source with hout | ⟨s, words', hs⟩
      · exact .inl (hout attempts)
      · -- An attempt is accepted under either limit, so it is the same one.
        have hsame := (hs enough 0).symm
        rw [Nat.add_comm attempts, hr attempts 0] at hsame
        exact .inr ((hs 0 attempts).trans hsame)

/-! ### Drawings from a source that returns -/

/-- From a source that returns, a drawing settles on an ending of some kind. -/
def Ends (limit : Nat) (d : Draw σ α) (Q : Except DrawError α → Prop) : Prop :=
  ∀ source, Returns limit source →
    ∃ ending words, d.Settles source ending (skip source words) ∧ Q ending

/-- From a source that returns, a drawing settles on a value. -/
def Total (limit : Nat) (d : Draw σ α) : Prop := Ends limit d fun ending ↦ ∃ x, ending = .ok x

variable {limit : Nat}

theorem total_of_settles {d : Draw σ α}
    (h : ∀ source, Returns limit source → ∃ x words, d.Settles source (.ok x) (skip source words)) :
    Total limit d := by
  intro source hsource
  obtain ⟨x, words, hx⟩ := h source hsource
  exact ⟨.ok x, words, hx, x, rfl⟩

/-- A drawing that settles on a value settles on one that it gives. -/
theorem Total.ends {d : Draw σ α} {Q : Except DrawError α → Prop} (hd : Total limit d)
    (hQ : ∀ x, d.Gives x → Q (.ok x)) : Ends limit d Q := by
  intro source hsource
  obtain ⟨_, words, hx, x, rfl⟩ := hd source hsource
  exact ⟨_, words, hx, hQ x hx.gives⟩

theorem Ends.exists_settles {d : Draw σ α} {Q : Except DrawError α → Prop} (hd : Ends limit d Q)
    {source : σ} (hsource : Returns limit source) :
    ∃ ending later, d.Settles source ending later ∧ Q ending := by
  obtain ⟨ending, words, hsettles, hending⟩ := hd source hsource
  exact ⟨ending, _, hsettles, hending⟩

theorem ends_fail (e : DrawError) : Ends limit (fail e : Draw σ α) (· = .error e) :=
  fun _ _ ↦ ⟨.error e, 0, settles_of_forall fun _ ↦ rfl, rfl⟩

theorem total_pure (x : α) : Total limit (pure x : Draw σ α) :=
  fun _ _ ↦ ⟨.ok x, 0, settles_of_forall fun _ ↦ rfl, x, rfl⟩

/-- **The rule for sequences:** if the first part settles on a value, the ending is that of the
second part, for one of the values that the first part gives. -/
theorem Ends.bind {d : Draw σ α} {f : α → Draw σ β} {Q : Except DrawError β → Prop}
    (hd : Total limit d) (hf : ∀ x, d.Gives x → Ends limit (f x) Q) : Ends limit (d >>= f) Q := by
  intro source hsource
  obtain ⟨_, words, hx, x, rfl⟩ := hd source hsource
  obtain ⟨ending, more, hending, hQ⟩ := hf x hx.gives _ (hsource.skip words)
  rw [WordSource.skip_skip] at hending
  exact ⟨ending, _, hx.bind hending, hQ⟩

theorem Ends.bind_error {d : Draw σ α} {f : α → Draw σ β} {e : DrawError}
    (hd : Ends limit d (· = .error e)) : Ends limit (d >>= f) (· = .error e) := by
  intro source hsource
  obtain ⟨_, words, hx, rfl⟩ := hd source hsource
  exact ⟨_, words, hx.bind_error, rfl⟩

theorem Total.map {d : Draw σ α} (hd : Total limit d) (f : α → β) : Total limit (f <$> d) :=
  Ends.bind hd fun x _ ↦ total_pure (f x)

/-- Drawing several times is drawing once and then the other times. -/
theorem Total.several {d : Draw σ α} (hd : Total limit d) (n : Nat) :
    Total limit (Generate.several d n) := by
  induction n with
  | zero => exact total_pure []
  | succ n ih => exact Ends.bind hd fun x _ ↦ Ends.bind ih fun xs _ ↦ total_pure (x :: xs)

theorem total_word : Total limit (word : Draw σ Nat) :=
  total_of_settles fun source _ ↦
    ⟨_, 1, settles_of_forall fun attempts ↦ perform_word attempts source⟩

theorem total_roll : Total limit (roll : Draw σ Binary64) :=
  Ends.bind total_word fun _ _ ↦ Ends.bind total_word fun _ _ ↦ total_pure _

theorem total_weighted (first : α × Nat) (rest : List (α × Nat)) :
    Total limit (weighted first rest : Draw σ α) :=
  Ends.bind total_roll fun _ _ ↦ total_pure _

theorem total_below {n : Nat} (hpos : 0 < n) (hle : n ≤ limit) :
    Total limit (below n : Draw σ Nat) := by
  refine total_of_settles fun source hsource ↦ ?_
  obtain ⟨enough, henough⟩ := hsource 0 n hpos hle
  exact settles_below henough

/-- A number of a range is drawn if there is one. -/
theorem total_between {low high : Int} (hle : low ≤ high) (hlimit : high - low < limit) :
    Total limit (between low high : Draw σ Int) := by
  rw [between, if_pos hle]
  exact Ends.bind (total_below (by omega) (by omega)) fun r _ ↦ total_pure _

theorem ends_between_of_lt {low high : Int} (hlt : high < low) :
    Ends limit (between low high : Draw σ Int) (· = .error (.emptyRange low high)) := by
  rw [between, if_neg (Int.not_le.2 hlt)]
  exact ends_fail _

/-- One of several things is drawn if there is one. -/
theorem total_choice {xs : List α} (hne : xs ≠ []) (hlimit : xs.length ≤ limit) :
    Total limit (choice xs : Draw σ α) := by
  have hpos : 0 < xs.length := List.length_pos_of_ne_nil hne
  rw [choice, if_neg (by simpa using hne)]
  refine Ends.bind (total_below hpos hlimit) fun i hi ↦ ?_
  rw [List.getElem?_eq_getElem hi.lt_of_below]
  exact total_pure _

end Draw

end TaggedStack
