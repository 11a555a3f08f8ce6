import TaggedStack.Generate
import TaggedStack.Proofs.Encoding

/-!
# What the generators can draw

A drawing *gives* a value when there is a source it draws the value from. Nothing is said about how
likely that is: whatever random words come, the value is one of those given. A value given by a
sequence of drawings is taken apart as the sequence is (`Draw.Gives.exists_of_bind`), down to the
numbers drawn by rejection, which are below their bound.

All generators draw cases of two forms only. A case without a foretold result is a list of machine
words; a case with one is the program of an expression that fits the layout, with the result of that
expression.

* `Draw.Gives.mem_between`: a number drawn from a range lies in it.
* `Generate.exists_of_fitting`: what is drawn by trying shallower and shallower expressions.
* `Generator.wellFormed_of_draw`: the two forms of cases.
-/

namespace TaggedStack

namespace Draw

variable {σ α β : Type}

/-- A value that a drawing ends in, for some source and number of attempts. -/
def Gives (d : Draw σ α) (x : α) : Prop :=
  ∃ attempts source, (d.perform attempts source).1 = .ok x

/-! ### Sequences -/

/-- A sequence goes on from the source its first part leaves. -/
theorem perform_bind (d : Draw σ α) (f : α → Draw σ β) (attempts : Nat) (source : σ) :
    (d >>= f).perform attempts source =
      match d.perform attempts source with
      | (.ok x, later) => (f x).perform attempts later
      | (.error e, later) => (.error e, later) := by
  show (match d.perform attempts source with
    | (ending, later) => ExceptT.bindCont (m := StateM σ) (f · attempts) ending later) = _
  rcases d.perform attempts source with ⟨e | x, later⟩ <;> rfl

/-- A sequence that ends in a value has parts that do, the second from where the first stops. -/
theorem exists_of_perform_bind {d : Draw σ α} {f : α → Draw σ β} {attempts : Nat} {source : σ}
    {y : β} (h : ((d >>= f).perform attempts source).1 = .ok y) :
    ∃ x later, d.perform attempts source = (.ok x, later) ∧
      ((f x).perform attempts later).1 = .ok y := by
  rw [perform_bind] at h
  rcases hfirst : d.perform attempts source with ⟨e | x, later⟩
  · rw [hfirst] at h
    cases h
  · rw [hfirst] at h
    exact ⟨x, later, rfl, h⟩

theorem Gives.exists_of_bind {d : Draw σ α} {f : α → Draw σ β} {y : β} (h : (d >>= f).Gives y) :
    ∃ x, d.Gives x ∧ (f x).Gives y := by
  obtain ⟨attempts, source, h⟩ := h
  obtain ⟨x, later, hfirst, hrest⟩ := exists_of_perform_bind h
  exact ⟨x, ⟨attempts, source, by rw [hfirst]⟩, attempts, later, hrest⟩

theorem Gives.eq_of_pure {x y : α} (h : (pure x : Draw σ α).Gives y) : x = y := by
  obtain ⟨_, _, h⟩ := h
  exact Except.ok.inj h

theorem Gives.exists_of_map {d : Draw σ α} {f : α → β} {y : β} (h : (f <$> d).Gives y) :
    ∃ x, d.Gives x ∧ f x = y := by
  obtain ⟨x, hx, h⟩ := Gives.exists_of_bind (f := fun x ↦ pure (f x)) h
  exact ⟨x, hx, h.eq_of_pure⟩

theorem not_gives_fail (e : DrawError) (x : α) : ¬(fail e : Draw σ α).Gives x := by
  intro h
  obtain ⟨_, _, h⟩ := h
  cases h

/-- Drawing several times is drawing once and then the other times. -/
theorem exists_of_perform_several {d : Draw σ α} {n attempts : Nat} {source : σ} {xs : List α}
    (h : ((Generate.several d (n + 1)).perform attempts source).1 = .ok xs) :
    ∃ x later rest, d.perform attempts source = (.ok x, later) ∧
      ((Generate.several d n).perform attempts later).1 = .ok rest ∧ x :: rest = xs := by
  obtain ⟨x, later, hfirst, h⟩ := exists_of_perform_bind h
  obtain ⟨rest, last, hrest, h⟩ := exists_of_perform_bind h
  exact ⟨x, later, rest, hfirst, by rw [hrest], Except.ok.inj h⟩

theorem length_of_perform_several {d : Draw σ α} {n attempts : Nat} {source : σ} {xs : List α}
    (h : ((Generate.several d n).perform attempts source).1 = .ok xs) : xs.length = n := by
  induction n generalizing source xs with
  | zero =>
    obtain rfl := Except.ok.inj h
    rfl
  | succ n ih =>
    obtain ⟨x, later, rest, -, hrest, rfl⟩ := exists_of_perform_several h
    rw [List.length_cons, ih hrest]

theorem Gives.length_several {d : Draw σ α} {n : Nat} {xs : List α}
    (h : (Generate.several d n).Gives xs) : xs.length = n := by
  obtain ⟨attempts, source, h⟩ := h
  exact length_of_perform_several h

/-- What is drawn several times is given each time. -/
theorem Gives.forall_mem_several {d : Draw σ α} {n : Nat} {xs : List α}
    (h : (Generate.several d n).Gives xs) : ∀ x ∈ xs, d.Gives x := by
  induction n generalizing xs with
  | zero =>
    obtain rfl := h.eq_of_pure
    exact fun x hx ↦ absurd hx List.not_mem_nil
  | succ n ih =>
    obtain ⟨attempts, source, h⟩ := h
    obtain ⟨x, later, rest, hfirst, hrest, rfl⟩ := exists_of_perform_several h
    exact List.forall_mem_cons.2
      ⟨⟨attempts, source, by rw [hfirst]⟩, ih ⟨attempts, later, hrest⟩⟩

/-! ### Numbers -/

variable [WordSource σ]

/-- A number drawn by rejection is below the bound. -/
theorem Gives.lt_of_rejecting {n k attempts r : Nat}
    (h : (rejecting n k attempts : Draw σ Nat).Gives r) : r < n := by
  induction attempts with
  | zero => exact absurd h (not_gives_fail _ r)
  | succ attempts ih =>
    obtain ⟨drawn, -, h⟩ := h.exists_of_bind
    split at h
    · next hlt => exact h.eq_of_pure ▸ hlt
    · exact ih h

theorem Gives.lt_of_below {n r : Nat} (h : (below n : Draw σ Nat).Gives r) : r < n := by
  obtain ⟨attempts, -, h⟩ := h.exists_of_bind
  exact h.lt_of_rejecting

/-- A number drawn from a range lies in it. -/
theorem Gives.mem_between {low high x : Int} (h : (between low high : Draw σ Int).Gives x) :
    low ≤ x ∧ x ≤ high := by
  unfold between at h
  split at h
  · obtain ⟨r, hr, h⟩ := h.exists_of_bind
    have hlt := hr.lt_of_below
    obtain rfl := h.eq_of_pure
    omega
  · exact absurd h (not_gives_fail _ x)

/-- What is chosen is one of the choices. -/
theorem Gives.mem_choice {xs : List α} {x : α} (h : (choice xs : Draw σ α).Gives x) : x ∈ xs := by
  unfold choice at h
  split at h
  · exact absurd h (not_gives_fail _ x)
  · obtain ⟨i, -, h⟩ := h.exists_of_bind
    split at h
    · next y hy => exact h.eq_of_pure ▸ List.mem_of_getElem? hy
    · exact absurd h (not_gives_fail _ x)

end Draw

/-! ### Cases -/

/-- The cases generators draw for a layout. -/
inductive Case.WellFormed (l : Layout) : Case → Prop
  /-- A list of machine words, of which no result is foretold. -/
  | plain {words : List Int} (h : ∀ w ∈ words, IsWord w) : WellFormed l ⟨words, none⟩
  /-- The program of an expression that fits, with the expression's result. -/
  | expression {e : Expr} (h : Trial.fits e l = true) :
      WellFormed l ⟨e.compile, some (Trial.expected e)⟩

namespace Generate

variable {σ : Type} [WordSource σ] {config : Config} {c : Case}

theorem wellFormed_of_words (h : (words config : Draw σ Case).Gives c) :
    c.WellFormed config.layout := by
  obtain ⟨length, -, h⟩ := h.exists_of_bind
  obtain ⟨ws, hws, h⟩ := h.exists_of_bind
  obtain rfl := h.eq_of_pure
  refine .plain fun w hw ↦ ?_
  have hbetween := (hws.forall_mem_several w hw).mem_between
  exact ⟨hbetween.1, Int.lt_add_one_of_le hbetween.2⟩

omit [WordSource σ] in
theorem wellFormed_of_assembled {program : List Item}
    (h : (assembled program : Draw σ Case).Gives c) : c.WellFormed config.layout := by
  unfold assembled at h
  split at h
  · next words hwords =>
    obtain rfl := h.eq_of_pure
    obtain ⟨code, -, rfl⟩ := assembleItems_eq_ok_iff.1 hwords
    exact .plain fun w hw ↦ isWord_of_mem_assemble hw
  · exact absurd h (Draw.not_gives_fail _ c)

theorem wellFormed_of_instructions (h : (instructions config : Draw σ Case).Gives c) :
    c.WellFormed config.layout := by
  obtain ⟨count, -, h⟩ := h.exists_of_bind
  obtain ⟨program, -, h⟩ := h.exists_of_bind
  obtain ⟨r, -, h⟩ := h.exists_of_bind
  exact wellFormed_of_assembled h

/-- Shallower and shallower expressions are drawn until one fits, so one that is given fits. -/
theorem exists_of_fitting {value : Draw σ Candidate} {l : Layout} {depth : Nat}
    (h : (fitting value l depth).Gives c) :
    ∃ e, Trial.fits e l = true ∧ c = ⟨e.compile, some (Trial.expected e)⟩ := by
  induction depth with
  | zero =>
    unfold fitting at h
    obtain ⟨e, -, h⟩ := h.exists_of_bind
    split at h
    · next hfits => exact ⟨e, hfits, h.eq_of_pure.symm⟩
    · exact absurd h (Draw.not_gives_fail _ c)
  | succ depth ih =>
    unfold fitting at h
    obtain ⟨e, -, h⟩ := h.exists_of_bind
    split at h
    · next hfits => exact ⟨e, hfits, h.eq_of_pure.symm⟩
    · exact ih h

theorem exists_of_expression {maxValue : Option Int}
    (h : (expression config maxValue : Draw σ Case).Gives c) :
    ∃ e, Trial.fits e config.layout = true ∧ c = ⟨e.compile, some (Trial.expected e)⟩ := by
  unfold expression at h
  dsimp only at h
  split at h
  · exact exists_of_fitting h
  · exact absurd h (Draw.not_gives_fail _ c)

theorem wellFormed_of_expression {maxValue : Option Int}
    (h : (expression config maxValue : Draw σ Case).Gives c) : c.WellFormed config.layout := by
  obtain ⟨e, hfits, rfl⟩ := exists_of_expression h
  exact .expression hfits

end Generate

/-- Every generator draws well-formed cases. -/
theorem Generator.wellFormed_of_draw {σ : Type} [WordSource σ] {config : Config} {c : Case}
    {g : Generator} (h : (g.draw config : Draw σ Case).Gives c) : c.WellFormed config.layout := by
  cases g with
  | random => exact Generate.wellFormed_of_words h
  | structured => exact Generate.wellFormed_of_instructions h
  | expression => exact Generate.wellFormed_of_expression h
  | mixed =>
    obtain ⟨r, -, h⟩ := h.exists_of_bind
    dsimp only at h
    split at h
    · exact Generate.wellFormed_of_words h
    · split at h
      · exact Generate.wellFormed_of_instructions h
      · split at h
        · exact Generate.wellFormed_of_expression h
        · exact Generate.wellFormed_of_expression h

end TaggedStack
