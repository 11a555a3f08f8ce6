import TaggedStack.Proofs.GeneratedCases

/-!
# The bounds of random expressions

Expressions are drawn over any drawing of values for their constants. It may use the source as it
likes, and all that is asked of it is to return payloads: not in all states of the source, but in
those that come up between the rolls for nodes and the values it has returned so far
(`Generate.ReturnsPayloads`). Then an expression is drawn, and no roll makes it deeper than allowed.
How many stack slots and words it takes follows from its depth alone.

Which values were returned is told by a recorder. It carries the source and writes down what the
recorded drawing returns, one value after another. The rules of `Draw.Records` follow a sequence of
drawings and the same sequence with a recorder through all their parts: they end alike, and leave
the same source. So what is said about the record is said about the drawing that is not recorded.

* `Expr.stackDepth_le`, `Expr.length_compile_le`: bounds from the depth of an expression.
* `Draw.Records.bind`, `Draw.Records.settles`: drawings with and without a recorder.
* `Generate.exists_settles_randomExpr`: an expression is drawn.
* `Generate.records_randomExpr`: its constants are the values returned, from left to right.
* `Generate.expressions_keep_bounds`: all of this together.
-/

namespace TaggedStack

/-! ### Bounds from the depth -/

namespace Expr

/-- Each level takes at most one stack slot more. -/
theorem stackDepth_le (e : Expr) : e.stackDepth ≤ e.depth + 1 := by
  induction e with
  | const => exact Nat.le_refl 1
  | node op left right ihl ihr =>
    rw [stackDepth, depth]
    omega

/-- There are at most twice as many nodes on a level as on the one above it. -/
theorem size_lt (e : Expr) : e.size < 2 ^ (e.depth + 1) := by
  induction e with
  | const => exact Nat.one_lt_two
  | node op left right ihl ihr =>
    have hleft : 2 ^ (left.depth + 1) ≤ 2 ^ (max left.depth right.depth + 1) :=
      Nat.pow_le_pow_right Nat.two_pos (Nat.succ_le_succ (Nat.le_max_left _ _))
    have hright : 2 ^ (right.depth + 1) ≤ 2 ^ (max left.depth right.depth + 1) :=
      Nat.pow_le_pow_right Nat.two_pos (Nat.succ_le_succ (Nat.le_max_right _ _))
    rw [size, depth, Nat.pow_succ]
    omega

/-- The words of a program, bounded by the depth of its expression. -/
theorem length_compile_le {e : Expr} {d : Nat} (h : e.depth ≤ d) :
    e.compile.length ≤ 2 ^ (d + 1) + 1 := by
  have hsize := e.size_lt
  have hpow : 2 ^ (e.depth + 1) ≤ 2 ^ (d + 1) :=
    Nat.pow_le_pow_right Nat.two_pos (Nat.succ_le_succ h)
  rw [e.length_compile]
  omega

/-- The values that the constants of an expression are made of, from left to right. -/
def origins (e : Expr) : List Candidate := e.constants.map fun p ↦ .number p.val

theorem origins_const (p : Payload) : (const p).origins = [.number p.val] := rfl

theorem origins_node (op : Arith) (left right : Expr) :
    (node op left right).origins = left.origins ++ right.origins :=
  List.map_append

end Expr

/-! ### Recording what a drawing returns -/

/-- A source, and what a drawing has returned so far. -/
structure Recorder (σ ρ : Type) where
  source : σ
  returned : List ρ

/-- Words are drawn from the source that a recorder carries. -/
instance {σ ρ : Type} [WordSource σ] : WordSource (Recorder σ ρ) where
  next r := ((WordSource.next r.source).1, ⟨(WordSource.next r.source).2, r.returned⟩)

namespace Draw

variable {σ ρ α β : Type}

/-- A drawing that writes down what it returns. -/
def recorded (d : Draw σ ρ) : Draw (Recorder σ ρ) ρ := do
  let r ← get
  match d.perform (← read) r.source with
  | (.ok x, later) =>
    set (⟨later, r.returned ++ [x]⟩ : Recorder σ ρ)
    return x
  | (.error e, later) =>
    set (⟨later, r.returned⟩ : Recorder σ ρ)
    fail e

/-- A drawing with a recorder ends like one without it, and leaves the same source. What is written
down meanwhile suits the value drawn. -/
def Records (d : Draw σ α) (d' : Draw (Recorder σ ρ) α) (Suits : α → List ρ → Prop) : Prop :=
  ∀ attempts source returned, ∃ more,
    d'.perform attempts ⟨source, returned⟩ =
        ((d.perform attempts source).1, ⟨(d.perform attempts source).2, returned ++ more⟩) ∧
      ∀ x, (d.perform attempts source).1 = .ok x → Suits x more

/-- A drawing that is the same with a recorder and writes nothing down. -/
theorem records_of_unwritten {d : Draw σ α} {d' : Draw (Recorder σ ρ) α}
    {Suits : α → List ρ → Prop}
    (h : ∀ attempts source returned, d'.perform attempts ⟨source, returned⟩ =
      ((d.perform attempts source).1, ⟨(d.perform attempts source).2, returned⟩))
    (hsuits : ∀ x, d.Gives x → Suits x []) : Records d d' Suits := by
  intro attempts source returned
  refine ⟨[], ?_, fun x hx ↦ hsuits x ⟨attempts, source, hx⟩⟩
  rw [List.append_nil]
  exact h attempts source returned

theorem records_pure {x : α} {Suits : α → List ρ → Prop} (h : Suits x []) :
    Records (pure x : Draw σ α) (pure x) Suits :=
  records_of_unwritten (fun _ _ _ ↦ rfl) fun _ hy ↦ hy.eq_of_pure ▸ h

theorem records_fail (e : DrawError) {Suits : α → List ρ → Prop} :
    Records (fail e : Draw σ α) (fail e) Suits :=
  records_of_unwritten (fun _ _ _ ↦ rfl) fun x hx ↦ absurd hx (not_gives_fail e x)

/-- Rolls are the same with a recorder, and nothing is written down for them. -/
theorem records_roll [WordSource σ] :
    Records (roll : Draw σ Binary64) (roll : Draw (Recorder σ ρ) Binary64)
      fun _ more ↦ more = [] :=
  records_of_unwritten (fun _ _ _ ↦ rfl) fun _ _ ↦ rfl

theorem perform_recorded (d : Draw σ ρ) (attempts : Nat) (source : σ) (returned : List ρ) :
    d.recorded.perform attempts ⟨source, returned⟩ =
      match d.perform attempts source with
      | (.ok x, later) => (.ok x, ⟨later, returned ++ [x]⟩)
      | (.error e, later) => (.error e, ⟨later, returned⟩) := by
  show (match d.perform attempts source with
    | (.ok x, later) => (do
        set (⟨later, returned ++ [x]⟩ : Recorder σ ρ)
        return x : Draw (Recorder σ ρ) ρ)
    | (.error e, later) => do
        set (⟨later, returned⟩ : Recorder σ ρ)
        fail e).perform attempts ⟨source, returned⟩ = _
  rcases d.perform attempts source with ⟨e | x, later⟩ <;> rfl

/-- A recorded drawing writes down the one value it returns. -/
theorem records_recorded (d : Draw σ ρ) : Records d d.recorded fun x more ↦ more = [x] := by
  intro attempts source returned
  rw [perform_recorded]
  rcases d.perform attempts source with ⟨e | x, later⟩
  · refine ⟨[], ?_, nofun⟩
    rw [List.append_nil]
  · refine ⟨[x], rfl, ?_⟩
    rintro _ ⟨⟩
    rfl

/-- **The rule for sequences:** what the second part writes down comes after what the first part
has written down. -/
theorem Records.bind {d : Draw σ α} {d' : Draw (Recorder σ ρ) α} {f : α → Draw σ β}
    {f' : α → Draw (Recorder σ ρ) β} {First : α → List ρ → Prop} {Suits : β → List ρ → Prop}
    (hd : Records d d' First)
    (hf : ∀ x more, First x more → Records (f x) (f' x) fun y more' ↦ Suits y (more ++ more')) :
    Records (d >>= f) (d' >>= f') Suits := by
  intro attempts source returned
  obtain ⟨more, hrun, hmore⟩ := hd attempts source returned
  rw [perform_bind, perform_bind, hrun]
  rcases hfirst : d.perform attempts source with ⟨e | x, later⟩
  · exact ⟨more, rfl, nofun⟩
  · rw [hfirst] at hmore
    obtain ⟨more', hrun', hmore'⟩ := hf x more (hmore x rfl) attempts later (returned ++ more)
    refine ⟨more ++ more', ?_, hmore'⟩
    rw [← List.append_assoc]
    exact hrun'

/-- Where what is written down is a function of the value, a drawing with a recorder settles as the
drawing without it. -/
theorem Records.settles {d : Draw σ α} {d' : Draw (Recorder σ ρ) α} {asked : α → List ρ}
    (h : Records d d' fun x more ↦ more = asked x) {source later : σ} {x : α}
    (hd : d.Settles source (.ok x) later) (returned : List ρ) :
    d'.Settles ⟨source, returned⟩ (.ok x) ⟨later, returned ++ asked x⟩ := by
  have hsame : ∀ attempts, d.perform attempts source = (.ok x, later) →
      d'.perform attempts ⟨source, returned⟩ = (.ok x, ⟨later, returned ++ asked x⟩) := by
    intro attempts heq
    obtain ⟨more, hrun, hmore⟩ := h attempts source returned
    rw [heq] at hrun hmore
    rw [hrun, hmore x rfl]
  obtain ⟨enough, henough⟩ := hd.eventually
  refine ⟨⟨enough, fun attempts hle ↦ hsame attempts (henough attempts hle)⟩, fun attempts ↦ ?_⟩
  rcases hd.exhausted_or attempts with hout | heq
  · obtain ⟨more, hrun, -⟩ := h attempts source returned
    rw [hrun]
    exact .inl hout
  · exact .inr (hsame attempts heq)

end Draw

namespace Generate

open Draw

variable {σ : Type} [WordSource σ] {value : Draw σ Candidate} {source s : σ} {e : Expr}

/-! ### Drawing an expression -/

/-- The states of the source that come up while expressions are drawn: rolls are made, and values
are asked for. -/
inductive ComesUp (value : Draw σ Candidate) (source : σ) : σ → Prop
  | start : ComesUp value source source
  | rolled {s later : σ} {r : Binary64} (hs : ComesUp value source s)
      (h : (roll : Draw σ Binary64).Settles s (.ok r) later) : ComesUp value source later
  | asked {s later : σ} {c : Candidate} (hs : ComesUp value source s)
      (h : value.Settles s (.ok c) later) : ComesUp value source later

/-- Whenever a value is asked for, it is a number that fits a payload. -/
def ReturnsPayloads (value : Draw σ Candidate) (source : σ) : Prop :=
  ∀ s, ComesUp value source s →
    ∃ v later, value.Settles s (.ok (.number v)) later ∧ 0 ≤ v ∧ v ≤ maxPayload

/-- Drawings that settle on payloads return them, if the source returns. -/
theorem returnsPayloads_of_total {limit : Nat} (hvalue : Total limit value)
    (hpayload : ∀ c, value.Gives c → ∃ p, c.payload = .ok p) (hsource : Returns limit source) :
    ReturnsPayloads value source := by
  intro s hs
  -- Neither a roll nor a value does anything to the source but draw words from it.
  have hreturns : Returns limit s := by
    induction hs with
    | start => exact hsource
    | rolled _ h ih =>
      obtain ⟨_, words, hroll, -⟩ := total_roll _ ih
      obtain ⟨-, rfl⟩ := h.unique hroll
      exact ih.skip words
    | asked _ h ih =>
      obtain ⟨_, words, hasked, -⟩ := hvalue _ ih
      obtain ⟨-, rfl⟩ := h.unique hasked
      exact ih.skip words
  obtain ⟨_, words, hsettles, c, rfl⟩ := hvalue s hreturns
  obtain ⟨p, hp⟩ := hpayload c hsettles.gives
  obtain rfl := Candidate.payload_eq_ok_iff.1 hp
  have hlt := p.isLt
  refine ⟨p.val, _, hsettles, ?_, ?_⟩
  · omega
  · unfold maxPayload
    omega

theorem exists_settles_roll (source : σ) :
    ∃ r later, (roll : Draw σ Binary64).Settles source (.ok r) later :=
  ⟨_, _, settles_of_forall fun _ ↦ rfl⟩

theorem exists_settles_constant (hvalue : ReturnsPayloads value source)
    (hs : ComesUp value source s) :
    ∃ e later, (constant value).Settles s (.ok e) later ∧ ComesUp value source later := by
  obtain ⟨v, later, hv, hnonneg, hle⟩ := hvalue s hs
  unfold maxPayload at hle
  obtain ⟨p, rfl⟩ := (Payload.exists_val_eq_iff v).2 ⟨hnonneg, by omega⟩
  refine ⟨.const p, later, hv.bind ?_, .asked hs hv⟩
  rw [Expr.ofCandidate, Candidate.payload_eq_ok_iff.2 rfl]
  exact settles_of_forall fun _ ↦ rfl

/-- **An expression is drawn** wherever the drawing for its constants returns payloads. -/
theorem exists_settles_randomExpr (hvalue : ReturnsPayloads value source) (depth : Nat)
    (hs : ComesUp value source s) :
    ∃ e later, (randomExpr value depth).Settles s (.ok e) later ∧ ComesUp value source later := by
  induction depth generalizing s with
  | zero => exact exists_settles_constant hvalue hs
  | succ depth ih =>
    obtain ⟨r, rolled, hroll⟩ := exists_settles_roll s
    have hrolled := ComesUp.rolled hs hroll
    rcases hnode : nodeOf r with _ | op
    · obtain ⟨e, later, he, hlater⟩ := exists_settles_constant hvalue hrolled
      refine ⟨e, later, hroll.bind ?_, hlater⟩
      rw [hnode]
      exact he
    · obtain ⟨left, middle, hleft, hmiddle⟩ := ih hrolled
      obtain ⟨right, later, hright, hlater⟩ := ih hmiddle
      refine ⟨.node op left right, later, hroll.bind ?_, hlater⟩
      rw [hnode]
      exact hleft.bind (hright.bind (settles_of_forall fun _ ↦ rfl))

/-- No expression is deeper than allowed. -/
theorem depth_le_of_randomExpr {depth : Nat} (h : (randomExpr value depth).Gives e) :
    e.depth ≤ depth := by
  induction depth generalizing e with
  | zero =>
    obtain ⟨p, rfl⟩ := exists_of_constant h
    exact Nat.le_refl 0
  | succ depth ih =>
    obtain ⟨r, -, h⟩ := h.exists_of_bind
    split at h
    · obtain ⟨p, rfl⟩ := exists_of_constant h
      exact Nat.zero_le _
    · obtain ⟨left, hleft, h⟩ := h.exists_of_bind
      obtain ⟨right, hright, h⟩ := h.exists_of_bind
      obtain rfl := h.eq_of_pure
      exact Nat.succ_le_succ (Nat.max_le.2 ⟨ih hleft, ih hright⟩)

/-! ### Where the constants come from -/

omit [WordSource σ] in
theorem records_constant (value : Draw σ Candidate) :
    Records (constant value) (constant value.recorded) fun e more ↦ more = e.origins := by
  refine (records_recorded value).bind fun c more hmore ↦ ?_
  rw [Expr.ofCandidate]
  rcases hc : c.payload with cause | p
  · exact records_fail _
  · refine records_pure ?_
    rw [hmore, Candidate.payload_eq_ok_iff.1 hc]
    exact (Expr.origins_const p).symm

/-- **The constants of an expression are the values returned,** from left to right, and no other
values are asked for. -/
theorem records_randomExpr (value : Draw σ Candidate) (depth : Nat) :
    Records (randomExpr value depth) (randomExpr value.recorded depth)
      fun e more ↦ more = e.origins := by
  induction depth with
  | zero => exact records_constant value
  | succ depth ih =>
    -- The left operand is written down before the right one, and nothing before or after them.
    refine records_roll.bind fun r more hroll ↦ ?_
    obtain rfl := hroll
    rcases nodeOf r with _ | op
    · exact records_constant value
    · refine ih.bind fun left more hleft ↦ ih.bind fun right more' hright ↦ records_pure ?_
      rw [hleft, hright, List.append_nil, List.nil_append]
      exact (Expr.origins_node op left right).symm

/-- **Random expressions keep their bounds,** whatever words are drawn and whatever payloads are
returned for the constants. An expression is drawn, and its constants are the values returned, in
the order in which they were asked for: this is what a recorder has written down in the end. With
`d` the depth allowed, or zero if that is negative, the expression is at most `d` deep and takes at
most `d + 1` stack slots. Its program has two words more than the expression has nodes, at most
`2 ^ (d + 1) + 1`. -/
theorem expressions_keep_bounds (hvalue : ReturnsPayloads value source) (maxDepth : Int) :
    ∃ e later, (exprUpTo value maxDepth).Settles source (.ok e) later ∧
      (exprUpTo value.recorded maxDepth).Settles ⟨source, []⟩ (.ok e) ⟨later, e.origins⟩ ∧
      e.depth ≤ maxDepth.toNat ∧ e.stackDepth ≤ maxDepth.toNat + 1 ∧
      e.compile.length = e.size + 2 ∧ e.compile.length ≤ 2 ^ (maxDepth.toNat + 1) + 1 := by
  obtain ⟨e, later, he, -⟩ := exists_settles_randomExpr hvalue maxDepth.toNat .start
  have hdepth := depth_le_of_randomExpr he.gives
  exact ⟨e, later, he, (records_randomExpr value maxDepth.toNat).settles he [], hdepth,
    Nat.le_trans e.stackDepth_le (Nat.succ_le_succ hdepth), e.length_compile,
    Expr.length_compile_le hdepth⟩

/-- A roll for a quotient, and any literals for its operands: the first number drawn for the left
one is rejected. All bounds are reached. -/
theorem expressions_keep_bounds_quotient :
    let value : Draw WordStream Candidate := .number <$> anyLiteral
    let source : WordStream := ⟨[0xFFFFFFFF, 0xFFFFFFFF, 0xFFFFFFFF, 10, 14], 0⟩
    let e : Expr := .node .div (.const 5) (.const 7)
    ReturnsPayloads value source ∧
      ∃ later, (exprUpTo value 1).Settles source (.ok e) later ∧
        (exprUpTo value.recorded 1).Settles ⟨source, []⟩ (.ok e)
          ⟨later, [.number 5, .number 7]⟩ ∧
        e.depth = 1 ∧ e.stackDepth = 1 + 1 ∧ e.compile.length = e.size + 2 ∧
        e.compile.length = 2 ^ (1 + 1) + 1 := by
  intro value source e
  have hmax : ∀ high ∈ some maxPayload, 0 ≤ high ∧ high ≤ maxPayload := by
    rintro _ ⟨⟩
    decide
  have hvalue : ReturnsPayloads value source :=
    returnsPayloads_of_total ((total_constantValue hmax (by decide)).map Candidate.number)
      (fun _ h ↦ exists_payload_of_constantValue hmax h) (WordStream.returns source)
  obtain ⟨e', later, hsettles, hrecorded, -, -, hwords, -⟩ := expressions_keep_bounds hvalue 1
  -- Two attempts are enough for both constants.
  have hdrawn : ((exprUpTo value 1).perform 2 source).1 = .ok e := by rfl
  rcases hsettles.exhausted_or 2 with hout | heq
  · rw [hdrawn] at hout
    cases hout
  · rw [heq] at hdrawn
    obtain rfl : e' = e := Except.ok.inj hdrawn
    exact ⟨hvalue, later, hsettles, hrecorded, rfl, rfl, hwords, rfl⟩

end Generate

end TaggedStack
