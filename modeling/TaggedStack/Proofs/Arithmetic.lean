import TaggedStack.Proofs.Compilation

/-!
# The arithmetic of expressions

An expression is evaluated from the leaves up, and every operation but division reduces its own
result modulo `2 ^ 32`. Three things are said about the outcome.

A value is missing for one reason only: somewhere in the expression there is a division whose right
operand has the value zero (`Expr.DividesByZero`). Which operand is evaluated first does not count
for that, as an operand that has no value contains such a division itself.

A value that is there is a machine word. Division does not reduce its result, so for this both
operands have to be machine words already.

Without divisions, reducing at every node is reducing once at the end (`Expr.evaluate_eq_exact`):
sums, differences and products of residues are those of the numbers, however far these leave the
range of a word and on whichever side.

* `Expr.Occurs`: the expressions inside an expression.
* `Expr.evaluate_eq_none_iff`: when an expression has no value.
* `Expr.evaluate_toDraft`: a draft that is an expression is evaluated as this expression.
* `Expr.evaluation_is_exact`: the three facts together.
-/

namespace TaggedStack

namespace Arith

/-- The value of an operation on integers, without any reduction. -/
def exact : Arith → Int → Int → Int
  | add, a, b => a + b
  | sub, a, b => a - b
  | mul, a, b => a * b
  | div, a, b => a / b

/-- Only a division by zero has no value. -/
theorem value?_eq_none_iff {op : Arith} {a b : Int} :
    op.value? a b = none ↔ op = .div ∧ b = 0 := by
  cases op <;> simp [value?]

/-- An operation other than division may be applied to residues. -/
theorem value?_emod {op : Arith} (hop : op ≠ .div) (a b : Int) :
    op.value? (a % 0x100000000) (b % 0x100000000) = some (op.exact a b % 0x100000000) := by
  cases op with
  | add => exact congrArg some (Int.add_emod a b _).symm
  | sub => exact congrArg some (Int.sub_emod a b _).symm
  | mul => exact congrArg some (Int.mul_emod a b _).symm
  | div => exact absurd rfl hop

end Arith

namespace Expr

variable {e left right : Expr} {op : Arith}

/-! ### The expressions inside an expression -/

/-- An expression occurs in another, possibly as the whole of it. -/
inductive Occurs (e : Expr) : Expr → Prop
  | whole : Occurs e e
  | left {op : Arith} {left right : Expr} : Occurs e left → Occurs e (node op left right)
  | right {op : Arith} {left right : Expr} : Occurs e right → Occurs e (node op left right)

theorem occurs_const_iff {p : Payload} : Occurs e (const p) ↔ e = const p := by
  constructor
  · rintro ⟨⟩
    rfl
  · rintro rfl
    exact .whole

theorem occurs_node_iff :
    Occurs e (node op left right) ↔ e = node op left right ∨ Occurs e left ∨ Occurs e right := by
  constructor
  · rintro (_ | h | h)
    · exact .inl rfl
    · exact .inr (.inl h)
    · exact .inr (.inr h)
  · rintro (rfl | h | h)
    · exact .whole
    · exact .left h
    · exact .right h

/-- Some division in an expression has a right operand with the value zero. -/
def DividesByZero (e : Expr) : Prop :=
  ∃ left right, Occurs (node .div left right) e ∧ right.evaluate = some 0

/-- There are no divisions in an expression. -/
def IsDivFree (e : Expr) : Prop := ∀ left right, ¬Occurs (node .div left right) e

theorem dividesByZero_node_iff :
    (node op left right).DividesByZero ↔
      left.DividesByZero ∨ right.DividesByZero ∨ op = .div ∧ right.evaluate = some 0 := by
  constructor
  · rintro ⟨x, y, hoccurs, hzero⟩
    rcases occurs_node_iff.1 hoccurs with hwhole | hleft | hright
    · cases hwhole
      exact .inr (.inr ⟨rfl, hzero⟩)
    · exact .inl ⟨x, y, hleft, hzero⟩
    · exact .inr (.inl ⟨x, y, hright, hzero⟩)
  · rintro (⟨x, y, hleft, hzero⟩ | ⟨x, y, hright, hzero⟩ | ⟨rfl, hzero⟩)
    · exact ⟨x, y, .left hleft, hzero⟩
    · exact ⟨x, y, .right hright, hzero⟩
    · exact ⟨left, right, .whole, hzero⟩

theorem isDivFree_const (p : Payload) : (const p).IsDivFree := by
  intro left right hoccurs
  rw [occurs_const_iff] at hoccurs
  cases hoccurs

theorem IsDivFree.not_dividesByZero (h : e.IsDivFree) : ¬e.DividesByZero := by
  rintro ⟨left, right, hoccurs, -⟩
  exact h left right hoccurs

theorem isDivFree_node_iff :
    (node op left right).IsDivFree ↔ op ≠ .div ∧ left.IsDivFree ∧ right.IsDivFree := by
  constructor
  · intro h
    refine ⟨?_, fun x y hleft ↦ h x y (.left hleft), fun x y hright ↦ h x y (.right hright)⟩
    rintro rfl
    exact h left right .whole
  · rintro ⟨hop, hleft, hright⟩ x y hoccurs
    rcases occurs_node_iff.1 hoccurs with hwhole | hoccurs | hoccurs
    · cases hwhole
      exact hop rfl
    · exact hleft x y hoccurs
    · exact hright x y hoccurs

/-! ### Having a value -/

theorem evaluate_node_eq_none_iff :
    (node op left right).evaluate = none ↔
      left.evaluate = none ∨ right.evaluate = none ∨ op = .div ∧ right.evaluate = some 0 := by
  rw [evaluate]
  cases left.evaluate with
  | none => simp
  | some x =>
    cases right.evaluate with
    | none => simp
    | some y => simp [Arith.value?_eq_none_iff]

/-- **An expression has no value if and only if it divides by zero.** -/
theorem evaluate_eq_none_iff (e : Expr) : e.evaluate = none ↔ e.DividesByZero := by
  induction e with
  | const p => exact iff_of_false (Option.some_ne_none _) (isDivFree_const p).not_dividesByZero
  | node op left right ihl ihr =>
    rw [evaluate_node_eq_none_iff, dividesByZero_node_iff, ihl, ihr]

/-- The draft of an expression has the value of the expression, and where there is none it fails
for a division by zero. -/
theorem evaluate_toDraft (e : Expr) :
    e.toDraft.evaluate =
      match e.evaluate with
      | some v => .ok v
      | none => .error .divisionByZero := by
  induction e with
  | const p => rfl
  | node op left right ihl ihr =>
    rw [toDraft, Draft.evaluate, evaluate, ihl, ihr]
    cases left.evaluate with
    | none => rfl
    | some x =>
      cases right.evaluate with
      | none => rfl
      | some y =>
        show (match op.value? x y with
          | some v => pure v
          | none => throw .divisionByZero : Except DraftError Int) =
            match op.value? x y with
            | some v => .ok v
            | none => .error .divisionByZero
        cases op.value? x y <;> rfl

/-! ### Reducing once -/

/-- The value of an expression in the integers, without any reduction. -/
def exact : Expr → Int
  | const value => value.val
  | node op left right => op.exact left.exact right.exact

/-- **Without divisions, reducing at every node is reducing once at the end.** -/
theorem evaluate_eq_exact (h : e.IsDivFree) : e.evaluate = some (e.exact % 0x100000000) := by
  induction e with
  | const p =>
    have hword := (Word.ofPayload p).property
    exact congrArg some (Int.emod_eq_of_lt hword.1 hword.2).symm
  | node op left right ihl ihr =>
    obtain ⟨hop, hleft, hright⟩ := isDivFree_node_iff.1 h
    exact evaluate_node_eq_some_iff.2
      ⟨_, _, ihl hleft, ihr hright, Arith.value?_emod hop left.exact right.exact⟩

/-- **The arithmetic of expressions.** Evaluating an expression fails for a division by zero if and
only if some division in it has a right operand with the value zero, and else gives a machine word.
Without divisions, this is the exact value of the expression in the integers, reduced once. -/
theorem evaluation_is_exact (e : Expr) :
    (e.toDraft.evaluate = .error .divisionByZero ↔ e.DividesByZero) ∧
      (e.evaluate = none ↔ e.DividesByZero) ∧
      (¬e.DividesByZero →
        ∃ v, e.evaluate = some v ∧ e.toDraft.evaluate = .ok v ∧ IsWord v) ∧
      (e.IsDivFree → e.evaluate = some (e.exact % 0x100000000)) := by
  refine ⟨?_, e.evaluate_eq_none_iff, fun hnonzero ↦ ?_, evaluate_eq_exact⟩
  · rw [evaluate_toDraft, ← evaluate_eq_none_iff]
    cases e.evaluate <;> simp
  · obtain ⟨v, hv⟩ := Option.ne_none_iff_exists'.1 (mt e.evaluate_eq_none_iff.1 hnonzero)
    exact ⟨v, hv, by rw [evaluate_toDraft, hv], isWord_evaluate hv⟩

/-- A product that is negative in the integers, and too large for a word, is reduced once. A divisor
that is `2 ^ 32` in the integers is zero. -/
theorem evaluation_is_exact_wrapping :
    let square : Expr := .node .mul (.const 0x10000) (.const 0x10000)
    let product : Expr :=
      .node .mul (.node .sub (.const 0) (.const 5)) (.node .add square (.const 1))
    let quotient : Expr := .node .div (.const 1) square
    (product.IsDivFree ∧ product.exact = -21474836485 ∧
        product.evaluate = some (-21474836485 % 0x100000000)) ∧
      (square.exact = 0x100000000 ∧ quotient.DividesByZero ∧
        quotient.toDraft.evaluate = .error .divisionByZero) := by
  intro square product quotient
  have hsquare : square.IsDivFree :=
    isDivFree_node_iff.2 ⟨nofun, isDivFree_const _, isDivFree_const _⟩
  have hdifference : (node .sub (.const 0) (.const 5)).IsDivFree :=
    isDivFree_node_iff.2 ⟨nofun, isDivFree_const _, isDivFree_const _⟩
  have hfree : product.IsDivFree :=
    isDivFree_node_iff.2
      ⟨nofun, hdifference, isDivFree_node_iff.2 ⟨nofun, hsquare, isDivFree_const _⟩⟩
  have hzero : quotient.DividesByZero := ⟨_, square, .whole, by decide⟩
  exact ⟨⟨hfree, by decide, (evaluation_is_exact product).2.2.2 hfree⟩, by decide, hzero,
    (evaluation_is_exact quotient).1.2 hzero⟩

end Expr

end TaggedStack
