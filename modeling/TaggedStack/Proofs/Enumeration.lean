import Mathlib.Algebra.Group.Nat.Defs
import Mathlib.Data.List.Nodup
import TaggedStack.Enumerate

/-!
# The enumeration of expressions

The expressions of one depth more are the nodes over all pairs of smaller expressions, followed by
the constants. A node is listed for the pair of its operands and for no other
(`Enumerate.node_mem_nodes_iff`), and no constant is a node. So everything is listed that is no
deeper and has no other constants, and nothing twice unless a constant is given twice.

* `Enumerate.mem_expressions_iff`: which expressions are listed.
* `Enumerate.nodup_expressions_iff`: when none is listed twice.
* `Enumerate.expressions_are_complete`: both, with the number of expressions.
-/

namespace TaggedStack

theorem Arith.mem_all (op : Arith) : op ∈ all := by cases op <;> decide

namespace Enumerate

/-! ### Nodes -/

/-- The nodes over pairs of given expressions. -/
def nodes (es : List Expr) : List Expr :=
  es.flatMap fun left ↦ es.flatMap fun right ↦ Arith.all.map fun op ↦ .node op left right

theorem expressions_succ (constants : List Payload) (depth : Nat) :
    expressions constants (depth + 1) =
      nodes (expressions constants depth) ++ constants.map .const :=
  rfl

/-- A node is listed for the pair of its operands. -/
theorem mem_nodes_iff {es : List Expr} {e : Expr} :
    e ∈ nodes es ↔ ∃ op, ∃ left ∈ es, ∃ right ∈ es, e = .node op left right := by
  simp only [nodes, List.mem_flatMap, List.mem_map]
  constructor
  · intro h
    obtain ⟨left, hleft, right, hright, op, -, rfl⟩ := h
    exact ⟨op, left, hleft, right, hright, rfl⟩
  · intro h
    obtain ⟨op, left, hleft, right, hright, rfl⟩ := h
    exact ⟨left, hleft, right, hright, op, op.mem_all, rfl⟩

theorem node_mem_nodes_iff {es : List Expr} {op : Arith} {left right : Expr} :
    .node op left right ∈ nodes es ↔ left ∈ es ∧ right ∈ es := by
  rw [mem_nodes_iff]
  constructor
  · intro h
    obtain ⟨_, _, hleft, _, hright, ⟨⟩⟩ := h
    exact ⟨hleft, hright⟩
  · intro h
    exact ⟨op, left, h.1, right, h.2, rfl⟩

theorem const_notMem_nodes (es : List Expr) (value : Payload) : .const value ∉ nodes es := by
  intro h
  obtain ⟨_, _, -, _, -, ⟨⟩⟩ := mem_nodes_iff.1 h

/-- Different operations or operands give different nodes. -/
theorem nodup_nodes {es : List Expr} (h : es.Nodup) : (nodes es).Nodup := by
  have hops : Arith.all.Nodup := by decide
  refine List.nodup_flatMap.2 ⟨fun left _ ↦ List.nodup_flatMap.2 ⟨fun right _ ↦ ?_, ?_⟩, ?_⟩
  · exact hops.map fun op op' hnode ↦ (Expr.node.inj hnode).1
  · refine h.imp fun hne e he he' ↦ ?_
    obtain ⟨_, -, rfl⟩ := List.mem_map.1 he
    obtain ⟨_, -, hnode⟩ := List.mem_map.1 he'
    exact hne (Expr.node.inj hnode).2.2.symm
  · refine h.imp fun hne e he he' ↦ ?_
    obtain ⟨_, -, he⟩ := List.mem_flatMap.1 he
    obtain ⟨_, -, rfl⟩ := List.mem_map.1 he
    obtain ⟨_, -, he'⟩ := List.mem_flatMap.1 he'
    obtain ⟨_, -, hnode⟩ := List.mem_map.1 he'
    exact hne (Expr.node.inj hnode).2.1.symm

/-! ### Expressions up to a depth -/

theorem const_mem_expressions_iff {constants : List Payload} {depth : Nat} {value : Payload} :
    .const value ∈ expressions constants depth ↔ value ∈ constants := by
  have hconst : .const value ∈ constants.map Expr.const ↔ value ∈ constants :=
    List.mem_map_of_injective fun _ _ h ↦ Expr.const.inj h
  cases depth with
  | zero => exact hconst
  | succ depth =>
    rw [expressions_succ, List.mem_append, hconst, or_iff_right (const_notMem_nodes _ value)]

theorem node_mem_expressions_iff {constants : List Payload} {depth : Nat} {op : Arith}
    {left right : Expr} :
    .node op left right ∈ expressions constants (depth + 1) ↔
      left ∈ expressions constants depth ∧ right ∈ expressions constants depth := by
  have hnode : .node op left right ∉ constants.map Expr.const := by simp
  rw [expressions_succ, List.mem_append, node_mem_nodes_iff, or_iff_left hnode]

/-- **What is listed up to a depth:** all expressions that are no deeper, over the given
constants. -/
theorem mem_expressions_iff {constants : List Payload} {depth : Nat} {e : Expr} :
    e ∈ expressions constants depth ↔ e.depth ≤ depth ∧ ∀ c ∈ e.constants, c ∈ constants := by
  induction e generalizing depth with
  | const value => simp [const_mem_expressions_iff, Expr.depth, Expr.constants]
  | node op left right ihl ihr =>
    cases depth with
    | zero => simp [expressions, Expr.depth]
    | succ depth =>
      rw [node_mem_expressions_iff, ihl, ihr, Expr.depth, Nat.add_le_add_iff_right,
        Nat.max_le, Expr.constants, List.forall_mem_append]
      exact and_and_and_comm

/-- No expression is listed twice if no constant is given twice, and only then. -/
theorem nodup_expressions_iff {constants : List Payload} {depth : Nat} :
    (expressions constants depth).Nodup ↔ constants.Nodup := by
  have hconst : (constants.map Expr.const).Nodup ↔ constants.Nodup :=
    List.nodup_map_iff fun _ _ h ↦ Expr.const.inj h
  induction depth with
  | zero => exact hconst
  | succ depth ih =>
    rw [expressions_succ, List.nodup_append', hconst]
    constructor
    · intro h
      exact h.2.1
    · intro h
      refine ⟨nodup_nodes (ih.2 h), h, fun e he hmem ↦ ?_⟩
      obtain ⟨value, -, rfl⟩ := List.mem_map.1 hmem
      exact const_notMem_nodes _ value he

/-- Constants that are payloads pass the check. -/
theorem payloads_number (constants : List Payload) :
    payloads (constants.map fun c ↦ .number c.val) = .succeed constants () := by
  have hgood : ∀ c : Payload, (Candidate.payload ∘ fun c ↦ .number c.val) c = .ok c := by
    intro c
    rw [Function.comp_apply, Candidate.payload_eq_ok_iff]
  rw [payloads, List.map_map, List.map_congr_left fun c _ ↦ hgood c, Attempt.ofList_map_ok]

/-- **The enumeration of expressions is complete.** Over constants in range it goes through and
lists, up to a depth, exactly the expressions that are no deeper and have no other constants; none
of them twice if no constant is given twice. There are as many of depth zero as constants, and of
one depth more four for each pair, and the constants. -/
theorem expressions_are_complete (constants : List Payload) (depth : Nat) :
    checkedExpressions (constants.map fun c ↦ .number c.val) depth =
        .succeed (expressions constants depth) () ∧
      (∀ e : Expr, e ∈ expressions constants depth ↔
        e.depth ≤ depth ∧ ∀ c ∈ e.constants, c ∈ constants) ∧
      ((expressions constants depth).Nodup ↔ constants.Nodup) ∧
      (expressions constants 0).length = constants.length ∧
      (expressions constants (depth + 1)).length =
        4 * (expressions constants depth).length ^ 2 + constants.length := by
  refine ⟨?_, fun e ↦ mem_expressions_iff, nodup_expressions_iff, length_expressions_zero constants,
    ?_⟩
  · rw [checkedExpressions, payloads_number]
    rfl
  · rw [length_expressions_succ, pow_two]

end Enumerate

end TaggedStack
