import Mathlib.Data.Finset.Card
import TaggedStack.Proofs.Description
import TaggedStack.Proofs.Distinct

/-!
# Reading expressions back from their code

Code in post-order has no brackets: where the code of the left operand ends cannot be seen from the
instructions next to it. It is found by reading on. A literal puts a constant on a stack of
expressions and an operation joins the two expressions on top, so that the code of an expression
leaves this expression, whatever was on the stack before (`Expr.foldl_place_code`). Hence code
determines its expression, and as instructions are determined by their words, so does a program.

* `Expr.code_injective`: expressions are told apart by their code.
* `Expr.compile_injective`: and by the words of their programs.
* `Expr.compile_tells_apart`: among programs of expressions, only those of equal expressions are
  repetitions.
-/

namespace TaggedStack

/-- Instructions are told apart by their words. -/
theorem assemble_injective : Function.Injective assemble := by
  intro code code' h
  have hcode : (assemble code).mapM Instr.ofWord = .ok code := mapM_ofWord_eq_ok_iff.2 rfl
  have hcode' : (assemble code).mapM Instr.ofWord = .ok code' := mapM_ofWord_eq_ok_iff.2 h
  exact Except.ok.inj (hcode.symm.trans hcode')

/-- The arithmetic operation that an instruction performs, if it performs one. -/
def Arith.ofInstr? (i : Instr) : Option Arith := all.find? fun op ↦ i = .op op.opcode

theorem Arith.ofInstr?_opcode (op : Arith) : ofInstr? (.op op.opcode) = some op := by
  cases op <;> rfl

namespace Expr

/-- The expressions on a stack after an instruction. One that is neither a literal nor an operation
on two expressions leaves them as they are. -/
def place : List Expr → Instr → List Expr
  | stack, .literal value => .const value :: stack
  | right :: left :: stack, i =>
    match Arith.ofInstr? i with
    | some op => .node op left right :: stack
    | none => right :: left :: stack
  | stack, _ => stack

theorem place_op (op : Arith) (left right : Expr) (stack : List Expr) :
    place (right :: left :: stack) (.op op.opcode) = .node op left right :: stack := by
  show (match Arith.ofInstr? (.op op.opcode) with
    | some op => Expr.node op left right :: stack
    | none => right :: left :: stack) = _
  rw [Arith.ofInstr?_opcode]

/-- **The code of an expression is read as this expression,** on top of what was there before. -/
theorem foldl_place_code (e : Expr) (stack : List Expr) :
    e.code.foldl place stack = e :: stack := by
  induction e generalizing stack with
  | const value => rfl
  | node op left right ihl ihr =>
    rw [code, List.foldl_append, List.foldl_append, ihl, ihr, List.foldl_cons, List.foldl_nil,
      place_op]

/-- Expressions are told apart by their code. -/
theorem code_injective : Function.Injective code := by
  intro e f h
  have hread : e :: [] = f :: [] := by rw [← foldl_place_code, h, foldl_place_code]
  exact List.head_eq_of_cons_eq hread

/-- Expressions are told apart by the words of their programs. -/
theorem compile_injective : Function.Injective compile := by
  intro e f h
  exact code_injective (List.append_cancel_right (assemble_injective h))

/-- **Programs tell expressions apart.** Two expressions have the same program only if they are the
same, so leaving out repeated programs keeps as many of them as there are different expressions. -/
theorem compile_tells_apart :
    (∀ e f : Expr, e.compile = f.compile ↔ e = f) ∧
      ∀ es : List Expr, (Enumerate.distinct (es.map compile)).length = es.toFinset.card := by
  refine ⟨fun e f ↦ compile_injective.eq_iff, fun es ↦ ?_⟩
  have hkept : (Enumerate.distinct (es.map compile)).toFinset = es.toFinset.image compile := by
    ext p
    simp only [List.mem_toFinset, Enumerate.mem_distinct_iff, List.mem_map, Finset.mem_image]
  calc
    (Enumerate.distinct (es.map compile)).length
      = (Enumerate.distinct (es.map compile)).toFinset.card :=
        (List.toFinset_card_of_nodup (Enumerate.nodup_distinct _)).symm
    _ = (es.toFinset.image compile).card := by rw [hkept]
    _ = es.toFinset.card := Finset.card_image_of_injective _ compile_injective

end Expr

end TaggedStack
