import TaggedStack.Attempt
import TaggedStack.Expr
import TaggedStack.Layout
import Std.Data.HashSet

/-!
# Enumerating programs

Instead of drawing programs at random one can list them all: every expression up to a depth
over given constants, and programs aimed at the edges of each region. The suite joins these
lists and keeps the first of equal programs.

A constant or an address without a payload ends an enumeration; what was listed before it
stays.

* `Enumerate.expressions`: all expressions up to a depth.
* `Enumerate.length_expressions_succ`: how many there are.
* `Enumerate.suite`: the joint list without repetitions.
-/

namespace TaggedStack.Enumerate

/-- Constants at the edges of the widths that matter. -/
def boundaryConstants : List Payload := [0, 1, 2, 0xFF, 0xFFFF, 0x10000, 0x3FFFFFFF]

/-- A few constants, for small suites. -/
def fewConstants : List Payload := [0, 1, 2, 0x3FFFFFFF]

/-! ### Expressions -/

/-- All expressions up to a depth: first the nodes over smaller expressions, then the
constants. -/
def expressions (constants : List Payload) : (depth : Nat) → List Expr
  | 0 => constants.map .const
  | depth + 1 =>
    let smaller := expressions constants depth
    (smaller.flatMap fun left ↦
      smaller.flatMap fun right ↦ Arith.all.map fun op ↦ .node op left right) ++
      constants.map .const

/-- The programs of all expressions up to each depth in turn. -/
def programs (constants : List Payload) (maxDepth : Nat) : List (List Int) :=
  (List.range (maxDepth + 1)).flatMap fun depth ↦
    (expressions constants depth).map Expr.compile

/-- The payloads of candidates, up to the first that has none. -/
def payloads (candidates : List Candidate) : Attempt (List Payload) ConstError Unit :=
  .ofList (candidates.map Candidate.payload)

/-- All expressions over candidates that may be no constants. Nodes are listed only once all
candidates are known to be good. -/
def checkedExpressions (candidates : List Candidate) (depth : Nat) :
    Attempt (List Expr) ConstError Unit :=
  let checked := payloads candidates
  match checked.ending with
  | .ok () => .succeed (expressions checked.after depth) ()
  | .error e => .fail (if depth = 0 then checked.after.map .const else []) e

/-- The programs of all expressions over candidates that may be no constants. A negative depth
has no programs, and its candidates are not looked at. -/
def checkedPrograms (candidates : List Candidate) (maxDepth : Int) :
    Attempt (List (List Int)) ConstError Unit :=
  if maxDepth < 0 then .succeed [] ()
  else
    let checked := payloads candidates
    match checked.ending with
    | .ok () => .succeed (programs checked.after maxDepth.toNat) ()
    | .error e => .fail (checked.after.map fun p ↦ (Expr.const p).compile) e

/-- A list of `n` lists of length `k` has `n * k` members when joined. -/
theorem length_flatMap_of_forall {α β : Type} (xs : List α) (f : α → List β) (k : Nat)
    (h : ∀ x, (f x).length = k) : (xs.flatMap f).length = xs.length * k := by
  induction xs with
  | nil => simp
  | cons x xs ih => simp [ih, h, Nat.add_mul, Nat.add_comm]

theorem length_expressions_zero (cs : List Payload) :
    (expressions cs 0).length = cs.length := by
  simp [expressions]

/-- Each pair of smaller expressions gives four nodes. -/
theorem length_expressions_succ (cs : List Payload) (depth : Nat) :
    (expressions cs (depth + 1)).length =
      4 * ((expressions cs depth).length * (expressions cs depth).length) + cs.length := by
  rw [expressions, List.length_append, List.length_map,
    length_flatMap_of_forall _ _ ((expressions cs depth).length * 4)]
  · rw [← Nat.mul_assoc, Nat.mul_comm _ 4]
  · intro left
    exact length_flatMap_of_forall _ _ 4 fun right ↦ by simp [Arith.all]

/-! ### Edges -/

/-- A program of instructions given the literal of a number. -/
def withLiteral (value : Int) (program : Instr → List Instr) : Except CodecError (List Int) :=
  (fun literal ↦ assemble (program literal)) <$> Instr.ofLiteral value

/-- Jumps to targets around both ends of the instructions, taken and not taken. -/
def jumpTests (l : Layout) : List (Except CodecError (List Int)) :=
  let capacity : Int := l.instructionCapacity
  [0, 1, 2, 3, capacity - 2, capacity - 1, capacity, capacity + 1, 0x3FFFFFFF].flatMap
    fun target ↦
      [ withLiteral target fun t ↦ [t, .op .jmp, .op .halt, .op .halt],
        withLiteral target fun t ↦ [.literal 0, t, .op .jz, .op .halt, .op .halt],
        withLiteral target fun t ↦ [.literal 1, t, .op .jz, .op .halt, .op .halt] ]

/-- Loads and stores at the edges of the program data. -/
def dataTests (l : Layout) : List (Except CodecError (List Int)) :=
  let size : Int := l.dataSize
  [0, 1, size - 1, size, size + 1, 0x3FFFFFFF].flatMap fun address ↦
    [ withLiteral address fun a ↦ [a, .op .load, .op .prn, .op .halt],
      withLiteral address fun a ↦
        [.literal 7, a, .op .stor, a, .op .load, .op .prn, .op .halt] ]

/-- Every operation but the halt on an empty stack, and a loop that fills the stack. -/
def stackTests : List (List Int) :=
  ((Opcode.all.filter (· ≠ .halt)).map fun o ↦ assemble [.op o, .op .halt]) ++
    [assemble [.literal 1, .op .dup, .literal 0, .op .jmp, .op .halt]]

/-- Primitives whose number is that of no operation. -/
def unknownTests : List (List Int) :=
  [12, 13, 0xFF, 0x3FFFFFFF].map fun id ↦ assemble [.primitive id, .op .halt]

/-- Literals under the negative tag. -/
def literalTests : List (List Int) :=
  fewConstants.flatMap fun value ↦
    [ assemble [.negative value, .op .prn, .op .halt],
      assemble [.literal value, .negative 1, .op .div, .op .prn, .op .halt] ]

/-! ### The suite -/

/-- The members of a list in the order of their first occurrence. -/
def distinct (programs : List (List Int)) : List (List Int) :=
  (programs.foldl
    (fun (seen, kept) p ↦
      if seen.contains p then (seen, kept) else (seen.insert p, kept.push p))
    ((∅ : Std.HashSet (List Int)), (#[] : Array (List Int)))).2.toList

/-- The programs aimed at edges, in order. -/
def edgeTests (l : Layout) : List (Except CodecError (List Int)) :=
  jumpTests l ++ dataTests l ++ (stackTests ++ unknownTests ++ literalTests).map .ok

/-- Programs of expressions over the boundary constants and all tests of edges, each once. A
test that cannot be written for the layout ends the suite. -/
def suite (maxDepth : Int) (l : Layout) : Attempt (List (List Int)) CodecError Unit :=
  let fromExpressions :=
    if maxDepth < 0 then [] else programs boundaryConstants maxDepth.toNat
  let edges := Attempt.ofList (edgeTests l)
  ⟨distinct (fromExpressions ++ edges.after), edges.ending⟩

end TaggedStack.Enumerate
