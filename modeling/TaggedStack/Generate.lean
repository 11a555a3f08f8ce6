import TaggedStack.Random.Draw
import TaggedStack.Trial

/-!
# Generating programs

Test cases are drawn at random in one of several ways: words without any structure, programs
of mostly sensible instructions, and programs of expressions, which come with the result they
must have. A mixed generator picks among the others.

* `Generate.randomExpr`, `Generate.exprUpTo`: an expression of bounded depth.
* `Generate.words`, `Generate.instructions`, `Generate.expression`: the three basic generators.
* `Generate.mixed`: one of them, chosen anew for every case.
* `Generator.draw`: the generator of a given name.
-/

namespace TaggedStack

/-- What the generators and the runs of their programs are bounded by. -/
structure Config where
  /-- The most words of a case without structure. -/
  maxLength : Int := 20
  /-- The most instructions of a structured case. -/
  maxInstructions : Int := 30
  /-- The greatest depth of an expression. -/
  maxDepth : Int := 3
  /-- The most cycles of a run. -/
  maxSteps : Quantity := .number 1000
  layout : Layout := .standard

/-- A program, and the result it must have if that is known. -/
structure Case where
  words : List Int
  expected : Option Result := none
  deriving DecidableEq

/-- The kinds of instruction a structured case is made of. -/
inductive InstrKind
  | literal
  | primitive
  | negative
  | reserved
  | invalid
  deriving DecidableEq, Repr

/-- The name of a kind of instruction. -/
def InstrKind.name : InstrKind → String
  | literal => "literal"
  | primitive => "primitive"
  | negative => "negative_literal"
  | reserved => "reserved"
  | invalid => "invalid"

namespace Generate

variable {σ : Type} [WordSource σ]

/-- Whether a roll falls below a probability. -/
def chance (roll probability : Binary64) : Bool := roll.lt probability

/-! ### Expressions -/

/-- A constant of the value drawn. -/
def constant (value : Draw σ Candidate) : Draw σ Expr := do
  match Expr.ofCandidate (← value) with
  | .ok e => return e
  | .error cause => Draw.fail (.constant cause)

/-- The node a roll stands for, none for a constant: a constant up to 0.4, then a sum up to 0.6,
a difference up to 0.75, a product up to 0.9, and a quotient for the rest. -/
def nodeOf (roll : Binary64) : Option Arith :=
  if chance roll (.ofRatio 4 10) then none
  else if chance roll (.ofRatio 6 10) then some .add
  else if chance roll (.ofRatio 75 100) then some .sub
  else if chance roll (.ofRatio 9 10) then some .mul
  else some .div

/-- An expression of at most the given depth, with constants of the values drawn. -/
def randomExpr (value : Draw σ Candidate) : (depth : Nat) → Draw σ Expr
  | 0 => constant value
  | depth + 1 => do
    match nodeOf (← Draw.roll) with
    | none => constant value
    | some op =>
      let left ← randomExpr value depth
      let right ← randomExpr value depth
      return .node op left right

/-- An expression of at most the given depth. There are no rolls from depth zero down. -/
def exprUpTo (value : Draw σ Candidate) (maxDepth : Int) : Draw σ Expr :=
  randomExpr value maxDepth.toNat

/-- The operands of a node are drawn with one depth less. -/
theorem exprUpTo_eq (value : Draw σ Candidate) (maxDepth : Int) :
    exprUpTo value maxDepth =
      if maxDepth ≤ 0 then constant value
      else do
        match nodeOf (← Draw.roll) with
        | none => constant value
        | some op =>
          let left ← exprUpTo value (maxDepth - 1)
          let right ← exprUpTo value (maxDepth - 1)
          return .node op left right := by
  unfold exprUpTo
  split
  · next hle => rw [Int.toNat_of_nonpos hle, randomExpr]
  · next hpos =>
    have hdepth : maxDepth.toNat = (maxDepth - 1).toNat + 1 := by omega
    rw [hdepth, randomExpr]

/-- The greatest payload. -/
def maxPayload : Int := 0x3FFFFFFF

/-- The value of any literal. -/
def anyLiteral : Draw σ Int := Draw.between 0 maxPayload

/-- A digit, or the greatest payload. -/
def digitOrGreatest : Draw σ Int :=
  Draw.choice [0, 1, 2, 3, 4, 5, 6, 7, 8, 9, maxPayload]

/-- Draws expressions of decreasing depth until the program of one fits. -/
def fitting (value : Draw σ Candidate) (l : Layout) (depth : Nat) : Draw σ Case := do
  let e ← randomExpr value depth
  if Trial.fits e l then return ⟨e.compile, some (Trial.expected e)⟩
  else
    match depth with
    | 0 => Draw.fail (.noFit l)
    | depth + 1 => fitting value l depth

/-- The program of an expression, with its result. Constants go up to `maxValue`; if that is not
given they are digits or the greatest payload. -/
def expression (config : Config) (maxValue : Option Int) : Draw σ Case :=
  let value := match maxValue with
    | some high => Draw.between 0 high
    | none => digitOrGreatest
  let value := Candidate.number <$> value
  if 0 ≤ config.maxDepth then fitting value config.layout config.maxDepth.toNat
  else Draw.fail (.noFit config.layout)

/-! ### Words and instructions -/

/-- As many values of a drawing as asked for. -/
def several {α : Type} (d : Draw σ α) : Nat → Draw σ (List α)
  | 0 => return []
  | n + 1 => do
    let x ← d
    let xs ← several d n
    return x :: xs

/-- Words without any structure. -/
def words (config : Config) : Draw σ Case := do
  let length ← Draw.between 1 config.maxLength
  let ws ← several (Draw.between 0 0xFFFFFFFF) length.toNat
  return ⟨ws, none⟩

/-- A kind of instruction: mostly literals and known operations. -/
def kind : Draw σ InstrKind :=
  Draw.weighted (.literal, 45)
    [(.primitive, 45), (.negative, 4), (.reserved, 3), (.invalid, 3)]

/-- A literal's value, which mostly is a valid jump target and data address. -/
def smallLiteral : Draw σ Int := do
  let r ← Draw.roll
  if chance r (.ofRatio 1 10) then anyLiteral else Draw.between 0 20

/-- The instruction made of a number drawn. Literals and primitives are checked as they are
made. -/
def checked (make : Int → Except CodecError Instr) (d : Draw σ Int) : Draw σ Item := do
  match make (← d) with
  | .ok i => return .instr i
  | .error cause => Draw.fail (.instruction cause)

/-- An instruction of a kind, as it is handed to the assembler. -/
def instruction : InstrKind → Draw σ Item
  | .literal => checked Instr.ofLiteral smallLiteral
  | .primitive => Item.op <$> Draw.choice Opcode.all
  | .negative => checked Instr.ofNegative smallLiteral
  | .reserved => Item.reserved <$> Draw.between 0 (Opcode.count + 2)
  | .invalid => checked Instr.ofOpcodeId (Draw.between Opcode.count maxPayload)

/-- The case of a list of instructions. -/
def assembled (program : List Item) : Draw σ Case :=
  match assembleItems program with
  | .ok words => return ⟨words, none⟩
  | .error cause => Draw.fail (.instruction cause)

/-- Instructions of all kinds, mostly with a final halt. -/
def instructions (config : Config) : Draw σ Case := do
  let count ← Draw.between 1 config.maxInstructions
  let program ← several (do instruction (← kind)) count.toNat
  let r ← Draw.roll
  let ending := if chance r (.ofRatio 1 10) then [] else [Item.op .halt]
  assembled (program ++ ending)

/-- A case of one of the other generators. The marks are sums of the probabilities 0.2, 0.4 and
0.2, rounded as they are added up. -/
def mixed (config : Config) : Draw σ Case := do
  let r ← Draw.roll
  let p := Binary64.ofRatio 2 10
  let q := p.add (.ofRatio 4 10)
  if chance r p then words config
  else if chance r q then instructions config
  else if chance r (q.add p) then expression config none
  else expression config (some maxPayload)

end Generate

/-- The generators that can be asked for. -/
inductive Generator
  | random
  | structured
  | expression
  | mixed
  deriving DecidableEq, Repr

namespace Generator

/-- All generators. -/
def all : List Generator := [random, structured, expression, mixed]

/-- The name of a generator. -/
def name : Generator → String
  | random => "random"
  | structured => "structured"
  | expression => "expression"
  | mixed => "mixed"

/-- The generator of a given name. -/
def ofName? (name : String) : Option Generator := all.find? (·.name == name)

/-- A case of a generator. -/
def draw {σ : Type} [WordSource σ] (config : Config) : Generator → Draw σ Case
  | random => Generate.words config
  | structured => Generate.instructions config
  | expression => Generate.expression config none
  | mixed => Generate.mixed config

end Generator

end TaggedStack
