import TaggedStack.Binary64
import TaggedStack.Expr
import TaggedStack.Layout
import TaggedStack.Random.Source

/-!
# Drawing

Numbers and choices drawn from a source of words. A number below a bound is drawn by
rejection: as many bits as the bound has, again until they are below it. How often is limited
by an explicit number of attempts, so drawing always ends; running out of attempts is an error
of its own, told apart from all others.

A failed drawing keeps the words it used: whoever draws next goes on after them.

* `Draw.below`, `Draw.between`: a number of a range.
* `Draw.roll`: a number from zero to one, to be compared with a probability.
* `Draw.choice`, `Draw.weighted`: one of several things.
-/

namespace TaggedStack

/-- Why drawing gave nothing. -/
inductive DrawError
  /-- There is no number from `low` to `high`. -/
  | emptyRange (low high : Int)
  /-- There is nothing to choose from. -/
  | emptyChoice
  /-- What was drawn is no constant of an expression. -/
  | constant (cause : ConstError)
  /-- What was drawn is no instruction. -/
  | instruction (cause : CodecError)
  /-- No expression is small enough for the layout. -/
  | noFit (layout : Layout)
  /-- All attempts were rejected. -/
  | exhausted
  deriving DecidableEq

/-- The wording of a drawing error. -/
def DrawError.message : DrawError → String
  | emptyRange low high =>
    Text.worded [low, high + 1, high + 1 - low]
      s!"empty range for randrange() ({low}, {high + 1}, {high + 1 - low})"
  | emptyChoice => "Cannot choose from an empty sequence"
  | constant cause => cause.message
  | instruction cause => cause.message
  | noFit layout =>
    Text.worded layout.numbers s!"No expression program fits {layout.text}"
  | exhausted => "No attempt left"

/-- Drawings: given how many attempts each number may take, they change the source's state and
end in a value or an error. -/
abbrev Draw (σ : Type) : Type → Type := ReaderT Nat (ExceptT DrawError (StateM σ))

namespace Draw

variable {σ : Type}

/-- What a drawing gives and the state of the source after it. -/
def perform {α : Type} (d : Draw σ α) (attempts : Nat) (source : σ) :
    Except DrawError α × σ :=
  (d.run attempts).run.run source

/-- The drawing that fails. -/
def fail {α : Type} (e : DrawError) : Draw σ α := throw e

variable [WordSource σ]

/-- The next word. -/
def word : Draw σ Nat := do
  let (w, source) := WordSource.next (← get)
  set source
  return w.toNat

/-- A number of `n` whole words, the least significant first, and `k` bits of one more. -/
def wordsAndBits : (n k : Nat) → Draw σ Nat
  | 0, k => do
    let w ← word
    return w >>> (32 - k)
  | n + 1, k => do
    let low ← word
    let high ← wordsAndBits n k
    return low + high * 0x100000000

/-- A number of `k` bits: words from the least significant up, the last one shortened. -/
def bits (k : Nat) : Draw σ Nat :=
  let whole := (k - 1) / 32
  wordsAndBits whole (k - 32 * whole)

/-- The number of bits of a number. -/
def bitLength (n : Nat) : Nat := if n = 0 then 0 else n.log2 + 1

/-- Draws numbers of `k` bits until one is below `n`. -/
def rejecting (n k : Nat) : (attempts : Nat) → Draw σ Nat
  | 0 => fail .exhausted
  | attempts + 1 => do
    let r ← bits k
    if r < n then return r else rejecting n k attempts

/-- A number below a bound. -/
def below (n : Nat) : Draw σ Nat := do rejecting n (bitLength n) (← read)

/-- A number from `low` to `high`; no word is drawn if there is none. -/
def between (low high : Int) : Draw σ Int :=
  if low ≤ high then do
    let r ← below (high - low + 1).toNat
    return low + r
  else fail (.emptyRange low high)

/-- One of several things. -/
def choice {α : Type} (xs : List α) : Draw σ α := do
  if xs.isEmpty then fail .emptyChoice
  else
    let i ← below xs.length
    match xs[i]? with
    | some x => return x
    | none => fail .emptyChoice

/-- A multiple of `2 ^ -53` from zero to one, one excluded. -/
def roll : Draw σ Binary64 := do
  let a ← word
  let b ← word
  return .finite false (a / 32 * 0x4000000 + b / 64) (-53)

/-- The first thing whose weights so far exceed a mark; the last one if none does. -/
def pick {α : Type} (mark : Binary64) (total : Nat) (last : α) : List (α × Nat) → α
  | [] => last
  | [(x, _)] => x
  | (x, weight) :: rest =>
    if mark.atLeast (total + weight) then pick mark (total + weight) last rest else x

/-- One of several things, each as likely as its weight. -/
def weighted {α : Type} (first : α × Nat) (rest : List (α × Nat)) : Draw σ α := do
  let r ← roll
  let total := (first :: rest).foldl (fun sum x ↦ sum + x.2) 0
  return pick (r.mulNat total) 0 first.1 (first :: rest)

end Draw

end TaggedStack
