import TaggedStack.Attempt
import TaggedStack.Fault

/-!
# Actions

An operation can be carried out *in place*: part by part, on something that every part changes at
once. What was changed before a failure stays changed, so the order of the parts decides what a
failed operation leaves behind. An action is such a computation, whatever it works on.

* `Action.attempt`: what an action leaves, and how it ends.
* `Action.demand_bind`, `Action.require_bind`, `Action.check_bind`: what follows a part that may
  fail.
-/

namespace TaggedStack

/-- A computation that changes something at once, and leaves it changed when it fails. -/
abbrev Action (σ : Type) : Type → Type := EStateM Failure σ

namespace Action

variable {σ α β : Type}

/-- Gives up for a failure, if there is one. -/
def demand (x : Except Failure α) : Action σ α :=
  match x with
  | .ok a => pure a
  | .error e => throw e

/-- Gives up for a failure unless a condition holds. -/
def require (c : Prop) [Decidable c] (e : Failure) : Action σ Unit :=
  if c then pure () else throw e

/-- Gives up at an address that a region does not admit. -/
def check (l : Layout) (r : Region) (address : Int) : Action σ Unit :=
  require (l.Admits r address) (l.rejection r address)

/-- What an action leaves, and how it ends. -/
def attempt (p : Action σ α) (s : σ) : Attempt σ Failure α :=
  match p s with
  | .ok a t => .succeed t a
  | .error e t => .fail t e

theorem demand_bind (x : Except Failure α) (f : α → Action σ β) (s : σ) :
    (demand x >>= f) s =
      match x with
      | .ok a => f a s
      | .error e => .error e s := by
  cases x <;> rfl

theorem require_bind (c : Prop) [Decidable c] (e : Failure) (f : Unit → Action σ β) (s : σ) :
    (require c e >>= f) s = if c then f () s else .error e s := by
  show EStateM.bind (if c then (pure () : Action σ Unit) else throw e) f s = _
  split <;> rfl

theorem check_bind (l : Layout) (r : Region) (address : Int) (f : Unit → Action σ β) (s : σ) :
    (check l r address >>= f) s =
      if l.Admits r address then f () s else .error (l.rejection r address) s :=
  require_bind (l.Admits r address) (l.rejection r address) f s

end Action

end TaggedStack
