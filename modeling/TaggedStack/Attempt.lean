/-!
# Attempts

An operation that fails halfway may leave something behind: words already copied into
memory, text already printed, random words already drawn. An `Attempt` keeps both halves
of the answer, what is left afterwards and how it ended, so no failure loses its trace.

* `Attempt.toExcept` forgets what a failed operation left behind.
* `Attempt.mapError` puts the cause of a failure in other words.
* `Attempt.andThen` goes on from what a success has left.
* `Attempt.ofList` reads a list of results up to its first failure: what came before it is
  what is left.
-/

namespace TaggedStack

universe u v w x

/-- Other words for the cause of a failure make no success of it. -/
theorem mapError_eq_ok_iff {ε : Type v} {ε' : Type x} {α : Type w} {f : ε → ε'}
    {a : Except ε α} {y : α} : a.mapError f = .ok y ↔ a = .ok y := by
  cases a with
  | ok z =>
    show (Except.ok z : Except ε' α) = .ok y ↔ _
    rw [Except.ok.injEq, Except.ok.injEq]
  | error e => exact iff_of_false nofun nofun

/-- An operation's ending together with what it leaves behind. -/
structure Attempt (σ : Type u) (ε : Type v) (α : Type w) where
  /-- What there is afterwards, whether or not the operation succeeded. -/
  after : σ
  /-- How the operation ended. -/
  ending : Except ε α

namespace Attempt

variable {σ : Type u} {ε : Type v} {α : Type w}

/-- A success that leaves `after` behind. -/
def succeed (after : σ) (value : α) : Attempt σ ε α := ⟨after, .ok value⟩

/-- A failure that leaves `after` behind. -/
def fail (after : σ) (cause : ε) : Attempt σ ε α := ⟨after, .error cause⟩

/-- What is left by a success; a failure keeps its cause only. -/
def toExcept (a : Attempt σ ε α) : Except ε σ :=
  match a.ending with
  | .ok _ => .ok a.after
  | .error e => .error e

@[simp]
theorem toExcept_succeed (s : σ) (x : α) : (succeed s x : Attempt σ ε α).toExcept = .ok s :=
  rfl

@[simp]
theorem toExcept_fail (s : σ) (e : ε) : (fail s e : Attempt σ ε α).toExcept = .error e :=
  rfl

/-- The same attempt with the cause of a failure in other words. -/
def mapError {ε' : Type x} (f : ε → ε') (a : Attempt σ ε α) : Attempt σ ε' α :=
  ⟨a.after, a.ending.mapError f⟩

theorem ending_mapError_eq_ok_iff {ε' : Type x} {f : ε → ε'} {a : Attempt σ ε α} {y : α} :
    (a.mapError f).ending = .ok y ↔ a.ending = .ok y :=
  mapError_eq_ok_iff

/-- Another attempt from what a success leaves. A failure stays what it is. -/
def andThen (a : Attempt σ ε Unit) (next : σ → Attempt σ ε α) : Attempt σ ε α :=
  match a.ending with
  | .ok () => next a.after
  | .error e => .fail a.after e

theorem andThen_of_ok {a : Attempt σ ε Unit} (h : a.ending = .ok ())
    (next : σ → Attempt σ ε α) : a.andThen next = next a.after := by
  rw [andThen, h]

/-- Two attempts in a row go through if each of them does. -/
theorem ending_andThen_eq_ok_iff {a : Attempt σ ε Unit} {next : σ → Attempt σ ε α} {x : α} :
    (a.andThen next).ending = .ok x ↔ a.ending = .ok () ∧ (next a.after).ending = .ok x := by
  rw [andThen]
  split
  · next h => simp [h]
  · next e h => simp [h, fail]

/-- The results of a list before its first failure, and that failure. -/
def ofList : List (Except ε α) → Attempt (List α) ε Unit
  | [] => succeed [] ()
  | .ok x :: rest =>
    let later := ofList rest
    ⟨x :: later.after, later.ending⟩
  | .error e :: _ => fail [] e

/-- A list without failures is read to its end. -/
@[simp]
theorem ofList_map_ok (xs : List α) :
    ofList (xs.map (Except.ok : α → Except ε α)) = succeed xs () := by
  induction xs with
  | nil => rfl
  | cons x xs ih => simp [ofList, ih, succeed]

/-- A list is read to its end if there is no failure in it. -/
theorem ending_ofList_eq_ok_iff {xs : List (Except ε α)} :
    (ofList xs).ending = .ok () ↔ ∀ x ∈ xs, ∃ a, x = .ok a := by
  induction xs with
  | nil => simp [ofList, succeed]
  | cons x xs ih =>
    rw [List.forall_mem_cons, ← ih]
    cases x with
    | ok a => simp [ofList]
    | error e => simp [ofList, fail]

end Attempt

end TaggedStack
