import Mathlib.Data.List.Induction
import Mathlib.Logic.ExistsUnique
import TaggedStack.Proofs.Actions
import TaggedStack.Proofs.Regions
import TaggedStack.Stack

/-!
# Memory remembers what was last written

The regions of a layout share no address, and between them they have all addresses of memory; only
address `0` belongs to a region without being admitted there. So an access that goes through means
one word, whichever region it names, and for every address there is at most one region that it can
be made through.

Whatever was asked before, an access that goes through finds the word that the last write to its
address put there, or the word the memory was given. The writes that count are those that went
through, as the log of the accesses tells (`Memory.lastWritten?`). An access can also be carried out
in place (`Memory.Access.perform`): a write looks at its value, then at its address, and only then
changes the memory, so that one that is refused has changed nothing.

* `Layout.existsUnique_admits_iff`, `Layout.regionOf_eq_some_iff`: the addresses of the regions.
* `Layout.check_eq_ite`: for what a layout refuses an address.
* `Memory.serve_eq_ask`: an access carried out in place is the operation of the same name.
* `Memory.ask_cases`: what an access can do.
* `Memory.getElem?_words_askAll`: every word after one access after another.
* `Memory.remembers_last_writes`: what accesses answer, whatever was asked before.
* `Memory.refusal_without_address`: an address with too many digits is refused, but not named.
-/

namespace TaggedStack

/-! ### The addresses of the regions -/

namespace Layout

variable {l : Layout} {r : Region} {address : Int}

/-- An address lies in the region whose bounds it is between. -/
theorem regionOf_eq_some_iff :
    l.regionOf address = some r ↔ (l.bounds r).1 ≤ address ∧ address < (l.bounds r).2 := by
  have hlt := l.stackLimit_lt
  have hle := l.dataBase_le
  rw [regionOf_eq]
  cases r <;> grind [bounds]

theorem regionOf_eq_none_iff :
    l.regionOf address = none ↔ ¬(0 ≤ address ∧ address < l.memSize) := by
  have hlt := l.stackLimit_lt
  have hle := l.dataBase_le
  rw [regionOf_eq]
  grind

/-- A layout refuses an address for its region, or for its digits if they are too many. -/
theorem check_eq_ite (r : Region) (address : Int) :
    l.check r address =
      if l.Admits r address then .ok ()
      else if Text.isWritable address then .error (.outOfBounds r address)
      else .error (.digits ⟨⟩) := by
  rw [check, Failure.ofFault_outOfBounds]
  refine ite_congr rfl (fun _ ↦ rfl) fun _ ↦ ?_
  exact apply_ite Except.error _ _ _

/-- There is one region to reach an address through, unless it is `0` or outside memory. -/
theorem existsUnique_admits_iff :
    (∃! r, l.Admits r address) ↔ 1 ≤ address ∧ address < l.memSize := by
  have hexists := l.exists_admits_iff address
  constructor
  · rintro ⟨r, hr, -⟩
    exact hexists.1 ⟨r, hr⟩
  · intro h
    obtain ⟨r, hr⟩ := hexists.2 h
    exact ⟨r, hr, fun r' hr' ↦ admits_unique hr' hr⟩

end Layout

namespace Memory

variable {m : Memory}

/-! ### Accesses -/

/-- What a memory can be asked for. -/
inductive Access
  | read (r : Region) (address : Int)
  | write (r : Region) (address value : Int)
  deriving DecidableEq, Repr

/-- The memory after an access, and its answer: the word for a read, nothing for a write. -/
def ask (m : Memory) : Access → Attempt Memory Failure (Option Int)
  | .read r address => ⟨m, (m.read r address).map some⟩
  | .write r address value =>
    match m.write r address value with
    | .ok m' => .succeed m' none
    | .error e => .fail m e

/-! ### Accesses in place -/

/-- The parts of an access, in their order. -/
def Access.perform : Access → Action Memory (Option Int)
  | .read r address => do
    let m ← getThe Memory
    Action.check m.layout r address
    return some (m.get address)
  | .write r address value => do
    Action.require (IsWord value) (.wordRange value)
    let m ← getThe Memory
    Action.check m.layout r address
    modify fun m ↦ m.set address value
    return none

/-- The memory after an access in place, and its answer. -/
def serve (m : Memory) (a : Access) : Attempt Memory Failure (Option Int) := a.perform.attempt m

/-- A read in place looks at the address first. -/
theorem perform_read (m : Memory) (r : Region) (address : Int) :
    (Access.read r address).perform m =
      if m.layout.Admits r address then .ok (some (m.get address)) m
      else .error (m.layout.rejection r address) m := by
  have hparts : (Access.read r address).perform m =
    (Action.check m.layout r address >>= _ : Action Memory (Option Int)) m := rfl
  rw [hparts, Action.check_bind]
  rfl

/-- A write in place looks at the value, then at the address, and then changes the memory. -/
theorem perform_write (m : Memory) (r : Region) (address value : Int) :
    (Access.write r address value).perform m =
      if IsWord value then
        if m.layout.Admits r address then .ok none (m.set address value)
        else .error (m.layout.rejection r address) m
      else .error (.wordRange value) m := by
  have hparts : (Access.write r address value).perform m =
    (Action.require (IsWord value) (.wordRange value) >>= _ : Action Memory (Option Int)) m := rfl
  rw [hparts, Action.require_bind]
  refine ite_congr rfl (fun _ ↦ ?_) fun _ ↦ rfl
  show (Action.check m.layout r address >>= _ : Action Memory (Option Int)) m = _
  rw [Action.check_bind]
  rfl

/-- **An access carried out in place is the operation of the same name,** and leaves the memory
alone if it is refused. -/
theorem serve_eq_ask (m : Memory) (a : Access) : m.serve a = m.ask a := by
  cases a with
  | read r address =>
    rw [serve, Action.attempt, perform_read, ask, read]
    by_cases hadmits : m.layout.Admits r address
    · rw [if_pos hadmits, if_pos hadmits]
      rfl
    · rw [if_neg hadmits, if_neg hadmits]
      rfl
  | write r address value =>
    rw [serve, Action.attempt, perform_write, ask, write_eq_ite]
    by_cases hvalue : IsWord value
    · rw [if_pos hvalue, if_neg (not_not_intro hvalue)]
      by_cases hadmits : m.layout.Admits r address
      · rw [if_pos hadmits, if_neg (not_not_intro hadmits)]
      · rw [if_neg hadmits, if_pos hadmits]
    · rw [if_neg hvalue, if_pos hvalue]

/-! ### What an access does -/

/-- An access, and how it ended. -/
abbrev Entry : Type := Access × Except Failure (Option Int)

/-- What was written at an address, if the entry is of a write there that went through. -/
def written? (address : Int) : Entry → Option Int
  | (.write _ a value, .ok _) => if a = address then some value else none
  | _ => none

/-- An access writes nothing and leaves the memory alone, or it is a write that goes through. -/
theorem ask_cases (m : Memory) (a : Access) :
    ((m.ask a).after = m ∧ ∀ address, written? address (a, (m.ask a).ending) = none) ∨
      ∃ r address value, a = .write r address value ∧ m.layout.Admits r address ∧
        m.ask a = .succeed (m.set address value) none := by
  cases a with
  | read r address => exact .inl ⟨rfl, fun _ ↦ rfl⟩
  | write r address value =>
    rw [ask]
    cases hwrite : m.write r address value with
    | ok m' =>
      obtain ⟨-, hadmits, rfl⟩ := write_eq_ok_iff.1 hwrite
      exact .inr ⟨r, address, value, rfl, hadmits, rfl⟩
    | error e => exact .inl ⟨rfl, fun _ ↦ rfl⟩

/-- A refused access leaves the memory alone. -/
theorem after_ask_of_error {a : Access} {e : Failure} (h : (m.ask a).ending = .error e) :
    (m.ask a).after = m := by
  rcases m.ask_cases a with ⟨hafter, -⟩ | ⟨r, address, value, -, -, hask⟩
  · exact hafter
  · rw [hask] at h
    cases h

theorem layout_ask (m : Memory) (a : Access) : (m.ask a).after.layout = m.layout := by
  rcases m.ask_cases a with ⟨hafter, -⟩ | ⟨r, address, value, -, -, hask⟩
  · rw [hafter]
  · rw [hask]
    rfl

/-- Every word after an access: what the access wrote there, or the word before. -/
theorem getElem?_words_ask (m : Memory) (a : Access) (i : Nat) :
    (m.ask a).after.words[i]? =
      m.words[i]?.map fun w ↦ (written? i (a, (m.ask a).ending)).getD w := by
  rcases m.ask_cases a with ⟨hafter, hnone⟩ | ⟨r, address, value, rfl, hadmits, hask⟩
  · rw [hafter, hnone]
    exact Option.map_id'.symm
  · rw [hask]
    show (m.set address value).words[i]? =
      m.words[i]?.map fun w ↦ (if address = i then some value else none).getD w
    rw [getElem?_words_set hadmits]
    by_cases hi : (i : Int) = address
    · -- The address is admitted, so there is a word to be replaced.
      obtain ⟨-, w, hw⟩ := exists_word_of_admits hadmits
      rw [← hi, Int.toNat_natCast] at hw
      rw [if_pos hi, if_pos hi.symm, hw]
      rfl
    · rw [if_neg hi, if_neg (Ne.symm hi)]
      exact Option.map_id'.symm

/-! ### One access after another -/

/-- The memory after one access after another. -/
def askAll (m : Memory) (accesses : List Access) : Memory :=
  accesses.foldl (fun m a ↦ (m.ask a).after) m

/-- The log of one access after another. -/
def log (m : Memory) : List Access → List Entry
  | [] => []
  | a :: rest => (a, (m.ask a).ending) :: (m.ask a).after.log rest

/-- What was last written at an address, if anything was. -/
def lastWritten? (address : Int) (log : List Entry) : Option Int :=
  log.reverse.findSome? (written? address)

theorem askAll_concat (m : Memory) (past : List Access) (a : Access) :
    m.askAll (past ++ [a]) = ((m.askAll past).ask a).after := by
  rw [askAll, List.foldl_append]
  rfl

theorem log_concat (m : Memory) (past : List Access) (a : Access) :
    m.log (past ++ [a]) = m.log past ++ [(a, ((m.askAll past).ask a).ending)] := by
  induction past generalizing m with
  | nil => rfl
  | cons b past ih =>
    rw [List.cons_append, log, ih]
    rfl

theorem lastWritten?_concat (address : Int) (log : List Entry) (entry : Entry) :
    lastWritten? address (log ++ [entry]) =
      (written? address entry).or (lastWritten? address log) := by
  rw [lastWritten?, List.reverse_append, List.reverse_singleton, List.singleton_append,
    List.findSome?_cons]
  cases written? address entry <;> rfl

theorem layout_askAll (m : Memory) (past : List Access) :
    (m.askAll past).layout = m.layout := by
  induction past using List.reverseRecOn with
  | nil => rfl
  | append_singleton past a ih => rw [askAll_concat, layout_ask, ih]

/-- **Every word after one access after another:** what was last written there, or the first
word. -/
theorem getElem?_words_askAll (m : Memory) (past : List Access) (i : Nat) :
    (m.askAll past).words[i]? =
      m.words[i]?.map fun w ↦ (lastWritten? i (m.log past)).getD w := by
  induction past using List.reverseRecOn with
  | nil => exact Option.map_id'.symm
  | append_singleton past a ih =>
    rw [askAll_concat, getElem?_words_ask, ih, Option.map_map, log_concat,
      lastWritten?_concat]
    -- What the last access wrote hides all that was written before.
    refine congrArg (Option.map · m.words[i]?) (funext fun w ↦ ?_)
    exact (Option.getD_or ..).symm

theorem get_askAll {r : Region} {address : Int} (h : m.layout.Admits r address)
    (past : List Access) :
    (m.askAll past).get address =
      (lastWritten? address (m.log past)).getD (m.get address) := by
  obtain ⟨hpos, w, hw⟩ := exists_word_of_admits h
  have hindex : ((address.toNat : Nat) : Int) = address := Int.toNat_of_nonneg (Int.le_of_lt hpos)
  have hword := m.getElem?_words_askAll past address.toNat
  rw [hindex, hw] at hword
  rw [get, get, Array.getD_eq_getD_getElem?, Array.getD_eq_getD_getElem?, hword, hw]
  rfl

theorem read_askAll (m : Memory) (past : List Access) (r : Region) (address : Int) :
    (m.askAll past).read r address =
      if m.layout.Admits r address then
        .ok ((lastWritten? address (m.log past)).getD (m.get address))
      else .error (m.layout.rejection r address) := by
  rw [read, layout_askAll]
  by_cases hadmits : m.layout.Admits r address
  · rw [if_pos hadmits, if_pos hadmits, get_askAll hadmits]
  · rw [if_neg hadmits, if_neg hadmits]

/-- **Memory remembers what was last written.** In every layout an address is admitted for one
region at most, for one exactly if it is in memory and not `0`, and this is the region it lies in.
Whatever was asked of a memory before, a read that goes through gives what was last written at its
address by a write that went through, or else the first word there. Accesses are refused for values
that are no machine words, and otherwise for their address: as being outside the region if the
address can be written, and else for its digits. The last is said of memories whose own addresses
can be written, which are all whose size is an index. Refused accesses leave the memory alone, also
when they are carried out in place. -/
theorem remembers_last_writes (l : Layout) (address : Int) (m : Memory) (past : List Access) :
    ((∀ r, l.check r address =
      if l.Admits r address then .ok ()
      else if Text.isWritable address then .error (.outOfBounds r address)
      else .error (.digits ⟨⟩)) ∧
      (∀ r r', l.Admits r address → l.Admits r' address → r = r') ∧
      ((∃! r, l.Admits r address) ↔ 1 ≤ address ∧ address < l.memSize) ∧
      (∀ r, l.Admits r address → l.regionOf address = some r) ∧
      (∀ r, l.regionOf address = some r ↔
        (l.bounds r).1 ≤ address ∧ address < (l.bounds r).2) ∧
      l.regionOf 0 = some .stack ∧
      (l.regionOf address = none ↔ ¬(0 ≤ address ∧ address < l.memSize))) ∧
      let now := m.askAll past
      (∀ r, now.read r address =
        if m.layout.Admits r address then
          .ok ((lastWritten? address (m.log past)).getD (m.get address))
        else .error (m.layout.rejection r address)) ∧
        (∀ r value, now.write r address value =
          if ¬IsWord value then .error (.wordRange value)
          else if ¬m.layout.Admits r address then .error (m.layout.rejection r address)
          else .ok (now.set address value)) ∧
        (∀ a, now.serve a = now.ask a ∧
          ∀ e, (now.serve a).ending = .error e → (now.serve a).after = now) ∧
        (0x100000000 + m.layout.memSize ≤ Text.writableLimit →
          ∀ r, m.layout.rejection r address =
            if Text.isWritable address then .outOfBounds r address else .digits ⟨⟩) := by
  refine ⟨⟨fun r ↦ Layout.check_eq_ite r address, fun r r' ↦ Layout.admits_unique,
    Layout.existsUnique_admits_iff, fun r h ↦ h.2, fun r ↦ Layout.regionOf_eq_some_iff, ?_,
    Layout.regionOf_eq_none_iff⟩, fun r ↦ m.read_askAll past r address, fun r value ↦ ?_,
    fun a ↦ ?_, fun hsize r ↦ Layout.rejection_eq_ite hsize r address⟩
  · exact Layout.regionOf_eq_some_iff.2 ⟨Int.le_refl 0, Int.natCast_pos.2 l.stackLimit_pos⟩
  · rw [write_eq_ite, layout_askAll]
  · rw [serve_eq_ask]
    exact ⟨rfl, fun e ↦ after_ask_of_error⟩

/-- A memory of three words without program data. Of four writes one goes through; the others are
no machine word, an address of another region, and an address before memory. Its own addresses can
be written, so one that is refused and can be written is refused for its region. -/
theorem remembers_last_writes_refused :
    let m : Memory := ⟨⟨3, 2, 3, by decide, by decide, by decide⟩, #[5, 6, 7], rfl⟩
    let past : List Access :=
      [.write .stack 1 8, .write .stack 1 (-1), .write .data 1 9, .write .instruction (-1) 4]
    let now := m.askAll past
    now.read .stack 1 = .ok 8 ∧ now.read .instruction 2 = .ok 7 ∧
      now.write .data 3 (-1) = .error (.wordRange (-1)) ∧
      (now.serve (.write .data 3 (-1))).ending = .error (.wordRange (-1)) ∧
      (now.serve (.write .data 3 (-1))).after = now ∧
      m.layout.rejection .data 3 = .outOfBounds .data 3 := by
  intro m past now
  obtain ⟨-, hread, -, -, -⟩ := remembers_last_writes m.layout 1 m past
  obtain ⟨-, hread', -, -, -⟩ := remembers_last_writes m.layout 2 m past
  obtain ⟨-, -, hwrite, hplace, hrejects⟩ := remembers_last_writes m.layout 3 m past
  have hrefused : (now.serve (.write .data 3 (-1))).ending = .error (.wordRange (-1)) := rfl
  exact ⟨(hread .stack).trans rfl, (hread' .instruction).trans rfl,
    (hwrite .data (-1)).trans rfl, hrefused, (hplace _).2 _ hrefused,
    (hrejects (by decide) .data).trans (if_pos (Text.isWritable_of_lt (by decide)))⟩

/-- The least number with too many digits is an address of no region, but nothing says so: layout
and memory refuse it for its digits, and so does a stack whose pointer is one below. -/
theorem refusal_without_address :
    let l : Layout := ⟨6, 3, 4, by decide, by decide, by decide⟩
    let address : Int := Text.writableLimit
    ¬l.Admits .stack address ∧
      l.check .stack address = .error (.digits ⟨⟩) ∧
      (blank l).read .stack address = .error (.digits ⟨⟩) ∧
      (blank l).write .stack address 0 = .error (.digits ⟨⟩) ∧
      (Stack.push ⟨blank l, address - 1⟩ 0).ending = .error (.digits ⟨⟩) ∧
      (blank l).read .stack address ≠ .error (.outOfBounds .stack address) := by
  intro l address
  have hread : (blank l).read .stack address = .error (.digits ⟨⟩) := rfl
  refine ⟨by decide, rfl, hread, rfl, rfl, ?_⟩
  rw [hread]
  exact nofun

end Memory

end TaggedStack
