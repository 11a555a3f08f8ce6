import TaggedStack.Cli.Session
import TaggedStack.Proofs.Budget
import TaggedStack.Proofs.HexGrammar
import TaggedStack.Proofs.WireFormat

/-!
# What an exit status tells

A session that runs a file can end for many reasons, and its exit status sorts them: `2` when there
was nothing to run, `1` when the run faulted, `0` when it halted. The same fault means `2` while a
program is loaded and `1` while it runs; since the words of a file are machine words, loading fails
for the length of the program only, so the two are told apart by the length.

The session runs a machine that keeps a journal, and the run it is compared with keeps none. The two
machines are paired, so they stop for the same reason and print the same.

Memory is taken before the program is looked at. Where it cannot be had the session breaks down, and
then even a program that is too long gets no exit status. It is never had for a number of words that
is no index; for any other number the host decides, so its answer is a part of the world.

* `ProgramFile.isWord_of_read`: the words of a file are machine words.
* `Cli.Task.Runs`, `Cli.Task.Unrunnable`: what a session has to run, and why it has nothing.
* `Cli.Session.ending_of_unrunnable`, `Cli.Session.ending_of_lack`, `Cli.Session.ending_of_runs`:
  the ways in which a session can end.
* `Cli.Session.exit_status_tells`: the exit statuses.
-/

namespace TaggedStack

/-! ### Runs that stop -/

namespace Machine

variable {m : Machine}

/-- A run that does not go on forever halts or faults in some cycle. -/
theorem exists_stopsIn {l : Layout} {cycles : Nat} (hreachable : State.Reachable l cycles m.state)
    (hrunning : m.state.running = true) (h : ¬m.NeverStops) :
    ∃ k outcome last, m.StopsIn k outcome last ∧ outcome ≠ .unfinished := by
  rcases m.goesOn_or_exists_first with hall | ⟨n, hgoes, hstop⟩
  · exact absurd (neverStops_of_goesOn hrunning hall) h
  · obtain ⟨cycles', hlast⟩ := reachable_afterCycles hreachable n
    obtain ⟨outcome, last, hstops, hreports⟩ :=
      Trial.exists_last_cycle hlast hrunning hgoes hstop
    refine ⟨n + 1, outcome, last, hstops, ?_⟩
    rintro rfl
    exact hreports (n + 1 : Nat) (Int.le_refl _)

end Machine

/-! ### Files -/

/-- The words of a file are machine words, whatever its format. -/
theorem ProgramFile.isWord_of_decode {hex : Bool} {bytes : List UInt8} {words : List Int}
    (h : decode hex bytes = .ok words) : ∀ w ∈ words, IsWord w := by
  unfold decode at h
  split at h
  · split at h
    · exact HexText.isWord_of_mem_parse (mapError_eq_ok_iff.1 h)
    · cases h
  · have hread := mapError_eq_ok_iff.1 h
    unfold Wire.read at hread
    split at hread
    · cases hread
      exact fun w hw ↦ Wire.isWord_of_mem_groups hw
    · cases hread

theorem ProgramFile.isWord_of_read {path : String} {found : Except Obstacle (List UInt8)}
    {words : List Int} (h : read path found = .ok words) : ∀ w ∈ words, IsWord w := by
  unfold read at h
  split at h
  · cases h
  · split at h
    · exact isWord_of_decode h
    · cases h

namespace Cli

/-! ### Tasks -/

/-- What a session that runs a file is given: the cuts of a layout, and what the file holds. -/
structure Task where
  memSize : Int
  stackLimit : Int
  dataBase : Int
  content : Except ProgramFile.ReadError (List Int)

namespace Task

variable {t : Task} {l : Layout} {words : List Int}

/-- The layout the cuts make, if they are in order. -/
def layout (t : Task) : Except LayoutError Layout :=
  Layout.ofBounds t.memSize t.stackLimit t.dataBase

/-- What there is to run. -/
structure Runs (t : Task) (l : Layout) (words : List Int) : Prop where
  layout_eq : t.layout = .ok l
  content_eq : t.content = .ok words
  length_le : words.length ≤ l.instructionCapacity

/-- There is nothing to run: the cuts are not in order, the file has no words, or it has more words
than there are instructions between the cuts. -/
inductive Unrunnable (t : Task) : Prop
  | layout (h : ¬(0 < t.stackLimit ∧ t.stackLimit < t.dataBase ∧ t.dataBase ≤ t.memSize))
  | content {e : ProgramFile.ReadError} (h : t.content = .error e)
  | length {words : List Int} (h : t.content = .ok words)
      (hlong : t.dataBase - t.stackLimit < words.length)

/-- Where memory is asked for, it can be had: its size is an index, and the host provides it. -/
def HasRoom (t : Task) (world : World) : Prop :=
  ∀ l words, t.layout = .ok l → t.content = .ok words →
    l.memSize < Layout.indexLimit ∧ world.provides l.memSize = true

theorem HasRoom.lack?_eq_none {world : World} (h : t.HasRoom world) (hlayout : t.layout = .ok l)
    (hcontent : t.content = .ok words) : l.lack? world.provides = none :=
  Layout.lack?_eq_none_iff.2 (h l words hlayout hcontent)

theorem layout_eq_ok_iff : t.layout = .ok l ↔
    (0 < t.stackLimit ∧ t.stackLimit < t.dataBase ∧ t.dataBase ≤ t.memSize) ∧
      (l.memSize : Int) = t.memSize ∧ (l.stackLimit : Int) = t.stackLimit ∧
        (l.dataBase : Int) = t.dataBase := by
  obtain ⟨memSize, stackLimit, dataBase, hpos, hlt, hle⟩ := l
  unfold layout Layout.ofBounds
  split
  · simp only [Except.ok.injEq, Layout.mk.injEq]
    omega
  · next h => simp [h]

/-- As many instructions fit as there are words between the cuts. -/
theorem instructionCapacity_eq (h : t.layout = .ok l) :
    (l.instructionCapacity : Int) = t.dataBase - t.stackLimit := by
  obtain ⟨hcuts, -, hstack, hdata⟩ := layout_eq_ok_iff.1 h
  unfold Layout.instructionCapacity
  omega

/-- There is something to run, or there is nothing. -/
theorem runs_or_unrunnable (t : Task) : (∃ l words, t.Runs l words) ∨ t.Unrunnable := by
  cases hlayout : t.layout with
  | error e =>
    right
    refine .layout fun h ↦ ?_
    unfold layout Layout.ofBounds at hlayout
    rw [dif_pos h] at hlayout
    cases hlayout
  | ok l =>
    cases hcontent : t.content with
    | error e => exact Or.inr (.content hcontent)
    | ok words =>
      have hcapacity := instructionCapacity_eq hlayout
      by_cases hlength : words.length ≤ l.instructionCapacity
      · exact Or.inl ⟨l, words, hlayout, hcontent, hlength⟩
      · exact Or.inr (.length hcontent (by omega))

theorem Runs.not_unrunnable (h : t.Runs l words) : ¬t.Unrunnable := by
  rintro (hcuts | hcontent | ⟨hcontent, hlong⟩)
  · exact hcuts (layout_eq_ok_iff.1 h.layout_eq).1
  · rw [h.content_eq] at hcontent
    cases hcontent
  · rw [h.content_eq] at hcontent
    cases hcontent
    have hcapacity := instructionCapacity_eq h.layout_eq
    have hle := h.length_le
    omega

theorem Runs.unique {l' : Layout} {words' : List Int} (h : t.Runs l words)
    (h' : t.Runs l' words') : l' = l ∧ words' = words :=
  ⟨Except.ok.inj (h'.layout_eq.symm.trans h.layout_eq),
    Except.ok.inj (h'.content_eq.symm.trans h.content_eq)⟩

end Task

namespace Session

variable {world : World} {args : List String} {t : Task} {l : Layout} {words : List Int}

/-- A command line that asks for a file to be run, with numbers for the cuts of the layout. -/
def Asks (world : World) (args : List String) (t : Task) : Prop :=
  ∃ settings path, Invocation.parse args = .ok ⟨settings, .run path⟩ ∧
    settings.memSize = .number t.memSize ∧ settings.stackLimit = .number t.stackLimit ∧
    settings.dataBase = .number t.dataBase ∧
    t.content = ProgramFile.read path (world.lookUp path)

/-- A machine with a program and an empty stream, ready to run. -/
def started (l : Layout) (words : List Int) : Machine :=
  ((Machine.fresh l .emptyStream .silent).load words).after

/-! ### How a session ends -/

/-- The session of a command line that asks for a file to be run. -/
theorem exists_ending_eq (h : Asks world args t) : ∃ j, ∀ fuel,
    ending world fuel args =
      match t.layout, t.content with
      | .error e, _ => some (.answer (rejected j e.message))
      | .ok _, .error e => some (.answer (rejected j e.message))
      | .ok l, .ok words =>
        match ready world j l words with
        | .ok m => (conclude (m.run fuel)).map .answer
        | .error e => some e := by
  obtain ⟨⟨debug, quiet, _, _, _⟩, path, hparse, rfl, rfl, rfl, hcontent⟩ := h
  refine ⟨journal world ⟨debug, quiet, t.memSize, t.stackLimit, t.dataBase⟩, fun fuel ↦ ?_⟩
  rw [ending, hparse, hcontent]
  simp only [prepare, Layout.ofQuantities, program, Task.layout]
  cases Layout.ofBounds t.memSize t.stackLimit t.dataBase with
  | error e => rfl
  | ok l => cases ProgramFile.read path (world.lookUp path) <;> rfl

/-- What a file holds are machine words. -/
theorem Asks.isWord_of_mem (h : Asks world args t) (hcontent : t.content = .ok words) :
    ∀ w ∈ words, IsWord w := by
  obtain ⟨_, path, -, -, -, -, hread⟩ := h
  exact ProgramFile.isWord_of_read (hread.symm.trans hcontent)

/-- Loading machine words only fails when there are too many of them. -/
theorem ending_load_of_isWord (hwords : ∀ w ∈ words, IsWord w) (l : Layout) (sink : Sink)
    (j : Journal) :
    ((Machine.fresh l sink j).load words).ending =
      if words.length ≤ l.instructionCapacity then .ok words.length
      else .error (.outOfBounds .instruction l.dataBase) := by
  rw [Machine.ending_load, Memory.load_eq]
  show Except.map _ (Memory.acceptance l l.instructionCapacity words) = _
  rw [Memory.acceptance_of_isWord l hwords]
  split <;> rfl

/-- A program for which there is room is loaded to a machine that differs from another in its
journal only. -/
theorem exists_loaded_of_le (hwords : ∀ w ∈ words, IsWord w)
    (hle : words.length ≤ l.instructionCapacity) (j : Journal) :
    ∃ m, loaded j l words = .ok m ∧ Machine.Paired (· = ·) (started l words) m := by
  refine ⟨((Machine.fresh l .emptyStream j).load words).after.record (.starting words.length l),
    ?_, ?_, ?_⟩
  · rw [loaded, ending_load_of_isWord hwords, if_pos hle]
  · rw [started, Machine.state_record, Machine.state_after_load, Machine.state_after_load]
    rfl
  · rw [started, Machine.sink_record, Machine.sink_after_load, Machine.sink_after_load]
    rfl

/-- A program for which there is no room is turned down. -/
theorem exists_loaded_of_lt (hwords : ∀ w ∈ words, IsWord w)
    (hlt : l.instructionCapacity < words.length) (j : Journal) :
    ∃ stderr, loaded j l words = .error { exit := 2, stderr := stderr } := by
  rw [loaded, ending_load_of_isWord hwords, if_neg (Nat.not_le.2 hlt)]
  exact ⟨_, rfl⟩

/-- Without room for a memory the session breaks down, whatever the program. What is lacking is an
index, or else the memory. -/
theorem ending_of_lack (h : Asks world args t) (hroom : ¬t.HasRoom world) (fuel : Nat) :
    ending world fuel args = some (.breakdown (.room
      (if (Layout.indexLimit : Int) ≤ t.memSize then .unindexable else .exhausted))) := by
  obtain ⟨j, hending⟩ := exists_ending_eq h
  rw [Task.HasRoom] at hroom
  push Not at hroom
  obtain ⟨l, words, hlayout, hcontent, hnot⟩ := hroom
  have hlack := Layout.lack?_of_not fun hboth ↦ hnot hboth.1 hboth.2
  obtain ⟨-, hsize, -, -⟩ := Task.layout_eq_ok_iff.1 hlayout
  rw [hending, hlayout, hcontent, ← hsize]
  simp only [ready, hlack, Int.ofNat_le]

/-- Where there is nothing to run the session says so, and prints nothing else. -/
theorem ending_of_unrunnable (h : Asks world args t) (hroom : t.HasRoom world)
    (hun : t.Unrunnable) :
    ∃ stderr, ∀ fuel, ending world fuel args = some (.answer { exit := 2, stderr := stderr }) := by
  obtain ⟨j, hending⟩ := exists_ending_eq h
  cases hlayout : t.layout with
  | error e => exact ⟨_, fun fuel ↦ by rw [hending, hlayout]; rfl⟩
  | ok l =>
    cases hcontent : t.content with
    | error e => exact ⟨_, fun fuel ↦ by rw [hending, hlayout, hcontent]; rfl⟩
    | ok words =>
      have hlong : l.instructionCapacity < words.length := Nat.lt_of_not_le fun hle ↦
        Task.Runs.not_unrunnable ⟨hlayout, hcontent, hle⟩ hun
      obtain ⟨stderr, hloaded⟩ := exists_loaded_of_lt (h.isWord_of_mem hcontent) hlong j
      refine ⟨stderr, fun fuel ↦ ?_⟩
      rw [hending, hlayout, hcontent]
      simp only [ready, hroom.lack?_eq_none hlayout hcontent, hloaded]
      rfl

/-- The exit status for the outcome of a run, none for one that is not finished. -/
def status? : Outcome → Option Nat
  | .halted => some 0
  | .faulted _ => some 1
  | .unfinished => none

theorem status?_eq_one_iff {outcome : Outcome} :
    status? outcome = some 1 ↔ ∃ cause, outcome = .faulted cause := by
  cases outcome <;> simp [status?]

theorem status?_eq_zero_iff {outcome : Outcome} : status? outcome = some 0 ↔ outcome = .halted := by
  cases outcome <;> simp [status?]

/-- What is concluded from a run depends on its outcome and its output. -/
theorem exists_conclude_eq (done : Attempt Machine Failure Outcome) {outcome : Outcome}
    (h : done.ending = .ok outcome) (houtcome : outcome ≠ .unfinished) :
    ∃ a, conclude done = some a ∧ status? outcome = some a.exit ∧
      a.stdout = Text.toString done.after.sink.text := by
  unfold conclude
  rw [h]
  cases outcome with
  | halted => exact ⟨_, rfl, rfl, rfl⟩
  | faulted cause => exact ⟨_, rfl, rfl, rfl⟩
  | unfinished => exact absurd rfl houtcome

theorem conclude_of_unfinished {done : Attempt Machine Failure Outcome}
    (h : done.ending = .ok .unfinished) : conclude done = none := by
  unfold conclude
  rw [h]

/-- A program that is run gets the exit status of its outcome, and its output is what is printed. -/
theorem ending_of_runs (h : Asks world args t) (hroom : t.HasRoom world) (hruns : t.Runs l words)
    {k : Nat} {outcome : Outcome} {last : Machine}
    (hstops : (started l words).StopsIn k outcome last) (houtcome : outcome ≠ .unfinished) :
    ∃ a, (∃ fuel, ending world fuel args = some (.answer a)) ∧
      (∀ fuel e, ending world fuel args = some e → e = .answer a) ∧
      status? outcome = some a.exit ∧ a.stdout = Text.toString last.sink.text := by
  obtain ⟨j, hending⟩ := exists_ending_eq h
  obtain ⟨m, hloaded, hpaired⟩ :=
    exists_loaded_of_le (h.isWord_of_mem hruns.content_eq) hruns.length_le j
  have hrun : ∀ fuel, ending world fuel args = (conclude (m.run fuel)).map .answer := by
    intro fuel
    rw [hending, hruns.layout_eq, hruns.content_eq]
    simp only [ready, hroom.lack?_eq_none hruns.layout_eq hruns.content_eq, hloaded]
    rfl
  -- The journal is all that the machine of the session has over the other.
  obtain ⟨last', hstops', hlast⟩ :=
    (Machine.Paired.bisimulation State.bisimulation_eq).stopsIn hpaired hstops houtcome
  obtain ⟨a, ha, hexit, hstdout⟩ := exists_conclude_eq (.succeed last' outcome) rfl houtcome
  have hover : ∀ fuel, k ≤ fuel → ending world fuel args = some (.answer a) := by
    intro fuel hfuel
    rw [hrun, hstops'.finished fuel hfuel, ha, Option.map_some]
  refine ⟨a, ⟨k, hover k (Nat.le_refl k)⟩, fun fuel e he ↦ ?_, hexit, ?_⟩
  · rcases Nat.lt_or_ge fuel k with hfuel | hfuel
    · rw [hrun, conclude_of_unfinished (hstops'.unfinished fuel hfuel)] at he
      cases he
    · rw [hover fuel hfuel] at he
      exact (Option.some.inj he).symm
  · rw [hstdout]
    exact congrArg (fun sink : Sink ↦ Text.toString sink.text) hlast.2

/-! ### What the exit status tells -/

/-- An answer whose exit status tells what became of a task, and whose output is that of the run. -/
structure Tells (t : Task) (a : Answer) : Prop where
  exit_two_iff : a.exit = 2 ↔ t.Unrunnable
  silent : t.Unrunnable → a.stdout = ""
  exit_one_iff : a.exit = 1 ↔ ∃ l words k cause last, t.Runs l words ∧
    (started l words).StopsIn k (.faulted cause) last
  exit_zero_iff : a.exit = 0 ↔ ∃ l words k last, t.Runs l words ∧
    (started l words).StopsIn k .halted last
  stdout_eq : ∀ l words k outcome last, t.Runs l words → outcome ≠ .unfinished →
    (started l words).StopsIn k outcome last → a.stdout = Text.toString last.sink.text

theorem tells_of_unrunnable (hun : t.Unrunnable) (stderr : String) :
    Tells t { exit := 2, stderr := stderr } := by
  have hnot : ∀ l words, ¬t.Runs l words := fun l words hruns ↦ hruns.not_unrunnable hun
  refine ⟨iff_of_true rfl hun, fun _ ↦ rfl, iff_of_false nofun ?_, iff_of_false nofun ?_, ?_⟩
  · rintro ⟨l, words, _, _, _, hruns, -⟩
    exact hnot l words hruns
  · rintro ⟨l, words, _, _, hruns, -⟩
    exact hnot l words hruns
  · exact fun l words _ _ _ hruns ↦ absurd hruns (hnot l words)

theorem tells_of_runs (hruns : t.Runs l words) {k : Nat} {outcome : Outcome} {last : Machine}
    (hstops : (started l words).StopsIn k outcome last) {a : Answer}
    (hexit : status? outcome = some a.exit) (hstdout : a.stdout = Text.toString last.sink.text) :
    Tells t a := by
  -- There is nothing else to run, and it stops in no other way.
  have hsame : ∀ {l' words' k' outcome' last'}, t.Runs l' words' →
      (started l' words').StopsIn k' outcome' last' → outcome' = outcome ∧ last' = last := by
    intro l' words' k' outcome' last' hruns' hstops'
    obtain ⟨rfl, rfl⟩ := hruns.unique hruns'
    exact hstops.unique hstops'
  refine ⟨iff_of_false (fun htwo ↦ ?_) hruns.not_unrunnable,
    fun hun ↦ absurd hun hruns.not_unrunnable, ⟨fun hone ↦ ?_, ?_⟩, ⟨fun hzero ↦ ?_, ?_⟩, ?_⟩
  · rw [htwo] at hexit
    cases outcome <;> cases hexit
  · rw [hone] at hexit
    obtain ⟨cause, rfl⟩ := status?_eq_one_iff.1 hexit
    exact ⟨l, words, k, cause, last, hruns, hstops⟩
  · rintro ⟨l', words', k', cause, last', hruns', hstops'⟩
    obtain ⟨rfl, -⟩ := hsame hruns' hstops'
    exact (Option.some.inj hexit).symm
  · rw [hzero] at hexit
    obtain rfl := status?_eq_zero_iff.1 hexit
    exact ⟨l, words, k, last, hruns, hstops⟩
  · rintro ⟨l', words', k', last', hruns', hstops'⟩
    obtain ⟨rfl, -⟩ := hsame hruns' hstops'
    exact (Option.some.inj hexit).symm
  · intro l' words' k' outcome' last' hruns' _ hstops'
    obtain ⟨-, rfl⟩ := hsame hruns' hstops'
    exact hstdout

/-- **What an exit status tells.** Where there is room for the memory that is asked for and the
program does not run forever, a session that runs a file has one answer. Its exit status is `2`
exactly if there is nothing to run, and then nothing is printed; it is `1` exactly if the run faults
and `0` exactly if it halts, and then the output is that of the run. Without room for the memory the
session breaks down and has no exit status, and the number of words tells what is lacking. -/
theorem exit_status_tells (h : Asks world args t) :
    (t.HasRoom world → (∀ l words, t.Runs l words → ¬(started l words).NeverStops) →
      ∃ a, (∃ fuel, ending world fuel args = some (.answer a)) ∧
        (∀ fuel e, ending world fuel args = some e → e = .answer a) ∧ Tells t a) ∧
      (¬t.HasRoom world → ∀ fuel, ending world fuel args = some (.breakdown (.room
        (if (Layout.indexLimit : Int) ≤ t.memSize then .unindexable else .exhausted)))) := by
  refine ⟨fun hroom hends ↦ ?_, ending_of_lack h⟩
  rcases t.runs_or_unrunnable with ⟨l, words, hruns⟩ | hun
  · have hreachable : State.Reachable l 0 (started l words).state := by
      rw [started, Machine.state_after_load]
      exact .load .initial words
    have hrunning : (started l words).state.running = true := by
      rw [started, Machine.state_after_load]
      rfl
    obtain ⟨k, outcome, last, hstops, houtcome⟩ :=
      Machine.exists_stopsIn hreachable hrunning (hends l words hruns)
    obtain ⟨a, hanswers, honly, hexit, hstdout⟩ := ending_of_runs h hroom hruns hstops houtcome
    exact ⟨a, hanswers, honly, tells_of_runs hruns hstops hexit hstdout⟩
  · obtain ⟨stderr, hending⟩ := ending_of_unrunnable h hroom hun
    refine ⟨_, ⟨0, hending 0⟩, fun fuel e he ↦ ?_, tells_of_unrunnable hun stderr⟩
    rw [hending] at he
    exact (Option.some.inj he).symm

/-- A file without a suffix is read as bytes. -/
theorem read_plain (bytes : List UInt8) :
    ProgramFile.read "a" (.ok bytes) = (Wire.read bytes).mapError .truncated := by
  have hnull : "a".contains '\x00' = false := by simp
  have hparts : "a".splitOn "/" = ["a"] := by
    -- One character that is no separator, then the end of the path.
    rw [String.splitOn, if_neg (by decide), String.splitOnAux, if_neg (by decide),
      if_neg (by decide), String.splitOnAux, if_pos (by decide)]
    decide
  have hhex : ProgramFile.isHexPath "a" = false := by
    rw [ProgramFile.isHexPath, ProgramFile.suffix, ProgramFile.components, hparts]
    decide
  rw [ProgramFile.read, hnull]
  simp only [ProgramFile.decode, hhex]
  rfl

/-- A program that prints five and then finds nothing to add. -/
theorem exit_status_tells_faulting :
    let world : World :=
      { lookUp := fun _ ↦ .ok [0, 0, 0, 5, 0x40, 0, 0, 8, 0x40, 0, 0, 1]
        provides := fun size ↦ size ≤ 6
        attempts := 0 }
    let args := ["--mem-size", "6", "--stack-limit", "2", "--data-base", "6", "run", "a"]
    let t : Task := ⟨6, 2, 6, .ok [5, 0x40000008, 0x40000001]⟩
    Asks world args t ∧ t.HasRoom world ∧
      (∀ l words, t.Runs l words → ¬(started l words).NeverStops) ∧
      ∃ a, (∃ fuel, ending world fuel args = some (.answer a)) ∧
        (∀ fuel e, ending world fuel args = some e → e = .answer a) ∧ Tells t a := by
  intro world args t
  have hread : ProgramFile.read "a" (world.lookUp "a") = t.content := read_plain _
  have hasks : Asks world args t :=
    ⟨{ memSize := .number 6, stackLimit := .number 2, dataBase := .number 6 }, "a",
      by decide +kernel, rfl, rfl, rfl, hread.symm⟩
  have hroom : t.HasRoom world := by
    rintro l words ⟨⟩ -
    decide
  have hends : ∀ l words, t.Runs l words → ¬(started l words).NeverStops := by
    rintro l words ⟨⟨⟩, ⟨⟩, -⟩ hnever
    exact absurd (hnever 3) (by decide)
  exact ⟨hasks, hroom, hends, (exit_status_tells hasks).1 hroom hends⟩

/-- Two words for one instruction, in a memory whose size is no index: there is nothing to run, and
the session has no answer at all, even on a host that has room for everything. -/
theorem no_exit_status_without_room :
    let world : World :=
      { lookUp := fun _ ↦ .ok [0, 0, 0, 0, 0, 0, 0, 0], provides := fun _ ↦ true, attempts := 0 }
    let args := ["--mem-size", "9223372036854775808", "--stack-limit", "50", "--data-base", "51",
      "run", "a"]
    let t : Task := ⟨9223372036854775808, 50, 51, .ok [0, 0]⟩
    Asks world args t ∧ t.Unrunnable ∧
      ∀ fuel a, ending world fuel args ≠ some (.answer a) := by
  intro world args t
  have hread : ProgramFile.read "a" (world.lookUp "a") = t.content := read_plain _
  have hasks : Asks world args t :=
    ⟨{ memSize := .number 9223372036854775808, stackLimit := .number 50, dataBase := .number 51 },
      "a", by decide +kernel, rfl, rfl, rfl, hread.symm⟩
  refine ⟨hasks, .length rfl (by decide), fun fuel a ha ↦ ?_⟩
  have hlack : ¬t.HasRoom world := fun hroom ↦ absurd (hroom _ _ rfl rfl).1 (by decide)
  rw [ending_of_lack hasks hlack] at ha
  cases ha

end Session

end Cli

end TaggedStack
