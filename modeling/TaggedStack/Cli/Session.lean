import TaggedStack.Cli.Invocation
import TaggedStack.Demo
import TaggedStack.Fuzz
import TaggedStack.ProgramFile

/-!
# Sessions

What the program answers to a command line: text on standard output and on standard error, and
an exit status. The status is `0` if all went well, `1` if the program run has faulted or a
campaign has found bugs, and `2` if there was nothing to run: a wrong command line, an invalid
layout, a file that cannot be read, a program that does not fit. A session that comes upon a
blank where it needs a number, or finds no room for a memory, breaks down without an answer.

The outside world comes in as plain values: what the file system says about a path, for how many
words the host provides memory, whether the environment asks for details, and a seed for campaigns
that name none.

* `Session.prepare`: a session that is over, or a machine ready to run.
* `Session.conclude`: the answer for a machine that was run.
* `Session.ending`: the whole session, given enough cycles.
-/

namespace TaggedStack.Cli

/-- What a session leaves: two texts and an exit status. -/
structure Answer where
  exit : Nat
  stdout : String := ""
  stderr : String := ""
  deriving DecidableEq, Repr

/-- Why a session breaks down. -/
inductive Breakdown
  | blank (cause : BlankError)
  | room (cause : RoomError)
  | rate (cause : RateError)
  deriving DecidableEq, Repr

/-- The wording of a breakdown. -/
def Breakdown.message : Breakdown → String
  | blank cause => cause.message
  | room cause => cause.message
  | rate cause => cause.message

/-- How a session ends. -/
inductive Ending
  | answer (a : Answer)
  | breakdown (cause : Breakdown)
  deriving DecidableEq, Repr

/-- What a session knows of the outside world. -/
structure World where
  /-- What is found under a path. -/
  lookUp : String → Except ProgramFile.Obstacle (List UInt8)
  /-- Whether the host has room for a memory of so many words, whenever one is made. -/
  provides : Nat → Bool
  /-- Whether the environment asks for details. -/
  details : Bool := false
  /-- The seed of campaigns that name none. -/
  seed : Int := 0
  /-- How many attempts a random number may take. -/
  attempts : Nat

namespace Session

/-- The journal a session keeps: quiet counts before everything. -/
def journal (world : World) (settings : Settings) : Journal :=
  ⟨if settings.quiet then .error
    else if settings.debug || world.details then .debug
    else .warning, #[]⟩

/-- The journal's part of standard error. -/
def journalText (j : Journal) : String := unlines j.lines

/-- The answer when there is nothing to run. -/
def rejected (j : Journal) (message : String) : Answer :=
  { exit := 2, stderr := journalText j ++ s!"wordvm: error: {message}\n" }

/-- The end of a campaign with its settings known. -/
def conducted (world : World) (j : Journal) (seed : Int) (plan : Plan) : Ending :=
  let finished := Fuzz.runWithin world.provides plan (Twister.ofSeed seed) j
  let c := finished.after
  match finished.ending with
  | .ok () =>
    .answer { exit := if c.stats.bugs = 0 then 0 else 1
              stdout := c.printed
              stderr := journalText c.journal }
  | .error (.room e) => .breakdown (.room e)
  | .error (.summary (.rate e)) => .breakdown (.rate e)
  | .error e => .answer { rejected c.journal e.message with stdout := c.printed }

/-- The end of a fuzzing campaign. The generator is looked up first, then the source is seeded,
then cases are counted; a blank fails where it is used. -/
def campaign (world : World) (j : Journal) (l : Layout) (request : FuzzRequest) : Ending :=
  match request.generator, request.seed.getD (.number world.seed), request.tests with
  | none, _, _ => .breakdown (.blank .name)
  | some _, .blank, _ => .breakdown (.blank .seed)
  | some _, .number _, .blank => .breakdown (.blank .count)
  | some generator, .number seed, .number tests =>
    conducted world j seed
      { tests := tests
        generator := generator
        config := { maxSteps := request.maxSteps, layout := l }
        attempts := world.attempts }

/-- The words of the program to run, or why there are none. -/
def program (world : World) : Command → Except String (List Int)
  | .run path => (ProgramFile.read path (world.lookUp path)).mapError (·.message)
  | .demo .countdown => (Demo.countdown 10 0).mapError (·.message)
  | .demo .hello => (Demo.hello Demo.greeting).mapError (·.message)
  | .fuzz _ => .ok []

/-- A machine with a program loaded, or the answer if it does not fit. -/
def loaded (j : Journal) (l : Layout) (words : List Int) : Except Answer Machine :=
  let copied := (Machine.fresh l .emptyStream j).load words
  match copied.ending with
  | .ok count => .ok (copied.after.record (.starting count l))
  | .error e => .error (rejected copied.after.journal e.message)

/-- A machine with a program loaded, if there is room for it. -/
def ready (world : World) (j : Journal) (l : Layout) (words : List Int) :
    Except Ending Machine :=
  match l.lack? world.provides with
  | some lack => .error (.breakdown (.room lack))
  | none => (loaded j l words).mapError .answer

/-- The machine an invocation runs, or the session's end if it runs none. -/
def prepare (world : World) (invocation : Invocation) : Except Ending Machine :=
  let settings := invocation.settings
  let j := journal world settings
  match Layout.ofQuantities settings.memSize settings.stackLimit settings.dataBase with
  | .error (.order e) => .error (.answer (rejected j e.message))
  | .error (.blank e) => .error (.breakdown (.blank e))
  | .ok l =>
    match invocation.command with
    | .fuzz request => .error (campaign world j l request)
    | command =>
      match program world command with
      | .ok words => ready world j l words
      | .error message => .error (.answer (rejected j message))

/-- The answer for a machine that was run; none if it needs more cycles. -/
def conclude (done : Attempt Machine Failure Outcome) : Option Answer :=
  let m := done.after
  let stdout := Text.toString m.sink.text
  let report := journalText m.journal
  match done.ending with
  | .ok .halted => some { exit := 0, stdout := stdout, stderr := report }
  | .ok (.faulted cause) =>
    some { exit := 1, stdout := stdout,
           stderr := report ++ s!"\nwordvm: fault: {cause.message}\n" }
  | .ok .unfinished => none
  | .error e => some { rejected m.journal e.message with stdout := stdout }

/-- The answer to a command line that is no invocation. -/
def stopped : Stop → Answer
  | .usage => { exit := 2, stderr := "usage" }
  | .help topic => { exit := 0, stdout := topic.text }
  | .version => { exit := 0, stdout := versionText }

/-- The end of the session of a command line, if `fuel` cycles are enough. -/
def ending (world : World) (fuel : Nat) (args : List String) : Option Ending :=
  match Invocation.parse args with
  | .error stop => some (.answer (stopped stop))
  | .ok invocation =>
    match prepare world invocation with
    | .ok m => (conclude (m.run fuel)).map .answer
    | .error e => some e

end Session

end TaggedStack.Cli
