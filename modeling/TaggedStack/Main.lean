import TaggedStack.Cli.Session

/-!
# The command line program

Reads the arguments, the environment and the program file, and prints the answer of the
session. A running program's output appears as it is produced.
-/

namespace TaggedStack.Cli

/-- The system's number of an error whose code may be given with its sign turned. -/
def systemNumber (code : UInt32) : Nat := (min code (0 - code)).toNat

/-- What the system says of a path that it cannot read. -/
def obstacleOf : IO.Error → ProgramFile.Obstacle
  | .otherError code text | .resourceBusy code text | .resourceVanished code text
  | .unsupportedOperation code text | .hardwareFault code text
  | .unsatisfiedConstraints code text | .illegalOperation code text | .protocolError code text
  | .timeExpired code text | .interrupted _ code text | .noFileOrDirectory _ code text
  | .alreadyExists _ code text | .invalidArgument _ code text | .permissionDenied _ code text
  | .resourceExhausted _ code text | .inappropriateType _ code text | .noSuchThing _ code text =>
    .ofNumber (systemNumber code) text
  | .unexpectedEof | .userError _ => .missing

/-- What the file system says about a path. -/
def findFile (path : String) : IO (Except ProgramFile.Obstacle (List UInt8)) := do
  try
    let bytes ← IO.FS.readBinFile path
    return .ok bytes.toList
  catch e => return .error (obstacleOf e)

/-- A seed for campaigns that name none. -/
def entropySeed : IO Int := do
  let bytes ← IO.getRandomBytes 32
  return bytes.toList.foldl (fun (n : Int) b ↦ n * 256 + b.toNat) 0

/-- Prints what there is and gives the exit status. -/
def showAnswer (a : Answer) : IO UInt32 := do
  IO.print a.stdout
  IO.eprint a.stderr
  return a.exit.toUInt32

/-- Shows how a session ended and gives the exit status, `1` after a breakdown. -/
def showEnding : Ending → IO UInt32
  | .answer a => showAnswer a
  | .breakdown cause => showAnswer { exit := 1, stderr := s!"{cause.message}\n" }

/-- How many cycles run before output is shown. -/
def stretch : Nat := 4096

/-- Runs a machine to its end, showing output and journal after every stretch. -/
partial def drive (m : Machine) : IO UInt32 := do
  let done := m.run stretch
  match Session.conclude done with
  | some a => showAnswer a
  | none =>
    IO.print (Text.toString done.after.sink.text)
    IO.eprint (Session.journalText done.after.journal)
    drive { done.after with
      sink := .emptyStream
      journal := ⟨done.after.journal.threshold, #[]⟩ }

/-- The number of words from which on no memory is asked of the host. -/
def largestMemory : Nat := 0x100000000

/-- Carries out an invocation. -/
def perform (invocation : Invocation) : IO UInt32 := do
  let found ← match invocation.command with
    | .run path => findFile (ProgramFile.plainPath path)
    | _ => pure (.error .missing)
  let details := (← IO.getEnv "DEBUG") = some "1"
  let world : World :=
    { lookUp := fun _ ↦ found
      provides := fun size ↦ size < largestMemory
      details := details
      seed := ← entropySeed
      attempts := 0x4000000000000000 }
  match Session.prepare world invocation with
  | .ok m => drive m
  | .error e => showEnding e

end TaggedStack.Cli

open TaggedStack.Cli in
/-- The program. -/
def main (args : List String) : IO UInt32 :=
  match Invocation.parse args with
  | .ok invocation => perform invocation
  | .error stop => showAnswer (Session.stopped stop)
