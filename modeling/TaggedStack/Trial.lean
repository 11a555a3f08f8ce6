import TaggedStack.Expr
import TaggedStack.Machine.Run
import TaggedStack.Text.Quoted

/-!
# Trials

A trial runs a program on a fresh machine for a limited number of cycles and says how it
ended: it halted, it faulted, it ran out of cycles, or something happened that no program
should be able to cause. An expression foretells its own result, and a result is judged
against what was foretold.

* `Trial.execute`: the result of a program.
* `Trial.expected`: the result an expression's program must have.
* `Trial.agrees`: whether a result is acceptable.
* `Trial.fits`: whether an expression's program keeps within a layout.
-/

namespace TaggedStack

/-- How a trial ended. -/
inductive Result
  | success (output : Text) (top : Option Int)
  | fault (kind : String)
  | timeout (steps : Int)
  | crash (reason : String)
  deriving DecidableEq, Repr

namespace Result

/-- How a result is shown. -/
def text : Result → String
  | success output top =>
    let shown := match top with
      | some value => toString value
      | none => "None"
    s!"Success(output={Text.quoted output}, stack_top={shown})"
  | fault kind => s!"Fault(kind={quotedString kind})"
  | timeout steps => s!"Timeout(steps={steps})"
  | crash reason => s!"Crash(reason={quotedString reason})"

/-- The numbers in the wording of a result. -/
def numbers : Result → List Int
  | success _ top => top.toList
  | timeout steps => [steps]
  | fault _ | crash _ => []

/-- Whether a result is a crash. -/
def isCrash : Result → Bool
  | crash _ => true
  | _ => false

/-- A crash by the kind of what happened and its wording. -/
def crashOf (kind message : String) : Result :=
  crash s!"machine raised exception: {kind}({quotedString message})"

/-- The result of a failure: a fault is the program's doing, anything else is a crash. -/
def ofFailure : Failure → Result
  | .fault cause => fault cause.kind
  | cause => crashOf "ValueError" cause.message

/-- The result of using a blank as a number. -/
def ofBlank (cause : BlankError) : Result := crashOf "TypeError" cause.message

/-- How a result is shown that there may not be. -/
def optionText : Option Result → String
  | some result => result.text
  | none => "None"

/-- The numbers in the wording of a result that there may not be. -/
def optionNumbers (result : Option Result) : List Int := result.elim [] numbers

end Result

namespace Trial

/-- The result of a machine that stopped, or was stopped, within its budget. -/
def conclude (m : Machine) (maxSteps : Int) : Result :=
  if m.state.running then .timeout maxSteps
  else
    match m.state.top with
    | .ok top => .success m.sink.text top
    | .error e => .ofFailure e

/-- The result of a loaded machine run for at most `maxSteps` cycles, and its journal. -/
def executeLoaded (m : Machine) (maxSteps : Int) : Result × Journal :=
  let stopped := m.stepUpTo maxSteps.toNat
  match stopped.ending with
  | .error e => (.ofFailure e, stopped.after.journal)
  | .ok () => (conclude stopped.after maxSteps, stopped.after.journal)

/-- The result of a program run for at most `maxSteps` cycles, and the journal of the run. A
blank in place of the number is found out once the program is loaded. -/
def executeWith (journal : Journal) (program : List Int) (maxSteps : Quantity) (l : Layout) :
    Result × Journal :=
  let loaded := (Machine.fresh l .emptyBuffer journal).load program
  match loaded.ending, maxSteps with
  | .error e, _ => (.ofFailure e, loaded.after.journal)
  | .ok _, .blank => (.ofBlank .count, loaded.after.journal)
  | .ok _, .number n => executeLoaded loaded.after n

/-- The result of a program run for at most `maxSteps` cycles. -/
def execute (program : List Int) (maxSteps : Int) (l : Layout) : Result :=
  (executeWith .silent program maxSteps l).1

/-- The result the program of an expression must have. -/
def expected (e : Expr) : Result :=
  match e.evaluate with
  | some value => .success (Text.decimal value) none
  | none => .fault Fault.divisionByZero.kind

/-- Whether a result is acceptable: never a crash, and as foretold where it was foretold. No
result at all is acceptable only where none was foretold. -/
def agrees (expected actual : Option Result) : Bool :=
  !actual.any Result.isCrash && (expected.isNone || expected == actual)

/-- Whether an expression's program is short enough for a layout's instructions and its values
are few enough for the stack. -/
def fits (e : Expr) (l : Layout) : Bool :=
  e.stackDepth ≤ l.stackCapacity && e.compile.length ≤ l.instructionCapacity

end Trial

end TaggedStack
