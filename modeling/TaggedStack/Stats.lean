import TaggedStack.Binary64
import TaggedStack.Generate

/-!
# Statistics of trials

Counters for the results of a series of trials, and what is printed about them: a summary, and
a report of every result that was not acceptable.

* `Stats.record`: counts one more result.
* `Stats.summary`: the summary of a series.
* `Report.bug`: the report of a single result.
-/

namespace TaggedStack

/-- Counters of a series of trials. They start at zero, but may be given any values. -/
structure Stats where
  total : Int := 0
  bugs : Int := 0
  crashes : Int := 0
  halted : Int := 0
  faults : Int := 0
  timeouts : Int := 0
  /-- How many trials had their result foretold. -/
  checked : Int := 0
  deriving DecidableEq, Repr

/-- A share of results that is too large to be a number. -/
structure RateError where
  deriving DecidableEq, Repr

/-- The wording of a rate error. -/
def RateError.message (_ : RateError) : String := "integer division result too large for a float"

/-- Why a summary breaks off. -/
inductive SummaryError
  | digits (cause : Text.DigitError)
  | rate (cause : RateError)
  deriving DecidableEq, Repr

/-- The wording of a summary error. -/
def SummaryError.message : SummaryError → String
  | digits cause => cause.message
  | rate cause => cause.message

/-- Why a report breaks off. -/
inductive ReportError
  | digits (cause : Text.DigitError)
  | codec (cause : CodecError)
  deriving DecidableEq, Repr

/-- The wording of a report error. -/
def ReportError.message : ReportError → String
  | digits cause => cause.message
  | codec cause => cause.message

namespace Stats

/-- How many results were acceptable. -/
def correct (s : Stats) : Int := s.total - s.bugs

/-- How many results in a hundred were not acceptable; zero without any trials. The quotient
must be finite, but the hundredfold of it need not be. -/
def bugRate (s : Stats) : Except RateError Binary64 :=
  let share := Binary64.ofRatio s.bugs s.total.toNat
  if s.total ≤ 0 then .ok .zero
  else if share.isInfinite then .error ⟨⟩
  else .ok (share.mulNat 100)

/-- Counts a result's kind. -/
def count (s : Stats) : Result → Stats
  | .success .. => { s with halted := s.halted + 1 }
  | .fault _ => { s with faults := s.faults + 1 }
  | .timeout _ => { s with timeouts := s.timeouts + 1 }
  | .crash _ => { s with crashes := s.crashes + 1 }

/-- Counts a result of a case that was foretold a result or not. A trial without any result is
of no kind, but a trial all the same. -/
def record (s : Stats) (expected actual : Option Result) (acceptable : Bool) : Stats :=
  let s := actual.elim s s.count
  { s with
    total := s.total + 1
    checked := if expected.isSome then s.checked + 1 else s.checked
    bugs := if acceptable then s.bugs else s.bugs + 1 }

/-- The counters of a series with their labels, in the order of the summary. -/
def counters (s : Stats) : List (String × Int) :=
  [ ("Total tests run:           ", s.total),
    ("Checked against oracle:    ", s.checked),
    ("Halted:                    ", s.halted),
    ("Faulted:                   ", s.faults),
    ("Step budget exhausted:     ", s.timeouts),
    ("Crashes:                   ", s.crashes),
    ("Bugs found:                ", s.bugs),
    ("Correct:                   ", s.correct) ]

/-- What is printed above the counters. -/
def heading : String :=
  "\n" ++ String.ofList (List.replicate 60 '=') ++ "\n" ++
    "Fuzzer Summary\n" ++ String.ofList (List.replicate 40 '-') ++ "\n"

/-- The heading and the counters up to the first that cannot be written. -/
def table (s : Stats) : String :=
  heading ++ String.join ((s.counters.takeWhile fun c ↦ Text.isWritable c.2).map fun c ↦
    s!"{c.1}{c.2}\n")

/-- The summary of a series. It breaks off at a counter that cannot be written, and after the
counters if the rate is asked for and too large. -/
def summary (s : Stats) : Attempt String SummaryError Unit :=
  if !s.counters.all fun c ↦ Text.isWritable c.2 then .fail s.table (.digits ⟨⟩)
  else if s.bugs ≤ 0 then .succeed (s.table ++ "\nNo bugs detected!\n") ()
  else
    match s.bugRate with
    | .ok rate => .succeed (s.table ++ s!"Bug detection rate:     {rate.fixed1}%\n") ()
    | .error e => .fail s.table (.rate e)

end Stats

namespace Report

/-- A number in hexadecimal, filled with zeros to eight characters, the sign included. -/
def hex8 (n : Int) : String :=
  let digits := Nat.toDigits 16 n.natAbs
  let sign := if n < 0 then ['-'] else []
  let zeros := List.replicate (8 - sign.length - digits.length) '0'
  String.ofList (sign ++ zeros ++ digits)

/-- The lines of a report, except those that cannot be written: a number in one has too many
digits, or one of the words is no machine word. -/
def lines (number : Int) (case : Case) (actual : Option Result) :
    List (Except ReportError String) :=
  let words := " ".intercalate (case.words.map hex8)
  [ (Text.written [number] s!"\nTest {number}: Bug found\n").mapError .digits,
    .ok s!"  Words:    {words}\n",
    ((case.words.mapM Instr.ofWord).mapError .codec).map fun instrs ↦
      let shown := ", ".intercalate (instrs.map Instr.text)
      s!"    [{shown}]\n",
    (Text.written (Result.optionNumbers case.expected)
      s!"  Expected: {Result.optionText case.expected}\n").mapError .digits,
    (Text.written (Result.optionNumbers actual)
      s!"  Actual:   {Result.optionText actual}\n").mapError .digits ]

/-- The report of a result, which breaks off at a line that cannot be written. -/
def bug (number : Int) (case : Case) (actual : Option Result) :
    Attempt String ReportError Unit :=
  let written := Attempt.ofList (lines number case actual)
  ⟨String.join written.after, written.ending⟩

end Report

end TaggedStack
