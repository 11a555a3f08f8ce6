import TaggedStack.Stats

/-!
# Fuzzing

A campaign draws cases one after another, runs each on a machine of its own and counts the
results. If it is verbose it prints a header, a report of every result that is not acceptable,
and a summary. A drawing that fails ends the campaign, and so does a text with a number in it that
cannot be written; what was printed before stays.

* `Fuzz.trial`: the result of a case, and whether it is acceptable.
* `Fuzz.cases`: a series of cases.
* `Fuzz.run`: a whole campaign.
* `Fuzz.runWithin`: the same where room for the machines' memory may be lacking.
-/

namespace TaggedStack

/-- Why a campaign broke off. -/
inductive FuzzError
  | unknownGenerator (name : String)
  | header (cause : Text.DigitError)
  | drawing (cause : DrawError)
  | report (cause : ReportError)
  | summary (cause : SummaryError)
  | room (cause : RoomError)
  deriving DecidableEq

/-- The wording of a campaign's error. -/
def FuzzError.message : FuzzError → String
  | unknownGenerator name =>
    let known := ", ".intercalate (Generator.all.map Generator.name)
    s!"Unknown generator: {name}. Available: {known}"
  | header cause => cause.message
  | drawing cause => cause.message
  | report cause => cause.message
  | summary cause => cause.message
  | room cause => cause.message

/-- The generator of a given name. -/
def Generator.ofName (name : String) : Except FuzzError Generator :=
  match ofName? name with
  | some g => .ok g
  | none => .error (.unknownGenerator name)

/-- What a campaign is asked to do. -/
structure Plan where
  /-- How many cases; none if it is negative. -/
  tests : Int
  generator : Generator := .mixed
  config : Config := {}
  verbose : Bool := true
  /-- How many attempts a random number may take. -/
  attempts : Nat

/-- The state of a campaign. -/
structure Campaign (σ : Type) where
  source : σ
  stats : Stats := {}
  /-- All that was printed. -/
  printed : String := ""
  journal : Journal := .silent

namespace Fuzz

variable {σ : Type}

/-- Prints a text as far as it can be written, if the campaign is verbose. -/
def say (plan : Plan) (c : Campaign σ) (text : Attempt String FuzzError Unit) :
    Attempt (Campaign σ) FuzzError Unit :=
  if plan.verbose then ⟨{ c with printed := c.printed ++ text.after }, text.ending⟩
  else .succeed c ()

/-- What is printed before the first case. -/
def header (plan : Plan) : Attempt String Text.DigitError Unit :=
  let text := s!"WordVM Fuzzer - Running {plan.tests} tests\n" ++
    s!"Generator: {plan.generator.name}\n" ++ String.ofList (List.replicate 60 '=') ++ "\n"
  match Text.written [plan.tests] text with
  | .ok text => .succeed text ()
  | .error e => .fail "" e

/-- The result of a case, whether it is acceptable, and the journal of its run. -/
def trial (journal : Journal) (config : Config) (case : Case) : Result × Bool × Journal :=
  let (result, journal) := Trial.executeWith journal case.words config.maxSteps config.layout
  (result, Trial.agrees case.expected (some result), journal)

/-- Runs a case that was drawn. Its result is counted before it is reported. -/
def conduct (plan : Plan) (number : Int) (case : Case) (c : Campaign σ) :
    Attempt (Campaign σ) FuzzError Unit :=
  let (result, acceptable, journal) := trial c.journal plan.config case
  let c := { c with
    stats := c.stats.record case.expected (some result) acceptable
    journal := journal }
  if acceptable then .succeed c ()
  else say plan c ((Report.bug number case (some result)).mapError .report)

variable [WordSource σ]

/-- Draws and runs cases, the first of which has the given number. -/
def cases (plan : Plan) (number : Int) :
    (count : Nat) → Campaign σ → Attempt (Campaign σ) FuzzError Unit
  | 0, c => .succeed c ()
  | count + 1, c =>
    let (drawn, source) := (plan.generator.draw plan.config).perform plan.attempts c.source
    let c := { c with source := source }
    match drawn with
    | .ok case => (conduct plan number case c).andThen (cases plan (number + 1) count)
    | .error e => .fail c (.drawing e)

/-- The campaign up to its first case. -/
def opening (plan : Plan) (source : σ) (journal : Journal) :
    Attempt (Campaign σ) FuzzError Unit :=
  say plan { source := source, journal := journal } ((header plan).mapError .header)

/-- The campaign after its last case. -/
def closing (plan : Plan) (c : Campaign σ) : Attempt (Campaign σ) FuzzError Unit :=
  say plan c (c.stats.summary.mapError .summary)

/-- A whole campaign. -/
def run (plan : Plan) (source : σ) (journal : Journal) : Attempt (Campaign σ) FuzzError Unit :=
  (opening plan source journal).andThen fun c ↦
    (cases plan 1 plan.tests.toNat c).andThen (closing plan)

/-- A whole campaign, if there is room for the memory of its machines. Where there is none, the
first case that is drawn ends it. -/
def runWithin (provides : Nat → Bool) (plan : Plan) (source : σ) (journal : Journal) :
    Attempt (Campaign σ) FuzzError Unit :=
  match plan.config.layout.lack? provides with
  | none => run plan source journal
  | some lack =>
    if plan.tests ≤ 0 then run plan source journal
    else
      (opening plan source journal).andThen fun c ↦
        let (drawn, source) := (plan.generator.draw plan.config).perform plan.attempts c.source
        let c := { c with source := source }
        match drawn with
        | .ok _ => .fail c (.room lack)
        | .error e => .fail c (.drawing e)

end Fuzz

end TaggedStack
