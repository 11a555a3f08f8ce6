import Mathlib.Data.List.Forall2
import Mathlib.Data.List.ReduceOption
import TaggedStack.HexText
import TaggedStack.Proofs.Numerals
import TaggedStack.Proofs.TextLines

/-!
# The grammar of hexadecimal programs

What a line of a program may be, said without reading it: a line says nothing, or a numeral that
fits a word. A line that may not stand is blamed for one of two reasons, and every line is either
accepted or blamed. The reader answers as these relations do, line by line, so it returns the words
of a text exactly when all lines are accepted and otherwise blames the first that is not.

* `HexText.content_eq_iff`: what a line says.
* `HexText.accepts_or_blames`: no line is left undecided.
* `HexText.readLines_of_holds`, `HexText.readLines_of_firstBlame`: the two ways reading can end.
* `HexText.parse_eq_grammar`: reading a text follows the grammar.
-/

namespace TaggedStack.HexText

/-! ### What a line says -/

/-- What a line says: its part before the first `#` (`0x23`), stripped of the white space around
it. -/
def Says (line body : Text) : Prop :=
  ∃ said comment, line = said ++ comment ∧ 0x23 ∉ said ∧ (∀ c ∈ comment.head?, c = 0x23) ∧
    Text.StripsTo Text.isBlank said body

/-- A line is cut at its first `#`, if it has one. -/
theorem takeWhile_eq_of_comment {said comment : Text} (hsaid : 0x23 ∉ said)
    (hcomment : ∀ c ∈ comment.head?, c = 0x23) :
    (said ++ comment).takeWhile (· ≠ 0x23) = said := by
  have hkept : ∀ c ∈ said, decide (c ≠ 0x23) = true := fun c hc ↦
    decide_eq_true fun h ↦ hsaid (h ▸ hc)
  rw [List.takeWhile_append_of_pos hkept]
  rcases comment with - | ⟨c, comment⟩
  · rw [List.takeWhile_nil, List.append_nil]
  · obtain rfl := hcomment c rfl
    rw [List.takeWhile_cons_of_neg (by decide), List.append_nil]

theorem content_eq_iff {line body : Text} : content line = body ↔ Says line body := by
  rw [content]
  constructor
  · intro h
    refine ⟨line.takeWhile (· ≠ 0x23), line.dropWhile (· ≠ 0x23), ?_, ?_, ?_, Text.strip_eq_iff.1 h⟩
    · rw [List.takeWhile_append_dropWhile]
    · intro hmem
      simpa using List.mem_takeWhile_imp hmem
    · intro c hc
      have := List.head?_dropWhile_not (· ≠ 0x23) line
      rw [Option.mem_def.1 hc] at this
      simpa using this
  · rintro ⟨said, comment, rfl, hsaid, hcomment, hbody⟩
    rw [takeWhile_eq_of_comment hsaid hcomment]
    exact Text.strip_eq_iff.2 hbody

/-! ### Lines that may stand, and lines that may not -/

/-- A numeral fits a word: 32 bits hold its digits, and below zero there is nothing. -/
def Fits (minus : Bool) (value : Nat) : Prop := value ≤ 0xFFFFFFFF ∧ (minus = true → value = 0)

/-- A line that may stand, and the number it holds, if any. -/
inductive Accepts (line : Text) : Option Nat → Prop
  | nothing (h : Says line []) : Accepts line none
  | number {body : Text} {minus : Bool} {value : Nat} (h : Says line body)
      (hbody : Text.HexNumeral body minus value) (hfits : Fits minus value) :
      Accepts line (some value)

/-- The fault found with the line of a given number. -/
inductive LineError.Blames : LineError → Nat → Text → Prop
  | notNumeral {number : Nat} {line body : Text} (h : Says line body) (hne : body ≠ [])
      (hbody : ∀ minus value, ¬Text.HexNumeral body minus value) :
      Blames (.notNumeral number body) number line
  | outOfRange {number : Nat} {line body : Text} {minus : Bool} {value : Nat}
      (h : Says line body) (hbody : Text.HexNumeral body minus value)
      (hfits : ¬Fits minus value) : Blames (.outOfRange number body) number line

theorem isWord_signedValue {minus : Bool} {value : Nat} :
    IsWord (Text.signedValue minus value) ↔ Fits minus value := by
  rw [IsWord, Text.signedValue, Fits]
  rcases minus with - | -
  · simp only [Bool.false_eq_true, if_false, false_implies, and_true]
    omega
  · simp only [if_true, true_implies]
    omega

/-- There is something in every numeral. -/
theorem ne_nil_of_hexNumeral {body : Text} {minus : Bool} {value : Nat}
    (h : Text.HexNumeral body minus value) : body ≠ [] := by
  obtain ⟨sign, rest, rfl, -, hrest⟩ := h
  obtain ⟨c, d, more, -, rfl⟩ := hrest.exists_digit
  exact List.append_ne_nil_of_right_ne_nil sign (List.cons_ne_nil c more)

/-- How a line that says something is read. -/
theorem readLine_of_content {line body : Text} (h : Says line body) (hne : body ≠ [])
    (number : Nat) :
    readLine number line =
      match Text.hexInt? body with
      | none => .error (.notNumeral number body)
      | some value =>
        if IsWord value then .ok (some value) else .error (.outOfRange number body) := by
  obtain rfl := content_eq_iff.2 h
  exact if_neg (by rwa [List.isEmpty_iff])

/-- A line that may stand gives its number. -/
theorem readLine_of_accepts {line : Text} {value? : Option Nat} (h : Accepts line value?)
    (number : Nat) : readLine number line = .ok (value?.map Nat.cast) := by
  cases h with
  | nothing h => exact if_pos (by rw [content_eq_iff.2 h, List.isEmpty_nil])
  | @number body minus value h hbody hfits =>
    have hvalue : Text.signedValue minus value = value := by
      rcases minus with - | -
      · rfl
      · obtain rfl := hfits.2 rfl
        rfl
    rw [readLine_of_content h (ne_nil_of_hexNumeral hbody),
      Text.hexInt?_eq_some_iff.2 ⟨minus, value, hbody, rfl⟩]
    dsimp only
    rw [if_pos (isWord_signedValue.2 hfits), hvalue]
    rfl

/-- A line that may not stand gives the fault found with it. -/
theorem readLine_of_blames {e : LineError} {number : Nat} {line : Text}
    (h : e.Blames number line) : readLine number line = .error e := by
  cases h with
  | @notNumeral _ _ body h hne hbody =>
    have hnone : Text.hexInt? body = none := by
      rw [Option.eq_none_iff_forall_ne_some]
      intro n hn
      obtain ⟨minus, value, hnumeral, -⟩ := Text.hexInt?_eq_some_iff.1 hn
      exact hbody minus value hnumeral
    rw [readLine_of_content h hne, hnone]
  | @outOfRange _ _ body minus value h hbody hfits =>
    rw [readLine_of_content h (ne_nil_of_hexNumeral hbody),
      Text.hexInt?_eq_some_iff.2 ⟨minus, value, hbody, rfl⟩]
    exact if_neg (isWord_signedValue.not.2 hfits)

/-- **Every line may stand or is blamed.** -/
theorem accepts_or_blames (number : Nat) (line : Text) :
    (∃ value?, Accepts line value?) ∨ ∃ e : LineError, e.Blames number line := by
  obtain ⟨body, hcontent⟩ : ∃ body, Says line body := ⟨content line, content_eq_iff.1 rfl⟩
  by_cases hne : body = []
  · subst hne
    exact Or.inl ⟨none, .nothing hcontent⟩
  by_cases hnumeral : ∃ minus value, Text.HexNumeral body minus value
  · obtain ⟨minus, value, hbody⟩ := hnumeral
    by_cases hfits : Fits minus value
    · exact Or.inl ⟨some value, .number hcontent hbody hfits⟩
    · exact Or.inr ⟨_, .outOfRange hcontent hbody hfits⟩
  · exact Or.inr ⟨_, .notNumeral hcontent hne fun minus value h ↦ hnumeral ⟨minus, value, h⟩⟩

/-! ### Whole texts -/

/-- Lines that may all stand, and the words they hold in order. -/
def Holds (ls : List Text) (words : List Int) : Prop :=
  ∃ values : List (Option Nat), List.Forall₂ Accepts ls values ∧
    words = values.reduceOption.map Nat.cast

/-- The first line that may not stand is blamed, where the first line of all has a number. -/
def FirstBlame (number : Nat) (ls : List Text) (e : LineError) : Prop :=
  ∃ i line, ls[i]? = some line ∧ (∀ before ∈ ls.take i, ∃ value?, Accepts before value?) ∧
    e.Blames (number + i) line

theorem Holds.cons {line : Text} {ls : List Text} {value? : Option Nat}
    {words : List Int} (hline : Accepts line value?) (h : Holds ls words) :
    Holds (line :: ls) ((value?.map Nat.cast).toList ++ words) := by
  obtain ⟨values, hvalues, rfl⟩ := h
  refine ⟨value? :: values, .cons hline hvalues, ?_⟩
  rcases value? with - | value <;> rfl

theorem FirstBlame.cons {line : Text} {ls : List Text} {number : Nat} {e : LineError}
    (hline : ∃ value?, Accepts line value?) (h : FirstBlame (number + 1) ls e) :
    FirstBlame number (line :: ls) e := by
  obtain ⟨i, bad, hbad, hbefore, hblames⟩ := h
  refine ⟨i + 1, bad, hbad, List.forall_mem_cons.2 ⟨hline, hbefore⟩, ?_⟩
  rwa [Nat.add_assoc, Nat.add_comm 1] at hblames

/-- **Every text holds words or has a first line to blame.** -/
theorem holds_or_firstBlame (number : Nat) (ls : List Text) :
    (∃ words, Holds ls words) ∨ ∃ e, FirstBlame number ls e := by
  induction ls generalizing number with
  | nil => exact Or.inl ⟨[], [], .nil, rfl⟩
  | cons line ls ih =>
    rcases accepts_or_blames number line with ⟨value?, hline⟩ | ⟨e, hline⟩
    · rcases ih (number + 1) with ⟨words, hwords⟩ | ⟨e, he⟩
      · exact Or.inl ⟨_, hwords.cons hline⟩
      · exact Or.inr ⟨e, he.cons ⟨value?, hline⟩⟩
    · exact Or.inr ⟨e, 0, line, rfl, by simp, hline⟩

/-- Lines hold words when each of them may stand. -/
theorem exists_holds_iff {ls : List Text} :
    (∃ words, Holds ls words) ↔ ∀ line ∈ ls, ∃ value?, Accepts line value? := by
  constructor
  · rintro ⟨-, values, hvalues, -⟩
    induction hvalues with
    | nil => simp
    | cons hline _ ih => exact List.forall_mem_cons.2 ⟨⟨_, hline⟩, ih⟩
  · intro h
    induction ls with
    | nil => exact ⟨[], [], .nil, rfl⟩
    | cons line ls ih =>
      obtain ⟨⟨value?, hline⟩, hrest⟩ := List.forall_mem_cons.1 h
      obtain ⟨words, hwords⟩ := ih hrest
      exact ⟨_, hwords.cons hline⟩

/-- Lines that may all stand are read to the words they hold. -/
theorem readLines_of_holds {ls : List Text} {words : List Int} (h : Holds ls words)
    (number : Nat) : readLines number ls = .ok words := by
  obtain ⟨values, hvalues, rfl⟩ := h
  induction hvalues generalizing number with
  | nil => rfl
  | @cons line value? ls values hline _ ih =>
    rw [readLines, readLine_of_accepts hline, ih]
    rcases value? with - | value <;> rfl

/-- The first line that may not stand decides. -/
theorem readLines_of_firstBlame {number : Nat} {ls : List Text} {e : LineError}
    (h : FirstBlame number ls e) : readLines number ls = .error e := by
  obtain ⟨i, bad, hbad, hbefore, hblames⟩ := h
  induction ls generalizing number i with
  | nil => cases hbad
  | cons line ls ih =>
    rcases i with - | i
    · obtain rfl : line = bad := Option.some.inj hbad
      have hline : readLine number line = .error e := readLine_of_blames hblames
      rw [readLines, hline]
      rfl
    · obtain ⟨⟨value?, hline⟩, hbefore⟩ := List.forall_mem_cons.1 hbefore
      have hrest : readLines (number + 1) ls = .error e :=
        ih i hbad hbefore (by rwa [Nat.add_assoc, Nat.add_comm 1])
      rw [readLines, readLine_of_accepts hline, hrest]
      rfl

theorem readLines_eq_ok_iff {number : Nat} {ls : List Text} {words : List Int} :
    readLines number ls = .ok words ↔ Holds ls words := by
  refine ⟨fun h ↦ ?_, fun h ↦ readLines_of_holds h number⟩
  rcases holds_or_firstBlame number ls with ⟨words', hwords⟩ | ⟨e, he⟩
  · rw [readLines_of_holds hwords] at h
    exact Except.ok.inj h ▸ hwords
  · rw [readLines_of_firstBlame he] at h
    cases h

theorem readLines_eq_error_iff {number : Nat} {ls : List Text} {e : LineError} :
    readLines number ls = .error e ↔ FirstBlame number ls e := by
  refine ⟨fun h ↦ ?_, readLines_of_firstBlame⟩
  rcases holds_or_firstBlame number ls with ⟨words, hwords⟩ | ⟨e', he⟩
  · rw [readLines_of_holds hwords] at h
    cases h
  · rw [readLines_of_firstBlame he] at h
    exact Except.error.inj h ▸ he

/-- The numbers on lines that may stand have 32 bits. -/
theorem le_of_accepts {ls : List Text} {values : List (Option Nat)}
    (h : List.Forall₂ Accepts ls values) : ∀ value, some value ∈ values → value ≤ 0xFFFFFFFF := by
  induction h with
  | nil => simp
  | cons hline _ ih =>
    rintro value (_ | ⟨_, hvalue⟩)
    · cases hline with
      | number _ _ hfits => exact hfits.1
    · exact ih value hvalue

/-- What is read from a text are words. -/
theorem isWord_of_mem_parse {text : Text} {words : List Int} (h : parse text = .ok words) :
    ∀ word ∈ words, IsWord word := by
  obtain ⟨values, hvalues, rfl⟩ := readLines_eq_ok_iff.1 h
  intro word hword
  obtain ⟨value, hvalue, rfl⟩ := List.mem_map.1 hword
  have := le_of_accepts hvalues value (List.reduceOption_mem_iff.1 hvalue)
  exact ⟨by omega, by omega⟩

/-- **Reading a text follows the grammar.** A text is cut into lines in one way. It is read exactly
when all its lines may stand, to the numbers on them in order; otherwise the first line that may
not stand is blamed, for not being a numeral or only for its size. -/
theorem parse_eq_grammar (text : Text) :
    ∃ ls, (∀ ls', Text.Cut text ls' ↔ ls' = ls) ∧
      ((∃ words, parse text = .ok words) ↔ ∀ line ∈ ls, ∃ value?, Accepts line value?) ∧
      (∀ words, parse text = .ok words ↔ Holds ls words) ∧
      (∀ e, parse text = .error e ↔ FirstBlame 1 ls e) ∧
      ∀ number body,
        (LineError.notNumeral number body).message =
            s!"Line {number}: not a hex word: {Text.quoted body}" ∧
          (LineError.outOfRange number body).message =
            s!"Line {number}: word out of 32-bit range: {Text.toString body}" := by
  refine ⟨Text.lines text, fun ls' ↦ ?_, ?_, fun words ↦ readLines_eq_ok_iff,
    fun e ↦ readLines_eq_error_iff, fun number body ↦ ⟨rfl, rfl⟩⟩
  · rw [← Text.lines_eq_iff, eq_comm]
  · rw [← exists_holds_iff]
    exact exists_congr fun words ↦ readLines_eq_ok_iff

end TaggedStack.HexText
