import Mathlib.Data.List.DropRight
import Mathlib.Data.List.TakeWhile
import TaggedStack.Text.Blank

/-!
# What cutting and stripping a text means

Two readers of plain text, each beside a relation that says what it finds without saying how. A
text is *cut* into lines when it is these lines with a break after each, the last break left out or
not; it is *stripped* to a part of it when blanks are all that surrounds this part.

Both relations are functions. A carriage return and a line feed could be two breaks, and the
relation has to exclude this; a text that ends in a break could have an empty line after it, and
the relation has no rule for an empty last line.

* `Text.lines_eq_iff`: the lines of a text are those it is cut into.
* `Text.strip_eq_iff`: stripping gives what a text is stripped to.
-/

namespace TaggedStack.Text

/-! ### Cutting a text into lines -/

/-- What ends a line: a single code point, or a carriage return (`0x0D`) and a line feed
(`0x0A`). -/
inductive LineBreak : Text → Prop
  | single {c : CodePoint} (h : isBreak c = true) : LineBreak [c]
  | pair : LineBreak [0x0D, 0x0A]

/-- A text cut into its lines. A carriage return ends a line by itself only where no line feed
follows, and only a text that does not end in a break has a line without one. -/
inductive Cut : Text → List Text → Prop
  | nil : Cut [] []
  | last {line : Text} (hne : line ≠ []) (hline : ∀ c ∈ line, isBreak c = false) :
      Cut line [line]
  | cons {line mark rest : Text} {more : List Text}
      (hline : ∀ c ∈ line, isBreak c = false) (hmark : LineBreak mark)
      (hpair : mark = [0x0D] → rest.head? ≠ some 0x0A) (hrest : Cut rest more) :
      Cut (line ++ mark ++ rest) (line :: more)

/-- A code point that ends no line belongs to the first line. -/
theorem lines_cons_of_not_break {c : CodePoint} (hc : isBreak c = false) (s : Text) :
    lines (c :: s) =
      match lines s with
      | [] => [[c]]
      | line :: more => (c :: line) :: more := by
  have hreturn : c ≠ 0x0D := by
    rintro rfl
    cases hc
  rw [lines.eq_3 _ _ fun _ h _ ↦ hreturn h]
  exact if_neg (by rw [hc]; decide)

/-- A break at the start of a text ends an empty line. -/
theorem lines_mark_append {mark rest : Text} (hmark : LineBreak mark)
    (hpair : mark = [0x0D] → rest.head? ≠ some 0x0A) :
    lines (mark ++ rest) = [] :: lines rest := by
  cases hmark with
  | pair => rfl
  | @single c hc =>
    have hfeed : ∀ rest', c = 0x0D → rest = 0x0A :: rest' → False := by
      rintro rest' rfl rfl
      exact hpair rfl rfl
    rw [List.singleton_append, lines.eq_3 _ _ hfeed, if_pos hc]

/-- The first line is what stands before the first break. -/
theorem lines_line_append {line mark rest : Text} (hline : ∀ c ∈ line, isBreak c = false)
    (hmark : LineBreak mark) (hpair : mark = [0x0D] → rest.head? ≠ some 0x0A) :
    lines (line ++ mark ++ rest) = line :: lines rest := by
  induction line with
  | nil => exact lines_mark_append hmark hpair
  | cons c line ih =>
    obtain ⟨hc, hline⟩ := List.forall_mem_cons.1 hline
    rw [List.cons_append, List.cons_append, lines_cons_of_not_break hc, ih hline]

/-- A text without breaks is a single line. -/
theorem lines_of_not_break {line : Text} (hne : line ≠ [])
    (hline : ∀ c ∈ line, isBreak c = false) : lines line = [line] := by
  induction line with
  | nil => exact absurd rfl hne
  | cons c line ih =>
    obtain ⟨hc, hline⟩ := List.forall_mem_cons.1 hline
    rw [lines_cons_of_not_break hc]
    rcases line with - | ⟨d, line⟩
    · rfl
    · rw [ih (List.cons_ne_nil d line) hline]

/-- The first line of a text that is cut grows by what is put before it. -/
theorem Cut.cons_of_not_break {c : CodePoint} {s line : Text} {more : List Text}
    (h : Cut s (line :: more)) (hc : isBreak c = false) : Cut (c :: s) ((c :: line) :: more) := by
  cases h with
  | last hne hline =>
    exact .last (List.cons_ne_nil c _) (List.forall_mem_cons.2 ⟨hc, hline⟩)
  | cons hline hmark hpair hrest =>
    rw [← List.cons_append, ← List.cons_append]
    exact .cons (List.forall_mem_cons.2 ⟨hc, hline⟩) hmark hpair hrest

theorem Cut.eq_nil {s : Text} (h : Cut s []) : s = [] := by
  cases h
  rfl

/-- Every text is cut into its lines. -/
theorem cut_lines (s : Text) : Cut s (lines s) := by
  induction s using lines.induct with
  | case1 => exact .nil
  | case2 rest ih =>
    show Cut ([] ++ [0x0D, 0x0A] ++ rest) ([] :: lines rest)
    exact .cons (by simp) .pair (by simp) ih
  | case3 c rest hfeed hc ih =>
    rw [lines.eq_3 _ _ hfeed, if_pos hc]
    show Cut ([] ++ [c] ++ rest) ([] :: lines rest)
    refine .cons (by simp) (.single hc) (fun hmark hhead ↦ ?_) ih
    obtain ⟨tail, htail⟩ := List.head?_eq_some_iff.1 hhead
    exact hfeed tail (List.cons.inj hmark).1 htail
  | case4 c rest hfeed hc hnone ih =>
    rw [hnone] at ih
    obtain rfl := ih.eq_nil
    rw [lines_cons_of_not_break (Bool.eq_false_iff.2 hc)]
    exact .last (List.cons_ne_nil c []) (by simpa using hc)
  | case5 c rest hfeed hc line more hlines ih =>
    rw [hlines] at ih
    rw [lines_cons_of_not_break (Bool.eq_false_iff.2 hc), hlines]
    exact ih.cons_of_not_break (Bool.eq_false_iff.2 hc)

/-- **The lines of a text are those it is cut into.** -/
theorem lines_eq_iff {s : Text} {ls : List Text} : lines s = ls ↔ Cut s ls := by
  constructor
  · rintro rfl
    exact cut_lines s
  · intro h
    induction h with
    | nil => rfl
    | last hne hline => exact lines_of_not_break hne hline
    | cons hline hmark hpair _ ih => rw [lines_line_append hline hmark hpair, ih]

/-! ### Stripping -/

/-- A text is stripped to a part of it when the code points around the part are of a class, and the
part neither begins nor ends with one of them. -/
def StripsTo (drops : CodePoint → Bool) (s body : Text) : Prop :=
  ∃ left right, s = left ++ body ++ right ∧ (∀ c ∈ left, drops c = true) ∧
    (∀ c ∈ right, drops c = true) ∧ (∀ c ∈ body.head?, drops c = false) ∧
    ∀ c ∈ body.getLast?, drops c = false

variable {drops : CodePoint → Bool} {s body : Text}

theorem strip_eq_rdropWhile (drops : CodePoint → Bool) (s : Text) :
    strip drops s = (s.dropWhile drops).rdropWhile drops := rfl

theorem head?_strip (drops : CodePoint → Bool) (s : Text) :
    ∀ c ∈ (strip drops s).head?, drops c = false := by
  intro c hc
  -- What is left is a beginning of the text without its first blanks.
  obtain ⟨tail, htail⟩ := List.rdropWhile_prefix (p := drops) (s.dropWhile drops)
  have hhead : c ∈ (s.dropWhile drops).head? := by
    rw [← htail]
    exact List.mem_head?_append_of_mem_head? hc
  have := List.head?_dropWhile_not drops s
  rw [Option.mem_def.1 hhead] at this
  simpa using this

theorem getLast?_strip (drops : CodePoint → Bool) (s : Text) :
    ∀ c ∈ (strip drops s).getLast?, drops c = false := by
  intro c hc
  obtain ⟨hne, hlast⟩ := List.mem_getLast?_eq_getLast hc
  rw [hlast, ← Bool.not_eq_true]
  exact List.rdropWhile_last_not drops (s.dropWhile drops) hne

/-- Stripping only removes code points of the class. -/
theorem stripsTo_strip (drops : CodePoint → Bool) (s : Text) :
    StripsTo drops s (strip drops s) := by
  refine ⟨s.takeWhile drops, (s.dropWhile drops).rtakeWhile drops, ?_, ?_, ?_, head?_strip drops s,
    getLast?_strip drops s⟩
  · rw [strip_eq_rdropWhile, List.append_assoc, List.rdropWhile_append_rtakeWhile,
      List.takeWhile_append_dropWhile]
  · exact fun c hc ↦ List.mem_takeWhile_imp hc
  · exact fun c hc ↦ List.mem_rtakeWhile_imp hc

/-- **Stripping gives what a text is stripped to.** -/
theorem strip_eq_iff : strip drops s = body ↔ StripsTo drops s body := by
  constructor
  · rintro rfl
    exact stripsTo_strip drops s
  · rintro ⟨left, right, rfl, hleft, hright, hhead, hlast⟩
    rw [strip, List.append_assoc, List.dropWhile_append_of_pos hleft]
    rcases body.eq_nil_or_concat with rfl | ⟨front, c, rfl⟩
    · rw [List.nil_append, List.dropWhile_eq_nil_iff.2 hright]
      rfl
    · -- The part has a first code point, at which dropping stops from the left.
      have hstop : (front ++ [c] ++ right).dropWhile drops = front ++ [c] ++ right := by
        rcases front with - | ⟨d, front⟩
        · exact List.dropWhile_cons_of_neg (by simpa using hhead c rfl)
        · exact List.dropWhile_cons_of_neg (by simpa using hhead d rfl)
      have hright' : ∀ d ∈ right.reverse, drops d = true :=
        fun d hd ↦ hright d (List.mem_reverse.1 hd)
      rw [List.concat_eq_append, hstop, List.reverse_append, List.dropWhile_append_of_pos hright',
        List.reverse_append, List.reverse_singleton, List.singleton_append,
        List.dropWhile_cons_of_neg (by simpa using hlast c (by simp)), List.reverse_cons,
        List.reverse_reverse]

end TaggedStack.Text
