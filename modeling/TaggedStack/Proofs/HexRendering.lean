import TaggedStack.Proofs.HexGrammar
import TaggedStack.Proofs.ListMachine
import TaggedStack.Proofs.WireFormat

/-!
# Writing programs as hexadecimal text

A program can be written in many ways. Every number may be marked, have zeros before it and letters
of either case; blanks may surround it, a comment may follow, lines may say nothing, and any break
may end a line. A `HexText.Document` is a program together with all these choices, and reading the
text of a document gives its words, whatever was chosen.

That lines can be put together is a law of its own, for texts that need not come from a document:
two texts with a break between them are read as one after the other. The law has to allow for a
carriage return at the end of the first text, since it makes one break with a line feed after it.
One line fewer is cut then, but it is an empty one, and empty lines say nothing.

* `HexText.sameWords_append`: the lines of two texts with a break between them.
* `HexText.parse_append_eq_ok_iff`: reading two texts with a break between them.
* `HexText.Spelling.unsigned_spell`: a number is read back from any spelling of it.
* `HexText.Line.accepts`: what a line of a document holds.
* `HexText.reading_undoes_writing`: reading a document, and reading two texts as one.
-/

namespace TaggedStack.HexText

/-! ### Lines put together -/

section Lines

variable {ls ls' : List Text} {line mark t u : Text} {words : List Int}

theorem holds_nil_iff : Holds [] words ↔ words = [] := by
  constructor
  · rintro ⟨values, hvalues, rfl⟩
    cases hvalues
    rfl
  · rintro rfl
    exact ⟨[], .nil, rfl⟩

/-- The words of a line and of those after it. -/
theorem holds_cons_iff :
    Holds (line :: ls) words ↔
      ∃ value? rest, Accepts line value? ∧ Holds ls rest ∧
        words = (value?.map Nat.cast).toList ++ rest := by
  constructor
  · rintro ⟨_, hvalues, rfl⟩
    rcases hvalues with - | @⟨_, value?, _, values, hline, hrest⟩
    refine ⟨value?, _, hline, ⟨values, hrest, rfl⟩, ?_⟩
    rcases value? with - | value <;> rfl
  · rintro ⟨value?, rest, hline, hrest, rfl⟩
    exact hrest.cons hline

/-- Lines hold words together when each part of them does. -/
theorem holds_append_iff :
    Holds (ls ++ ls') words ↔ ∃ us vs, Holds ls us ∧ Holds ls' vs ∧ words = us ++ vs := by
  induction ls generalizing words with
  | nil =>
    simp only [List.nil_append, holds_nil_iff]
    constructor
    · intro h
      exact ⟨[], words, rfl, h, rfl⟩
    · rintro ⟨us, vs, rfl, h, rfl⟩
      exact h
  | cons line ls ih =>
    rw [List.cons_append, holds_cons_iff]
    constructor
    · rintro ⟨value?, rest, hline, hrest, rfl⟩
      obtain ⟨us, vs, hus, hvs, rfl⟩ := ih.1 hrest
      exact ⟨_, vs, hus.cons hline, hvs, (List.append_assoc _ _ _).symm⟩
    · rintro ⟨us, vs, hus, hvs, rfl⟩
      obtain ⟨value?, rest, hline, hrest, rfl⟩ := holds_cons_iff.1 hus
      exact ⟨value?, rest ++ vs, hline, ih.2 ⟨rest, vs, hrest, hvs, rfl⟩, List.append_assoc _ _ _⟩

/-- An empty line says nothing. -/
theorem accepts_nil_iff {value? : Option Nat} : Accepts [] value? ↔ value? = none := by
  constructor
  · intro h
    have hread : Except.ok none = Except.ok (value?.map Nat.cast) := readLine_of_accepts h 1
    exact Option.map_eq_none_iff.1 (Except.ok.inj hread).symm
  · rintro rfl
    exact .nothing (content_eq_iff.1 rfl)

/-- Lists of lines that are read to the same words. -/
def SameWords (ls ls' : List Text) : Prop := ∀ words, Holds ls words ↔ Holds ls' words

theorem SameWords.refl (ls : List Text) : SameWords ls ls := fun _ ↦ Iff.rfl

theorem SameWords.symm (h : SameWords ls ls') : SameWords ls' ls := fun words ↦ (h words).symm

theorem SameWords.trans {ls'' : List Text} (h : SameWords ls ls')
    (h' : SameWords ls' ls'') : SameWords ls ls'' :=
  fun words ↦ (h words).trans (h' words)

theorem SameWords.cons (h : SameWords ls ls') (line : Text) :
    SameWords (line :: ls) (line :: ls') := by
  intro words
  simp only [holds_cons_iff, h _]

/-- Empty lines make no difference. -/
theorem sameWords_nil_cons (ls : List Text) : SameWords ([] :: ls) ls := by
  intro words
  simp only [holds_cons_iff, accepts_nil_iff]
  constructor
  · rintro ⟨_, rest, rfl, hrest, rfl⟩
    exact hrest
  · intro h
    exact ⟨none, words, rfl, h, rfl⟩

/-- A text without breaks is a single line, or no line if there is nothing in it. -/
theorem sameWords_line (hline : ∀ c ∈ line, Text.isBreak c = false) :
    SameWords (Text.lines line) [line] := by
  rcases line with - | ⟨c, line⟩
  · exact (sameWords_nil_cons []).symm
  · rw [Text.lines_of_not_break (List.cons_ne_nil c line) hline]
    exact .refl _

/-- A line and a break before any text. Where the break is a carriage return and the text begins
with a line feed, the two are one break, and the empty line between them is missing. -/
theorem sameWords_line_append (hline : ∀ c ∈ line, Text.isBreak c = false)
    (hmark : Text.LineBreak mark) (rest : Text) :
    SameWords (Text.lines (line ++ mark ++ rest)) (line :: Text.lines rest) := by
  by_cases hpair : mark = [0x0D] ∧ rest.head? = some 0x0A
  · obtain ⟨rfl, hhead⟩ := hpair
    obtain ⟨rest, rfl⟩ := List.head?_eq_some_iff.1 hhead
    have hfeed : Text.lines (0x0A :: rest) = [] :: Text.lines rest :=
      Text.lines_mark_append (.single rfl) (by simp)
    have hjoined : line ++ [0x0D] ++ 0x0A :: rest = line ++ [0x0D, 0x0A] ++ rest := by simp
    rw [hjoined, hfeed, Text.lines_line_append hline .pair (by simp)]
    exact (sameWords_nil_cons _).symm.cons line
  · rw [Text.lines_line_append hline hmark fun hreturn hhead ↦ hpair ⟨hreturn, hhead⟩]
    exact .refl _

/-- **The lines of two texts with a break between them** are those of the first and then those of
the second, up to empty ones. -/
theorem sameWords_append (hmark : Text.LineBreak mark) (t u : Text) :
    SameWords (Text.lines (t ++ mark ++ u)) (Text.lines t ++ Text.lines u) := by
  -- The induction is on how the first text is cut, so the breaks in it are those that are found.
  obtain ⟨ls, hcut⟩ : ∃ ls, Text.Cut t ls := ⟨_, Text.cut_lines t⟩
  induction hcut with
  | nil =>
    have hempty : ∀ c ∈ ([] : Text), Text.isBreak c = false := by simp
    exact (sameWords_line_append hempty hmark u).trans (sameWords_nil_cons _)
  | @last line hne hline =>
    rw [Text.lines_of_not_break hne hline]
    exact sameWords_line_append hline hmark u
  | @cons line mark' rest more hline hmark' hpair hrest ih =>
    rw [Text.lines_line_append hline hmark' hpair, List.cons_append]
    have hfirst := sameWords_line_append hline hmark' (rest ++ mark ++ u)
    rw [← List.append_assoc, ← List.append_assoc] at hfirst
    exact hfirst.trans (ih.cons line)

/-- **Two texts with a break between them are read as one after the other.** -/
theorem parse_append_eq_ok_iff (hmark : Text.LineBreak mark) :
    parse (t ++ mark ++ u) = .ok words ↔
      ∃ us vs, parse t = .ok us ∧ parse u = .ok vs ∧ words = us ++ vs := by
  simp only [parse, readLines_eq_ok_iff]
  rw [sameWords_append hmark t u words, holds_append_iff]

end Lines

/-! ### Spelling a number -/

/-- A digit, as a capital letter where it is a letter. -/
def cased (capital : Bool) (c : Char) : CodePoint := .ofChar (if capital then c.toUpper else c)

/-- How a number is written: whether it is marked, how many zeros stand before it, and at which
places letters are capital ones. -/
structure Spelling where
  marked : Bool
  zeros : Nat
  capital : Nat → Bool

namespace Spelling

variable (s : Spelling) (n : Nat)

/-- The mark before the digits. -/
def mark : Text := if s.marked then [0x30, 0x78] else []

/-- The digits of a number. -/
def digits : Text :=
  (List.replicate s.zeros '0' ++ Nat.toDigits 16 n).mapIdx fun place ↦ cased (s.capital place)

/-- The number as it is written. -/
def spell : Text := s.mark ++ s.digits n

end Spelling

/-- The digits of a number, and their value by places. -/
theorem exists_toDigits_eq (n : Nat) :
    ∃ ds : List Nat, Nat.toDigits 16 n = ds.map Nat.digitChar ∧ (∀ d ∈ ds, d < 16) ∧
      Text.hexValue ds = n := by
  induction n using Nat.strongRecOn with
  | ind n ih =>
    by_cases hn : n < 16
    · refine ⟨[n], Nat.toDigits_of_lt_base hn, by simpa using hn, ?_⟩
      rw [Text.hexValue_eq_foldl]
      simp
    · obtain ⟨ds, hdigits, hlt, hvalue⟩ := ih (n / 16) (by omega)
      refine ⟨ds ++ [n % 16], ?_, ?_, ?_⟩
      · rw [Nat.toDigits_of_base_le (by decide) (Nat.le_of_not_lt hn), hdigits, List.map_append,
          List.map_singleton]
      · intro d hd
        rcases List.mem_append.1 hd with hd | hd
        · exact hlt d hd
        · obtain rfl := List.mem_singleton.1 hd
          exact Nat.mod_lt n (by decide)
      · rw [Text.hexValue_eq_foldl] at hvalue ⊢
        rw [List.foldl_append, hvalue, List.foldl_cons, List.foldl_nil]
        omega

/-- Zeros before a number do not change its value. -/
theorem hexValue_replicate_append (k : Nat) (ds : List Nat) :
    Text.hexValue (List.replicate k 0 ++ ds) = Text.hexValue ds := by
  induction k with
  | zero => rfl
  | succ k ih =>
    rw [List.replicate_succ, List.cons_append, Text.hexValue_eq_foldl, List.foldl_cons,
      Nat.zero_mul, ← Text.hexValue_eq_foldl, ih]

/-- A digit of either case has its value. -/
theorem hexDigit_cased {d : Nat} (hd : d < 16) (capital : Bool) :
    Text.HexDigit (cased capital d.digitChar) d := by
  have hread : ∀ d < 16, ∀ capital,
      Text.hexadecimal? (cased capital (Nat.digitChar d)) = some d := by decide
  exact Text.hexadecimal?_eq_some_iff.1 (hread d hd capital)

theorem forall₂_hexDigit_mapIdx {ds : List Nat} (hds : ∀ d ∈ ds, d < 16) (capital : Nat → Bool) :
    List.Forall₂ Text.HexDigit
      ((ds.map Nat.digitChar).mapIdx fun place ↦ cased (capital place)) ds := by
  induction ds generalizing capital with
  | nil => exact .nil
  | cons d ds ih =>
    obtain ⟨hd, hds⟩ := List.forall_mem_cons.1 hds
    rw [List.map_cons, List.mapIdx_cons]
    exact .cons (hexDigit_cased hd (capital 0)) (ih hds fun place ↦ capital (place + 1))

theorem moreDigits_of_forall₂ {s : Text} {ds : List Nat}
    (h : List.Forall₂ Text.HexDigit s ds) : Text.MoreDigits s ds := by
  induction h with
  | nil => exact .nil
  | cons hc _ ih => exact .digit hc ih

/-- Digits without underscores are a run of digits. -/
theorem digitRun_of_forall₂ {s : Text} {ds : List Nat} (h : List.Forall₂ Text.HexDigit s ds)
    (hne : s ≠ []) : Text.DigitRun s ds := by
  cases h with
  | nil => exact absurd rfl hne
  | cons hc hrest => exact .mk hc (moreDigits_of_forall₂ hrest)

namespace Spelling

variable {s : Spelling} {n : Nat}

/-- The digits of a spelling, and their value. -/
theorem exists_digits_eq (s : Spelling) (n : Nat) :
    ∃ ds : List Nat,
      s.digits n = (ds.map Nat.digitChar).mapIdx (fun place ↦ cased (s.capital place)) ∧
        (∀ d ∈ ds, d < 16) ∧ Text.hexValue ds = n := by
  obtain ⟨ds, hdigits, hlt, hvalue⟩ := exists_toDigits_eq n
  refine ⟨List.replicate s.zeros 0 ++ ds, ?_, ?_, ?_⟩
  · rw [digits, hdigits, List.map_append, List.map_replicate]
    rfl
  · intro d hd
    rcases List.mem_append.1 hd with hd | hd
    · obtain rfl := List.eq_of_mem_replicate hd
      decide
    · exact hlt d hd
  · rw [hexValue_replicate_append, hvalue]

/-- **A number is read back from any spelling of it.** -/
theorem unsigned_spell (s : Spelling) (n : Nat) : Text.Unsigned (s.spell n) n := by
  obtain ⟨ds, hdigits, hlt, hvalue⟩ := s.exists_digits_eq n
  have hne : s.digits n ≠ [] := by
    rw [digits, Ne, List.mapIdx_eq_nil_iff, List.append_eq_nil_iff]
    exact fun h ↦ Nat.toDigits_ne_nil h.2
  have hmark : Text.HexMark s.mark := by
    rw [mark]
    split
    · exact .plain (Text.decimal?_eq_some_iff.1 (by decide)) (Or.inl rfl)
    · exact .none
  refine ⟨s.mark, s.digits n, ds, rfl, hmark, digitRun_of_forall₂ ?_ hne, hvalue.symm⟩
  rw [hdigits]
  exact forall₂_hexDigit_mapIdx hlt s.capital

example :
    (⟨true, 2, (· == 2)⟩ : Spelling).spell 0xAB = Text.ofString "0x00Ab" := by decide

/-- Nothing in a number is blank or begins a comment. -/
theorem not_blank_of_mem_spell {c : CodePoint} (hc : c ∈ s.spell n) :
    Text.isBlank c = false ∧ c ≠ 0x23 := by
  rcases List.mem_append.1 hc with hc | hc
  · rw [mark] at hc
    split at hc
    · rcases List.mem_pair.1 hc with rfl | rfl <;> decide
    · cases hc
  · obtain ⟨ds, hdigits, hlt, -⟩ := s.exists_digits_eq n
    have hd : ∀ d < 16, ∀ capital,
        Text.isBlank (cased capital (Nat.digitChar d)) = false ∧
          cased capital (Nat.digitChar d) ≠ 0x23 := by decide
    rw [hdigits] at hc
    obtain ⟨place, hplace, rfl⟩ := List.mem_mapIdx.1 hc
    rw [List.getElem_map]
    exact hd _ (hlt _ (List.getElem_mem _)) (s.capital place)

end Spelling

/-! ### Lines and documents -/

/-- White space within a line. -/
abbrev Gap : Type :=
  { s : Text // ∀ c ∈ s, Text.isBlank c = true ∧ Text.isBreak c = false }

/-- What may stand in a comment. -/
abbrev Remark : Type := { s : Text // ∀ c ∈ s, Text.isBreak c = false }

/-- A line as it is written: white space around what it says, and a comment. A line need not say
anything. -/
structure Line where
  left : Gap
  said : Option (Word × Spelling)
  right : Gap
  comment : Option Remark

namespace Line

/-- The number on a line as it is written. -/
def numeral (line : Line) : Text := line.said.elim [] fun said ↦ said.2.spell said.1.val.toNat

/-- The comment of a line with its `#`. -/
def remark (line : Line) : Text := line.comment.elim [] fun comment ↦ 0x23 :: comment.val

def text (line : Line) : Text :=
  line.left.val ++ line.numeral ++ line.right.val ++ line.remark

/-- The word on a line, if there is one. -/
def words (line : Line) : List Int := (line.said.map fun said ↦ said.1.val).toList

/-- A line without white space and without a comment. -/
def bare (said : Option (Word × Spelling)) : Line := ⟨⟨[], nofun⟩, said, ⟨[], nofun⟩, none⟩

variable {line : Line} {c : CodePoint}

theorem not_blank_of_mem_numeral (hc : c ∈ line.numeral) : Text.isBlank c = false ∧ c ≠ 0x23 := by
  obtain ⟨left, - | said, right, comment⟩ := line
  · cases hc
  · exact Spelling.not_blank_of_mem_spell hc

theorem says_numeral (line : Line) : Says line.text line.numeral := by
  refine ⟨line.left.val ++ line.numeral ++ line.right.val, line.remark, rfl, ?_, ?_,
    line.left.val, line.right.val, rfl, fun c hc ↦ (line.left.property c hc).1,
    fun c hc ↦ (line.right.property c hc).1,
    fun c hc ↦ (not_blank_of_mem_numeral (List.mem_of_mem_head? hc)).1,
    fun c hc ↦ (not_blank_of_mem_numeral (List.mem_of_mem_getLast? hc)).1⟩
  · have hblank : Text.isBlank 0x23 = false := by decide
    intro hmem
    rcases List.mem_append.1 hmem with hmem | hmem
    · rcases List.mem_append.1 hmem with hmem | hmem
      · exact absurd (line.left.property _ hmem).1 (by rw [hblank]; decide)
      · exact (not_blank_of_mem_numeral hmem).2 rfl
    · exact absurd (line.right.property _ hmem).1 (by rw [hblank]; decide)
  · intro c hc
    obtain ⟨left, said, right, - | comment⟩ := line
    · cases hc
    · exact (Option.some.inj hc).symm

/-- **A line of a document holds its word.** -/
theorem accepts (line : Line) : Accepts line.text (line.said.map fun said ↦ said.1.val.toNat) := by
  have hline := line.says_numeral
  obtain ⟨left, - | ⟨⟨w, hw⟩, spelling⟩, right, comment⟩ := line
  · exact .nothing hline
  · have hfits : Fits false w.toNat := ⟨by have := hw.2; omega, nofun⟩
    exact .number hline ⟨[], _, rfl, .none, spelling.unsigned_spell _⟩ hfits

/-- There is no break in a line. -/
theorem not_break_of_mem (hc : c ∈ line.text) : Text.isBreak c = false := by
  simp only [text, List.mem_append] at hc
  rcases hc with ((hc | hc) | hc) | hc
  · exact (line.left.property c hc).2
  · -- Breaks are blank, and there are no blanks in a number.
    rw [Bool.eq_false_iff]
    intro hbreak
    exact absurd (Text.isBlank_of_isBreak hbreak) (by rw [(not_blank_of_mem_numeral hc).1]; decide)
  · exact (line.right.property c hc).2
  · obtain ⟨left, said, right, - | comment⟩ := line
    · cases hc
    · rcases List.mem_cons.1 hc with rfl | hc
      · rfl
      · exact comment.property c hc

/-- What is read from a single line. -/
theorem parse_text (line : Line) : parse line.text = .ok line.words := by
  have hholds : Holds [line.text] line.words := by
    refine holds_cons_iff.2 ⟨_, [], line.accepts, holds_nil_iff.2 rfl, ?_⟩
    rw [List.append_nil, words, Option.map_map]
    congr 2
    funext said
    exact (Int.toNat_of_nonneg said.1.property.1).symm
  exact readLines_eq_ok_iff.2 ((sameWords_line (fun c hc ↦ not_break_of_mem hc) _).2 hholds)

end Line

/-- A program as it is written: lines, all but the last with the breaks that end them. -/
structure Document where
  front : List (Line × { mark : Text // Text.LineBreak mark })
  last : Line

namespace Document

def text (d : Document) : Text :=
  d.front.flatMap (fun line ↦ line.1.text ++ line.2.val) ++ d.last.text

/-- The words on the lines, in order. -/
def words (d : Document) : List Int := d.front.flatMap (fun line ↦ line.1.words) ++ d.last.words

/-- **Reading a document gives its words.** -/
theorem parse_text (d : Document) : parse d.text = .ok d.words := by
  obtain ⟨front, last⟩ := d
  induction front with
  | nil => exact last.parse_text
  | cons line front ih =>
    rw [text, words, List.flatMap_cons, List.flatMap_cons, List.append_assoc,
      List.append_assoc line.1.words]
    exact (parse_append_eq_ok_iff line.2.property).2 ⟨_, _, line.1.parse_text, ih, rfl⟩

theorem isWord_of_mem_words (d : Document) : ∀ w ∈ d.words, IsWord w :=
  isWord_of_mem_parse d.parse_text

/-- Words one a line, without mark or zeros and in small letters. -/
def plain (ws : List Word) : Document where
  front := ws.map fun w ↦ (.bare (some (w, ⟨false, 0, fun _ ↦ false⟩)), ⟨[0x0A], .single rfl⟩)
  last := .bare none

theorem words_plain (ws : List Word) : (plain ws).words = ws.map Subtype.val := by
  induction ws with
  | nil => rfl
  | cons w ws ih =>
    rw [List.map_cons, ← ih]
    rfl

end Document

/-- **Reading undoes writing, and takes texts apart at line feeds.** However a program is written,
reading gives its words in order, as storing them as bytes and fetching them again does, and every
list of words can be written. Two texts with a line feed between them can be read exactly when both
can, and are then read as one after the other. -/
theorem reading_undoes_writing :
    (∀ d : Document, parse d.text = .ok d.words ∧
        ∃ bytes, Wire.write d.words = .ok bytes ∧ Wire.read bytes = .ok d.words) ∧
      (∀ ws : List Word, ∃ d : Document, d.words = ws.map Subtype.val) ∧
      ∀ t u : Text,
        ((∃ words, parse (t ++ 0x0A :: u) = .ok words) ↔
            (∃ us, parse t = .ok us) ∧ ∃ vs, parse u = .ok vs) ∧
          ∀ us vs, parse t = .ok us → parse u = .ok vs →
            parse (t ++ 0x0A :: u) = .ok (us ++ vs) := by
  have hfeed : Text.LineBreak [0x0A] := .single rfl
  refine ⟨fun d ↦ ⟨d.parse_text, ?_⟩, fun ws ↦ ⟨.plain ws, Document.words_plain ws⟩,
    fun t u ↦ ?_⟩
  · obtain ⟨bytes, hbytes⟩ := (Wire.exists_write_iff d.words).2 d.isWord_of_mem_words
    exact ⟨bytes, hbytes, Wire.read_write hbytes⟩
  · rw [List.append_cons]
    refine ⟨⟨?_, ?_⟩, fun us vs hus hvs ↦ ?_⟩
    · rintro ⟨words, h⟩
      obtain ⟨us, vs, hus, hvs, -⟩ := (parse_append_eq_ok_iff hfeed).1 h
      exact ⟨⟨us, hus⟩, vs, hvs⟩
    · rintro ⟨⟨us, hus⟩, vs, hvs⟩
      exact ⟨us ++ vs, (parse_append_eq_ok_iff hfeed).2 ⟨us, vs, hus, hvs, rfl⟩⟩
    · exact (parse_append_eq_ok_iff hfeed).2 ⟨us, vs, hus, hvs, rfl⟩

/-- A carriage return at the end of a text and the line feed after it are one break. -/
example : parse ([0x31, 0x0D] ++ 0x0A :: [0x30, 0x58, 0x62, 0x20, 0x23, 0xD800]) = .ok [1, 11] := by
  decide

end TaggedStack.HexText
