import Mathlib.Data.Nat.Digits.Lemmas
import TaggedStack.Text.Numeral

/-!
# The grammar of hexadecimal numerals

A numeral is a sign, a mark and digits, the first two of which may be missing. The grammar says so
by one relation for each part, and reads the value off the digits by their places. Where the reader
decides on the next code point alone, the grammar leaves all splits open; that only one of them is a
numeral rests on three facts about single code points: no digit is a sign, no digit is an underscore
(`0x5F`), and the second half of a mark (`0x78` or `0x58`) is no digit.

* `Text.decimal?_eq_some_iff`, `Text.hexadecimal?_eq_some_iff`: which code points are digits.
* `Text.moreDigits_eq_some_iff`, `Text.digitRun_eq_some_iff`: runs of digits and their values.
* `Text.hexInt?_eq_some_iff`: what is read as a numeral is what the grammar has.
* `Text.isWritable_iff`: which numbers have few enough digits to be written in decimal.
-/

namespace TaggedStack.Text

/-! ### Digits -/

/-- A decimal digit of some script, and its value. -/
def DecimalDigit (c : CodePoint) (value : Nat) : Prop :=
  value < 10 ∧ ∃ first ∈ zeros, c.val = first + value

/-- A hexadecimal digit and its value. -/
inductive HexDigit : CodePoint → Nat → Prop
  | decimal {c : CodePoint} {value : Nat} (h : DecimalDigit c value) : HexDigit c value
  | lower {c : CodePoint} {place : Nat} (h : place < 6) (hc : c.val = 'a'.toNat + place) :
      HexDigit c (10 + place)
  | upper {c : CodePoint} {place : Nat} (h : place < 6) (hc : c.val = 'A'.toNat + place) :
      HexDigit c (10 + place)

/-- The digits of different scripts do not overlap. -/
theorem zeros_apart : zeros.Pairwise fun a b ↦ a + 10 ≤ b := by decide

/-- No decimal digit stands among the letters that are digits. -/
theorem zeros_off_letters : ∀ first ∈ zeros, first + 10 ≤ 'A'.toNat ∨ 'f'.toNat < first := by decide

/-- Among runs of ten that do not overlap, a number lies in at most one, so it does not matter that
the first one found is taken. -/
theorem findSome?_run_eq_some_iff {firsts : List Nat}
    (hapart : firsts.Pairwise fun a b ↦ a + 10 ≤ b) {n value : Nat} :
    (firsts.findSome? fun first ↦ if first ≤ n ∧ n < first + 10 then some (n - first) else none) =
        some value ↔
      value < 10 ∧ ∃ first ∈ firsts, n = first + value := by
  induction firsts with
  | nil => simp
  | cons a firsts ih =>
    obtain ⟨hlater, hrest⟩ := List.pairwise_cons.1 hapart
    rw [List.findSome?_cons]
    by_cases hin : a ≤ n ∧ n < a + 10
    · rw [if_pos hin]
      simp only [Option.some.injEq, List.mem_cons, exists_eq_or_imp]
      constructor
      · intro h
        exact ⟨by omega, Or.inl (by omega)⟩
      · rintro ⟨hvalue, h | ⟨first, hfirst, h⟩⟩
        · omega
        · have := hlater first hfirst
          omega
    · rw [if_neg hin, ih hrest]
      simp only [List.mem_cons, exists_eq_or_imp]
      constructor
      · rintro ⟨hvalue, h⟩
        exact ⟨hvalue, Or.inr h⟩
      · rintro ⟨hvalue, h | h⟩
        · exact absurd ⟨by omega, by omega⟩ hin
        · exact ⟨hvalue, h⟩

theorem decimal?_eq_some_iff {c : CodePoint} {value : Nat} :
    decimal? c = some value ↔ DecimalDigit c value :=
  findSome?_run_eq_some_iff zeros_apart

/-- A letter that is a digit is no decimal digit. -/
theorem DecimalDigit.off_letters {c : CodePoint} {value : Nat} (h : DecimalDigit c value) :
    c.val < 'A'.toNat ∨ 'f'.toNat < c.val := by
  obtain ⟨hvalue, first, hfirst, hc⟩ := h
  have := zeros_off_letters first hfirst
  omega

/-- The digits are those of the grammar. -/
theorem hexadecimal?_eq_some_iff {c : CodePoint} {value : Nat} :
    hexadecimal? c = some value ↔ HexDigit c value := by
  have ha : 'a'.toNat = 97 := rfl
  have hf : 'f'.toNat = 102 := rfl
  have hA : 'A'.toNat = 65 := rfl
  have hF : 'F'.toNat = 70 := rfl
  rw [hexadecimal?, ha, hf, hA, hF]
  split
  · next hlower =>
    rw [Option.some.injEq]
    constructor
    · rintro rfl
      rw [Nat.add_comm]
      exact .lower (by omega) (by omega)
    · rintro (h | ⟨h, hc⟩ | ⟨h, hc⟩)
      · have := h.off_letters
        omega
      · omega
      · omega
  · next hlower =>
    split
    · next hupper =>
      rw [Option.some.injEq]
      constructor
      · rintro rfl
        rw [Nat.add_comm]
        exact .upper (by omega) (by omega)
      · rintro (h | ⟨h, hc⟩ | ⟨h, hc⟩)
        · have := h.off_letters
          omega
        · omega
        · omega
    · next hupper =>
      rw [decimal?_eq_some_iff]
      constructor
      · exact .decimal
      · rintro (h | ⟨h, hc⟩ | ⟨h, hc⟩)
        · exact h
        · exact absurd ⟨by omega, by omega⟩ hlower
        · exact absurd ⟨by omega, by omega⟩ hupper

/-- A digit has the value it is read as. -/
theorem HexDigit.value_eq {c : CodePoint} {d d' : Nat} (h : HexDigit c d')
    (hd : hexadecimal? c = some d) : d = d' :=
  Option.some.inj (hd.symm.trans (hexadecimal?_eq_some_iff.2 h))

/-- A code point without a value is no digit. -/
theorem not_hexDigit {c : CodePoint} (h : hexadecimal? c = none) (value : Nat) :
    ¬HexDigit c value := by
  rw [← hexadecimal?_eq_some_iff, h]
  exact Option.some_ne_none value ∘ Eq.symm

/-! ### Runs of digits -/

/-- Digits, each after at most one underscore, and their values. -/
inductive MoreDigits : Text → List Nat → Prop
  | nil : MoreDigits [] []
  | digit {c : CodePoint} {d : Nat} {s : Text} {ds : List Nat} (h : HexDigit c d)
      (hs : MoreDigits s ds) : MoreDigits (c :: s) (d :: ds)
  | spaced {c : CodePoint} {d : Nat} {s : Text} {ds : List Nat} (h : HexDigit c d)
      (hs : MoreDigits s ds) : MoreDigits (0x5F :: c :: s) (d :: ds)

/-- One or more digits with single underscores between them, and their values. -/
inductive DigitRun : Text → List Nat → Prop
  | mk {c : CodePoint} {d : Nat} {s : Text} {ds : List Nat} (h : HexDigit c d)
      (hs : MoreDigits s ds) : DigitRun (c :: s) (d :: ds)

/-- The number with the given hexadecimal digits, the most significant first. -/
def hexValue (ds : List Nat) : Nat := Nat.ofDigits 16 ds.reverse

/-- Reading digit by digit multiplies what was read so far. -/
theorem hexValue_eq_foldl (ds : List Nat) : hexValue ds = ds.foldl (fun v d ↦ v * 16 + d) 0 := by
  rw [hexValue, Nat.ofDigits_eq_foldr, List.foldr_reverse]
  congr 1
  funext v d
  rw [Nat.cast_id, Nat.add_comm, Nat.mul_comm]

/-- Further digits are read from left to right onto the value so far. -/
theorem moreDigits_eq_some_iff {value n : Nat} {s : Text} :
    moreDigits 16 hexadecimal? value s = some n ↔
      ∃ ds, MoreDigits s ds ∧ n = ds.foldl (fun v d ↦ v * 16 + d) value := by
  have hunderscore := not_hexDigit (c := 0x5F) (by decide)
  induction value, s using moreDigits.induct 16 hexadecimal? with
  | case1 value =>
    rw [moreDigits, Option.some.injEq]
    constructor
    · rintro rfl
      exact ⟨[], .nil, rfl⟩
    · rintro ⟨ds, hds, rfl⟩
      cases hds
      rfl
  | case2 value c rest d hd ih =>
    rw [moreDigits, hd]
    refine ih.trans ⟨?_, ?_⟩
    · rintro ⟨ds, hds, rfl⟩
      exact ⟨d :: ds, .spaced (hexadecimal?_eq_some_iff.1 hd) hds, rfl⟩
    · rintro ⟨_, hds, rfl⟩
      cases hds with
      | digit h => exact absurd h (hunderscore _)
      | @spaced _ d' _ ds h hs =>
        obtain rfl := h.value_eq hd
        exact ⟨ds, hs, rfl⟩
  | case3 value c rest hnone =>
    rw [moreDigits, hnone]
    refine ⟨nofun, ?_⟩
    rintro ⟨_, hds, rfl⟩
    cases hds with
    | digit h => exact absurd h (hunderscore _)
    | spaced h => exact absurd h (not_hexDigit hnone _)
  | case4 value c rest hsingle d hd ih =>
    rw [moreDigits.eq_3 _ _ _ _ _ hsingle, hd]
    refine ih.trans ⟨?_, ?_⟩
    · rintro ⟨ds, hds, rfl⟩
      exact ⟨d :: ds, .digit (hexadecimal?_eq_some_iff.1 hd) hds, rfl⟩
    · rintro ⟨_, hds, rfl⟩
      cases hds with
      | @digit _ d' _ ds h hs =>
        obtain rfl := h.value_eq hd
        exact ⟨ds, hs, rfl⟩
      | spaced => exact (hsingle _ _ rfl rfl).elim
  | case5 value c rest hsingle hnone =>
    rw [moreDigits.eq_3 _ _ _ _ _ hsingle, hnone]
    refine ⟨nofun, ?_⟩
    rintro ⟨_, hds, rfl⟩
    cases hds with
    | digit h => exact absurd h (not_hexDigit hnone _)
    | spaced => exact (hsingle _ _ rfl rfl).elim

/-- A run of digits is read to its value by places. -/
theorem digitRun_eq_some_iff {n : Nat} {s : Text} :
    digitRun 16 hexadecimal? s = some n ↔ ∃ ds, DigitRun s ds ∧ n = hexValue ds := by
  rcases s with - | ⟨c, rest⟩
  · rw [digitRun]
    refine ⟨nofun, ?_⟩
    rintro ⟨_, ⟨⟩, -⟩
  · rw [digitRun]
    cases hd : hexadecimal? c with
    | none =>
      refine ⟨nofun, ?_⟩
      rintro ⟨_, ⟨h, -⟩, -⟩
      exact absurd h (not_hexDigit hd _)
    | some d =>
      refine moreDigits_eq_some_iff.trans ⟨?_, ?_⟩
      · rintro ⟨ds, hds, rfl⟩
        refine ⟨d :: ds, .mk (hexadecimal?_eq_some_iff.1 hd) hds, ?_⟩
        rw [hexValue_eq_foldl, List.foldl_cons, Nat.zero_mul, Nat.zero_add]
      · rintro ⟨_, @⟨_, d', _, ds, h, hs⟩, rfl⟩
        obtain rfl := h.value_eq hd
        refine ⟨ds, hs, ?_⟩
        rw [hexValue_eq_foldl, List.foldl_cons, Nat.zero_mul, Nat.zero_add]

/-! ### Marks -/

/-- What may mark a hexadecimal numeral: nothing, or a zero of any script and an `x`, with or
without an underscore behind it. -/
inductive HexMark : Text → Prop
  | none : HexMark []
  | plain {z x : CodePoint} (hz : DecimalDigit z 0) (hx : x = 0x78 ∨ x = 0x58) : HexMark [z, x]
  | spaced {z x : CodePoint} (hz : DecimalDigit z 0) (hx : x = 0x78 ∨ x = 0x58) :
    HexMark [z, x, 0x5F]

/-- Only an underscore right behind a mark goes with it. -/
theorem dropHexMark_of_mark {z x : CodePoint} {rest : Text}
    (hmark : decimal? z = some 0 ∧ (x = 0x78 ∨ x = 0x58)) (hrest : ∀ more, rest ≠ 0x5F :: more) :
    dropHexMark (z :: x :: rest) = rest := by
  rw [dropHexMark, if_pos hmark]
  exact hrest

/-- What is dropped from the start of a numeral is a mark. -/
theorem exists_hexMark_append (s : Text) :
    ∃ mark, HexMark mark ∧ s = mark ++ dropHexMark s := by
  rcases s with - | ⟨z, - | ⟨x, rest⟩⟩
  · exact ⟨[], .none, rfl⟩
  · exact ⟨[], .none, rfl⟩
  · by_cases hmark : decimal? z = some 0 ∧ (x = 0x78 ∨ x = 0x58)
    · have hz := decimal?_eq_some_iff.1 hmark.1
      by_cases hspaced : ∃ more, rest = 0x5F :: more
      · obtain ⟨more, rfl⟩ := hspaced
        refine ⟨[z, x, 0x5F], .spaced hz hmark.2, ?_⟩
        rw [dropHexMark, if_pos hmark]
        rfl
      · refine ⟨[z, x], .plain hz hmark.2, ?_⟩
        rw [dropHexMark_of_mark hmark fun more h ↦ hspaced ⟨more, h⟩]
        rfl
    · exact ⟨[], .none, (if_neg hmark).symm⟩

/-- No digit is the second half of a mark. -/
theorem not_hexDigit_x {x : CodePoint} (hx : x = 0x78 ∨ x = 0x58) (value : Nat) :
    ¬HexDigit x value := by
  rcases hx with rfl | rfl <;> exact not_hexDigit (by decide) value

/-- What follows a mark are the digits, if any digits follow. -/
theorem dropHexMark_append {mark s : Text} {ds : List Nat} (hmark : HexMark mark)
    (hs : DigitRun s ds) : dropHexMark (mark ++ s) = s := by
  obtain @⟨c, d, rest, more, hc, hrest⟩ := hs
  cases hmark with
  | none =>
    -- The second code point would have to be an `x`, but it is a digit or an underscore.
    rcases rest with - | ⟨x, rest⟩
    · rfl
    · refine if_neg ?_
      rintro ⟨-, hx⟩
      cases hrest with
      | digit h => exact absurd h (not_hexDigit_x hx _)
      | spaced => rcases hx with hx | hx <;> cases hx
  | plain hz hx =>
    have hunderscore : c ≠ 0x5F := by
      rintro rfl
      exact not_hexDigit (by decide) d hc
    exact dropHexMark_of_mark ⟨decimal?_eq_some_iff.2 hz, hx⟩
      fun more h ↦ hunderscore (List.cons.inj h).1
  | spaced hz hx =>
    rw [List.cons_append, List.cons_append, List.singleton_append, dropHexMark,
      if_pos ⟨decimal?_eq_some_iff.2 hz, hx⟩]

/-! ### Signs and whole numerals -/

/-- A sign, which may be missing, and whether it is a minus. -/
inductive Sign : Text → Bool → Prop
  | none : Sign [] false
  | plus : Sign [0x2B] false
  | minus : Sign [0x2D] true

/-- A hexadecimal numeral without a sign, and its value. -/
def Unsigned (s : Text) (value : Nat) : Prop :=
  ∃ mark digits ds, s = mark ++ digits ∧ HexMark mark ∧ DigitRun digits ds ∧ value = hexValue ds

/-- A hexadecimal numeral, whether its sign is a minus, and the value of its digits. -/
def HexNumeral (s : Text) (minus : Bool) (value : Nat) : Prop :=
  ∃ sign rest, s = sign ++ rest ∧ Sign sign minus ∧ Unsigned rest value

/-- The number a numeral stands for. -/
def signedValue (minus : Bool) (value : Nat) : Int := if minus then -value else value

theorem unsigned_iff {s : Text} {n : Nat} :
    digitRun 16 hexadecimal? (dropHexMark s) = some n ↔ Unsigned s n := by
  rw [digitRun_eq_some_iff]
  constructor
  · rintro ⟨ds, hds, hn⟩
    obtain ⟨mark, hmark, hs⟩ := exists_hexMark_append s
    exact ⟨mark, dropHexMark s, ds, hs, hmark, hds, hn⟩
  · rintro ⟨mark, digits, ds, rfl, hmark, hds, hn⟩
    rw [dropHexMark_append hmark hds]
    exact ⟨ds, hds, hn⟩

/-- A numeral without a sign begins with a digit. -/
theorem Unsigned.exists_digit {s : Text} {value : Nat} (h : Unsigned s value) :
    ∃ c d rest, HexDigit c d ∧ s = c :: rest := by
  obtain ⟨mark, digits, ds, rfl, hmark, ⟨hc, -⟩, -⟩ := h
  cases hmark with
  | none => exact ⟨_, _, _, hc, rfl⟩
  | plain hz => exact ⟨_, _, _, .decimal hz, rfl⟩
  | spaced hz => exact ⟨_, _, _, .decimal hz, rfl⟩

/-- A minus turns the number behind it around. -/
theorem signed_minus_eq_some_iff {numeral? : Text → Option Nat} {rest : Text} {n : Int} :
    signed numeral? (0x2D :: rest) = some n ↔
      ∃ value : Nat, numeral? rest = some value ∧ n = -value := by
  rw [signed]
  cases numeral? rest <;> simp [eq_comm]

/-- A plus changes nothing. -/
theorem signed_plus_eq_some_iff {numeral? : Text → Option Nat} {rest : Text} {n : Int} :
    signed numeral? (0x2B :: rest) = some n ↔
      ∃ value : Nat, numeral? rest = some value ∧ n = value := by
  rw [signed]
  cases numeral? rest <;> simp [eq_comm]

/-- Anything else is read as it stands. -/
theorem signed_bare_eq_some_iff {numeral? : Text → Option Nat} {s : Text} {n : Int}
    (hminus : s.head? ≠ some 0x2D) (hplus : s.head? ≠ some 0x2B) :
    signed numeral? s = some n ↔ ∃ value : Nat, numeral? s = some value ∧ n = value := by
  rw [signed.eq_3]
  · cases numeral? s <;> simp [eq_comm]
  · rintro rest rfl
    exact hminus rfl
  · rintro rest rfl
    exact hplus rfl

/-- **What is read as a numeral is what the grammar has.** -/
theorem hexInt?_eq_some_iff {s : Text} {n : Int} :
    hexInt? s = some n ↔
      ∃ (minus : Bool) (value : Nat), HexNumeral s minus value ∧ n = signedValue minus value := by
  rw [hexInt?]
  constructor
  · intro h
    by_cases hminus : s.head? = some 0x2D
    · obtain ⟨rest, rfl⟩ := List.head?_eq_some_iff.1 hminus
      obtain ⟨value, hvalue, rfl⟩ := signed_minus_eq_some_iff.1 h
      exact ⟨true, value, ⟨[0x2D], rest, rfl, .minus, unsigned_iff.1 hvalue⟩, rfl⟩
    by_cases hplus : s.head? = some 0x2B
    · obtain ⟨rest, rfl⟩ := List.head?_eq_some_iff.1 hplus
      obtain ⟨value, hvalue, rfl⟩ := signed_plus_eq_some_iff.1 h
      exact ⟨false, value, ⟨[0x2B], rest, rfl, .plus, unsigned_iff.1 hvalue⟩, rfl⟩
    · obtain ⟨value, hvalue, rfl⟩ := (signed_bare_eq_some_iff hminus hplus).1 h
      exact ⟨false, value, ⟨[], s, rfl, .none, unsigned_iff.1 hvalue⟩, rfl⟩
  · rintro ⟨minus, value, ⟨sign, rest, rfl, hsign, hrest⟩, rfl⟩
    have hread := unsigned_iff.2 hrest
    rcases hsign with - | - | -
    · -- The first code point is a digit, so it is no sign.
      obtain ⟨c, d, rest, hc, rfl⟩ := hrest.exists_digit
      refine (signed_bare_eq_some_iff ?_ ?_).2 ⟨value, hread, rfl⟩
      · rintro ⟨⟩
        exact not_hexDigit (by decide) d hc
      · rintro ⟨⟩
        exact not_hexDigit (by decide) d hc
    · exact signed_plus_eq_some_iff.2 ⟨value, hread, rfl⟩
    · exact signed_minus_eq_some_iff.2 ⟨value, hread, rfl⟩

/-! ### Numbers that can be written -/

theorem writableLimit_eq : writableLimit = 10 ^ decimalDigitLimit := by
  have hdigits : decimalDigitLimit = 43 * 100 := rfl
  rw [hdigits, pow_mul]
  rfl

/-- A number can be written in decimal if and only if it has few enough digits. -/
theorem isWritable_iff {n : Int} :
    isWritable n = true ↔ (Nat.digits 10 n.natAbs).length ≤ decimalDigitLimit := by
  rw [isWritable, decide_eq_true_iff, writableLimit_eq]
  generalize decimalDigitLimit = limit
  exact (Nat.digits_length_le_iff (by decide) n.natAbs).symm

end TaggedStack.Text
