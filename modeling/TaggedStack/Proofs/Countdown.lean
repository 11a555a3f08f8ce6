import TaggedStack.Demo
import TaggedStack.Proofs.Encoding
import TaggedStack.Proofs.Passages

/-!
# Counting down

The countdown keeps its counter in a data word. A turn of its loop takes one off the counter, stores
it, prints it, and leaves the loop if it has come to zero; otherwise a jump leads back to the top.
At the top the operands are gone and only the counter has changed, so the turns differ in nothing
but the counter (`Demo.counting`).

The counter is a machine word. Taking one off zero gives the greatest word, so a countdown from zero
goes once through all of them: what matters is the number of turns (`Demo.turns`), and the start is
that number modulo `2 ^ 32`.

* `Demo.countdown_eq`: the words of the countdown are those of `Demo.countdownCode`.
* `Demo.reaches_turn`: what one turn does.
* `Demo.reaches_halted`: the turns that are left, by induction on their number.
* `Demo.countdown_counts_down`: the run of a countdown.
-/

namespace TaggedStack.Demo

/-! ### The program -/

/-- The instructions of the loop. -/
def loopCode (address : Payload) : List Instr :=
  [ .literal address,         -- 3
    .op .load,
    .literal ⟨1, by decide⟩,
    .op .sub,
    .op .dup,
    .literal address,
    .op .stor,
    .op .dup,
    .op .prn,
    .literal ⟨15, by decide⟩, -- 12, where the loop is left to
    .op .jz,
    .literal ⟨2, by decide⟩,  -- 14, where the top of the loop is reached from
    .op .jmp,
    .op .halt ]               -- 16

/-- The instructions of the countdown. -/
def countdownCode (start address : Payload) : List Instr :=
  [.literal start, .literal address, .op .stor] ++ loopCode address

/-- The words of the countdown are those of its instructions. -/
theorem countdown_eq (start address : Payload) :
    countdown start.val address.val = .ok (assemble (countdownCode start address)) := by
  refine assembleItems_eq_ok_iff.2 ⟨_, ?_, rfl⟩
  have hliteral (p : Payload) : (Item.number p.val).Denotes (.literal p) := .number p
  have hop (o : Opcode) : (Item.op o).Denotes (.op o) := .instr (.op o)
  simp only [countdownCode, loopCode, List.cons_append, List.nil_append, List.forall₂_cons,
    hliteral, hop, List.forall₂_nil_right_iff, and_true, true_and]
  exact ⟨hliteral ⟨1, by decide⟩, hliteral ⟨15, by decide⟩, hliteral ⟨2, by decide⟩⟩

/-- How many turns the loop makes: counting down from zero goes through all words. -/
def turns (start : Int) : Nat := if start = 0 then 0x100000000 else start.toNat

/-- The start is the number of turns, as a word. -/
theorem exists_turns_eq (start : Payload) :
    ∃ count : Nat, turns start.val = count + 1 ∧ Word.ofPayload start = .wrap (count + 1 : Nat) ∧
      count < 0x100000000 := by
  have hlt := start.isLt
  by_cases hzero : start.val = 0
  · refine ⟨0xFFFFFFFF, if_pos (by rw [hzero]; rfl), Subtype.ext ?_, by decide⟩
    show (start.val : Int) = _
    rw [hzero]
    rfl
  · refine ⟨start.val - 1, ?_, Subtype.ext ?_, by omega⟩
    · rw [turns, if_neg (by omega)]
      omega
    · show (start.val : Int) = _
      simp only [Word.wrap]
      omega

/-- The decimal numerals of the numbers below a bound, from the greatest down to zero. -/
def numerals (bound : Nat) : List Text :=
  (List.range bound).reverse.map fun i : Nat ↦ Text.decimal i

theorem numerals_succ (bound : Nat) :
    numerals (bound + 1) = Text.decimal bound :: numerals bound := by
  rw [numerals, List.range_succ, List.reverse_concat, List.map_cons]
  rfl

/-! ### Turns of the loop -/

open ListMachine

variable {l : Layout} {a : ListMachine l} {address : Payload}

/-- The machine with the counter at a number. -/
def counting (a : ListMachine l) (address : Payload) (count : Nat) : ListMachine l :=
  a.store address.val (.wrap count)

/-- Storing the counter again is storing it the second time only. -/
theorem store_counting (a : ListMachine l) (address : Payload) (count count' : Nat) :
    (counting a address count).store address.val (.wrap count') = counting a address count' := by
  simp only [counting, store, List.set_set]

/-- Taking one off a counter, which may stand at `2 ^ 32` and so be zero. -/
theorem wrap_sub_one (count : Nat) :
    Word.wrap ((Word.wrap ((count + 1 : Nat) : Int)).val - 1) = .wrap count := by
  apply Subtype.ext
  simp only [Word.wrap]
  omega

section Loop

variable (hrunning : a.running = true) (hcode : a.HasCode 3 (loopCode address))
  (hstack : 3 ≤ l.stackCapacity)

include hrunning hcode hstack

/-- The first part of a turn takes one off the counter, and keeps it as an operand too. -/
theorem reaches_counted (haddress : address.val < l.dataSize) (count : Nat)
    {h : [Word.wrap count].length ≤ l.stackCapacity} :
    ((counting a address (count + 1)).moved 3 [] (Nat.zero_le _)).Reaches 7 []
      ((counting a address count).moved 10 [.wrap count] h) := by
  have hindex : (Word.ofPayload address).val < l.dataSize := Int.ofNat_lt.2 haddress
  have hcounter : (counting a address (count + 1)).data[(Word.ofPayload address).val.toNat]? =
      some (.wrap (count + 1 : Nat)) := by
    refine List.getElem?_set_self ?_
    rw [a.length_data]
    exact haddress
  have hcode' : (counting a address (count + 1)).HasCode 3 (loopCode address) := hcode
  have hless : Word.wrap ((Word.wrap ((count + 1 : Nat) : Int)).val -
      (Word.ofPayload ⟨1, by decide⟩).val) = .wrap count := wrap_sub_one count
  refine .silent hrunning (step_moved_literal (hcode'.getElem? (i := 0) rfl) (by simp; omega)) ?_
  refine .silent hrunning (step_moved_load (hcode'.getElem? (i := 1) rfl) hcounter) ?_
  refine .silent hrunning (step_moved_literal (hcode'.getElem? (i := 2) rfl) (by simp; omega)) ?_
  refine .silent hrunning (step_moved_sub (hcode'.getElem? (i := 3) rfl)) ?_
  rw [hless]
  refine .silent hrunning (step_moved_dup (hcode'.getElem? (i := 4) rfl) (by simp; omega)) ?_
  refine .silent hrunning (step_moved_literal (hcode'.getElem? (i := 5) rfl) (by simp; omega)) ?_
  refine .silent hrunning (step_moved_stor (hcode'.getElem? (i := 6) rfl) hindex) ?_
  rw [show (Word.ofPayload address).val.toNat = address.val from rfl, store_counting]
  exact .refl _

variable (htarget : 17 ≤ l.instructionCapacity)

include htarget

/-- The second part of a turn prints the counter. It comes to the end of the loop if the counter is
zero, and to the jump back to the top otherwise. -/
theorem reaches_tested {count : Nat} (hcount : count < 0x100000000)
    {h : [Word.wrap count].length ≤ l.stackCapacity} :
    (a.moved 10 [.wrap count] h).Reaches 4 [.text (Text.decimal count)]
      (a.moved (if count = 0 then 16 else 14) [] (Nat.zero_le _)) := by
  have hval : (Word.wrap count).val = count := Word.val_wrap ⟨by omega, by omega⟩
  have hfifteen : (Word.ofPayload ⟨15, by decide⟩).val < l.instructionCapacity := by
    rw [show (Word.ofPayload ⟨15, by decide⟩).val = 15 from rfl]
    omega
  refine .silent hrunning (step_moved_dup (hcode.getElem? (i := 7) rfl) (by simp; omega)) ?_
  have htwice : [Word.wrap count, Word.wrap count].length ≤ l.stackCapacity :=
    Nat.le_of_succ_le hstack
  have hprint := step_moved_prn (h := htwice) (hcode.getElem? (i := 8) rfl)
  rw [hval] at hprint
  refine .printing hrunning hprint ?_
  refine .silent hrunning (step_moved_literal (hcode.getElem? (i := 9) rfl) (by simp; omega)) ?_
  have hpair : [Word.ofPayload ⟨15, by decide⟩, Word.wrap count].length ≤ l.stackCapacity :=
    Nat.le_of_succ_le hstack
  have hjump := step_moved_jz (h := hpair) (hcode.getElem? (i := 10) rfl) hfifteen
  have hplace : (if (Word.wrap count).val = 0 then (Word.ofPayload ⟨15, by decide⟩).val.toNat + 1
      else 3 + 10 + 1) = if count = 0 then 16 else 14 := by
    rw [hval]
    norm_cast
  rw [hplace] at hjump
  exact .silent hrunning hjump (.refl _)

/-- One turn takes the counter down by one and prints it. -/
theorem reaches_turn (haddress : address.val < l.dataSize) {count : Nat}
    (hcount : count < 0x100000000) :
    ((counting a address (count + 1)).moved 3 [] (Nat.zero_le _)).Reaches 11
      [.text (Text.decimal count)]
      ((counting a address count).moved (if count = 0 then 16 else 14) [] (Nat.zero_le _)) := by
  have hroom : [Word.wrap count].length ≤ l.stackCapacity := by
    rw [List.length_singleton]
    omega
  have hcounted := reaches_counted hrunning hcode hstack haddress count (h := hroom)
  exact hcounted.trans (reaches_tested (a := counting a address count) hrunning hcode hstack
    htarget hcount)

/-- The jump back to the top. -/
theorem reaches_top :
    (a.moved 14 [] (Nat.zero_le _)).Reaches 2 [] (a.moved 3 [] (Nat.zero_le _)) := by
  have htwo : (Word.ofPayload ⟨2, by decide⟩).val < l.instructionCapacity := by
    rw [show (Word.ofPayload ⟨2, by decide⟩).val = 2 from rfl]
    omega
  refine .silent hrunning (step_moved_literal (hcode.getElem? (i := 11) rfl) (by simp; omega)) ?_
  exact .silent hrunning (step_moved_jmp (hcode.getElem? (i := 12) rfl) htwo) (.refl _)

/-- **The turns that are left.** With the counter above `count`, there are `count` turns that lead
back to the top, of thirteen cycles each, and a last one of twelve that ends with the halt. Each
prints the counter it has come to. -/
theorem reaches_halted (haddress : address.val < l.dataSize) {count : Nat}
    (hcount : count < 0x100000000) :
    ((counting a address (count + 1)).moved 3 [] (Nat.zero_le _)).Reaches (13 * count + 12)
      ((numerals (count + 1)).map .text)
      ((counting a address 0).moved 17 [] (Nat.zero_le _)).halted := by
  induction count with
  | zero =>
    have hturn := reaches_turn hrunning hcode hstack htarget haddress hcount
    refine hturn.trans (.silent hrunning (step_moved_halt ?_) (.refl _))
    exact hcode.getElem? (i := 13) rfl
  | succ count ih =>
    have hturn := reaches_turn hrunning hcode hstack htarget haddress hcount
    have hback := reaches_top (a := counting a address (count + 1)) hrunning hcode hstack htarget
    have hall := hturn.trans (hback.trans (ih (by omega)))
    rw [show 11 + (2 + (13 * count + 12)) = 13 * (count + 1) + 12 by omega] at hall
    rw [numerals_succ, List.map_cons]
    exact hall

end Loop

/-! ### The run of a countdown -/

/-- From the first instruction to the halt. -/
theorem reaches_of_hasCode {start : Payload} (hrunning : a.running = true)
    (hcode : a.HasCode 0 (countdownCode start address)) (haddress : address.val < l.dataSize)
    (hstack : 3 ≤ l.stackCapacity) (htarget : 17 ≤ l.instructionCapacity) :
    (a.moved 0 [] (Nat.zero_le _)).Reaches (13 * turns start.val + 2)
      ((numerals (turns start.val)).map .text)
      ((counting a address 0).moved 17 [] (Nat.zero_le _)).halted := by
  obtain ⟨count, hcount, hstart, hless⟩ := exists_turns_eq start
  have hindex : (Word.ofPayload address).val < l.dataSize := Int.ofNat_lt.2 haddress
  have hstores : (a.moved 0 [] (Nat.zero_le _)).Reaches 3 []
      ((counting a address (count + 1)).moved 3 [] (Nat.zero_le _)) := by
    refine .silent hrunning (step_moved_literal hcode.head (by simp; omega)) ?_
    refine .silent hrunning (step_moved_literal hcode.tail.head (by simp; omega)) ?_
    rw [hstart]
    exact .silent hrunning (step_moved_stor hcode.tail.tail.head hindex) (.refl _)
  have hall := hstores.trans
    (reaches_halted hrunning hcode.right hstack htarget haddress hless)
  rw [show 3 + (13 * count + 12) = 13 * (count + 1) + 2 by omega] at hall
  rw [hcount]
  exact hall

/-- **A countdown counts down.** From every start, in every layout that has room for it, the program
halts in thirteen cycles for each turn and two more. It leaves an empty stack and program data that
are all zero, the counter among them, and has printed the numbers below its start, or below
`2 ^ 32` if it starts at zero, from the greatest down. -/
theorem countdown_counts_down {start address : Int} (hstart : 0 ≤ start ∧ start < 0x40000000)
    (haddress : 0 ≤ address ∧ address < 0x40000000) {l : Layout} (hdata : address < l.dataSize)
    (hstack : 3 ≤ l.stackCapacity) (htarget : 17 ≤ l.instructionCapacity) (journal : Journal) :
    ∃ words, countdown start address = .ok words ∧
      let loaded := (Machine.fresh l .emptyBuffer journal).load words
      loaded.ending = .ok 17 ∧
        ∃ last, loaded.after.StopsIn (13 * turns start + 2) .halted last ∧
          last.state.sp = 0 ∧ last.state.top = .ok none ∧
          last.state.memory.read .data (l.dataBase + address) = .ok 0 ∧
          last.state.memory.regionWords .data = List.replicate l.dataSize 0 ∧
          last.sink.pieces = numerals (turns start) ∧
          last.sink.text = (numerals (turns start)).flatten := by
  obtain ⟨start, rfl⟩ := (Payload.exists_val_eq_iff start).2 hstart
  obtain ⟨address, rfl⟩ := (Payload.exists_val_eq_iff address).2 haddress
  have hslot : address.val < l.dataSize := Int.ofNat_lt.1 hdata
  have hlength : (countdownCode start address).length ≤ l.instructionCapacity := htarget
  have hpassage := reaches_of_hasCode (a := (blank l).loaded (countdownCode start address) hlength)
    rfl ⟨_, rfl⟩ hslot hstack htarget
  obtain ⟨hending, last, hstops, hlast, hsink⟩ :=
    Machine.exists_stopsIn_of_reaches hlength hpassage rfl .emptyBuffer journal
  -- The data were zero before, and the counter has come to zero.
  have hzeros : last.state.memory.regionWords .data = List.replicate l.dataSize 0 := by
    rw [hlast.data_eq]
    show ((List.replicate l.dataSize (Word.wrap 0)).set address.val (.wrap 0)).map _ = _
    rw [List.set_replicate_self, List.map_replicate]
    rfl
  have hcounter : last.state.memory.get (l.dataBase + address.val) = 0 := by
    refine hlast.get_data (w := .wrap 0) (List.getElem?_set_self ?_)
    exact (List.length_replicate).symm ▸ hslot
  have hadmits : last.state.layout.Admits .data (l.dataBase + address.val) := by
    rw [hlast.layout_eq, Layout.admits_data_iff]
    unfold Layout.dataSize at hslot
    omega
  have hbuffer : last.sink = .buffer (numerals (turns start.val)).toArray := by
    rw [hsink, Sink.emptyBuffer, Sink.foldl_emit_buffer, List.map_map]
    show Sink.buffer (#[] ++ ((numerals (turns start.val)).map id).toArray) = _
    rw [List.map_id, Array.empty_append]
  refine ⟨_, countdown_eq start address, hending, last, hstops, hlast.sp_eq, hlast.top,
    Memory.read_eq_ok_iff.2 ⟨hadmits, hcounter⟩, hzeros, ?_, ?_⟩
  · rw [hbuffer]
    rfl
  · rw [hbuffer]
    rfl

/-- Counting down from three in the least layout prints `210`, in forty-one cycles. -/
theorem countdown_counts_down_three :
    let l : Layout := ⟨22, 4, 21, by decide, by decide, by decide⟩
    ∃ words, countdown 3 0 = .ok words ∧
      ∃ last, ((Machine.fresh l .emptyBuffer .silent).load words).after.StopsIn 41 .halted last ∧
        last.state.sp = 0 ∧ last.state.memory.regionWords .data = [0] ∧
        last.sink.text = Text.ofString "210" := by
  have hstart : 0 ≤ (3 : Int) ∧ (3 : Int) < 0x40000000 := by decide
  have haddress : 0 ≤ (0 : Int) ∧ (0 : Int) < 0x40000000 := by decide
  obtain ⟨words, hwords, -, last, hstops, hsp, -, -, hdata, -, htext⟩ :=
    countdown_counts_down hstart haddress (l := ⟨22, 4, 21, by decide, by decide, by decide⟩)
      (by decide) (by decide) (by decide) .silent
  exact ⟨words, hwords, last, hstops, hsp, hdata, htext.trans (by decide)⟩

end TaggedStack.Demo
