import TaggedStack.Wire

/-!
# Writing and reading bytes are inverse

A program and its bytes determine each other. Writing goes through exactly for machine words, and
reading exactly for whole groups of four bytes; where one goes through, the other undoes it. Neither
direction follows from the other: reading could still accept bytes that no program is written to, or
give integers that cannot be written.

Both round trips would hold of any order of the bytes in a group. What fixes the order is
`Wire.groups_eq`: a word is the number its bytes spell in base 256, the most significant one first.

* `Wire.exists_write_iff`, `Wire.exists_read_error_iff`: when writing and reading go through.
* `Wire.write_append`: a program is written part by part.
* `Wire.write_groups`: what is read is written back to the same bytes.
* `Wire.words_and_bytes`: all of it together.
-/

namespace TaggedStack.Wire

/-! ### Single words -/

/-- The number that bytes spell in base 256, the most significant one first. -/
def bigEndian (bytes : List UInt8) : Nat := bytes.foldl (fun n b ↦ n * 256 + b.toNat) 0

theorem ofBytes_eq_bigEndian (a b c d : UInt8) : ofBytes a b c d = bigEndian [a, b, c, d] := by
  simp [ofBytes, bigEndian]

/-- The bytes of the number that four bytes spell are these bytes. -/
theorem wordBytes_ofBytes (a b c d : UInt8) : wordBytes (ofBytes a b c d) = [a, b, c, d] := by
  have ha := a.toNat_lt
  have hb := b.toNat_lt
  have hc := c.toNat_lt
  have hd := d.toNat_lt
  simp only [wordBytes, List.cons.injEq, and_true, ← UInt8.toNat_inj, Nat.toUInt8,
    UInt8.toNat_ofNat', ofBytes]
  omega

theorem isWord_ofBytes (a b c d : UInt8) : IsWord (ofBytes a b c d) := by
  have ha := a.toNat_lt
  have hb := b.toNat_lt
  have hc := c.toNat_lt
  have hd := d.toNat_lt
  simp only [IsWord, ofBytes]
  omega

/-! ### Writing -/

/-- A first word is written before the others, if it is one and they are written at all. -/
theorem write_cons_eq_ok_iff {w : Int} {ws : List Int} {bytes : List UInt8} :
    write (w :: ws) = .ok bytes ↔
      IsWord w ∧ ∃ rest, write ws = .ok rest ∧ bytes = wordBytes w.toNat ++ rest := by
  rw [write]
  by_cases hw : IsWord w
  · rw [if_pos hw]
    rcases hws : write ws with e | rest
    · simp [Functor.map, Except.map]
    · simp [Functor.map, Except.map, hw, eq_comm]
  · simp [hw]

/-- Writing goes through for machine words only. -/
theorem exists_write_iff (ws : List Int) :
    (∃ bytes, write ws = .ok bytes) ↔ ∀ w ∈ ws, IsWord w := by
  induction ws with
  | nil => simp [write]
  | cons w ws ih =>
    rw [List.forall_mem_cons, ← ih]
    constructor
    · intro h
      obtain ⟨bytes, hbytes⟩ := h
      obtain ⟨hw, rest, hrest, -⟩ := write_cons_eq_ok_iff.1 hbytes
      exact ⟨hw, rest, hrest⟩
    · intro h
      obtain ⟨hw, rest, hrest⟩ := h
      exact ⟨_, write_cons_eq_ok_iff.2 ⟨hw, rest, hrest, rfl⟩⟩

/-- Every word takes four bytes. -/
theorem length_of_write {ws : List Int} {bytes : List UInt8} (h : write ws = .ok bytes) :
    bytes.length = 4 * ws.length := by
  induction ws generalizing bytes with
  | nil =>
    obtain rfl : [] = bytes := Except.ok.inj h
    rfl
  | cons w ws ih =>
    obtain ⟨-, rest, hrest, rfl⟩ := write_cons_eq_ok_iff.1 h
    rw [List.length_append, ih hrest, List.length_cons]
    simp only [wordBytes, List.length_cons, List.length_nil]
    omega

/-- A program is written part by part, and the first part that cannot be written is the one that
fails. -/
theorem write_append (us vs : List Int) :
    write (us ++ vs) = do
      let front ← write us
      let back ← write vs
      return front ++ back := by
  induction us with
  | nil =>
    show write vs = write vs >>= fun back ↦ pure ([] ++ back)
    rcases write vs with e | back <;> rfl
  | cons u us ih =>
    rw [List.cons_append, write, write, ih]
    by_cases hu : IsWord u
    · rw [if_pos hu, if_pos hu]
      rcases write us with e | front
      · rfl
      · rcases write vs with e | back
        · rfl
        · show Except.ok (wordBytes u.toNat ++ (front ++ back)) = .ok _
          rw [List.append_assoc]
    · rw [if_neg hu, if_neg hu]
      rfl

/-! ### Reading -/

theorem exists_read_error_iff (bytes : List UInt8) :
    (∃ e, read bytes = .error e) ↔ ¬4 ∣ bytes.length := by
  rw [read, Nat.dvd_iff_mod_eq_zero]
  split <;> simp [*]

theorem read_of_dvd {bytes : List UInt8} (h : 4 ∣ bytes.length) :
    read bytes = .ok (groups bytes) :=
  if_pos (Nat.mod_eq_zero_of_dvd h)

/-- Bytes that do not begin with a whole group are fewer than four. -/
theorem length_lt_of_not_group {bytes : List UInt8}
    (h : ∀ a b c d rest, bytes = a :: b :: c :: d :: rest → False) : bytes.length < 4 := by
  match bytes with
  | [] | [_] | [_, _] | [_, _, _] => simp
  | a :: b :: c :: d :: rest => exact (h a b c d rest rfl).elim

theorem isWord_of_mem_groups {bytes : List UInt8} {w : Int} (h : w ∈ groups bytes) :
    IsWord w := by
  fun_induction groups bytes with
  | case1 a b c d rest ih =>
    rcases List.mem_cons.1 h with rfl | hrest
    · exact isWord_ofBytes a b c d
    · exact ih hrest
  | case2 => exact absurd h List.not_mem_nil

/-- The words of whole groups of four bytes are written to these bytes. -/
theorem write_groups {bytes : List UInt8} (h : 4 ∣ bytes.length) :
    write (groups bytes) = .ok bytes := by
  fun_induction groups bytes with
  | case1 a b c d rest ih =>
    have hrest : 4 ∣ rest.length := by
      simp only [List.length_cons] at h
      omega
    refine write_cons_eq_ok_iff.2 ⟨isWord_ofBytes a b c d, rest, ih hrest, ?_⟩
    rw [Int.toNat_natCast, wordBytes_ofBytes]
    rfl
  | case2 bytes hshort =>
    have hlt := length_lt_of_not_group hshort
    obtain rfl : bytes = [] := List.length_eq_zero_iff.1 (by omega)
    rfl

/-- A word is the number that its group of four bytes spells. -/
theorem groups_eq (bytes : List UInt8) :
    groups bytes = (List.range (bytes.length / 4)).map fun i : Nat ↦
      (bigEndian ((bytes.drop (4 * i)).take 4) : Int) := by
  fun_induction groups bytes with
  | case1 a b c d rest ih =>
    have hlength : (a :: b :: c :: d :: rest).length / 4 = rest.length / 4 + 1 := by
      simp only [List.length_cons]
      omega
    -- The later words skip one group more, which is the first one.
    rw [hlength, List.range_succ_eq_map, List.map_cons, List.map_map, ih, ofBytes_eq_bigEndian]
    rfl
  | case2 bytes hshort =>
    rw [Nat.div_eq_of_lt (length_lt_of_not_group hshort)]
    rfl

/-! ### The two directions -/

/-- **Words and bytes determine each other.** Exactly the lists of machine words are written, to
four bytes each and part by part, and reading gives them back. Exactly the rows of bytes that end in
the middle of a word are not read; all others give machine words, each spelled by its four bytes,
that are written back to the same row. -/
theorem words_and_bytes :
    (∀ ws : List Int,
      ((∃ bytes, write ws = .ok bytes) ↔ ∀ w ∈ ws, IsWord w) ∧
        ∀ bytes, write ws = .ok bytes →
          bytes.length = 4 * ws.length ∧ read bytes = .ok ws) ∧
      (∀ us vs : List Int, write (us ++ vs) = do
        let front ← write us
        let back ← write vs
        return front ++ back) ∧
      ∀ bytes : List UInt8,
        ((∃ e, read bytes = .error e) ↔ ¬4 ∣ bytes.length) ∧
          (4 ∣ bytes.length → ∃ ws, read bytes = .ok ws ∧ (∀ w ∈ ws, IsWord w) ∧
            write ws = .ok bytes ∧
            ws = (List.range (bytes.length / 4)).map fun i : Nat ↦
              (bigEndian ((bytes.drop (4 * i)).take 4) : Int)) := by
  refine ⟨fun ws ↦ ⟨exists_write_iff ws, fun bytes h ↦ ?_⟩, write_append, fun bytes ↦ ?_⟩
  · exact ⟨length_of_write h, read_write h⟩
  · refine ⟨exists_read_error_iff bytes, fun h ↦ ?_⟩
    exact ⟨groups bytes, read_of_dvd h, fun w hw ↦ isWord_of_mem_groups hw, write_groups h,
      groups_eq bytes⟩

/-- Two words of unlike bytes, written and read; the bytes of the second are no palindrome, and its
high bit is set. -/
theorem words_and_bytes_two :
    write [7, 0x81020304] = .ok [0, 0, 0, 7, 0x81, 2, 3, 4] ∧
      read [0, 0, 0, 7, 0x81, 2, 3, 4] = .ok [7, 0x81020304] ∧
      ∃ ws, read [0, 0, 0, 7, 0x81, 2, 3, 4] = .ok ws ∧
        write ws = .ok [0, 0, 0, 7, 0x81, 2, 3, 4] := by
  have hwrite : write [7, 0x81020304] = .ok [0, 0, 0, 7, 0x81, 2, 3, 4] := rfl
  obtain ⟨hwords, -, hbytes⟩ := words_and_bytes
  obtain ⟨ws, hread, -, hback, -⟩ := (hbytes [0, 0, 0, 7, 0x81, 2, 3, 4]).2 (by decide)
  exact ⟨hwrite, ((hwords _).2 _ hwrite).2, ws, hread, hback⟩

end TaggedStack.Wire
