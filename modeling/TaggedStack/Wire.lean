import TaggedStack.Instr

/-!
# Programs as bytes

A program is stored as its words one after another, four bytes each, the most significant
byte first. Writing fails on the first integer that is no machine word; reading fails exactly
when the number of bytes is not a multiple of four.

* `Wire.read_write`: reading gives back what was written.
-/

namespace TaggedStack.Wire

/-- Bytes that end in the middle of a word. -/
structure Truncated where
  /-- How many bytes there are. -/
  size : Nat
  deriving DecidableEq, Repr

/-- The wording of a truncation: where the last word starts and how much of it there is. -/
def Truncated.message (t : Truncated) : String :=
  let rest := t.size % 4
  s!"Truncated word at offset {t.size - rest}: need 4 bytes, have {rest}"

/-- The four bytes of a number below `2 ^ 32`, most significant first. -/
def wordBytes (n : Nat) : List UInt8 :=
  [(n / 0x1000000).toUInt8, (n / 0x10000).toUInt8, (n / 0x100).toUInt8, n.toUInt8]

/-- The number written by four bytes, most significant first. -/
def ofBytes (a b c d : UInt8) : Nat :=
  ((a.toNat * 256 + b.toNat) * 256 + c.toNat) * 256 + d.toNat

/-- The bytes of a list of words. -/
def write : List Int → Except CodecError (List UInt8)
  | [] => .ok []
  | w :: ws =>
    if IsWord w then (wordBytes w.toNat ++ ·) <$> write ws else .error (.wordRange w)

/-- The words of whole groups of four bytes; a shorter group at the end is dropped. -/
def groups : List UInt8 → List Int
  | a :: b :: c :: d :: rest => (ofBytes a b c d : Int) :: groups rest
  | _ => []

/-- The words of a list of bytes. -/
def read (bytes : List UInt8) : Except Truncated (List Int) :=
  if bytes.length % 4 = 0 then .ok (groups bytes) else .error ⟨bytes.length⟩

theorem ofBytes_wordBytes {n : Nat} (h : n < 0x100000000) :
    ofBytes (n / 0x1000000).toUInt8 (n / 0x10000).toUInt8 (n / 0x100).toUInt8 n.toUInt8 = n := by
  simp only [ofBytes, Nat.toUInt8, UInt8.toNat_ofNat']
  omega

/-- Reading gives back the words that were written. -/
theorem read_write {ws : List Int} {bytes : List UInt8} (h : write ws = .ok bytes) :
    read bytes = .ok ws := by
  suffices bytes.length % 4 = 0 ∧ groups bytes = ws by
    rw [read, if_pos this.1, this.2]
  induction ws generalizing bytes with
  | nil =>
    cases h
    exact ⟨rfl, rfl⟩
  | cons w ws ih =>
    unfold write at h
    split at h
    · next hw =>
      match hrest : write ws with
      | .ok rest =>
        rw [hrest] at h
        cases h
        obtain ⟨hlen, hgroups⟩ := ih hrest
        refine ⟨by simp [wordBytes]; omega, ?_⟩
        obtain ⟨hw0, hw1⟩ := hw
        have hw' : w.toNat < 0x100000000 := by omega
        simp only [wordBytes, List.cons_append, List.nil_append, groups, hgroups,
          ofBytes_wordBytes hw']
        congr 1
        omega
      | .error e =>
        rw [hrest] at h
        cases h
    · cases h

end TaggedStack.Wire
