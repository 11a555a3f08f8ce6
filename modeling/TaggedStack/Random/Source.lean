/-!
# Sources of random words

Everything random is drawn from a source of 32-bit words. Two sources are provided: a list of
words given in advance and continued by a linear congruence, and the Mersenne twister, a
generator with 624 words of state.

* `WordSource`: what a source can do.
* `WordStream`: words given in advance.
* `Twister`: the Mersenne twister, seeded by an integer of any size.
-/

namespace TaggedStack

/-- A state from which words can be drawn. -/
class WordSource (σ : Type) where
  /-- The next word and the state after it. -/
  next : σ → UInt32 × σ

/-! ### Words given in advance -/

/-- Words still to come, and the word drawn last. -/
structure WordStream where
  pending : List UInt32
  previous : UInt32 := 0

/-- After the words given, each word is a linear function of the one before it. -/
instance : WordSource WordStream where
  next s :=
    match s.pending with
    | w :: rest => (w, ⟨rest, w⟩)
    | [] =>
      let w := s.previous * 1664525 + 1013904223
      (w, ⟨[], w⟩)

/-! ### The Mersenne twister -/

/-- The state of the twister: its words, and which of them comes next. -/
structure Twister where
  words : Array UInt32
  index : Nat

namespace Twister

/-- The number of words of state. -/
def size : Nat := 624

/-- A word with its two high bits mixed into the low ones. -/
def folded (w : UInt32) : UInt32 := w ^^^ (w >>> 30)

/-- The words that follow from a single one. -/
def spread (seed : UInt32) : Array UInt32 :=
  (List.range (size - 1)).foldl
    (fun ws i ↦ ws.push (folded (ws.getD i 0) * 1812433253 + (i + 1).toUInt32)) #[seed]

/-- After the last position the first word takes the value of the last, and counting starts
again at the second. -/
def wrapped (ws : Array UInt32) (i : Nat) : Array UInt32 × Nat :=
  if size ≤ i then (ws.setIfInBounds 0 (ws.getD (size - 1) 0), 1) else (ws, i)

/-- Mixes the words of a key into the state, going around both as often as it takes. -/
def mixKey (key : Array UInt32) (ws : Array UInt32) : Array UInt32 × Nat :=
  (List.range (max size key.size)).foldl
    (fun (ws, i) k ↦
      let j := k % key.size
      let w := (ws.getD i 0 ^^^ (folded (ws.getD (i - 1) 0) * 1664525)) + key.getD j 0 +
        j.toUInt32
      wrapped (ws.setIfInBounds i w) (i + 1))
    (ws, 1)

/-- Mixes the state with itself once around. -/
def mixSelf (start : Array UInt32 × Nat) : Array UInt32 × Nat :=
  (List.range (size - 1)).foldl
    (fun (ws, i) _ ↦
      let w := (ws.getD i 0 ^^^ (folded (ws.getD (i - 1) 0) * 1566083941)) - i.toUInt32
      wrapped (ws.setIfInBounds i w) (i + 1))
    start

/-- The digits of a number in base `2 ^ 32`, the least significant first; at least one. -/
def digits (n : Nat) : List UInt32 :=
  if h : n < 0x100000000 then [n.toUInt32]
  else n.toUInt32 :: digits (n / 0x100000000)
termination_by n
decreasing_by omega

/-- The twister seeded by the magnitude of an integer. -/
def ofSeed (seed : Int) : Twister :=
  let (ws, _) := mixSelf (mixKey (digits seed.natAbs).toArray (spread 19650218))
  ⟨ws.setIfInBounds 0 0x80000000, size⟩

/-- The next round of words. -/
def twisted (ws : Array UInt32) : Array UInt32 :=
  (List.range size).foldl
    (fun ws i ↦
      let y := (ws.getD i 0 &&& 0x80000000) ||| (ws.getD ((i + 1) % size) 0 &&& 0x7FFFFFFF)
      let odd : UInt32 := if y &&& 1 = 1 then 0x9908B0DF else 0
      ws.setIfInBounds i (ws.getD ((i + 397) % size) 0 ^^^ (y >>> 1) ^^^ odd))
    ws

/-- The word drawn for a word of state. -/
def tempered (w : UInt32) : UInt32 :=
  let w := w ^^^ (w >>> 11)
  let w := w ^^^ ((w <<< 7) &&& 0x9D2C5680)
  let w := w ^^^ ((w <<< 15) &&& 0xEFC60000)
  w ^^^ (w >>> 18)

/-- Draws the next word, after a new round if this one is used up. -/
def next (t : Twister) : UInt32 × Twister :=
  let t := if size ≤ t.index then ⟨twisted t.words, 0⟩ else t
  (tempered (t.words.getD t.index 0), { t with index := t.index + 1 })

end Twister

instance : WordSource Twister := ⟨Twister.next⟩

end TaggedStack
