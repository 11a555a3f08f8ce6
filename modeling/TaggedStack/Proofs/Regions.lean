import TaggedStack.Memory

/-!
# Memory as a list of words for each region

An access names a region and an address, but what a program can tell about memory are three lists
of words: the values on the stack, the instructions and the program data. This file says what
setting one word does to each of these lists.

* `Memory.getElem?_words_set`: setting one word changes no other.
* `Memory.regionWords_eq`: the words of a region, address by address.
* `Memory.regionWords_set`: a word set at an admitted address replaces one word of its region.
* `Memory.regionWords_set_of_ne`: the words of the other regions stay.
* `Memory.stackWords_set_next`: a word set just above the values on the stack is a new value.
-/

namespace TaggedStack

namespace Layout

variable {l : Layout} {r : Region} {address : Int}

/-- An admitted address lies within memory, and is not `0`. -/
theorem pos_and_lt_of_admits (h : l.Admits r address) : 0 < address ∧ address < l.memSize :=
  (l.exists_admits_iff address).1 ⟨r, h⟩

/-- An admitted address lies between the bounds of its region. -/
theorem bounds_of_admits (h : l.Admits r address) :
    (l.bounds r).1 ≤ address ∧ address < (l.bounds r).2 := by
  cases r with
  | stack =>
    rw [admits_stack_iff] at h
    exact ⟨Int.le_of_lt h.1, h.2⟩
  | instruction => exact (l.admits_instruction_iff address).1 h
  | data => exact (l.admits_data_iff address).1 h

/-- An address admitted for one region lies outside the bounds of the others. -/
theorem outside_of_admits {r' : Region} (h : l.Admits r address) (hr : r' ≠ r) :
    address < (l.bounds r').1 ∨ (l.bounds r').2 ≤ address := by
  have hlt := l.stackLimit_lt
  have hle := l.dataBase_le
  have hb := bounds_of_admits h
  cases r <;> cases r' <;> simp only [bounds, ne_eq, not_true_eq_false] at hb hr ⊢ <;> omega

theorem bounds_le_memSize (l : Layout) (r : Region) : (l.bounds r).2 ≤ l.memSize := by
  have hlt := l.stackLimit_lt
  have hle := l.dataBase_le
  cases r <;> simp only [bounds] <;> omega

end Layout

namespace Memory

variable {m : Memory} {r : Region} {address : Int}

/-! ### Single words -/

theorem get_set_of_admits (h : m.layout.Admits r address) (value : Int) :
    (m.set address value).get address = value := by
  have hb := Layout.pos_and_lt_of_admits h
  exact get_set (by omega) value

theorem get_set_of_int_ne {a b : Int} (ha : 0 ≤ a) (hb : 0 ≤ b) (h : a ≠ b) (value : Int) :
    (m.set a value).get b = m.get b :=
  get_set_of_ne (by omega) value

/-- There is a word at every admitted address. -/
theorem exists_word_of_admits (h : m.layout.Admits r address) :
    0 < address ∧ ∃ w, m.words[address.toNat]? = some w := by
  obtain ⟨hpos, hlt⟩ := Layout.pos_and_lt_of_admits h
  have hsize : address.toNat < m.words.size := by
    rw [m.size_words]
    omega
  exact ⟨hpos, _, Array.getElem?_eq_getElem hsize⟩

/-- The words after setting one at an admitted address. -/
theorem getElem?_words_set (h : m.layout.Admits r address) (value : Int) (i : Nat) :
    (m.set address value).words[i]? = if (i : Int) = address then some value else m.words[i]? := by
  obtain ⟨hpos, hlt⟩ := Layout.pos_and_lt_of_admits h
  have hsize := m.size_words
  rw [set, Array.getElem?_setIfInBounds]
  by_cases hi : (i : Int) = address
  · rw [if_pos hi, if_pos (by omega), if_pos (by omega)]
  · rw [if_neg hi, if_neg (by omega)]

/-- Setting a word leaves every word what it was, or makes it the word set. -/
theorem get_set_cases (m : Memory) (a b value : Int) :
    (m.set a value).get b = m.get b ∨ (m.set a value).get b = value := by
  by_cases h : a.toNat = b.toNat
  · by_cases hlt : b.toNat < m.layout.memSize
    · right
      rw [get, ← h]
      exact get_set (by omega) value
    · -- Beyond the end of memory nothing is set, and the word read there is zero both times.
      left
      have hsize := m.size_words
      simp only [get, set, Array.getD_eq_getD_getElem?]
      rw [Array.getElem?_eq_none (by simp; omega), Array.getElem?_eq_none (by omega)]
  · exact Or.inl (get_set_of_ne h value)

/-! ### The words of a region -/

/-- The words of a region, address by address. -/
theorem regionWords_eq (m : Memory) (r : Region) :
    m.regionWords r =
      (List.range ((m.layout.bounds r).2 - (m.layout.bounds r).1)).map fun i : Nat ↦
        m.get ((m.layout.bounds r).1 + i) := by
  have hle := m.layout.bounds_le_memSize r
  have hsize := m.size_words
  apply List.ext_getElem
  · simp only [regionWords, Array.length_toList, Array.size_extract, List.length_map,
      List.length_range]
    omega
  · intro i hi hi'
    simp only [List.length_map, List.length_range] at hi'
    -- The address is computed in the integers and used as an index.
    have hget : ((m.layout.bounds r).1 + i : Int).toNat = (m.layout.bounds r).1 + i := by omega
    simp only [regionWords, Array.getElem_toList, Array.getElem_extract, List.getElem_map,
      List.getElem_range, get, hget, Array.getD_eq_getD_getElem?]
    rw [Array.getElem?_eq_getElem (by omega)]
    rfl

theorem length_regionWords (m : Memory) (r : Region) :
    (m.regionWords r).length = (m.layout.bounds r).2 - (m.layout.bounds r).1 := by
  rw [regionWords_eq, List.length_map, List.length_range]

theorem getElem?_regionWords {i : Nat}
    (h : i < (m.layout.bounds r).2 - (m.layout.bounds r).1) :
    (m.regionWords r)[i]? = some (m.get ((m.layout.bounds r).1 + i)) := by
  rw [regionWords_eq, List.getElem?_map, List.getElem?_range h]
  rfl

/-- A word set at an admitted address replaces one word of its region. -/
theorem regionWords_set (h : m.layout.Admits r address) (value : Int) :
    (m.set address value).regionWords r =
      (m.regionWords r).set (address - (m.layout.bounds r).1).toNat value := by
  have hb := Layout.bounds_of_admits h
  apply List.ext_getElem
  · rw [List.length_set, length_regionWords, length_regionWords, layout_set]
  · intro i hi hi'
    rw [List.getElem_set]
    simp only [regionWords_eq, List.getElem_map, List.getElem_range, layout_set]
    split
    · next heq =>
      have : address = (m.layout.bounds r).1 + i := by omega
      rw [← this, get_set_of_admits h]
    · next hne => exact get_set_of_int_ne (by omega) (by omega) (by omega) value

/-- A word set at an admitted address leaves the words of the other regions alone. -/
theorem regionWords_set_of_ne {r' : Region} (h : m.layout.Admits r address) (hr : r' ≠ r)
    (value : Int) : (m.set address value).regionWords r' = m.regionWords r' := by
  have hout := Layout.outside_of_admits h hr
  have hpos := (Layout.pos_and_lt_of_admits h).1
  rw [regionWords_eq, regionWords_eq, layout_set]
  apply List.map_congr_left
  intro i hi
  rw [List.mem_range] at hi
  exact get_set_of_int_ne (by omega) (by omega) (by omega) value

/-! ### The values on the stack -/

/-- The first `count` words of the stack, from bottom to top: those at the addresses from `1` to
`count`. -/
def stackWords (m : Memory) (count : Nat) : List Int :=
  (List.range count).map fun i : Nat ↦ m.get (i + 1)

theorem stackWords_succ (m : Memory) (count : Nat) :
    m.stackWords (count + 1) = m.stackWords count ++ [m.get (count + 1)] := by
  simp only [stackWords, List.range_succ, List.map_append, List.map_cons, List.map_nil]

/-- The words of the stack run from bottom to top, so the first value of a list of them that has the
top one first is the last word. -/
theorem stackWords_eq_reverse_cons {count : Nat} {value : Int} {rest : List Int}
    (h : m.stackWords (count + 1) = (value :: rest).reverse) :
    m.get (count + 1) = value ∧ m.stackWords count = rest.reverse := by
  rw [stackWords_succ, List.reverse_cons] at h
  obtain ⟨hbelow, htop⟩ := List.append_inj' h rfl
  exact ⟨(List.cons.inj htop).1, hbelow⟩

/-- A word set above the values on the stack changes none of them. -/
theorem stackWords_set {count : Nat} (h : (count : Int) < address) (value : Int) :
    (m.set address value).stackWords count = m.stackWords count := by
  apply List.map_congr_left
  intro i hi
  rw [List.mem_range] at hi
  exact get_set_of_int_ne (by omega) (by omega) (by omega) value

/-- A word set just above the values on the stack is a new value. -/
theorem stackWords_set_next {count : Nat} (h : m.layout.Admits .stack (count + 1))
    (value : Int) :
    (m.set (count + 1) value).stackWords (count + 1) = m.stackWords count ++ [value] := by
  rw [stackWords_succ, stackWords_set (by omega), get_set_of_admits h]

end Memory

end TaggedStack
