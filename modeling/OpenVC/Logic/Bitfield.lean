import Mathlib.Data.Nat.Bitwise
import Mathlib.Data.List.Basic

/-!
# Packed fields

A word of `n` bits holds fields of `w` bits at given offsets; a list of words holds as many fields for
each word. Writing a field leaves the word a word and every other field as it was, so the words are an
array of the fields.
-/

namespace Bitfield

variable {n w s t x v : Nat}

/-- The field of `w` bits at offset `s`. -/
def read (x s w : Nat) : Nat := x >>> s &&& (2 ^ w - 1)

/-- The word with another field of `w` bits at offset `s`. -/
def write (x s w v : Nat) : Nat := x.ldiff ((2 ^ w - 1) <<< s) ||| v <<< s

theorem testBit_read (x s w i : Nat) : (read x s w).testBit i = (decide (i < w) && x.testBit (s + i)) := by
  rw [read, Nat.testBit_and, Nat.testBit_shiftRight, Nat.testBit_two_pow_sub_one, Bool.and_comm]

theorem testBit_write (x s w v i : Nat) : (write x s w v).testBit i =
    ((x.testBit i && !(decide (s ≤ i) && decide (i - s < w))) ||
      (decide (s ≤ i) && v.testBit (i - s))) := by
  rw [write, Nat.testBit_or, Nat.testBit_ldiff, Nat.testBit_shiftLeft, Nat.testBit_shiftLeft,
    Nat.testBit_two_pow_sub_one]

@[simp] theorem read_zero (s w : Nat) : read 0 s w = 0 := by
  rw [read, Nat.zero_shiftRight, Nat.zero_and]

/-- What was written is read. -/
theorem read_write_self (hv : v < 2 ^ w) : read (write x s w v) s w = v := by
  refine Nat.eq_of_testBit_eq fun i => ?_
  rw [testBit_read, testBit_write]
  by_cases hi : i < w
  · simp [hi]
  · have hbit : v.testBit i = false :=
      Nat.testBit_lt_two_pow (hv.trans_le (Nat.pow_le_pow_right (by omega) (by omega)))
    simp [hi, hbit]

/-- A field that does not overlap the written one is as it was. -/
theorem read_write_of_apart {u : Nat} (hv : v < 2 ^ w) (h : s + w ≤ t ∨ t + u ≤ s) :
    read (write x s w v) t u = read x t u := by
  refine Nat.eq_of_testBit_eq fun i => ?_
  rw [testBit_read, testBit_read, testBit_write]
  by_cases hi : i < u
  · by_cases hs : s ≤ t + i
    · have hw : ¬ t + i - s < w := by omega
      have hbit : v.testBit (t + i - s) = false :=
        Nat.testBit_lt_two_pow (hv.trans_le (Nat.pow_le_pow_right (by omega) (by omega)))
      simp [hi, hs, hw, hbit]
    · simp [hs]
  · simp [hi]

/-- A word stays a word. -/
theorem write_lt (hx : x < 2 ^ n) (hv : v < 2 ^ w) (h : s + w ≤ n) : write x s w v < 2 ^ n := by
  refine Nat.lt_pow_two_of_testBit _ fun i hi => ?_
  have hbit : x.testBit i = false :=
    Nat.testBit_lt_two_pow (hx.trans_le (Nat.pow_le_pow_right (by omega) hi))
  have hbit' : v.testBit (i - s) = false :=
    Nat.testBit_lt_two_pow (hv.trans_le (Nat.pow_le_pow_right (by omega) (by omega)))
  rw [testBit_write, hbit, hbit']
  simp

/-! ## Words of fields -/

/-- Where the fields of a word of `n` bits are. -/
structure Layout (n : Nat) where
  perWord : Nat
  width : Nat
  /-- The offset of a field. -/
  offset : Nat → Nat
  perWord_pos : 0 < perWord
  fits : ∀ p < perWord, offset p + width ≤ n
  apart : ∀ p < perWord, ∀ q < perWord, p ≠ q →
    offset p + width ≤ offset q ∨ offset q + width ≤ offset p

namespace Layout

variable (L : Layout n) {ws : List Nat} {i j : Nat}

/-- The number of fields in some words. -/
def capacity (length : Nat) : Nat := length * L.perWord

/-- The `i`-th field. -/
def get (ws : List Nat) (i : Nat) : Nat :=
  read (ws.getD (i / L.perWord) 0) (L.offset (i % L.perWord)) L.width

/-- The words with another `i`-th field. -/
def set (ws : List Nat) (i v : Nat) : List Nat :=
  ws.set (i / L.perWord) (write (ws.getD (i / L.perWord) 0) (L.offset (i % L.perWord)) L.width v)

/-- The fields of some words. -/
def fields (ws : List Nat) : List Nat := (List.range (L.capacity ws.length)).map (L.get ws)

theorem word_lt_iff {length : Nat} : i / L.perWord < length ↔ i < L.capacity length :=
  Nat.div_lt_iff_lt_mul L.perWord_pos

@[simp] theorem length_set (ws : List Nat) (i v : Nat) : (L.set ws i v).length = ws.length :=
  List.length_set

@[simp] theorem length_fields (ws : List Nat) : (L.fields ws).length = L.capacity ws.length := by
  rw [fields, List.length_map, List.length_range]

theorem getElem?_fields (hi : i < L.capacity ws.length) : (L.fields ws)[i]? = some (L.get ws i) := by
  rw [fields, List.getElem?_map, List.getElem?_range hi, Option.map_some]

theorem get_set_self (hv : v < 2 ^ L.width) (hi : i < L.capacity ws.length) :
    L.get (L.set ws i v) i = v := by
  have hword : i / L.perWord < ws.length := L.word_lt_iff.mpr hi
  rw [get, set, List.getD_eq_getElem?_getD, List.getElem?_set_self hword, Option.getD_some,
    read_write_self hv]

theorem get_set_of_ne (hv : v < 2 ^ L.width) (h : i ≠ j) : L.get (L.set ws i v) j = L.get ws j := by
  by_cases hword : i / L.perWord = j / L.perWord
  · have hpos : i % L.perWord ≠ j % L.perWord := by
      intro hmod
      have hi := Nat.div_add_mod i L.perWord
      have hj := Nat.div_add_mod j L.perWord
      rw [hword, hmod] at hi
      omega
    by_cases hlen : j / L.perWord < ws.length
    · have hapart := L.apart _ (Nat.mod_lt i L.perWord_pos) _ (Nat.mod_lt j L.perWord_pos) hpos
      rw [get, get, set, hword, List.getD_eq_getElem?_getD, List.getElem?_set_self hlen,
        Option.getD_some, read_write_of_apart hv hapart]
    · rw [get, get, set, hword, List.set_eq_of_length_le (by omega)]
  · rw [get, get, set, List.getD_eq_getElem?_getD, List.getElem?_set_ne hword,
      ← List.getD_eq_getElem?_getD]

/-- Writing a field is writing an entry of the array. -/
theorem fields_set (hv : v < 2 ^ L.width) (hi : i < L.capacity ws.length) :
    L.fields (L.set ws i v) = (L.fields ws).set i v := by
  refine List.ext_getElem? fun j => ?_
  by_cases hj : j < L.capacity ws.length
  · rw [L.getElem?_fields (by rw [length_set]; exact hj)]
    by_cases h : i = j
    · subst h
      rw [L.get_set_self hv hi, List.getElem?_set_self (by rw [length_fields]; exact hi)]
    · rw [L.get_set_of_ne hv h, List.getElem?_set_ne h, L.getElem?_fields hj]
  · rw [List.getElem?_eq_none (by rw [length_fields, length_set]; omega),
      List.getElem?_eq_none (by rw [List.length_set, length_fields]; omega)]

theorem fields_replicate_zero (length : Nat) :
    L.fields (List.replicate length 0) = List.replicate (L.capacity length) 0 := by
  have hget : ∀ i, L.get (List.replicate length 0) i = 0 := by
    intro i
    rw [get, List.getD_eq_getElem?_getD, List.getElem?_replicate]
    split_ifs <;> simp
  refine List.eq_replicate_iff.mpr ⟨by rw [length_fields, List.length_replicate], fun x hx => ?_⟩
  obtain ⟨i, -, rfl⟩ := List.mem_map.mp hx
  exact hget i

end Layout

end Bitfield
