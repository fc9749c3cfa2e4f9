import Mathlib.Data.List.TakeWhile
import Mathlib.Data.Nat.Digits.Lemmas

/-!
# Positional numerals with leading zeros

A list of digits, the most significant first, is its leading zeros and the numeral of its value; so the
number of leading zeros and the value determine it.
-/

namespace Positional

variable {b k n : Nat} {ds : List Nat}

/-- The number that a list of digits is in base `b`. -/
def value (b : Nat) (ds : List Nat) : Nat := ds.foldl (fun a d => a * b + d) 0

/-- The digits of a number, the most significant first and without leading zeros. -/
def numeral (b n : Nat) : List Nat := (Nat.digits b n).reverse

/-- The number of leading zeros. -/
def zeros (ds : List Nat) : Nat := (ds.takeWhile (· = 0)).length

theorem foldl_value (ds : List Nat) (a : Nat) :
    ds.foldl (fun a d => a * b + d) a = a * b ^ ds.length + value b ds := by
  induction ds generalizing a with
  | nil => simp [value]
  | cons d ds ih =>
    have hd : value b (d :: ds) = d * b ^ ds.length + value b ds := by
      rw [value, List.foldl_cons, ih]
      simp
    rw [List.foldl_cons, ih, hd, List.length_cons, pow_succ]
    ring

@[simp] theorem value_nil : value b [] = 0 := rfl

theorem value_cons (d : Nat) (ds : List Nat) :
    value b (d :: ds) = d * b ^ ds.length + value b ds := by
  rw [value, List.foldl_cons, foldl_value]
  simp

theorem value_append (ds es : List Nat) :
    value b (ds ++ es) = value b ds * b ^ es.length + value b es := by
  rw [value, List.foldl_append, foldl_value]
  rfl

@[simp] theorem value_replicate_zero (k : Nat) : value b (List.replicate k 0) = 0 := by
  induction k with
  | zero => rfl
  | succ k ih => rw [List.replicate_succ, value_cons, ih, Nat.zero_mul]

theorem value_eq_ofDigits (ds : List Nat) : value b ds = Nat.ofDigits b ds.reverse := by
  induction ds with
  | nil => rfl
  | cons d ds ih =>
    rw [value_cons, List.reverse_cons, Nat.ofDigits_append, List.length_reverse, ih,
      Nat.ofDigits_singleton]
    ring

@[simp] theorem value_numeral (b n : Nat) : value b (numeral b n) = n := by
  rw [value_eq_ofDigits, numeral, List.reverse_reverse, Nat.ofDigits_digits]

theorem lt_of_mem_numeral (hb : 1 < b) {d : Nat} (h : d ∈ numeral b n) : d < b :=
  Nat.digits_lt_base hb (List.mem_reverse.mp h)

/-- A numeral does not start with a zero. -/
theorem numeral_cons_ne_zero {d : Nat} {t : List Nat} (h : numeral b n = d :: t) : d ≠ 0 := by
  have hne : Nat.digits b n ≠ [] := by
    intro e
    rw [numeral, e] at h
    cases h
  have hn : n ≠ 0 := fun e => hne (by rw [e, Nat.digits_zero])
  have hlast : (Nat.digits b n).getLast hne = d := by
    rw [← List.head_reverse (by simpa using hne)]
    simp only [numeral] at h
    simp [h]
  rw [← hlast]
  exact Nat.getLast_digit_ne_zero b hn

/-- A run of one element in front of a list that does not start with it. -/
theorem length_takeWhile_replicate {α : Type} [DecidableEq α] {a : α} {t : List α} (k : Nat)
    (ht : ∀ x r, t = x :: r → x ≠ a) : ((List.replicate k a ++ t).takeWhile (· = a)).length = k := by
  induction k with
  | zero =>
    cases t with
    | nil => rfl
    | cons x r =>
      have hx := ht x r rfl
      rw [List.replicate_zero, List.nil_append, List.takeWhile_cons_of_neg (by simpa using hx)]
      rfl
  | succ k ih =>
    rw [List.replicate_succ, List.cons_append, List.takeWhile_cons_of_pos (by simp),
      List.length_cons, ih]

theorem zeros_append_numeral (b k n : Nat) : zeros (List.replicate k 0 ++ numeral b n) = k :=
  length_takeWhile_replicate k fun _ _ h => numeral_cons_ne_zero h

theorem value_append_numeral (b k n : Nat) :
    value b (List.replicate k 0 ++ numeral b n) = n := by
  rw [value_append, value_replicate_zero, Nat.zero_mul, Nat.zero_add, value_numeral]

/-- Digits are their leading zeros and the numeral of their value. -/
theorem eq_append_numeral (hb : 1 < b) (h : ∀ d ∈ ds, d < b) :
    ds = List.replicate (zeros ds) 0 ++ numeral b (value b ds) := by
  have htake : ds.takeWhile (· = 0) = List.replicate (zeros ds) 0 := by
    refine List.eq_replicate_of_mem fun x hx => ?_
    simpa using List.mem_takeWhile_imp hx
  have hval : value b ds = value b (ds.dropWhile (· = 0)) := by
    conv_lhs => rw [← List.takeWhile_append_dropWhile (p := (· = 0)) (l := ds), htake]
    rw [value_append, value_replicate_zero, Nat.zero_mul, Nat.zero_add]
  have hrest : numeral b (value b (ds.dropWhile (· = 0))) = ds.dropWhile (· = 0) := by
    rw [numeral, value_eq_ofDigits, Nat.digits_ofDigits b hb, List.reverse_reverse]
    · intro d hd
      exact h d (List.dropWhile_sublist _ |>.subset (List.mem_reverse.mp hd))
    · intro hne
      rw [List.getLast_reverse]
      have hhead := List.head_dropWhile_not (p := (· = 0)) (l := ds) (by simpa using hne)
      simpa using hhead
  rw [hval, hrest, ← htake, List.takeWhile_append_dropWhile]

end Positional
