import Mathlib.Order.Defs.LinearOrder
import Mathlib.Tactic.IntervalCases
import OpenVC.Python.Text

/-!
# Decimal numerals

How `Str.toNat` reads a concatenation of digits, and that it reads back what `Str.ofNat` writes.
-/

namespace Python.Str

theorem toNat_foldl (s : Str) (a : Nat) :
    s.foldl (fun a c => 10 * a + (c - 48)) a = 10 ^ s.length * a + toNat s := by
  induction s generalizing a with
  | nil => simp [toNat]
  | cons c s ih =>
    simp only [toNat, List.foldl_cons, List.length_cons]
    rw [ih, ih (10 * 0 + (c - 48)), Nat.pow_succ]
    rw [Nat.mul_zero, Nat.zero_add, Nat.mul_add, Nat.mul_assoc, Nat.add_assoc]

theorem toNat_append (s t : Str) : toNat (s ++ t) = 10 ^ t.length * toNat s + toNat t := by
  rw [toNat, List.foldl_append, toNat_foldl]
  rfl

@[simp] theorem toNat_nil : toNat [] = 0 := rfl

@[simp] theorem toNat_zero_cons (s : Str) : toNat (48 :: s) = toNat s := by
  rw [toNat, List.foldl_cons, toNat_foldl]
  simp

@[simp] theorem toNat_replicate_zero (k : Nat) : toNat (List.replicate k 48) = 0 := by
  induction k with
  | zero => rfl
  | succ k ih => rw [List.replicate_succ, toNat_zero_cons, ih]

@[simp] theorem toNat_ofNat (n : Nat) : toNat (ofNat n) = n := by
  rw [toNat, ofNat, List.foldl_map]
  exact Nat.ofDigitChars_ten_toDigits

theorem ofNat_ne_nil (n : Nat) : ofNat n ≠ [] := by
  rw [ofNat, Ne, List.map_eq_nil_iff]
  exact Nat.toDigits_ne_nil

theorem length_ofNat_le_iff {n k : Nat} (hk : 0 < k) : (ofNat n).length ≤ k ↔ n < 10 ^ k := by
  rw [ofNat, List.length_map]
  exact Nat.length_toDigits_le_iff (by omega) hk

theorem lt_pow_length_ofNat (n : Nat) : n < 10 ^ (ofNat n).length :=
  (length_ofNat_le_iff (List.length_pos_iff.mpr (ofNat_ne_nil n))).mp (Nat.le_refl _)

theorem pow_length_ofNat_le {n : Nat} (hn : 0 < n) : 10 ^ ((ofNat n).length - 1) ≤ n := by
  by_contra hlt
  by_cases h1 : (ofNat n).length - 1 = 0
  · rw [h1] at hlt
    omega
  · have := (length_ofNat_le_iff (n := n) (Nat.pos_of_ne_zero h1)).mpr (not_le.mp hlt)
    omega

theorem toNat_lt {s : Str} (h : ∀ c ∈ s, isDigit c = true) : toNat s < 10 ^ s.length := by
  induction s with
  | nil => simp
  | cons c s ih =>
    have hc := h c List.mem_cons_self
    have hs := ih fun x hx => h x (List.mem_cons_of_mem _ hx)
    have hle : c - 48 ≤ 9 := by
      simp only [isDigit, Bool.and_eq_true, decide_eq_true_eq] at hc
      omega
    rw [toNat, List.foldl_cons, toNat_foldl, List.length_cons, Nat.pow_succ]
    have := Nat.mul_le_mul_left (10 ^ s.length) hle
    simp only [Nat.mul_zero, Nat.zero_add]
    omega

theorem ofNat_cons_ne_zero {n c : Nat} {t : Str} (hn : 0 < n) (h : ofNat n = c :: t) : c ≠ 48 := by
  rintro rfl
  have hlen : (ofNat n).length - 1 = t.length := by rw [h]; simp
  have hle := pow_length_ofNat_le hn
  have hlt : toNat t < 10 ^ t.length :=
    toNat_lt fun x hx => isDigit_of_mem_ofNat (n := n) (h ▸ List.mem_cons_of_mem _ hx)
  have hval : toNat (ofNat n) = toNat t := by rw [h, toNat_zero_cons]
  rw [toNat_ofNat] at hval
  rw [hlen] at hle
  omega

/-! ## Numerals without leading zeros -/

theorem ofNat_snoc {m c : Nat} (hm : 0 < m) (hc : isDigit c = true) :
    ofNat (10 * m + (c - 48)) = ofNat m ++ [c] := by
  have hlt : c - 48 < 10 ∧ 48 + (c - 48) = c := by
    simp only [isDigit, Bool.and_eq_true, decide_eq_true_eq] at hc
    omega
  have hdigit : (Nat.toDigits 10 (c - 48)).map Char.toNat = [c] := by
    rw [Nat.toDigits_of_lt_base hlt.1]
    generalize c - 48 = d at hlt
    obtain ⟨hd, rfl⟩ := hlt
    interval_cases d <;> rfl
  rw [ofNat, ← Nat.toDigits_append_toDigits (by omega) hm hlt.1, List.map_append, hdigit]
  rfl

theorem ofNat_toNat {c : Nat} {t : Str} (hs : ∀ x ∈ c :: t, isDigit x = true) (hc : c ≠ 48) :
    ofNat (toNat (c :: t)) = c :: t := by
  induction t using List.reverseRecOn with
  | nil =>
    have hdigit := hs c List.mem_cons_self
    simp only [isDigit, Bool.and_eq_true, decide_eq_true_eq] at hdigit
    obtain ⟨h1, h2⟩ := hdigit
    interval_cases c <;> first | exact absurd rfl hc | rfl
  | append_singleton t d ih =>
    have hval : toNat (c :: (t ++ [d])) = 10 * toNat (c :: t) + (d - 48) := by
      rw [← List.cons_append, toNat_append, toNat, toNat]
      simp
    have ht : ofNat (toNat (c :: t)) = c :: t :=
      ih fun x hx => hs x (by rw [← List.cons_append]; exact List.mem_append_left _ hx)
    have hpos : 0 < toNat (c :: t) := by
      rcases Nat.eq_zero_or_pos (toNat (c :: t)) with h0 | hpos
      · rw [h0] at ht
        have hzero : ofNat 0 = [48] := rfl
        rw [hzero] at ht
        exact absurd (List.cons.inj ht).1.symm hc
      · exact hpos
    rw [hval, ofNat_snoc hpos (hs d (by simp)), ht, List.cons_append]

theorem ofNat_mul_pow {m : Nat} (hm : 0 < m) (k : Nat) :
    ofNat (m * 10 ^ k) = ofNat m ++ List.replicate k 48 := by
  induction k with
  | zero => simp
  | succ k ih =>
    have hpos : 0 < m * 10 ^ k := Nat.mul_pos hm (Nat.pow_pos (by omega))
    have := ofNat_snoc hpos (c := 48) rfl
    rw [ih, Nat.sub_self, Nat.add_zero] at this
    rw [Nat.pow_succ, Nat.mul_comm (10 ^ k), ← Nat.mul_assoc, Nat.mul_comm m, Nat.mul_assoc, this,
      List.append_assoc, ← List.replicate_succ']

end Python.Str
