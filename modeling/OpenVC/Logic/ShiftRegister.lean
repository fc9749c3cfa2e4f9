import Mathlib.Data.Nat.Bitwise
import Mathlib.Logic.Function.Iterate

/-!
# Division over GF(2), bit by bit and by octets

A register of `w` bits divides by a generator of degree `w`, the most significant bit first: it moves
up one place, and the generator is taken away when a bit leaves it. Shifting is linear, so eight
shifts are those of the bits that leave the register, read from a table, and of the others, which
only move up.
-/

namespace ShiftRegister

variable {w g a b c : Nat}

/-- One place up, modulo the generator. -/
def shift (w g c : Nat) : Nat := if (2 * c).testBit w then 2 * c ^^^ g else 2 * c

/-- A generator of degree `w`. -/
structure Generator (w g : Nat) : Prop where
  lead : g.testBit w = true
  lt : g < 2 ^ (w + 1)

theorem two_mul_xor (a b : Nat) : 2 * (a ^^^ b) = 2 * a ^^^ 2 * b := by
  have h : ∀ n : Nat, 2 * n = n <<< 1 := fun n => by rw [Nat.shiftLeft_eq, pow_one, Nat.mul_comm]
  rw [h, h, h, Nat.shiftLeft_xor_distrib]

theorem shift_lt (hg : Generator w g) (hc : c < 2 ^ w) : shift w g c < 2 ^ w := by
  have hlt : 2 * c < 2 ^ (w + 1) := by
    rw [pow_succ]
    omega
  refine Nat.lt_pow_two_of_testBit _ fun i hi => ?_
  unfold shift
  rcases Nat.eq_or_lt_of_le hi with rfl | hi
  · by_cases hbit : (2 * c).testBit w = true
    · rw [if_pos hbit, Nat.testBit_xor, hbit, hg.lead, Bool.xor_self]
    · rw [if_neg hbit]
      exact Bool.eq_false_iff.mpr hbit
  · have h2c : (2 * c).testBit i = false :=
      Nat.testBit_lt_two_pow (hlt.trans_le (Nat.pow_le_pow_right (by omega) hi))
    have hgi : g.testBit i = false :=
      Nat.testBit_lt_two_pow (hg.lt.trans_le (Nat.pow_le_pow_right (by omega) hi))
    split
    · rw [Nat.testBit_xor, h2c, hgi, Bool.xor_self]
    · exact h2c

/-- Shifting is linear. -/
theorem shift_xor (a b : Nat) : shift w g (a ^^^ b) = shift w g a ^^^ shift w g b := by
  unfold shift
  rw [two_mul_xor, Nat.testBit_xor]
  by_cases ha : (2 * a).testBit w = true <;> by_cases hb : (2 * b).testBit w = true
  · rw [ha, hb, if_neg (by decide), if_pos rfl, if_pos rfl, Nat.xor_assoc, Nat.xor_comm g,
      Nat.xor_assoc, Nat.xor_self, Nat.xor_zero]
  · rw [ha, Bool.eq_false_iff.mpr hb, if_pos (by decide), if_pos rfl, if_neg (by decide),
      Nat.xor_assoc, Nat.xor_comm (2 * b), Nat.xor_assoc]
  · rw [Bool.eq_false_iff.mpr ha, hb, if_pos (by decide), if_neg (by decide), if_pos rfl,
      Nat.xor_assoc]
  · rw [Bool.eq_false_iff.mpr ha, Bool.eq_false_iff.mpr hb, if_neg (by decide), if_neg (by decide),
      if_neg (by decide)]

theorem iterate_shift_xor (k a b : Nat) :
    (shift w g)^[k] (a ^^^ b) = (shift w g)^[k] a ^^^ (shift w g)^[k] b := by
  induction k generalizing a b with
  | zero => rfl
  | succ k ih => rw [Function.iterate_succ_apply, shift_xor, ih, ← Function.iterate_succ_apply,
      ← Function.iterate_succ_apply]

theorem iterate_shift_lt (hg : Generator w g) (hc : c < 2 ^ w) (k : Nat) :
    (shift w g)^[k] c < 2 ^ w := by
  induction k generalizing c with
  | zero => exact hc
  | succ k ih =>
    rw [Function.iterate_succ_apply]
    exact ih (shift_lt hg hc)

/-- A register that no bit leaves only moves up. -/
theorem iterate_shift_of_lt {k : Nat} (h : c * 2 ^ k < 2 ^ w) : (shift w g)^[k] c = c * 2 ^ k := by
  induction k generalizing c with
  | zero => exact (Nat.mul_one c).symm
  | succ k ih =>
    have hpow : c * 2 ^ (k + 1) = 2 * c * 2 ^ k := by
      rw [pow_succ, Nat.mul_comm (2 ^ k) 2, ← Nat.mul_assoc, Nat.mul_comm c 2]
    rw [hpow] at h ⊢
    have hle : 2 * c ≤ 2 * c * 2 ^ k := Nat.le_mul_of_pos_right _ (Nat.two_pow_pos k)
    have hstep : shift w g c = 2 * c := by
      rw [shift, Nat.testBit_lt_two_pow (hle.trans_lt h), if_neg (by decide)]
    rw [Function.iterate_succ_apply, hstep]
    exact ih h

/-- A register is its upper bits and its lower ones. -/
theorem xor_parts (n c : Nat) : c / 2 ^ n * 2 ^ n ^^^ c % 2 ^ n = c := by
  refine Nat.eq_of_testBit_eq fun i => ?_
  rw [Nat.testBit_xor, Nat.testBit_mul_two_pow, Nat.testBit_mod_two_pow, Nat.testBit_div_two_pow]
  by_cases hi : n ≤ i
  · have hlt : ¬ i < n := by omega
    rw [decide_eq_true hi, decide_eq_false hlt, Bool.true_and, Bool.false_and, Bool.xor_false,
      Nat.sub_add_cancel hi]
  · have hlt : i < n := by omega
    rw [decide_eq_false hi, decide_eq_true hlt, Bool.true_and, Bool.false_and, Bool.false_xor]

/-- `k` shifts after `k` bits were added at the top, by a table. -/
theorem iterate_shift_eq_table {k : Nat} (hk : k ≤ w) (b : Nat) :
    (shift w g)^[k] (c ^^^ b * 2 ^ (w - k)) =
      c * 2 ^ k % 2 ^ w ^^^ (shift w g)^[k] ((c / 2 ^ (w - k) ^^^ b) * 2 ^ (w - k)) := by
  have hpow : 2 ^ w = 2 ^ (w - k) * 2 ^ k := by
    rw [← pow_add, Nat.sub_add_cancel hk]
  have hmul : ∀ x y : Nat, (x ^^^ y) * 2 ^ (w - k) = x * 2 ^ (w - k) ^^^ y * 2 ^ (w - k) := by
    intro x y
    rw [← Nat.shiftLeft_eq, ← Nat.shiftLeft_eq, ← Nat.shiftLeft_eq, Nat.shiftLeft_xor_distrib]
  have hlow : (shift w g)^[k] (c % 2 ^ (w - k)) = c * 2 ^ k % 2 ^ w := by
    rw [iterate_shift_of_lt, hpow, Nat.mul_mod_mul_right]
    rw [hpow]
    exact Nat.mul_lt_mul_of_pos_right (Nat.mod_lt _ (Nat.two_pow_pos _)) (Nat.two_pow_pos k)
  have hparts : c ^^^ b * 2 ^ (w - k) =
      c % 2 ^ (w - k) ^^^ (c / 2 ^ (w - k) ^^^ b) * 2 ^ (w - k) := by
    conv_lhs => rw [← xor_parts (w - k) c]
    rw [hmul, Nat.xor_comm (c / 2 ^ (w - k) * 2 ^ (w - k)), Nat.xor_assoc]
  rw [hparts, iterate_shift_xor, hlow]

end ShiftRegister
