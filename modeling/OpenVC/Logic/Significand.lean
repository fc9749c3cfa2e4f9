import Mathlib.Algebra.Order.Field.Power
import Mathlib.Data.Rat.Cast.Order
import Mathlib.Tactic.Linarith
import Mathlib.Tactic.Positivity
import Mathlib.Tactic.Ring

/-!
# Significant digits of a rational

A positive rational that terminates in base `b` has many spellings as a number of `k` digits with the
point after the first `n` of them. The magnitude fixes `n`, and the shortest spelling is unique.
-/

namespace Significand

variable {b s s' k k' : Nat} {n n' : Int} {x : Rat}

/-- `x` is the number `s` of `k` digits, with the point after the first `n`. -/
structure Spells (b : Nat) (x : Rat) (s k : Nat) (n : Int) : Prop where
  pos : 0 < k
  low : b ^ (k - 1) ≤ s
  high : s < b ^ k
  value : x = s * (b : Rat) ^ (n - k)

/-- The spelling has as few digits as any. -/
structure Shortest (b : Nat) (x : Rat) (s k : Nat) (n : Int) : Prop extends Spells b x s k n where
  least : ∀ {s' k' : Nat} {n' : Int}, Spells b x s' k' n' → k ≤ k'

theorem Spells.mem_decade (hb : 1 < b) (h : Spells b x s k n) :
    (b : Rat) ^ (n - 1) ≤ x ∧ x < (b : Rat) ^ n := by
  have hb0 : (b : Rat) ≠ 0 := by
    have : b ≠ 0 := by omega
    exact_mod_cast this
  have hpos : (0 : Rat) < (b : Rat) ^ (n - k) := zpow_pos (by exact_mod_cast (by omega : 0 < b)) _
  have hlow : ((b : Rat) ^ ((k : Int) - 1)) ≤ s := by
    have hk : ((k : Int) - 1) = ((k - 1 : Nat) : Int) := by
      have := h.pos
      omega
    rw [hk, zpow_natCast]
    exact_mod_cast h.low
  have hhigh : (s : Rat) < (b : Rat) ^ (k : Int) := by
    rw [zpow_natCast]
    exact_mod_cast h.high
  rw [h.value]
  constructor
  · calc (b : Rat) ^ (n - 1) = (b : Rat) ^ ((k : Int) - 1) * (b : Rat) ^ (n - k) := by
          rw [← zpow_add₀ hb0]; congr 1; omega
      _ ≤ s * (b : Rat) ^ (n - k) := mul_le_mul_of_nonneg_right hlow hpos.le
  · calc (s : Rat) * (b : Rat) ^ (n - k) < (b : Rat) ^ (k : Int) * (b : Rat) ^ (n - k) :=
          mul_lt_mul_of_pos_right hhigh hpos
      _ = (b : Rat) ^ n := by rw [← zpow_add₀ hb0]; congr 1; omega

/-- The magnitude fixes where the point stands. -/
theorem Spells.point_unique (hb : 1 < b) (h : Spells b x s k n) (h' : Spells b x s' k' n') :
    n = n' := by
  have hb1 : (1 : Rat) < b := by exact_mod_cast hb
  obtain ⟨hlow, hhigh⟩ := h.mem_decade hb
  obtain ⟨hlow', hhigh'⟩ := h'.mem_decade hb
  have h1 : n - 1 < n' := (zpow_lt_zpow_iff_right₀ hb1).mp (hlow.trans_lt hhigh')
  have h2 : n' - 1 < n := (zpow_lt_zpow_iff_right₀ hb1).mp (hlow'.trans_lt hhigh)
  omega

/-- A longer spelling is a shorter one followed by zeros. -/
theorem Spells.eq_mul_pow (hb : 1 < b) (h : Spells b x s k n) (h' : Spells b x s' k' n')
    (hk : k' ≤ k) : s = s' * b ^ (k - k') := by
  have hb0 : (b : Rat) ≠ 0 := by
    have : b ≠ 0 := by omega
    exact_mod_cast this
  obtain rfl := h.point_unique hb h'
  have hne : (b : Rat) ^ (n - k) ≠ 0 := zpow_ne_zero _ hb0
  have hvalue : (s : Rat) * (b : Rat) ^ (n - k) = s' * (b : Rat) ^ (k - k') * (b : Rat) ^ (n - k) := by
    rw [← h.value, h'.value, mul_assoc]
    congr 1
    rw [← zpow_natCast, ← zpow_add₀ hb0]
    congr 1
    omega
  have := mul_right_cancel₀ hne hvalue
  exact_mod_cast this

/-- A spelling that does not end in a zero is the shortest one. -/
theorem Spells.shortest (hb : 1 < b) (h : Spells b x s k n) (hs : ¬ b ∣ s) :
    Shortest b x s k n := by
  refine { h with least := fun {s' k' n'} h' => ?_ }
  by_contra hlt
  have heq := h.eq_mul_pow hb h' (by omega)
  refine hs ⟨s' * b ^ (k - k' - 1), ?_⟩
  rw [heq, show k - k' = (k - k' - 1) + 1 by omega, pow_succ, Nat.add_sub_cancel]
  ring

theorem Shortest.unique (hb : 1 < b) (h : Shortest b x s k n) (h' : Shortest b x s' k' n') :
    s = s' ∧ k = k' ∧ n = n' := by
  have hn := h.toSpells.point_unique hb h'.toSpells
  have hk : k = k' := Nat.le_antisymm (h.least h'.toSpells) (h'.least h.toSpells)
  have hs := h.toSpells.eq_mul_pow hb h'.toSpells hk.ge
  rw [hk, Nat.sub_self, pow_zero, Nat.mul_one] at hs
  exact ⟨hs, hk, hn⟩

end Significand
