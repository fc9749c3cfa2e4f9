import Mathlib.Algebra.Order.Field.Power
import Mathlib.Data.Rat.Floor
import Mathlib.Tactic.FieldSimp
import Mathlib.Tactic.Linarith
import Mathlib.Tactic.NormNum
import Mathlib.Tactic.Ring
import OpenVC.Python.Decimal
import OpenVC.Python.Numeral

/-!
# Rounding to a double, and the digits that identify one

`ofRat` gives back a double for every rational close to it, relative to its magnitude by half of
`10 ^ -16`. A decimal of seventeen digits is that close, so the search of `shortest` ends on digits
that read back as the number.
-/

namespace Python.PyFloat

/-! ## The binary exponent -/

theorem two_zpow_mul (z : Int) : (2 : Rat) ^ z * 2 ^ (-z).toNat = 2 ^ z.toNat := by
  rw [← zpow_natCast, ← zpow_natCast, ← zpow_add₀ (by norm_num : (2 : Rat) ≠ 0)]
  congr 1
  omega

theorem floorLog2_spec {n d : Nat} (hn : 0 < n) (hd : 0 < d) :
    (2 : Rat) ^ floorLog2 n d ≤ (n : Rat) / d ∧ (n : Rat) / d < 2 ^ (floorLog2 n d + 1) := by
  have hd' : (0 : Rat) < d := by exact_mod_cast hd
  have hn1 : ((2 : Rat)) ^ (n.log2 : Int) ≤ n := by
    rw [zpow_natCast]; exact_mod_cast Nat.log2_self_le hn.ne'
  have hn2 : (n : Rat) < 2 ^ ((n.log2 : Int) + 1) := by
    have : n < 2 ^ (n.log2 + 1) := Nat.lt_log2_self
    rw [← Nat.cast_succ, zpow_natCast]; exact_mod_cast this
  have hd1 : ((2 : Rat)) ^ (d.log2 : Int) ≤ d := by
    rw [zpow_natCast]; exact_mod_cast Nat.log2_self_le hd.ne'
  have hd2 : (d : Rat) < 2 ^ ((d.log2 : Int) + 1) := by
    have : d < 2 ^ (d.log2 + 1) := Nat.lt_log2_self
    rw [← Nat.cast_succ, zpow_natCast]; exact_mod_cast this
  have h2 : (2 : Rat) ≠ 0 := by norm_num
  have hpos : ∀ z : Int, (0 : Rat) < 2 ^ z := fun z => zpow_pos (by norm_num) z
  have hupper : (n : Rat) / d < 2 ^ ((n.log2 : Int) - d.log2 + 1) := by
    rw [div_lt_iff₀ hd']
    calc (n : Rat) < 2 ^ ((n.log2 : Int) + 1) := hn2
      _ = 2 ^ ((n.log2 : Int) - d.log2 + 1) * 2 ^ (d.log2 : Int) := by
        rw [← zpow_add₀ h2]; congr 1; omega
      _ ≤ 2 ^ ((n.log2 : Int) - d.log2 + 1) * d := mul_le_mul_of_nonneg_left hd1 (hpos _).le
  have hlower : (2 : Rat) ^ ((n.log2 : Int) - d.log2 - 1) ≤ (n : Rat) / d := by
    rw [le_div_iff₀ hd']
    calc (2 : Rat) ^ ((n.log2 : Int) - d.log2 - 1) * d
        ≤ 2 ^ ((n.log2 : Int) - d.log2 - 1) * 2 ^ ((d.log2 : Int) + 1) :=
          mul_le_mul_of_nonneg_left hd2.le (hpos _).le
      _ = 2 ^ (n.log2 : Int) := by rw [← zpow_add₀ h2]; congr 1; omega
      _ ≤ n := hn1
  -- the test of the definition decides between the two binades that are left
  have htest : ∀ k : Int, d * 2 ^ k.toNat ≤ n * 2 ^ (-k).toNat ↔ (2 : Rat) ^ k ≤ (n : Rat) / d := by
    intro k
    have hk : (0 : Rat) < 2 ^ (-k).toNat := by positivity
    rw [le_div_iff₀ hd', ← mul_le_mul_iff_left₀ hk, mul_right_comm, two_zpow_mul, mul_comm _ (d : Rat)]
    exact_mod_cast Iff.rfl
  unfold floorLog2
  simp only
  split
  · rename_i h
    exact ⟨(htest _).mp h, hupper⟩
  · rename_i h
    refine ⟨hlower, ?_⟩
    rw [sub_add_cancel]
    exact not_le.mp fun h' => h ((htest _).mpr h')

/-! ## Rounding -/

theorem roundHalfEven_eq {n d k : Nat} (hd : 0 < d) (h : |(n : Rat) / d - k| < 1 / 2) :
    roundHalfEven n d = k := by
  have hd' : (0 : Rat) < d := by exact_mod_cast hd
  have hn : (n : Rat) = d * (n / d : Nat) + (n % d : Nat) := by exact_mod_cast (Nat.div_add_mod n d).symm
  obtain ⟨hlo, hhi⟩ := abs_lt.mp h
  have hlo' : (2 * k * d : Rat) < 2 * n + d := by
    have : (k : Rat) - 1 / 2 < n / d := by linarith
    rw [lt_div_iff₀ hd'] at this
    linarith
  have hhi' : (2 * n : Rat) < 2 * k * d + d := by
    have : (n : Rat) / d < k + 1 / 2 := by linarith
    rw [div_lt_iff₀ hd'] at this
    linarith
  have hlo'' : 2 * k * d < 2 * n + d := by exact_mod_cast hlo'
  have hhi'' : 2 * n < 2 * k * d + d := by exact_mod_cast hhi'
  have hdm := Nat.div_add_mod n d
  have hr := Nat.mod_lt n hd
  unfold roundHalfEven
  simp only
  generalize n / d = q at *
  generalize n % d = r at *
  have hq : q ≤ k := by
    by_contra hgt
    have : d * (k + 1) ≤ d * q := Nat.mul_le_mul_left d (by omega)
    rw [Nat.mul_add, Nat.mul_comm d k] at this
    have : 2 * (k * d) = 2 * k * d := by ring
    omega
  have hk : k ≤ q + 1 := by
    by_contra hgt
    have : d * (q + 2) ≤ d * k := Nat.mul_le_mul_left d (by omega)
    rw [Nat.mul_add, Nat.mul_comm d k] at this
    have : 2 * (k * d) = 2 * k * d := by ring
    omega
  rcases Nat.lt_or_ge q k with hlt | hge
  · obtain rfl : k = q + 1 := by omega
    have : 2 * (q + 1) * d = 2 * (d * q) + 2 * d := by ring
    rw [if_neg (by omega), if_pos (by omega)]
  · obtain rfl : k = q := by omega
    have : 2 * k * d = 2 * (d * k) := by ring
    rw [if_pos (by omega)]

/-- The exponent of the last place of the doubles around `n / d`. -/
def placeExponent (n d : Nat) : Int := max (floorLog2 n d - 52) (-1074)

theorem roundMagnitude_eq {n d : Nat} (hn : 0 < n) :
    ∃ m : Nat, m = roundHalfEven (n * 2 ^ (-placeExponent n d).toNat)
        (d * 2 ^ (placeExponent n d).toNat) ∧
      roundMagnitude n d = m * 2 ^ placeExponent n d := by
  refine ⟨_, rfl, ?_⟩
  unfold roundMagnitude
  rw [if_neg hn.ne']
  simp only
  rw [Rat.mkRat_eq_div]
  push_cast
  rw [div_eq_iff (by positivity), mul_assoc, ← two_zpow_mul]
  rfl

theorem scaled_eq (n d : Nat) (z : Int) :
    ((n * 2 ^ (-z).toNat : Nat) : Rat) / (d * 2 ^ z.toNat : Nat) = (n : Rat) / d / 2 ^ z := by
  push_cast
  rw [← two_zpow_mul z, div_div]
  have h : (2 : Rat) ^ (-z).toNat ≠ 0 := by positivity
  rw [← mul_assoc, mul_div_mul_right _ _ h]

/-- A rational near a double rounds to it. -/
theorem roundMagnitude_near {n d m₀ : Nat} {u₀ : Int} {q : Rat} (hn : 0 < n) (hd : 0 < d)
    (hm : m₀ < 2 ^ 53) (hu : -1074 ≤ u₀) (hq : q = m₀ * 2 ^ u₀)
    (hnear : |(n : Rat) / d - q| * (2 * 10 ^ 16) ≤ q) : roundMagnitude n d = q := by
  obtain ⟨hlo, hhi⟩ := floorLog2_spec hn hd
  obtain ⟨m, hmdef, hround⟩ := roundMagnitude_eq (d := d) hn
  generalize hx : (n : Rat) / d = x at *
  have h2 : (2 : Rat) ≠ 0 := by norm_num
  have hpos : ∀ z : Int, (0 : Rat) < 2 ^ z := fun z => zpow_pos (by norm_num) z
  set u := placeExponent n d with hudef
  have huL : floorLog2 n d + 1 ≤ u + 53 := by
    rw [hudef, placeExponent]; omega
  have hxu : x < 2 ^ u * 2 ^ 53 := by
    calc x < 2 ^ (floorLog2 n d + 1) := hhi
      _ ≤ 2 ^ (u + 53) := zpow_le_zpow_right₀ (by norm_num) huL
      _ = 2 ^ u * 2 ^ 53 := by rw [zpow_add₀ h2]; norm_cast
  have hqu : q ≤ (2 ^ 53 - 1) * 2 ^ u₀ := by
    have : (m₀ : Rat) ≤ 2 ^ 53 - 1 := by
      have : m₀ + 1 ≤ 2 ^ 53 := hm
      have : (m₀ : Rat) + 1 ≤ 2 ^ 53 := by exact_mod_cast this
      linarith
    rw [hq]
    exact mul_le_mul_of_nonneg_right this (hpos _).le
  have habs := abs_nonneg (x - q)
  have hxq := le_abs_self (x - q)
  have hqx := neg_abs_le (x - q)
  have hle : u ≤ u₀ := by
    by_contra hgt
    have huL' : u = floorLog2 n d - 52 := by
      rw [hudef, placeExponent] at hgt ⊢; omega
    have hx' : 2 ^ u₀ * 2 ^ 53 ≤ x := by
      calc (2 : Rat) ^ u₀ * 2 ^ 53 = 2 ^ (u₀ + 53) := by rw [zpow_add₀ h2]; norm_cast
        _ ≤ 2 ^ floorLog2 n d := zpow_le_zpow_right₀ (by norm_num) (by omega)
        _ ≤ x := hlo
    have := hpos u₀
    nlinarith
  -- on the grid of the last place, `q` is an integer and `x` is nearer to it than one half
  obtain ⟨k, hk⟩ : ∃ k : Nat, q = k * 2 ^ u := by
    refine ⟨m₀ * 2 ^ (u₀ - u).toNat, ?_⟩
    rw [hq]
    push_cast
    rw [mul_assoc, ← zpow_natCast, ← zpow_add₀ h2]
    congr 2
    omega
  have hmk : m = k := by
    rw [hmdef]
    refine roundHalfEven_eq (by positivity) ?_
    rw [scaled_eq, hx, ← mul_lt_mul_iff_left₀ (hpos u), ← abs_of_pos (hpos u), ← abs_mul,
      abs_of_pos (hpos u), sub_mul, div_mul_cancel₀ _ (hpos u).ne', ← hk]
    have := hpos u
    linarith
  rw [hround, hmk, ← hk]

/-! ## Doubles -/

/-- A rational that is the value of a `float`. -/
def IsDouble (q : Rat) : Prop := ofRat q = .fin q

instance (q : Rat) : Decidable (IsDouble q) := inferInstanceAs (Decidable (_ = _))

theorem num_div_den_of_pos {q : Rat} (hq : 0 < q) : ((q.num.natAbs : Nat) : Rat) / q.den = q := by
  have hnum : (0 : Int) ≤ q.num := (Rat.num_pos.mpr hq).le
  have habs : ((q.num.natAbs : Nat) : Rat) = q.num := by
    rw [Nat.cast_natAbs, abs_of_nonneg hnum]
  rw [habs, Rat.num_div_den]

theorem ofRat_of_pos {x : Rat} (hx : 0 < x) :
    ofRat x = if (2 : Rat) ^ 1024 ≤ roundMagnitude x.num.natAbs x.den then .posInf
      else .fin (roundMagnitude x.num.natAbs x.den) := by
  have hnum : ¬ x.num < 0 := not_lt.mpr (Rat.num_pos.mpr hx).le
  unfold ofRat
  simp only [hnum, if_false]

theorem ofRat_neg {x : Rat} (hx : 0 < x) {q : Rat} (h : ofRat x = .fin q) :
    ofRat (-x) = .fin (-q) := by
  have hneg : (-x).num < 0 := by
    rw [Rat.neg_num]
    exact neg_neg_of_pos (Rat.num_pos.mpr hx)
  rw [ofRat_of_pos hx] at h
  split at h
  · cases h
  · rename_i hlt
    cases h
    unfold ofRat
    simp only [Rat.neg_num, Int.natAbs_neg, Rat.neg_den]
    rw [if_neg hlt, if_pos (by rwa [Rat.neg_num] at hneg)]

theorem IsDouble.neg_of_neg {q : Rat} (h : IsDouble q) (hq : q < 0) : IsDouble (-q) := by
  have hn : q.num < 0 := Rat.num_neg.mpr hq
  have hround : ofRat (-q) = if (2 : Rat) ^ 1024 ≤ roundMagnitude q.num.natAbs q.den then .posInf
      else .fin (roundMagnitude q.num.natAbs q.den) := by
    rw [ofRat_of_pos (neg_pos.mpr hq), Rat.neg_num, Int.natAbs_neg, Rat.neg_den]
  unfold IsDouble ofRat at h
  dsimp only at h
  rw [if_pos hn, if_pos hn] at h
  rw [IsDouble, hround]
  split at h
  · cases h
  · rename_i hlt
    rw [if_neg hlt, ← neg_eq_iff_eq_neg.mp (PyFloat.fin.inj h)]

theorem IsDouble.exists_significand {q : Rat} (h : IsDouble q) (hq : 0 < q) :
    q < 2 ^ 1024 ∧ ∃ (m : Nat) (u : Int), m < 2 ^ 53 ∧ -1074 ≤ u ∧ q = m * 2 ^ u := by
  have hn : 0 < q.num.natAbs := Int.natAbs_pos.mpr (Rat.num_pos.mpr hq).ne'
  rw [IsDouble, ofRat_of_pos hq] at h
  split at h
  · cases h
  rename_i hlt
  have hround : roundMagnitude q.num.natAbs q.den = q := by simpa using h
  rw [hround] at hlt
  obtain ⟨m, -, hm⟩ := roundMagnitude_eq (d := q.den) hn
  rw [hround] at hm
  refine ⟨not_le.mp hlt, m, placeExponent q.num.natAbs q.den, ?_, le_max_right _ _, hm⟩
  have hhi := (floorLog2_spec hn q.den_pos).2
  rw [num_div_den_of_pos hq] at hhi
  have hpos : (0 : Rat) < 2 ^ placeExponent q.num.natAbs q.den := zpow_pos (by norm_num) _
  have hlt' : (m : Rat) * 2 ^ placeExponent q.num.natAbs q.den <
      2 ^ 53 * 2 ^ placeExponent q.num.natAbs q.den := by
    rw [← hm]
    calc q < 2 ^ (floorLog2 q.num.natAbs q.den + 1) := hhi
      _ ≤ 2 ^ (53 + placeExponent q.num.natAbs q.den) :=
        zpow_le_zpow_right₀ (by norm_num) (by unfold placeExponent; omega)
      _ = 2 ^ 53 * 2 ^ placeExponent q.num.natAbs q.den := by
        rw [zpow_add₀ (by norm_num)]; norm_cast
  exact_mod_cast lt_of_mul_lt_mul_right hlt' hpos.le

theorem ofRat_near {q x : Rat} (h : IsDouble q) (hq : 0 < q) (hx : 0 < x)
    (hnear : |x - q| * (2 * 10 ^ 16) ≤ q) : ofRat x = .fin q := by
  obtain ⟨hlt, m, u, hm, hu, hval⟩ := h.exists_significand hq
  have hn : 0 < x.num.natAbs := Int.natAbs_pos.mpr (Rat.num_pos.mpr hx).ne'
  have hround : roundMagnitude x.num.natAbs x.den = q :=
    roundMagnitude_near hn x.den_pos hm hu hval (by rwa [num_div_den_of_pos hx])
  rw [ofRat_of_pos hx, hround, if_neg (not_le.mpr hlt)]

theorem isDouble_zero : IsDouble 0 := by decide +kernel

theorem isDouble_of_significand {m : Nat} {u : Int} {q : Rat} (hm : m < 2 ^ 53) (hu : -1074 ≤ u)
    (hq : q = m * 2 ^ u) (hlt : q < 2 ^ 1024) : IsDouble q := by
  rcases Nat.eq_zero_or_pos m with rfl | hpos
  · rw [hq, Nat.cast_zero, zero_mul]
    exact isDouble_zero
  · have hq0 : 0 < q := by
      rw [hq]
      positivity
    have hn : 0 < q.num.natAbs := Int.natAbs_pos.mpr (Rat.num_pos.mpr hq0).ne'
    have hround : roundMagnitude q.num.natAbs q.den = q :=
      roundMagnitude_near hn q.den_pos hm hu hq (by
        rw [num_div_den_of_pos hq0, sub_self, abs_zero, zero_mul]
        exact hq0.le)
    rw [IsDouble, ofRat_of_pos hq0, hround, if_neg (not_le.mpr hlt)]

theorem IsDouble.trunc {q : Rat} (h : IsDouble q) (hq : 0 ≤ q) :
    ∃ n : Nat, q.num.tdiv q.den = n ∧ (n : Rat) ≤ q ∧ q < n + 1 ∧ (n : Rat) < 2 ^ 1024 ∧
      IsDouble n ∧ IsDouble (q - n) := by
  have hfloor : q.num.tdiv q.den = ⌊q⌋ := by
    rw [Int.tdiv_eq_ediv_of_nonneg (Rat.num_nonneg.mpr hq)]
    exact (Rat.floor_intCast_div_natCast q.num q.den).symm.trans (by rw [Rat.num_div_den])
  obtain ⟨n, hn⟩ := Int.eq_ofNat_of_zero_le (Int.floor_nonneg.mpr hq)
  have hle : (n : Rat) ≤ q := by
    have := Int.floor_le q
    rw [hn] at this
    exact_mod_cast this
  have hlt : q < n + 1 := by
    have := Int.lt_floor_add_one q
    rw [hn] at this
    exact_mod_cast this
  rcases hq.eq_or_lt with rfl | hpos
  · obtain rfl : n = 0 := by
      have : (n : Rat) ≤ (0 : Nat) := by exact_mod_cast hle
      exact Nat.le_zero.mp (by exact_mod_cast this)
    exact ⟨0, by rw [hfloor, hn], hle, hlt, by norm_num, isDouble_zero, by simpa using isDouble_zero⟩
  obtain ⟨hmax, m, u, hm, hu, hval⟩ := h.exists_significand hpos
  have hnmax : (n : Rat) < 2 ^ 1024 := hle.trans_lt hmax
  refine ⟨n, by rw [hfloor, hn], hle, hlt, hnmax, ?_⟩
  have h2 : (2 : Rat) ≠ 0 := by norm_num
  rcases le_or_gt 0 u with hu0 | hu0
  · -- on a grid of integers there is no fraction
    obtain ⟨k, rfl⟩ := Int.eq_ofNat_of_zero_le hu0
    have hint : q = ((m * 2 ^ k : Nat) : Rat) := by
      rw [hval, zpow_natCast]
      push_cast
      rfl
    have hqn : q = n := by
      rw [hint] at hle hlt ⊢
      have h1 : n ≤ m * 2 ^ k := by exact_mod_cast hle
      have h2 : m * 2 ^ k < n + 1 := by exact_mod_cast hlt
      exact_mod_cast (by omega : m * 2 ^ k = n)
    rw [← hqn, sub_self]
    exact ⟨h, isDouble_zero⟩
  · obtain ⟨k, hk⟩ : ∃ k : Nat, u = -(k : Int) := ⟨u.natAbs, by omega⟩
    have hscale : q * 2 ^ k = m := by
      rw [hval, hk, zpow_neg, zpow_natCast, mul_assoc, inv_mul_cancel₀ (by positivity), mul_one]
    have hone : (1 : Rat) ≤ 2 ^ k := one_le_pow₀ (by norm_num)
    have hnm : n * 2 ^ k ≤ m := by
      have : (n : Rat) * 2 ^ k ≤ m := by
        rw [← hscale]
        exact mul_le_mul_of_nonneg_right hle (by positivity)
      exact_mod_cast this
    have hn53 : n < 2 ^ 53 := by
      have : n * 1 ≤ n * 2 ^ k := Nat.mul_le_mul_left n Nat.one_le_two_pow
      omega
    refine ⟨isDouble_of_significand (m := n) (u := 0) hn53 (by omega) (by simp) hnmax, ?_⟩
    refine isDouble_of_significand (m := m - n * 2 ^ k) (u := u) (by omega) hu ?_ ?_
    · rw [Nat.cast_sub hnm]
      push_cast
      rw [← hscale, sub_mul, hk, zpow_neg, zpow_natCast, mul_assoc, mul_assoc,
        mul_inv_cancel₀ (by positivity), mul_one, mul_one]
    · have : (0 : Rat) ≤ n := Nat.cast_nonneg n
      exact (sub_le_self q this).trans_lt hmax

theorem IsDouble.neg_of_nonneg {q : Rat} (h : IsDouble q) (hq : 0 ≤ q) : IsDouble (-q) := by
  rcases hq.eq_or_lt with rfl | hpos
  · simpa using isDouble_zero
  · exact ofRat_neg hpos h

/-! ## Seventeen digits -/

theorem decimalLength_spec {n : Nat} (hn : 0 < n) :
    (10 : Rat) ^ ((decimalLength n : Int) - 1) ≤ n ∧ (n : Rat) < 10 ^ (decimalLength n : Int) := by
  have hpos : 0 < decimalLength n := List.length_pos_iff.mpr (Str.ofNat_ne_nil n)
  have hlo : 10 ^ (decimalLength n - 1) ≤ n := Str.pow_length_ofNat_le hn
  have hhi : n < 10 ^ decimalLength n := Str.lt_pow_length_ofNat n
  constructor
  · have he : ((decimalLength n : Int) - 1) = ((decimalLength n - 1 : Nat) : Int) := by omega
    rw [he, zpow_natCast]
    exact_mod_cast hlo
  · rw [zpow_natCast]
    exact_mod_cast hhi

theorem decimalPoint_spec {q : Rat} (hq : 0 < q) :
    (10 : Rat) ^ (decimalPoint q - 1) ≤ q ∧ q < 10 ^ decimalPoint q := by
  have hn : 0 < q.num.natAbs := Int.natAbs_pos.mpr (Rat.num_pos.mpr hq).ne'
  obtain ⟨hn1, hn2⟩ := decimalLength_spec hn
  obtain ⟨hd1, hd2⟩ := decimalLength_spec q.den_pos
  have h10 : (10 : Rat) ≠ 0 := by norm_num
  have hpos : ∀ z : Int, (0 : Rat) < 10 ^ z := fun z => zpow_pos (by norm_num) z
  have hd' : (0 : Rat) < q.den := by exact_mod_cast q.den_pos
  have hval := num_div_den_of_pos hq
  generalize hD : (q.den : Rat) = D at *
  generalize hN : (q.num.natAbs : Rat) = N at *
  generalize hE : (decimalLength q.num.natAbs : Int) - (decimalLength q.den : Int) = e
  have hupper : q < 10 ^ (e + 1) := by
    rw [← hval, div_lt_iff₀ hd']
    calc N < 10 ^ (decimalLength q.num.natAbs : Int) := hn2
      _ = 10 ^ (e + 1) * 10 ^ ((decimalLength q.den : Int) - 1) := by
        rw [← zpow_add₀ h10]; congr 1; omega
      _ ≤ 10 ^ (e + 1) * D := mul_le_mul_of_nonneg_left hd1 (hpos _).le
  have hlower : (10 : Rat) ^ (e - 1) ≤ q := by
    rw [← hval, le_div_iff₀ hd']
    calc (10 : Rat) ^ (e - 1) * D ≤ 10 ^ (e - 1) * 10 ^ (decimalLength q.den : Int) :=
          mul_le_mul_of_nonneg_left hd2.le (hpos _).le
      _ = 10 ^ ((decimalLength q.num.natAbs : Int) - 1) := by
        rw [← zpow_add₀ h10]; congr 1; omega
      _ ≤ N := hn1
  unfold decimalPoint
  simp only [hE]
  split
  · rename_i h
    rw [add_sub_cancel_right]
    exact ⟨h, hupper⟩
  · rename_i h
    exact ⟨hlower, not_le.mp h⟩

/-- What `candidate` returns reads back. -/
theorem readsBack_of_candidate {q : Rat} {p c : Nat} (h : candidate q p = some c) :
    ofRat (c * (10 : Rat) ^ (decimalPoint q - p)) = .fin q := by
  unfold candidate at h
  simp only at h
  have key : ∀ {c}, readsBack q c (decimalPoint q - p) = true →
      ofRat (c * (10 : Rat) ^ (decimalPoint q - p)) = .fin q := fun h => of_decide_eq_true h
  split at h
  · rename_i h1 h2
    split at h
    · cases h; exact key h1
    · split at h
      · cases h; exact key h2
      · split at h
        · cases h; exact key h1
        · cases h; exact key h2
  · rename_i h1 _
    cases h; exact key h1
  · rename_i _ h2
    cases h; exact key h2
  · cases h

theorem exists_candidate {q : Rat} (h : IsDouble q) (hq : 0 < q) : ∃ c, candidate q 17 = some c := by
  have hk := (decimalPoint_spec hq).1
  have h10 : (10 : Rat) ≠ 0 := by norm_num
  set e : Int := decimalPoint q - (17 : Nat) with he
  have hpos : (0 : Rat) < 10 ^ e := zpow_pos (by norm_num) e
  have hgap : (10 : Rat) ^ e * 10 ^ 16 ≤ q := by
    calc (10 : Rat) ^ e * 10 ^ 16 = 10 ^ (decimalPoint q - 1) := by
          rw [← zpow_natCast, ← zpow_add₀ h10]; congr 1; omega
      _ ≤ q := hk
  have hnonneg : 0 ≤ q / (10 : Rat) ^ e := (div_pos hq hpos).le
  have hfloor : (((q / (10 : Rat) ^ e).floor.toNat : Nat) : Rat) = ((q / (10 : Rat) ^ e).floor : Int) := by
    have : 0 ≤ (q / (10 : Rat) ^ e).floor := Rat.le_floor_iff.mpr (by exact_mod_cast hnonneg)
    exact_mod_cast Int.toNat_of_nonneg this
  have hlo : ((q / (10 : Rat) ^ e).floor.toNat : Rat) * 10 ^ e ≤ q := by
    rw [hfloor, ← le_div_iff₀ hpos]
    exact Rat.floor_le _
  have hhi : q < ((q / (10 : Rat) ^ e).floor.toNat + 1 : Rat) * 10 ^ e := by
    rw [hfloor, ← div_lt_iff₀ hpos]
    exact_mod_cast Rat.lt_floor_add_one _
  have hread : readsBack q ((q / (10 : Rat) ^ e).floor.toNat) e = true ∨
      readsBack q ((q / (10 : Rat) ^ e).floor.toNat + 1) e = true := by
    generalize (q / (10 : Rat) ^ e).floor.toNat = lo at *
    simp only [readsBack, decide_eq_true_eq]
    push_cast
    -- the nearer of the two is within half a step
    rcases le_total (2 * (q - lo * 10 ^ e)) (10 ^ e) with hnear | hnear
    · refine .inl (ofRat_near h hq ?_ ?_)
      · nlinarith
      · rw [abs_sub_comm, abs_of_nonneg (by linarith)]
        nlinarith
    · refine .inr (ofRat_near h hq ?_ ?_)
      · linarith
      · rw [abs_of_nonneg (by linarith)]
        nlinarith
  unfold candidate
  simp only [← he]
  split
  · split
    · exact ⟨_, rfl⟩
    · split
      · exact ⟨_, rfl⟩
      · split <;> exact ⟨_, rfl⟩
  · exact ⟨_, rfl⟩
  · exact ⟨_, rfl⟩
  · rename_i h1 h2
    rw [h1, h2] at hread
    simp at hread

/-- The search ends on the digits of a candidate. -/
theorem shortest_candidate {q : Rat} (h : IsDouble q) (hq : 0 < q) {n : Nat} (hn : 0 < n)
    (hn' : n ≤ 17) : ∃ c p : Nat, candidate q p = some c ∧
      shortest q n = ((Str.ofNat c).rdropWhile (· = 48),
        decimalPoint q + (Str.ofNat c).length - p) := by
  induction n with
  | zero => omega
  | succ n ih =>
    cases hc : candidate q (17 - n) with
    | some c =>
      refine ⟨c, 17 - n, hc, ?_⟩
      simp only [shortest, hc]
    | none =>
      have hn0 : 0 < n := by
        rcases Nat.eq_zero_or_pos n with rfl | hpos
        · obtain ⟨c, hc'⟩ := exists_candidate h hq
          rw [Nat.sub_zero, hc'] at hc
          cases hc
        · exact hpos
      simp only [shortest, hc]
      exact ih hn0 (by omega)

/-- The search ends on digits that read back. -/
theorem shortest_eq {q : Rat} (h : IsDouble q) (hq : 0 < q) {n : Nat} (hn : 0 < n) (hn' : n ≤ 17) :
    ∃ c p : Nat, ofRat (c * (10 : Rat) ^ (decimalPoint q - p)) = .fin q ∧
      shortest q n = ((Str.ofNat c).rdropWhile (· = 48),
        decimalPoint q + (Str.ofNat c).length - p) := by
  obtain ⟨c, p, hc, hshort⟩ := shortest_candidate h hq hn hn'
  exact ⟨c, p, readsBack_of_candidate hc, hshort⟩

/-! ## Integers -/

theorem candidate_le {q : Rat} {p c : Nat} (h : candidate q p = some c) :
    c ≤ (q / (10 : Rat) ^ (decimalPoint q - p)).floor.toNat + 1 := by
  unfold candidate at h
  simp only at h
  split at h
  · split at h
    · cases h; omega
    · split at h
      · cases h; omega
      · split at h <;> (cases h; omega)
  · cases h; omega
  · cases h; omega
  · cases h

/-- When the decimal below is the number itself, it is the candidate. -/
theorem candidate_eq_of_exact {q : Rat} {p c : Nat} (hq : IsDouble q)
    (hlo : ((q / (10 : Rat) ^ (decimalPoint q - p)).floor.toNat : Rat) * 10 ^ (decimalPoint q - p) = q)
    (h : candidate q p = some c) : (c : Rat) * 10 ^ (decimalPoint q - p) = q := by
  have hpos : (0 : Rat) < 10 ^ (decimalPoint q - p) := zpow_pos (by norm_num) _
  have hread : readsBack q ((q / (10 : Rat) ^ (decimalPoint q - p)).floor.toNat) (decimalPoint q - p) =
      true := by
    rw [readsBack, hlo]
    exact decide_eq_true hq
  unfold candidate at h
  simp only at h
  rw [hread] at h
  generalize (q / (10 : Rat) ^ (decimalPoint q - p)).floor.toNat = lo at *
  generalize decimalPoint q - p = e at *
  have hbelow : q - lo * (10 : Rat) ^ e < (lo + 1) * (10 : Rat) ^ e - q := by
    rw [hlo, sub_self, add_mul, hlo, one_mul, add_sub_cancel_left]
    exact hpos
  split at h
  · rw [if_pos hbelow] at h
    cases h
    exact hlo
  · cases h
    exact hlo
  · rename_i hfalse _
    cases hfalse
  · rename_i hfalse _
    cases hfalse

theorem isDouble_natCast {v : Nat} (hv : v < 2 ^ 53) : IsDouble v := by
  refine isDouble_of_significand (m := v) (u := 0) hv (by omega) (by rw [zpow_zero, mul_one]) ?_
  calc (v : Rat) < 2 ^ 53 := by exact_mod_cast hv
    _ ≤ 2 ^ 1024 := pow_le_pow_right₀ (by norm_num) (by omega)

theorem fin_eq_of_isDouble {x q : Rat} (hx : IsDouble x) (h : ofRat x = .fin q) : x = q := by
  rw [hx] at h
  exact PyFloat.fin.inj h

/-- A candidate for an integer below `2 ^ 53` is that integer. -/
theorem candidate_natCast {v p c : Nat} (hv0 : 0 < v) (hv : v < 2 ^ 53)
    (h : candidate (v : Rat) p = some c) : (c : Rat) * 10 ^ (decimalPoint (v : Rat) - p) = v := by
  have hq : (0 : Rat) < v := by exact_mod_cast hv0
  have h10 : (10 : Rat) ≠ 0 := by norm_num
  have hread := readsBack_of_candidate h
  have hle := candidate_le h
  obtain ⟨hlow, hhigh⟩ := decimalPoint_spec hq
  have hexact := candidate_eq_of_exact (c := c) (p := p) (isDouble_natCast hv)
  generalize hpt : decimalPoint (v : Rat) = pt at *
  rcases le_or_gt (pt - p) 0 with he | he
  · -- the grid is finer than the integers
    refine hexact ?_ h
    obtain ⟨j, hj⟩ := Int.eq_ofNat_of_zero_le (show 0 ≤ -(pt - (p : Int)) by omega)
    have hgrid : (10 : Rat) ^ (pt - (p : Int)) = ((10 ^ j : Nat) : Rat)⁻¹ := by
      rw [show pt - (p : Int) = -(j : Int) by omega, zpow_neg, zpow_natCast, Nat.cast_pow,
        Nat.cast_ofNat]
    have hfloor : ((v : Rat) / 10 ^ (pt - (p : Int))).floor.toNat = v * 10 ^ j := by
      rw [hgrid, div_inv_eq_mul, ← Nat.cast_mul, ← Int.cast_natCast, Rat.floor_intCast,
        Int.toNat_natCast]
    rw [hfloor, hgrid, Nat.cast_mul, mul_assoc, mul_inv_cancel₀, mul_one]
    exact_mod_cast (Nat.pow_pos (by omega) : 0 < 10 ^ j).ne'
  · -- the grid is made of even integers, which are doubles up to the next power of ten
    obtain ⟨j, hj⟩ : ∃ j : Nat, pt - (p : Int) = ((j + 1 : Nat) : Int) :=
      ⟨(pt - p).toNat - 1, by omega⟩
    have hpt16 : pt ≤ 16 := by
      have hlt : (10 : Rat) ^ (pt - 1) < 10 ^ (16 : Int) :=
        hlow.trans_lt (by
          calc (v : Rat) < 2 ^ 53 := by exact_mod_cast hv
            _ < 10 ^ (16 : Int) := by norm_num)
      have := (zpow_lt_zpow_iff_right₀ (by norm_num : (1 : Rat) < 10)).mp hlt
      omega
    have hcp : (c : Rat) ≤ 10 ^ p := by
      have hfloor : ((v : Rat) / 10 ^ (pt - (p : Int))).floor < ((10 ^ p : Nat) : Int) := by
        rw [Rat.floor_lt_iff]
        rw [div_lt_iff₀ (zpow_pos (by norm_num) _)]
        push_cast
        rw [← zpow_natCast, ← zpow_add₀ h10, show (p : Int) + (pt - p) = pt by omega]
        exact hhigh
      have hpow : 0 < 10 ^ p := Nat.pow_pos (by omega)
      have hc : c ≤ 10 ^ p := by omega
      exact_mod_cast hc
    have hgrid : (10 : Rat) ^ (pt - (p : Int)) = 10 ^ j * 10 := by
      rw [hj, zpow_natCast, pow_succ]
    have hmax : (c : Rat) * 10 ^ (pt - (p : Int)) ≤ 10 ^ (16 : Int) := by
      calc (c : Rat) * 10 ^ (pt - (p : Int)) ≤ 10 ^ p * 10 ^ (pt - (p : Int)) :=
            mul_le_mul_of_nonneg_right hcp (zpow_pos (by norm_num) _).le
        _ = 10 ^ pt := by rw [← zpow_natCast, ← zpow_add₀ h10]; congr 1; omega
        _ ≤ 10 ^ (16 : Int) := zpow_le_zpow_right₀ (by norm_num) hpt16
    rw [hgrid] at hmax
    have hm : c * (10 ^ j * 5) < 2 ^ 53 := by
      have hnat : (c * (10 ^ j * 10) : Nat) ≤ 10 ^ 16 := by exact_mod_cast hmax
      have : c * (10 ^ j * 10) = 2 * (c * (10 ^ j * 5)) := by ring
      omega
    refine fin_eq_of_isDouble (isDouble_of_significand (m := c * (10 ^ j * 5)) (u := 1) hm (by omega)
      ?_ ?_) hread
    · rw [hgrid]
      push_cast
      ring
    · rw [hgrid]
      calc (c : Rat) * (10 ^ j * 10) ≤ 10 ^ (16 : Int) := hmax
        _ = 10 ^ 16 := by norm_cast
        _ < 2 ^ 64 := by norm_num
        _ ≤ 2 ^ 1024 := pow_le_pow_right₀ (by norm_num) (by omega)

end Python.PyFloat
