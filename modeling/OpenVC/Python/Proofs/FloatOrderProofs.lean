import OpenVC.Python.Proofs.FloatReprProofs

/-!
# Rounding keeps the order

Of two rationals the greater rounds to the greater double, so a sum of floats grows with its terms and
a comparison of floats can be made before the rounding.
-/

namespace Python.PyFloat

variable {n d n' d' k : Nat}

/-! ## Integers -/

theorem roundHalfEven_le (hd : 0 < d) (h : n ≤ k * d) : roundHalfEven n d ≤ k := by
  have hdm := Nat.div_add_mod n d
  unfold roundHalfEven
  simp only
  generalize n / d = q at *
  generalize n % d = r at *
  have hq : d * q ≤ d * k := by
    rw [Nat.mul_comm d k]
    omega
  have hqk : q ≤ k := Nat.le_of_mul_le_mul_left hq hd
  rcases Nat.eq_or_lt_of_le hqk with rfl | hlt
  · have hr : r = 0 := by
      rw [Nat.mul_comm] at h
      omega
    rw [if_pos (by omega)]
  · split_ifs <;> omega

theorem le_roundHalfEven (hd : 0 < d) (h : k * d ≤ n) : k ≤ roundHalfEven n d := by
  have hk : k ≤ n / d := (Nat.le_div_iff_mul_le hd).mpr h
  unfold roundHalfEven
  simp only
  split_ifs <;> omega

theorem roundHalfEven_mono (hd : 0 < d) (hd' : 0 < d') (h : n * d' ≤ n' * d) :
    roundHalfEven n d ≤ roundHalfEven n' d' := by
  have hdm := Nat.div_add_mod n d
  have hdm' := Nat.div_add_mod n' d'
  have hr := Nat.mod_lt n hd
  have hr' := Nat.mod_lt n' hd'
  unfold roundHalfEven
  simp only
  generalize n / d = q at *
  generalize n % d = r at *
  generalize n' / d' = q' at *
  generalize n' % d' = r' at *
  subst hdm hdm'
  have hq : q ≤ q' := by
    by_contra hgt
    have h1 : d' * (q' + 1) ≤ d' * q := Nat.mul_le_mul_left d' (by omega)
    have h2 : (d' * q' + r') * d < d' * q * d := Nat.mul_lt_mul_of_pos_right (by rw [Nat.mul_succ] at h1; omega) hd
    have h3 : d' * q * d ≤ (d * q + r) * d' := by
      rw [Nat.add_mul]
      have : d' * q * d = d * q * d' := by ring
      omega
    omega
  rcases Nat.eq_or_lt_of_le hq with rfl | hlt
  · have hrr : r * d' ≤ r' * d := by
      have : (d * q + r) * d' = d * q * d' + r * d' := by ring
      have : (d' * q + r') * d = d * q * d' + r' * d := by ring
      omega
    -- more than half, or half, of a unit stays so
    have hmore : d ≤ 2 * r → d' ≤ 2 * r' := by
      intro hhalf
      have h1 : d * d' ≤ 2 * r * d' := Nat.mul_le_mul_right d' hhalf
      have h2 : 2 * r * d' ≤ 2 * r' * d := by
        rw [Nat.mul_assoc, Nat.mul_assoc]
        omega
      have h3 : d' * d ≤ 2 * r' * d := by
        rw [Nat.mul_comm d' d]
        omega
      exact Nat.le_of_mul_le_mul_right h3 hd
    have hmost : d < 2 * r → d' < 2 * r' := by
      intro hhalf
      have h1 : d * d' < 2 * r * d' := Nat.mul_lt_mul_of_pos_right hhalf hd'
      have h2 : 2 * r * d' ≤ 2 * r' * d := by
        rw [Nat.mul_assoc, Nat.mul_assoc]
        omega
      have h3 : d' * d < 2 * r' * d := by
        rw [Nat.mul_comm d' d]
        omega
      exact Nat.lt_of_mul_lt_mul_right h3
    split_ifs <;> omega
  · split_ifs <;> omega

/-! ## Magnitudes -/

theorem roundMagnitude_nonneg (n d : Nat) : 0 ≤ roundMagnitude n d := by
  rcases Nat.eq_zero_or_pos n with rfl | hn
  · rw [roundMagnitude, if_pos rfl]
  · obtain ⟨m, -, hm⟩ := roundMagnitude_eq (d := d) hn
    rw [hm]
    positivity

theorem two_zpow_split {u z : Int} (h : u ≤ z) :
    (2 : Rat) ^ z = (2 ^ (z - u).toNat : Nat) * 2 ^ u := by
  rw [Nat.cast_pow, Nat.cast_ofNat, ← zpow_natCast, ← zpow_add₀ (by norm_num)]
  congr 1
  omega

theorem roundMagnitude_le {z : Int} (hn : 0 < n) (hd : 0 < d) (hz : placeExponent n d ≤ z)
    (h : (n : Rat) / d ≤ 2 ^ z) : roundMagnitude n d ≤ 2 ^ z := by
  obtain ⟨m, hmdef, hm⟩ := roundMagnitude_eq (d := d) hn
  generalize hu : placeExponent n d = u at *
  have hpos : (0 : Rat) < 2 ^ u := zpow_pos (by norm_num) u
  have hsplit := two_zpow_split hz
  have hscaled : ((n * 2 ^ (-u).toNat : Nat) : Rat) / (d * 2 ^ u.toNat : Nat) ≤
      (2 ^ (z - u).toNat : Nat) := by
    rw [scaled_eq, div_le_iff₀ hpos, ← hsplit]
    exact h
  have hd' : (0 : Rat) < (d * 2 ^ u.toNat : Nat) := by positivity
  rw [div_le_iff₀ hd'] at hscaled
  have hle : m ≤ 2 ^ (z - u).toNat := by
    rw [hmdef]
    exact roundHalfEven_le (by positivity) (by exact_mod_cast hscaled)
  rw [hm, hsplit]
  exact mul_le_mul_of_nonneg_right (by exact_mod_cast hle) hpos.le

theorem le_roundMagnitude {z : Int} (hn : 0 < n) (hd : 0 < d) (hz : placeExponent n d ≤ z)
    (h : 2 ^ z ≤ (n : Rat) / d) : 2 ^ z ≤ roundMagnitude n d := by
  obtain ⟨m, hmdef, hm⟩ := roundMagnitude_eq (d := d) hn
  generalize hu : placeExponent n d = u at *
  have hpos : (0 : Rat) < 2 ^ u := zpow_pos (by norm_num) u
  have hsplit := two_zpow_split hz
  have hscaled : ((2 ^ (z - u).toNat : Nat) : Rat) ≤
      ((n * 2 ^ (-u).toNat : Nat) : Rat) / (d * 2 ^ u.toNat : Nat) := by
    rw [scaled_eq, le_div_iff₀ hpos, ← hsplit]
    exact h
  have hd' : (0 : Rat) < (d * 2 ^ u.toNat : Nat) := by positivity
  rw [le_div_iff₀ hd'] at hscaled
  have hle : 2 ^ (z - u).toNat ≤ m := by
    rw [hmdef]
    exact le_roundHalfEven (by positivity) (by exact_mod_cast hscaled)
  rw [hm, hsplit]
  exact mul_le_mul_of_nonneg_right (by exact_mod_cast hle) hpos.le

theorem roundMagnitude_mono (hd : 0 < d) (hd' : 0 < d') (h : (n : Rat) / d ≤ (n' : Rat) / d') :
    roundMagnitude n d ≤ roundMagnitude n' d' := by
  have hd0 : (0 : Rat) < d := by exact_mod_cast hd
  have hd0' : (0 : Rat) < d' := by exact_mod_cast hd'
  rcases Nat.eq_zero_or_pos n with rfl | hn
  · rw [roundMagnitude, if_pos rfl]
    exact roundMagnitude_nonneg _ _
  have hn0 : (0 : Rat) < n := by exact_mod_cast hn
  have hn' : 0 < n' := by
    rcases Nat.eq_zero_or_pos n' with rfl | hn'
    · rw [Nat.cast_zero, zero_div] at h
      exact absurd h (not_le.mpr (div_pos hn0 hd0))
    · exact hn'
  obtain ⟨hlo, hhi⟩ := floorLog2_spec hn hd
  obtain ⟨hlo', hhi'⟩ := floorLog2_spec hn' hd'
  have hlog : floorLog2 n d ≤ floorLog2 n' d' := by
    by_contra hgt
    have hpow : (2 : Rat) ^ (floorLog2 n' d' + 1) ≤ 2 ^ floorLog2 n d :=
      zpow_le_zpow_right₀ (by norm_num) (by omega)
    exact absurd h (not_le.mpr (hhi'.trans_le (hpow.trans hlo)))
  by_cases hplace : placeExponent n d = placeExponent n' d'
  · -- on one grid the integers round in order
    obtain ⟨m, hmdef, hm⟩ := roundMagnitude_eq (d := d) hn
    obtain ⟨m', hmdef', hm'⟩ := roundMagnitude_eq (d := d') hn'
    rw [hplace] at hm hmdef
    have hmm : m ≤ m' := by
      rw [hmdef, hmdef']
      refine roundHalfEven_mono (by positivity) (by positivity) ?_
      rw [div_le_div_iff₀ hd0 hd0'] at h
      have h' : n * d' ≤ n' * d := by exact_mod_cast h
      calc n * 2 ^ (-placeExponent n' d').toNat * (d' * 2 ^ (placeExponent n' d').toNat)
          = n * d' * (2 ^ (-placeExponent n' d').toNat * 2 ^ (placeExponent n' d').toNat) := by ring
        _ ≤ n' * d * (2 ^ (-placeExponent n' d').toNat * 2 ^ (placeExponent n' d').toNat) :=
          Nat.mul_le_mul_right _ h'
        _ = _ := by ring
    rw [hm, hm']
    exact mul_le_mul_of_nonneg_right (by exact_mod_cast hmm) (zpow_pos (by norm_num) _).le
  · -- on two grids the greater one starts a binade that separates the magnitudes
    have hsep : placeExponent n' d' = floorLog2 n' d' - 52 ∧ floorLog2 n d < floorLog2 n' d' := by
      unfold placeExponent at hplace ⊢
      omega
    have hle : (n : Rat) / d ≤ 2 ^ floorLog2 n' d' :=
      hhi.le.trans (zpow_le_zpow_right₀ (by norm_num) (by omega))
    have hz : placeExponent n d ≤ floorLog2 n' d' := by
      unfold placeExponent at hsep ⊢
      omega
    exact (roundMagnitude_le hn hd hz hle).trans (le_roundMagnitude hn' hd' (by omega) hlo')

/-! ## Doubles -/

theorem natAbs_div_den (x : Rat) : (x.num.natAbs : Rat) / x.den = |x| := by
  rw [Nat.cast_natAbs]
  have h : (x.num : Rat) / x.den = x := Rat.num_div_den x
  have hd : (0 : Rat) < x.den := by exact_mod_cast x.den_pos
  rw [Int.cast_abs]
  calc |(x.num : Rat)| / x.den = |(x.num : Rat)| / |(x.den : Rat)| := by rw [abs_of_pos hd]
    _ = |(x.num : Rat) / x.den| := (abs_div _ _).symm
    _ = |x| := by rw [h]

theorem not_lt_ofRat {x y : Rat} (h : x ≤ y) : lt (ofRat y) (ofRat x) = false := by
  have hnum : ∀ z : Rat, z.num < 0 ↔ z < 0 := fun z => Rat.num_neg
  have hx0 := roundMagnitude_nonneg x.num.natAbs x.den
  have hy0 := roundMagnitude_nonneg y.num.natAbs y.den
  unfold ofRat
  simp only [hnum]
  rcases lt_or_ge x 0 with hx | hx
  · rcases lt_or_ge y 0 with hy | hy
    · have habs : |y| ≤ |x| := by
        rw [abs_of_neg hx, abs_of_neg hy]
        linarith
      have hround : roundMagnitude y.num.natAbs y.den ≤ roundMagnitude x.num.natAbs x.den := by
        refine roundMagnitude_mono y.den_pos x.den_pos ?_
        rw [natAbs_div_den, natAbs_div_den]
        exact habs
      rw [if_pos hx, if_pos hy, if_pos hx, if_pos hy]
      split_ifs with hbig hbig'
      · rfl
      · exact absurd (hbig.trans hround) hbig'
      · rfl
      · simp only [lt, decide_eq_false_iff_not, not_lt]
        linarith
    · rw [if_pos hx, if_neg (not_lt.mpr hy), if_pos hx, if_neg (not_lt.mpr hy)]
      split_ifs
      · rfl
      · rfl
      · rfl
      · simp only [lt, decide_eq_false_iff_not, not_lt]
        linarith
  · have hy : 0 ≤ y := hx.trans h
    have hround : roundMagnitude x.num.natAbs x.den ≤ roundMagnitude y.num.natAbs y.den := by
      refine roundMagnitude_mono x.den_pos y.den_pos ?_
      rw [natAbs_div_den, natAbs_div_den, abs_of_nonneg hx, abs_of_nonneg hy]
      exact h
    rw [if_neg (not_lt.mpr hx), if_neg (not_lt.mpr hy), if_neg (not_lt.mpr hx),
      if_neg (not_lt.mpr hy)]
    split_ifs with hbig hbig'
    · rfl
    · rfl
    · exact absurd (le_trans ‹_› hround) hbig
    · simp only [lt, decide_eq_false_iff_not, not_lt]
      exact hround

theorem lt_of_lt_of_le {x y z : PyFloat} (h : lt x y = true) (h' : le y z = true) : lt x z = true := by
  cases x <;> cases y <;> cases z <;> simp [le, lt, eq] at h h' ⊢
  rcases h' with h' | rfl
  · exact h.trans h'
  · exact h

end Python.PyFloat
