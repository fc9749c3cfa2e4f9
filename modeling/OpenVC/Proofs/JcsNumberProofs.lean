import Mathlib.Tactic.FieldSimp
import OpenVC.Jcs
import OpenVC.Python.Decimal
import OpenVC.Python.Proofs.JsonNumberProofs

/-!
# The ECMAScript layout of a number

The digits that `_reformat_ecmascript` takes from a decimal are the shortest ones of its value, and it
lays them out as ECMA-262 prescribes. What it writes is a decimal of the same value again.
-/

namespace OpenVC.Jcs

open Python

/-! ## The digits of a decimal -/

/-- A digit string is leading zeros, the shortest digits of its value and trailing zeros. -/
theorem exists_core {s : Str} (hs : ∀ c ∈ s, Str.isDigit c = true) (hne : Str.toNat s ≠ 0) :
    ∃ m z t : Nat, s = List.replicate z 48 ++ Str.ofNat m ++ List.replicate t 48 ∧ ¬ 10 ∣ m ∧
      (s.takeWhile (· = 48)).length = z ∧
      (s.dropWhile (· = 48)).rdropWhile (· = 48) = Str.ofNat m := by
  set rest := s.dropWhile (· = 48) with hrest
  set core := rest.rdropWhile (· = 48) with hcore
  set zs := s.takeWhile (· = 48) with hzs
  set ts := rest.rtakeWhile (· = 48) with hts
  have hz : zs = List.replicate zs.length 48 :=
    List.eq_replicate_of_mem fun x hx => by simpa using List.mem_takeWhile_imp hx
  have ht : ts = List.replicate ts.length 48 :=
    List.eq_replicate_of_mem fun x hx => by simpa using List.mem_rtakeWhile_imp hx
  have hsplit : s = zs ++ (core ++ ts) := by
    rw [hcore, hts, List.rdropWhile_append_rtakeWhile, hzs, hrest, List.takeWhile_append_dropWhile]
  have hdig : ∀ c ∈ core, Str.isDigit c = true := fun c hc =>
    hs c (hsplit ▸ List.mem_append_right _ (List.mem_append_left _ hc))
  have hvalue : Str.toNat s = Str.toNat core * 10 ^ ts.length := by
    rw [hsplit, Str.toNat_append, hz, Str.toNat_replicate_zero, Str.toNat_append, ht,
      Str.toNat_replicate_zero, List.length_replicate]
    ring
  have hpos : Str.toNat core ≠ 0 := fun e => hne (by rw [hvalue, e, Nat.zero_mul])
  cases hcons : core with
  | nil => exact absurd (by rw [hcons]; rfl) hpos
  | cons c t =>
    -- the first digit of `core` is the first one of `rest`
    have hc : c ≠ 48 := by
      have hhead : rest ≠ [] := by
        intro e
        rw [hcore, e] at hcons
        cases hcons
      have hlead : rest.head hhead ≠ 48 := by
        simpa using List.head_dropWhile_not (p := (· = 48)) (l := s) hhead
      have hfirst : rest.head hhead = c := by
        have : rest = (c :: t) ++ ts := by rw [← hcons, hcore, hts, List.rdropWhile_append_rtakeWhile]
        simp [this]
      exact hfirst ▸ hlead
    have hnum : Str.ofNat (Str.toNat core) = core := by
      rw [hcons]
      exact Str.ofNat_toNat (hcons ▸ hdig) hc
    refine ⟨Str.toNat core, zs.length, ts.length, ?_, ?_, rfl, by rw [hnum, hcons]⟩
    · rw [hnum, ← hz, ← ht, List.append_assoc]
      exact hsplit
    · rintro ⟨m, hm⟩
      have hm0 : 0 < m := by omega
      have hlast : core = Str.ofNat m ++ [48] := by
        rw [← hnum, hm, Nat.mul_comm]
        simpa using Str.ofNat_mul_pow hm0 1
      have hend : ∀ h : core ≠ [], core.getLast h ≠ 48 := fun h => by
        simpa using List.rdropWhile_last_not (p := (· = 48)) rest h
      refine hend (by rw [hcons]; simp) ?_
      simp [hlast]

/-- `int(exp_s) if exp_s else 0`. -/
theorem parseExponent_expText (d : Decimal) :
    (if d.expText.isEmpty = true then 0 else parseExponent d.expText) = d.exponent := by
  unfold Decimal.expText Decimal.exponent
  cases d.exp with
  | none => rfl
  | some p =>
    obtain ⟨neg, digits⟩ := p
    cases neg <;> rfl

theorem value_eq_of_text_eq {d d' : Decimal} (h : d.text = d'.text) : d.value = d'.value := by
  have hneg : d.neg = d'.neg := by rw [← d.startsWith_text, h, d'.startsWith_text]
  have hbody : d.body = d'.body := by rw [← d.unsigned_text, ← d'.unsigned_text, hneg, h]
  have hparts := d.partition_body
  rw [hbody, d'.partition_body] at hparts
  simp only [Prod.mk.injEq] at hparts
  obtain ⟨hmant, -, hexp⟩ := hparts
  have hdigits := d.partition_mantissa
  rw [← hmant, d'.partition_mantissa] at hdigits
  simp only [Prod.mk.injEq] at hdigits
  obtain ⟨hint, -, hfrac⟩ := hdigits
  have hexponent : d.exponent = d'.exponent := by
    rw [← parseExponent_expText, ← parseExponent_expText, hexp]
  unfold Decimal.value Decimal.magnitude Decimal.coefficient
  rw [hneg, hint, hfrac, hexponent]

/-! ## Laying out -/

theorem assembleEcmascript_eq (s : Nat) {k : Nat} (n : Int) :
    assembleEcmascript (Str.ofNat s) k n = Ecma.layout s k n := by
  unfold assembleEcmascript Ecma.layout
  dsimp only
  by_cases hplain : Ecma.Positional n
  · rw [if_pos hplain]
    by_cases hint : k ≤ n
    · rw [if_pos ⟨hint, hplain.2⟩, if_pos hint]
    · rw [if_neg (fun h => hint h.1), if_neg hint]
      by_cases hpos : 0 < n
      · rw [if_pos ⟨hpos, hplain.2⟩, if_pos hpos]
      · rw [if_neg (fun h => hpos h.1), if_neg hpos, if_pos ⟨hplain.1, by omega⟩]
  · have hfar : n ≤ -6 ∨ 21 < n := by
      unfold Ecma.Positional at hplain
      omega
    have hsign : (if 0 ≤ n - 1 then 43 else 45) = if n < 0 then 45 else (43 : Nat) := by
      rcases hfar with h | h
      · rw [if_neg (by omega), if_pos (by omega)]
      · rw [if_pos (by omega), if_neg (by omega)]
    rw [if_neg (by omega), if_neg (by omega), if_neg (by omega), if_neg hplain, hsign]
    by_cases hone : k = 1
    · rw [if_pos (by exact_mod_cast hone), if_pos hone]
      simp
    · rw [if_neg (by exact_mod_cast hone), if_neg hone]
      simp

/-- The digits of a decimal, and where its point stands, are the shortest ones of its value. -/
theorem reformatEcmascript_text (d : Decimal) (hd : d.value ≠ 0) :
    ∃ s k n, Significand.Shortest 10 |d.value| s k n ∧ k = (Str.ofNat s).length ∧
      reformatEcmascript d.text = Ecma.numberToString d.value s k n := by
  have hcoef : d.coefficient ≠ 0 := by
    intro h
    refine hd (abs_eq_zero.mp ?_)
    rw [Decimal.abs_value, Decimal.magnitude, h, Nat.cast_zero, zero_mul]
  have hdigits : ∀ c ∈ d.int.text ++ d.fracText, Str.isDigit c = true := by
    intro c hc
    rcases List.mem_append.mp hc with hc | hc
    · exact d.int.digits c hc
    · unfold Decimal.fracText at hc
      cases hfrac : d.frac with
      | none =>
        rw [hfrac] at hc
        cases hc
      | some f =>
        rw [hfrac] at hc
        exact f.digits c hc
  obtain ⟨m, z, t, hsplit, hm, hz, hcore⟩ := exists_core hdigits hcoef
  have hm0 : 0 < m := Nat.pos_of_ne_zero fun e => hm (e ▸ dvd_zero 10)
  have hcoefm : d.coefficient = m * 10 ^ t := by
    rw [Decimal.coefficient, hsplit, Str.toNat_append, Str.toNat_append, Str.toNat_replicate_zero,
      Str.toNat_replicate_zero, Str.toNat_ofNat, List.length_replicate]
    ring
  have hlen : d.int.text.length + d.fracText.length = z + (Str.ofNat m).length + t := by
    have := congrArg List.length hsplit
    simpa [Nat.add_assoc] using this
  set k := (Str.ofNat m).length with hk
  have hk0 : 0 < k := List.length_pos_iff.mpr (Str.ofNat_ne_nil m)
  set n : Int := (d.int.text.length : Int) + d.exponent - z with hn
  have hspells : Significand.Spells 10 |d.value| m k n := by
    refine ⟨hk0, Str.pow_length_ofNat_le hm0, Str.lt_pow_length_ofNat m, ?_⟩
    have hexp : n - k = (t : Int) + (d.exponent - d.fracText.length) := by omega
    rw [Decimal.abs_value, Decimal.magnitude, hcoefm, hexp, Nat.cast_ofNat,
      zpow_add₀ (by norm_num), zpow_natCast, ← mul_assoc]
    push_cast
    rfl
  refine ⟨m, k, n, hspells.shortest (by omega) hm, rfl, ?_⟩
  have hne : (Str.ofNat m).isEmpty = false := by
    rw [List.isEmpty_eq_false_iff]
    exact Str.ofNat_ne_nil m
  unfold reformatEcmascript
  simp only [d.startsWith_text, d.unsigned_text, d.partition_body, d.partition_mantissa, hcore, hz,
    parseExponent_expText, hne, Bool.false_eq_true, if_false]
  rw [← hk, ← hn, assembleEcmascript_eq, Ecma.numberToString]
  by_cases hneg : d.neg = true
  · rw [if_pos hneg, if_pos ((d.neg_iff hd).mp hneg)]
  · rw [if_neg hneg, if_neg fun h => hneg ((d.neg_iff hd).mpr h)]

/-! ## Reading a layout -/

theorem magnitude_eq {d : Decimal} {s : Nat} {z : Int} (hcoef : d.coefficient = s)
    (hexp : d.exponent - d.fracText.length = z) : d.magnitude = s * 10 ^ z := by
  rw [Decimal.magnitude, hcoef, hexp]

/-- The exponent that the scientific layout writes. -/
def sciExponent (n : Int) : Bool × Digits := (decide (n < 0), Digits.ofNat (n - 1).natAbs)

/-- The scientific layout reads its own exponent. -/
theorem exponent_sci {d : Decimal} {n : Int} (hd : d.exp = some (sciExponent n))
    (hn : ¬ Ecma.Positional n) :
    d.exponent = n - 1 ∧ d.expText = (if n < 0 then 45 else 43) :: Str.ofNat (n - 1).natAbs := by
  unfold Ecma.Positional at hn
  unfold Decimal.exponent Decimal.expText
  simp only [hd, Option.elim_some, sciExponent, Digits.ofNat, decide_eq_true_eq, Str.toNat_ofNat]
  refine ⟨?_, trivial⟩
  split <;> omega

/-- A layout is a decimal text, of either sign. -/
theorem exists_decimal_layout (neg : Bool) {s k : Nat} (n : Int) (hk : k = (Str.ofNat s).length) :
    ∃ d : Decimal, d.neg = neg ∧ d.body = Ecma.layout s k n ∧
      d.magnitude = s * 10 ^ (n - k) ∧
      d.expText = if Ecma.Positional n then []
        else (if n < 0 then 45 else 43) :: Str.ofNat (n - 1).natAbs := by
  have hk0 : 0 < k := hk ▸ List.length_pos_iff.mpr (Str.ofNat_ne_nil s)
  have hdig : ∀ c ∈ Str.ofNat s, Str.isDigit c = true := fun c hc => Str.isDigit_of_mem_ofNat hc
  have hzero : ∀ {j c : Nat}, c ∈ List.replicate j 48 → Str.isDigit c = true :=
    JsonDumps.isDigit_replicate
  unfold Ecma.layout
  dsimp only
  by_cases hplain : Ecma.Positional n
  · rw [if_pos hplain, if_pos hplain]
    by_cases hint : k ≤ n
    · -- an integer, with zeros up to the point
      rw [if_pos hint]
      have htoNat : ((n - k).toNat : Int) = n - k := Int.toNat_of_nonneg (by omega)
      refine ⟨⟨neg, ⟨Str.ofNat s ++ List.replicate (n - k).toNat 48, by simp [Str.ofNat_ne_nil], ?_⟩,
        none, none⟩, rfl, ?_, ?_, rfl⟩
      · intro c hc
        rcases List.mem_append.mp hc with hc | hc
        · exact hdig c hc
        · exact hzero hc
      · simp [Decimal.body, Decimal.mantissa]
      · have hcoef : Str.toNat (Str.ofNat s ++ List.replicate (n - k).toNat 48 ++ []) =
            s * 10 ^ (n - k).toNat := by
          rw [List.append_nil, Str.toNat_append, Str.toNat_replicate_zero, Str.toNat_ofNat,
            List.length_replicate, Nat.add_zero, Nat.mul_comm]
        refine (magnitude_eq (s := s * 10 ^ (n - k).toNat) (z := 0) ?_ rfl).trans ?_
        · exact hcoef
        rw [zpow_zero, mul_one, Nat.cast_mul, Nat.cast_pow, ← zpow_natCast, htoNat, Nat.cast_ofNat]
    · rw [if_neg hint]
      by_cases hpos : 0 < n
      · -- the point is among the digits
        rw [if_pos hpos]
        have hlt : n.toNat < (Str.ofNat s).length := by omega
        have hlen : ((Str.ofNat s).drop n.toNat).length ≠ 0 := by
          rw [List.length_drop]
          omega
        refine ⟨⟨neg, ⟨(Str.ofNat s).take n.toNat, ?_, fun c hc => hdig c (List.mem_of_mem_take hc)⟩,
          some ⟨(Str.ofNat s).drop n.toNat, ?_, fun c hc => hdig c (List.mem_of_mem_drop hc)⟩, none⟩,
          rfl, ?_, ?_, rfl⟩
        · simp [Str.ofNat_ne_nil]
          omega
        · exact fun e => hlen (by rw [e]; rfl)
        · simp [Decimal.body, Decimal.mantissa]
        · refine magnitude_eq ?_ ?_
          · simp [Decimal.coefficient, Decimal.fracText]
          · simp only [Decimal.exponent, Decimal.fracText, Option.elim_none, Option.elim_some,
              List.length_drop]
            omega
      · -- zeros between the point and the digits
        rw [if_neg hpos]
        refine ⟨⟨neg, ⟨[48], by simp, by decide⟩,
          some ⟨List.replicate (-n).toNat 48 ++ Str.ofNat s, by simp [Str.ofNat_ne_nil], ?_⟩, none⟩,
          rfl, ?_, ?_, rfl⟩
        · intro c hc
          rcases List.mem_append.mp hc with hc | hc
          · exact hzero hc
          · exact hdig c hc
        · simp [Decimal.body, Decimal.mantissa]
        · refine magnitude_eq ?_ ?_
          · simp [Decimal.coefficient, Decimal.fracText, Str.toNat_append]
          · simp only [Decimal.exponent, Decimal.fracText, Option.elim_none, Option.elim_some,
              List.length_append, List.length_replicate]
            omega
  · rw [if_neg hplain, if_neg hplain]
    by_cases hone : k = 1
    · -- one digit and an exponent
      rw [if_pos hone]
      obtain ⟨hexp, htext⟩ :=
        exponent_sci (d := ⟨neg, Digits.ofNat s, none, some (sciExponent n)⟩) rfl hplain
      refine ⟨_, rfl, ?_, magnitude_eq ?_ ?_, htext⟩
      · rw [Decimal.body, htext]
        simp [Decimal.mantissa, Digits.ofNat]
      · simp [Decimal.coefficient, Decimal.fracText, Digits.ofNat]
      · rw [hexp, Decimal.fracText, Option.elim_none, List.length_nil, hone]
        omega
    · -- one digit before the point, and an exponent
      rw [if_neg hone]
      have hlen : ((Str.ofNat s).drop 1).length ≠ 0 := by
        rw [List.length_drop]
        omega
      obtain ⟨hexp, htext⟩ := exponent_sci (d := ⟨neg,
        ⟨(Str.ofNat s).take 1, by simp [Str.ofNat_ne_nil], fun c hc => hdig c (List.mem_of_mem_take hc)⟩,
        some ⟨(Str.ofNat s).drop 1, fun e => hlen (by rw [e]; rfl),
          fun c hc => hdig c (List.mem_of_mem_drop hc)⟩, some (sciExponent n)⟩) rfl hplain
      refine ⟨_, rfl, ?_, magnitude_eq ?_ ?_, htext⟩
      · rw [Decimal.body, htext]
        simp [Decimal.mantissa]
      · rw [Decimal.coefficient, Decimal.fracText, Option.elim_some, List.take_append_drop,
          Str.toNat_ofNat]
      · rw [hexp, Decimal.fracText, Option.elim_some, List.length_drop]
        omega

/-! ## The limit of the interpreter -/

theorem exponentText_text (d : Decimal) : exponentText d.text = d.expText := by
  have hsign : 101 ∉ (if d.neg then [45] else []) ++ d.mantissa := by
    rw [List.mem_append, not_or]
    refine ⟨?_, d.not_mem_mantissa⟩
    split <;> simp
  unfold exponentText Decimal.text Decimal.body
  rw [← List.append_assoc]
  cases hexp : d.exp with
  | none =>
    rw [Option.elim_none, List.append_nil, Str.partition_of_not_mem hsign, Decimal.expText, hexp,
      Option.elim_none]
  | some p => rw [Option.elim_some, Str.partition_append hsign]

theorem reformatLimited_eq_ok {r out : Str} :
    reformatLimited r = .ok out ↔ digitCount (exponentText r) ≤ JsonLoads.maxStrDigits ∧
      digitCount (exponentText out) ≤ JsonLoads.maxStrDigits ∧ reformatEcmascript r = out := by
  simp only [reformatLimited, bind_eq_ok, raiseIf_eq_ok, decide_eq_false_iff_not, not_lt]
  constructor
  · rintro ⟨-, hin, -, hout, h⟩
    cases h
    exact ⟨hin, hout, rfl⟩
  · rintro ⟨hin, hout, rfl⟩
    exact ⟨(), hin, (), hout, rfl⟩

theorem filter_isDigit_ofNat (n : Nat) : (Str.ofNat n).filter Str.isDigit = Str.ofNat n :=
  List.filter_eq_self.mpr fun _ hc => Str.isDigit_of_mem_ofNat hc

/-- What a layout counts against the limit. -/
theorem digitCount_layout (n : Int) :
    digitCount (if Ecma.Positional n then [] else
        (if n < 0 then 45 else 43) :: Str.ofNat (n - 1).natAbs) ≤ JsonLoads.maxStrDigits ↔
      Ecma.Positional n ∨ (Str.ofNat (n - 1).natAbs).length ≤ JsonLoads.maxStrDigits := by
  by_cases hplain : Ecma.Positional n
  · rw [if_pos hplain]
    simp [hplain, digitCount]
  · have hsign : Str.isDigit (if n < 0 then 45 else 43) = false := by split <;> rfl
    rw [if_neg hplain, digitCount, List.filter_cons_of_neg (by rw [hsign]; simp),
      filter_isDigit_ofNat]
    simp [hplain]

/-- What is written for a decimal is a decimal of the same value. -/
theorem exists_decimal_numberToString {q : Rat} {s k : Nat} {n : Int}
    (h : Significand.Shortest 10 |q| s k n) (hk : k = (Str.ofNat s).length) :
    ∃ d : Decimal, d.text = Ecma.numberToString q s k n ∧ d.value = q ∧
      d.expText = if Ecma.Positional n then []
        else (if n < 0 then 45 else 43) :: Str.ofNat (n - 1).natAbs := by
  obtain ⟨d, hneg, hbody, hmag, hexp⟩ := exists_decimal_layout (decide (q < 0)) n hk
  have habs : d.magnitude = |q| := by
    rw [hmag, h.value, Nat.cast_ofNat]
  refine ⟨d, ?_, ?_, hexp⟩
  · rw [Decimal.text, hneg, hbody, Ecma.numberToString]
    by_cases hq : q < 0 <;> simp [hq]
  · rw [Decimal.value, hneg, habs]
    by_cases hq : q < 0
    · simp [hq, abs_of_neg hq]
    · simp [hq, abs_of_nonneg (not_lt.mp hq)]

/-! ## Integers -/

/-- An integer is its shortest digits, and zeros up to the point. -/
theorem ofNat_of_shortest {v s k : Nat} {n : Int} (hv : 0 < v)
    (h : Significand.Shortest 10 (v : Rat) s k n) :
    n = (Str.ofNat v).length ∧ (k : Int) ≤ n ∧
      Str.ofNat v = Str.ofNat s ++ List.replicate (n - k).toNat 48 := by
  have hself : Significand.Spells 10 (v : Rat) v (Str.ofNat v).length (Str.ofNat v).length :=
    ⟨List.length_pos_iff.mpr (Str.ofNat_ne_nil v), Str.pow_length_ofNat_le hv,
      Str.lt_pow_length_ofNat v, by rw [sub_self, zpow_zero, mul_one]⟩
  have hn := h.toSpells.point_unique (by omega) hself
  have hk := h.least hself
  have hvalue := hself.eq_mul_pow (by omega) h.toSpells hk
  have hs : 0 < s := Nat.pos_of_ne_zero fun e => by
    rw [e, Nat.zero_mul] at hvalue
    omega
  have hz : (n - k).toNat = (Str.ofNat v).length - k := by omega
  refine ⟨hn, by omega, ?_⟩
  rw [hz, ← Str.ofNat_mul_pow hs, ← hvalue]

/-- `repr` of an integer starts from its shortest digits. -/
theorem shortest_natCast {v : Nat} (hv0 : 0 < v) (hv : v < 2 ^ 53) :
    ∃ s n, PyFloat.shortest (v : Rat) 17 = (Str.ofNat s, n) ∧
      Significand.Shortest 10 (v : Rat) s (Str.ofNat s).length n := by
  have hq : (0 : Rat) < v := by exact_mod_cast hv0
  obtain ⟨c, p, hc, hshort⟩ :=
    PyFloat.shortest_candidate (PyFloat.isDouble_natCast hv) hq (n := 17) (by omega) (by omega)
  have hvalue := PyFloat.candidate_natCast hv0 hv hc
  have hc0 : 0 < c := Nat.pos_of_ne_zero fun e => by
    rw [e, Nat.cast_zero, zero_mul] at hvalue
    exact absurd hq (hvalue ▸ lt_irrefl 0)
  have hdig : ∀ x ∈ Str.ofNat c, Str.isDigit x = true := fun x hx => Str.isDigit_of_mem_ofNat hx
  obtain ⟨m, z, t, hsplit, hm, hz, hcore⟩ := exists_core hdig (by rw [Str.toNat_ofNat]; omega)
  obtain ⟨x, r, hcons⟩ := List.exists_cons_of_ne_nil (Str.ofNat_ne_nil c)
  have hx : x ≠ 48 := Str.ofNat_cons_ne_zero hc0 hcons
  have hz0 : z = 0 := by
    rw [← hz, hcons, List.takeWhile_cons_of_neg (by simpa using hx)]
    rfl
  have hstrip : (Str.ofNat c).rdropWhile (· = 48) = Str.ofNat m := by
    rw [← hcore, hcons, List.dropWhile_cons_of_neg (by simpa using hx)]
  have hlen : (Str.ofNat c).length = (Str.ofNat m).length + t := by
    have := congrArg List.length hsplit
    simpa [hz0] using this
  have hm0 : 0 < m := Nat.pos_of_ne_zero fun e => hm (e ▸ dvd_zero 10)
  have hcm : c = m * 10 ^ t := by
    have := congrArg Str.toNat hsplit
    rw [hz0, Str.toNat_ofNat, List.replicate_zero, List.nil_append, ← Str.ofNat_mul_pow hm0,
      Str.toNat_ofNat] at this
    exact this
  refine ⟨m, _, by rw [hshort, hstrip], Significand.Spells.shortest (by omega) ?_ hm⟩
  refine ⟨List.length_pos_iff.mpr (Str.ofNat_ne_nil m), Str.pow_length_ofNat_le hm0,
    Str.lt_pow_length_ofNat m, ?_⟩
  have hexp : PyFloat.decimalPoint (v : Rat) + (Str.ofNat c).length - p - (Str.ofNat m).length =
      (t : Int) + (PyFloat.decimalPoint (v : Rat) - p) := by omega
  rw [hcm] at hvalue
  push_cast at hvalue
  rw [hexp, Nat.cast_ofNat, zpow_add₀ (by norm_num), zpow_natCast, ← mul_assoc]
  exact hvalue.symm

theorem length_ofNat_le {v : Nat} (hv : v < 2 ^ 53) : (Str.ofNat v).length ≤ 16 :=
  (Str.length_ofNat_le_iff (by omega)).mpr (by omega)

/-- `repr(float(v))` is `str(v)` and `.0`. -/
theorem repr_natCast {v : Nat} (hv0 : 0 < v) (hv : v < 2 ^ 53) :
    PyFloat.layout (PyFloat.shortest (v : Rat) 17).1 (PyFloat.shortest (v : Rat) 17).2 =
      Str.ofNat v ++ lit ".0" := by
  obtain ⟨s, n, hshort, hs⟩ := shortest_natCast hv0 hv
  obtain ⟨hn, hk, hdigits⟩ := ofNat_of_shortest hv0 hs
  have hlen := length_ofNat_le hv
  have hpos : 0 < (Str.ofNat v).length := List.length_pos_iff.mpr (Str.ofNat_ne_nil v)
  have hz : n.toNat - (Str.ofNat s).length = (n - (Str.ofNat s).length).toNat := by omega
  rw [hshort]
  unfold PyFloat.layout
  dsimp only
  rw [if_neg (by omega), if_neg (by omega), if_pos (by omega), hz, ← hdigits]

theorem ofInt_neg {n : Nat} (hn : 0 < n) : Str.ofInt (-(n : Int)) = 45 :: Str.ofNat n := by
  obtain ⟨m, rfl⟩ : ∃ m, n = m + 1 := ⟨n - 1, by omega⟩
  rfl

theorem repr_intCast {v : Int} (h0 : v ≠ 0) (hlo : -(2 ^ 53) < v) (hhi : v < 2 ^ 53) :
    PyFloat.repr (v : Rat) = Str.ofInt v ++ lit ".0" := by
  unfold PyFloat.repr
  obtain ⟨n, rfl | rfl⟩ := v.eq_nat_or_neg
  · have hn : 0 < n := by omega
    have hnonneg : ¬ ((n : Int) : Rat) < 0 := by
      rw [Int.cast_natCast]
      exact not_lt.mpr (by exact_mod_cast Nat.zero_le n)
    simp only [hnonneg, if_false]
    rw [Int.cast_natCast, repr_natCast hn (by omega)]
    rfl
  · have hn : 0 < n := by omega
    have hneg : ((-(n : Int) : Int) : Rat) < 0 := by
      push_cast
      exact neg_lt_zero.mpr (by exact_mod_cast hn)
    have hmag : -((-(n : Int) : Int) : Rat) = (n : Rat) := by
      push_cast
      ring
    simp only [hneg, if_true]
    rw [hmag, repr_natCast hn (by omega), ofInt_neg hn, List.cons_append]

/-- The decimal `repr` writes for an integer. -/
def ofIntDecimal (v : Int) : Decimal :=
  ⟨decide (v < 0), Digits.ofNat v.natAbs, some ⟨[48], by simp, by decide⟩, none⟩

theorem text_ofIntDecimal (v : Int) : (ofIntDecimal v).text = Str.ofInt v ++ lit ".0" := by
  obtain ⟨n, rfl | rfl⟩ := v.eq_nat_or_neg
  · have hneg : ¬ (n : Int) < 0 := by omega
    simp [ofIntDecimal, Decimal.text, Decimal.body, Decimal.mantissa, Digits.ofNat, hneg]
    rfl
  · rcases Nat.eq_zero_or_pos n with rfl | hn
    · rfl
    · have hneg : -(n : Int) < 0 := by omega
      rw [ofInt_neg hn]
      simp [ofIntDecimal, Decimal.text, Decimal.body, Decimal.mantissa, Digits.ofNat, hn]
      rfl

theorem value_ofIntDecimal (v : Int) : (ofIntDecimal v).value = v := by
  have hmag : (ofIntDecimal v).magnitude = v.natAbs := by
    have hcoef : (ofIntDecimal v).coefficient = v.natAbs * 10 := by
      simp [ofIntDecimal, Decimal.coefficient, Decimal.fracText, Digits.ofNat, Str.toNat_append,
        Nat.mul_comm]
    refine (magnitude_eq (z := -1) hcoef rfl).trans ?_
    push_cast
    ring
  rw [Decimal.value, hmag]
  by_cases hneg : v < 0
  · simp [ofIntDecimal, hneg, abs_of_neg]
  · simp [ofIntDecimal, hneg, abs_of_nonneg (not_lt.mp hneg)]

/-- The two branches of `_number` agree on the integers below `2 ^ 53`. -/
theorem ecmascriptDouble_intCast {v : Int} (hlo : -(2 ^ 53) < v) (hhi : v < 2 ^ 53) :
    ecmascriptDouble (.fin v) = .ok (Str.ofInt v) := by
  rw [ecmascriptDouble]
  by_cases h0 : v = 0
  · rw [h0]
    rfl
  have hq : ((v : Int) : Rat) ≠ 0 := by exact_mod_cast h0
  rw [if_neg hq, repr_intCast h0 hlo hhi, ← text_ofIntDecimal]
  have hd : (ofIntDecimal v).value ≠ 0 := by rwa [value_ofIntDecimal]
  obtain ⟨s, k, n, hs, hk, hout⟩ := reformatEcmascript_text (ofIntDecimal v) hd
  rw [value_ofIntDecimal] at hs hout
  have habs : |(v : Rat)| = (v.natAbs : Rat) := by
    rw [Nat.cast_natAbs]
    push_cast
    rfl
  rw [habs] at hs
  have hlen := length_ofNat_le (v := v.natAbs) (by omega)
  have hpos : 0 < (Str.ofNat v.natAbs).length := List.length_pos_iff.mpr (Str.ofNat_ne_nil _)
  obtain ⟨hn, hkn, hdigits⟩ := ofNat_of_shortest (by omega) hs
  have hlayout : Ecma.layout s k n = Str.ofNat v.natAbs := by
    unfold Ecma.layout
    dsimp only
    rw [if_pos ⟨by omega, by omega⟩, if_pos hkn, ← hdigits]
  rw [hout, Ecma.numberToString, hlayout]
  obtain ⟨m, rfl | rfl⟩ := v.eq_nat_or_neg
  · have hnonneg : ¬ ((m : Int) : Rat) < 0 := by
      rw [Int.cast_natCast]
      exact not_lt.mpr (by exact_mod_cast Nat.zero_le m)
    rw [if_neg hnonneg]
    rfl
  · have hm : 0 < m := by omega
    have hneg : ((-(m : Int) : Int) : Rat) < 0 := by
      push_cast
      exact neg_lt_zero.mpr (by exact_mod_cast hm)
    rw [if_pos hneg, ofInt_neg hm, Int.natAbs_neg]
    rfl

/-- `float(v)` of an integer below `2 ^ 53`. -/
theorem ofInt_eq {v : Int} (hlo : -(2 ^ 53) < v) (hhi : v < 2 ^ 53) :
    PyFloat.ofInt v = some (.fin v) := by
  have hdouble : PyFloat.IsDouble (v : Rat) := by
    obtain ⟨n, rfl | rfl⟩ := v.eq_nat_or_neg
    · rw [Int.cast_natCast]
      exact PyFloat.isDouble_natCast (by omega)
    · have hn := PyFloat.isDouble_natCast (v := n) (by omega)
      have := hn.neg_of_nonneg (by exact_mod_cast Nat.zero_le n)
      push_cast
      exact this
  unfold PyFloat.ofInt
  rw [show PyFloat.ofRat (v : Rat) = .fin v from hdouble]

/-! ## Numbers -/

/-- What comes back for a decimal, and when anything does. -/
theorem reformatLimited_text (d : Decimal) (hd : d.value ≠ 0) :
    ∃ s k n, Significand.Shortest 10 |d.value| s k n ∧ k = (Str.ofNat s).length ∧
      ∀ out, reformatLimited d.text = .ok out ↔
        digitCount d.expText ≤ JsonLoads.maxStrDigits ∧
        (Ecma.Positional n ∨ (Str.ofNat (n - 1).natAbs).length ≤ JsonLoads.maxStrDigits) ∧
        out = Ecma.numberToString d.value s k n := by
  obtain ⟨s, k, n, hs, hk, hout⟩ := reformatEcmascript_text d hd
  obtain ⟨d', htext, -, hexp⟩ := exists_decimal_numberToString hs hk
  have hcount : digitCount (exponentText (Ecma.numberToString d.value s k n)) ≤
      JsonLoads.maxStrDigits ↔
        Ecma.Positional n ∨ (Str.ofNat (n - 1).natAbs).length ≤ JsonLoads.maxStrDigits := by
    rw [← htext, exponentText_text, hexp, digitCount_layout]
  refine ⟨s, k, n, hs, hk, fun out => ?_⟩
  rw [reformatLimited_eq_ok, exponentText_text, hout, ← hcount]
  constructor
  · rintro ⟨hin, hfits, rfl⟩
    exact ⟨hin, hfits, rfl⟩
  · rintro ⟨hin, hfits, rfl⟩
    exact ⟨hin, hfits, rfl⟩

/-- A decimal other than zero is rewritten as ECMA-262 prescribes whenever its exponent, and the one
written for it, keep to the limit of the interpreter; and below `2 ^ 53` the integers come out of either
branch alike. -/
theorem number_layout :
    (∀ d : Decimal, d.value ≠ 0 → ∃ s k n, Significand.Shortest 10 |d.value| s k n ∧
      ((∃ out, reformatLimited d.text = .ok out) ↔
        digitCount d.expText ≤ JsonLoads.maxStrDigits ∧
        (Ecma.Positional n ∨ (Str.ofNat (n - 1).natAbs).length ≤ JsonLoads.maxStrDigits)) ∧
      ∀ out, reformatLimited d.text = .ok out →
        out = Ecma.numberToString d.value s k n ∧
        (∃ d' : Decimal, d'.text = out) ∧ (∀ d' : Decimal, d'.text = out → d'.value = d.value) ∧
        reformatLimited out = .ok out ∧
        ∀ (d' : Decimal) (out' : Str), d'.value = d.value → reformatLimited d'.text = .ok out' →
          out' = out) ∧
    ∀ v : Int, -(2 ^ 53) < v → v < 2 ^ 53 →
      ∃ f, PyFloat.ofInt v = some f ∧ ecmascriptDouble f = numberInt v := by
  constructor
  · intro d hd
    obtain ⟨s, k, n, hs, hk, hout⟩ := reformatLimited_text d hd
    obtain ⟨w, htext, hvalue, hexp⟩ := exists_decimal_numberToString hs hk
    refine ⟨s, k, n, hs, ⟨fun ⟨out, h⟩ => ?_, fun ⟨hin, hfits⟩ => ⟨_, (hout _).mpr ⟨hin, hfits, rfl⟩⟩⟩,
      fun out h => ?_⟩
    · obtain ⟨hin, hfits, -⟩ := (hout out).mp h
      exact ⟨hin, hfits⟩
    · obtain ⟨hin, hfits, rfl⟩ := (hout out).mp h
      -- whatever has the value has its digits, hence its layout
      have hsame : ∀ (d' : Decimal) (out' : Str), d'.value = d.value →
          reformatLimited d'.text = .ok out' → out' = Ecma.numberToString d.value s k n := by
        intro d' out' hd' h'
        obtain ⟨s', k', n', hs', -, hout'⟩ := reformatLimited_text d' (hd' ▸ hd)
        rw [hd'] at hs'
        obtain ⟨rfl, rfl, rfl⟩ := hs.unique (by omega) hs'
        rw [((hout' out').mp h').2.2, hd']
      refine ⟨rfl, ⟨w, htext⟩, fun d' hd' => ?_, ?_, hsame⟩
      · rw [← hvalue]
        exact value_eq_of_text_eq (hd'.trans htext.symm)
      · obtain ⟨s', k', n', hs', -, hout'⟩ := reformatLimited_text w (hvalue ▸ hd)
        rw [hvalue] at hs' hout'
        obtain ⟨rfl, rfl, rfl⟩ := hs.unique (by omega) hs'
        rw [← htext, hout', htext, hexp, digitCount_layout]
        exact ⟨hfits, hfits, rfl⟩
  · intro v hlo hhi
    refine ⟨.fin v, ofInt_eq hlo hhi, ?_⟩
    rw [ecmascriptDouble_intCast hlo hhi, numberInt, if_pos ⟨hlo, hhi⟩]

/-- The digits `1…1`. -/
def ones (n : Nat) : Digits :=
  ⟨List.replicate (n + 1) 49, by simp, fun c hc => by rw [(List.mem_replicate.mp hc).2]; rfl⟩

/-- `1e+11…1`, with an exponent of 4301 digits. -/
def longExponent : Decimal := ⟨false, Digits.ofNat 1, none, some (false, ones 4300)⟩

/-- The interpreter does not read that many digits. -/
theorem reformat_longExponent :
    longExponent.value ≠ 0 ∧ ∀ out, reformatLimited longExponent.text ≠ .ok out := by
  have hcoef : longExponent.coefficient = 1 := rfl
  constructor
  · rw [← abs_ne_zero, Decimal.abs_value, Decimal.magnitude, hcoef, Nat.cast_one, one_mul]
    exact zpow_ne_zero _ (by norm_num)
  · intro out h
    have hcount := (reformatLimited_eq_ok.mp h).1
    rw [exponentText_text] at hcount
    have hlen : digitCount longExponent.expText = 4301 := by
      have hfilter : (ones 4300).text.filter Str.isDigit = (ones 4300).text :=
        List.filter_eq_self.mpr (ones 4300).digits
      rw [digitCount, Decimal.expText, longExponent, Option.elim_some,
        List.filter_cons_of_neg (by decide), hfilter, ones, List.length_replicate]
    rw [hlen, JsonLoads.maxStrDigits] at hcount
    omega

/-- The decimal `1e-07`. -/
def tenMillionth : Decimal := ⟨false, Digits.ofNat 1, none, some (true, ⟨[48, 55], by simp, by decide⟩)⟩

/-- `1e-07` is written `1e-7`. -/
theorem number_layout_tenMillionth : tenMillionth.text = lit "1e-07" ∧
    ∃ s k n, Significand.Shortest 10 |tenMillionth.value| s k n ∧
      reformatLimited "1e-07" = .ok (Ecma.numberToString tenMillionth.value s k n) := by
  have hvalue : tenMillionth.value ≠ 0 := by
    rw [← abs_ne_zero, Decimal.abs_value, Decimal.magnitude]
    exact mul_ne_zero (by decide) (zpow_ne_zero _ (by norm_num))
  have hout : reformatLimited tenMillionth.text = .ok "1e-7" := eq_ok_of_toOption (by decide +kernel)
  obtain ⟨s, k, n, hs, -, h⟩ := number_layout.1 tenMillionth hvalue
  refine ⟨rfl, s, k, n, hs, ?_⟩
  rw [← (h _ hout).1]
  exact hout

end OpenVC.Jcs
