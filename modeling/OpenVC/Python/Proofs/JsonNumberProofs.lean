import OpenVC.Python.JsonDumps
import OpenVC.Python.Proofs.FloatReprProofs

/-!
# Numbers read back

`json.loads` reads every number `json.dumps` writes as the same number: an `int` from its digits, a
`float` from the shortest digits that identify it, in each of their layouts.
-/

namespace Python.JsonDumps

open JsonLoads Str

/-- What follows a number in a document: a comma, a bracket, a brace or nothing. -/
def Ends (r : Str) : Prop := ∀ c t, r = c :: t → c = 44 ∨ c = 93 ∨ c = 125

/-- The text does not start with a digit. -/
def NoDigit (r : Str) : Prop := ∀ c t, r = c :: t → isDigit c = false

/-- An integer part: digits, with a leading zero only when it is the whole. -/
def IntPart (ip : Str) : Prop :=
  (∀ c ∈ ip, isDigit c = true) ∧ ∃ c t, ip = c :: t ∧ (c = 48 → t = [])

theorem Ends.noDigit {r : Str} (h : Ends r) : NoDigit r := by
  intro c t hr
  rcases h c t hr with rfl | rfl | rfl <;> rfl

theorem ends_nil : Ends [] := by
  intro c t h
  cases h

theorem noDigit_cons {c : Nat} {t : Str} (h : isDigit c = false) : NoDigit (c :: t) := by
  intro c' t' e
  cases e
  exact h

/-! ## The parts of a literal -/

theorem spanDigits_append {ds r : Str} (hd : ∀ c ∈ ds, isDigit c = true) (hr : NoDigit r) :
    spanDigits (ds ++ r) = (ds, r) := by
  have hr' : r.takeWhile isDigit = [] ∧ r.dropWhile isDigit = r := by
    cases r with
    | nil => exact ⟨rfl, rfl⟩
    | cons c t =>
      have := hr c t rfl
      simp [this]
  rw [spanDigits, List.takeWhile_append_of_pos hd, List.dropWhile_append_of_pos hd, hr'.1, hr'.2,
    List.append_nil]

theorem scanFrac_append {fr r : Str} (hfr : ∀ c ∈ fr, isDigit c = true) (hne : fr ≠ [])
    (hr : NoDigit r) : scanFrac (46 :: (fr ++ r)) = some (fr, r) := by
  simp only [scanFrac, spanDigits_append hfr hr]
  rw [if_neg (by simpa using hne)]

theorem scanFrac_none {r : Str} (h : ∀ t, r ≠ 46 :: t) : scanFrac r = none := by
  unfold scanFrac
  split
  · rename_i t
    exact absurd rfl (h t)
  · rfl

theorem scanExp_append {ex r : Str} (neg : Bool) (hex : ∀ c ∈ ex, isDigit c = true) (hne : ex ≠ [])
    (hr : NoDigit r) :
    scanExp (101 :: (if neg then 45 else 43) :: (ex ++ r)) =
      some (if neg then -(toNat ex : Int) else toNat ex, r) := by
  cases neg <;> simp [scanExp, spanDigits_append hex hr, hne]

theorem Ends.scanExp {r : Str} (h : Ends r) : scanExp r = none := by
  cases r with
  | nil => rfl
  | cons c t => rcases h c t rfl with rfl | rfl | rfl <;> rfl

theorem Ends.scanFrac {r : Str} (h : Ends r) : scanFrac r = none := by
  apply scanFrac_none
  intro t ht
  rcases h 46 t ht with h | h | h <;> cases h

/-- The integer part of a literal is its digits. -/
theorem scanNumber_eq {ip r : Str} (neg : Bool) (hip : IntPart ip) (hr : NoDigit r) :
    scanNumber neg (ip ++ r) =
      match scanFrac r, scanExp (((scanFrac r).map Prod.snd).getD r) with
      | none, none =>
        if maxStrDigits < ip.length then none
        else some (.int (if neg then -(toNat ip : Int) else toNat ip), r)
      | frac, exp =>
        let q := decimalValue ip ((frac.map Prod.fst).getD []) ((exp.map Prod.fst).getD 0)
        some (.float (PyFloat.ofRat (if neg then -q else q)),
          (exp.map Prod.snd).getD (((frac.map Prod.snd)).getD r)) := by
  obtain ⟨hd, c, t, rfl, hzero⟩ := hip
  have hspan := spanDigits_append hd hr
  by_cases hc : c = 48
  · subst hc
    rw [hzero rfl]
    rfl
  · unfold scanNumber
    split
    rename_i ds rest hds
    split at hds
    · rename_i heq
      simp only [List.cons_append, List.cons.injEq] at heq
      exact absurd heq.1 hc
    · rw [hspan] at hds
      cases hds
      rfl

theorem decimalValue_eq (ip fr : Str) (e : Int) :
    decimalValue ip fr e = (toNat (ip ++ fr) : Rat) * 10 ^ (e - fr.length) := by
  unfold decimalValue
  simp only
  split
  · rename_i h
    have he : (10 : Rat) ^ (e - fr.length) = 10 ^ (e - fr.length).toNat := by
      rw [← zpow_natCast, Int.toNat_of_nonneg h]
    rw [he]
    push_cast
    rfl
  · rename_i h
    have he : (10 : Rat) ^ (e - fr.length) = (10 ^ (-(e - fr.length)).toNat)⁻¹ := by
      rw [← zpow_natCast, Int.toNat_of_nonneg (by omega), zpow_neg, inv_inv]
    rw [Rat.mkRat_eq_div, he, div_eq_mul_inv]
    push_cast
    rfl

/-- A literal with a fraction and no exponent. -/
theorem scanNumber_frac {ip f r : Str} (neg : Bool) (hip : IntPart ip)
    (hfr : ∀ c ∈ f, isDigit c = true) (hne : f ≠ []) (hr : Ends r) :
    scanNumber neg (ip ++ 46 :: (f ++ r)) =
      some (.float (PyFloat.ofRat (if neg then -decimalValue ip f 0 else decimalValue ip f 0)),
        r) := by
  rw [scanNumber_eq neg hip (noDigit_cons rfl), scanFrac_append hfr hne hr.noDigit]
  simp only [Option.map_some, Option.getD_some, hr.scanExp, Option.map_none, Option.getD_none]

/-- A literal with an exponent; without a fraction it has no point either. -/
theorem scanNumber_exp {ip fr ex r : Str} (neg eneg : Bool) (hip : IntPart ip)
    (hfr : ∀ c ∈ fr, isDigit c = true) (hex : ∀ c ∈ ex, isDigit c = true) (hne : ex ≠ [])
    (hr : Ends r) :
    scanNumber neg (ip ++ ((if fr = [] then [] else 46 :: fr) ++
        101 :: (if eneg then 45 else 43) :: (ex ++ r))) =
      let q := decimalValue ip fr (if eneg then -(toNat ex : Int) else toNat ex)
      some (.float (PyFloat.ofRat (if neg then -q else q)), r) := by
  have hstop : NoDigit (101 :: (if eneg then 45 else 43) :: (ex ++ r)) := noDigit_cons rfl
  by_cases hfr0 : fr = []
  · subst hfr0
    rw [if_pos rfl, List.nil_append, scanNumber_eq neg hip hstop,
      scanFrac_none (by intro t e; cases e)]
    simp only [Option.map_none, Option.getD_none, scanExp_append eneg hex hne hr.noDigit,
      Option.map_some, Option.getD_some]
  · rw [if_neg hfr0, List.cons_append, scanNumber_eq neg hip (noDigit_cons rfl),
      scanFrac_append hfr hfr0 hstop]
    simp only [Option.map_some, Option.getD_some, scanExp_append eneg hex hne hr.noDigit]

/-! ## The layouts of a float -/

/-- Significant digits: not empty, and the first one is not zero. -/
def Significant (ds : Str) : Prop := (∀ c ∈ ds, isDigit c = true) ∧ ∃ c t, ds = c :: t ∧ c ≠ 48

theorem Significant.intPart {ds z : Str} (h : Significant ds) (hz : ∀ c ∈ z, isDigit c = true) :
    IntPart (ds ++ z) := by
  obtain ⟨hd, c, t, rfl, hc⟩ := h
  refine ⟨?_, c, t ++ z, rfl, fun e => absurd e hc⟩
  intro x hx
  rcases List.mem_append.mp hx with hx | hx
  · exact hd x hx
  · exact hz x hx

theorem Significant.take {ds : Str} (h : Significant ds) {k : Nat} (hk : 0 < k) :
    Significant (ds.take k) := by
  obtain ⟨hd, c, t, rfl, hc⟩ := h
  obtain ⟨j, rfl⟩ : ∃ j, k = j + 1 := ⟨k - 1, by omega⟩
  exact ⟨fun x hx => hd x (List.mem_of_mem_take hx), c, t.take j, by simp, hc⟩

theorem isDigit_replicate {k c : Nat} (h : c ∈ List.replicate k 48) : isDigit c = true := by
  rw [(List.mem_replicate.mp h).2]
  rfl

theorem scanNumber_layout {ds r : Str} (pt : Int) (neg : Bool) (hds : Significant ds) (hr : Ends r) :
    scanNumber neg (PyFloat.layout ds pt ++ r) =
      let q := (toNat ds : Rat) * 10 ^ (pt - ds.length)
      some (.float (PyFloat.ofRat (if neg then -q else q)), r) := by
  have hpos : 0 < ds.length := by
    obtain ⟨-, c, t, rfl, -⟩ := hds
    simp
  unfold PyFloat.layout
  split
  · -- with an exponent
    have hmant : (if ds.length ≤ 1 then ds else ds.take 1 ++ [46] ++ ds.drop 1) =
        ds.take 1 ++ (if ds.drop 1 = [] then [] else 46 :: ds.drop 1) := by
      by_cases h1 : ds.length ≤ 1
      · rw [if_pos h1, if_pos (List.drop_eq_nil_of_le h1), List.take_of_length_le h1,
          List.append_nil]
      · have hne : ds.drop 1 ≠ [] := by
          intro e
          have := List.drop_eq_nil_iff.mp e
          omega
        rw [if_neg h1, if_neg hne, List.append_assoc]
        rfl
    have hsign : ([if 0 ≤ pt - 1 then 43 else 45] : Str) =
        [if decide (pt - 1 < 0) = true then 45 else 43] := by
      by_cases h : 0 ≤ pt - 1
      · rw [if_pos h, if_neg (by simpa using h)]
      · rw [if_neg h, if_pos (by simpa using h)]
    dsimp only
    rw [hmant, hsign]
    simp only [List.append_assoc, List.cons_append, List.nil_append]
    rw [scanNumber_exp neg _ (by simpa using (hds.take (k := 1) (by omega)).intPart (z := []) (by simp))
      (fun c hc => hds.1 c (List.mem_of_mem_drop hc)) ?_ ?_ hr]
    · have hexp : toNat (if (ofNat (pt - 1).natAbs).length < 2 then 48 :: ofNat (pt - 1).natAbs
          else ofNat (pt - 1).natAbs) = (pt - 1).natAbs := by
        split <;> simp
      have he : (if decide (pt - 1 < 0) = true then -((pt - 1).natAbs : Int)
          else ((pt - 1).natAbs : Int)) - (ds.drop 1).length = pt - ds.length := by
        rw [List.length_drop]
        by_cases h : pt - 1 < 0
        · rw [if_pos (by simpa using h)]
          omega
        · rw [if_neg (by simpa using h)]
          omega
      simp only [hexp, decimalValue_eq, List.take_append_drop, he]
    · intro c hc
      split at hc
      · rcases List.mem_cons.mp hc with rfl | hc
        · rfl
        · exact isDigit_of_mem_ofNat hc
      · exact isDigit_of_mem_ofNat hc
    · split
      · simp
      · exact ofNat_ne_nil _
  split
  · -- below one
    rename_i hpt
    have hfr : ∀ c ∈ List.replicate (-pt).toNat 48 ++ ds, isDigit c = true := by
      intro c hc
      rcases List.mem_append.mp hc with hc | hc
      · exact isDigit_replicate hc
      · exact hds.1 c hc
    have hzero : IntPart [48] := ⟨by simp [isDigit], 48, [], rfl, fun _ => rfl⟩
    have htext : lit "0." ++ List.replicate (-pt).toNat 48 ++ ds ++ r =
        [48] ++ 46 :: ((List.replicate (-pt).toNat 48 ++ ds) ++ r) := by
      simp [lit_eq]
    have hne : List.replicate (-pt).toNat 48 ++ ds ≠ [] :=
      List.append_ne_nil_of_right_ne_nil _ (List.length_pos_iff.mp hpos)
    rw [htext, scanNumber_frac neg hzero hfr hne hr]
    have hval : Str.toNat ([48] ++ (List.replicate (-pt).toNat 48 ++ ds)) = Str.toNat ds := by
      rw [List.singleton_append, toNat_zero_cons, toNat_append, toNat_replicate_zero]
      omega
    have he : (0 : Int) - ((List.replicate (-pt).toNat 48 ++ ds : Str)).length = pt - ds.length := by
      rw [List.length_append, List.length_replicate]
      omega
    simp only [decimalValue_eq, hval, he]
  split
  · -- an integer
    rename_i hpt hlen
    have htext : ds ++ List.replicate (pt.toNat - ds.length) 48 ++ lit ".0" ++ r =
        (ds ++ List.replicate (pt.toNat - ds.length) 48) ++ 46 :: ([48] ++ r) := by
      simp [lit_eq]
    rw [htext, scanNumber_frac neg (hds.intPart fun c hc => isDigit_replicate hc)
      (by simp [isDigit]) (by simp) hr]
    have hval : (toNat ((ds ++ List.replicate (pt.toNat - ds.length) 48) ++ [48]) : Rat) *
        10 ^ ((0 : Int) - ([48] : Str).length) = (toNat ds : Rat) * 10 ^ (pt - ds.length) := by
      rw [List.append_assoc, toNat_append, toNat_append]
      have hexp : pt - ds.length =
          ((pt.toNat - ds.length + 1 : Nat) : Int) + ((0 : Int) - ([48] : Str).length) := by
        simp only [List.length_singleton]
        omega
      rw [hexp, zpow_add₀ (by norm_num), zpow_natCast]
      simp only [toNat_replicate_zero, List.length_append, List.length_replicate,
        List.length_singleton]
      have h48 : toNat [48] = 0 := rfl
      rw [h48]
      push_cast
      ring
    simp only [decimalValue_eq, hval]
  · -- a point among the digits
    rename_i hpt0 hpt hlen
    have hpt' : 0 < pt.toNat := by omega
    have htext : ds.take pt.toNat ++ [46] ++ ds.drop pt.toNat ++ r =
        ds.take pt.toNat ++ 46 :: (ds.drop pt.toNat ++ r) := by simp
    rw [htext, scanNumber_frac neg
      (by simpa using (hds.take hpt').intPart (z := []) (by simp))
      (fun c hc => hds.1 c (List.mem_of_mem_drop hc)) ?_ hr]
    · have he : (0 : Int) - (ds.drop pt.toNat).length = pt - ds.length := by
        rw [List.length_drop]
        omega
      simp only [decimalValue_eq, List.take_append_drop, he]
    · intro e
      have := List.drop_eq_nil_iff.mp e
      omega

/-! ## Numbers -/

theorem scanAtom_digit {c : Nat} {t : Str} (h : isDigit c = true) :
    scanAtom (c :: t) = scanNumber false (c :: t) := by
  have hc : 48 ≤ c ∧ c ≤ 57 := by simpa [isDigit] using h
  have hword : ∀ (k : Nat) (w : Str), k ≠ c → List.isPrefixOf (k :: w) (c :: t) = false := by
    intro k w hk
    simp [List.isPrefixOf, hk]
  have h1 : (lit "null").isPrefixOf (c :: t) = false := hword 110 _ (by omega)
  have h2 : (lit "true").isPrefixOf (c :: t) = false := hword 116 _ (by omega)
  have h3 : (lit "false").isPrefixOf (c :: t) = false := hword 102 _ (by omega)
  have h4 : (lit "NaN").isPrefixOf (c :: t) = false := hword 78 _ (by omega)
  have h5 : (lit "Infinity").isPrefixOf (c :: t) = false := hword 73 _ (by omega)
  have h6 : (lit "-Infinity").isPrefixOf (c :: t) = false := hword 45 _ (by omega)
  rw [scanAtom, h1, h2, h3, h4, h5, h6]
  simp only [Bool.false_eq_true, if_false]
  intro t' heq
  have : c = 45 := (List.cons.inj heq).1
  omega

theorem scanAtom_minus {c : Nat} {t : Str} (h : isDigit c = true) :
    scanAtom (45 :: c :: t) = scanNumber true (c :: t) := by
  have hc : 48 ≤ c ∧ c ≤ 57 := by simpa [isDigit] using h
  have hne : (73 == c) = false := by simp; omega
  simp [scanAtom, lit_eq, List.isPrefixOf, hne]

theorem intPart_ofNat (n : Nat) : IntPart (ofNat n) := by
  refine ⟨fun c hc => isDigit_of_mem_ofNat hc, ?_⟩
  cases hn : ofNat n with
  | nil => exact absurd hn (ofNat_ne_nil n)
  | cons c t =>
    refine ⟨c, t, rfl, fun hc => ?_⟩
    rcases Nat.eq_zero_or_pos n with rfl | hpos
    · have : ofNat 0 = [48] := rfl
      rw [this] at hn
      cases hn
      rfl
    · exact absurd hc (ofNat_cons_ne_zero hpos hn)

theorem scanNumber_ofNat {n : Nat} {r : Str} (neg : Bool)
    (hn : (ofNat n).length ≤ maxStrDigits) (hr : Ends r) :
    scanNumber neg (ofNat n ++ r) = some (.int (if neg then -(n : Int) else n), r) := by
  rw [scanNumber_eq neg (intPart_ofNat n) hr.noDigit]
  simp only [hr.scanFrac, hr.scanExp, Option.map_none, Option.getD_none]
  rw [if_neg (by omega), toNat_ofNat]

/-- An `int` reads back. -/
theorem scanAtom_dumpsInt {n : Int} {s r : Str} (h : dumpsInt n = some s) (hr : Ends r) :
    scanAtom (s ++ r) = some (.int n, r) := by
  unfold dumpsInt at h
  split at h
  · cases h
  rename_i hlen
  cases h
  have hcons : ∀ k, ∃ c t, ofNat k = c :: t ∧ isDigit c = true := by
    intro k
    obtain ⟨hd, c, t, hc, -⟩ := intPart_ofNat k
    exact ⟨c, t, hc, hd c (hc ▸ List.mem_cons_self)⟩
  cases n with
  | ofNat n =>
    obtain ⟨c, t, hc, hdig⟩ := hcons n
    have hscan := scanNumber_ofNat (n := n) false (by simpa using hlen) hr
    rw [ofInt]
    rw [hc, List.cons_append] at hscan ⊢
    rw [scanAtom_digit hdig, hscan]
    rfl
  | negSucc n =>
    obtain ⟨c, t, hc, hdig⟩ := hcons (n + 1)
    have hscan := scanNumber_ofNat (n := n + 1) true (by simpa using hlen) hr
    rw [ofInt, List.cons_append]
    rw [hc, List.cons_append] at hscan ⊢
    rw [scanAtom_minus hdig, hscan]
    rfl

/-- The digits of `shortest`, and the number they denote with their decimal point. -/
theorem significant_shortest {q : Rat} (h : PyFloat.IsDouble q) (hq : 0 < q) :
    Significant (PyFloat.shortest q 17).1 ∧
      PyFloat.ofRat ((toNat (PyFloat.shortest q 17).1 : Rat) *
        10 ^ ((PyFloat.shortest q 17).2 - (PyFloat.shortest q 17).1.length)) = .fin q := by
  obtain ⟨c, p, hread, hshort⟩ := PyFloat.shortest_eq h hq (n := 17) (by omega) (by omega)
  have hc : 0 < c := by
    rcases Nat.eq_zero_or_pos c with rfl | hc
    · have hzero : PyFloat.ofRat 0 = .fin 0 := by decide +kernel
      rw [Nat.cast_zero, zero_mul, hzero] at hread
      cases hread
      exact absurd hq (lt_irrefl 0)
    · exact hc
  rw [hshort]
  dsimp only
  set ds := (ofNat c).rdropWhile (· = 48) with hds
  set zs := (ofNat c).rtakeWhile (· = 48) with hzs
  have hsplit : ofNat c = ds ++ zs := List.rdropWhile_append_rtakeWhile.symm
  have hz : zs = List.replicate zs.length 48 := by
    rw [List.eq_replicate_iff]
    exact ⟨rfl, fun b hb => by simpa using List.mem_rtakeWhile_imp hb⟩
  have hvalue : (toNat ds : Rat) * 10 ^ zs.length = c := by
    have := toNat_ofNat c
    rw [hsplit, toNat_append] at this
    have hz0 : toNat zs = 0 := by rw [hz, toNat_replicate_zero]
    rw [hz0, Nat.add_zero, Nat.mul_comm] at this
    exact_mod_cast this
  have hdig : ∀ x ∈ ds, isDigit x = true := fun x hx =>
    isDigit_of_mem_ofNat (n := c) (hsplit ▸ List.mem_append_left _ hx)
  refine ⟨⟨hdig, ?_⟩, ?_⟩
  · cases hd : ds with
    | nil =>
      rw [hd] at hvalue
      simp only [toNat_nil, Nat.cast_zero, zero_mul] at hvalue
      have : c = 0 := by exact_mod_cast hvalue.symm
      omega
    | cons x t => exact ⟨x, t, rfl, ofNat_cons_ne_zero hc (by rw [hsplit, hd, List.cons_append])⟩
  · have hlen : ((ofNat c).length : Int) = ds.length + zs.length := by
      rw [hsplit, List.length_append, Nat.cast_add]
    have hexp : PyFloat.decimalPoint q + (ofNat c).length - p - ds.length =
        (zs.length : Int) + (PyFloat.decimalPoint q - p) := by omega
    rw [hexp, zpow_add₀ (by norm_num), ← mul_assoc, zpow_natCast, hvalue, hread]

/-- A number that the interpreter's `float` holds. -/
def IsFloat : PyFloat → Prop
  | .fin q => PyFloat.IsDouble q
  | _ => True

theorem layout_digit {ds : Str} (pt : Int) (hds : Significant ds) :
    ∃ c t, PyFloat.layout ds pt = c :: t ∧ isDigit c = true := by
  obtain ⟨hd, c, t, rfl, -⟩ := hds
  have hc := hd c List.mem_cons_self
  unfold PyFloat.layout
  split
  · dsimp only
    split
    · exact ⟨c, _, rfl, hc⟩
    · exact ⟨c, _, rfl, hc⟩
  split
  · exact ⟨48, _, rfl, rfl⟩
  split
  · exact ⟨c, _, rfl, hc⟩
  · rename_i hpt0 hpt hlen
    obtain ⟨k, hk⟩ : ∃ k, pt.toNat = k + 1 := ⟨pt.toNat - 1, by omega⟩
    rw [hk]
    exact ⟨c, _, rfl, hc⟩

/-- A `float` reads back. -/
theorem scanAtom_dumpsFloat {f : PyFloat} {r : Str} (h : IsFloat f) (hr : Ends r) :
    scanAtom (dumpsFloat f ++ r) = some (.float f, r) := by
  cases f with
  | nan => rfl
  | posInf => rfl
  | negInf => rfl
  | fin q =>
    rw [dumpsFloat]
    split
    · rename_i hq
      subst hq
      have hzero : IntPart [48] := ⟨by simp [isDigit], 48, [], rfl, fun _ => rfl⟩
      have hscan := scanNumber_frac false hzero (f := [48]) (by simp [isDigit]) (by simp) hr
      have hval : PyFloat.ofRat (decimalValue [48] [48] 0) = .fin 0 := by decide +kernel
      have htext : lit "0.0" ++ r = 48 :: (46 :: ([48] ++ r)) := rfl
      rw [htext, scanAtom_digit rfl]
      rw [List.singleton_append] at hscan
      rw [hscan, if_neg (by simp), hval]
    · rename_i hq
      rcases lt_or_gt_of_ne hq with hneg | hpos
      · have hm : 0 < -q := neg_pos.mpr hneg
        obtain ⟨hsig, hread⟩ := significant_shortest (PyFloat.IsDouble.neg_of_neg h hneg) hm
        have hscan := scanNumber_layout (PyFloat.shortest (-q) 17).2 true hsig hr
        obtain ⟨c, t, hc, hdig⟩ := layout_digit (PyFloat.shortest (-q) 17).2 hsig
        simp only [PyFloat.repr]
        rw [if_pos hneg, if_pos hneg, List.cons_append]
        rw [hc, List.cons_append] at hscan ⊢
        rw [scanAtom_minus hdig, hscan]
        have hpos' : (0 : Rat) < (toNat (PyFloat.shortest (-q) 17).1 : Rat) *
            10 ^ ((PyFloat.shortest (-q) 17).2 - (PyFloat.shortest (-q) 17).1.length) := by
          by_contra hle
          have hz : (toNat (PyFloat.shortest (-q) 17).1 : Rat) *
              10 ^ ((PyFloat.shortest (-q) 17).2 - (PyFloat.shortest (-q) 17).1.length) = 0 :=
            le_antisymm (not_lt.mp hle) (by positivity)
          have hzero : PyFloat.ofRat 0 = .fin 0 := by decide +kernel
          rw [hz, hzero] at hread
          have := PyFloat.fin.inj hread
          linarith
        simp only [if_true]
        rw [PyFloat.ofRat_neg hpos' hread, neg_neg]
      · have hnneg : ¬ q < 0 := not_lt.mpr hpos.le
        obtain ⟨hsig, hread⟩ := significant_shortest h hpos
        have hscan := scanNumber_layout (PyFloat.shortest q 17).2 false hsig hr
        obtain ⟨c, t, hc, hdig⟩ := layout_digit (PyFloat.shortest q 17).2 hsig
        simp only [PyFloat.repr]
        rw [if_neg hnneg, if_neg hnneg]
        rw [hc, List.cons_append] at hscan ⊢
        rw [scanAtom_digit hdig, hscan]
        simp only [Bool.false_eq_true, if_false]
        rw [hread]

end Python.JsonDumps
