import Mathlib.Tactic.NormNum
import OpenVC.Python.Json
import OpenVC.Python.Numeral

/-!
# The decimal texts of a `float`

The shapes `repr` writes: a sign, digits, a fraction after a point, an exponent with a sign after `e`.
-/

namespace Python

/-- A run of decimal digits. -/
structure Digits where
  text : Str
  ne_nil : text ≠ []
  digits : ∀ c ∈ text, Str.isDigit c = true

/-- A decimal text, part by part; the flag of an exponent says that it is negative. -/
structure Decimal where
  neg : Bool
  int : Digits
  frac : Option Digits
  exp : Option (Bool × Digits)

namespace Digits

theorem not_mem (ds : Digits) {c : Nat} (h : Str.isDigit c = false) : c ∉ ds.text := by
  intro hmem
  rw [ds.digits c hmem] at h
  cases h

/-- The numeral of a natural number. -/
def ofNat (n : Nat) : Digits := ⟨Str.ofNat n, Str.ofNat_ne_nil n, fun _ => Str.isDigit_of_mem_ofNat⟩

end Digits

namespace Decimal

/-- The digits of the fraction. -/
def fracText (d : Decimal) : Str := d.frac.elim [] Digits.text

/-- The text of the exponent, with its sign. -/
def expText (d : Decimal) : Str := d.exp.elim [] fun p => (if p.1 then 45 else 43) :: p.2.text

/-- The text before the exponent, without the sign. -/
def mantissa (d : Decimal) : Str := d.int.text ++ d.frac.elim [] fun f => 46 :: f.text

/-- The text without the sign. -/
def body (d : Decimal) : Str := d.mantissa ++ d.exp.elim [] fun _ => 101 :: d.expText

/-- The decimal as `repr` writes it. -/
def text (d : Decimal) : Str := (if d.neg then [45] else []) ++ d.body

/-- The exponent. -/
def exponent (d : Decimal) : Int :=
  d.exp.elim 0 fun p => if p.1 then -(Str.toNat p.2.text : Int) else Str.toNat p.2.text

/-- The significant part, as an integer. -/
def coefficient (d : Decimal) : Nat := Str.toNat (d.int.text ++ d.fracText)

/-- The number without its sign. -/
def magnitude (d : Decimal) : Rat := d.coefficient * 10 ^ (d.exponent - d.fracText.length)

/-- The number. -/
def value (d : Decimal) : Rat := if d.neg then -d.magnitude else d.magnitude

variable (d : Decimal)

theorem magnitude_nonneg : 0 ≤ d.magnitude := by
  have hcoef : (0 : Rat) ≤ d.coefficient := by exact_mod_cast Nat.zero_le _
  have hpow : (0 : Rat) < 10 ^ (d.exponent - d.fracText.length) := zpow_pos (by norm_num) _
  exact mul_nonneg hcoef hpow.le

@[simp] theorem abs_value : |d.value| = d.magnitude := by
  unfold value
  split
  · rw [abs_neg, abs_of_nonneg d.magnitude_nonneg]
  · exact abs_of_nonneg d.magnitude_nonneg

theorem neg_iff (h : d.value ≠ 0) : d.neg = true ↔ d.value < 0 := by
  have hne : d.magnitude ≠ 0 := by
    rw [← abs_value]
    exact abs_ne_zero.mpr h
  have hpos := lt_of_le_of_ne d.magnitude_nonneg hne.symm
  unfold value
  split
  · rename_i hneg
    exact ⟨fun _ => neg_lt_zero.mpr hpos, fun _ => hneg⟩
  · rename_i hneg
    exact ⟨fun e => absurd e hneg, fun e => absurd e (not_lt.mpr hpos.le)⟩

/-! ## Taking a text apart -/

theorem body_cons : ∃ c t, d.body = c :: t ∧ Str.isDigit c = true := by
  obtain ⟨c, t, hc⟩ := List.exists_cons_of_ne_nil d.int.ne_nil
  have hdigit : Str.isDigit c = true := d.int.digits c (hc ▸ List.mem_cons_self)
  rw [body, mantissa, hc, List.cons_append, List.cons_append]
  exact ⟨c, _, rfl, hdigit⟩

theorem startsWith_text : Str.startsWith d.text [45] = d.neg := by
  obtain ⟨c, t, hbody, hc⟩ := d.body_cons
  have hne : 45 ≠ c := by
    rintro rfl
    cases hc
  cases hneg : d.neg with
  | true => simp [text, hneg, Str.startsWith]
  | false => simp [text, hneg, hbody, Str.startsWith, List.isPrefixOf, hne]

theorem unsigned_text : (if d.neg then d.text.drop 1 else d.text) = d.body := by
  cases hneg : d.neg with
  | true => simp [text, hneg]
  | false => simp [text, hneg]

theorem not_mem_mantissa : 101 ∉ d.mantissa := by
  rw [mantissa, List.mem_append, not_or]
  refine ⟨d.int.not_mem rfl, ?_⟩
  cases d.frac with
  | none => simp
  | some f =>
    rw [Option.elim_some, List.mem_cons, not_or]
    exact ⟨by omega, f.not_mem rfl⟩

/-- `body.partition("e")`. -/
theorem partition_body :
    Str.partition 101 d.body = (d.mantissa, d.exp.isSome, d.expText) := by
  cases hexp : d.exp with
  | none =>
    have hnone : d.expText = [] := by rw [expText, hexp, Option.elim_none]
    rw [body, hexp, Option.elim_none, List.append_nil, hnone]
    exact Str.partition_of_not_mem d.not_mem_mantissa
  | some p =>
    rw [body, hexp, Option.elim_some]
    exact Str.partition_append d.not_mem_mantissa

/-- `mantissa.partition(".")`. -/
theorem partition_mantissa :
    Str.partition 46 d.mantissa = (d.int.text, d.frac.isSome, d.fracText) := by
  have hint : 46 ∉ d.int.text := d.int.not_mem rfl
  cases hfrac : d.frac with
  | none =>
    rw [mantissa, fracText, hfrac, Option.elim_none, Option.elim_none, List.append_nil]
    exact Str.partition_of_not_mem hint
  | some f =>
    rw [mantissa, fracText, hfrac, Option.elim_some, Option.elim_some]
    exact Str.partition_append hint

end Decimal

end Python

/-!
## `repr` of a `float`

The shortest decimal that rounds to the number, the closest one when several are as short, laid out
as the interpreter does: positional when the decimal point falls within the first sixteen places,
with an exponent otherwise.
-/

namespace Python.PyFloat

/-- The number of decimal digits of `n`. -/
def decimalLength (n : Nat) : Nat := (Str.ofNat n).length

/-- Where the decimal point of a positive rational stands: the `k` with `10 ^ (k-1) ≤ q < 10 ^ k`. -/
def decimalPoint (q : Rat) : Int :=
  let e : Int := (decimalLength q.num.natAbs : Int) - (decimalLength q.den : Int)
  if (10 : Rat) ^ e ≤ q then e + 1 else e

/-- Whether the decimal `c * 10 ^ e` reads back as the double `q`. -/
def readsBack (q : Rat) (c : Nat) (e : Int) : Bool := ofRat (c * (10 : Rat) ^ e) = .fin q

/-- The `p`-digit decimal closest to `q` among the two around it that read back as `q`. -/
def candidate (q : Rat) (p : Nat) : Option Nat :=
  let e : Int := decimalPoint q - p
  let lo := (q / (10 : Rat) ^ e).floor.toNat
  let below := q - lo * (10 : Rat) ^ e
  let above := (lo + 1) * (10 : Rat) ^ e - q
  match readsBack q lo e, readsBack q (lo + 1) e with
  | true, true =>
    if below < above then some lo else if above < below then some (lo + 1)
    else if lo % 2 = 0 then some lo else some (lo + 1)
  | true, false => some lo
  | false, true => some (lo + 1)
  | false, false => none

/-- The shortest significant digits of a positive double and its decimal point; seventeen digits
always suffice. -/
def shortest (q : Rat) : Nat → Str × Int
  | 0 => (Str.ofNat (q.floor.toNat), decimalPoint q)
  | n + 1 =>
    let p := 17 - n
    match candidate q p with
    | some c =>
      let ds := Str.ofNat c
      (ds.rdropWhile (· = 48), decimalPoint q + ds.length - p)
    | none => shortest q n

/-- The layout of significant digits `ds` with the decimal point at `pt`. -/
def layout (ds : Str) (pt : Int) : Str :=
  if pt ≤ -4 ∨ 16 < pt then
    let e := pt - 1
    let mantissa := if ds.length ≤ 1 then ds else ds.take 1 ++ [46] ++ ds.drop 1
    let exp := Str.ofNat e.natAbs
    mantissa ++ [101] ++ [if 0 ≤ e then 43 else 45] ++ (if exp.length < 2 then 48 :: exp else exp)
  else if pt ≤ 0 then lit "0." ++ List.replicate (-pt).toNat 48 ++ ds
  else if ds.length ≤ pt.toNat then
    ds ++ List.replicate (pt.toNat - ds.length) 48 ++ lit ".0"
  else ds.take pt.toNat ++ [46] ++ ds.drop pt.toNat

/-- `repr(d)` for a finite non-zero `float`. -/
def repr (q : Rat) : Str :=
  let m := if q < 0 then -q else q
  let s := layout (shortest m 17).1 (shortest m 17).2
  if q < 0 then 45 :: s else s

end Python.PyFloat
