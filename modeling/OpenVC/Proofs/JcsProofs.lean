import OpenVC.Jcs
import OpenVC.Python.JsonLoads
import OpenVC.Python.Numeral

/-!
# Canonical texts decompose in one way

A serialised value followed by a separator can be cut off its continuation in one way only, so an
object's canonical text determines the names and the texts of its members. Values are not
recovered: `1` and `1.0` share a text.
-/

namespace OpenVC.Jcs

open Python

/-! ## Strings -/

theorem hexDigit_inj {m n : Nat} (hm : m < 16) (hn : n < 16) (h : hexDigit m = hexDigit n) :
    m = n := by
  unfold hexDigit at h
  split at h <;> split at h <;> omega

/-- The control characters written as a `\u` escape. -/
theorem shortEscape_ne_u {cp c : Nat} (h : shortEscape cp = some c) : c ≠ 117 := by
  unfold shortEscape at h
  repeat' split at h
  all_goals first
    | (cases h; decide)
    | cases h

/-- `json.loads` reads a short escape back. -/
theorem unescape_shortEscape {cp c : Nat} (h : shortEscape cp = some c) :
    JsonLoads.unescape c = some cp := by
  unfold shortEscape at h
  repeat' split at h
  all_goals first
    | (cases h; subst cp; rfl)
    | cases h

theorem shortEscape_inj {cp cp' c : Nat} (h : shortEscape cp = some c)
    (h' : shortEscape cp' = some c) : cp = cp' :=
  Option.some.inj ((unescape_shortEscape h).symm.trans (unescape_shortEscape h'))

theorem shortEscape_none {cp : Nat} (h : shortEscape cp = none) : cp ≠ 34 ∧ cp ≠ 92 := by
  constructor
  · rintro rfl; cases h
  · rintro rfl; cases h

theorem escapeChar_ne_quote (cp : Nat) (r : Str) : ∃ c t, escapeChar cp ++ r = c :: t ∧ c ≠ 34 := by
  unfold escapeChar
  split
  · exact ⟨92, _, rfl, by decide⟩
  · rename_i h
    split
    · exact ⟨92, _, rfl, by decide⟩
    · exact ⟨cp, r, rfl, (shortEscape_none h).1⟩

theorem escapeChar_append_inj {cp cp' : Nat} {r r' : Str}
    (h : escapeChar cp ++ r = escapeChar cp' ++ r') : cp = cp' ∧ r = r' := by
  unfold escapeChar at h
  cases hs : shortEscape cp with
  | some c =>
    cases hs' : shortEscape cp' with
    | some c' =>
      simp only [hs, hs', List.cons_append, List.nil_append, List.cons.injEq, true_and] at h
      exact ⟨shortEscape_inj hs (h.1 ▸ hs'), h.2⟩
    | none =>
      simp only [hs, hs'] at h
      split at h
      · simp only [List.cons_append, List.cons.injEq, true_and] at h
        exact absurd h.1 (shortEscape_ne_u hs)
      · simp only [List.cons_append, List.cons.injEq] at h
        exact absurd h.1.symm (shortEscape_none hs').2
  | none =>
    cases hs' : shortEscape cp' with
    | some c' =>
      simp only [hs, hs'] at h
      split at h
      · simp only [List.cons_append, List.cons.injEq, true_and] at h
        exact absurd h.1.symm (shortEscape_ne_u hs')
      · simp only [List.cons_append, List.cons.injEq] at h
        exact absurd h.1 (shortEscape_none hs).2
    | none =>
      simp only [hs, hs'] at h
      split at h
      · split at h
        · simp only [List.cons_append, List.nil_append, List.cons.injEq, true_and] at h
          obtain ⟨h1, h2, h3⟩ := h
          have e1 := hexDigit_inj (by omega) (by omega) h1
          have e2 := hexDigit_inj (by omega) (by omega) h2
          exact ⟨by omega, h3⟩
        · simp only [List.cons_append, List.cons.injEq] at h
          exact absurd h.1.symm (shortEscape_none hs').2
      · split at h
        · simp only [List.cons_append, List.cons.injEq] at h
          exact absurd h.1 (shortEscape_none hs).2
        · simp only [List.cons_append, List.nil_append, List.cons.injEq] at h
          exact h

theorem escapeBody_inj {s s' r r' : Str}
    (h : s.flatMap escapeChar ++ 34 :: r = s'.flatMap escapeChar ++ 34 :: r') : s = s' ∧ r = r' := by
  induction s generalizing s' with
  | nil =>
    cases s' with
    | nil => exact ⟨rfl, by simpa using h⟩
    | cons c' s' =>
      rw [List.flatMap_cons, List.append_assoc] at h
      obtain ⟨d, t, ht, hd⟩ := escapeChar_ne_quote c' (s'.flatMap escapeChar ++ 34 :: r')
      rw [ht] at h
      simp only [List.flatMap_nil, List.nil_append, List.cons.injEq] at h
      exact absurd h.1.symm hd
  | cons c s ih =>
    cases s' with
    | nil =>
      rw [List.flatMap_cons, List.append_assoc] at h
      obtain ⟨d, t, ht, hd⟩ := escapeChar_ne_quote c (s.flatMap escapeChar ++ 34 :: r)
      rw [ht] at h
      simp only [List.flatMap_nil, List.nil_append, List.cons.injEq] at h
      exact absurd h.1 hd
    | cons c' s' =>
      rw [List.flatMap_cons, List.flatMap_cons, List.append_assoc, List.append_assoc] at h
      obtain ⟨rfl, hrest⟩ := escapeChar_append_inj h
      obtain ⟨rfl, hr⟩ := ih hrest
      exact ⟨rfl, hr⟩

theorem escapeString_append_inj {s s' r r' : Str}
    (h : escapeString s ++ r = escapeString s' ++ r') : s = s' ∧ r = r' := by
  simp only [escapeString, List.append_assoc, List.cons_append, List.nil_append,
    List.cons.injEq, true_and] at h
  exact escapeBody_inj h

/-! ## Numbers -/

/-- The characters of a number. -/
def isNumChar (c : Nat) : Bool :=
  (48 ≤ c && c ≤ 57) || c == 43 || c == 45 || c == 46 || c == 101

/-- A number's text: not empty, and of number characters only. -/
def NumText (t : Str) : Prop := t ≠ [] ∧ ∀ c ∈ t, isNumChar c = true

theorem isNumChar_of_isDigit {c : Nat} (h : Str.isDigit c = true) : isNumChar c = true := by
  simp only [Str.isDigit, isNumChar, Bool.or_eq_true] at h ⊢
  exact .inl (.inl (.inl (.inl h)))

theorem isNumChar_ofNat {n c : Nat} (h : c ∈ Str.ofNat n) : isNumChar c = true :=
  isNumChar_of_isDigit (Str.isDigit_of_mem_ofNat h)

theorem isNumChar_replicate {k c : Nat} (h : c ∈ List.replicate k 48) : isNumChar c = true := by
  rw [List.eq_of_mem_replicate h]; rfl

theorem numText_ofInt (n : Int) : NumText (Str.ofInt n) := by
  cases n with
  | ofNat n => exact ⟨Str.ofNat_ne_nil n, fun c hc => isNumChar_ofNat hc⟩
  | negSucc n =>
    refine ⟨by simp [Str.ofInt], fun c hc => ?_⟩
    rcases List.mem_cons.mp hc with rfl | hc
    · rfl
    · exact isNumChar_ofNat hc

theorem numText_assemble {digits : Str} (k n : Int) (hne : digits ≠ [])
    (hd : ∀ c ∈ digits, isNumChar c = true) : NumText (assembleEcmascript digits k n) := by
  have htake : ∀ m, ∀ c ∈ digits.take m, isNumChar c = true :=
    fun m c hc => hd c (List.mem_of_mem_take hc)
  have hdrop : ∀ m, ∀ c ∈ digits.drop m, isNumChar c = true :=
    fun m c hc => hd c (List.mem_of_mem_drop hc)
  have hexp : ∀ c ∈ ([if 0 ≤ n - 1 then 43 else 45] ++ Str.ofNat (n - 1).natAbs : Str),
      isNumChar c = true := by
    intro c hc
    rcases List.mem_append.mp hc with hc | hc
    · rw [List.mem_singleton] at hc
      split at hc <;> (rw [hc]; rfl)
    · exact isNumChar_ofNat hc
  unfold assembleEcmascript
  split
  · refine ⟨by simp [hne], fun c hc => ?_⟩
    rcases List.mem_append.mp hc with hc | hc
    · exact hd c hc
    · exact isNumChar_replicate hc
  split
  · refine ⟨by simp, fun c hc => ?_⟩
    simp only [List.mem_append, List.mem_singleton] at hc
    rcases hc with (hc | rfl) | hc
    · exact htake _ c hc
    · rfl
    · exact hdrop _ c hc
  split
  · refine ⟨by simp, fun c hc => ?_⟩
    simp only [List.mem_append, List.mem_cons, List.not_mem_nil, or_false] at hc
    rcases hc with ((rfl | rfl) | hc) | hc
    · rfl
    · rfl
    · exact isNumChar_replicate hc
    · exact hd c hc
  · dsimp only
    split
    · refine ⟨by simp, fun c hc => ?_⟩
      rw [List.mem_append, List.mem_append, List.mem_singleton] at hc
      rcases hc with (hc | rfl) | hc
      · exact hd c hc
      · rfl
      · exact hexp c hc
    · refine ⟨by simp, fun c hc => ?_⟩
      rw [List.mem_append, List.mem_append, List.mem_append, List.mem_append, List.mem_singleton,
        List.mem_singleton] at hc
      rcases hc with (((hc | rfl) | hc) | rfl) | hc
      · exact htake _ c hc
      · rfl
      · exact hdrop _ c hc
      · rfl
      · exact hexp c hc

theorem numText_neg {t : Str} (h : NumText t) (neg : Prop) [Decidable neg] :
    NumText (if neg then 45 :: t else t) := by
  split
  · refine ⟨by simp, fun c hc => ?_⟩
    rcases List.mem_cons.mp hc with rfl | hc
    · rfl
    · exact h.2 c hc
  · exact h

theorem isNumChar_shortest (q : Rat) (n : Nat) : ∀ c ∈ (PyFloat.shortest q n).1,
    isNumChar c = true := by
  induction n with
  | zero => exact fun c hc => isNumChar_ofNat hc
  | succ n ih =>
    intro c hc
    simp only [PyFloat.shortest] at hc
    split at hc
    · exact isNumChar_ofNat ((List.rdropWhile_prefix _ _).subset hc)
    · exact ih c hc

theorem isNumChar_layout {ds : Str} (pt : Int) (hd : ∀ c ∈ ds, isNumChar c = true) :
    ∀ c ∈ PyFloat.layout ds pt, isNumChar c = true := by
  have htake : ∀ m, ∀ c ∈ ds.take m, isNumChar c = true :=
    fun m c hc => hd c (List.mem_of_mem_take hc)
  have hdrop : ∀ m, ∀ c ∈ ds.drop m, isNumChar c = true :=
    fun m c hc => hd c (List.mem_of_mem_drop hc)
  intro c hc
  unfold PyFloat.layout at hc
  split at hc
  · simp only [List.mem_append, List.mem_singleton] at hc
    rcases hc with ((hc | rfl) | hc) | hc
    · split at hc
      · exact hd c hc
      · simp only [List.mem_append, List.mem_singleton] at hc
        rcases hc with (hc | rfl) | hc
        · exact htake _ c hc
        · rfl
        · exact hdrop _ c hc
    · rfl
    · split at hc <;> (rw [hc]; rfl)
    · split at hc
      · rcases List.mem_cons.mp hc with rfl | hc
        · rfl
        · exact isNumChar_ofNat hc
      · exact isNumChar_ofNat hc
  split at hc
  · simp only [List.mem_append] at hc
    rcases hc with (hc | hc) | hc
    · exact (show ∀ c ∈ lit "0.", isNumChar c = true by decide) c hc
    · exact isNumChar_replicate hc
    · exact hd c hc
  split at hc
  · simp only [List.mem_append] at hc
    rcases hc with (hc | hc) | hc
    · exact hd c hc
    · exact isNumChar_replicate hc
    · exact (show ∀ c ∈ lit ".0", isNumChar c = true by decide) c hc
  · simp only [List.mem_append, List.mem_singleton] at hc
    rcases hc with (hc | rfl) | hc
    · exact htake _ c hc
    · rfl
    · exact hdrop _ c hc

theorem isNumChar_repr (q : Rat) : ∀ c ∈ PyFloat.repr q, isNumChar c = true := by
  intro c hc
  simp only [PyFloat.repr] at hc
  have hl : ∀ m : Rat, ∀ c ∈ PyFloat.layout (PyFloat.shortest m 17).1 (PyFloat.shortest m 17).2,
      isNumChar c = true := fun m => isNumChar_layout _ (isNumChar_shortest m 17)
  by_cases hq : q < 0
  · rw [if_pos hq, if_pos hq] at hc
    rcases List.mem_cons.mp hc with rfl | hc
    · rfl
    · exact hl _ c hc
  · rw [if_neg hq, if_neg hq] at hc
    exact hl _ c hc

/-- `s or "0"`. -/
theorem numText_orZero {s : Str} (hs : ∀ c ∈ s, isNumChar c = true) :
    NumText (if s.isEmpty = true then [48] else s) := by
  split
  · exact ⟨by simp, by decide⟩
  · rename_i h
    exact ⟨fun e => h (by rw [e]; rfl), hs⟩

theorem numText_reformat {r : Str} (hr : ∀ c ∈ r, isNumChar c = true) :
    NumText (reformatEcmascript r) := by
  have hr' : ∀ c ∈ (if r.startsWith [45] = true then r.drop 1 else r), isNumChar c = true := by
    intro c hc
    split at hc
    · exact hr c (List.mem_of_mem_drop hc)
    · exact hr c hc
  -- the digits are characters of the mantissa
  have hm : ∀ {s : Str}, (∀ c ∈ s, isNumChar c = true) →
      (∀ c ∈ s.takeWhile (· != 46), isNumChar c = true) ∧
      (∀ c ∈ (s.dropWhile (· != 46)).drop 1, isNumChar c = true) := by
    intro s hs
    exact ⟨fun c hc => hs c ((List.takeWhile_prefix _).subset hc),
      fun c hc => hs c ((List.dropWhile_suffix _).subset (List.mem_of_mem_drop hc))⟩
  unfold reformatEcmascript
  simp only [Str.partition]
  obtain ⟨hi, hf⟩ := hm (s := List.takeWhile (· != 101)
    (if r.startsWith [45] = true then r.drop 1 else r))
    (fun c hc => hr' c ((List.takeWhile_prefix _).subset hc))
  refine numText_neg (numText_assemble _ _ (numText_orZero ?_).1 (numText_orZero ?_).2) _
  all_goals
    intro c hc
    have hc' := (List.dropWhile_suffix _).subset ((List.rdropWhile_prefix _ _).subset hc)
    rcases List.mem_append.mp hc' with hc' | hc'
    · exact hi c hc'
    · exact hf c hc'

theorem numText_ecmascriptDouble {d : PyFloat} {t : Str} (h : ecmascriptDouble d = .ok t) :
    NumText t := by
  unfold ecmascriptDouble at h
  split at h
  · split at h
    · cases h; exact ⟨by simp, by decide⟩
    · cases h; exact numText_reformat (isNumChar_repr _)
  · cases h

theorem numText_numberInt {n : Int} {t : Str} (h : numberInt n = .ok t) : NumText t := by
  unfold numberInt at h
  split at h
  · cases h; exact numText_ofInt n
  · split at h
    · exact numText_ecmascriptDouble h
    · cases h

/-! ## Values -/

/-- A text the serialiser can produce. -/
def IsText (t : Str) : Prop := ∃ d v, serialize d v = .ok t

/-- What may follow a value inside a canonical text: nothing, a comma or a closing bracket. -/
def Ends (r : Str) : Prop := ∀ c t, r = c :: t → c = 44 ∨ c = 93 ∨ c = 125

/-- The text can be cut off what follows it in one way only. -/
def Cut (t : Str) : Prop :=
  ∀ t' r r', IsText t' → Ends r → Ends r' → t ++ r = t' ++ r' → t = t' ∧ r = r'

/-- The kinds of values that a first character tells apart. -/
inductive Kind where
  | null | true | false | string | array | object | number | other
  deriving DecidableEq

/-- The kind a first character announces. -/
def kindOf (c : Nat) : Kind :=
  if c = 110 then .null else if c = 116 then .true else if c = 102 then .false
  else if c = 34 then .string else if c = 91 then .array else if c = 123 then .object
  else if isNumChar c then .number else .other

/-- The kind of a value. -/
def kind : Json → Kind
  | .null => .null
  | .bool b => if b then .true else .false
  | .str _ => .string
  | .arr _ => .array
  | .obj _ => .object
  | .int _ => .number
  | .float _ => .number

theorem kindOf_numChar {c : Nat} (h : isNumChar c = true) : kindOf c = .number := by
  have hne : c ≠ 110 ∧ c ≠ 116 ∧ c ≠ 102 ∧ c ≠ 34 ∧ c ≠ 91 ∧ c ≠ 123 := by
    refine ⟨?_, ?_, ?_, ?_, ?_, ?_⟩ <;> (rintro rfl; cases h)
  simp [kindOf, hne, h]

theorem kindOf_numText {t : Str} (h : NumText t) : ∃ c r, t = c :: r ∧ kindOf c = .number := by
  obtain ⟨c, r, rfl⟩ := List.exists_cons_of_ne_nil h.1
  exact ⟨c, r, rfl, kindOf_numChar (h.2 c List.mem_cons_self)⟩

theorem serialize_arr {d : Nat} {l : List Json} {t : Str} (h : serialize d (.arr l) = .ok t) :
    ∃ parts, serializeList (d + 1) l = .ok parts ∧
      t = 91 :: (List.intercalate [44] parts ++ [93]) := by
  unfold serialize at h
  split at h
  · cases h
  · simp only at h
    split at h
    · rename_i parts hp
      cases h
      exact ⟨parts, hp, rfl⟩
    · cases h

theorem serialize_obj {d : Nat} {m : Dict} {t : Str} (h : serialize d (.obj m) = .ok t) :
    ∃ parts, joinMembers (serializeMembers (d + 1) m) = .ok parts ∧
      t = 123 :: (List.intercalate [44] parts ++ [125]) := by
  unfold serialize at h
  split at h
  · cases h
  · simp only at h
    split at h
    · rename_i parts hp
      cases h
      exact ⟨parts, hp, rfl⟩
    · cases h

theorem serialize_str {d : Nat} {s t : Str} (h : serialize d (.str s) = .ok t) :
    t = escapeString s := by
  unfold serialize at h
  split at h
  · cases h
  · cases h; rfl

theorem serialize_number {d : Nat} {v : Json} {t : Str} (hk : kind v = .number)
    (h : serialize d v = .ok t) : NumText t := by
  unfold serialize at h
  split at h
  · cases h
  · cases v with
    | int n => exact numText_numberInt h
    | float f => exact numText_ecmascriptDouble h
    | bool b => cases b <;> cases hk
    | _ => cases hk

/-- The text of the values written as a keyword. -/
def literalText : Kind → Option Str
  | .null => some "null"
  | .true => some "true"
  | .false => some "false"
  | _ => none

theorem serialize_literal {d : Nat} {v : Json} {t w : Str} (hk : literalText (kind v) = some w)
    (h : serialize d v = .ok t) : t = w := by
  unfold serialize at h
  split at h
  · cases h
  · cases v with
    | null => cases h; cases hk; rfl
    | bool b => cases b <;> (cases h; cases hk; rfl)
    | _ => cases hk

theorem serialize_head {d : Nat} {v : Json} {t : Str} (h : serialize d v = .ok t) :
    ∃ c r, t = c :: r ∧ kindOf c = kind v := by
  cases v with
  | str s => rw [serialize_str h]; exact ⟨34, _, rfl, rfl⟩
  | arr l => obtain ⟨parts, _, rfl⟩ := serialize_arr h; exact ⟨91, _, rfl, rfl⟩
  | obj m => obtain ⟨parts, _, rfl⟩ := serialize_obj h; exact ⟨123, _, rfl, rfl⟩
  | int n => exact kindOf_numText (serialize_number rfl h)
  | float f => exact kindOf_numText (serialize_number rfl h)
  | null =>
    unfold serialize at h
    split at h
    · cases h
    · cases h; exact ⟨110, _, rfl, rfl⟩
  | bool b =>
    unfold serialize at h
    split at h
    · cases h
    · cases b
      · cases h; exact ⟨102, _, rfl, rfl⟩
      · cases h; exact ⟨116, _, rfl, rfl⟩

theorem isText_head {t : Str} (h : IsText t) : ∃ c r, t = c :: r ∧ kindOf c ≠ .other := by
  obtain ⟨d, v, hv⟩ := h
  obtain ⟨c, r, rfl, hk⟩ := serialize_head hv
  refine ⟨c, r, rfl, ?_⟩
  rw [hk]
  cases v with
  | bool b => cases b <;> decide
  | _ => simp [kind]

theorem numText_cut {t t' r r' : Str} (ht : NumText t) (ht' : NumText t') (hr : Ends r)
    (hr' : Ends r') (h : t ++ r = t' ++ r') : t = t' ∧ r = r' := by
  have key : ∀ {t r : Str}, NumText t → Ends r → (t ++ r).takeWhile isNumChar = t := by
    intro t r ht hr
    rw [List.takeWhile_append_of_pos ht.2]
    cases r with
    | nil => simp
    | cons c r =>
      have : isNumChar c = false := by
        rcases hr c r rfl with rfl | rfl | rfl <;> rfl
      simp [this]
  have e : t = t' := by rw [← key ht hr, h, key ht' hr']
  subst e
  exact ⟨rfl, List.append_cancel_left h⟩

theorem intercalate_cons (p : Str) {ps : List Str} (hne : ps ≠ []) :
    List.intercalate [44] (p :: ps) = p ++ 44 :: List.intercalate [44] ps := by
  cases ps with
  | nil => exact absurd rfl hne
  | cons q ps => simp [List.intercalate]

/-- A comma-separated sequence of parts, each of which can be cut off, is read back from the text
up to its closing bracket. -/
theorem intercalate_inj {Part : Str → Prop} {closer : Nat} (hc : closer = 93 ∨ closer = 125)
    (hne : ∀ p, Part p → ∃ c t, p = c :: t ∧ c ≠ closer) {ps ps' : List Str}
    (hcut : ∀ p ∈ ps, ∀ p' r r', Part p' → Ends r → Ends r' → p ++ r = p' ++ r' →
      p = p' ∧ r = r')
    (hp : ∀ p ∈ ps, Part p) (hp' : ∀ p ∈ ps', Part p) {r r' : Str}
    (h : List.intercalate [44] ps ++ closer :: r = List.intercalate [44] ps' ++ closer :: r') :
    ps = ps' ∧ r = r' := by
  have hcomma : ∀ t, Ends (44 :: t) := by
    intro t c u e; cases e; exact .inl rfl
  have hclose : ∀ t, Ends (closer :: t) := by
    intro t c u e; cases e; exact .inr hc
  have hempty : ∀ {q : Str} {qs : List Str} {s s' : Str}, Part q →
      closer :: s ≠ List.intercalate [44] (q :: qs) ++ closer :: s' := by
    intro q qs s s' hq e
    obtain ⟨c, t, rfl, hcc⟩ := hne q hq
    cases qs with
    | nil =>
      simp only [List.intercalate, List.intersperse, List.flatten_cons, List.flatten_nil,
        List.append_nil, List.cons_append, List.cons.injEq] at e
      exact hcc e.1.symm
    | cons q' qs =>
      rw [intercalate_cons _ (by simp)] at e
      simp only [List.cons_append, List.cons.injEq] at e
      exact hcc e.1.symm
  induction ps generalizing ps' with
  | nil =>
    cases ps' with
    | nil => exact ⟨rfl, by simpa using h⟩
    | cons q' qs' => exact absurd h (hempty (hp' q' (by simp)))
  | cons q qs ih =>
    cases ps' with
    | nil => exact absurd h.symm (hempty (hp q (by simp)))
    | cons q' qs' =>
      have hq' : Part q' := hp' q' (by simp)
      have split : ∀ (a : Str) (as : List Str) (s : Str), ∃ u, Ends u ∧
          List.intercalate [44] (a :: as) ++ closer :: s = a ++ u ∧
          (as = [] → u = closer :: s) ∧
          (as ≠ [] → u = 44 :: (List.intercalate [44] as ++ closer :: s)) := by
        intro a as s
        by_cases has : as = []
        · subst has
          exact ⟨closer :: s, hclose s, by simp [List.intercalate], fun _ => rfl,
            fun e => absurd rfl e⟩
        · refine ⟨44 :: (List.intercalate [44] as ++ closer :: s), hcomma _, ?_, fun e => absurd e has,
            fun _ => rfl⟩
          rw [intercalate_cons _ has]; simp
      obtain ⟨u, hu, eu, hu0, hu1⟩ := split q qs r
      obtain ⟨u', hu', eu', hu0', hu1'⟩ := split q' qs' r'
      rw [eu, eu'] at h
      obtain ⟨rfl, rfl⟩ := hcut q (by simp) q' u u' hq' hu hu' h
      have hne44 : (44 : Nat) ≠ closer := by rcases hc with rfl | rfl <;> decide
      by_cases hqs : qs = []
      · by_cases hqs' : qs' = []
        · have e := (hu0 hqs).symm.trans (hu0' hqs')
          subst hqs; subst hqs'
          exact ⟨rfl, by simpa using e⟩
        · have e := (hu0 hqs).symm.trans (hu1' hqs')
          exact absurd (List.cons.inj e).1.symm hne44
      · by_cases hqs' : qs' = []
        · have e := (hu1 hqs).symm.trans (hu0' hqs')
          exact absurd (List.cons.inj e).1 hne44
        · have e := (hu1 hqs).symm.trans (hu1' hqs')
          obtain ⟨rfl, hr⟩ := ih (fun p hp => hcut p (by simp [hp])) (fun p h => hp p (by simp [h]))
            (fun p h => hp' p (by simp [h])) (List.cons.inj e).2
          exact ⟨rfl, hr⟩

/-! ## Members -/

/-- The text of a member. -/
def memberText (k t : Str) : Str := escapeString k ++ [58] ++ t

/-- A text of a member whose value the serialiser can produce. -/
def IsMember (p : Str) : Prop := ∃ k t, IsText t ∧ p = memberText k t

theorem memberText_append_inj {k k' t t' r r' : Str}
    (h : memberText k t ++ r = memberText k' t' ++ r') : k = k' ∧ t ++ r = t' ++ r' := by
  simp only [memberText, List.append_assoc] at h
  obtain ⟨rfl, h'⟩ := escapeString_append_inj h
  exact ⟨rfl, by simpa using h'⟩

theorem joinMembers_eq_ok {l : List (Str × Result Str)} {parts : List Str}
    (h : joinMembers l = .ok parts) :
    List.Forall₂ (fun p part => ∃ t, p.2 = .ok t ∧ part = memberText p.1 t)
      (l.insertionSort memberLe) parts := by
  refine (collect_eq_ok.mp h).imp fun p part hp => ?_
  split at hp
  · rename_i t ht
    cases hp
    exact ⟨t, ht, rfl⟩
  · cases hp

theorem serializeList_isText {d : Nat} {l : List Json} {parts : List Str}
    (h : serializeList d l = .ok parts) : ∀ t ∈ parts, IsText t := by
  induction l generalizing parts with
  | nil => cases h; simp
  | cons v l ih =>
    simp only [serializeList] at h
    split at h
    · cases h
    · rename_i s hs
      split at h
      · cases h
      · rename_i r hr
        cases h
        intro t ht
        rcases List.mem_cons.mp ht with rfl | ht
        · exact ⟨d, v, hs⟩
        · exact ih hr t ht

theorem mem_serializeMembers {d : Nat} {m : Dict} {p : Str × Result Str}
    (h : p ∈ serializeMembers d m) : ∃ v, (p.1, v) ∈ m ∧ p.2 = serialize d v := by
  induction m with
  | nil => cases h
  | cons q m ih =>
    obtain ⟨k, v⟩ := q
    rcases List.mem_cons.mp h with rfl | h
    · exact ⟨v, List.mem_cons_self, rfl⟩
    · obtain ⟨w, hw, e⟩ := ih h
      exact ⟨w, List.mem_cons_of_mem _ hw, e⟩

/-- The parts of an object are members, each from a value of the object. -/
theorem joinMembers_parts {d : Nat} {m : Dict} {parts : List Str}
    (h : joinMembers (serializeMembers d m) = .ok parts) :
    ∀ part ∈ parts, ∃ k v t, (k, v) ∈ m ∧ serialize d v = .ok t ∧ part = memberText k t := by
  intro part hpart
  obtain ⟨i, hi, rfl⟩ := List.getElem_of_mem hpart
  have hf := joinMembers_eq_ok h
  have hi' : i < ((serializeMembers d m).insertionSort memberLe).length := hf.length_eq ▸ hi
  obtain ⟨t, ht, e⟩ := hf.get hi' hi
  have hmem := List.getElem_mem hi'
  rw [List.mem_insertionSort] at hmem
  obtain ⟨v, hv, ev⟩ := mem_serializeMembers hmem
  exact ⟨_, v, t, hv, ev ▸ ht, e⟩

theorem joinMembers_isMember {d : Nat} {m : Dict} {parts : List Str}
    (h : joinMembers (serializeMembers d m) = .ok parts) : ∀ part ∈ parts, IsMember part := by
  intro part hpart
  obtain ⟨k, v, t, _, ht, e⟩ := joinMembers_parts h part hpart
  exact ⟨k, t, ⟨d, v, ht⟩, e⟩

theorem isText_ne_bracket {t : Str} (h : IsText t) : ∃ c r, t = c :: r ∧ c ≠ 93 := by
  obtain ⟨c, r, rfl, hk⟩ := isText_head h
  exact ⟨c, r, rfl, by rintro rfl; exact hk rfl⟩

theorem isMember_ne_brace {p : Str} (h : IsMember p) : ∃ c r, p = c :: r ∧ c ≠ 125 := by
  obtain ⟨k, t, _, rfl⟩ := h
  exact ⟨34, _, rfl, by decide⟩

mutual

theorem serialize_cut : ∀ (v : Json) {d : Nat} {t : Str}, serialize d v = .ok t → Cut t
  | v, d, t, h => by
    intro t' r r' ht' hr hr' e
    obtain ⟨d', v', hv'⟩ := ht'
    -- equal first characters, so values of one kind
    have hkind : kind v = kind v' := by
      obtain ⟨c, u, rfl, hk⟩ := serialize_head h
      obtain ⟨c', u', rfl, hk'⟩ := serialize_head hv'
      rw [← hk, ← hk', (List.cons.inj e).1]
    match v, h with
    | .null, h | .bool true, h | .bool false, h =>
      have et := serialize_literal rfl h
      have et' := serialize_literal ((congrArg literalText hkind).symm.trans rfl) hv'
      rw [et, et'] at e ⊢
      exact ⟨rfl, List.append_cancel_left e⟩
    | .int _, h | .float _, h =>
      exact numText_cut (serialize_number rfl h) (serialize_number hkind.symm hv') hr hr' e
    | .str s, h =>
      cases v' with
      | str s' =>
        rw [serialize_str h, serialize_str hv'] at e ⊢
        obtain ⟨rfl, hrest⟩ := escapeString_append_inj e
        exact ⟨rfl, hrest⟩
      | bool b => cases b <;> cases hkind
      | _ => cases hkind
    | .arr l, h =>
      cases v' with
      | arr l' =>
        obtain ⟨parts, hp, rfl⟩ := serialize_arr h
        obtain ⟨parts', hp', rfl⟩ := serialize_arr hv'
        simp only [List.cons_append, List.append_assoc, List.nil_append, List.cons.injEq,
          true_and] at e
        obtain ⟨rfl, rfl⟩ := intercalate_inj (.inl rfl) (fun _ => isText_ne_bracket)
          (fun p hmem p' r r' hp' hr hr' e => serializeList_cut l hp p hmem p' r r' hp' hr hr' e)
          (serializeList_isText hp) (serializeList_isText hp') e
        exact ⟨rfl, rfl⟩
      | bool b => cases b <;> cases hkind
      | _ => cases hkind
    | .obj m, h =>
      cases v' with
      | obj m' =>
        obtain ⟨parts, hp, rfl⟩ := serialize_obj h
        obtain ⟨parts', hp', rfl⟩ := serialize_obj hv'
        simp only [List.cons_append, List.append_assoc, List.nil_append, List.cons.injEq,
          true_and] at e
        obtain ⟨rfl, rfl⟩ := intercalate_inj (.inr rfl) (fun _ => isMember_ne_brace)
          (fun p hmem p' r r' hp' hr hr' e => by
            obtain ⟨k, v, t, hv, ht, rfl⟩ := joinMembers_parts hp p hmem
            obtain ⟨k', t', ht', rfl⟩ := hp'
            obtain ⟨rfl, hrest⟩ := memberText_append_inj e
            obtain ⟨rfl, rfl⟩ := serializeMembers_cut m hv ht t' r r' ht' hr hr' hrest
            exact ⟨rfl, rfl⟩)
          (joinMembers_isMember hp) (joinMembers_isMember hp') e
        exact ⟨rfl, rfl⟩
      | bool b => cases b <;> cases hkind
      | _ => cases hkind

theorem serializeList_cut : ∀ (l : List Json) {d : Nat} {parts : List Str},
    serializeList d l = .ok parts → ∀ t ∈ parts, Cut t
  | [], _, _, h => by cases h; simp
  | v :: l, d, parts, h => by
    simp only [serializeList] at h
    split at h
    · cases h
    · rename_i s hs
      split at h
      · cases h
      · rename_i r hr
        cases h
        intro t ht
        rcases List.mem_cons.mp ht with rfl | ht
        · exact serialize_cut v hs
        · exact serializeList_cut l hr t ht

theorem serializeMembers_cut : ∀ (m : List (Str × Json)) {d : Nat} {k : Str} {v : Json} {t : Str},
    (k, v) ∈ m → serialize d v = .ok t → Cut t
  | [], _, _, _, _, hv, _ => by cases hv
  | (k', v') :: m, d, k, v, t, hv, ht => by
    rcases List.mem_cons.mp hv with e | hv
    · cases e; exact serialize_cut v' ht
    · exact serializeMembers_cut m hv ht

end

/-- Equal canonical texts of two objects have the same members: the same names, and texts of the
values that agree one by one. -/
theorem serialize_obj_inj {d d' : Nat} {m m' : Dict} {t : Str} (h : serialize d (.obj m) = .ok t)
    (h' : serialize d' (.obj m') = .ok t) :
    (serializeMembers (d + 1) m).insertionSort memberLe =
      (serializeMembers (d' + 1) m').insertionSort memberLe := by
  obtain ⟨parts, hp, rfl⟩ := serialize_obj h
  obtain ⟨parts', hp', e⟩ := serialize_obj h'
  simp only [List.cons.injEq, true_and] at e
  obtain ⟨rfl, _⟩ := intercalate_inj (.inr rfl) (fun _ => isMember_ne_brace)
    (fun p hmem p' r r' hpm hr hr' e => by
      obtain ⟨k, v, t, _, ht, rfl⟩ := joinMembers_parts hp p hmem
      obtain ⟨k', t', ht', rfl⟩ := hpm
      obtain ⟨rfl, hrest⟩ := memberText_append_inj e
      obtain ⟨rfl, rfl⟩ := serialize_cut v ht t' r r' ht' hr hr' hrest
      exact ⟨rfl, rfl⟩)
    (joinMembers_isMember hp) (joinMembers_isMember hp') e
  have key : ∀ {l l' : List (Str × Result Str)} {ps : List Str},
      List.Forall₂ (fun p part => ∃ t, p.2 = .ok t ∧ part = memberText p.1 t) l ps →
      List.Forall₂ (fun p part => ∃ t, p.2 = .ok t ∧ part = memberText p.1 t) l' ps → l = l' := by
    intro l l' ps hl hl'
    induction hl generalizing l' with
    | nil => cases hl'; rfl
    | @cons p part l ps hpp _ ih =>
      cases hl' with
      | @cons p' _ l' _ hpp' hl' =>
        obtain ⟨t, ht, rfl⟩ := hpp
        obtain ⟨t', ht', e⟩ := hpp'
        have e' : memberText p.1 t ++ [] = memberText p'.1 t' ++ [] := by simpa using e
        obtain ⟨ek, et⟩ := memberText_append_inj e'
        simp only [List.append_nil] at et
        rw [ih hl', show p = p' from Prod.ext ek (by rw [ht, ht', et])]
  exact key (joinMembers_eq_ok hp) (joinMembers_eq_ok hp')

/-! ## Replacing one member -/

/-- Replace the outcome of the members called `k`. -/
def replaceOutcome (k : Str) (o : Result Str) (p : Str × Result Str) : Str × Result Str :=
  if p.1 = k then (k, o) else p

theorem replaceOutcome_fst (k : Str) (o : Result Str) (p : Str × Result Str) :
    (replaceOutcome k o p).1 = p.1 := by
  unfold replaceOutcome
  split
  · rename_i h; exact h.symm
  · rfl

theorem serializeMembers_set {d : Nat} {m : Dict} {k : Str} {v : Json} (hm : m.keys.Nodup)
    (hk : k ∈ m.keys) :
    serializeMembers d (Dict.set m k v) =
      (serializeMembers d m).map (replaceOutcome k (serialize d v)) := by
  induction m with
  | nil => cases hk
  | cons p m ih =>
    obtain ⟨k', v'⟩ := p
    rw [Dict.keys_cons, List.nodup_cons] at hm
    simp only [Dict.set]
    split
    · rename_i e
      subst e
      simp only [serializeMembers, List.map_cons, replaceOutcome, if_true]
      congr 1
      symm
      -- the name is not among the rest, so nothing else is replaced
      refine (List.map_congr_left fun q hq => ?_).trans (List.map_id _)
      obtain ⟨w, hw, _⟩ := mem_serializeMembers hq
      have hq' : q.1 ≠ k' := fun e => hm.1 (List.mem_map.mpr ⟨_, hw, e⟩)
      exact if_neg hq'
    · rename_i hne
      have hk' : k ∈ Dict.keys m := by
        rcases List.mem_cons.mp hk with e | hk
        · exact absurd e.symm hne
        · exact hk
      simp only [serializeMembers, List.map_cons, ih hm.2 hk']
      rw [show replaceOutcome k (serialize d v) (k', serialize d v') = (k', serialize d v') from
        if_neg hne]

theorem mem_serializeMembers_set {d : Nat} {k : Str} {v : Json} (m : Dict) :
    (k, serialize d v) ∈ serializeMembers d (Dict.set m k v) := by
  induction m with
  | nil => exact List.mem_cons_self
  | cons p m ih =>
    obtain ⟨k', v'⟩ := p
    simp only [Dict.set]
    split
    · rename_i e
      rw [e]
      exact List.mem_cons_self
    · exact List.mem_cons_of_mem _ ih

theorem insertionSort_replaceOutcome (k : Str) (o : Result Str) (l : List (Str × Result Str)) :
    (l.map (replaceOutcome k o)).insertionSort memberLe =
      (l.insertionSort memberLe).map (replaceOutcome k o) := by
  refine (List.map_insertionSort memberLe memberLe _ l fun a _ b _ => ?_).symm
  rw [memberLe, memberLe, replaceOutcome_fst, replaceOutcome_fst]

theorem set_get?_self {m : Dict} {k : Str} {u : Json} (h : m.get? k = some u) :
    Dict.set m k u = m := by
  induction m with
  | nil => cases h
  | cons p m ih =>
    rw [Dict.get?_cons] at h
    simp only [Dict.set]
    split
    · rename_i e
      rw [if_pos e] at h
      rw [← Option.some.inj h]
    · rename_i e
      rw [if_neg e] at h
      rw [ih h]

/-- Two objects that hold one and the same value under `k` have equal texts once their texts agree
with that member replaced, and the replacements have equal texts too. -/
theorem serialize_set_inj {d : Nat} {m m' : Dict} {k : Str} {u v v' : Json} {t : Str}
    (hm : m.keys.Nodup) (hm' : m'.keys.Nodup) (hk : m.get? k = some u) (hk' : m'.get? k = some u)
    (h : serialize d (.obj (Dict.set m k v)) = .ok t)
    (h' : serialize d (.obj (Dict.set m' k v')) = .ok t) :
    serialize (d + 1) v = serialize (d + 1) v' ∧ serialize d (.obj m) = serialize d (.obj m') := by
  have hmem : ∀ {m : Dict}, m.get? k = some u → k ∈ m.keys := by
    intro m h
    exact List.mem_map.mpr ⟨_, Dict.mem_of_get?_eq_some h, rfl⟩
  have e := serialize_obj_inj h h'
  rw [serializeMembers_set hm (hmem hk), serializeMembers_set hm' (hmem hk'),
    insertionSort_replaceOutcome, insertionSort_replaceOutcome] at e
  have hover : ∀ (o o' : Result Str) (l : List (Str × Result Str)),
      (l.map (replaceOutcome k o)).map (replaceOutcome k o') = l.map (replaceOutcome k o') := by
    intro o o' l
    rw [List.map_map]
    refine List.map_congr_left fun p _ => ?_
    simp only [Function.comp, replaceOutcome]
    split <;> simp [*]
  have hself : ∀ {m : Dict}, m.keys.Nodup → m.get? k = some u →
      ((serializeMembers (d + 1) m).insertionSort memberLe).map
        (replaceOutcome k (serialize (d + 1) u)) =
      (serializeMembers (d + 1) m).insertionSort memberLe := by
    intro m hn hg
    rw [← insertionSort_replaceOutcome, ← serializeMembers_set hn (hmem hg), set_get?_self hg]
  constructor
  · -- the replaced member is in both lists, and its name is there once
    have hin : (k, serialize (d + 1) v) ∈
        ((serializeMembers (d + 1) m).insertionSort memberLe).map
          (replaceOutcome k (serialize (d + 1) v)) := by
      rw [← insertionSort_replaceOutcome, List.mem_insertionSort, ← serializeMembers_set hm (hmem hk)]
      exact mem_serializeMembers_set m
    rw [e, List.mem_map] at hin
    obtain ⟨p, _, hp⟩ := hin
    have hpk : p.1 = k := by
      rw [← replaceOutcome_fst k (serialize (d + 1) v') p, hp]
    rw [replaceOutcome, if_pos hpk] at hp
    exact (congrArg Prod.snd hp).symm
  · have hsort : (serializeMembers (d + 1) m).insertionSort memberLe =
        (serializeMembers (d + 1) m').insertionSort memberLe := by
      rw [← hself hm hk, ← hself hm' hk', ← hover (serialize (d + 1) v) (serialize (d + 1) u), e,
        hover]
    unfold serialize
    simp only [joinMembers, hsort]

theorem canonicalize_eq_ok {v : Json} {b : Bytes} :
    canonicalize v = .ok b ↔ ∃ t, serialize 0 v = .ok t ∧ Codec.encodeUtf8 t = some b := by
  simp only [canonicalize, bind_eq_ok, orRaise_eq_ok]

/-- Two objects with the same value under `k`, whose canonical bytes agree once `k` is set to the
strings `p` and `p'`: the strings are the same, and so are the objects' own canonical bytes. -/
theorem canonicalize_set_inj {m m' : Dict} {k p p' : Str} {u : Json} {b : Bytes}
    (hm : m.keys.Nodup) (hm' : m'.keys.Nodup) (hk : m.get? k = some u) (hk' : m'.get? k = some u)
    (h : canonicalize (.obj (Dict.set m k (.str p))) = .ok b)
    (h' : canonicalize (.obj (Dict.set m' k (.str p'))) = .ok b) :
    p = p' ∧ canonicalize (.obj m) = canonicalize (.obj m') := by
  obtain ⟨t, ht, hb⟩ := canonicalize_eq_ok.mp h
  obtain ⟨t', ht', hb'⟩ := canonicalize_eq_ok.mp h'
  obtain rfl := Codec.encodeUtf8_inj hb hb'
  obtain ⟨hv, hobj⟩ := serialize_set_inj hm hm' hk hk' ht ht'
  refine ⟨?_, by simp only [canonicalize, hobj]⟩
  have hs : ∀ q : Str, serialize 1 (.str q) = .ok (escapeString q) := fun q => rfl
  rw [hs, hs] at hv
  have he : escapeString p ++ [] = escapeString p' ++ [] := by rw [Except.ok.inj hv]
  exact (escapeString_append_inj he).1

end OpenVC.Jcs
