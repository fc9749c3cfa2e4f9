import Mathlib.Algebra.Group.Int.Defs
import Mathlib.Algebra.Group.Nat.Defs
import Mathlib.Data.List.Nodup
import Mathlib.Data.Rat.Defs
import OpenVC.Python.Text

/-!
# Values `json.loads` returns

A decoded JSON document is a value of `Json`. An object is a Python `dict`: its members in
insertion order, no name twice (`Json.WF`). Numbers keep Python's split into `int` and `float`, and
`Json.pyEq` is Python's `==`, under which `True == 1 == 1.0`.
-/

namespace Python

/-- A number on the extended rational line, with `NaN`. A `float` is one whose finite values are
representable in 64 bits; exact integers are compared with floats on the same line. -/
inductive PyFloat where
  | nan
  | posInf
  | negInf
  | fin (q : Rat)
  deriving DecidableEq, Repr

namespace PyFloat

/-- IEEE equality: `NaN` differs from itself. -/
def eq : PyFloat → PyFloat → Bool
  | .posInf, .posInf => true
  | .negInf, .negInf => true
  | .fin a, .fin b => a == b
  | _, _ => false

/-- IEEE `<`. -/
def lt : PyFloat → PyFloat → Bool
  | .negInf, .posInf => true
  | .negInf, .fin _ => true
  | .fin _, .posInf => true
  | .fin a, .fin b => a < b
  | _, _ => false

/-- IEEE `≤`. -/
def le (x y : PyFloat) : Bool := lt x y || eq x y

/-- `math.isfinite`. -/
def isFinite : PyFloat → Bool
  | .fin _ => true
  | _ => false

/-- `⌊log₂ (n / d)⌋` for positive `n` and `d`. -/
def floorLog2 (n d : Nat) : Int :=
  let k : Int := (n.log2 : Int) - (d.log2 : Int)
  if d * 2 ^ k.toNat ≤ n * 2 ^ (-k).toNat then k else k - 1

/-- The integer nearest to `n / d`, ties to even. -/
def roundHalfEven (n d : Nat) : Nat :=
  let q := n / d
  let r := n % d
  if 2 * r < d then q else if d < 2 * r then q + 1 else if q % 2 = 0 then q else q + 1

/-- The double nearest to the magnitude `n / d`, as a rational: 53 significant bits, subnormals
down to `2 ^ -1074`. -/
def roundMagnitude (n d : Nat) : Rat :=
  if n = 0 then 0
  else
    let u : Int := max (floorLog2 n d - 52) (-1074)
    let m := roundHalfEven (n * 2 ^ (-u).toNat) (d * 2 ^ u.toNat)
    mkRat (m * 2 ^ u.toNat) (2 ^ (-u).toNat)

/-- The double nearest to a rational, ties to even; out of range, an infinity. -/
def ofRat (q : Rat) : PyFloat :=
  let m := roundMagnitude q.num.natAbs q.den
  if (2 : Rat) ^ 1024 ≤ m then (if q.num < 0 then .negInf else .posInf)
  else .fin (if q.num < 0 then -m else m)

/-- `float(n)`; `none` is `OverflowError`. -/
def ofInt (n : Int) : Option PyFloat :=
  match ofRat n with
  | .fin q => some (.fin q)
  | _ => none

/-- IEEE `+`. -/
def add : PyFloat → PyFloat → PyFloat
  | .fin a, .fin b => ofRat (a + b)
  | .fin _, .posInf | .posInf, .fin _ | .posInf, .posInf => .posInf
  | .fin _, .negInf | .negInf, .fin _ | .negInf, .negInf => .negInf
  | _, _ => .nan

/-- Floating-point `x - y`. -/
def sub : PyFloat → PyFloat → PyFloat
  | .fin a, .fin b => ofRat (a - b)
  | .fin _, .posInf => .negInf
  | .fin _, .negInf => .posInf
  | .posInf, .fin _ => .posInf
  | .posInf, .negInf => .posInf
  | .negInf, .fin _ => .negInf
  | .negInf, .posInf => .negInf
  | _, _ => .nan

end PyFloat

/-- A value `json.loads` returns. -/
inductive Json where
  | null
  | bool (b : Bool)
  | int (n : Int)
  | float (f : PyFloat)
  | str (s : Str)
  | arr (l : List Json)
  | obj (m : List (Str × Json))
  deriving Inhabited, Repr

/-- The members of an object, in insertion order. -/
abbrev Dict := List (Str × Json)

namespace Dict

/-- `d[k]`, `none` when the key is absent. -/
def get? (d : Dict) (k : Str) : Option Json := d.lookup k

/-- `k in d`. -/
def has (d : Dict) (k : Str) : Bool := (d.get? k).isSome

/-- `d.get(k)`: an absent member reads as `None`, like a `null` one. -/
def get (d : Dict) (k : Str) : Json := (d.get? k).getD .null

/-- `d[k] = v`: in place when the key is there, else at the end. -/
def set : Dict → Str → Json → Dict
  | [], k, v => [(k, v)]
  | (k', v') :: t, k, v => if k' = k then (k', v) :: t else (k', v') :: set t k v

/-- `d` without the member `k`. -/
def erase (d : Dict) (k : Str) : Dict := d.filter fun p => p.1 ≠ k

/-- The member names, in order. -/
def keys (d : Dict) : List Str := d.map Prod.fst

/-- The dict of a list of pairs: a repeated name keeps its place and takes the last value. -/
def ofPairs (l : List (Str × Json)) : Dict := l.foldl (fun d p => Dict.set d p.1 p.2) []

end Dict

namespace Json

/-- The number a value is, `True` and `False` included as Python's `int` subclass has them. -/
def num? : Json → Option PyFloat
  | .bool b => some (.fin (if b then 1 else 0))
  | .int n => some (.fin n)
  | .float f => some f
  | _ => none

mutual

/-- Python's `==`. -/
def pyEq : Json → Json → Bool
  | .null, .null => true
  | .str a, .str b => a == b
  | .arr a, .arr b => pyEqList a b
  | .obj a, .obj b => a.length == b.length && pyEqMembers a b
  | a, b =>
    match num? a, num? b with
    | some x, some y => x.eq y
    | _, _ => false

/-- `==` on lists. -/
def pyEqList : List Json → List Json → Bool
  | [], [] => true
  | a :: s, b :: t => pyEq a b && pyEqList s t
  | _, _ => false

/-- Every member of the first object is a member of the second with an equal value. -/
def pyEqMembers : List (Str × Json) → Dict → Bool
  | [], _ => true
  | (k, v) :: t, d =>
    (match d.lookup k with
      | some w => pyEq v w
      | none => false) && pyEqMembers t d

end

/-- `bool(v)`. -/
def truthy : Json → Bool
  | .null => false
  | .bool b => b
  | .int n => n != 0
  | .float f => !f.eq (.fin 0)
  | .str s => !s.isEmpty
  | .arr l => !l.isEmpty
  | .obj m => !m.isEmpty

/-- `v is None`. -/
def isNull : Json → Bool
  | .null => true
  | _ => false

/-- The string a value is, if it is one. -/
def str? : Json → Option Str
  | .str s => some s
  | _ => none

/-- The members of a value that is an object. -/
def obj? : Json → Option Dict
  | .obj m => some m
  | _ => none

/-- The elements of a value that is an array. -/
def arr? : Json → Option (List Json)
  | .arr l => some l
  | _ => none

/-- The boolean a value is, if it is one. -/
def bool? : Json → Option Bool
  | .bool b => some b
  | _ => none

/-- The integer a value is, a `bool` excluded. -/
def int? : Json → Option Int
  | .int n => some n
  | _ => none

mutual

/-- No object in the value has a member name twice. -/
def WF : Json → Prop
  | .arr l => WFList l
  | .obj m => (m.map Prod.fst).Nodup ∧ WFMembers m
  | _ => True

/-- Every element is well formed. -/
def WFList : List Json → Prop
  | [] => True
  | v :: t => v.WF ∧ WFList t

/-- Every member's value is well formed. -/
def WFMembers : List (Str × Json) → Prop
  | [] => True
  | (_, v) :: t => v.WF ∧ WFMembers t

end

mutual

/-- The number of values in the tree. -/
def nodes : Json → Nat
  | .arr l => nodesList l + 1
  | .obj m => nodesMembers m + 1
  | _ => 1

/-- `nodes`, over a list. -/
def nodesList : List Json → Nat
  | [] => 0
  | v :: t => v.nodes + nodesList t

/-- `nodes`, over the members of an object. -/
def nodesMembers : List (Str × Json) → Nat
  | [] => 0
  | (_, v) :: t => v.nodes + nodesMembers t

end

end Json

/-! ## Well-formed dictionaries -/

theorem lookup_map_snd {α β γ : Type} [BEq α] (f : β → γ) (l : List (α × β)) (a : α) :
    (l.map fun e => (e.1, f e.2)).lookup a = (l.lookup a).map f := by
  induction l with
  | nil => rfl
  | cons e l ih =>
    rw [List.map_cons, List.lookup_cons, List.lookup_cons, ih]
    cases a == e.1 <;> rfl

namespace Dict

variable {d : Dict} {k k' : Str} {v : Json}

@[simp] theorem keys_nil : keys [] = [] := rfl

@[simp] theorem keys_cons (p : Str × Json) (d : Dict) : keys (p :: d) = p.1 :: keys d := rfl

theorem get?_cons (p : Str × Json) (d : Dict) (k : Str) :
    get? (p :: d) k = if p.1 = k then some p.2 else get? d k := by
  obtain ⟨a, v⟩ := p
  by_cases h : a = k
  · simp [get?, h]
  · simp [get?, List.lookup_cons, h, beq_false_of_ne (Ne.symm h)]

@[simp] theorem get?_nil (k : Str) : get? [] k = none := rfl

theorem mem_of_get?_eq_some (h : d.get? k = some v) : (k, v) ∈ d := by
  induction d with
  | nil => cases h
  | cons p d ih =>
    rw [get?_cons] at h
    split at h
    · rename_i hp
      rw [← hp, ← Option.some.inj h]
      exact List.mem_cons_self
    · exact List.mem_cons_of_mem _ (ih h)

/-- A member that does not read as `None` is there. -/
theorem get?_of_get (h : d.get k = v) (hv : v ≠ .null) : d.get? k = some v := by
  rw [get] at h
  cases hk : d.get? k with
  | none =>
    rw [hk] at h
    exact absurd h.symm hv
  | some w =>
    rw [hk] at h
    exact congrArg some h

theorem get?_eq_none_iff : d.get? k = none ↔ k ∉ d.keys := by
  induction d with
  | nil => simp
  | cons p d ih =>
    rw [get?_cons, keys_cons, List.mem_cons]
    split
    · rename_i hp; simp [hp]
    · rename_i hp; rw [ih]; simp [Ne.symm hp]

theorem get?_of_mem (hd : d.keys.Nodup) (h : (k, v) ∈ d) : d.get? k = some v := by
  induction d with
  | nil => cases h
  | cons p d ih =>
    rw [keys_cons, List.nodup_cons] at hd
    rw [get?_cons]
    rcases List.mem_cons.mp h with rfl | h
    · simp
    · have hk : k ∈ keys d := List.mem_map.mpr ⟨_, h, rfl⟩
      have hne : p.1 ≠ k := by
        intro e
        exact hd.1 (e ▸ hk)
      rw [if_neg hne, ih hd.2 h]

theorem has_iff : d.has k = true ↔ k ∈ d.keys := by
  rw [has, Option.isSome_iff_ne_none, Ne, get?_eq_none_iff, not_not]

theorem get?_set (d : Dict) (k k' : Str) (v : Json) :
    (d.set k v).get? k' = if k = k' then some v else d.get? k' := by
  induction d with
  | nil => simp [set, get?_cons]
  | cons p d ih =>
    simp only [set]
    split
    · rename_i hp
      rw [get?_cons, get?_cons, hp]
      split <;> rfl
    · rename_i hp
      rw [get?_cons, ih, get?_cons]
      split
      · rename_i he
        rw [if_neg (fun e => hp (he.trans e.symm))]
      · rfl

theorem keys_set (d : Dict) (k : Str) (v : Json) :
    (d.set k v).keys = if k ∈ d.keys then d.keys else d.keys ++ [k] := by
  induction d with
  | nil => simp [set]
  | cons p d ih =>
    simp only [set]
    by_cases hp : p.1 = k
    · simp [hp]
    · rw [if_neg hp, keys_cons, ih, keys_cons]
      by_cases hk : k ∈ keys d
      · simp [hk]
      · simp [hk, Ne.symm hp]

theorem set_of_not_mem (h : k ∉ d.keys) : d.set k v = d ++ [(k, v)] := by
  induction d with
  | nil => rfl
  | cons p d ih =>
    rw [keys_cons, List.mem_cons, not_or] at h
    rw [set, if_neg (Ne.symm h.1), ih h.2]
    rfl

theorem nodup_keys_set (hd : d.keys.Nodup) : (d.set k v).keys.Nodup := by
  rw [keys_set]
  split
  · exact hd
  · rename_i hk
    rw [List.nodup_append]
    refine ⟨hd, List.nodup_singleton _, ?_⟩
    intro a ha b hb
    rw [List.mem_singleton] at hb
    exact fun e => hk (hb ▸ e ▸ ha)

theorem nodup_keys_erase (hd : d.keys.Nodup) : (d.erase k).keys.Nodup := by
  unfold erase keys at *
  exact List.Nodup.sublist (List.Sublist.map _ List.filter_sublist) hd

theorem erase_of_not_mem (h : k ∉ d.keys) : d.erase k = d := by
  rw [erase, List.filter_eq_self]
  intro p hp
  refine decide_eq_true fun hk => h ?_
  exact List.mem_map.mpr ⟨p, hp, hk⟩

theorem get?_erase (d : Dict) (k k' : Str) :
    (d.erase k).get? k' = if k' = k then none else d.get? k' := by
  induction d with
  | nil => simp [erase]
  | cons p d ih =>
    by_cases hp : p.1 = k
    · have : erase (p :: d) k = erase d k := by simp [erase, hp]
      rw [this, ih, get?_cons]
      by_cases hk : k' = k
      · simp [hk]
      · rw [if_neg hk, if_neg hk, if_neg (fun e => hk (e.symm.trans hp))]
    · have : erase (p :: d) k = p :: erase d k := by simp [erase, hp]
      rw [this, get?_cons, ih, get?_cons]
      by_cases hk : k' = k
      · rw [if_pos hk, if_neg (fun e => hp (e.trans hk))]; simp [hk]
      · simp [hk]

theorem nodup_keys_ofPairs (l : List (Str × Json)) : (ofPairs l).keys.Nodup := by
  have h : ∀ (l : List (Str × Json)) (d : Dict), d.keys.Nodup →
      (l.foldl (fun d p => Dict.set d p.1 p.2) d).keys.Nodup := by
    intro l
    induction l with
    | nil => intro d hd; exact hd
    | cons p l ih => intro d hd; exact ih _ (nodup_keys_set hd)
  exact h l [] List.nodup_nil

end Dict

namespace Json

theorem obj?_eq_some {v : Json} {m : Dict} : v.obj? = some m ↔ v = .obj m := by
  cases v <;> simp [obj?]

theorem str?_eq_some {v : Json} {s : Str} : v.str? = some s ↔ v = .str s := by
  cases v <;> simp [str?]

theorem arr?_eq_some {v : Json} {l : List Json} : v.arr? = some l ↔ v = .arr l := by
  cases v <;> simp [arr?]

theorem pyEq_str {s : Str} {v : Json} : pyEq (.str s) v = true ↔ v = .str s := by
  cases v with
  | str t =>
    simp only [pyEq, beq_iff_eq, str.injEq]
    exact eq_comm
  | _ => simp [pyEq, num?]

theorem pyEq_str_right {s : Str} {v : Json} : pyEq v (.str s) = true ↔ v = .str s := by
  cases v with
  | str t => simp [pyEq]
  | _ => simp [pyEq, num?]

theorem wfList_iff {l : List Json} : WFList l ↔ ∀ v ∈ l, v.WF := by
  induction l with
  | nil => simp [WFList]
  | cons v t ih => simp [WFList, ih]

theorem wfMembers_iff {m : Dict} : WFMembers m ↔ ∀ p ∈ m, p.2.WF := by
  induction m with
  | nil => simp [WFMembers]
  | cons p t ih => obtain ⟨k, v⟩ := p; simp [WFMembers, ih]

theorem wfMembers_set {d : Dict} {k : Str} {v : Json} (hd : WFMembers d) (hv : v.WF) :
    WFMembers (d.set k v) := by
  induction d with
  | nil => exact ⟨hv, trivial⟩
  | cons p d ih =>
    obtain ⟨k', v'⟩ := p
    simp only [Dict.set]
    split
    · exact ⟨hv, hd.2⟩
    · exact ⟨hd.1, ih hd.2⟩

theorem wfMembers_ofPairs {l : List (Str × Json)} (h : WFMembers l) : WFMembers (Dict.ofPairs l) := by
  have key : ∀ (l : List (Str × Json)) (d : Dict), WFMembers l → WFMembers d →
      WFMembers (l.foldl (fun d p => Dict.set d p.1 p.2) d) := by
    intro l
    induction l with
    | nil => intro d _ hd; exact hd
    | cons p l ih =>
      intro d hl hd
      exact ih _ hl.2 (wfMembers_set hd hl.1)
  exact key l [] h trivial

end Json

end Python
