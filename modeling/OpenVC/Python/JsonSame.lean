import Mathlib.Data.List.Perm.Subperm
import OpenVC.Python.Json

/-!
# Equality of JSON values

Two JSON values are the same when they differ at most in the order of the members of their objects.
Unlike Python's `==`, this keeps `true` apart from `1`.
-/

namespace Python.Json

mutual

/-- Equality of JSON values: the order of members does not count, and `true` is not `1`. -/
def Same : Json → Json → Prop
  | .null, .null => True
  | .bool a, .bool b => a = b
  | .int a, .int b => a = b
  | .float a, .float b => a = b
  | .str a, .str b => a = b
  | .arr l, .arr l' => SameList l l'
  | .obj m, .obj m' => m.length = m'.length ∧ SameMembers m m'
  | _, _ => False

/-- Equality of arrays, element by element. -/
def SameList : List Json → List Json → Prop
  | [], [] => True
  | v :: t, w :: t' => Same v w ∧ SameList t t'
  | _, _ => False

/-- Every member is a member of the other object too, with an equal value. -/
def SameMembers : List (Str × Json) → Dict → Prop
  | [], _ => True
  | (k, v) :: t, m' => (∃ w, m'.get? k = some w ∧ Same v w) ∧ SameMembers t m'

end

theorem sameMembers_iff {m m' : Dict} :
    SameMembers m m' ↔ ∀ p ∈ m, ∃ w, m'.get? p.1 = some w ∧ Same p.2 w := by
  induction m with
  | nil => simp [SameMembers]
  | cons p m ih =>
    obtain ⟨k, v⟩ := p
    rw [SameMembers, ih]
    simp

theorem mem_keys_of_subset {m m' : Dict} (hm : m.keys.Nodup) (hlen : m'.length ≤ m.length)
    (h : ∀ k ∈ m.keys, k ∈ m'.keys) {k : Str} (hk : k ∈ m'.keys) : k ∈ m.keys := by
  have hperm : m.keys.Perm m'.keys :=
    (List.subperm_of_subset hm h).perm_of_length_le (by simpa [Dict.keys] using hlen)
  exact hperm.mem_iff.mpr hk

/-- The members of equal objects, name by name. -/
theorem same_obj_iff {m m' : Dict} (hm : m.keys.Nodup) (hm' : m'.keys.Nodup) :
    Same (.obj m) (.obj m') ↔ (∀ k, m.get? k = none ↔ m'.get? k = none) ∧
      ∀ k v w, m.get? k = some v → m'.get? k = some w → Same v w := by
  rw [Same, sameMembers_iff]
  constructor
  · rintro ⟨hlen, h⟩
    have hsub : ∀ k ∈ m.keys, k ∈ m'.keys := by
      intro k hk
      obtain ⟨p, hp, rfl⟩ := List.mem_map.mp hk
      obtain ⟨w, hw, -⟩ := h p hp
      exact List.mem_map.mpr ⟨_, Dict.mem_of_get?_eq_some hw, rfl⟩
    refine ⟨fun k => ?_, fun k v w hv hw => ?_⟩
    · rw [Dict.get?_eq_none_iff, Dict.get?_eq_none_iff, not_iff_not]
      exact ⟨hsub k, mem_keys_of_subset hm hlen.ge hsub⟩
    · obtain ⟨w', hw', hsame⟩ := h _ (Dict.mem_of_get?_eq_some hv)
      rw [hw] at hw'
      cases hw'
      exact hsame
  · rintro ⟨hnone, hsame⟩
    have hkeys : m.keys.Perm m'.keys := by
      rw [List.perm_ext_iff_of_nodup hm hm']
      intro k
      have := hnone k
      rw [Dict.get?_eq_none_iff, Dict.get?_eq_none_iff, not_iff_not] at this
      exact this
    refine ⟨by simpa [Dict.keys] using hkeys.length_eq, fun p hp => ?_⟩
    have hv := Dict.get?_of_mem hm (v := p.2) hp
    cases hw : m'.get? p.1 with
    | none =>
      rw [(hnone p.1).mpr hw] at hv
      cases hv
    | some w => exact ⟨w, rfl, hsame _ _ _ hv hw⟩

mutual

theorem Same.refl : ∀ (v : Json), v.WF → Same v v
  | .null, _ => trivial
  | .bool _, _ | .int _, _ | .float _, _ | .str _, _ => rfl
  | .arr l, h => SameList.refl l h
  | .obj m, h => by
    refine ⟨rfl, sameMembers_iff.mpr fun p hp => ⟨p.2, Dict.get?_of_mem h.1 hp, ?_⟩⟩
    exact Same.refl_members m h.2 p hp

theorem SameList.refl : ∀ (l : List Json), WFList l → SameList l l
  | [], _ => trivial
  | v :: t, h => ⟨Same.refl v h.1, SameList.refl t h.2⟩

theorem Same.refl_members : ∀ (m : List (Str × Json)), WFMembers m → ∀ p ∈ m, Same p.2 p.2
  | [], _, _, hp => by cases hp
  | (k, v) :: t, h, p, hp => by
    rcases List.mem_cons.mp hp with rfl | hp
    · exact Same.refl v h.1
    · exact Same.refl_members t h.2 p hp

end

mutual

theorem Same.symm : ∀ {v w : Json}, v.WF → w.WF → Same v w → Same w v
  | .null, w, _, _, h => by
    cases w
    · trivial
    all_goals cases h
  | .bool _, w, _, _, h => by cases w <;> first | (cases h; rfl) | cases h
  | .int _, w, _, _, h => by cases w <;> first | (cases h; rfl) | cases h
  | .float _, w, _, _, h => by cases w <;> first | (cases h; rfl) | cases h
  | .str _, w, _, _, h => by cases w <;> first | (cases h; rfl) | cases h
  | .arr l, w, hv, hw, h => by
    cases w with
    | arr l' => exact SameList.symm hv hw h
    | _ => cases h
  | .obj m, w, hv, hw, h => by
    cases w with
    | obj m' =>
      obtain ⟨hnone, hsame⟩ := (same_obj_iff hv.1 hw.1).mp h
      refine (same_obj_iff hw.1 hv.1).mpr ⟨fun k => (hnone k).symm, fun k w v hk hk' => ?_⟩
      have hmem := Dict.mem_of_get?_eq_some hk
      exact Same.symm_members hv.2 _ (Dict.mem_of_get?_eq_some hk') (wfMembers_iff.mp hw.2 _ hmem)
        (hsame k v w hk' hk)
    | _ => cases h

theorem SameList.symm : ∀ {l l' : List Json}, WFList l → WFList l' → SameList l l' → SameList l' l
  | [], [], _, _, _ => trivial
  | [], _ :: _, _, _, h => by cases h
  | _ :: _, [], _, _, h => by cases h
  | _ :: _, _ :: _, hl, hl', h =>
    ⟨Same.symm hl.1 hl'.1 h.1, SameList.symm hl.2 hl'.2 h.2⟩

theorem Same.symm_members : ∀ {m : List (Str × Json)}, WFMembers m → ∀ p ∈ m, ∀ {w : Json}, w.WF →
    Same p.2 w → Same w p.2
  | [], _, _, hp, _, _, _ => by cases hp
  | (k, v) :: t, h, p, hp, w, hw, hs => by
    rcases List.mem_cons.mp hp with rfl | hp
    · exact Same.symm h.1 hw hs
    · exact Same.symm_members h.2 p hp hw hs

end

mutual

theorem Same.trans : ∀ {u v w : Json}, u.WF → v.WF → w.WF → Same u v → Same v w → Same u w
  | .null, v, w, _, _, _, h, h' => by
    cases v
    · exact h'
    all_goals cases h
  | .bool _, v, w, _, _, _, h, h' => by
    cases v <;> first | (cases h; exact h') | cases h
  | .int _, v, w, _, _, _, h, h' => by
    cases v <;> first | (cases h; exact h') | cases h
  | .float _, v, w, _, _, _, h, h' => by
    cases v <;> first | (cases h; exact h') | cases h
  | .str _, v, w, _, _, _, h, h' => by
    cases v <;> first | (cases h; exact h') | cases h
  | .arr l, v, w, hu, hv, hw, h, h' => by
    cases v with
    | arr l' =>
      cases w with
      | arr l'' => exact SameList.trans hu hv hw h h'
      | _ => cases h'
    | _ => cases h
  | .obj m, v, w, hu, hv, hw, h, h' => by
    cases v with
    | obj m' =>
      cases w with
      | obj m'' =>
        obtain ⟨hnone, hsame⟩ := (same_obj_iff hu.1 hv.1).mp h
        obtain ⟨hnone', hsame'⟩ := (same_obj_iff hv.1 hw.1).mp h'
        refine (same_obj_iff hu.1 hw.1).mpr ⟨fun k => (hnone k).trans (hnone' k),
          fun k u w hk hk'' => ?_⟩
        cases hk' : Dict.get? m' k with
        | none =>
          rw [(hnone k).mpr hk'] at hk
          cases hk
        | some v =>
          have hwf : ∀ {d : Dict} {x : Json}, WFMembers d → d.get? k = some x → x.WF :=
            fun hd hx => wfMembers_iff.mp hd _ (Dict.mem_of_get?_eq_some hx)
          exact Same.trans_members hu.2 _ (Dict.mem_of_get?_eq_some hk) (hwf hv.2 hk')
            (hwf hw.2 hk'') (hsame k u v hk hk') (hsame' k v w hk' hk'')
      | _ => cases h'
    | _ => cases h

theorem SameList.trans : ∀ {l l' l'' : List Json}, WFList l → WFList l' → WFList l'' →
    SameList l l' → SameList l' l'' → SameList l l''
  | [], [], [], _, _, _, _, _ => trivial
  | [], _ :: _, _, _, _, _, h, _ => by cases h
  | _ :: _, [], _, _, _, _, h, _ => by cases h
  | _, [], _ :: _, _, _, _, _, h => by cases h
  | _, _ :: _, [], _, _, _, _, h => by cases h
  | _ :: _, _ :: _, _ :: _, hl, hl', hl'', h, h' =>
    ⟨Same.trans hl.1 hl'.1 hl''.1 h.1 h'.1, SameList.trans hl.2 hl'.2 hl''.2 h.2 h'.2⟩

theorem Same.trans_members : ∀ {m : List (Str × Json)}, WFMembers m → ∀ p ∈ m, ∀ {v w : Json},
    v.WF → w.WF → Same p.2 v → Same v w → Same p.2 w
  | [], _, _, hp, _, _, _, _, _, _ => by cases hp
  | (k, u) :: t, h, p, hp, v, w, hv, hw, hs, hs' => by
    rcases List.mem_cons.mp hp with rfl | hp
    · exact Same.trans h.1 hv hw hs hs'
    · exact Same.trans_members h.2 p hp hv hw hs hs'

end

end Python.Json

namespace Python

/-! ## The value of a document

What a decoded document denotes, apart from its presentation: an object is a map from names to values,
a number is its magnitude however it was written, and a boolean is not a number. Python's `==` is
coarser (`True == 1`), equality of the decoded trees is finer (the order of members).
-/

/-- A JSON value. -/
inductive JsonValue where
  | null
  | bool (b : Bool)
  | num (x : PyFloat)
  | str (s : Str)
  | arr (l : List JsonValue)
  | obj (m : Str → Option JsonValue)

namespace Json

mutual

/-- The value a document denotes. -/
def value : Json → JsonValue
  | .null => .null
  | .bool b => .bool b
  | .int n => .num (.fin n)
  | .float f => .num f
  | .str s => .str s
  | .arr l => .arr (valueList l)
  | .obj m => .obj (valueMembers m)

/-- The values of the elements of an array. -/
def valueList : List Json → List JsonValue
  | [] => []
  | v :: t => v.value :: valueList t

/-- The values of the members of an object. -/
def valueMembers : List (Str × Json) → Str → Option JsonValue
  | [] => fun _ => none
  | (k, v) :: t => fun k' => if k = k' then some v.value else valueMembers t k'

end

end Json

end Python
