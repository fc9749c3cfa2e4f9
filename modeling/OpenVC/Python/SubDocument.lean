import OpenVC.Python.JsonSame

/-!
# Sub-documents

A path through the objects of a document, the order of sub-documents, and the part of a document that a
set of paths cuts out: everything a path points to, and with each object on the way the members that
are kept in any case. It is the least sub-document that has them.
-/

namespace Python.Json

/-- The value that a path leads to through members of objects. -/
def at? : Json → List Str → Option Json
  | v, [] => some v
  | .obj m, k :: p => (Dict.get? m k).bind (at? · p)
  | _, _ :: _ => none

mutual

/-- Every member of an object is a member of the other, and is within it; all else is the same. -/
def Within : Json → Json → Prop
  | .obj m, .obj m' => WithinMembers m m'
  | .obj _, _ => False
  | v, w => Same v w

/-- `Within`, for the members of an object. -/
def WithinMembers : List (Str × Json) → Dict → Prop
  | [], _ => True
  | (k, v) :: t, m' => (∃ w, m'.get? k = some w ∧ Within v w) ∧ WithinMembers t m'

end

/-- The value is at that place of the document. -/
def Holds (s : Json) (p : List Str) (v : Json) : Prop := ∃ w, s.at? p = some w ∧ Same w v

/-- The document `s` has what the paths lead to in `d`, and of each object on the way the members to
keep; `top` says which members of `d` itself are kept. -/
structure Covers (keep top : Str → Json → Bool) (d : Json) (paths : List (List Str)) (s : Json) :
    Prop where
  pointed : ∀ p ∈ paths, ∀ v, d.at? p = some v → Holds s p v
  kept : ∀ q t rest, q ++ t :: rest ∈ paths → q ≠ [] → ∀ k v, keep k v = true →
    d.at? (q ++ [k]) = some v → Holds s (q ++ [k]) v
  top : ∀ k v, top k v = true → d.at? [k] = some v → Holds s [k] v

/-- What is left of the paths that start with `k`. -/
def tails (k : Str) (paths : List (List Str)) : List (List Str) :=
  paths.filterMap fun
    | x :: rest => if x = k then some rest else none
    | [] => none

mutual

/-- The part of a document that the paths cut out. -/
def cut (keep : Str → Json → Bool) : Json → List (List Str) → Json
  | .obj m, paths => .obj (cutMembers keep m keep paths)
  | v, _ => v

/-- The members that the paths cut out, those in `top` whole. -/
def cutMembers (keep : Str → Json → Bool) : List (Str × Json) → (Str → Json → Bool) →
    List (List Str) → List (Str × Json)
  | [], _, _ => []
  | (k, v) :: m, top, paths =>
    if top k v || (tails k paths).contains [] then (k, v) :: cutMembers keep m top paths
    else if (tails k paths).isEmpty then cutMembers keep m top paths
    else (k, cut keep v (tails k paths)) :: cutMembers keep m top paths

end

/-! ## Paths -/

@[simp] theorem at?_nil (v : Json) : v.at? [] = some v := by cases v <;> rfl

@[simp] theorem at?_obj_cons (m : Dict) (k : Str) (p : List Str) :
    (Json.obj m).at? (k :: p) = (m.get? k).bind (at? · p) := rfl

theorem at?_cons_eq_some {v w : Json} {k : Str} {p : List Str} :
    v.at? (k :: p) = some w ↔ ∃ m u, v = .obj m ∧ Dict.get? m k = some u ∧ u.at? p = some w := by
  cases v with
  | obj m => simp [Option.bind_eq_some_iff]
  | _ => simp [at?]

theorem mem_tails {k : Str} {p : List Str} {paths : List (List Str)} :
    p ∈ tails k paths ↔ k :: p ∈ paths := by
  unfold tails
  rw [List.mem_filterMap]
  constructor
  · rintro ⟨q, hq, h⟩
    split at h
    · split at h
      · rename_i hx
        cases h
        rw [← hx]
        exact hq
      · cases h
    · cases h
  · intro h
    exact ⟨k :: p, h, by simp⟩

theorem wf_of_get? {m : Dict} {k : Str} {v : Json} (hm : (Json.obj m).WF) (h : m.get? k = some v) :
    v.WF :=
  wfMembers_iff.mp hm.2 _ (Dict.mem_of_get?_eq_some h)

theorem wf_of_at? {v w : Json} {p : List Str} (hv : v.WF) (h : v.at? p = some w) : w.WF := by
  induction p generalizing v with
  | nil =>
    rw [at?_nil, Option.some.injEq] at h
    exact h ▸ hv
  | cons k p ih =>
    obtain ⟨m, u, rfl, hu, hw⟩ := at?_cons_eq_some.mp h
    exact ih (wf_of_get? hv hu) hw

theorem Same.at? {v w x : Json} {p : List Str} (hv : v.WF) (hw : w.WF) (h : Same v w)
    (hx : v.at? p = some x) : ∃ y, w.at? p = some y ∧ Same x y := by
  induction p generalizing v w with
  | nil =>
    rw [at?_nil, Option.some.injEq] at hx
    subst hx
    exact ⟨w, at?_nil w, h⟩
  | cons k p ih =>
    obtain ⟨m, u, rfl, hu, hux⟩ := at?_cons_eq_some.mp hx
    cases w with
    | obj m' =>
      obtain ⟨hnone, hsame⟩ := (same_obj_iff hv.1 hw.1).mp h
      cases hu' : Dict.get? m' k with
      | none =>
        rw [(hnone k).mpr hu'] at hu
        cases hu
      | some u' =>
        obtain ⟨y, hy, hxy⟩ := ih (wf_of_get? hv hu) (wf_of_get? hw hu') (hsame k u u' hu hu') hux
        exact ⟨y, by rw [at?_obj_cons, hu']; exact hy, hxy⟩
    | _ => cases h

/-! ## The order of sub-documents -/

theorem withinMembers_iff {m m' : Dict} :
    WithinMembers m m' ↔ ∀ p ∈ m, ∃ w, m'.get? p.1 = some w ∧ Within p.2 w := by
  induction m with
  | nil => simp [WithinMembers]
  | cons p m ih =>
    obtain ⟨k, v⟩ := p
    rw [WithinMembers, ih]
    simp

theorem within_obj_iff {m m' : Dict} (hm : m.keys.Nodup) : Within (.obj m) (.obj m') ↔
    ∀ k v, m.get? k = some v → ∃ w, m'.get? k = some w ∧ Within v w := by
  rw [Within, withinMembers_iff]
  constructor
  · intro h k v hv
    exact h _ (Dict.mem_of_get?_eq_some hv)
  · rintro h ⟨k, v⟩ hp
    exact h k v (Dict.get?_of_mem hm hp)

mutual

theorem Same.within : ∀ {v w : Json}, v.WF → w.WF → Same v w → Within v w
  | .null, _, _, _, h | .bool _, _, _, _, h | .int _, _, _, _, h | .float _, _, _, _, h
  | .str _, _, _, _, h | .arr _, _, _, _, h => h
  | .obj m, w, hv, hw, h => by
    cases w with
    | obj m' =>
      rw [Within, withinMembers_iff]
      intro p hp
      obtain ⟨x, hx, hsame⟩ := sameMembers_iff.mp h.2 p hp
      exact ⟨x, hx, Same.within_members hv.2 p hp (wf_of_get? hw hx) hsame⟩
    | _ => cases h

theorem Same.within_members : ∀ {m : List (Str × Json)}, WFMembers m → ∀ p ∈ m, ∀ {w : Json}, w.WF →
    Same p.2 w → Within p.2 w
  | [], _, _, hp, _, _, _ => by cases hp
  | (k, v) :: t, h, p, hp, w, hw, hs => by
    rcases List.mem_cons.mp hp with rfl | hp
    · exact Same.within h.1 hw hs
    · exact Same.within_members h.2 p hp hw hs

end

mutual

theorem Within.trans : ∀ {u v w : Json}, u.WF → v.WF → w.WF → Within u v → Within v w → Within u w
  | .null, v, w, hu, hv, hw, h, h' | .bool _, v, w, hu, hv, hw, h, h' | .int _, v, w, hu, hv, hw, h, h'
  | .float _, v, w, hu, hv, hw, h, h' | .str _, v, w, hu, hv, hw, h, h'
  | .arr _, v, w, hu, hv, hw, h, h' => by
    cases v with
    | obj m => cases h
    | _ => exact Same.trans hu hv hw h h'
  | .obj m, v, w, hu, hv, hw, h, h' => by
    cases v with
    | obj m' =>
      cases w with
      | obj m'' =>
        rw [Within, withinMembers_iff]
        intro p hp
        obtain ⟨x, hx, hpx⟩ := withinMembers_iff.mp h p hp
        obtain ⟨y, hy, hxy⟩ := withinMembers_iff.mp h' _ (Dict.mem_of_get?_eq_some hx)
        exact ⟨y, hy, Within.trans_members hu.2 p hp (wf_of_get? hv hx) (wf_of_get? hw hy) hpx hxy⟩
      | _ => cases h'
    | _ => cases h

theorem Within.trans_members : ∀ {m : List (Str × Json)}, WFMembers m → ∀ p ∈ m, ∀ {v w : Json},
    v.WF → w.WF → Within p.2 v → Within v w → Within p.2 w
  | [], _, _, hp, _, _, _, _, _, _ => by cases hp
  | (k, u) :: t, h, p, hp, v, w, hv, hw, hs, hs' => by
    rcases List.mem_cons.mp hp with rfl | hp
    · exact Within.trans h.1 hv hw hs hs'
    · exact Within.trans_members h.2 p hp hv hw hs hs'

end

mutual

/-- Documents that are within each other are the same. -/
theorem Within.antisymm : ∀ {v w : Json}, v.WF → w.WF → Within v w → Within w v → Same v w
  | .null, _, _, _, h, _ | .bool _, _, _, _, h, _ | .int _, _, _, _, h, _ | .float _, _, _, _, h, _
  | .str _, _, _, _, h, _ | .arr _, _, _, _, h, _ => h
  | .obj m, w, hv, hw, h, h' => by
    cases w with
    | obj m' =>
      have hm := (within_obj_iff hv.1).mp h
      have hm' := (within_obj_iff hw.1).mp h'
      refine (same_obj_iff hv.1 hw.1).mpr ⟨fun k => ⟨fun hk => ?_, fun hk => ?_⟩,
        fun k v w hk hk' => ?_⟩
      · by_contra hne
        obtain ⟨x, hx⟩ := Option.ne_none_iff_exists'.mp hne
        obtain ⟨y, hy, -⟩ := hm' k x hx
        rw [hk] at hy
        cases hy
      · by_contra hne
        obtain ⟨x, hx⟩ := Option.ne_none_iff_exists'.mp hne
        obtain ⟨y, hy, -⟩ := hm k x hx
        rw [hk] at hy
        cases hy
      · obtain ⟨y, hy, hvy⟩ := hm k v hk
        obtain ⟨x, hx, hwx⟩ := hm' k w hk'
        rw [hk'] at hy
        rw [hk] at hx
        cases hy
        cases hx
        exact Within.antisymm_members hv.2 _ (Dict.mem_of_get?_eq_some hk) (wf_of_get? hw hk') hvy hwx
    | _ => cases h

theorem Within.antisymm_members : ∀ {m : List (Str × Json)}, WFMembers m → ∀ p ∈ m, ∀ {w : Json},
    w.WF → Within p.2 w → Within w p.2 → Same p.2 w
  | [], _, _, hp, _, _, _, _ => by cases hp
  | (k, v) :: t, h, p, hp, w, hw, hs, hs' => by
    rcases List.mem_cons.mp hp with rfl | hp
    · exact Within.antisymm h.1 hw hs hs'
    · exact Within.antisymm_members h.2 p hp hw hs hs'

end

theorem Within.refl {v : Json} (hv : v.WF) : Within v v := (Same.refl v hv).within hv hv

/-! ## What the paths cut out -/

section Cut

variable {keep top : Str → Json → Bool} {paths : List (List Str)}

/-- What becomes of a member. -/
def pick (keep top : Str → Json → Bool) (paths : List (List Str)) (k : Str) (v : Json) :
    Option Json :=
  if top k v || (tails k paths).contains [] then some v
  else if (tails k paths).isEmpty then none
  else some (cut keep v (tails k paths))

theorem keys_cutMembers (m : List (Str × Json)) :
    (Dict.keys (cutMembers keep m top paths)).Sublist (Dict.keys m) := by
  induction m with
  | nil => exact .slnil
  | cons p m ih =>
    obtain ⟨k, v⟩ := p
    rw [cutMembers]
    split
    · exact ih.cons_cons k
    · split
      · exact ih.cons k
      · exact ih.cons_cons k

theorem get?_cutMembers {m : Dict} (hm : m.keys.Nodup) (k : Str) :
    Dict.get? (cutMembers keep m top paths) k = (m.get? k).bind (pick keep top paths k) := by
  induction m with
  | nil => rfl
  | cons p m ih =>
    obtain ⟨k', v⟩ := p
    rw [Dict.keys_cons, List.nodup_cons] at hm
    rw [Dict.get?_cons]
    by_cases hk : k' = k
    · subst hk
      have hrest : Dict.get? (cutMembers keep m top paths) k' = none :=
        Dict.get?_eq_none_iff.mpr fun hmem => hm.1 ((keys_cutMembers m).subset hmem)
      rw [if_pos rfl, Option.bind_some, pick, cutMembers]
      split
      · rw [Dict.get?_cons, if_pos rfl]
      · split
        · exact hrest
        · rw [Dict.get?_cons, if_pos rfl]
    · rw [if_neg hk, ← ih hm.2, cutMembers]
      split
      · rw [Dict.get?_cons, if_neg hk]
      · split
        · rfl
        · rw [Dict.get?_cons, if_neg hk]

mutual

theorem wf_cut : ∀ {v : Json} {paths : List (List Str)}, v.WF → (cut keep v paths).WF
  | .null, _, h | .bool _, _, h | .int _, _, h | .float _, _, h | .str _, _, h | .arr _, _, h => h
  | .obj m, _, h =>
    ⟨List.Nodup.sublist (keys_cutMembers m) h.1, wfMembers_cutMembers h.2⟩

theorem wfMembers_cutMembers : ∀ {m : List (Str × Json)} {top : Str → Json → Bool}
    {paths : List (List Str)}, WFMembers m → WFMembers (cutMembers keep m top paths)
  | [], _, _, _ => trivial
  | (k, v) :: m, top, paths, h => by
    rw [cutMembers]
    split
    · exact ⟨h.1, wfMembers_cutMembers h.2⟩
    · split
      · exact wfMembers_cutMembers h.2
      · exact ⟨wf_cut h.1, wfMembers_cutMembers h.2⟩

end

theorem wf_cutMembers {m : Dict} (h : (Json.obj m).WF) :
    (Json.obj (cutMembers keep m top paths)).WF :=
  ⟨List.Nodup.sublist (keys_cutMembers m) h.1, wfMembers_cutMembers h.2⟩

theorem cutMembers_whole (m : List (Str × Json)) : cutMembers keep m (fun _ _ => true) paths = m := by
  induction m with
  | nil => rfl
  | cons p m ih =>
    obtain ⟨k, v⟩ := p
    rw [cutMembers, Bool.true_or, if_pos rfl, ih]

mutual

/-- What is cut out is a sub-document. -/
theorem cut_within : ∀ {v : Json} {paths : List (List Str)}, v.WF → Within (cut keep v paths) v
  | .null, _, h | .bool _, _, h | .int _, _, h | .float _, _, h | .str _, _, h | .arr _, _, h =>
    Within.refl h
  | .obj m, _, h => by
    rw [cut, within_obj_iff (wf_cutMembers h).1]
    exact cutMembers_within h.1 h.2

theorem cutMembers_within : ∀ {m : List (Str × Json)} {top : Str → Json → Bool}
    {paths : List (List Str)}, (Dict.keys m).Nodup → WFMembers m → ∀ k v,
    Dict.get? (cutMembers keep m top paths) k = some v → ∃ w, Dict.get? m k = some w ∧ Within v w
  | [], _, _, _, _, _, _, hv => by cases hv
  | (k', v') :: m, _, _, hm, hwf, k, v, hv => by
    rw [get?_cutMembers hm] at hv
    rw [Dict.keys_cons, List.nodup_cons] at hm
    rw [Dict.get?_cons] at hv ⊢
    by_cases hk : k' = k
    · rw [if_pos hk, Option.bind_some, pick] at hv
      rw [if_pos hk]
      refine ⟨v', rfl, ?_⟩
      split at hv
      · cases hv
        exact Within.refl hwf.1
      · split at hv
        · cases hv
        · cases hv
          exact cut_within hwf.1
    · rw [if_neg hk, ← get?_cutMembers hm.2] at hv
      rw [if_neg hk]
      exact cutMembers_within hm.2 hwf.2 k v hv

end

theorem cutMembers_within_obj {m : Dict} (hm : (Json.obj m).WF) :
    Within (.obj (cutMembers keep m top paths)) (.obj m) :=
  (within_obj_iff (wf_cutMembers hm).1).mpr (cutMembers_within hm.1 hm.2)

/-- What a path leads to is there after the cut. -/
theorem at?_cutMembers_pointed {m : Dict} {p : List Str} {v : Json} (hm : (Json.obj m).WF)
    (hp : p ∈ paths) (hne : p ≠ []) (hv : (Json.obj m).at? p = some v) :
    (Json.obj (cutMembers keep m top paths)).at? p = some v := by
  induction p generalizing m top paths with
  | nil => exact absurd rfl hne
  | cons k p ih =>
    obtain ⟨m', u, hobj, hu, huv⟩ := at?_cons_eq_some.mp hv
    cases hobj
    rw [at?_obj_cons, get?_cutMembers hm.1, hu, Option.bind_some]
    have hmem : p ∈ tails k paths := mem_tails.mpr hp
    unfold pick
    split
    · exact huv
    · rename_i hfull
      have hnil : p ≠ [] := by
        rintro rfl
        apply hfull
        rw [List.contains_iff_mem.mpr hmem, Bool.or_true]
      rw [if_neg (by rw [List.isEmpty_iff]; exact List.ne_nil_of_mem hmem), Option.bind_some]
      obtain ⟨k₂, p₂, rfl⟩ := List.exists_cons_of_ne_nil hnil
      obtain ⟨m₂, u₂, rfl, -, -⟩ := at?_cons_eq_some.mp huv
      exact ih (wf_of_get? hm hu) hmem hnil huv

/-- The members to keep are there after the cut. -/
theorem at?_cutMembers_kept {m : Dict} {q rest : List Str} {t k : Str} {v : Json}
    (hm : (Json.obj m).WF) (hp : q ++ t :: rest ∈ paths) (hq : q ≠ []) (hk : keep k v = true)
    (hv : (Json.obj m).at? (q ++ [k]) = some v) :
    (Json.obj (cutMembers keep m top paths)).at? (q ++ [k]) = some v := by
  induction q generalizing m top paths with
  | nil => exact absurd rfl hq
  | cons x q ih =>
    rw [List.cons_append] at hv hp ⊢
    obtain ⟨m', u, hobj, hu, huv⟩ := at?_cons_eq_some.mp hv
    cases hobj
    rw [at?_obj_cons, get?_cutMembers hm.1, hu, Option.bind_some]
    have hmem : q ++ t :: rest ∈ tails x paths := mem_tails.mpr hp
    unfold pick
    split
    · exact huv
    · rw [if_neg (by rw [List.isEmpty_iff]; exact List.ne_nil_of_mem hmem), Option.bind_some]
      have hwf := wf_of_get? hm hu
      cases q with
      | nil =>
        rw [List.nil_append] at huv ⊢
        obtain ⟨m₂, u₂, rfl, hu₂, hv₂⟩ := at?_cons_eq_some.mp huv
        rw [at?_nil, Option.some.injEq] at hv₂
        subst hv₂
        rw [cut, at?_obj_cons, get?_cutMembers hwf.1, hu₂, Option.bind_some, pick, hk, Bool.true_or,
          if_pos rfl, Option.bind_some, at?_nil]
      | cons y q =>
        obtain ⟨m₂, u₂, rfl, -, -⟩ := at?_cons_eq_some.mp huv
        exact ih hwf hmem (by simp) huv

theorem covers_cutMembers {m : Dict} (hm : (Json.obj m).WF) (hne : ∀ p ∈ paths, p ≠ []) :
    Covers keep top (.obj m) paths (.obj (cutMembers keep m top paths)) where
  pointed p hp v hv :=
    ⟨v, at?_cutMembers_pointed hm hp (hne p hp) hv, Same.refl v (wf_of_at? hm hv)⟩
  kept q t rest hp hq k v hk hv :=
    ⟨v, at?_cutMembers_kept hm hp hq hk hv, Same.refl v (wf_of_at? hm hv)⟩
  top k v hk hv := by
    obtain ⟨m', u, hobj, hu, huv⟩ := at?_cons_eq_some.mp hv
    cases hobj
    rw [at?_nil, Option.some.injEq] at huv
    subst huv
    refine ⟨u, ?_, Same.refl u (wf_of_get? hm hu)⟩
    rw [at?_obj_cons, get?_cutMembers hm.1, hu, Option.bind_some, pick, hk, Bool.true_or, if_pos rfl,
      Option.bind_some, at?_nil]

theorem Covers.mono {d s : Json} {paths' : List (List Str)} (h : ∀ p ∈ paths', p ∈ paths)
    (hs : Covers keep top d paths s) : Covers keep top d paths' s where
  pointed p hp := hs.pointed p (h p hp)
  kept q t rest hp := hs.kept q t rest (h _ hp)
  top := hs.top

theorem Holds.congr {s s' v : Json} {p : List Str} (hs : s.WF) (hs' : s'.WF) (hv : v.WF)
    (hsame : Same s s') (h : Holds s p v) : Holds s' p v := by
  obtain ⟨w, hw, hwv⟩ := h
  obtain ⟨y, hy, hwy⟩ := hsame.at? hs hs' hw
  have hwf := wf_of_at? hs hw
  exact ⟨y, hy, (hwy.symm hwf (wf_of_at? hs' hy)).trans (wf_of_at? hs' hy) hwf hv hwv⟩

theorem Covers.congr {d s s' : Json} (hd : d.WF) (hs : s.WF) (hs' : s'.WF) (hsame : Same s s')
    (h : Covers keep top d paths s) : Covers keep top d paths s' where
  pointed p hp v hv := (h.pointed p hp v hv).congr hs hs' (wf_of_at? hd hv) hsame
  kept q t rest hp hq k v hk hv :=
    (h.kept q t rest hp hq k v hk hv).congr hs hs' (wf_of_at? hd hv) hsame
  top k v hk hv := (h.top k v hk hv).congr hs hs' (wf_of_at? hd hv) hsame

theorem Holds.trans {d r s v : Json} {p : List Str} (hd : d.WF) (hr : r.WF) (hs : s.WF)
    (hv : d.at? p = some v) (h : Holds r p v) (h' : ∀ w, r.at? p = some w → Same v w → Holds s p w) :
    Holds s p v := by
  obtain ⟨w, hw, hwv⟩ := h
  have hwf := wf_of_at? hr hw
  have hvf := wf_of_at? hd hv
  obtain ⟨y, hy, hyw⟩ := h' w hw (hwv.symm hwf hvf)
  exact ⟨y, hy, hyw.trans (wf_of_at? hs hy) hwf hvf hwv⟩

/-- What covers the paths of a document that covers them covers them too, when equal values are kept
alike. -/
theorem Covers.trans {d r s : Json} (hd : d.WF) (hr : r.WF) (hs : s.WF)
    (hkeep : ∀ k v w, Same v w → keep k v = true → keep k w = true)
    (htop : ∀ k v w, Same v w → top k v = true → top k w = true)
    (h : Covers keep top d paths r) (h' : Covers keep top r paths s) : Covers keep top d paths s where
  pointed p hp v hv := (h.pointed p hp v hv).trans hd hr hs hv fun w hw _ => h'.pointed p hp w hw
  kept q t rest hp hq k v hk hv := (h.kept q t rest hp hq k v hk hv).trans hd hr hs hv
    fun w hw hsame => h'.kept q t rest hp hq k w (hkeep k v w hsame hk) hw
  top k v hk hv := (h.top k v hk hv).trans hd hr hs hv
    fun w hw hsame => h'.top k w (htop k v w hsame hk) hw

/-- What a document that covers the paths has under a member on the way covers what is left of them. -/
theorem Covers.member {m : Dict} {s u w : Json} {k : Str} (h : Covers keep top (.obj m) paths s)
    (hu : m.get? k = some u) (hw : s.at? [k] = some w) (hne : ∀ p ∈ tails k paths, p ≠ [])
    {p : List Str} (hp : p ∈ tails k paths) : Covers keep keep u (tails k paths) w := by
  have hdoc : ∀ q, (Json.obj m).at? (k :: q) = u.at? q := by
    intro q
    rw [at?_obj_cons, hu, Option.bind_some]
  have hpart : ∀ {q v}, Holds s (k :: q) v → Holds w q v := by
    rintro q v ⟨x, hx, hsame⟩
    refine ⟨x, ?_, hsame⟩
    obtain ⟨m', y, rfl, hy, hyx⟩ := at?_cons_eq_some.mp hx
    rw [at?_obj_cons, hy, Option.bind_some, at?_nil] at hw
    cases hw
    exact hyx
  constructor
  · intro q hq v hv
    exact hpart (h.pointed (k :: q) (mem_tails.mp hq) v (by rw [hdoc]; exact hv))
  · intro q t rest hq hqne k' v hk' hv
    exact hpart (h.kept (k :: q) t rest (mem_tails.mp hq) (by simp) k' v hk' (by
      rw [List.cons_append, hdoc]; exact hv))
  · intro k' v hk' hv
    obtain ⟨t, rest, rfl⟩ := List.exists_cons_of_ne_nil (hne p hp)
    exact hpart (h.kept [k] t rest (mem_tails.mp hp) (by simp) k' v hk' (by
      rw [List.singleton_append, hdoc]; exact hv))

/-- The cut of an object is within every object that covers the paths, when that holds of the cuts of
its members. -/
theorem cutMembers_least_of {m m' : Dict} (hm : (Json.obj m).WF) (hm' : (Json.obj m').WF)
    (hres : ∀ p ∈ paths, ∃ w, (Json.obj m).at? p = some w)
    (h : Covers keep top (.obj m) paths (.obj m'))
    (ih : ∀ q ∈ m, ∀ (paths : List (List Str)) (s : Json), s.WF →
      (∀ p ∈ paths, ∃ w, q.2.at? p = some w) → (∀ p ∈ paths, p ≠ []) → paths ≠ [] →
      Covers keep keep q.2 paths s → Within (cut keep q.2 paths) s) :
    Within (.obj (cutMembers keep m top paths)) (.obj m') := by
  rw [within_obj_iff (wf_cutMembers hm).1]
  intro k x hx
  rw [get?_cutMembers hm.1, Option.bind_eq_some_iff] at hx
  obtain ⟨u, hu, hpick⟩ := hx
  have hmember : (Json.obj m).at? [k] = some u := by
    rw [at?_obj_cons, hu, Option.bind_some, at?_nil]
  have hwhole : Holds (.obj m') [k] u → ∃ w, Dict.get? m' k = some w ∧ Within u w := by
    rintro ⟨w, hw, hsame⟩
    obtain ⟨m₂, y, hobj, hy, hyw⟩ := at?_cons_eq_some.mp hw
    cases hobj
    rw [at?_nil, Option.some.injEq] at hyw
    subst hyw
    exact ⟨y, hy, (hsame.symm (wf_of_get? hm' hy) (wf_of_get? hm hu)).within (wf_of_get? hm hu)
      (wf_of_get? hm' hy)⟩
  unfold pick at hpick
  split at hpick
  · rename_i hfull
    cases hpick
    rw [Bool.or_eq_true] at hfull
    rcases hfull with htop | hnil
    · exact hwhole (h.top k _ htop hmember)
    · exact hwhole (h.pointed [k] (mem_tails.mp (List.contains_iff_mem.mp hnil)) _ hmember)
  · rename_i hfull
    split at hpick
    · cases hpick
    rename_i hsome
    cases hpick
    rw [List.isEmpty_iff] at hsome
    obtain ⟨p, hp⟩ := List.exists_mem_of_ne_nil _ hsome
    have hne : ∀ p ∈ tails k paths, p ≠ [] := by
      rintro p hp rfl
      exact hfull (by rw [List.contains_iff_mem.mpr hp, Bool.or_true])
    have hdoc : ∀ q, (Json.obj m).at? (k :: q) = u.at? q := by
      intro q
      rw [at?_obj_cons, hu, Option.bind_some]
    obtain ⟨v, hv⟩ := hres _ (mem_tails.mp hp)
    obtain ⟨y, hy, -⟩ := h.pointed _ (mem_tails.mp hp) v hv
    obtain ⟨m₂, w, hobj, hw, -⟩ := at?_cons_eq_some.mp hy
    cases hobj
    have hws : (Json.obj m').at? [k] = some w := by
      rw [at?_obj_cons, hw, Option.bind_some, at?_nil]
    refine ⟨w, hw, ih _ (Dict.mem_of_get?_eq_some hu) _ _ (wf_of_get? hm' hw) (fun q hq => ?_) hne hsome
      (h.member hu hws hne hp)⟩
    rw [← hdoc]
    exact hres _ (mem_tails.mp hq)

mutual

/-- The cut is within every document that covers the paths. -/
theorem cut_least : ∀ {v : Json} {paths : List (List Str)} {s : Json}, v.WF → s.WF →
    (∀ p ∈ paths, ∃ w, v.at? p = some w) → (∀ p ∈ paths, p ≠ []) → paths ≠ [] →
    Covers keep keep v paths s → Within (cut keep v paths) s
  | .obj m, paths, s, hv, hs, hres, hne, hpaths, h => by
    obtain ⟨m', rfl⟩ : ∃ m', s = .obj m' := by
      obtain ⟨p, hp⟩ := List.exists_mem_of_ne_nil _ hpaths
      obtain ⟨w, hw⟩ := hres p hp
      obtain ⟨x, hx, -⟩ := h.pointed p hp w hw
      obtain ⟨k, q, rfl⟩ := List.exists_cons_of_ne_nil (hne p hp)
      obtain ⟨m', -, rfl, -⟩ := at?_cons_eq_some.mp hx
      exact ⟨m', rfl⟩
    rw [cut]
    exact cutMembers_least_of hv hs hres h (cut_least_members hv.2)
  | .null, paths, s, hv, hs, hres, hne, hpaths, h | .bool _, paths, s, hv, hs, hres, hne, hpaths, h
  | .int _, paths, s, hv, hs, hres, hne, hpaths, h | .float _, paths, s, hv, hs, hres, hne, hpaths, h
  | .str _, paths, s, hv, hs, hres, hne, hpaths, h | .arr _, paths, s, hv, hs, hres, hne, hpaths, h => by
    obtain ⟨p, hp⟩ := List.exists_mem_of_ne_nil _ hpaths
    obtain ⟨w, hw⟩ := hres p hp
    obtain ⟨k, q, rfl⟩ := List.exists_cons_of_ne_nil (hne p hp)
    obtain ⟨m', -, hobj, -⟩ := at?_cons_eq_some.mp hw
    cases hobj

theorem cut_least_members : ∀ {m : List (Str × Json)}, WFMembers m → ∀ q ∈ m,
    ∀ (paths : List (List Str)) (s : Json), s.WF → (∀ p ∈ paths, ∃ w, q.2.at? p = some w) →
    (∀ p ∈ paths, p ≠ []) → paths ≠ [] → Covers keep keep q.2 paths s → Within (cut keep q.2 paths) s
  | [], _, _, hq, _, _, _, _, _, _, _ => by cases hq
  | (_, _) :: _, hwf, _, hq, paths, s, hs, hres, hne, hpaths, h => by
    rcases List.mem_cons.mp hq with rfl | hq
    · exact cut_least hwf.1 hs hres hne hpaths h
    · exact cut_least_members hwf.2 _ hq paths s hs hres hne hpaths h

end

/-- The cut of an object is the least object that covers the paths. -/
theorem cutMembers_least {m m' : Dict} (hm : (Json.obj m).WF) (hm' : (Json.obj m').WF)
    (hres : ∀ p ∈ paths, ∃ w, (Json.obj m).at? p = some w)
    (h : Covers keep top (.obj m) paths (.obj m')) :
    Within (.obj (cutMembers keep m top paths)) (.obj m') :=
  cutMembers_least_of hm hm' hres h (cut_least_members hm.2)

end Cut

end Python.Json
