import OpenVC.Proof.SelectJsonLd

/-!
# A selection is the least sub-document

What `select_json_ld` returns has the members of the cut of the document by the paths of the pointers,
in whatever order the pointers come.
-/

namespace OpenVC.EcdsaSd

open Python Json

/-! ## Paths -/

theorem pointerTokens_ne_nil (pointer : Str) : pointerTokens pointer ≠ [] := by
  unfold pointerTokens
  rw [Ne, List.map_eq_nil_iff]
  exact List.splitOn_ne_nil _ _

theorem tails_cons_self (k : Str) (p : List Str) (paths : List (List Str)) :
    tails k ((k :: p) :: paths) = p :: tails k paths := by
  simp [tails]

theorem tails_cons_of_ne {k k' : Str} (h : k' ≠ k) (p : List Str) (paths : List (List Str)) :
    tails k ((k' :: p) :: paths) = tails k paths := by
  simp [tails, h]

theorem parsePointer_eq_ok {pointer : Str} {tokens : List Str} : parsePointer pointer = .ok tokens ↔
    pointer.startsWith "/" = true ∧ tokens = pointerTokens pointer := by
  simp only [parsePointer, bind_eq_ok, raiseIf_eq_ok, pure_eq_ok, Bool.not_eq_false', exists_const]
  constructor
  · rintro ⟨h, rfl⟩
    exact ⟨h, rfl⟩
  · rintro ⟨h, rfl⟩
    exact ⟨h, rfl⟩

/-! ## The labels -/

theorem get?_copyString (source sel : Dict) (key k : Str) :
    (copyString source key sel).get? k =
      if key = k ∧ ((source.get? key).bind str?).isSome then source.get? k else sel.get? k := by
  unfold copyString
  split
  · rename_i s hs
    rw [Dict.get?_set, hs]
    by_cases hk : key = k
    · subst hk
      simp [hs, str?]
    · simp [hk]
  · rename_i hno
    rw [if_neg]
    rintro ⟨-, h⟩
    obtain ⟨s, hs⟩ := Option.isSome_iff_exists.mp h
    obtain ⟨v, hv, hvs⟩ := Option.bind_eq_some_iff.mp hs
    exact hno s (by rw [hv, str?_eq_some.mp hvs])

theorem get?_copyMember (source sel : Dict) (key k : Str) :
    (copyMember source key sel).get? k =
      if key = k ∧ (source.get? key).isSome then source.get? k else sel.get? k := by
  unfold copyMember
  split
  · rename_i v hv
    rw [Dict.get?_set, hv]
    by_cases hk : key = k
    · subst hk
      simp [hv]
    · simp [hk]
  · rename_i hnone
    simp [hnone]

theorem get?_initialSelection (m : Dict) (k : Str) :
    (initialSelection (.obj m)).get? k = (m.get? k).bind (pick isLabel isLabel [] k) := by
  rw [initialSelection, get?_copyMember, get?_copyString, get?_copyString]
  cases hk : m.get? k with
  | none =>
    have hkey : ∀ key, key = k → m.get? key = none := fun key h => h ▸ hk
    have h1 : ¬ (lit "type" = k ∧ (m.get? (lit "type")).isSome = true) := by
      rintro ⟨e, h⟩
      rw [hkey _ e] at h
      cases h
    have h2 : ∀ key, ¬ (key = k ∧ ((m.get? key).bind str?).isSome = true) := by
      rintro key ⟨e, h⟩
      rw [hkey _ e] at h
      cases h
    rw [if_neg h1, if_neg (h2 _), if_neg (h2 _)]
    rfl
  | some v =>
    have hpick : pick isLabel isLabel [] k v = if isLabel k v = true then some v else none := by
      simp [pick, tails]
    rw [Option.bind_some, hpick]
    by_cases htype : lit "type" = k
    · subst htype
      simp [hk, isLabel]
    · rw [if_neg fun h => htype h.1]
      by_cases hid : lit "id" = k
      · subst hid
        have hne : lit "@id" ≠ lit "id" := by decide
        simp [hk, isLabel, Ne.symm htype, hne]
      · rw [if_neg fun h => hid h.1]
        by_cases hat : lit "@id" = k
        · subst hat
          simp [hk, isLabel, Ne.symm htype]
        · simp [isLabel, Ne.symm htype, Ne.symm hid, Ne.symm hat, hat]

theorem get?_rootSelection (m : Dict) (k : Str) :
    (rootSelection m).get? k = (m.get? k).bind (pick isLabel isRootLabel [] k) := by
  have hpick : ∀ v, pick isLabel isRootLabel [] k v =
      if isRootLabel k v = true then some v else none := by
    intro v
    simp [pick, tails]
  have hpick' : ∀ v, pick isLabel isLabel [] k v = if isLabel k v = true then some v else none := by
    intro v
    simp [pick, tails]
  rw [rootSelection, get?_copyMember, get?_initialSelection]
  cases hk : m.get? k with
  | none =>
    rw [if_neg]
    · rfl
    · rintro ⟨rfl, h⟩
      rw [hk] at h
      cases h
  | some v =>
    rw [Option.bind_some, Option.bind_some, hpick, hpick']
    by_cases hcontext : lit "@context" = k
    · subst hcontext
      simp [hk, isRootLabel]
    · rw [if_neg fun h => hcontext h.1]
      simp [isRootLabel, Ne.symm hcontext]

theorem wf_set {m : Dict} {k : Str} {v : Json} (hm : (Json.obj m).WF) (hv : v.WF) :
    (Json.obj (m.set k v)).WF :=
  ⟨Dict.nodup_keys_set hm.1, wfMembers_set hm.2 hv⟩

theorem wf_copyString {source sel : Dict} {key : Str} (hsel : (Json.obj sel).WF) :
    (Json.obj (copyString source key sel)).WF := by
  unfold copyString
  split
  · exact wf_set hsel trivial
  · exact hsel

theorem wf_copyMember {source sel : Dict} {key : Str} (hs : (Json.obj source).WF)
    (hsel : (Json.obj sel).WF) : (Json.obj (copyMember source key sel)).WF := by
  unfold copyMember
  split
  · rename_i v hv
    exact wf_set hsel (wf_of_get? hs hv)
  · exact hsel

theorem wf_initialSelection {m : Dict} (hm : (Json.obj m).WF) :
    (Json.obj (initialSelection (.obj m))).WF :=
  wf_copyMember hm (wf_copyString (wf_copyString ⟨List.nodup_nil, trivial⟩))

theorem wf_rootSelection {m : Dict} (hm : (Json.obj m).WF) : (Json.obj (rootSelection m)).WF :=
  wf_copyMember hm (wf_initialSelection hm)

/-! ## The walk along one pointer -/

section Walk

variable {top : Str → Json → Bool} {m : Dict} {paths : List (List Str)}

/-- The selection has the members of the cut. -/
def Agrees (top : Str → Json → Bool) (m : Dict) (paths : List (List Str)) (sel : Json) : Prop :=
  ∃ s, sel = .obj s ∧ (Json.obj s).WF ∧
    (∀ k, Dict.get? s k = none ↔ (m.get? k).bind (pick isLabel top paths k) = none) ∧
    ∀ k v w, Dict.get? s k = some v → (m.get? k).bind (pick isLabel top paths k) = some w → Same v w

theorem agrees_iff (hm : (Json.obj m).WF) {sel : Json} : Agrees top m paths sel ↔
    sel.WF ∧ Same sel (.obj (cutMembers isLabel m top paths)) := by
  constructor
  · rintro ⟨s, rfl, hs, hnone, hsame⟩
    refine ⟨hs, (same_obj_iff hs.1 (wf_cutMembers hm).1).mpr ⟨fun k => ?_, fun k v w hk hw => ?_⟩⟩
    · rw [get?_cutMembers hm.1]
      exact hnone k
    · rw [get?_cutMembers hm.1] at hw
      exact hsame k v w hk hw
  · rintro ⟨hs, h⟩
    cases sel with
    | obj s =>
      obtain ⟨hnone, hsame⟩ := (same_obj_iff hs.1 (wf_cutMembers hm).1).mp h
      refine ⟨s, rfl, hs, fun k => ?_, fun k v w hk hw => ?_⟩
      · rw [← get?_cutMembers hm.1]
        exact hnone k
      · rw [← get?_cutMembers hm.1] at hw
        exact hsame k v w hk hw
    | _ => cases h

theorem agrees_of_get? {s : Dict} (hs : (Json.obj s).WF)
    (h : ∀ k, s.get? k = (m.get? k).bind (pick isLabel top paths k)) : Agrees top m paths (.obj s) := by
  refine ⟨s, rfl, hs, fun k => by rw [h], fun k v w hv hw => ?_⟩
  rw [← h, hv] at hw
  cases hw
  exact Same.refl v (wf_of_get? hs hv)

/-- Assigning the member that a path starts with. -/
theorem agrees_set {s : Dict} {tok : Str} {p : List Str} {value x y : Json}
    (h : Agrees top m paths (.obj s)) (hx : x.WF) (hvalue : m.get? tok = some value)
    (hpick : pick isLabel top ((tok :: p) :: paths) tok value = some y) (hxy : Same x y) :
    Agrees top m ((tok :: p) :: paths) (.obj (s.set tok x)) := by
  obtain ⟨s', hobj, hs, hnone, hsame⟩ := h
  cases hobj
  have hpaths : ∀ k, tok ≠ k → (m.get? k).bind (pick isLabel top ((tok :: p) :: paths) k) =
      (m.get? k).bind (pick isLabel top paths k) := by
    intro k hk
    congr 1
    funext v
    rw [pick, pick, tails_cons_of_ne hk]
  refine ⟨_, rfl, wf_set hs hx, fun k => ?_, fun k v w hv hw => ?_⟩
  · rw [Dict.get?_set]
    by_cases hk : tok = k
    · subst hk
      rw [if_pos rfl, hvalue, Option.bind_some, hpick]
      simp
    · rw [if_neg hk, hpaths k hk]
      exact hnone k
  · rw [Dict.get?_set] at hv
    by_cases hk : tok = k
    · subst hk
      rw [if_pos rfl] at hv
      rw [hvalue, Option.bind_some, hpick] at hw
      cases hv
      cases hw
      exact hxy
    · rw [if_neg hk] at hv
      rw [hpaths k hk] at hw
      exact hsame k v w hv hw

/-- The child that the walk goes on in agrees with some cut of the member's value; once it does so with
one more path, the selection does. -/
theorem exists_child {s : Dict} {tok : Str} {m' : Dict} (hm : (Json.obj m).WF)
    (h : Agrees top m paths (.obj s)) (hvalue : m.get? tok = some (.obj m')) :
    ∃ top' paths', Agrees top' m' paths' (childOf (s.get tok) (.obj m')) ∧
      ∀ rest x, rest ≠ [] → Agrees top' m' (rest :: paths') x →
        Agrees top m ((tok :: rest) :: paths) (.obj (s.set tok x)) := by
  have hm' := wf_of_get? hm hvalue
  obtain ⟨s', hobj, hs, hnone, hsame⟩ := h
  cases hobj
  have h : Agrees top m paths (.obj s) := ⟨s, rfl, hs, hnone, hsame⟩
  have hnone' := hnone tok
  have hsame' := fun v w hv => hsame tok v w hv
  rw [hvalue, Option.bind_some] at hnone'
  simp only [hvalue, Option.bind_some] at hsame'
  -- a member that is there is the child
  have hthere : ∀ y, pick isLabel top paths tok (.obj m') = some y →
      ∃ x, s.get? tok = some x ∧ Same x y := by
    intro y hy
    cases hx : s.get? tok with
    | none =>
      rw [hnone'.mp hx] at hy
      cases hy
    | some x => exact ⟨x, rfl, hsame' x y hx hy⟩
  have hchild : ∀ {c : Dict}, s.get? tok = some (.obj c) →
      childOf (s.get tok) (.obj m') = .obj c := by
    intro c hc
    rw [Dict.get, hc]
    rfl
  by_cases hfull : (top tok (.obj m') || (tails tok paths).contains []) = true
  · have hpick : pick isLabel top paths tok (.obj m') = some (.obj m') := by
      rw [pick, if_pos hfull]
    obtain ⟨x, hx, hxm⟩ := hthere _ hpick
    cases x with
    | obj c =>
      have hc := wf_of_get? hs hx
      refine ⟨fun _ _ => true, [], ?_, fun rest x hrest hagree => ?_⟩
      · rw [hchild hx, agrees_iff hm', cutMembers_whole]
        exact ⟨hc, hxm⟩
      · rw [agrees_iff hm', cutMembers_whole] at hagree
        refine agrees_set h hagree.1 hvalue (y := .obj m') ?_ hagree.2
        rw [pick, tails_cons_self, if_pos]
        rw [Bool.or_eq_true] at hfull ⊢
        refine hfull.imp id fun hnil => ?_
        rw [List.contains_iff_mem] at hnil ⊢
        exact List.mem_cons_of_mem _ hnil
    | _ => cases hxm
  · have hpicked : ∀ rest, rest ≠ [] → pick isLabel top ((tok :: rest) :: paths) tok (.obj m') =
        some (.obj (cutMembers isLabel m' isLabel (rest :: tails tok paths))) := by
      intro rest hrest
      rw [pick, tails_cons_self, if_neg, if_neg (by simp), cut]
      rw [Bool.or_eq_true, not_or] at hfull ⊢
      refine ⟨hfull.1, fun hnil => ?_⟩
      rw [List.contains_iff_mem] at hnil
      rcases List.mem_cons.mp hnil with e | hnil
      · exact hrest e.symm
      · exact hfull.2 (List.contains_iff_mem.mpr hnil)
    refine ⟨isLabel, tails tok paths, ?_, fun rest x hrest hagree => ?_⟩
    · by_cases hempty : tails tok paths = []
      · have hpick : pick isLabel top paths tok (.obj m') = none := by
          rw [pick, if_neg hfull, if_pos (List.isEmpty_iff.mpr hempty)]
        have hinit : childOf (s.get tok) (.obj m') = .obj (initialSelection (.obj m')) := by
          rw [Dict.get, hnone'.mpr hpick]
          rfl
        rw [hinit, hempty]
        exact agrees_of_get? (wf_initialSelection hm') (get?_initialSelection m')
      · have hpick : pick isLabel top paths tok (.obj m') =
            some (.obj (cutMembers isLabel m' isLabel (tails tok paths))) := by
          rw [pick, if_neg hfull, if_neg (by rwa [List.isEmpty_iff]), cut]
        obtain ⟨x, hx, hxy⟩ := hthere _ hpick
        cases x with
        | obj c =>
          rw [hchild hx, agrees_iff hm']
          exact ⟨wf_of_get? hs hx, hxy⟩
        | _ => cases hxy
    · rw [agrees_iff hm'] at hagree
      exact agrees_set h hagree.1 hvalue (hpicked rest hrest) hagree.2

/-- One step of the walk in an object that has the member. -/
theorem selectPath_cons {tok : Str} {rest : List Str} {value sel : Json} (hvalue : m.get? tok = some value) :
    selectPath (tok :: rest) (.obj m) sel =
      if rest.isEmpty then setItem sel tok value
      else getItem sel tok >>= fun existing =>
        selectPath rest value (childOf existing value) >>= setItem sel tok := by
  rw [selectPath, obj?, orRaise]
  change (orRaise (m.get? tok) _ >>= _) = _
  rw [hvalue]
  rfl

/-- The walk along a path that resolves adds it to the cut. -/
theorem selectPath_agrees {p : List Str} {sel v : Json} (hm : (Json.obj m).WF) (hp : p ≠ [])
    (h : Agrees top m paths sel) (hv : (Json.obj m).at? p = some v) :
    ∃ sel', selectPath p (.obj m) sel = .ok sel' ∧ Agrees top m (p :: paths) sel' := by
  induction p generalizing top m paths sel with
  | nil => exact absurd rfl hp
  | cons tok rest ih =>
    obtain ⟨s, rfl, hs, -⟩ := id h
    obtain ⟨m₁, value, hobj, hvalue, hrest⟩ := at?_cons_eq_some.mp hv
    cases hobj
    cases rest with
    | nil =>
      refine ⟨.obj (Dict.set s tok value), ?_, ?_⟩
      · rw [selectPath_cons hvalue, if_pos List.isEmpty_nil]
        rfl
      · refine agrees_set h (wf_of_get? hm hvalue) hvalue (y := value) ?_
          (Same.refl value (wf_of_get? hm hvalue))
        rw [pick, tails_cons_self, if_pos]
        rw [Bool.or_eq_true, List.contains_iff_mem]
        exact .inr List.mem_cons_self
    | cons tok' rest =>
      obtain ⟨m', u, rfl, -, -⟩ := at?_cons_eq_some.mp hrest
      obtain ⟨top', paths', hchild, hset⟩ := exists_child hm h hvalue
      obtain ⟨child, hwalk, hagree⟩ := ih (wf_of_get? hm hvalue) (by simp) hchild hrest
      refine ⟨.obj (Dict.set s tok child), ?_, hset _ _ (by simp) hagree⟩
      rw [selectPath_cons hvalue, if_neg (by simp)]
      exact bind_eq_ok.mpr ⟨_, rfl, bind_eq_ok.mpr ⟨child, hwalk, rfl⟩⟩

/-- The walk along a path that does not resolve raises. -/
theorem selectPath_error {p : List Str} {sel : Json} (hm : (Json.obj m).WF) (hp : p ≠ [])
    (h : Agrees top m paths sel) (hv : (Json.obj m).at? p = none) :
    ∃ e, selectPath p (.obj m) sel = .error e ∧ e.cls = .ecdsaSdError := by
  induction p generalizing top m paths sel with
  | nil => exact absurd rfl hp
  | cons tok rest ih =>
    rw [at?_obj_cons] at hv
    cases hvalue : m.get? tok with
    | none =>
      refine ⟨⟨.ecdsaSdError, "JSON pointer segment % does not resolve", [.str tok]⟩, ?_, rfl⟩
      rw [selectPath, obj?, orRaise]
      change (orRaise (m.get? tok) _ >>= _) = _
      rw [hvalue]
      rfl
    | some value =>
      rw [hvalue, Option.bind_some] at hv
      cases rest with
      | nil =>
        rw [at?_nil] at hv
        cases hv
      | cons tok' rest =>
        obtain ⟨s, rfl, hs, -⟩ := id h
        rw [selectPath_cons hvalue, if_neg (by simp)]
        suffices hwalk : ∃ e, selectPath (tok' :: rest) value (childOf (Dict.get s tok) value) = .error e ∧
            e.cls = .ecdsaSdError by
          obtain ⟨e, he, hcls⟩ := hwalk
          refine ⟨e, ?_, hcls⟩
          change (selectPath _ _ _ >>= _) = _
          rw [he]
          rfl
        cases value with
        | obj m' =>
          obtain ⟨top', paths', hchild, -⟩ := exists_child hm h hvalue
          exact ih (wf_of_get? hm hvalue) (by simp) hchild hv
        | _ => exact ⟨_, rfl, rfl⟩

/-- The pointers that resolve, one after the other. -/
theorem selectPaths_agrees {pointers : List Str} {sel : Json} (hm : (Json.obj m).WF)
    (h : Agrees top m paths sel) (hres : ∀ p ∈ pointers, Resolves m p) :
    ∃ sel', selectPaths (.obj m) pointers sel = .ok sel' ∧
      Agrees top m ((pointers.map pointerTokens).reverse ++ paths) sel' := by
  induction pointers generalizing paths sel with
  | nil => exact ⟨sel, rfl, h⟩
  | cons pointer pointers ih =>
    obtain ⟨hslash, v, hv⟩ := hres pointer List.mem_cons_self
    obtain ⟨sel₁, hwalk, h₁⟩ := selectPath_agrees hm (pointerTokens_ne_nil pointer) h hv
    obtain ⟨sel', hrun, h'⟩ := ih h₁ fun p hp => hres p (List.mem_cons_of_mem _ hp)
    refine ⟨sel', ?_, ?_⟩
    · rw [selectPaths, parsePointer_eq_ok.mpr ⟨hslash, rfl⟩]
      exact bind_eq_ok.mpr ⟨_, rfl, bind_eq_ok.mpr ⟨sel₁, hwalk, hrun⟩⟩
    · rw [List.map_cons, List.reverse_cons, List.append_assoc]
      exact h'

/-- The first pointer that does not resolve raises. -/
theorem selectPaths_error {pointers : List Str} {sel : Json} (hm : (Json.obj m).WF)
    (h : Agrees top m paths sel) (hres : ¬ ∀ p ∈ pointers, Resolves m p) :
    ∃ e, selectPaths (.obj m) pointers sel = .error e ∧ e.cls = .ecdsaSdError := by
  induction pointers generalizing paths sel with
  | nil => exact absurd (fun _ hp => by cases hp) hres
  | cons pointer pointers ih =>
    rw [selectPaths]
    by_cases hslash : pointer.startsWith "/" = true
    · rw [parsePointer_eq_ok.mpr ⟨hslash, rfl⟩]
      change ∃ e, (selectPath _ _ _ >>= _) = _ ∧ _
      cases hv : (Json.obj m).at? (pointerTokens pointer) with
      | none =>
        obtain ⟨e, he, hcls⟩ := selectPath_error hm (pointerTokens_ne_nil pointer) h hv
        exact ⟨e, by rw [he]; rfl, hcls⟩
      | some v =>
        obtain ⟨sel₁, hwalk, h₁⟩ := selectPath_agrees hm (pointerTokens_ne_nil pointer) h hv
        have hrest : ¬ ∀ p ∈ pointers, Resolves m p := by
          intro hall
          apply hres
          intro p hp
          rcases List.mem_cons.mp hp with rfl | hp
          · exact ⟨hslash, v, hv⟩
          · exact hall p hp
        rw [hwalk]
        exact ih h₁ hrest
    · refine ⟨⟨.ecdsaSdError, "JSON pointer must start with '/': %", [.str pointer]⟩, ?_, rfl⟩
      rw [parsePointer, raiseIf, if_pos (by simpa using hslash)]
      rfl

end Walk

/-! ## The selection -/

section Selection

variable {document : Dict} {pointers : List Str}

theorem selectJsonLd_of_ne_nil (hne : pointers ≠ []) :
    selectJsonLd pointers document =
      some <$> selectPaths (.obj document) pointers (.obj (rootSelection document)) := by
  rw [selectJsonLd, if_neg]
  rwa [List.isEmpty_iff]

theorem agrees_rootSelection (hd : (Json.obj document).WF) :
    Agrees isRootLabel document [] (.obj (rootSelection document)) :=
  agrees_of_get? (wf_rootSelection hd) (get?_rootSelection document)

/-- A pointer that does not resolve raises. -/
theorem selectJsonLd_error (hd : (Json.obj document).WF) (hne : pointers ≠ [])
    (hres : ¬ ∀ p ∈ pointers, Resolves document p) :
    ∃ e, selectJsonLd pointers document = .error e ∧ e.cls = .ecdsaSdError := by
  obtain ⟨e, he, hcls⟩ := selectPaths_error hd (agrees_rootSelection hd) hres
  exact ⟨e, by rw [selectJsonLd_of_ne_nil hne, he]; rfl, hcls⟩

/-- The selection has the members of the cut. -/
theorem selectJsonLd_cut (hd : (Json.obj document).WF) (hne : pointers ≠ [])
    (hres : ∀ p ∈ pointers, Resolves document p) :
    ∃ r : Json, selectJsonLd pointers document = .ok (some r) ∧ r.WF ∧
      Same r (.obj (cutMembers isLabel document isRootLabel (pointers.map pointerTokens).reverse)) := by
  obtain ⟨r, hr, hagree⟩ := selectPaths_agrees hd (agrees_rootSelection hd) hres
  rw [List.append_nil, agrees_iff hd] at hagree
  exact ⟨r, by rw [selectJsonLd_of_ne_nil hne, hr]; rfl, hagree⟩

/-- The least sub-document that selects what the pointers lead to. -/
structure Least (document : Dict) (pointers : List Str) (r : Json) : Prop where
  wf : r.WF
  within : Within r (.obj document)
  selects : Selects document pointers r
  least : ∀ s, s.WF → Selects document pointers s → Within r s

theorem selects_congr {pointers' : List Str} {s : Json} (h : ∀ p ∈ pointers', p ∈ pointers)
    (hs : Selects document pointers s) : Selects document pointers' s := by
  refine Covers.mono (fun q hq => ?_) hs
  obtain ⟨p, hp, rfl⟩ := List.mem_map.mp hq
  exact List.mem_map.mpr ⟨p, h p hp, rfl⟩

theorem exists_obj_of_selects {s : Json} (h : Selects document pointers s) (hne : pointers ≠ [])
    (hres : ∀ p ∈ pointers, Resolves document p) : ∃ m, s = .obj m := by
  obtain ⟨p, hp⟩ := List.exists_mem_of_ne_nil _ hne
  obtain ⟨-, v, hv⟩ := hres p hp
  obtain ⟨w, hw, -⟩ := h.pointed _ (List.mem_map.mpr ⟨p, hp, rfl⟩) v hv
  obtain ⟨k, q, hkq⟩ := List.exists_cons_of_ne_nil (pointerTokens_ne_nil p)
  rw [hkq] at hw
  obtain ⟨m, -, hobj, -⟩ := at?_cons_eq_some.mp hw
  exact ⟨m, hobj⟩

/-- What pointers that resolve select is the least sub-document of that kind. -/
theorem selectJsonLd_least (hd : (Json.obj document).WF) (hne : pointers ≠ [])
    (hres : ∀ p ∈ pointers, Resolves document p) :
    ∃ r, selectJsonLd pointers document = .ok (some r) ∧ Least document pointers r := by
  obtain ⟨r, hr, hwf, hsame⟩ := selectJsonLd_cut hd hne hres
  have hcut : (Json.obj (cutMembers isLabel document isRootLabel
    (pointers.map pointerTokens).reverse)).WF := wf_cutMembers hd
  refine ⟨r, hr, hwf, ?_, ?_, fun s hs hsel => ?_⟩
  · exact (hsame.within hwf hcut).trans hwf hcut hd (cutMembers_within_obj hd)
  · have htokens : ∀ p ∈ (pointers.map pointerTokens).reverse, p ≠ [] := by
      intro p hp
      obtain ⟨q, -, rfl⟩ := List.mem_map.mp (List.mem_reverse.mp hp)
      exact pointerTokens_ne_nil q
    have hcovers := @covers_cutMembers isLabel isRootLabel _ _ hd htokens
    refine Covers.mono (fun p hp => List.mem_reverse.mpr hp) (hcovers.congr hd hcut hwf ?_)
    exact hsame.symm hwf hcut
  · have hs' : Covers isLabel isRootLabel (.obj document) (pointers.map pointerTokens).reverse s :=
      Covers.mono (fun p hp => List.mem_reverse.mp hp) hsel
    obtain ⟨m', rfl⟩ := exists_obj_of_selects hsel hne hres
    have hresolve : ∀ p ∈ (pointers.map pointerTokens).reverse, ∃ w, (Json.obj document).at? p = some w := by
      intro p hp
      obtain ⟨q, hq, rfl⟩ := List.mem_map.mp (List.mem_reverse.mp hp)
      exact (hres q hq).2
    exact (hsame.within hwf hcut).trans hwf hcut hs (cutMembers_least hd hs hresolve hs')

theorem isLabel_congr (k : Str) (v w : Json) (h : Same v w) (hv : isLabel k v = true) :
    isLabel k w = true := by
  unfold isLabel at *
  cases v with
  | str s =>
    cases w with
    | str s' => exact hv
    | _ => cases h
  | _ =>
    simp only [str?, Option.isSome_none, Bool.and_false, Bool.false_or] at hv
    rw [hv, Bool.or_true]

theorem isRootLabel_congr (k : Str) (v w : Json) (h : Same v w) (hv : isRootLabel k v = true) :
    isRootLabel k w = true := by
  unfold isRootLabel at *
  rw [Bool.or_eq_true] at *
  exact hv.imp_left (isLabel_congr k v w h)

theorem Least.mono {pointers' : List Str} {r r' : Json} (h' : Least document pointers' r')
    (h : Least document pointers r) (hsub : ∀ p ∈ pointers', p ∈ pointers) : Within r' r :=
  h'.least r h.wf (selects_congr hsub h.selects)

/-- What resolves in the document does so in the selection. -/
theorem Least.resolves {r : Dict} (h : Least document pointers (.obj r))
    (hres : ∀ p ∈ pointers, Resolves document p) : ∀ p ∈ pointers, Resolves r p := by
  intro p hp
  obtain ⟨hslash, v, hv⟩ := hres p hp
  obtain ⟨w, hw, -⟩ := h.selects.pointed _ (List.mem_map.mpr ⟨p, hp, rfl⟩) v hv
  exact ⟨hslash, w, hw⟩

theorem Least.again {r : Dict} {r' : Json} (hd : (Json.obj document).WF)
    (h : Least document pointers (.obj r)) (h' : Least r pointers r') : Same r' (.obj r) := by
  refine Within.antisymm h'.wf h.wf h'.within (h.least r' h'.wf ?_)
  exact Covers.trans hd h.wf h'.wf isLabel_congr isRootLabel_congr h.selects h'.selects

end Selection

end OpenVC.EcdsaSd
