import OpenVC.Proof.Proofs.SelectJsonLdProofs
import OpenVC.Proof.SelectJsonLd

/-!
# The document is not written to

The selection built in place is the one that `selectJsonLd` returns. Nothing of the document is written
to on the way, and nothing of it is part of the selection.
-/

namespace OpenVC.EcdsaSd

open Python Owned

/-! ## Nothing of the document is written to -/

theorem safe_setItem {sel value : Owned} (tok : Str) (hsel : sel.OwnedBy .callee)
    (hvalue : value.OwnedBy .callee) : (setItemInPlace sel tok value).Safe (OwnedBy .callee) := by
  unfold setItemInPlace
  split
  · rename_i owner m
    refine ⟨fun o ho => ?_, fun a ha => ?_⟩
    · rw [List.mem_singleton.mp ho]
      exact hsel.1
    · cases ha
      exact ⟨hsel.1, membersOwnedBy_setMember hsel.2 hvalue⟩
  · exact Run.safe_still fun a ha => by cases ha

theorem safe_getItem {sel : Owned} (tok : Str) (hsel : sel.OwnedBy .callee) :
    (getItemInPlace sel tok).Safe (OwnedBy .callee) := by
  unfold getItemInPlace
  split
  · rename_i owner m
    refine Run.safe_still fun a ha => ?_
    cases ha
    cases h : m.lookup tok with
    | none => trivial
    | some v => exact ownedBy_of_lookup hsel.2 h
  · exact Run.safe_still fun a ha => by cases ha

theorem safe_pure {α : Type} {a : α} {P : α → Prop} (h : P a) : (pure a : Run Err α).Safe P :=
  Run.safe_still fun b hb => by cases hb; exact h

theorem safe_copyString {source : List (Str × Owned)} (key : Str) {sel : Owned}
    (hsel : sel.OwnedBy .callee) : (copyStringInPlace source key sel).Safe (OwnedBy .callee) := by
  unfold copyStringInPlace
  split
  · exact safe_setItem key hsel trivial
  · exact safe_pure hsel

theorem safe_copyMember {source : List (Str × Owned)} (key : Str) {sel : Owned}
    (hsel : sel.OwnedBy .callee) : (copyMemberInPlace source key sel).Safe (OwnedBy .callee) := by
  unfold copyMemberInPlace
  split
  · exact safe_setItem key hsel (ownedBy_deepcopy _)
  · exact safe_pure hsel

theorem safe_initialSelection (source : Owned) :
    (initialSelectionInPlace source).Safe (OwnedBy .callee) := by
  unfold initialSelectionInPlace
  split
  · have hnew : (Owned.obj .callee []).OwnedBy .callee := ⟨rfl, trivial⟩
    refine (safe_copyString "@id" hnew).bind fun sel hsel => ?_
    refine (safe_copyString "id" hsel).bind fun sel hsel => ?_
    exact safe_copyMember "type" hsel
  · have hnew : (Owned.obj .callee []).OwnedBy .callee := ⟨rfl, trivial⟩
    exact safe_pure hnew

theorem safe_child {sel existing : Owned} (tok : Str) (value : Owned) (hsel : sel.OwnedBy .callee)
    (hexisting : existing.OwnedBy .callee) : (childInPlace sel tok existing value).Safe
      fun r => r.1.OwnedBy .callee ∧ r.2.OwnedBy .callee := by
  unfold childInPlace
  split
  · refine (safe_initialSelection value).bind fun child hchild => ?_
    refine (safe_setItem tok hsel hchild).bind fun sel hsel => ?_
    exact safe_pure ⟨hsel, hchild⟩
  · exact safe_pure ⟨hsel, hexisting⟩

theorem ownedBy_withChild {sel child : Owned} {tok : Str} (hsel : sel.OwnedBy .callee)
    (hchild : child.OwnedBy .callee) : (withChild sel tok child).OwnedBy .callee := by
  unfold withChild
  split
  · exact ⟨hsel.1, membersOwnedBy_setMember hsel.2 hchild⟩
  · exact hsel

theorem safe_selectPath (tokens : List Str) {src sel : Owned} (hsel : sel.OwnedBy .callee) :
    (selectPathInPlace tokens src sel).Safe (OwnedBy .callee) := by
  induction tokens generalizing src sel with
  | nil => exact safe_pure hsel
  | cons tok rest ih =>
    cases src with
    | obj owner members =>
      unfold selectPathInPlace
      split
      · exact Run.safe_still fun a ha => by cases ha
      · split
        · exact safe_setItem tok hsel (ownedBy_deepcopy _)
        · refine (safe_getItem tok hsel).bind fun existing hexisting => ?_
          refine (safe_child tok _ hsel hexisting).bind fun ⟨sel, child⟩ hr => ?_
          exact (ih hr.2).bind fun child hchild => safe_pure (ownedBy_withChild hr.1 hchild)
    | _ => exact Run.safe_still fun a ha => by cases ha

theorem safe_selectPaths (document : Owned) (pointers : List Str) {sel : Owned}
    (hsel : sel.OwnedBy .callee) : (selectPathsInPlace document pointers sel).Safe (OwnedBy .callee) := by
  induction pointers generalizing sel with
  | nil => exact safe_pure hsel
  | cons pointer pointers ih =>
    have htokens : (Run.still (parsePointer pointer)).Safe fun _ => True :=
      Run.safe_still fun _ _ => trivial
    refine htokens.bind fun tokens _ => ?_
    exact (safe_selectPath tokens hsel).bind fun sel hsel => ih hsel

/-- Whatever the document and the pointers, only what the call itself built is written to, and the
selection has nothing in common with the document. -/
theorem safe_selectJsonLd (pointers : List Str) (document : List (Str × Owned)) :
    (selectJsonLdInPlace pointers document).Safe fun r => ∀ v ∈ r, v.OwnedBy .callee := by
  unfold selectJsonLdInPlace
  split
  · exact safe_pure fun v hv => by cases hv
  · refine (safe_initialSelection _).bind fun sel hsel => ?_
    refine (safe_copyMember "@context" hsel).bind fun sel hsel => ?_
    refine (safe_selectPaths _ pointers hsel).bind fun sel hsel => ?_
    refine safe_pure fun v hv => ?_
    cases hv
    exact hsel

/-! ## What is built in place -/

/-- The run ends as the computation does, the owners of its containers apart. -/
def EndsAs (r : Run Err Owned) (x : Result Json) : Prop := r.result.map plain = x

theorem EndsAs.bind {r : Run Err Owned} {x : Result Json} {f : Owned → Run Err Owned}
    {g : Json → Result Json} (h : EndsAs r x) (hf : ∀ a, r.result = .ok a → EndsAs (f a) (g a.plain)) :
    EndsAs (r >>= f) (x >>= g) := by
  unfold EndsAs at *
  rw [Run.result_bind, ← h]
  cases hr : r.result with
  | error e => rfl
  | ok a => exact hf a hr

theorem endsAs_setItem (sel value : Owned) (tok : Str) :
    EndsAs (setItemInPlace sel tok value) (setItem sel.plain tok value.plain) := by
  unfold setItemInPlace
  cases sel with
  | obj owner m =>
    change Except.ok _ = _
    rw [plain, plainMembers_setMember]
    rfl
  | _ => rfl

theorem endsAs_copyString (source : List (Str × Owned)) (key : Str) {sel : Owned} {m : Dict}
    (hsel : sel.plain = .obj m) : EndsAs (copyStringInPlace source key sel)
      (.ok (.obj (copyString (plainMembers source) key m))) := by
  unfold copyStringInPlace copyString
  rw [get?_plainMembers]
  cases source.lookup key with
  | none => exact congrArg Except.ok hsel
  | some v =>
    cases v with
    | str s =>
      have h := endsAs_setItem sel (.str s) key
      rw [hsel] at h
      exact h
    | _ => exact congrArg Except.ok hsel

theorem endsAs_copyMember (source : List (Str × Owned)) (key : Str) {sel : Owned} {m : Dict}
    (hsel : sel.plain = .obj m) : EndsAs (copyMemberInPlace source key sel)
      (.ok (.obj (copyMember (plainMembers source) key m))) := by
  unfold copyMemberInPlace copyMember
  rw [get?_plainMembers]
  cases source.lookup key with
  | none => exact congrArg Except.ok hsel
  | some v =>
    have h := endsAs_setItem sel v.deepcopy key
    rw [hsel, plain_deepcopy] at h
    exact h

theorem exists_plain_obj {r : Run Err Owned} {m : Dict} {a : Owned} (h : EndsAs r (.ok (.obj m)))
    (ha : r.result = .ok a) : a.plain = .obj m := by
  unfold EndsAs at h
  rw [ha] at h
  exact Except.ok.inj h

theorem endsAs_initialSelection (source : Owned) : EndsAs (initialSelectionInPlace source)
    (.ok (.obj (initialSelection source.plain))) := by
  unfold initialSelectionInPlace
  cases source with
  | obj owner m =>
    have h₁ : EndsAs (copyStringInPlace m "@id" (.obj .callee []))
        (.ok (.obj (copyString (plainMembers m) "@id" []))) := endsAs_copyString m "@id" rfl
    refine h₁.bind (g := fun _ => _) fun sel₁ hsel₁ => ?_
    have h₂ := endsAs_copyString m "id" (exists_plain_obj h₁ hsel₁)
    refine h₂.bind (g := fun _ => _) fun sel₂ hsel₂ => ?_
    exact endsAs_copyMember m "type" (exists_plain_obj h₂ hsel₂)
  | _ => rfl

theorem set_set (m : Dict) (k : Str) (v w : Json) : Dict.set (Dict.set m k v) k w = Dict.set m k w := by
  induction m with
  | nil => simp [Dict.set]
  | cons p m ih =>
    obtain ⟨k', v'⟩ := p
    by_cases hk : k' = k
    · simp [Dict.set, hk]
    · simp [Dict.set, hk, ih]

/-- Going on in the child and writing back what it has become. -/
theorem endsAs_child {rest : List Str} {tok : Str} {owner : Owner} {m : List (Str × Owned)}
    {existing value : Owned}
    (h : ∀ child, EndsAs (selectPathInPlace rest value child) (selectPath rest value.plain child.plain)) :
    EndsAs (do
        let (sel, child) ← childInPlace (.obj owner m) tok existing value
        let child ← selectPathInPlace rest value child
        return withChild sel tok child)
      (selectPath rest value.plain (childOf existing.plain value.plain) >>=
        setItem (.obj (plainMembers m)) tok) := by
  -- the child is there already
  have hthere : EndsAs (do
        let child ← selectPathInPlace rest value existing
        return withChild (.obj owner m) tok child)
      (selectPath rest value.plain existing.plain >>= setItem (.obj (plainMembers m)) tok) := by
    refine (h existing).bind fun child _ => ?_
    change Except.ok (Json.obj (plainMembers (setMember m tok child))) = _
    rw [plainMembers_setMember]
    rfl
  cases existing with
  | null =>
    have hinit := endsAs_initialSelection value
    obtain ⟨child₀, hrun⟩ : ∃ child₀, (initialSelectionInPlace value).result = .ok child₀ := by
      unfold EndsAs at hinit
      cases hr : (initialSelectionInPlace value).result with
      | error e =>
        rw [hr] at hinit
        cases hinit
      | ok child₀ => exact ⟨child₀, rfl⟩
    have hchild₀ := exists_plain_obj hinit hrun
    have hwalk := h child₀
    unfold EndsAs at hwalk ⊢
    simp only [childInPlace, Run.result_bind, hrun, setItemInPlace]
    change Except.map plain ((selectPathInPlace rest value child₀).result >>= _) = _
    rw [show childOf Owned.null.plain value.plain = child₀.plain from hchild₀.symm, ← hwalk]
    cases hr : (selectPathInPlace rest value child₀).result with
    | error e => rfl
    | ok child =>
      change Except.ok (Json.obj (plainMembers (setMember (setMember m tok child₀) tok child))) = _
      rw [plainMembers_setMember, plainMembers_setMember, set_set]
      rfl
  | _ => exact hthere

theorem endsAs_selectPath (tokens : List Str) (src sel : Owned) :
    EndsAs (selectPathInPlace tokens src sel) (selectPath tokens src.plain sel.plain) := by
  induction tokens generalizing src sel with
  | nil => rfl
  | cons tok rest ih =>
    cases src with
    | obj owner members =>
      unfold selectPathInPlace
      rw [plain]
      cases hvalue : members.lookup tok with
      | none =>
        have hnone : Dict.get? (plainMembers members) tok = none := by
          rw [get?_plainMembers, hvalue, Option.map_none]
        rw [selectPath, Json.obj?, orRaise]
        change _ = (orRaise (Dict.get? _ tok) _ >>= _)
        rw [hnone]
        rfl
      | some value =>
        have hsome : Dict.get? (plainMembers members) tok = some value.plain := by
          rw [get?_plainMembers, hvalue, Option.map_some]
        rw [selectPath_cons hsome]
        by_cases hrest : rest.isEmpty = true
        · rw [if_pos hrest]
          change EndsAs (if _ then _ else _) _
          rw [if_pos hrest]
          have h := endsAs_setItem sel value.deepcopy tok
          rwa [plain_deepcopy] at h
        · rw [if_neg hrest]
          change EndsAs (if _ then _ else _) _
          rw [if_neg hrest]
          cases sel with
          | obj owner' m =>
            have hexisting : ((m.lookup tok).getD .null).plain = Dict.get (plainMembers m) tok := by
              rw [Dict.get, get?_plainMembers]
              cases m.lookup tok <;> rfl
            change EndsAs _ (selectPath rest value.plain (childOf (Dict.get (plainMembers m) tok) _) >>= _)
            rw [← hexisting]
            exact endsAs_child (ih value)
          | _ => rfl
    | _ => rfl

theorem endsAs_selectPaths (document : Owned) (pointers : List Str) (sel : Owned) :
    EndsAs (selectPathsInPlace document pointers sel) (selectPaths document.plain pointers sel.plain) := by
  induction pointers generalizing sel with
  | nil => rfl
  | cons pointer pointers ih =>
    unfold selectPathsInPlace selectPaths
    cases parsePointer pointer with
    | error e => rfl
    | ok tokens =>
      exact (endsAs_selectPath tokens document sel).bind fun sel' _ => ih sel'

/-- The selection that is built in place is the one that `selectJsonLd` returns. -/
theorem plain_selectJsonLdInPlace (pointers : List Str) (document : List (Str × Owned)) :
    (selectJsonLdInPlace pointers document).result.map (Option.map plain) =
      selectJsonLd pointers (plainMembers document) := by
  unfold selectJsonLdInPlace selectJsonLd
  by_cases hempty : pointers.isEmpty = true
  · rw [if_pos hempty, if_pos hempty]
    rfl
  · rw [if_neg hempty, if_neg hempty]
    have hinit := endsAs_initialSelection (.obj .caller document)
    have hroot : EndsAs (do
        let sel ← initialSelectionInPlace (.obj .caller document)
        copyMemberInPlace document "@context" sel) (.ok (.obj (rootSelection (plainMembers document)))) :=
      hinit.bind (g := fun _ => _) fun sel hsel =>
        endsAs_copyMember document "@context" (exists_plain_obj hinit hsel)
    have hpaths := hroot.bind (f := selectPathsInPlace (.obj .caller document) pointers)
      (g := fun _ => selectPaths (.obj (plainMembers document)) pointers
        (.obj (rootSelection (plainMembers document)))) fun sel hsel => by
          have h := endsAs_selectPaths (.obj .caller document) pointers sel
          rw [exists_plain_obj hroot hsel] at h
          exact h
    unfold EndsAs at hpaths
    change _ = some <$> selectPaths (.obj (plainMembers document)) pointers
      (.obj (rootSelection (plainMembers document)))
    change Except.map plain (Run.result _) = selectPaths (.obj (plainMembers document)) pointers
      (.obj (rootSelection (plainMembers document))) at hpaths
    rw [← hpaths]
    simp only [Run.result_bind, bind_assoc]
    cases (initialSelectionInPlace (.obj .caller document)).result with
    | error e => rfl
    | ok sel₁ =>
      rw [Run.ok_bind, Run.ok_bind]
      cases (copyMemberInPlace document "@context" sel₁).result with
      | error e => rfl
      | ok sel₂ =>
        rw [Run.ok_bind, Run.ok_bind]
        cases (selectPathsInPlace (.obj .caller document) pointers sel₂).result <;> rfl
/-! ## The selection -/

/-- With pointers that all resolve the selection is the least sub-document that has what they lead to,
and the labels of the objects on the way and the context with it. Their order and their repetition do
not matter, fewer pointers select no more, and selecting from the selection changes nothing. With any
other pointer the call raises. Either way only what the call itself built is written to, and nothing of
that is the caller's. -/
theorem selectJsonLd_spec (document : Dict) (hd : (Json.obj document).WF) (pointers : List Str)
    (hne : pointers ≠ []) :
    ((¬ ∀ p ∈ pointers, Resolves document p) →
      ∃ e, selectJsonLd pointers document = .error e ∧ e.cls = .ecdsaSdError) ∧
    ((∀ p ∈ pointers, Resolves document p) →
      ∃ r : Dict, selectJsonLd pointers document = .ok (some (.obj r)) ∧
        Least document pointers (.obj r) ∧
        (∀ pointers', (∀ p, p ∈ pointers' ↔ p ∈ pointers) →
          ∃ r', selectJsonLd pointers' document = .ok (some r') ∧ Json.Same r' (.obj r)) ∧
        (∃ r', selectJsonLd pointers r = .ok (some r') ∧ Json.Same r' (.obj r)) ∧
        ∀ pointers', pointers' ≠ [] → (∀ p ∈ pointers', p ∈ pointers) →
          ∃ r', selectJsonLd pointers' document = .ok (some r') ∧ Json.Within r' (.obj r)) ∧
    ∀ owned : List (Str × Owned), plainMembers owned = document →
      (∀ o ∈ (selectJsonLdInPlace pointers owned).writes, o = .callee) ∧
      (∀ r, (selectJsonLdInPlace pointers owned).result = .ok (some r) → r.OwnedBy .callee) ∧
      (selectJsonLdInPlace pointers owned).result.map (Option.map plain) =
        selectJsonLd pointers document := by
  refine ⟨selectJsonLd_error hd hne, fun hres => ?_, fun owned howned => ?_⟩
  · obtain ⟨v, hv, hleast⟩ := selectJsonLd_least hd hne hres
    obtain ⟨r, rfl⟩ := exists_obj_of_selects hleast.selects hne hres
    refine ⟨r, hv, hleast, fun pointers' hmem => ?_, ?_, fun pointers' hne' hsub => ?_⟩
    · have hne' : pointers' ≠ [] := by
        obtain ⟨p, hp⟩ := List.exists_mem_of_ne_nil _ hne
        exact List.ne_nil_of_mem ((hmem p).mpr hp)
      obtain ⟨r', hr', hleast'⟩ :=
        selectJsonLd_least hd hne' fun p hp => hres p ((hmem p).mp hp)
      refine ⟨r', hr', Json.Within.antisymm hleast'.wf hleast.wf ?_ ?_⟩
      · exact hleast'.mono hleast fun p hp => (hmem p).mp hp
      · exact hleast.mono hleast' fun p hp => (hmem p).mpr hp
    · obtain ⟨r', hr', hleast'⟩ := selectJsonLd_least hleast.wf hne (hleast.resolves hres)
      exact ⟨r', hr', hleast.again hd hleast'⟩
    · obtain ⟨r', hr', hleast'⟩ := selectJsonLd_least hd hne' fun p hp => hres p (hsub p hp)
      exact ⟨r', hr', hleast'.mono hleast hsub⟩
  · subst howned
    obtain ⟨hwrites, hresult⟩ := safe_selectJsonLd pointers owned
    exact ⟨hwrites, fun r hr => hresult _ hr r rfl, plain_selectJsonLdInPlace pointers owned⟩

/-- Two pointers into one object of a credential, in the other order. -/
theorem selectJsonLd_spec_subject :
    ∃ r r', selectJsonLd [lit "/subject/id", lit "/subject/name"]
        [(lit "type", .str (lit "T")), (lit "subject", .obj [(lit "id", .str (lit "urn:a")),
          (lit "name", .str (lit "n")), (lit "age", .int 7)])] = .ok (some r) ∧
      selectJsonLd [lit "/subject/name", lit "/subject/id"]
        [(lit "type", .str (lit "T")), (lit "subject", .obj [(lit "id", .str (lit "urn:a")),
          (lit "name", .str (lit "n")), (lit "age", .int 7)])] = .ok (some r') ∧ Json.Same r' r := by
  have hd : (Json.obj [(lit "type", .str (lit "T")), (lit "subject", .obj [(lit "id", .str (lit "urn:a")),
      (lit "name", .str (lit "n")), (lit "age", .int 7)])]).WF :=
    ⟨by decide, trivial, ⟨by decide, trivial, trivial, trivial, trivial⟩, trivial⟩
  have hspec := selectJsonLd_spec _ hd [lit "/subject/id", lit "/subject/name"] (by simp)
  obtain ⟨r, hr, -, horder, -⟩ := hspec.2.1 (by
    intro p hp
    rcases List.mem_cons.mp hp with rfl | hp
    · exact ⟨by decide, _, rfl⟩
    · rw [List.mem_singleton.mp hp]
      exact ⟨by decide, _, rfl⟩)
  obtain ⟨r', hr', hsame⟩ := horder [lit "/subject/name", lit "/subject/id"] (by
    intro p
    simp only [List.mem_cons, List.not_mem_nil, or_false]
    exact or_comm)
  exact ⟨_, r', hr, hr', hsame⟩

end OpenVC.EcdsaSd
