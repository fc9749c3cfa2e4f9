import OpenVC.Python.Calling
import OpenVC.TrustList.Model

/-!
# The lists a walk visits

A walk over the pointers of a root ends with the anchors of the lists it admitted, in the order of
the pointers, unless a list raised what no `except` catches.
-/

namespace OpenVC.TrustList

open Python Calling

variable {Cert : Type} {R C : Type} {decide : C → TslPointer Cert → Decision × C}
  {judge : TslPointer Cert → Result R → Result (Admission Cert)} {select : Option Select}

/-- A fetch and its outcome. -/
abbrev Fetched (R : Type) := Answer Str (fun _ => R) Err

/-- The pointers that are followed. -/
def followed (decide : C → TslPointer Cert → Decision × C) :
    C → List (TslPointer Cert) → List (TslPointer Cert)
  | _, [] => []
  | c, p :: ps =>
    match decide c p with
    | (.follow, c') => p :: followed decide c' ps
    | (_, c') => followed decide c' ps

theorem followed_subset (c : C) (ps : List (TslPointer Cert)) : followed decide c ps ⊆ ps := by
  induction ps generalizing c with
  | nil => exact List.Subset.refl _
  | cons p ps ih =>
    rw [followed]
    split
    · exact List.cons_subset_cons p (ih _)
    · exact List.Subset.trans (ih _) (List.subset_cons_self p ps)

/-- The anchors a list contributes. -/
def anchorsOf (select : Option Select) : Admission Cert → List (TrustServiceAnchor Cert)
  | .error _ => []
  | .ok list => selected select list

theorem anchors_addAdmission (set : TrustAnchorSet Cert) (a : Admission Cert) :
    (addAdmission select set a).anchors = set.anchors ++ anchorsOf select a := by
  cases a with
  | error problem => exact (List.append_nil _).symm
  | ok list => rfl

/-- The lists of the pointers that were followed, each from the outcome of its fetch. -/
inductive Visits (judge : TslPointer Cert → Result R → Result (Admission Cert)) :
    List (TslPointer Cert) → List (Fetched R) → List (Admission Cert) → Prop
  | nil : Visits judge [] [] []
  | cons {p : TslPointer Cert} {ps : List (TslPointer Cert)} {r : Result R} {l : List (Fetched R)}
      {a : Admission Cert} {as : List (Admission Cert)} (ha : judge p r = .ok a)
      (h : Visits judge ps l as) : Visits judge (p :: ps) (⟨p.location, r⟩ :: l) (a :: as)

/-- How a walk over pointers ends well. -/
structure Walked (judge : TslPointer Cert → Result R → Result (Admission Cert))
    (select : Option Select) (ps : List (TslPointer Cert)) (l : List (Fetched R))
    (set set' : TrustAnchorSet Cert) (as : List (Admission Cert)) : Prop where
  visits : Visits judge ps l as
  anchors : set'.anchors = set.anchors ++ as.flatMap (anchorsOf select)
  kept : ∀ problem ∈ set.problems, problem ∈ set'.problems
  problems : ∀ problem, .error problem ∈ as → problem ∈ set'.problems

/-- How it is ended by a list. -/
def Aborted (judge : TslPointer Cert → Result R → Result (Admission Cert))
    (ps : List (TslPointer Cert)) (l : List (Fetched R)) (e : Err) : Prop :=
  ∃ p ∈ ps, ∃ r, ⟨p.location, r⟩ ∈ l ∧ judge p r = .error e

/-- The first pointer that is followed, and the walk over the rest. -/
theorem Walked.cons {p : TslPointer Cert} {ps : List (TslPointer Cert)} {r : Result R}
    {l : List (Fetched R)} {a : Admission Cert} {as : List (Admission Cert)}
    {set set' : TrustAnchorSet Cert} (ha : judge p r = .ok a)
    (h : Walked judge select ps l (addAdmission select set a) set' as) :
    Walked judge select (p :: ps) (⟨p.location, r⟩ :: l) set set' (a :: as) where
  visits := .cons ha h.visits
  anchors := by
    rw [h.anchors, anchors_addAdmission, List.append_assoc]
    rfl
  kept problem hp := by
    apply h.kept
    cases a with
    | error q => exact List.mem_append_left _ hp
    | ok list => exact hp
  problems problem hp := by
    rcases List.mem_cons.mp hp with rfl | hp
    · exact h.kept problem (List.mem_append_right _ (List.mem_singleton_self _))
    · exact h.problems problem hp

theorem Walked.of_kept {ps : List (TslPointer Cert)} {l : List (Fetched R)}
    {as : List (Admission Cert)} {set mid set' : TrustAnchorSet Cert}
    (h : Walked judge select ps l mid set' as) (hanchors : mid.anchors = set.anchors)
    (hkept : ∀ problem ∈ set.problems, problem ∈ mid.problems) :
    Walked judge select ps l set set' as where
  visits := h.visits
  anchors := by rw [h.anchors, hanchors]
  kept problem hp := h.kept problem (hkept problem hp)
  problems := h.problems

/-- A pointer that is followed is fetched, and its list is added or ends the walk. -/
theorem traced_follow {c c' : C} {set : TrustAnchorSet Cert} {p : TslPointer Cert}
    {f : C × TrustAnchorSet Cert → Fetching R (C × TrustAnchorSet Cert)} {l : List (Fetched R)}
    {result : Result (C × TrustAnchorSet Cert)} (hdecide : decide c p = (.follow, c'))
    (h : Traced (visit decide judge select (c, set) p >>= f) l result) :
    ∃ r l', l = ⟨p.location, r⟩ :: l' ∧ ((∃ e, judge p r = .error e ∧ result = .error e) ∨
      ∃ a, judge p r = .ok a ∧ Traced (f (c', addAdmission select set a)) l' result) := by
  rw [visit, hdecide] at h
  obtain ⟨r, l', hl, hrest⟩ := traced_call.mp h
  refine ⟨r, l', hl, ?_⟩
  change Traced (((judge p r : Result (Admission Cert)) : Fetching R (Admission Cert)).bind
    (fun a => pure (c', addAdmission select set a)) >>= f) l' result at hrest
  cases ha : judge p r with
  | error e =>
    rw [ha] at hrest
    exact .inl ⟨e, rfl, (traced_done.mp hrest).2⟩
  | ok a =>
    rw [ha] at hrest
    exact .inr ⟨a, rfl, hrest⟩

/-- A walk visits the pointers it follows, or a list ends it. -/
theorem traced_walk {c : C} {set : TrustAnchorSet Cert} {ps : List (TslPointer Cert)}
    {l : List (Fetched R)} {result : Result (C × TrustAnchorSet Cert)}
    (h : Traced (forEach (visit decide judge select) (c, set) ps) l result) :
    (∃ c' set' as, result = .ok (c', set') ∧
      Walked judge select (followed decide c ps) l set set' as) ∨
    ∃ e, result = .error e ∧ Aborted judge (followed decide c ps) l e := by
  induction ps generalizing c set l with
  | nil =>
    obtain ⟨rfl, rfl⟩ := traced_pure.mp h
    exact .inl ⟨c, set, [], rfl, .nil, (List.append_nil _).symm, fun _ hp => hp, nofun⟩
  | cons p ps ih =>
    rw [forEach] at h
    rw [followed]
    cases hdecide : decide c p with
    | mk decision c' =>
      cases decision with
      | skip =>
        rw [visit, hdecide] at h
        exact ih h
      | note problem =>
        rw [visit, hdecide] at h
        rcases ih h with ⟨c', set', as, hr, hw⟩ | hr
        · exact .inl ⟨c', set', as, hr, hw.of_kept rfl fun _ hp => List.mem_append_left _ hp⟩
        · exact .inr hr
      | follow =>
        obtain ⟨r, l', rfl, ⟨e, ha, hr⟩ | ⟨a, ha, h⟩⟩ := traced_follow hdecide h
        · exact .inr ⟨e, hr, p, List.mem_cons_self, r, List.mem_cons_self, ha⟩
        · rcases ih h with ⟨c', set', as, hr, hw⟩ | ⟨e, hr, p', hp', r', hr', ha'⟩
          · exact .inl ⟨c', set', a :: as, hr, hw.cons ha⟩
          · exact .inr ⟨e, hr, p', List.mem_cons_of_mem _ hp', r', List.mem_cons_of_mem _ hr', ha'⟩

/-- Every list that was admitted or refused is that of a pointer and of the outcome of its fetch. -/
theorem Visits.exists_of_mem {ps : List (TslPointer Cert)} {l : List (Fetched R)}
    {as : List (Admission Cert)} (h : Visits judge ps l as) {a : Admission Cert} (ha : a ∈ as) :
    ∃ p r, (p, (⟨p.location, r⟩ : Fetched R)) ∈ ps.zip l ∧ judge p r = .ok a := by
  induction h with
  | nil => cases ha
  | cons hadmit _ ih =>
    rcases List.mem_cons.mp ha with rfl | ha
    · exact ⟨_, _, List.mem_cons_self, hadmit⟩
    · obtain ⟨p, r, hmem, h⟩ := ih ha
      exact ⟨p, r, List.mem_cons_of_mem _ hmem, h⟩

/-- A walk from what has been collected so far, without what it keeps besides its result. -/
theorem traced_walk_set {c : C} {set : TrustAnchorSet Cert} {ps : List (TslPointer Cert)}
    {l : List (Fetched R)} {result : Result (TrustAnchorSet Cert)}
    (h : Traced (forEach (visit decide judge select) (c, set) ps >>= fun st => pure st.2) l result) :
    (∃ set' as, result = .ok set' ∧ Walked judge select (followed decide c ps) l set set' as) ∨
      ∃ e, result = .error e ∧ Aborted judge (followed decide c ps) l e := by
  rcases traced_bind.mp h with ⟨e, he, hr⟩ | ⟨st, l₁, l₂, hst, hpure, rfl⟩
  · rcases traced_walk he with ⟨_, _, _, hok, _⟩ | ⟨e', he', haborted⟩
    · cases hok
    · cases he'
      exact .inr ⟨e, hr, haborted⟩
  · obtain ⟨rfl, hr⟩ := traced_pure.mp hpure
    rw [List.append_nil]
    rcases traced_walk hst with ⟨c', set', as, hok, hw⟩ | ⟨e, he, _⟩
    · cases hok
      exact .inl ⟨set', as, hr, hw⟩
    · cases he

/-! ## One list -/

section admitFetched

variable {url : Str} {stage : Err → Str} {consume : R → Result (TrustedList Cert)}
  {current : TrustedList Cert → Result (Admission Cert)} {r : Result R}

theorem admitFetched_of_ok {served : R} {list : TrustedList Cert} (h : consume served = .ok list) :
    admitFetched url stage consume current (.ok served) = current list := by
  simp only [admitFetched, h]

/-- A list that is admitted was fetched and consumed, and is current. -/
theorem admitFetched_eq_ok {list : TrustedList Cert} :
    admitFetched url stage consume current r = .ok (.ok list) ↔
      ∃ served consumed, r = .ok served ∧ consume served = .ok consumed ∧
        current consumed = .ok (.ok list) := by
  unfold admitFetched
  constructor
  · intro h
    split at h
    · cases h
    · rename_i served
      split at h
      · split at h <;> cases h
      · rename_i consumed hconsumed
        exact ⟨served, consumed, rfl, hconsumed, h⟩
  · rintro ⟨served, consumed, rfl, hconsumed, hcurrent⟩
    simp only [hconsumed]
    exact hcurrent

/-- What the `except` clauses leave: an exception of the consumption that is no `TrustListError`, and
any of what comes after it. -/
theorem admitFetched_eq_error {e : Err} :
    admitFetched url stage consume current r = .error e ↔ ∃ served, r = .ok served ∧
      ((consume served = .error e ∧ e.cls.isa .trustListError = false) ∨
        ∃ list, consume served = .ok list ∧ current list = .error e) := by
  unfold admitFetched
  constructor
  · intro h
    split at h
    · cases h
    · rename_i served
      refine ⟨served, rfl, ?_⟩
      split at h
      · rename_i e' he'
        split at h
        · cases h
        · rename_i hisa
          cases h
          exact .inl ⟨he', eq_false_of_ne_true hisa⟩
      · rename_i list hlist
        exact .inr ⟨list, hlist, h⟩
  · rintro ⟨served, rfl, ⟨he, hisa⟩ | ⟨list, hlist, he⟩⟩
    · simp only [he, hisa, Bool.false_eq_true, if_false]
    · simp only [hlist]
      exact he

end admitFetched

end OpenVC.TrustList
