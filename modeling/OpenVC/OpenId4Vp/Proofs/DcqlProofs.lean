import OpenVC.OpenId4Vp.Presentation

/-!
# Queries, completeness and the pairing of results

What the walk over a DCQL query keeps of it, what a complete `vp_token` has answered, and that the
results of a response pair with its presentations in order.
-/

namespace OpenVC.OpenId4Vp

open Python

variable {H : Host} {M : Mdoc} {call : Call H M} {d : Durations} {auds : Option (List Str)}
  {dcql token query : Dict} {queries : Queries} {credentials : List Json}

/-! ## The query -/

/-- A Credential Query of a DCQL query. -/
def Queried (dcql : Dict) (id : Str) (query : Dict) : Prop :=
  ∃ credentials, dcql.get "credentials" = .arr credentials ∧ .obj query ∈ credentials ∧
    query.get "id" = .str id

/-- What the walk establishes about an entry and the query it becomes. -/
structure Indexed (entry : Json) (q : Str × Dict) : Prop where
  object : entry = .obj q.2
  id : q.2.get "id" = .str q.1
  binding : ∃ b, flag q.2 "require_cryptographic_holder_binding" true = .bool b
  multiple : ∃ b, flag q.2 "multiple" false = .bool b

theorem bool?_isNone_eq_false {v : Json} (h : v.bool?.isNone = false) : ∃ b, v = .bool b := by
  cases v with
  | bool b => exact ⟨b, rfl⟩
  | null | int | float | str | arr | obj => cases h

theorem indexQuery_eq_ok {entry : Json} {queries' : Queries}
    (h : indexQuery queries entry = .ok queries') :
    ∃ q, queries' = queries ++ [q] ∧ Indexed entry q ∧ queries.lookup q.1 = none := by
  simp only [indexQuery, bind_eq_ok, orRaise_eq_ok, raiseIf_eq_ok, pure_eq_ok] at h
  obtain ⟨query, hobj, id, hid, fmt, -, ⟨⟩, hnew, ⟨⟩, hbind, ⟨⟩, hmult, ⟨⟩, -, rfl⟩ := h
  refine ⟨(id, query), rfl, ⟨Json.obj?_eq_some.mp hobj, ?_, ?_, ?_⟩, by simpa using hnew⟩
  · exact Json.str?_eq_some.mp (Option.filter_eq_some_iff.mp hid).1
  · exact bool?_isNone_eq_false hbind
  · exact bool?_isNone_eq_false hmult

theorem not_mem_keys_of_lookup {id : Str} (h : queries.lookup id = none) :
    id ∉ queries.map Prod.fst := by
  intro hmem
  obtain ⟨q, hq, rfl⟩ := List.mem_map.mp hmem
  exact absurd (List.lookup_eq_none_iff.mp h q hq) (by simp)

/-- The walk keeps every entry, in order, under distinct ids. -/
theorem indexWalk (h : enumerateLoop (fun queries _ entry => indexQuery queries entry) [] 0
      credentials = .ok queries) :
    List.Forall₂ Indexed credentials queries ∧ (queries.map Prod.fst).Nodup := by
  refine enumerateLoop_preserves
    (fun done queries => List.Forall₂ Indexed done queries ∧ (queries.map Prod.fst).Nodup)
    ⟨.nil, List.nodup_nil⟩ h fun done queries entry queries' ⟨hdone, hnodup⟩ hstep => ?_
  obtain ⟨q, rfl, hq, hnew⟩ := indexQuery_eq_ok hstep
  refine ⟨List.rel_append hdone (.cons hq .nil), ?_⟩
  rw [List.map_append, List.nodup_append]
  refine ⟨hnodup, List.nodup_singleton _, fun a ha b hb => ?_⟩
  rw [List.map_singleton, List.mem_singleton] at hb
  rintro rfl
  exact not_mem_keys_of_lookup hnew (hb ▸ ha)

/-- The index of a query that was read: its entries, and the shape of its sets. -/
theorem indexDcql_eq_ok {dcqlQuery : Json} (h : indexDcql dcqlQuery = .ok (dcql, queries)) :
    dcqlQuery = .obj dcql ∧ (∃ credentials, dcql.get "credentials" = .arr credentials ∧
      List.Forall₂ Indexed credentials queries) ∧ (queries.map Prod.fst).Nodup ∧
    checkPresentSets dcql queries = .ok () := by
  simp only [indexDcql, bind_eq_ok, orRaise_eq_ok, pure_eq_ok, Prod.mk.injEq] at h
  obtain ⟨dcql', hobj, credentials, hcred, queries', hwalk, ⟨⟩, hsets, rfl, rfl⟩ := h
  obtain ⟨hall, hnodup⟩ := indexWalk hwalk
  exact ⟨Json.obj?_eq_some.mp hobj,
    ⟨credentials, Json.arr?_eq_some.mp (Option.filter_eq_some_iff.mp hcred).1, hall⟩, hnodup, hsets⟩

theorem mem_of_lookup {id : Str} (h : queries.lookup id = some query) : (id, query) ∈ queries := by
  obtain ⟨l, r, rfl, -⟩ := List.lookup_eq_some_iff.mp h
  simp

/-- A query that was found is one of the DCQL query, with its flags. -/
theorem queried_of_lookup {id : Str} (hcred : dcql.get "credentials" = .arr credentials)
    (hall : List.Forall₂ Indexed credentials queries) (h : queries.lookup id = some query) :
    Queried dcql id query ∧ Indexed (.obj query) (id, query) := by
  obtain ⟨entry, hentry, hi⟩ := exists_of_mem_right hall (mem_of_lookup h)
  obtain rfl : entry = .obj query := hi.object
  exact ⟨⟨credentials, hcred, hentry, hi.id⟩, hi⟩

/-- Two queries with one id are one query. -/
theorem Queried.unique (hcred : dcql.get "credentials" = .arr credentials)
    (hall : List.Forall₂ Indexed credentials queries) (hnodup : (queries.map Prod.fst).Nodup)
    {id : Str} {query' : Dict} (h : Queried dcql id query) (h' : Queried dcql id query') :
    query = query' := by
  have hmem : ∀ {q : Dict}, Queried dcql id q → (id, q) ∈ queries := by
    rintro q ⟨credentials', hcred', hq, hid⟩
    obtain rfl : credentials' = credentials := Json.arr.inj (hcred'.symm.trans hcred)
    obtain ⟨⟨id', q'⟩, hq', hi⟩ := exists_of_mem_left hall hq
    obtain rfl : q = q' := Json.obj.inj hi.object
    obtain rfl : id = id' := Json.str.inj (hid.symm.trans hi.id)
    exact hq'
  have := List.inj_on_of_nodup_map hnodup (hmem h) (hmem h') rfl
  exact (Prod.mk.inj this).2

/-! ## Completeness -/

/-- What a complete answer has: each required set has an option whose ids are all answered; without
sets, every query is answered. -/
def Complete (token dcql : Dict) : Prop :=
  if dcql.has "credential_sets" then
    ∃ sets, dcql.get "credential_sets" = .arr sets ∧ ∀ entry ∈ sets, ∃ set : Dict, entry = .obj set ∧
      (set.get? "required" ≠ some (.bool false) →
        ∃ options ids, set.get "options" = .arr options ∧ .arr ids ∈ options ∧
          ∀ id ∈ ids, ∃ s, id = .str s ∧ token.has s = true)
  else ∀ id query, Queried dcql id query → token.has id = true

theorem flag_true_of_ne {set : Dict} {name : Str} (hb : ∃ b, flag set name true = .bool b)
    (h : set.get? name ≠ some (.bool false)) : (flag set name true).truthy = true := by
  obtain ⟨b, hb⟩ := hb
  cases b with
  | true => rw [hb]; rfl
  | false =>
    unfold flag at hb
    cases hg : set.get? name with
    | none => rw [hg] at hb; cases hb
    | some v =>
      rw [hg] at hb
      exact absurd (hg.trans (congrArg some hb)) h

theorem checkOption_eq_ok {index position : Nat} {option : Json}
    (h : checkOption queries index position option = .ok ()) :
    ∃ ids, option = .arr ids ∧ ∀ id ∈ ids, ∃ s, id = .str s := by
  simp only [checkOption, bind_eq_ok, orRaise_eq_ok, each_eq_ok] at h
  obtain ⟨ids, hids, hall⟩ := h
  refine ⟨ids, Json.arr?_eq_some.mp (Option.filter_eq_some_iff.mp hids).1, fun id hid => ?_⟩
  have hone := hall id hid
  simp only [checkOptionId, bind_eq_ok, orRaise_eq_ok] at hone
  obtain ⟨s, hs, -⟩ := hone
  exact ⟨s, Json.str?_eq_some.mp hs⟩

theorem answered_of_lacking {ids : List Json} (hs : ∀ id ∈ ids, ∃ s, id = .str s)
    (h : lacking token (.arr ids) = []) : ∀ id ∈ ids, ∃ s, id = .str s ∧ token.has s = true := by
  intro id hid
  obtain ⟨s, rfl⟩ := hs id hid
  refine ⟨s, rfl, ?_⟩
  have hmem : s ∈ ((Json.arr ids).arr?.getD []).filterMap Json.str? :=
    List.mem_filterMap.mpr ⟨.str s, hid, rfl⟩
  have := List.filter_eq_nil_iff.mp h s hmem
  simpa using this

/-- One required set that passed both checks. -/
theorem answered_of_checkAnswered {index : Nat} {entry : Json}
    (hset : checkSet queries index entry = .ok ())
    (h : checkAnswered token index entry = .ok ()) :
    ∃ set : Dict, entry = .obj set ∧ (set.get? "required" ≠ some (.bool false) →
      ∃ options ids, set.get "options" = .arr options ∧ .arr ids ∈ options ∧
        ∀ id ∈ ids, ∃ s, id = .str s ∧ token.has s = true) := by
  simp only [checkSet, bind_eq_ok, orRaise_eq_ok, raiseIf_eq_ok, each_eq_ok] at hset
  obtain ⟨set, hobj, options, hoptions, ⟨⟩, heach, hbool⟩ := hset
  obtain rfl : entry = .obj set := Json.obj?_eq_some.mp hobj
  have hoptions : set.get "options" = .arr options :=
    Json.arr?_eq_some.mp (Option.filter_eq_some_iff.mp hoptions).1
  refine ⟨set, rfl, fun hreq => ?_⟩
  have htrue := flag_true_of_ne (bool?_isNone_eq_false hbool) hreq
  simp only [checkAnswered, raiseIf_eq_ok, Json.obj?, Option.getD_some, hoptions, Json.arr?, htrue,
    Bool.true_and, List.all_eq_false, List.mem_map] at h
  obtain ⟨-, ⟨option, hopt, rfl⟩, hlack⟩ := h
  obtain ⟨i, hi⟩ := List.mem_iff_getElem?.mp hopt
  have hzip : (option, i) ∈ options.zipIdx := List.mk_mem_zipIdx_iff_getElem?.mpr hi
  obtain ⟨ids, rfl, hs⟩ := checkOption_eq_ok (heach _ hzip)
  exact ⟨options, ids, hoptions, hopt, answered_of_lacking hs (by simpa using hlack)⟩

theorem complete_of_checkCompleteness (hcred : dcql.get "credentials" = .arr credentials)
    (hall : List.Forall₂ Indexed credentials queries)
    (hsets : checkPresentSets dcql queries = .ok ())
    (h : checkCompleteness token queries dcql = .ok ()) : Complete token dcql := by
  unfold Complete
  unfold checkCompleteness at h
  unfold checkPresentSets at hsets
  split at h
  · rename_i hhas
    rw [if_pos hhas] at hsets ⊢
    simp only [checkCredentialSets, bind_eq_ok, orRaise_eq_ok, each_eq_ok] at hsets
    obtain ⟨sets, hs, hshape⟩ := hsets
    have hs : dcql.get "credential_sets" = .arr sets :=
      Json.arr?_eq_some.mp (Option.filter_eq_some_iff.mp hs).1
    rw [hs, each_eq_ok] at h
    refine ⟨sets, hs, fun entry hentry => ?_⟩
    obtain ⟨i, hi⟩ := List.mem_iff_getElem?.mp hentry
    have hzip : (entry, i) ∈ sets.zipIdx := List.mk_mem_zipIdx_iff_getElem?.mpr hi
    exact answered_of_checkAnswered (hshape _ hzip) (h _ hzip)
  · rename_i hhas
    rw [if_neg hhas]
    rintro id query ⟨credentials', hcred', hq, hid⟩
    obtain rfl : credentials' = credentials := Json.arr.inj (hcred'.symm.trans hcred)
    obtain ⟨⟨id', q'⟩, hq', hi⟩ := exists_of_mem_left hall hq
    obtain rfl : query = q' := Json.obj.inj hi.object
    obtain rfl : id = id' := Json.str.inj (hid.symm.trans hi.id)
    simp only [checkAllAnswered, raiseIf_eq_ok] at h
    have hnil : (queries.map Prod.fst).filter (fun x => !token.has x) = [] := by simpa using h
    have := List.filter_eq_nil_iff.mp hnil id (List.mem_map_of_mem hq')
    simpa using this

/-! ## Pairing -/

/-- The presentations of a `vp_token`, each with the id it answers, in order. -/
def answers (token : Dict) : List (Str × Json) :=
  token.flatMap fun item => (item.2.arr?.getD []).map (item.1, ·)

/-- A result and the presentation it was verified from, with its place in the response. -/
def VerifiedFrom (call : Call H M) (d : Durations) (auds : Option (List Str)) (queries : Queries)
    (answer : (Str × Json) × Nat) (r : VerifiedPresentation M) : Prop :=
  ∃ query, queries.lookup answer.1.1 = some query ∧
    verifyOne call d auds answer.2 answer.1.1 query answer.1.2 = .ok r

/-- What one item of a `vp_token` must be. -/
def WellAnswered (queries : Queries) (item : Str × Json) : Prop :=
  ∃ query presentations, queries.lookup item.1 = some query ∧
    presentationList item.1 query item.2 = .ok presentations

/-- The presentations of one item append their results, in order. -/
theorem verifyPresentations_paired {id : Str} {verified verified' : List (VerifiedPresentation M)}
    {presentations : List Json} (hq : queries.lookup id = some query)
    (h : verifyPresentations call d auds id query verified presentations = .ok verified') :
    ∃ results, verified' = verified ++ results ∧
      List.Forall₂ (VerifiedFrom call d auds queries)
        ((presentations.map (id, ·)).zipIdx verified.length) results := by
  have hinv := enumerateLoop_preserves
    (fun done v => ∃ results, v = verified ++ results ∧
      List.Forall₂ (VerifiedFrom call d auds queries)
        ((done.map (id, ·)).zipIdx verified.length) results)
    ⟨[], by simp, by simp⟩ h
    (fun done st a st' => by
      rintro ⟨results, rfl, hdone⟩ hstep
      obtain ⟨r, hr, hst⟩ := bind_eq_ok.mp hstep
      rw [pure_eq_ok] at hst
      subst hst
      refine ⟨results ++ [r], by simp, ?_⟩
      have hplace : (verified ++ results).length =
          verified.length + (done.map fun p => (id, p)).length := by
        rw [List.length_append, ← hdone.length_eq, List.length_zipIdx]
      rw [hplace] at hr
      rw [List.map_append, List.zipIdx_append]
      exact List.rel_append hdone (.cons ⟨query, hq, hr⟩ .nil))
  exact hinv

theorem presentationList_eq_ok {id : Str} {value : Json} {presentations : List Json}
    (h : presentationList id query value = .ok presentations) :
    value = .arr presentations ∧
      ((flag query "multiple" false).truthy = false → presentations.length = 1) := by
  simp only [presentationList, bind_eq_ok, orRaise_eq_ok, raiseIf_eq_ok, pure_eq_ok] at h
  obtain ⟨l, hl, ⟨⟩, -, ⟨⟩, hmult, rfl⟩ := h
  refine ⟨Json.arr?_eq_some.mp hl, fun hf => ?_⟩
  rw [hf] at hmult
  simpa using hmult

/-- Every item of an accepted `vp_token` answers a query, and the results pair with the
presentations. -/
theorem verifyItems_paired {results : List (VerifiedPresentation M)}
    (h : enumerateLoop (fun verified _ item => verifyItem call d auds queries verified item) [] 0
      token = .ok results) :
    (∀ item ∈ token, WellAnswered queries item) ∧
      List.Forall₂ (VerifiedFrom call d auds queries) (answers token).zipIdx results := by
  refine enumerateLoop_preserves
    (fun done verified => (∀ item ∈ done, WellAnswered queries item) ∧
      List.Forall₂ (VerifiedFrom call d auds queries) (answers done).zipIdx verified)
    ⟨by simp, by simp [answers]⟩ h ?_
  intro done verified item verified' ⟨hdone, hpaired⟩ hstep
  simp only [verifyItem, bind_eq_ok, orRaise_eq_ok] at hstep
  obtain ⟨query, hq, presentations, hp, hrun⟩ := hstep
  obtain ⟨results, rfl, hresults⟩ := verifyPresentations_paired hq hrun
  refine ⟨fun i hi => ?_, ?_⟩
  · rcases List.mem_append.mp hi with hi | hi
    · exact hdone i hi
    · rw [List.mem_singleton.mp hi]
      exact ⟨query, presentations, hq, hp⟩
  · have hans : answers (done ++ [item]) = answers done ++ presentations.map (item.1, ·) := by
      simp [answers, List.flatMap_append, (presentationList_eq_ok hp).1, Json.arr?]
    have hlength := hpaired.length_eq
    rw [List.length_zipIdx] at hlength
    rw [hans, List.zipIdx_append, Nat.zero_add, hlength]
    exact List.rel_append hpaired hresults

end OpenVC.OpenId4Vp
