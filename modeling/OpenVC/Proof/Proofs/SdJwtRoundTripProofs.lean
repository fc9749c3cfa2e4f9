import Mathlib.Data.List.Perm.Subperm
import OpenVC.Proof.Proofs.SdJwtIssueProofs

/-!
# Issue and unpack

A holder presents some of the disclosures of an issued token, in an order of their choice. Splitting,
indexing and unpacking the presentation gives the claims that were signed in plain and those of the
disclosures presented; the order changes nothing.
-/

namespace OpenVC.SdJwt

open Python JsonDumps

/-! ## The digests of an object -/

section Digests

variable {D : ByDigest} {levels : Nat}

/-- What a digest of the payload becomes: nothing, or a claim that may be inserted. -/
def Shows (D : ByDigest) (levels : Nat) (digest : Str) : Option (Str × Json) → Prop
  | none => D.lookup digest = none
  | some (name, v) => (∃ salt, D.lookup digest = some [salt, .str name, v]) ∧ name ≠ lit "_sd" ∧
      name ≠ lit "..." ∧ v.WF ∧ Unmarked v ∧ v.depth < levels

/-- The loop over the digests inserts the claims that are shown, in the order of the digests. -/
theorem unpackDigests_shows (shown : Str → Option (Str × Json)) {digests : List Str} {result : Dict}
    {st : Unpacking} (hshown : ∀ d ∈ digests, Shows D levels d (shown d)) (hnodup : digests.Nodup)
    (hseen : ∀ d ∈ digests, d ∉ st.seen)
    (hnames : (Dict.keys (result ++ digests.filterMap shown)).Nodup) :
    ∃ st', unpackDigests D (unpack D levels) none digests result st =
        .ok (result ++ digests.filterMap shown, st') ∧ (∀ d ∈ st.used, d ∈ st'.used) ∧
      ∀ d ∈ digests, (shown d).isSome → d ∈ st'.used := by
  induction digests generalizing result st with
  | nil => exact ⟨st, by simp [unpackDigests], fun d hd => hd, fun d hd => nomatch hd⟩
  | cons d digests ih =>
    have hd := hshown d List.mem_cons_self
    have hrest : ∀ d ∈ digests, Shows D levels d (shown d) := fun e he =>
      hshown e (List.mem_cons_of_mem _ he)
    have hnew : d ∉ digests := (List.nodup_cons.mp hnodup).1
    have hnot : d ∉ st.seen := hseen d List.mem_cons_self
    have hseen' : ∀ e ∈ digests, e ∉ d :: st.seen := by
      intro e he hmem
      rcases List.mem_cons.mp hmem with rfl | hmem
      · exact hnew he
      · exact hseen e (List.mem_cons_of_mem _ he) hmem
    rw [unpackDigests, if_neg hnot]
    cases hs : shown d with
    | none =>
      rw [hs] at hd
      rw [List.filterMap_cons_none hs] at hnames ⊢
      obtain ⟨st', hrun, hused, hall⟩ := @ih result { st with seen := d :: st.seen } hrest
        (List.nodup_cons.mp hnodup).2 hseen' hnames
      refine ⟨st', ?_, hused, fun e he hsome => ?_⟩
      · rw [show D.lookup d = none from hd]
        exact hrun
      · rcases List.mem_cons.mp he with rfl | he
        · rw [hs] at hsome
          cases hsome
        · exact hall e he hsome
    | some claim =>
      obtain ⟨name, v⟩ := claim
      rw [hs] at hd
      obtain ⟨⟨salt, hlookup⟩, hsd, hdots, hwf, hm, hdepth⟩ := hd
      rw [List.filterMap_cons_some hs] at hnames ⊢
      have hname : name ∉ result.keys := by
        rw [Dict.keys, List.map_append, List.map_cons, List.nodup_append] at hnames
        exact fun hmem => hnames.2.2 _ hmem _ List.mem_cons_self rfl
      obtain ⟨st', hrun, hused, hall⟩ := @ih (result ++ [(name, v)])
        { used := d :: st.used, seen := d :: st.seen,
          placed := st.placed ++ [placement none name] } hrest
        (List.nodup_cons.mp hnodup).2 hseen' (by simpa using hnames)
      refine ⟨st', ?_, fun e he => hused e (List.mem_cons_of_mem _ he), fun e he hsome => ?_⟩
      · have hobject : objectDisclosure result [salt, .str name, v] = .ok (name, v) := by
          have hres : (name == lit "_sd" || name == lit "...") = false := by simp [hsd, hdots]
          have hhas : result.has name = false := by
            rw [← Bool.not_eq_true, Dict.has_iff]
            exact hname
          simp only [objectDisclosure, hres, hhas]
          rfl
        have hvalue := unpack_unmarked D levels (some (Option.getD none name))
          { used := d :: st.used, seen := d :: st.seen,
            placed := st.placed ++ [placement none name] } hwf hm hdepth
        rw [hlookup]
        refine bind_eq_ok.mpr ⟨_, hobject, bind_eq_ok.mpr ⟨_, hvalue, ?_⟩⟩
        dsimp only
        rw [Dict.set_of_not_mem hname, hrun, List.append_assoc]
        rfl
      · rcases List.mem_cons.mp he with rfl | he
        · exact hused _ List.mem_cons_self
        · exact hall e he hsome

end Digests

/-! ## The disclosures a holder chose -/

section Chosen

variable {C : Crypto} {hashName : Str} {entries chosen chosen' : List Disclosed}

/-- The digest of a disclosure. -/
def Disclosed.digest (C : Crypto) (hashName : Str) (e : Disclosed) : Str :=
  match disclosureDigest C e.text hashName with
  | .ok d => d
  | .error _ => []

/-- The claim that a digest stands for among the disclosures chosen. -/
def shownBy (C : Crypto) (hashName : Str) (chosen : List Disclosed) (digest : Str) :
    Option (Str × Json) :=
  (chosen.find? (·.digest C hashName == digest)).map Disclosed.claim

theorem shownBy_digest (hnodup : (chosen.map (Disclosed.digest C hashName)).Nodup) {e : Disclosed}
    (he : e ∈ chosen) : shownBy C hashName chosen (e.digest C hashName) = some e.claim := by
  have hfind : ∃ e', chosen.find? (·.digest C hashName == e.digest C hashName) = some e' := by
    rw [← Option.isSome_iff_exists, List.find?_isSome]
    exact ⟨e, he, by simp⟩
  obtain ⟨e', he'⟩ := hfind
  have hmem := List.mem_of_find?_eq_some he'
  have hdig : e'.digest C hashName = e.digest C hashName := by
    simpa using List.find?_some he'
  have heq : e' = e := List.inj_on_of_nodup_map hnodup hmem he hdig
  rw [shownBy, he', heq]
  rfl

theorem shownBy_eq_none {d : Str} (h : d ∉ chosen.map (Disclosed.digest C hashName)) :
    shownBy C hashName chosen d = none := by
  rw [shownBy, Option.map_eq_none_iff, List.find?_eq_none]
  intro e he hd
  exact h (List.mem_map.mpr ⟨e, he, by simpa using hd⟩)

theorem shownBy_perm (hperm : chosen.Perm chosen')
    (hnodup : (chosen.map (Disclosed.digest C hashName)).Nodup) :
    shownBy C hashName chosen = shownBy C hashName chosen' := by
  have hnodup' : (chosen'.map (Disclosed.digest C hashName)).Nodup :=
    (hperm.map _).nodup_iff.mp hnodup
  funext d
  by_cases hd : d ∈ chosen.map (Disclosed.digest C hashName)
  · obtain ⟨e, he, rfl⟩ := List.mem_map.mp hd
    rw [shownBy_digest hnodup he, shownBy_digest hnodup' (hperm.mem_iff.mp he)]
  · rw [shownBy_eq_none hd, shownBy_eq_none fun h => hd ((hperm.map _).mem_iff.mpr h)]

/-- The claims shown by the digests of the payload are those of the disclosures chosen. -/
theorem filterMap_shownBy_perm {digests : List Str} (hd : digests.Nodup)
    (hnodup : (chosen.map (Disclosed.digest C hashName)).Nodup)
    (hsub : ∀ e ∈ chosen, e.digest C hashName ∈ digests) :
    (digests.filterMap (shownBy C hashName chosen)).Perm (chosen.map Disclosed.claim) := by
  have hself : (chosen.map (Disclosed.digest C hashName)).filterMap (shownBy C hashName chosen) =
      chosen.map Disclosed.claim := by
    rw [List.filterMap_map, ← List.filterMap_eq_map]
    exact List.filterMap_congr fun e he => shownBy_digest hnodup he
  have hfilter : digests.filterMap (shownBy C hashName chosen) =
      (digests.filter fun d => (shownBy C hashName chosen d).isSome).filterMap
        (shownBy C hashName chosen) := by
    rw [List.filterMap_filter]
    refine List.filterMap_congr fun d _ => ?_
    cases shownBy C hashName chosen d <;> rfl
  rw [hfilter, ← hself]
  refine List.Perm.filterMap _ ?_
  rw [List.perm_ext_iff_of_nodup (hd.filter _) hnodup]
  intro d
  rw [List.mem_filter]
  constructor
  · rintro ⟨-, hsome⟩
    by_contra hne
    rw [shownBy_eq_none hne] at hsome
    cases hsome
  · intro hmem
    obtain ⟨e, he, rfl⟩ := List.mem_map.mp hmem
    rw [shownBy_digest hnodup he]
    exact ⟨hsub e he, rfl⟩

theorem lookup_indexed {d : Str} :
    (chosen.map fun e => (e.digest C hashName, e.parsed)).lookup d =
      (chosen.find? (·.digest C hashName == d)).map Disclosed.parsed := by
  induction chosen with
  | nil => rfl
  | cons e chosen ih =>
    rw [List.map_cons, List.lookup_cons, List.find?_cons]
    by_cases he : e.digest C hashName = d
    · simp [he]
    · have h1 : (d == e.digest C hashName) = false := by simpa using Ne.symm he
      have h2 : (e.digest C hashName == d) = false := by simpa using he
      rw [h1, h2]
      exact ih

/-- The index of the disclosures chosen. -/
theorem indexDisclosures_chosen
    (hdigest : ∀ e ∈ chosen, disclosureDigest C e.text hashName = .ok (e.digest C hashName))
    (hload : ∀ e ∈ chosen, loadSegment e.text = .ok (.arr e.parsed))
    (hnodup : (chosen.map (Disclosed.digest C hashName)).Nodup) :
    indexDisclosures C hashName (chosen.map Disclosed.text) =
      .ok (chosen.map fun e => (e.digest C hashName, e.parsed)) := by
  have key : ∀ (done rest : List Disclosed), chosen = done ++ rest → ∀ n,
      enumerateLoop (fun byDigest _ disclosure => indexDisclosure C hashName byDigest disclosure)
        (done.map fun e => (e.digest C hashName, e.parsed)) n (rest.map Disclosed.text) =
      .ok (chosen.map fun e => (e.digest C hashName, e.parsed)) := by
    intro done rest
    induction rest generalizing done with
    | nil =>
      intro h n
      rw [h, List.append_nil]
      rfl
    | cons e rest ih =>
      intro h n
      have he : e ∈ chosen := h ▸ List.mem_append_right _ List.mem_cons_self
      have hfresh : ((done.map fun e => (e.digest C hashName, e.parsed)).lookup
          (e.digest C hashName)).isSome = false := by
        rw [lookup_indexed, Option.isSome_map, Option.isSome_eq_false_iff, Option.isNone_iff_eq_none,
          List.find?_eq_none]
        intro e' he' heq
        rw [h, List.map_append, List.map_cons, List.nodup_append] at hnodup
        exact hnodup.2.2 _ (List.mem_map_of_mem he') _ List.mem_cons_self (by simpa using heq)
      have hone : indexDisclosure C hashName (done.map fun e => (e.digest C hashName, e.parsed))
          e.text = .ok ((done ++ [e]).map fun e => (e.digest C hashName, e.parsed)) := by
        simp only [indexDisclosure, bind_eq_ok, recast_eq_ok, orRaise_eq_ok, raiseIf_eq_ok,
          pure_eq_ok]
        refine ⟨_, hload e he, e.parsed, rfl, _, hdigest e he, (), hfresh, ?_⟩
        rw [List.map_append]
        rfl
      rw [List.map_cons, enumerateLoop]
      exact bind_eq_ok.mpr ⟨_, hone, ih (done ++ [e]) (by rw [h]; simp) (n + 1)⟩
  exact key [] chosen rfl 0

end Chosen

/-! ## The processed payload -/

theorem get?_of_not_mem {d : Dict} {k : Str} (h : k ∉ d.keys) : d.get? k = none :=
  Dict.get?_eq_none_iff.mpr h

theorem not_mem_keys_of_unmarked {m : Dict} (h : UnmarkedMembers m) :
    lit "_sd" ∉ m.keys ∧ lit "_sd_alg" ∉ m.keys := by
  constructor
  · intro hk
    obtain ⟨p, hp, hpk⟩ := List.mem_map.mp hk
    exact (unmarkedMembers_iff.mp h p hp).1 hpk
  · intro hk
    obtain ⟨p, hp, hpk⟩ := List.mem_map.mp hk
    exact (unmarkedMembers_iff.mp h p hp).2.2.1 hpk

/-- The payload with digests, as a list of members. -/
theorem withDigests_eq {plain : Dict} {digests : List Str} {hashName : Str}
    (h : UnmarkedMembers plain) (hne : digests ≠ []) :
    withDigests plain digests hashName =
      plain ++ [(lit "_sd", .arr ((digests.insertionSort (· ≤ ·)).map .str)),
        (lit "_sd_alg", .str hashName)] := by
  obtain ⟨hsd, halg⟩ := not_mem_keys_of_unmarked h
  have hset := Dict.set_of_not_mem (v := .arr ((digests.insertionSort (· ≤ ·)).map .str)) hsd
  have halg' : lit "_sd_alg" ∉ Dict.keys
      (plain ++ [(lit "_sd", .arr ((digests.insertionSort (· ≤ ·)).map .str))]) := by
    rw [Dict.keys, List.map_append]
    intro hmem
    rcases List.mem_append.mp hmem with hmem | hmem
    · exact halg hmem
    · have hne : lit "_sd_alg" ≠ lit "_sd" := by decide
      exact hne (List.mem_singleton.mp hmem)
  rw [withDigests, if_neg (by simpa using hne), hset, Dict.set_of_not_mem halg', List.append_assoc]
  rfl

theorem sdDigests_strings (l : List Str) : sdDigests (.arr (l.map .str)) = .ok l := by
  have hall : (l.map Json.str).all (·.str?.isSome) = true := by
    rw [List.all_map, List.all_eq_true]
    intro s _
    rfl
  have hmap : (l.map Json.str).filterMap Json.str? = l := by
    rw [List.filterMap_map]
    exact List.filterMap_some
  rw [sdDigests, if_pos hall, hmap]
  rfl

section Payload

variable {C : Crypto} {hashName : Str} {plain : Dict} {digests : List Str}
  {chosen : List Disclosed}

/-- What the disclosures chosen and the plain claims satisfy. -/
structure Presents (C : Crypto) (hashName : Str) (plain : Dict) (digests : List Str)
    (chosen : List Disclosed) : Prop where
  digest : ∀ e ∈ chosen, disclosureDigest C e.text hashName = .ok (e.digest C hashName)
  load : ∀ e ∈ chosen, loadSegment e.text = .ok (.arr e.parsed)
  listed : ∀ e ∈ chosen, e.digest C hashName ∈ digests
  fresh : (chosen.map (Disclosed.digest C hashName)).Nodup
  distinct : digests.Nodup
  names : (Dict.keys (plain ++ chosen.map Disclosed.claim)).Nodup
  wf : Json.WFMembers (plain ++ chosen.map Disclosed.claim)
  unmarked : UnmarkedMembers (plain ++ chosen.map Disclosed.claim)
  depth : ∀ p ∈ plain ++ chosen.map Disclosed.claim, p.2.depth < maxDepth

theorem Presents.shows (h : Presents C hashName plain digests chosen) (d : Str) :
    Shows (chosen.map fun e => (e.digest C hashName, e.parsed)) maxDepth d
      (shownBy C hashName chosen d) := by
  by_cases hd : d ∈ chosen.map (Disclosed.digest C hashName)
  · obtain ⟨e, he, rfl⟩ := List.mem_map.mp hd
    have hmem : e.claim ∈ plain ++ chosen.map Disclosed.claim :=
      List.mem_append_right _ (List.mem_map_of_mem he)
    have hmark := unmarkedMembers_iff.mp h.unmarked _ hmem
    have hshown := shownBy_digest h.fresh he
    rw [hshown]
    refine ⟨⟨.str e.salt, ?_⟩, hmark.1, hmark.2.1, Json.wfMembers_iff.mp h.wf _ hmem, hmark.2.2.2,
      h.depth _ hmem⟩
    rw [lookup_indexed]
    rw [shownBy, Option.map_eq_some_iff] at hshown
    obtain ⟨e', hfind, -⟩ := hshown
    have heq : e' = e := List.inj_on_of_nodup_map h.fresh (List.mem_of_find?_eq_some hfind) he
      (by simpa using List.find?_some hfind)
    rw [hfind, heq]
    rfl
  · rw [shownBy_eq_none hd]
    change List.lookup d _ = none
    rw [lookup_indexed, Option.map_eq_none_iff, List.find?_eq_none]
    intro e he heq
    exact hd (List.mem_map.mpr ⟨e, he, by simpa using heq⟩)

theorem Presents.plain_self (h : Presents C hashName plain digests chosen) (D : ByDigest)
    {st : Unpacking} : ∀ p ∈ plain, ∀ top, unpack D maxDepth top p.2 st = .ok (p.2, st) := by
  intro p hp top
  have hmem : p ∈ plain ++ chosen.map Disclosed.claim := List.mem_append_left _ hp
  exact unpack_unmarked D maxDepth top st (Json.wfMembers_iff.mp h.wf p hmem)
    (unmarkedMembers_iff.mp h.unmarked p hmem).2.2.2 (h.depth p hmem)

/-- The plain claims and the ones shown, in the order of the digests. -/
def processed (C : Crypto) (hashName : Str) (plain : Dict) (digests : List Str)
    (chosen : List Disclosed) : Dict :=
  plain ++ (digests.insertionSort (· ≤ ·)).filterMap (shownBy C hashName chosen)

theorem Presents.shown_perm (h : Presents C hashName plain digests chosen) :
    ((digests.insertionSort (· ≤ ·)).filterMap (shownBy C hashName chosen)).Perm
      (chosen.map Disclosed.claim) := by
  have hsort := List.perm_insertionSort (· ≤ ·) digests
  exact filterMap_shownBy_perm (hsort.nodup_iff.mpr h.distinct) h.fresh fun e he =>
    hsort.mem_iff.mpr (h.listed e he)

theorem Presents.processed_perm (h : Presents C hashName plain digests chosen) :
    (processed C hashName plain digests chosen).Perm (plain ++ chosen.map Disclosed.claim) :=
  h.shown_perm.append_left plain

theorem Presents.unmarked_plain (h : Presents C hashName plain digests chosen) :
    UnmarkedMembers plain :=
  unmarkedMembers_iff.mpr fun p hp =>
    unmarkedMembers_iff.mp h.unmarked p (List.mem_append_left _ hp)

theorem Presents.nodup_plain (h : Presents C hashName plain digests chosen) :
    (Dict.keys plain).Nodup := by
  have := h.names
  rw [Dict.keys, List.map_append, List.nodup_append] at this
  exact this.1

theorem Presents.unpack_nil (h : Presents C hashName plain [] chosen) :
    unpack [] (maxDepth + 1) none (.obj plain) {} = .ok (.obj plain, {}) := by
  have hmark := h.unmarked_plain
  have hnodup := h.nodup_plain
  have hmembers : unpackMembers (unpack [] maxDepth) none plain [] {} = .ok (plain, {}) :=
    unpackMembers_self (fun p hp => ⟨(unmarkedMembers_iff.mp hmark p hp).1,
      (unmarkedMembers_iff.mp hmark p hp).2.1⟩) (h.plain_self []) hnodup
  rw [unpack]
  refine bind_eq_ok.mpr ⟨_, hmembers, ?_⟩
  rw [Dict.get, get?_of_not_mem (not_mem_keys_of_unmarked hmark).1]
  rfl

/-- The payload with digests. -/
theorem Presents.unpack_digests (h : Presents C hashName plain digests chosen) (alg : Str)
    (hne : digests ≠ []) :
    ∃ st, unpack (chosen.map fun e => (e.digest C hashName, e.parsed)) (maxDepth + 1) none
        (.obj (withDigests plain digests alg)) {} =
        .ok (.obj (plain ++ (lit "_sd_alg", .str alg) ::
          (digests.insertionSort (· ≤ ·)).filterMap (shownBy C hashName chosen)), st) ∧
      ∀ e ∈ chosen, e.digest C hashName ∈ st.used := by
  set D := chosen.map fun e => (e.digest C hashName, e.parsed) with hD
  set S := digests.insertionSort (· ≤ ·) with hS
  have hsort : S.Perm digests := List.perm_insertionSort (· ≤ ·) digests
  have hmark := h.unmarked_plain
  have hnodup := h.nodup_plain
  have halg : lit "_sd_alg" ∉ Dict.keys (plain ++ S.filterMap (shownBy C hashName chosen)) := by
    intro hk
    have hperm := (h.shown_perm.append_left plain).map Prod.fst
    exact (not_mem_keys_of_unmarked h.unmarked).2 (hperm.mem_iff.mp hk)
  have hkeys : (Dict.keys (plain ++ S.filterMap (shownBy C hashName chosen))).Nodup :=
    ((h.shown_perm.append_left plain).map Prod.fst).nodup_iff.mpr h.names
  have hmembers : unpackMembers (unpack D maxDepth) none (withDigests plain digests alg) [] {} =
      .ok (plain ++ [(lit "_sd_alg", .str alg)], {}) := by
    rw [withDigests_eq hmark hne, unpackMembers_append none _ [] (fun p hp =>
      ⟨(unmarkedMembers_iff.mp hmark p hp).1, (unmarkedMembers_iff.mp hmark p hp).2.1⟩)
      (h.plain_self D) hnodup, unpackMembers, if_pos rfl, unpackMembers,
      if_neg (by decide), if_neg (by decide)]
    have hnot : lit "_sd_alg" ∉ Dict.keys plain := (not_mem_keys_of_unmarked hmark).2
    change unpackMembers (unpack D maxDepth) none [] (Dict.set plain (lit "_sd_alg") (.str alg))
      {} = _
    rw [Dict.set_of_not_mem hnot]
    rfl
  have hsd : Dict.get (withDigests plain digests alg) (lit "_sd") = .arr (S.map .str) := by
    rw [withDigests_eq hmark hne, Dict.get, Dict.get?, List.lookup_append]
    have hnone : List.lookup (lit "_sd") plain = none :=
      get?_of_not_mem (not_mem_keys_of_unmarked hmark).1
    rw [hnone]
    rfl
  have hnames : (Dict.keys ((plain ++ [(lit "_sd_alg", .str alg)]) ++
      S.filterMap (shownBy C hashName chosen))).Nodup := by
    have hperm : ((plain ++ [(lit "_sd_alg", Json.str alg)]) ++
        S.filterMap (shownBy C hashName chosen)).Perm
        ((lit "_sd_alg", .str alg) :: (plain ++ S.filterMap (shownBy C hashName chosen))) := by
      rw [List.append_assoc]
      exact List.perm_middle
    rw [Dict.keys, (hperm.map Prod.fst).nodup_iff, List.map_cons, List.nodup_cons]
    exact ⟨halg, hkeys⟩
  obtain ⟨st, hrun, -, hused⟩ := @unpackDigests_shows D maxDepth
    (shownBy C hashName chosen) S _ {} (fun d _ => h.shows d)
    (hsort.nodup_iff.mpr h.distinct) (fun d _ => List.not_mem_nil) hnames
  refine ⟨st, ?_, fun e he => ?_⟩
  · rw [unpack]
    refine bind_eq_ok.mpr ⟨_, hmembers, ?_⟩
    rw [hsd, sdDigests_strings]
    refine bind_eq_ok.mpr ⟨_, rfl, bind_eq_ok.mpr ⟨_, hrun, ?_⟩⟩
    rw [List.append_assoc]
    rfl
  · refine hused _ (hsort.mem_iff.mpr (h.listed e he)) ?_
    rw [shownBy_digest h.fresh he]
    rfl

/-- The claims a presentation is processed to. -/
theorem Presents.processPayload (h : Presents C hashName plain digests chosen) (alg : Str)
    (jwt kb : Str) :
    ∃ placed, processPayload C hashName ⟨jwt, chosen.map Disclosed.text, kb⟩
      (withDigests plain digests alg) = .ok (processed C hashName plain digests chosen, placed) := by
  have hindex := indexDisclosures_chosen h.digest h.load h.fresh
  have halg : lit "_sd_alg" ∉ Dict.keys (processed C hashName plain digests chosen) := by
    intro hk
    exact (not_mem_keys_of_unmarked h.unmarked).2 ((h.processed_perm.map Prod.fst).mem_iff.mp hk)
  simp only [SdJwt.processPayload, hindex, bind_eq_ok, raiseIf_eq_ok, orRaise_eq_ok, pure_eq_ok,
    Prod.mk.injEq]
  by_cases hne : digests = []
  · subst hne
    have hnil : chosen = [] := by
      rw [List.eq_nil_iff_forall_not_mem]
      exact fun e he => absurd (h.listed e he) List.not_mem_nil
    subst hnil
    refine ⟨[], _, rfl, (.obj plain, {}), h.unpack_nil, (), rfl, plain, rfl, ?_, rfl⟩
    have hplain : processed C hashName plain [] [] = plain := List.append_nil plain
    rw [hplain] at halg ⊢
    exact Dict.erase_of_not_mem halg
  · obtain ⟨st, hrun, hused⟩ := h.unpack_digests alg hne
    refine ⟨st.placed, _, rfl, _, hrun, (), ?_, _, rfl, ?_, rfl⟩
    · rw [Bool.not_eq_false', List.isEmpty_iff, List.filter_eq_nil_iff]
      intro p hp
      obtain ⟨e, he, rfl⟩ := List.mem_map.mp hp
      simpa using hused e he
    · rw [processed, Dict.keys, List.map_append, List.mem_append, not_or] at halg
      have h1 : Dict.erase plain (lit "_sd_alg") = plain := Dict.erase_of_not_mem halg.1
      have h2 := Dict.erase_of_not_mem (d := (digests.insertionSort (· ≤ ·)).filterMap
        (shownBy C hashName chosen)) halg.2
      rw [Dict.erase] at h1 h2
      rw [Dict.erase, List.filter_append, h1, List.filter_cons_of_neg (by simp), h2]
      rfl

end Payload

/-! ## What was issued -/

section Issued

variable {I : Interpreter} {C : Crypto} {random : TokenBytes} {suite : HashingSuite C}
  {key : SigningKey} {a : Issuance} {full : Dict} {token : Str} {now : Int}

/-- A credential that `issue` built from the claims `full`. -/
structure Issued (C : Crypto) (random : TokenBytes) (suite : HashingSuite C) (key : SigningKey)
    (a : Issuance) (full : Dict) (token : Str) where
  entries : List Disclosed
  st : Disclosing
  header : Dict
  jwt : Str
  permitted : key.alg ∈ suite.algs
  refused : ∃ vcdm, refuseNames a.disclosable vcdm = .ok ()
  discloses : Discloses C suite.hashName full a.disclosable entries st
  headerOk : issuerHeader key a.x5c = .ok header
  signed : Signed header (withDigests st.payload (st.digests ++
    decoyDigests random suite.hashName a.disclosable.length a.decoys) suite.hashName) key jwt
  text : token = jwt ++ 126 :: (entries.map Disclosed.text).flatMap (· ++ [126])

theorem issued_of_issue (hnow : currentSecond I = .ok now) (hfull : (a.full now).keys.Nodup)
    (h : issue I C random suite key a = .ok token) :
    Nonempty (Issued C random suite key a (a.full now) token) := by
  simp only [issue, bind_eq_ok, raiseIf_eq_ok, pure_eq_ok, hnow, Except.ok.injEq] at h
  obtain ⟨⟨⟩, halg, _, rfl, ⟨⟩, -, vcdm, -, ⟨⟩, hrefuse, st, hloop, header, hheader, jwt, hjwt, rfl⟩ := h
  obtain ⟨entries, hentries⟩ := discloses_of_loop hfull hloop
  obtain ⟨hsigned⟩ := signCompact_eq_ok hjwt
  have hmem : key.alg ∈ suite.algs := by simpa using halg
  exact ⟨⟨entries, st, header, jwt, hmem, ⟨vcdm, hrefuse⟩, hentries, hheader, hsigned, by rw [hentries.texts]⟩⟩

/-- The digests of the disclosures, and the decoys. -/
def Issued.digests (s : Issued C random suite key a full token) : List Str :=
  s.st.digests ++ decoyDigests random suite.hashName a.disclosable.length a.decoys

theorem isAscii_of_mem_algs {suite : Suite} {alg : Str} (h : alg ∈ suite.algs) :
    ∀ c ∈ alg, c < 128 := by
  have hall : ∀ alg ∈ allowedAlgs ++ allowedAlgsPq, ∀ c ∈ alg, c < 128 := by decide
  refine hall alg ?_
  rw [Suite.algs] at h
  rcases List.mem_append.mp h with h | h
  · exact List.mem_append_left _ h
  · split at h
    · exact List.mem_append_right _ h
    · cases h

theorem depthList_strings (l : List Str) : Json.depthList (l.map .str) = 0 := by
  by_contra hne
  obtain ⟨v, hv, hlt⟩ := Json.lt_depthList_iff.mp (Nat.pos_of_ne_zero hne)
  obtain ⟨s, -, rfl⟩ := List.mem_map.mp hv
  exact absurd hlt (by simp [Json.depth])

/-- The header of an issuer JWT is flat, and made of strings. -/
theorem issuerHeader_representable {header : Dict} (halg : key.alg ∈ suite.algs)
    (hkid : IsStr key.kid) (hx5c : ∀ chain, a.x5c = some chain → ∀ c ∈ chain, IsStr c)
    (h : issuerHeader key a.x5c = .ok header) :
    Representable (.obj header) ∧ (Json.obj header).depth ≤ 2 := by
  have hstr : IsStr key.alg := fun c hc => by
    have := isAscii_of_mem_algs halg c hc
    omega
  have hlit : ∀ s ∈ [lit "typ", lit "alg", lit "kid", lit "x5c", issuerTyp], ∀ c ∈ s,
      c < 0x110000 := by decide +kernel
  have hbase : RepresentableMembers [(lit "typ", .str issuerTyp), (lit "alg", .str key.alg),
      (lit "kid", .str key.kid)] := by
    refine representableMembers_iff.mpr fun p hp => ?_
    simp only [List.mem_cons, List.not_mem_nil, or_false] at hp
    rcases hp with rfl | rfl | rfl
    · exact ⟨hlit _ (by simp), hlit _ (by simp)⟩
    · exact ⟨hlit _ (by simp), hstr⟩
    · exact ⟨hlit _ (by simp), hkid⟩
  unfold issuerHeader at h
  cases hx : a.x5c with
  | none =>
    rw [hx] at h
    cases h
    exact ⟨hbase, by simp [Json.depth, Json.depthMembers]⟩
  | some chain =>
    rw [hx] at h
    simp only [bind_eq_ok, raiseIf_eq_ok, pure_eq_ok] at h
    obtain ⟨⟨⟩, -, rfl⟩ := h
    have hset : Dict.set [(lit "typ", .str issuerTyp), (lit "alg", .str key.alg),
        (lit "kid", .str key.kid)] (lit "x5c") (.arr (chain.map .str)) =
        [(lit "typ", .str issuerTyp), (lit "alg", .str key.alg), (lit "kid", .str key.kid)] ++
          [(lit "x5c", .arr (chain.map .str))] := by
      refine Dict.set_of_not_mem ?_
      change lit "x5c" ∉ [lit "typ", lit "alg", lit "kid"]
      decide
    have hchain : Representable (.arr (chain.map .str)) := by
      refine representableList_iff.mpr fun v hv => ?_
      obtain ⟨c, hc, rfl⟩ := List.mem_map.mp hv
      exact hx5c chain hx c hc
    change Representable (.obj (Dict.set _ (lit "x5c") _)) ∧ (Json.obj (Dict.set _ _ _)).depth ≤ 2
    rw [hset]
    refine ⟨representableMembers_iff.mpr fun p hp => ?_, ?_⟩
    · rcases List.mem_append.mp hp with hp | hp
      · exact representableMembers_iff.mp hbase p hp
      · rw [List.mem_singleton.mp hp]
        exact ⟨hlit _ (by simp), hchain⟩
    · simp [Json.depth, Json.depthMembers, depthList_strings]

section Facts

variable (s : Issued C random suite key a full token)

theorem Issued.disclosureDigest {e : Disclosed} (he : e ∈ s.entries) :
    disclosureDigest C e.text suite.hashName = .ok (e.digest C suite.hashName) := by
  have hmem : SdJwt.disclosureDigest C e.text suite.hashName ∈ s.st.digests.map Except.ok := by
    rw [← s.discloses.digests]
    exact List.mem_map_of_mem he
  obtain ⟨d, -, hd⟩ := List.mem_map.mp hmem
  rw [Disclosed.digest, ← hd]

theorem Issued.digests_eq : s.digests = s.entries.map (Disclosed.digest C suite.hashName) ++
    decoyDigests random suite.hashName a.disclosable.length a.decoys := by
  have hmap : s.st.digests.map Except.ok =
      (s.entries.map (Disclosed.digest C suite.hashName)).map (Except.ok (ε := Err)) := by
    rw [← s.discloses.digests, List.map_map]
    exact List.map_congr_left fun e he => s.disclosureDigest he
  have hinj : Function.Injective (Except.ok : Str → Result Str) := fun x y h => Except.ok.inj h
  rw [Issued.digests, List.map_injective_iff.mpr hinj hmap]

theorem Issued.claim_mem {e : Disclosed} (he : e ∈ s.entries) : e.claim ∈ full :=
  s.discloses.split.mem_iff.mpr (List.mem_append_right _ (List.mem_map_of_mem he))

theorem depth_lt_of_mem {m : Dict} {p : Str × Json} (h : p ∈ m) : p.2.depth < (Json.obj m).depth := by
  have hlist : p.2.depth ≤ Json.depthList (m.map Prod.snd) := by
    by_contra hlt
    exact Nat.lt_irrefl _
      (Json.lt_depthList_iff.mpr ⟨p.2, List.mem_map_of_mem h, not_le.mp hlt⟩)
  rw [Json.depth, Json.depthMembers_eq]
  omega

theorem Issued.load (hstable : Stable (.obj full)) (hdepth : (Json.obj full).depth ≤ OpenVC.maxDepth)
    {e : Disclosed} (he : e ∈ s.entries) : loadSegment e.text = .ok (.arr e.parsed) := by
  obtain ⟨⟨b, hsalt⟩, data, hdata, htext⟩ := s.discloses.made e he
  obtain ⟨hname, hpair, hvalue⟩ := (stable_obj.mp hstable).2 _ (s.claim_mem he)
  have hparsed : Stable (.arr e.parsed) := by
    refine stable_arr.mpr fun v hv => ?_
    simp only [Disclosed.parsed, List.mem_cons, List.not_mem_nil, or_false] at hv
    rcases hv with rfl | rfl | rfl
    · rw [hsalt]
      exact stable_ascii fun c hc => (mem_b64urlEncode hc).2.2
    · exact stable_str.mpr ⟨hname, hpair⟩
    · exact hvalue
  have hlt : e.value.depth < (Json.obj full).depth := depth_lt_of_mem (s.claim_mem he)
  have hd : (Json.arr e.parsed).depth = e.value.depth + 1 := by
    simp [Disclosed.parsed, Json.depth, Json.depthList]
  rw [htext, loadSegment_b64urlEncode hparsed.representable hdata (by rw [hparsed.reread]; omega),
    hparsed.reread]

theorem isAscii_hashName (suite : HashingSuite C) : ∀ c ∈ suite.hashName, c < 128 := by
  have hall : ∀ name ∈ [lit "sha-256", lit "sha-384", lit "sha-512"], ∀ c ∈ name, c < 128 := by
    decide
  refine hall _ ?_
  have hok := suite.hash_ok
  unfold hashes at hok
  split_ifs at hok with h1 h2 h3
  · simp [h1]
  · simp [h2]
  · simp [h3]

theorem Issued.isAscii_digests :
    ∀ d ∈ s.digests, ∀ c ∈ d, c < 128 := by
  intro d hd c hc
  rw [s.digests_eq] at hd
  rcases List.mem_append.mp hd with hd | hd
  · obtain ⟨e, he, rfl⟩ := List.mem_map.mp hd
    have hdig := s.disclosureDigest he
    simp only [SdJwt.disclosureDigest, bind_eq_ok, pure_eq_ok] at hdig
    obtain ⟨_, -, _, -, hdig⟩ := hdig
    rw [← hdig] at hc
    exact (mem_b64urlEncode hc).2.2
  · obtain ⟨i, -, rfl⟩ := List.mem_map.mp hd
    exact (mem_b64urlEncode hc).2.2

theorem Issued.payload_stable (hstable : Stable (.obj full)) (hmark : UnmarkedMembers full) :
    Stable (.obj (withDigests s.st.payload s.digests suite.hashName)) := by
  have hmark' : UnmarkedMembers s.st.payload := unmarkedMembers_iff.mpr fun p hp =>
    unmarkedMembers_iff.mp hmark p (s.discloses.kept.subset hp)
  obtain ⟨hnodup, hmem⟩ := stable_obj.mp hstable
  have hplain : Stable (.obj s.st.payload) := stable_obj.mpr
    ⟨hnodup.sublist (s.discloses.kept.map _), fun p hp => hmem p (s.discloses.kept.subset hp)⟩
  by_cases hne : s.digests = []
  · rw [hne]
    exact hplain
  · obtain ⟨hsd, halg⟩ := not_mem_keys_of_unmarked hmark'
    rw [withDigests_eq hmark' hne]
    refine stable_obj.mpr ⟨?_, fun p hp => ?_⟩
    · rw [Dict.keys, List.map_append, List.nodup_append]
      have hnames : [lit "_sd", lit "_sd_alg"].Nodup := by decide
      refine ⟨(stable_obj.mp hplain).1, hnames, fun k hk k' hk' => ?_⟩
      rintro rfl
      rcases List.mem_cons.mp hk' with rfl | hk'
      · exact hsd hk
      · obtain rfl := List.mem_singleton.mp hk'
        exact halg hk
    · rcases List.mem_append.mp hp with hp | hp
      · exact (stable_obj.mp hplain).2 p hp
      · have hlit : ∀ k ∈ [lit "_sd", lit "_sd_alg"], ∀ c ∈ k, c < 128 := by decide
        simp only [List.mem_cons, List.not_mem_nil, or_false] at hp
        rcases hp with rfl | rfl
        · obtain ⟨h1, h2⟩ := stable_str.mp (stable_ascii (hlit (lit "_sd") (by simp)))
          refine ⟨h1, h2, stable_arr.mpr fun v hv => ?_⟩
          obtain ⟨d, hd, rfl⟩ := List.mem_map.mp hv
          exact stable_ascii (s.isAscii_digests d ((List.perm_insertionSort _ _).mem_iff.mp hd))
        · obtain ⟨h1, h2⟩ := stable_str.mp (stable_ascii (hlit (lit "_sd_alg") (by simp)))
          exact ⟨h1, h2, stable_ascii (isAscii_hashName suite)⟩

theorem Issued.payload_depth (hmark : UnmarkedMembers full) :
    (Json.obj (withDigests s.st.payload s.digests suite.hashName)).depth ≤
      max (Json.obj full).depth 2 := by
  have hmark' : UnmarkedMembers s.st.payload := unmarkedMembers_iff.mpr fun p hp =>
    unmarkedMembers_iff.mp hmark p (s.discloses.kept.subset hp)
  have hpayload : (Json.obj (withDigests s.st.payload s.digests suite.hashName)).depth =
      Json.depthList ((withDigests s.st.payload s.digests suite.hashName).map Prod.snd) + 1 := by
    rw [Json.depth, Json.depthMembers_eq]
  by_contra hlt
  obtain ⟨v, hv, hlt⟩ := Json.lt_depthList_iff.mp
    (show max (Json.obj full).depth 2 - 1 < Json.depthList
      ((withDigests s.st.payload s.digests suite.hashName).map Prod.snd) by omega)
  obtain ⟨p, hp, rfl⟩ := List.mem_map.mp hv
  have hplain : ∀ p ∈ s.st.payload, p.2.depth < (Json.obj full).depth := fun p hp =>
    depth_lt_of_mem (s.discloses.kept.subset hp)
  by_cases hne : s.digests = []
  · rw [hne] at hp
    have := hplain p hp
    omega
  · rw [withDigests_eq hmark' hne] at hp
    rcases List.mem_append.mp hp with hp | hp
    · have := hplain p hp
      omega
    · simp only [List.mem_cons, List.not_mem_nil, or_false] at hp
      rcases hp with rfl | rfl
      · rw [Json.depth, depthList_strings] at hlt
        omega
      · simp only [Json.depth] at hlt
        omega

end Facts

end Issued

/-! ## The round trip -/

/-- A presentation with some of the disclosures of a credential. -/
def presentationOf (issuerJwt : Str) (disclosures : List Str) (kbJwt : Str) : Str :=
  issuerJwt ++ 126 :: (disclosures.flatMap (· ++ [126]) ++ kbJwt)

/-- The claims of a presentation: split, decoded, its disclosures indexed and unpacked. -/
def presentedClaims (C : Crypto) (presentation : Str) : Result Dict := do
  let parts ← split presentation
  let jws ← decodeJws parts.issuerJwt
  let hashName ← orRaise ((sdAlg jws.payload).str?.filter fun name => (hashes C name).isSome)
    ⟨.sdJwtError, "unsupported _sd_alg %", [jws.payload.get "_sd_alg"]⟩
  let (claims, _) ← processPayload C hashName parts jws.payload
  return claims

theorem split_presentationOf {jwt kb : Str} {disclosures : List Str} (hjwt : 126 ∉ jwt)
    (hd : ∀ d ∈ disclosures, d ≠ [] ∧ 126 ∉ d) (hkb : 126 ∉ kb) :
    split (presentationOf jwt disclosures kb) = .ok ⟨jwt, disclosures, kb⟩ := by
  have hrest := Str.split_flatMap_append (fun d hmem => (hd d hmem).2) hkb
  have hfilter : disclosures.filter (!·.isEmpty) = disclosures := by
    rw [List.filter_eq_self]
    intro d hmem
    simpa using (hd d hmem).1
  have hsplit : Str.split 126 (presentationOf jwt disclosures kb) = jwt :: (disclosures ++ [kb]) := by
    rw [Str.split] at hrest
    rw [presentationOf, Str.split, List.splitOn_append_cons_self_of_not_mem hjwt, hrest]
  rw [split, hsplit]
  cases disclosures with
  | nil => rfl
  | cons d ds =>
    have hlast : (d :: ds ++ [kb]).dropLast = d :: ds := List.dropLast_concat
    have hget : (d :: ds ++ [kb]).getLastD [] = kb := List.getLastD_concat
    rw [List.cons_append] at hlast hget ⊢
    dsimp only
    rw [hlast, hget, hfilter]

section RoundTrip

variable {C : Crypto} {random : TokenBytes} {suite : HashingSuite C} {key : SigningKey}
  {a : Issuance} {full : Dict} {token : Str} {chosen chosen' : List Disclosed}

theorem nodup_of_subperm {α : Type*} {l l' : List α} (h : l.Subperm l') (hn : l'.Nodup) : l.Nodup := by
  obtain ⟨m, hperm, hsub⟩ := h
  exact hperm.nodup_iff.mp (hn.sublist hsub)

theorem subperm_map {α β : Type*} {l l' : List α} (f : α → β) (h : l.Subperm l') :
    (l.map f).Subperm (l'.map f) := by
  obtain ⟨m, hperm, hsub⟩ := h
  exact ⟨m.map f, hperm.map f, hsub.map f⟩

/-- Some of the disclosures of a credential, in any order, present its plain claims and theirs. -/
theorem Issued.presents (s : Issued C random suite key a full token) (hstable : Stable (.obj full))
    (hmark : UnmarkedMembers full) (hdepth : (Json.obj full).depth ≤ OpenVC.maxDepth)
    (hdigests : s.digests.Nodup) (hchosen : chosen.Subperm s.entries) :
    Presents C suite.hashName s.st.payload s.digests chosen := by
  have hmem : ∀ e ∈ chosen, e ∈ s.entries := fun e he => hchosen.subset he
  have hclaims : (s.st.payload ++ chosen.map Disclosed.claim).Subperm full := by
    refine List.Subperm.trans ?_ s.discloses.split.symm.subperm
    exact (List.subperm_append_left _).mpr (subperm_map _ hchosen)
  have hall : ∀ p ∈ s.st.payload ++ chosen.map Disclosed.claim, p ∈ full := fun p hp =>
    hclaims.subset hp
  refine ⟨fun e he => s.disclosureDigest (hmem e he), fun e he => s.load hstable hdepth (hmem e he),
    fun e he => ?_, ?_, hdigests, ?_, ?_, ?_, ?_⟩
  · rw [s.digests_eq]
    exact List.mem_append_left _ (List.mem_map_of_mem (hmem e he))
  · rw [s.digests_eq] at hdigests
    exact nodup_of_subperm (subperm_map _ hchosen) hdigests.of_append_left
  · exact nodup_of_subperm (subperm_map Prod.fst hclaims) (stable_obj.mp hstable).1
  · exact Json.wfMembers_iff.mpr fun p hp => ((stable_obj.mp hstable).2 p (hall p hp)).2.2.wf
  · exact unmarkedMembers_iff.mpr fun p hp => unmarkedMembers_iff.mp hmark p (hall p hp)
  · intro p hp
    have hlt := depth_lt_of_mem (hall p hp)
    have hmax : OpenVC.maxDepth = maxDepth := rfl
    omega

/-- The `_sd_alg` of an issued credential, the default one where there are no digests. -/
theorem Issued.sdAlg_eq (s : Issued C random suite key a full token) (hmark : UnmarkedMembers full) :
    sdAlg (withDigests s.st.payload s.digests suite.hashName) =
      .str (if s.digests = [] then lit "sha-256" else suite.hashName) := by
  have hmark' : UnmarkedMembers s.st.payload := unmarkedMembers_iff.mpr fun p hp =>
    unmarkedMembers_iff.mp hmark p (s.discloses.kept.subset hp)
  have hnone : List.lookup (lit "_sd_alg") s.st.payload = none :=
    get?_of_not_mem (not_mem_keys_of_unmarked hmark').2
  by_cases hne : s.digests = []
  · rw [if_pos hne, hne, withDigests, sdAlg]
    change (Option.getD (List.lookup (lit "_sd_alg") s.st.payload) _) = _
    rw [hnone]
    rfl
  · rw [if_neg hne, withDigests_eq hmark' hne, sdAlg, Dict.get?, List.lookup_append, hnone]
    rfl

theorem Issued.text_ok (s : Issued C random suite key a full token) {e : Disclosed} {v : Json}
    (hload : loadSegment e.text = .ok v) (he : e ∈ s.entries) : e.text ≠ [] ∧ 126 ∉ e.text := by
  obtain ⟨-, data, -, htext⟩ := s.discloses.made e he
  refine ⟨fun hnil => ?_, htext ▸ tilde_not_mem_b64urlEncode data⟩
  have hempty : ∀ v, loadSegment [] ≠ .ok v := fun v hv => by cases hv
  exact hempty v (hnil ▸ hload)

/-- The claims of a presentation of an issued credential. -/
theorem Issued.presentedClaims (s : Issued C random suite key a full token)
    (hstable : Stable (.obj full)) (hmark : UnmarkedMembers full)
    (hdepth : (Json.obj full).depth ≤ OpenVC.maxDepth) {jws : Jws} (hjws : decodeJws s.jwt = .ok jws)
    (hpayload : jws.payload = withDigests s.st.payload s.digests suite.hashName)
    (hdigests : s.digests.Nodup) (hchosen : chosen.Subperm s.entries) {kb : Str} (hkb : 126 ∉ kb) :
    presentedClaims C (presentationOf s.jwt (chosen.map Disclosed.text) kb) =
      .ok (processed C suite.hashName s.st.payload s.digests chosen) := by
  have hp := s.presents hstable hmark hdepth hdigests hchosen
  have hparts : ∀ d ∈ chosen.map Disclosed.text, d ≠ [] ∧ 126 ∉ d := by
    intro d hd
    obtain ⟨e, he, rfl⟩ := List.mem_map.mp hd
    exact s.text_ok (hp.load e he) (hchosen.subset he)
  have hsplit := split_presentationOf s.signed.tilde_not_mem hparts hkb
  have hrun : ∀ {hashName : Str} {placed : List (Option Str × Bool)},
      (if s.digests = [] then lit "sha-256" else suite.hashName) = hashName →
      (hashes C hashName).isSome = true →
      processPayload C hashName ⟨s.jwt, chosen.map Disclosed.text, kb⟩
        (withDigests s.st.payload s.digests suite.hashName) =
        .ok (processed C suite.hashName s.st.payload s.digests chosen, placed) →
      SdJwt.presentedClaims C (presentationOf s.jwt (chosen.map Disclosed.text) kb) =
        .ok (processed C suite.hashName s.st.payload s.digests chosen) := by
    intro hashName placed hname hsome hprocess
    have hfilter : ((Json.str hashName).str?.filter fun name => (hashes C name).isSome) =
        some hashName := Option.filter_eq_some_iff.mpr ⟨rfl, hsome⟩
    rw [← hpayload] at hprocess
    have halg := s.sdAlg_eq hmark
    rw [← hpayload, hname] at halg
    rw [SdJwt.presentedClaims, hsplit]
    refine bind_eq_ok.mpr ⟨_, rfl, bind_eq_ok.mpr ⟨jws, hjws, bind_eq_ok.mpr ⟨hashName, ?_,
      bind_eq_ok.mpr ⟨_, hprocess, rfl⟩⟩⟩⟩
    rw [halg, hfilter]
    rfl
  by_cases hne : s.digests = []
  · -- without digests there is nothing to choose, and the default hash is not applied to anything
    have hnil : chosen = [] := by
      rw [List.eq_nil_iff_forall_not_mem]
      intro e he
      have := hp.listed e he
      rw [hne] at this
      cases this
    subst hnil
    have hp' : Presents C (lit "sha-256") s.st.payload [] [] :=
      { digest := List.forall_mem_nil _, load := List.forall_mem_nil _,
        listed := List.forall_mem_nil _, fresh := List.nodup_nil, distinct := List.nodup_nil,
        names := hp.names, wf := hp.wf, unmarked := hp.unmarked, depth := hp.depth }
    obtain ⟨placed, hprocess⟩ := hp'.processPayload suite.hashName s.jwt kb
    refine @hrun (lit "sha-256") placed (if_pos hne) rfl ?_
    rw [hne]
    exact hprocess
  · obtain ⟨placed, hprocess⟩ := hp.processPayload suite.hashName s.jwt kb
    exact hrun (if_neg hne) (by rw [suite.hash_ok]; rfl) hprocess

theorem processed_eq_of_perm {hashName : Str} {plain : Dict} {digests : List Str}
    (hperm : chosen'.Perm chosen) (hnodup : (chosen.map (Disclosed.digest C hashName)).Nodup) :
    processed C hashName plain digests chosen' = processed C hashName plain digests chosen := by
  rw [processed, processed, shownBy_perm hperm.symm hnodup]

/-- The claims of a credential are recovered from any of its presentations. For every claims object
without a reserved name that reads back as it is written, the claims of a presentation of some of the
disclosures of the issued credential, in any order, are the ones signed in plain and those of the
disclosures presented; the order changes nothing, and all the disclosures give all the claims. -/
theorem issue_presents_claims {I : Interpreter} {now : Int} (hnow : currentSecond I = .ok now)
    (hissue : issue I C random suite key a = .ok token) (hkid : IsStr key.kid)
    (hx5c : ∀ chain, a.x5c = some chain → ∀ c ∈ chain, IsStr c)
    (hstable : Stable (.obj (a.full now))) (hmark : UnmarkedMembers (a.full now))
    (hdepth : (Json.obj (a.full now)).depth ≤ OpenVC.maxDepth) :
    ∃ (plain : Dict) (entries : List Disclosed) (jws : Jws) (jwt : Str) (digests : List Str),
      split token = .ok ⟨jwt, entries.map Disclosed.text, []⟩ ∧ decodeJws jwt = .ok jws ∧
      jws.payload = withDigests plain digests suite.hashName ∧
      digests = entries.map (Disclosed.digest C suite.hashName) ++
        decoyDigests random suite.hashName a.disclosable.length a.decoys ∧
      entries.map Disclosed.name = a.disclosable ∧
      (∀ e ∈ entries, loadSegment e.text = .ok (.arr [.str e.salt, .str e.name, e.value])) ∧
      (a.full now).Perm (plain ++ entries.map Disclosed.claim) ∧
      (digests.Nodup → ∀ chosen : List Disclosed, chosen.Subperm entries → ∃ claims : Dict,
        (∀ chosen' : List Disclosed, chosen'.Perm chosen → ∀ kb, 126 ∉ kb →
          presentedClaims C (presentationOf jwt (chosen'.map Disclosed.text) kb) = .ok claims) ∧
        claims.Perm (plain ++ chosen.map Disclosed.claim) ∧
        (chosen.Perm entries → claims.Perm (a.full now))) := by
  obtain ⟨s⟩ := issued_of_issue hnow (stable_obj.mp hstable).1 hissue
  obtain ⟨hheader, hflat⟩ := issuerHeader_representable s.permitted hkid hx5c s.headerOk
  have hpayload := s.payload_stable hstable hmark
  have hpd := s.payload_depth hmark
  have hmax : OpenVC.maxDepth = 100 := rfl
  have hjws := s.signed.decodeJws hheader hpayload.representable rfl hpayload.reread
    ((depth_reread_le (.obj s.header)).trans (by omega)) (hpd.trans (by omega))
  have hload : ∀ e ∈ s.entries, loadSegment e.text = .ok (.arr e.parsed) := fun e he =>
    s.load hstable hdepth he
  have hparts : ∀ d ∈ s.entries.map Disclosed.text, d ≠ [] ∧ 126 ∉ d := by
    intro d hd
    obtain ⟨e, he, rfl⟩ := List.mem_map.mp hd
    exact s.text_ok (hload e he) he
  refine ⟨s.st.payload, s.entries, _, s.jwt, s.digests, ?_, hjws, rfl, s.digests_eq,
    s.discloses.names, hload, s.discloses.split, fun hdigests chosen hchosen => ?_⟩
  · have hsplit := @split_presentationOf _ [] _ s.signed.tilde_not_mem hparts List.not_mem_nil
    rw [presentationOf, List.append_nil, ← s.text] at hsplit
    exact hsplit
  · have hp := s.presents hstable hmark hdepth hdigests hchosen
    refine ⟨processed C suite.hashName s.st.payload s.digests chosen, fun chosen' hperm kb hkb => ?_,
      hp.processed_perm, fun hall => ?_⟩
    · rw [← processed_eq_of_perm hperm hp.fresh]
      exact s.presentedClaims hstable hmark hdepth hjws rfl hdigests
        (hperm.subperm.trans hchosen) hkb
    · exact hp.processed_perm.trans
        (((hall.map _).append_left s.st.payload).trans s.discloses.split.symm)

end RoundTrip

/-! ## A credential with two disclosable claims -/

/-- The claims, the last two of them disclosable, with a decoy digest. -/
def givenIssuance (given : Str) : Issuance :=
  { claims := [("iss", .str "i"), ("vct", .str "v"), ("iat", .int 1), ("given", .str given),
      ("age", .int 36)],
    disclosable := ["given", "age"], decoys := 1 }

/-- The issuer's key, with its signature over the one credential it signs. -/
def givenKey (signature : Nat × Nat) : SigningKey :=
  ⟨"EdDSA", "k", fun _ => .ok (Codec.intToFixed signature.1 32 ++ Codec.intToFixed signature.2 32)⟩

/-- The numbers of the calls, repeated. -/
def givenRandom : TokenBytes := fun call size => List.replicate size (UInt8.ofNat call)

/-- A suite that hashes with SHA-256. -/
def sha256Suite : HashingSuite (Crypto.ofTexts []) :=
  { defaultSuite with hashName := "sha-256", hasher := Hashlib.sha256, hash_ok := rfl }

/-- The claims of the issued credential, all disclosures presented. -/
def givenClaims (given : Str) (signature : Nat × Nat) : Result Dict := do
  let token ← issue (.atSecond 1800000000 []) (Crypto.ofTexts []) givenRandom sha256Suite
    (givenKey signature) (givenIssuance given)
  presentedClaims (Crypto.ofTexts []) token

/-- The issuer's signature of the credential of `ann`. -/
def annSignature : Nat × Nat :=
  (0x4084260cdb1818472241b574ac48e1596005dd5ac89d7f029a5c9f7df8076ad2,
   0xbf5906a04d2354e021372aaef749b0870d8a7848b5cdc5a433813f675f099f0d)

theorem stable_given {given : Str} (h : ∀ c ∈ given, c < 128) :
    Stable (.obj ((givenIssuance given).full 1800000000)) := by
  have hlit : ∀ s ∈ [lit "iss", lit "vct", lit "iat", lit "given", lit "age", lit "i", lit "v"],
      ∀ c ∈ s, c < 128 := by decide
  have hname : ∀ s ∈ [lit "iss", lit "vct", lit "iat", lit "given", lit "age", lit "i", lit "v"],
      IsStr s ∧ hasPair s = false := fun s hs => stable_str.mp (stable_ascii (hlit s hs))
  refine stable_obj.mpr ⟨?_, fun p hp => ?_⟩
  · change [lit "iss", lit "vct", lit "iat", lit "given", lit "age"].Nodup
    decide
  · change p ∈ [(lit "iss", Json.str (lit "i")), (lit "vct", .str (lit "v")), (lit "iat", .int 1),
      (lit "given", .str given), (lit "age", .int 36)] at hp
    simp only [List.mem_cons, List.not_mem_nil, or_false] at hp
    rcases hp with rfl | rfl | rfl | rfl | rfl
    · exact ⟨(hname _ (by simp)).1, (hname _ (by simp)).2, stable_ascii (hlit _ (by simp))⟩
    · exact ⟨(hname _ (by simp)).1, (hname _ (by simp)).2, stable_ascii (hlit _ (by simp))⟩
    · exact ⟨(hname _ (by simp)).1, (hname _ (by simp)).2, trivial, trivial, trivial⟩
    · exact ⟨(hname _ (by simp)).1, (hname _ (by simp)).2, stable_ascii h⟩
    · exact ⟨(hname _ (by simp)).1, (hname _ (by simp)).2, trivial, trivial, trivial⟩

theorem unmarked_given (given : Str) : UnmarkedMembers ((givenIssuance given).full 1800000000) := by
  have hne : ∀ k ∈ [lit "iss", lit "vct", lit "iat", lit "given", lit "age"],
      k ≠ lit "_sd" ∧ k ≠ lit "..." ∧ k ≠ lit "_sd_alg" := by decide
  refine unmarkedMembers_iff.mpr fun p hp => ?_
  change p ∈ [(lit "iss", Json.str (lit "i")), (lit "vct", .str (lit "v")), (lit "iat", .int 1),
    (lit "given", .str given), (lit "age", .int 36)] at hp
  simp only [List.mem_cons, List.not_mem_nil, or_false] at hp
  rcases hp with rfl | rfl | rfl | rfl | rfl
  all_goals exact ⟨(hne _ (by simp)).1, (hne _ (by simp)).2.1, (hne _ (by simp)).2.2, trivial⟩

/-- The disclosure of the name `ann`. -/
def annDisclosure : Str := lit "WyJBQUFBQUFBQUFBQUFBQUFBQUFBQUFBIiwiZ2l2ZW4iLCJhbm4iXQ"

/-- The disclosure of the age. -/
def ageDisclosure : Str := lit "WyJBUUVCQVFFQkFRRUJBUUVCQVFFQkFRIiwiYWdlIiwzNl0"

/-- The credential of `ann`, presented with its disclosures in the other order, and with the second
alone. -/
theorem issue_presents_claims_ann : ∃ jwt claims shown,
    presentedClaims (Crypto.ofTexts []) (presentationOf jwt [ageDisclosure, annDisclosure] []) =
      .ok claims ∧ claims.Perm ((givenIssuance "ann").full 1800000000) ∧
    presentedClaims (Crypto.ofTexts []) (presentationOf jwt [ageDisclosure] []) = .ok shown ∧
    ∃ plain given age : Dict, shown.Perm (plain ++ age) ∧ claims.Perm (plain ++ given ++ age) ∧
      given.keys = [lit "given"] ∧ age.keys = [lit "age"] := by
  obtain ⟨token, hissue, hdisclosure⟩ := exists_ok_of_map
    (x := issue (.atSecond 1800000000 []) (Crypto.ofTexts []) givenRandom sha256Suite
      (givenKey annSignature) (givenIssuance "ann"))
    (f := fun t => (split t).toOption.map (·.disclosures)) (c := some [annDisclosure, ageDisclosure])
    (by decide +kernel)
  have hkid : IsStr (givenKey annSignature).kid := by
    have : ∀ c ∈ lit "k", c < 0x110000 := by decide
    exact this
  obtain ⟨plain, entries, jws, jwt, digests, hsplit, -, -, hdigests, hnames, -, -, hall⟩ :=
    issue_presents_claims rfl hissue hkid (fun chain h => by cases h) (stable_given (by decide))
      (unmarked_given _) (by decide)
  have htexts : entries.map Disclosed.text = [annDisclosure, ageDisclosure] := by
    rw [hsplit] at hdisclosure
    exact Option.some.inj hdisclosure
  have hnodup : digests.Nodup := by
    have hdig : entries.map (Disclosed.digest (Crypto.ofTexts []) sha256Suite.hashName) =
        [annDisclosure, ageDisclosure].map fun t => (disclosureDigest (Crypto.ofTexts []) t
          sha256Suite.hashName).toOption.getD [] := by
      rw [← htexts, List.map_map]
      refine List.map_congr_left fun e _ => ?_
      rw [Disclosed.digest, Function.comp_apply]
      cases disclosureDigest (Crypto.ofTexts []) e.text sha256Suite.hashName <;> rfl
    rw [hdigests, hdig]
    decide +kernel
  obtain ⟨given, rest, rfl, hgiven, hrest⟩ := List.map_eq_cons_iff.mp htexts
  obtain ⟨age, rfl, hage⟩ := List.map_eq_singleton_iff.mp hrest
  have hnames : [given.name, age.name] = [lit "given", lit "age"] := hnames
  simp only [List.cons.injEq, and_true] at hnames
  obtain ⟨claims, hclaims, hperm, hfull⟩ := hall hnodup [given, age] (List.Subperm.refl _)
  obtain ⟨shown, hshown, hpart, -⟩ :=
    hall hnodup [age] (List.sublist_cons_self given [age]).subperm
  refine ⟨jwt, claims, shown, ?_, hfull (List.Perm.refl _), ?_, plain, [given.claim], [age.claim],
    hpart, ?_, congrArg (fun k => [k]) hnames.1, congrArg (fun k => [k]) hnames.2⟩
  · rw [← hgiven, ← hage]
    exact hclaims [age, given] (List.Perm.swap given age []) [] List.not_mem_nil
  · rw [← hage]
    exact hshown [age] (List.Perm.refl _) [] List.not_mem_nil
  · rw [List.append_assoc]
    exact hperm

/-- A surrogate pair written as two code points, in a claim that no other rule of the round trip
excludes, is read back as the one character that it encodes. -/
theorem issue_joins_surrogates :
    UnmarkedMembers ((givenIssuance [0xD83D, 0xDE00]).full 1800000000) ∧
    (Json.obj ((givenIssuance [0xD83D, 0xDE00]).full 1800000000)).depth ≤ OpenVC.maxDepth ∧
    ∃ claims, givenClaims [0xD83D, 0xDE00]
        (0xe41a3ee5c5bf01d84778c03405b9e29b0fcbfc37a9907c9f19639ffc25a4756c,
         0x5c42e2a8be9c8d8fb4f5673919e9a47cc153240943929fdff3b0c1a208285f09) = .ok claims ∧
      (lit "given", .str [0x1F600]) ∈ claims ∧
      ¬ claims.Perm ((givenIssuance [0xD83D, 0xDE00]).full 1800000000) := by
  refine ⟨unmarked_given _, by decide, ?_⟩
  obtain ⟨claims, hclaims, hgiven⟩ := exists_ok_of_map
    (x := givenClaims [0xD83D, 0xDE00]
      (0xe41a3ee5c5bf01d84778c03405b9e29b0fcbfc37a9907c9f19639ffc25a4756c,
       0x5c42e2a8be9c8d8fb4f5673919e9a47cc153240943929fdff3b0c1a208285f09))
    (f := fun claims => (claims.filter (·.1 = lit "given")).map fun p => p.2.str?)
    (c := [some [0x1F600]]) (by decide +kernel)
  have hmem : some [0x1F600] ∈ (claims.filter (·.1 = lit "given")).map fun p => p.2.str? :=
    hgiven ▸ List.mem_singleton_self _
  obtain ⟨⟨k, v⟩, hp, hv⟩ := List.mem_map.mp hmem
  obtain ⟨hp, hk⟩ := List.mem_filter.mp hp
  obtain rfl : k = lit "given" := by simpa using hk
  obtain rfl : v = .str [0x1F600] := Json.str?_eq_some.mp hv
  refine ⟨claims, hclaims, hp, fun hperm => ?_⟩
  have hfull : (lit "given", Json.str [0x1F600]) ∈ [(lit "iss", Json.str (lit "i")),
      (lit "vct", .str (lit "v")), (lit "iat", .int 1), (lit "given", .str [0xD83D, 0xDE00]),
      (lit "age", .int 36)] := hperm.mem_iff.mp hp
  simp [lit_eq] at hfull

end OpenVC.SdJwt
