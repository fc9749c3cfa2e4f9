import OpenVC.Logic.Layers
import OpenVC.Proofs.ErrorsProofs
import OpenVC.TypeMetadata

/-!
# The `extends` chain of a type

A document of the chain is a layer of claims over those of the documents it extends. The chain that
a run of `_resolve_chain` follows, the claims it composes and those that a credential is held to are
read off that stack.
-/

namespace OpenVC.TypeMetadata

open Python Layers

/-! ## Paths -/

/-- A segment of a claim path. -/
inductive Segment where
  /-- A member of an object. -/
  | name (s : Str)
  /-- Every element of an array. -/
  | every
  /-- An element of an array. -/
  | index (n : Nat)
  deriving DecidableEq

/-- The segment a valid component stands for. -/
def Segment.ofJson : Json → Segment
  | .str s => .name s
  | .int n => .index n.toNat
  | _ => .every

/-- The path of a claim. -/
def pathOf (claim : Dict) : List Segment := (pathKey (claim.get "path")).map Segment.ofJson

/-- A claim with a well-formed path. -/
def HasPath (claim : Dict) : Prop := isValidPath (claim.get "path") = true

theorem pyEq_component_iff {a b : Json} (ha : isValidComponent a = true)
    (hb : isValidComponent b = true) :
    Json.pyEq a b = true ↔ Segment.ofJson a = Segment.ofJson b := by
  cases a with
  | str s =>
    rw [Json.pyEq_str]
    cases b <;> simp_all [Segment.ofJson, isValidComponent, eq_comm]
  | null => cases b <;> simp_all [Segment.ofJson, isValidComponent, Json.pyEq, Json.num?]
  | int m =>
    cases b with
    | int n =>
      have hm : 0 ≤ m := of_decide_eq_true ha
      have hn : 0 ≤ n := of_decide_eq_true hb
      simp only [Json.pyEq, Json.num?, PyFloat.eq, beq_iff_eq, Rat.intCast_inj, Segment.ofJson,
        Segment.index.injEq]
      omega
    | str s => simp [Json.pyEq, Json.num?, Segment.ofJson]
    | null => simp [Json.pyEq, Json.num?, Segment.ofJson]
    | _ => cases hb
  | _ => cases ha

theorem pyEqList_components_iff {l l' : List Json} (hl : l.all isValidComponent = true)
    (hl' : l'.all isValidComponent = true) :
    Json.pyEqList l l' = true ↔ l.map Segment.ofJson = l'.map Segment.ofJson := by
  induction l generalizing l' with
  | nil => cases l' <;> simp [Json.pyEqList]
  | cons a l ih =>
    cases l' with
    | nil => simp [Json.pyEqList]
    | cons b l' =>
      rw [List.all_cons, Bool.and_eq_true] at hl hl'
      rw [Json.pyEqList, Bool.and_eq_true, pyEq_component_iff hl.1 hl'.1, ih hl.2 hl'.2,
        List.map_cons, List.map_cons, List.cons.injEq]

theorem HasPath.exists_components {claim : Dict} (h : HasPath claim) :
    ∃ l, claim.get "path" = .arr l ∧ l ≠ [] ∧ l.all isValidComponent = true := by
  unfold HasPath at h
  cases hp : claim.get "path" with
  | arr l =>
    rw [hp, isValidPath, Bool.and_eq_true, Bool.not_eq_true', List.isEmpty_eq_false_iff] at h
    exact ⟨l, rfl, h⟩
  | _ =>
    rw [hp] at h
    cases h

theorem pyEqList_pathKey_iff {c p : Dict} (hc : HasPath c) (hp : HasPath p) :
    Json.pyEqList (pathKey (c.get "path")) (pathKey (p.get "path")) = true ↔
      pathOf c = pathOf p := by
  obtain ⟨l, hl, -, hlv⟩ := hc.exists_components
  obtain ⟨l', hl', -, hlv'⟩ := hp.exists_components
  rw [pathOf, pathOf, hl, hl']
  exact pyEqList_components_iff hlv hlv'

theorem overridden_iff {child : List Dict} {p : Dict} (hc : ∀ c ∈ child, HasPath c)
    (hp : HasPath p) : overridden child p = true ↔ Declares pathOf (pathOf p) child := by
  rw [overridden, List.any_eq_true, Declares]
  refine exists_congr fun c => and_congr_right fun hmem => ?_
  exact pyEqList_pathKey_iff (hc c hmem) hp

theorem composeClaims_eq {child parent : List Dict} (hc : ∀ c ∈ child, HasPath c)
    (hp : ∀ p ∈ parent, HasPath p) : composeClaims child parent = overlay pathOf child parent := by
  refine congrArg (child ++ ·) (List.filter_congr fun p hmem => ?_)
  have hiff := overridden_iff hc (hp p hmem)
  by_cases h : Declares pathOf (pathOf p) child
  · rw [hiff.mpr h, decide_eq_false (not_not_intro h), Bool.not_true]
  · rw [Bool.eq_false_iff.mpr (mt hiff.mp h), decide_eq_true h, Bool.not_false]

/-! ## The documents a resolution passes -/

/-- A document of a chain, with the type it was fetched for and its claims. -/
structure Level where
  vct : Str
  document : Dict
  claims : List Dict

/-- The document a type is served with is fetched and its claims are read. -/
structure Level.Served (C : Crypto) (resolve : ResolveTypeMetadata) (integrity : Json)
    (l : Level) : Prop where
  document_eq : fetchDocument C resolve l.vct integrity = .ok l.document
  claims_eq : claimList l.document l.vct = .ok l.claims

/-- The documents from a type up to one that extends nothing. -/
inductive Chain (C : Crypto) (resolve : ResolveTypeMetadata) : Str → Json → List Level → Prop
  | root {l : Level} {integrity : Json} (h : l.Served C resolve integrity)
      (hroot : l.document.get "extends" = .null) : Chain C resolve l.vct integrity [l]
  | extend {l : Level} {integrity : Json} {super : Str} {ls : List Level}
      (h : l.Served C resolve integrity) (hext : l.document.get "extends" = .str super)
      (hs : Chain C resolve super (l.document.get "extends#integrity") ls) :
      Chain C resolve l.vct integrity (l :: ls)

/-- The reference to `vct'` that a resolution comes to after the documents `passed`. -/
inductive Leads (C : Crypto) (resolve : ResolveTypeMetadata) :
    Str → Json → List Level → Str → Json → Prop
  | here {vct : Str} {integrity : Json} : Leads C resolve vct integrity [] vct integrity
  | extend {l : Level} {integrity : Json} {super : Str} {passed : List Level} {vct' : Str}
      {integrity' : Json} (h : l.Served C resolve integrity)
      (hext : l.document.get "extends" = .str super)
      (hs : Leads C resolve super (l.document.get "extends#integrity") passed vct' integrity') :
      Leads C resolve l.vct integrity (l :: passed) vct' integrity'

/-- A reference whose document cannot be fetched, or is not one to go on from. -/
def Refused (C : Crypto) (resolve : ResolveTypeMetadata) (vct : Str) (integrity : Json) : Prop :=
  (∃ e, fetchDocument C resolve vct integrity = .error e) ∨
    ∃ d, fetchDocument C resolve vct integrity = .ok d ∧
      ((∃ e, claimList d vct = .error e) ∨
        d.get "extends" ≠ .null ∧ ∀ super, d.get "extends" ≠ .str super)

variable {C : Crypto} {resolve : ResolveTypeMetadata} {maxDepth levels : Nat} {vct : Str}
  {integrity : Json} {seen : List Str}

theorem claimList_hasPath {document : Dict} {claims : List Dict}
    (h : claimList document vct = .ok claims) : ∀ c ∈ claims, HasPath c := by
  unfold claimList at h
  split at h
  · cases h
    exact fun c hc => absurd hc List.not_mem_nil
  · simp only [readClaims, bind_eq_ok, each_eq_ok, checkPath, raiseIf_eq_ok, pure_eq_ok] at h
    obtain ⟨cs, -, -, hpath, rfl⟩ := h
    exact fun c hc => by simpa [HasPath] using hpath c hc

/-- The claims of a chain of documents, as they are composed. -/
def composed (ls : List Level) : List Dict := stack pathOf (ls.map Level.claims)

theorem Level.Served.hasPath {l : Level} (h : l.Served C resolve integrity) :
    ∀ c ∈ l.claims, HasPath c := claimList_hasPath h.claims_eq

theorem Chain.hasPath {ls : List Level} (h : Chain C resolve vct integrity ls) :
    ∀ l ∈ ls, ∀ c ∈ l.claims, HasPath c := by
  induction h with
  | root h _ =>
    intro l hl
    obtain rfl := List.mem_singleton.mp hl
    exact h.hasPath
  | extend h _ _ ih =>
    intro l hl
    rcases List.mem_cons.mp hl with rfl | hl
    · exact h.hasPath
    · exact ih l hl

theorem Chain.composed_hasPath {ls : List Level} (h : Chain C resolve vct integrity ls) :
    ∀ c ∈ composed ls, HasPath c := by
  intro c hc
  obtain ⟨above, cs, below, hls, hmem, -⟩ := mem_stack_iff.mp hc
  have hcs : cs ∈ ls.map Level.claims := by
    rw [hls]
    exact List.mem_append_right _ List.mem_cons_self
  obtain ⟨l, hl, rfl⟩ := List.mem_map.mp hcs
  exact h.hasPath l hl c hmem

/-- One level of `_resolve_chain`. -/
theorem resolveChain_succ (C : Crypto) (resolve : ResolveTypeMetadata) (maxDepth levels : Nat)
    (vct : Str) (integrity : Json) (seen : List Str) {r : List Dict × List Dict} :
    resolveChain C resolve maxDepth (levels + 1) vct integrity seen = .ok r ↔
      vct ∉ seen ∧ ∃ l : Level, l.vct = vct ∧ l.Served C resolve integrity ∧
        ((l.document.get "extends" = .null ∧ r = ([l.document], l.claims)) ∨
          ∃ super r', l.document.get "extends" = .str super ∧
            resolveChain C resolve maxDepth levels super (l.document.get "extends#integrity")
              (seen ++ [vct]) = .ok r' ∧
            r = (l.document :: r'.1, composeClaims l.claims r'.2)) := by
  rw [resolveChain]
  simp only [bind_eq_ok, raiseIf_eq_ok, List.contains_eq_mem, decide_eq_false_iff_not]
  constructor
  · rintro ⟨⟨⟩, hseen, d, hd, cs, hcs, h⟩
    refine ⟨hseen, ⟨vct, d, cs⟩, rfl, ⟨hd, hcs⟩, ?_⟩
    split at h
    · rename_i hext
      exact .inl ⟨hext, (Except.ok.inj h).symm⟩
    · rename_i super hext
      obtain ⟨⟨ds, ps⟩, hr', h⟩ := bind_eq_ok.mp h
      exact .inr ⟨super, _, hext, hr', (Except.ok.inj h).symm⟩
    · cases h
  · rintro ⟨hseen, ⟨v, d, cs⟩, rfl, ⟨hd, hcs⟩, h⟩
    refine ⟨(), hseen, d, hd, cs, hcs, ?_⟩
    rcases h with ⟨hext, rfl⟩ | ⟨super, ⟨ds, ps⟩, hext, hr', rfl⟩
    · simp only [hext]
    · simp only [hext]
      exact bind_eq_ok.mpr ⟨_, hr', rfl⟩

/-- A chain that fits the levels left and passes nothing seen is resolved to its documents and its
composed claims. -/
theorem resolveChain_of_chain {ls : List Level} (h : Chain C resolve vct integrity ls)
    (hlen : ls.length ≤ levels) (hnodup : (ls.map Level.vct).Nodup)
    (hseen : ∀ l ∈ ls, l.vct ∉ seen) :
    resolveChain C resolve maxDepth levels vct integrity seen =
      .ok (ls.map Level.document, composed ls) := by
  induction h generalizing levels seen with
  | @root l integrity h hroot =>
    obtain ⟨n, rfl⟩ : ∃ n, levels = n + 1 := ⟨levels - 1, by simp at hlen; omega⟩
    rw [resolveChain_succ]
    refine ⟨hseen l (List.mem_singleton_self l), l, rfl, h, .inl ⟨hroot, ?_⟩⟩
    simp [composed, stack, overlay]
  | @extend l integrity super ls h hext hs ih =>
    obtain ⟨n, rfl⟩ : ∃ n, levels = n + 1 := ⟨levels - 1, by simp at hlen; omega⟩
    rw [List.map_cons, List.nodup_cons] at hnodup
    have hseen' : ∀ l' ∈ ls, l'.vct ∉ seen ++ [l.vct] := by
      intro l' hl' hmem
      rcases List.mem_append.mp hmem with hmem | hmem
      · exact hseen l' (List.mem_cons_of_mem _ hl') hmem
      · rw [List.mem_singleton] at hmem
        exact hnodup.1 (List.mem_map.mpr ⟨l', hl', hmem⟩)
    rw [resolveChain_succ]
    refine ⟨hseen l List.mem_cons_self, l, rfl, h, .inr ⟨super, _, hext,
      ih (Nat.le_of_succ_le_succ hlen) hnodup.2 hseen', ?_⟩⟩
    rw [composeClaims_eq h.hasPath hs.composed_hasPath]
    rfl

/-- What was resolved is the documents and the composed claims of such a chain. -/
theorem exists_chain_of_resolveChain {r : List Dict × List Dict}
    (h : resolveChain C resolve maxDepth levels vct integrity seen = .ok r) :
    ∃ ls, Chain C resolve vct integrity ls ∧ ls.length ≤ levels ∧ (ls.map Level.vct).Nodup ∧
      (∀ l ∈ ls, l.vct ∉ seen) ∧ r = (ls.map Level.document, composed ls) := by
  induction levels generalizing vct integrity seen r with
  | zero => cases h
  | succ n ih =>
    obtain ⟨hseen, l, rfl, hserved, ⟨hroot, rfl⟩ | ⟨super, r', hext, hr', rfl⟩⟩ :=
      (resolveChain_succ C resolve maxDepth n _ integrity seen).mp h
    · refine ⟨[l], .root hserved hroot, ?_, List.nodup_singleton _, ?_, ?_⟩
      · simp
      · intro l' hl'
        rw [List.mem_singleton.mp hl']
        exact hseen
      · simp [composed, stack, overlay]
    · obtain ⟨ls, hs, hlen, hnodup, hls, rfl⟩ := ih hr'
      refine ⟨l :: ls, .extend hserved hext hs, ?_, ?_, ?_, ?_⟩
      · rw [List.length_cons]
        omega
      · rw [List.map_cons, List.nodup_cons]
        refine ⟨fun hmem => ?_, hnodup⟩
        obtain ⟨l', hl', heq⟩ := List.mem_map.mp hmem
        refine hls l' hl' (List.mem_append_right _ ?_)
        rw [heq]
        exact List.mem_singleton_self _
      · intro l' hl'
        rcases List.mem_cons.mp hl' with rfl | hl'
        · exact hseen
        · exact fun hmem => hls l' hl' (List.mem_append_left _ hmem)
      · rw [composeClaims_eq hserved.hasPath hs.composed_hasPath]
        rfl

/-- A resolution that comes to a type it has seen, or to its last level, is refused. -/
theorem resolveChain_of_leads {passed : List Level} {vct' : Str} {integrity' : Json}
    (h : Leads C resolve vct integrity passed vct' integrity')
    (hout : levels ≤ passed.length ∨ vct' ∈ seen ++ passed.map Level.vct) :
    ∃ e, resolveChain C resolve maxDepth levels vct integrity seen = .error e ∧
      e.cls = .typeMetadataResolutionError := by
  induction h generalizing levels seen with
  | @here vct integrity =>
    cases levels with
    | zero => exact ⟨_, rfl, rfl⟩
    | succ n =>
      have hmem : vct ∈ seen := by simpa using hout
      have hc : seen.contains vct = true := by simpa using hmem
      rw [resolveChain, hc]
      exact ⟨_, rfl, rfl⟩
  | @extend l integrity super passed vct' integrity' h hext _ ih =>
    cases levels with
    | zero => exact ⟨_, rfl, rfl⟩
    | succ n =>
      by_cases hseen : seen.contains l.vct = true
      · rw [resolveChain, hseen]
        exact ⟨_, rfl, rfl⟩
      · have hnext : n ≤ passed.length ∨ vct' ∈ (seen ++ [l.vct]) ++ passed.map Level.vct := by
          rw [List.length_cons, List.map_cons] at hout
          rw [List.append_assoc, List.singleton_append]
          exact hout.imp_left Nat.le_of_succ_le_succ
        obtain ⟨e, he, hcls⟩ := ih hnext
        refine ⟨e, ?_, hcls⟩
        rw [resolveChain, Bool.eq_false_iff.mpr hseen, h.document_eq]
        change (claimList l.document l.vct >>= _) = _
        rw [h.claims_eq]
        change (match l.document.get "extends" with | _ => _) = _
        rw [hext]
        change (resolveChain C resolve maxDepth n super _ _ >>= _) = _
        rw [he]
        rfl

/-- A resolution that is refused came to a type it had seen, to its last level, or to a reference
that is refused. -/
theorem exists_leads_of_error {e : Err}
    (h : resolveChain C resolve maxDepth levels vct integrity seen = .error e) :
    ∃ passed vct' integrity', Leads C resolve vct integrity passed vct' integrity' ∧
      (levels ≤ passed.length ∨ vct' ∈ seen ++ passed.map Level.vct ∨
        Refused C resolve vct' integrity') := by
  induction levels generalizing vct integrity seen e with
  | zero => exact ⟨[], vct, integrity, .here, .inl (Nat.le_refl 0)⟩
  | succ n ih =>
    by_cases hseen : vct ∈ seen
    · exact ⟨[], vct, integrity, .here, .inr (.inl (List.mem_append_left _ hseen))⟩
    by_cases href : Refused C resolve vct integrity
    · exact ⟨[], vct, integrity, .here, .inr (.inr href)⟩
    obtain ⟨d, hd⟩ : ∃ d, fetchDocument C resolve vct integrity = .ok d := by
      cases hd : fetchDocument C resolve vct integrity with
      | ok d => exact ⟨d, rfl⟩
      | error e' => exact absurd (.inl ⟨e', hd⟩) href
    obtain ⟨cs, hcs⟩ : ∃ cs, claimList d vct = .ok cs := by
      cases hcs : claimList d vct with
      | ok cs => exact ⟨cs, rfl⟩
      | error e' => exact absurd (.inr ⟨d, hd, .inl ⟨e', hcs⟩⟩) href
    have hserved : Level.Served C resolve integrity ⟨vct, d, cs⟩ := ⟨hd, hcs⟩
    by_cases hroot : d.get "extends" = .null
    · have hok := (resolveChain_succ C resolve maxDepth n vct integrity seen).mpr
        ⟨hseen, ⟨vct, d, cs⟩, rfl, hserved, .inl ⟨hroot, rfl⟩⟩
      rw [hok] at h
      cases h
    obtain ⟨super, hext⟩ : ∃ super, d.get "extends" = .str super := by
      by_contra hno
      exact href (.inr ⟨d, hd, .inr ⟨hroot, not_exists.mp hno⟩⟩)
    cases hr : resolveChain C resolve maxDepth n super (d.get "extends#integrity")
        (seen ++ [vct]) with
    | ok r' =>
      have hok := (resolveChain_succ C resolve maxDepth n vct integrity seen).mpr
        ⟨hseen, ⟨vct, d, cs⟩, rfl, hserved, .inr ⟨super, r', hext, hr, rfl⟩⟩
      rw [hok] at h
      cases h
    | error e' =>
      obtain ⟨passed, vct', integrity', hl, hout⟩ := ih hr
      refine ⟨⟨vct, d, cs⟩ :: passed, vct', integrity', .extend hserved hext hl, ?_⟩
      rw [List.append_assoc, List.singleton_append] at hout
      exact hout.imp_left Nat.succ_le_succ

/-! ## The claims a credential is held to -/

/-- What a claim asks of a credential: its path can be followed, and leads to something if the claim
is mandatory. -/
def Satisfies (payload claim : Dict) : Prop :=
  ∃ path selection, claim.get "path" = .arr path ∧ path ≠ [] ∧
    select payload path = .ok selection ∧ (isMandatory claim = true → selection ≠ [])

theorem validateClaim_eq_ok {payload claim : Dict} {u : Unit} :
    validateClaim payload claim = .ok u ↔ Satisfies payload claim := by
  simp only [validateClaim, bind_eq_ok, orRaise_eq_ok, raiseIf_eq_ok, Option.filter_eq_some_iff,
    Bool.not_eq_true', List.isEmpty_eq_false_iff, Bool.and_eq_false_iff]
  constructor
  · rintro ⟨path, ⟨hpath, hne⟩, selection, hsel, hmand⟩
    refine ⟨path, selection, ?_, hne, hsel, fun hm => ?_⟩
    · cases hv : claim.get "path" <;> simp_all [Json.arr?]
    · rcases hmand with hmand | hmand
      · rw [hm] at hmand
        cases hmand
      · exact hmand
  · rintro ⟨path, selection, hpath, hne, hsel, hmand⟩
    rw [hpath]
    refine ⟨path, ⟨rfl, hne⟩, selection, hsel, ?_⟩
    by_cases hm : isMandatory claim = true
    · exact .inr (hmand hm)
    · exact .inl (Bool.eq_false_iff.mpr hm)

theorem validateTypeMetadata_eq_ok {payload : Dict} {r : TypeMetadataResult} :
    validateTypeMetadata C payload vct integrity resolve maxDepth = .ok r ↔
      ∃ rs, resolveChain C resolve maxDepth maxDepth vct integrity [] = .ok rs ∧
        r = ⟨vct, rs.1, rs.2⟩ ∧ ∀ c ∈ rs.2, Satisfies payload c := by
  simp only [validateTypeMetadata, bind_eq_ok, pure_eq_ok, validateClaims, each_eq_ok,
    validateClaim_eq_ok]
  constructor
  · rintro ⟨rs, hrs, ⟨⟩, hsat, rfl⟩
    exact ⟨rs, hrs, rfl, hsat⟩
  · rintro ⟨rs, hrs, rfl, hsat⟩
    exact ⟨rs, hrs, (), hsat, rfl⟩

/-- A resolution is refused on a cycle and beyond the depth, and is refused otherwise only for a
document that cannot be used; else the claims are those that the most derived document declares for
each path, and the credential is held to exactly these. -/
theorem type_metadata_chain (C : Crypto) (resolve : ResolveTypeMetadata) (maxDepth : Nat)
    (payload : Dict) (vct : Str) (integrity : Json) :
    (∀ passed vct' integrity', Leads C resolve vct integrity passed vct' integrity' →
      (maxDepth ≤ passed.length ∨ vct' ∈ passed.map Level.vct) →
      ∃ e, validateTypeMetadata C payload vct integrity resolve maxDepth = .error e ∧
        e.cls = .typeMetadataResolutionError) ∧
    (∀ e, resolveChain C resolve maxDepth maxDepth vct integrity [] = .error e →
      ∃ passed vct' integrity', Leads C resolve vct integrity passed vct' integrity' ∧
        (maxDepth ≤ passed.length ∨ vct' ∈ passed.map Level.vct ∨
          Refused C resolve vct' integrity')) ∧
    (∀ ls, Chain C resolve vct integrity ls → ls.length ≤ maxDepth → (ls.map Level.vct).Nodup →
      ∀ r, validateTypeMetadata C payload vct integrity resolve maxDepth = .ok r ↔
        r = ⟨vct, ls.map Level.document, composed ls⟩ ∧ ∀ c ∈ composed ls, Satisfies payload c) ∧
    ∀ r, validateTypeMetadata C payload vct integrity resolve maxDepth = .ok r →
      ∃ ls, Chain C resolve vct integrity ls ∧ ls.length ≤ maxDepth ∧
        (ls.map Level.vct).Nodup ∧ r.documents = ls.map Level.document ∧
        (∀ c ∈ r.claims, HasPath c) ∧
        (∀ p, entries pathOf p r.claims =
          entries pathOf p ((topmost pathOf p (ls.map Level.claims)).getD [])) ∧
        ∀ above l below c, ls = above ++ l :: below → c ∈ l.claims → isMandatory c = true →
          (∃ path selection, c.get "path" = .arr path ∧ select payload path = .ok selection ∧
            selection ≠ []) ∨
          ∃ l' ∈ above, Declares pathOf (pathOf c) l'.claims := by
  refine ⟨fun passed vct' integrity' h hout => ?_, fun e h => ?_, fun ls h hlen hnodup r => ?_,
    fun r h => ?_⟩
  · have hraise : ∃ e, resolveChain C resolve maxDepth maxDepth vct integrity [] = .error e ∧
        e.cls = .typeMetadataResolutionError := resolveChain_of_leads h hout
    obtain ⟨e, he, hcls⟩ := hraise
    refine ⟨e, ?_, hcls⟩
    rw [validateTypeMetadata, he]
    rfl
  · exact exists_leads_of_error h
  · have hrs : resolveChain C resolve maxDepth maxDepth vct integrity [] =
        .ok (ls.map Level.document, composed ls) :=
      resolveChain_of_chain h hlen hnodup fun l _ => List.not_mem_nil
    rw [validateTypeMetadata_eq_ok, hrs]
    constructor
    · rintro ⟨rs, heq, rfl, hsat⟩
      cases heq
      exact ⟨rfl, hsat⟩
    · rintro ⟨rfl, hsat⟩
      exact ⟨_, rfl, rfl, hsat⟩
  · obtain ⟨rs, hrs, rfl, hsat⟩ := validateTypeMetadata_eq_ok.mp h
    obtain ⟨ls, hls, hlen, hnodup, -, rfl⟩ := exists_chain_of_resolveChain hrs
    refine ⟨ls, hls, hlen, hnodup, rfl, hls.composed_hasPath, fun p => entries_stack pathOf p _, ?_⟩
    intro above l below c heq hc hmand
    by_cases hdecl : ∃ l' ∈ above, Declares pathOf (pathOf c) l'.claims
    · exact .inr hdecl
    · refine .inl ?_
      have hmem : c ∈ composed ls := by
        refine mem_stack_iff.mpr ⟨above.map Level.claims, l.claims, below.map Level.claims, ?_, hc,
          fun cs hcs hd => ?_⟩
        · rw [heq, List.map_append, List.map_cons]
        · obtain ⟨l', hl', rfl⟩ := List.mem_map.mp hcs
          exact hdecl ⟨l', hl', hd⟩
      obtain ⟨path, selection, hpath, -, hsel, hne⟩ := hsat c hmem
      exact ⟨path, selection, hpath, hsel, hne hmand⟩

/-- The documents of a card, of the type it extends, and of one that extends itself. -/
def servedText (vct : Str) : Str :=
  if vct = lit "card" then
    "\x7b\"vct\":\"card\",\"extends\":\"base\",\"extends#integrity\":\"sha256-Nm9E7Hd6pToGCndugztOt4NcDGPojxOuFOByk7zFEtI=\",\"claims\":[\x7b\"path\":[\"name\"],\"mandatory\":true\x7d]\x7d"
  else if vct = lit "base" then
    "\x7b\"vct\":\"base\",\"claims\":[\x7b\"path\":[\"name\"]\x7d,\x7b\"path\":[\"age\"]\x7d]\x7d"
  else "\x7b\"vct\":\"loop\",\"extends\":\"loop\"\x7d"

/-- The host of the types. -/
def typeHost : ResolveTypeMetadata := fun vct => .ok (.bytes ((servedText vct).map UInt8.ofNat))

/-- What a resolution reads at the host for a type. -/
def level (vct : Str) (integrity : Json) : Result Level := do
  let document ← fetchDocument (Crypto.ofTexts []) typeHost vct integrity
  let claims ← claimList document vct
  return ⟨vct, document, claims⟩

theorem served_of_level {vct : Str} {integrity : Json} {l : Level}
    (h : level vct integrity = .ok l) :
    l.vct = vct ∧ l.Served (Crypto.ofTexts []) typeHost integrity := by
  simp only [level, bind_eq_ok, pure_eq_ok] at h
  obtain ⟨document, hdocument, claims, hclaims, rfl⟩ := h
  exact ⟨rfl, hdocument, hclaims⟩

theorem exists_loop : ∃ l, level "loop" .null = .ok l ∧
    (l.document.get "extends").str? = some (lit "loop") :=
  exists_ok_of_map (by decide +kernel)

theorem exists_base : ∃ l,
    level "base" (.str "sha256-Nm9E7Hd6pToGCndugztOt4NcDGPojxOuFOByk7zFEtI=") = .ok l ∧
      (l.document.get? "extends").isNone = true :=
  exists_ok_of_map (by decide +kernel)

theorem exists_card : ∃ l, level "card" .null = .ok l ∧
    ((l.document.get "extends").str?, (l.document.get "extends#integrity").str?) =
      (some (lit "base"), some (lit "sha256-Nm9E7Hd6pToGCndugztOt4NcDGPojxOuFOByk7zFEtI=")) :=
  exists_ok_of_map (by decide +kernel)

/-- A credential of the card. -/
def ann : Dict := [("name", .str "Ann")]

theorem exists_cardRun : ∃ r,
    validateTypeMetadata (Crypto.ofTexts []) ann "card" .null typeHost 3 = .ok r ∧
      r.documents.length = 2 :=
  exists_ok_of_map (by decide +kernel)

/-- The type that extends itself is refused for its cycle; the card is resolved to its two documents,
and the credential is held to the claims composed of them. -/
theorem type_metadata_chain_card :
    (∃ e, validateTypeMetadata (Crypto.ofTexts []) ann "loop" .null typeHost 3 = .error e ∧
      e.cls = .typeMetadataResolutionError) ∧
    (∃ passed vct integrity, Leads (Crypto.ofTexts []) typeHost "loop" .null passed vct integrity ∧
      (3 ≤ passed.length ∨ vct ∈ passed.map Level.vct ∨
        Refused (Crypto.ofTexts []) typeHost vct integrity)) ∧
    ∃ r ls, validateTypeMetadata (Crypto.ofTexts []) ann "card" .null typeHost 3 = .ok r ∧
      Chain (Crypto.ofTexts []) typeHost "card" .null ls ∧ r.claims = composed ls ∧
      r.documents.length = 2 ∧ ∀ c ∈ r.claims, HasPath c := by
  obtain ⟨hcycle, hwhy, -⟩ := type_metadata_chain (Crypto.ofTexts []) typeHost 3 ann "loop" .null
  obtain ⟨-, -, hchain, hrun⟩ := type_metadata_chain (Crypto.ofTexts []) typeHost 3 ann "card" .null
  refine ⟨?_, ?_, ?_⟩
  · obtain ⟨l, hl, hsuper⟩ := exists_loop
    obtain ⟨hvct, hserved⟩ := served_of_level hl
    have hleads : Leads (Crypto.ofTexts []) typeHost l.vct .null [l] (lit "loop")
        (l.document.get "extends#integrity") :=
      .extend hserved (Json.str?_eq_some.mp hsuper) .here
    rw [hvct] at hleads
    exact hcycle _ _ _ hleads (.inr (List.mem_singleton.mpr hvct.symm))
  · have hraised : raised (resolveChain (Crypto.ofTexts []) typeHost 3 3 "loop" .null []) =
        some .typeMetadataResolutionError := by decide +kernel
    cases h : resolveChain (Crypto.ofTexts []) typeHost 3 3 "loop" .null [] with
    | ok r =>
      rw [h] at hraised
      cases hraised
    | error e => exact hwhy e h
  · obtain ⟨r, hr, hdocuments⟩ := exists_cardRun
    obtain ⟨card, hcard, hnext⟩ := exists_card
    obtain ⟨base, hbase, hroot⟩ := exists_base
    obtain ⟨hsuper, hintegrity⟩ := Prod.mk.inj hnext
    obtain ⟨hvct, hserved⟩ := served_of_level hcard
    obtain ⟨hvct', hserved'⟩ := served_of_level hbase
    have hls : Chain (Crypto.ofTexts []) typeHost card.vct .null [card, base] := by
      refine .extend hserved (Json.str?_eq_some.mp hsuper) ?_
      rw [Json.str?_eq_some.mp hintegrity]
      refine hvct' ▸ .root hserved' ?_
      rw [Dict.get, Option.isNone_iff_eq_none.mp hroot]
      rfl
    rw [hvct] at hls
    have hnodup : ([card, base].map Level.vct).Nodup := by
      rw [List.map_cons, List.map_singleton, hvct, hvct']
      decide
    obtain ⟨heq, -⟩ := (hchain [card, base] hls (Nat.le_succ 2) hnodup r).mp hr
    obtain ⟨-, -, -, -, -, hpath, -⟩ := hrun r hr
    exact ⟨r, [card, base], hr, hls, congrArg TypeMetadataResult.claims heq, hdocuments, hpath⟩

end OpenVC.TypeMetadata
