import OpenVC.Did.Base

/-!
# Key selection in a DID document

`key_for_purpose` compares spellings. It decides what a reference semantics says over absolute DID
URLs: a URL names one method of the document, and a reference to that URL grants it.
-/

namespace OpenVC.Did

open Python

namespace DidDocument

/-! ## The reference semantics -/

/-- The absolute DID URL that a method id or a reference of the document stands for. -/
def abs (doc : DidDocument) (u : Str) : Option Str :=
  if Str.startsWith u "did:" then some u
  else if Str.startsWith u "#" ∧ isDid doc.id then some (doc.id ++ u)
  else none

/-- The method is the only one of the document whose id stands for the URL. -/
def Names (doc : DidDocument) (url : Str) (vm : VerificationMethod) : Prop :=
  ∃ before after, doc.verificationMethods = before ++ vm :: after ∧ doc.abs vm.id = some url ∧
    ∀ m ∈ before ++ after, doc.abs m.id ≠ some url

/-- The relationship of the purpose is not declared, or one of its references stands for the URL that
the method's id stands for. -/
def Grants (doc : DidDocument) (purpose : Str) (vm : VerificationMethod) : Prop :=
  ∀ refs, doc.relationships.lookup purpose = some refs →
    ∃ r ∈ refs, ∃ url, doc.abs r = some url ∧ doc.abs vm.id = some url

/-- A method with the URL that its id stands for in place of the id. -/
def resolvedMethod (doc : DidDocument) (vm : VerificationMethod) : Option Str × Str × Str × Dict :=
  (doc.abs vm.id, vm.type, vm.controller, vm.publicKeyJwk)

/-- The document with other spellings of the ids and references: each stands for the same URL. -/
structure Respelled (doc doc' : DidDocument) : Prop where
  id : doc'.id = doc.id
  methods : doc'.verificationMethods.map doc'.resolvedMethod =
    doc.verificationMethods.map doc.resolvedMethod
  relationships : doc'.relationships.map (fun e => (e.1, e.2.map doc'.abs)) =
    doc.relationships.map fun e => (e.1, e.2.map doc.abs)

end DidDocument

/-! ## Spellings -/

theorem startsWith_of_isDid {s : Str} (h : isDid s = true) : Str.startsWith s "did:" = true := by
  unfold isDid at h
  have hjoin : List.intercalate [58] (Str.split 58 s) = s := List.intercalate_splitOn 58
  split at h
  · rename_i scheme method first rest hsplit
    simp only [Bool.and_eq_true, beq_iff_eq] at h
    rw [hsplit, h.1.1.1.1] at hjoin
    rw [← hjoin]
    rfl
  · cases h

theorem startsWith_iff {s p : Str} : Str.startsWith s p = true ↔ ∃ t, s = p ++ t := by
  rw [Str.startsWith, List.isPrefixOf_iff_prefix]
  exact ⟨fun ⟨t, h⟩ => ⟨t, h.symm⟩, fun ⟨t, h⟩ => ⟨t, h.symm⟩⟩

theorem not_startsWith_did {u : Str} (h : Str.startsWith u "#" = true) :
    Str.startsWith u "did:" = false := by
  obtain ⟨t, rfl⟩ := startsWith_iff.mp h
  rfl

theorem startsWith_append {s p t : Str} (h : Str.startsWith s p = true) :
    Str.startsWith (s ++ t) p = true := by
  obtain ⟨r, rfl⟩ := startsWith_iff.mp h
  exact startsWith_iff.mpr ⟨r ++ t, List.append_assoc _ _ _⟩

variable {doc : DidDocument} {u url : Str}

theorem abs_eq (doc : DidDocument) (u : Str) : doc.abs u = absolute u doc.base := by
  unfold DidDocument.abs absolute DidDocument.base
  by_cases hdid : isDid doc.id = true
  · simp [hdid]
  · simp [hdid]

theorem startsWith_of_abs (h : doc.abs u = some url) : Str.startsWith url "did:" = true := by
  unfold DidDocument.abs at h
  split_ifs at h with h1 h2
  · cases h
    exact h1
  · cases h
    exact startsWith_append (startsWith_of_isDid h2.2)

theorem mem_spellings_iff : u ∈ spellings (some url) doc.base ↔ doc.abs u = some url := by
  constructor
  · intro h
    unfold spellings DidDocument.base at h
    unfold DidDocument.abs
    by_cases hurl : Str.startsWith url "did:" = true
    · by_cases hdid : isDid doc.id = true
      · simp only [hurl, hdid, Bool.not_true, Bool.false_eq_true, if_false, if_true,
          Bool.and_eq_true] at h
        split_ifs at h with hrel
        · obtain ⟨hbase, hhash⟩ := hrel
          obtain ⟨t, rfl⟩ := startsWith_iff.mp hbase
          rw [List.drop_left] at h hhash
          rcases List.mem_pair.mp h with rfl | rfl
          · rw [if_pos hurl]
          · rw [if_neg (by rw [not_startsWith_did hhash]; exact Bool.false_ne_true),
              if_pos ⟨hhash, hdid⟩]
        · rw [List.mem_singleton.mp h, if_pos hurl]
      · simp only [hurl, hdid, Bool.not_true, Bool.false_eq_true, if_false] at h
        rw [List.mem_singleton.mp h, if_pos hurl]
    · simp [hurl] at h
  · intro h
    have hurl := startsWith_of_abs h
    unfold spellings DidDocument.base
    unfold DidDocument.abs at h
    simp only [hurl, Bool.not_true, Bool.false_eq_true, if_false]
    split_ifs at h with h1 h2
    · cases h
      split
      · exact List.mem_singleton_self _
      · split_ifs
        · exact List.mem_cons_self
        · exact List.mem_singleton_self _
    · cases h
      obtain ⟨hhash, hdid⟩ := h2
      rw [if_pos hdid]
      have hbase : Str.startsWith (doc.id ++ u) doc.id = true := startsWith_iff.mpr ⟨u, rfl⟩
      simp only [hbase, List.drop_left, hhash, Bool.and_self, if_true]
      exact List.mem_cons_of_mem _ (List.mem_singleton_self _)

/-! ## Selection and grant -/

theorem filter_eq_singleton_iff {α : Type} {p : α → Bool} {l : List α} {a : α} :
    l.filter p = [a] ↔ ∃ before after, l = before ++ a :: after ∧ p a = true ∧
      ∀ x ∈ before ++ after, p x = false := by
  constructor
  · intro h
    obtain ⟨before, after, rfl, hbefore, ha, hafter⟩ := List.filter_eq_cons_iff.mp h
    refine ⟨before, after, rfl, ha, fun x hx => ?_⟩
    rcases List.mem_append.mp hx with hx | hx
    · simpa using hbefore x hx
    · simpa using List.filter_eq_nil_iff.mp hafter x hx
  · rintro ⟨before, after, rfl, ha, hall⟩
    refine List.filter_eq_cons_iff.mpr ⟨before, after, rfl, fun x hx => ?_, ha, ?_⟩
    · rw [hall x (List.mem_append_left _ hx)]
      exact Bool.false_ne_true
    · refine List.filter_eq_nil_iff.mpr fun x hx => ?_
      rw [hall x (List.mem_append_right _ hx)]
      exact Bool.false_ne_true

/-- A `kid` selects the method whose id alone stands for it. -/
theorem selected_some_iff {kid : Str} {vm : VerificationMethod} :
    doc.selected (some kid) = some vm ↔ doc.Names kid vm := by
  have hfilter : doc.selected (some kid) = some vm ↔ doc.methodsWithId kid doc.base = [vm] := by
    unfold DidDocument.selected
    dsimp only
    split
    · rename_i m hm
      rw [hm]
      simp
    · rename_i hne
      exact ⟨nofun, fun h => (hne vm h).elim⟩
  have hp : ∀ m : VerificationMethod, (spellings (some kid) doc.base).contains m.id = true ↔
      doc.abs m.id = some kid := fun m => by
    rw [List.contains_iff_mem, mem_spellings_iff]
  rw [hfilter, DidDocument.methodsWithId, filter_eq_singleton_iff, DidDocument.Names]
  simp only [← Bool.not_eq_true, hp]

theorem selected_none_iff {vm : VerificationMethod} :
    doc.selected none = some vm ↔ doc.verificationMethods = [vm] := by
  unfold DidDocument.selected DidDocument.keyByKid
  dsimp only
  split
  · rename_i m hm
    rw [hm]
    simp
  · rename_i hne
    exact ⟨nofun, fun h => (hne vm h).elim⟩

theorem grants_iff {purpose : Str} {vm : VerificationMethod} :
    doc.grants purpose vm = true ↔ doc.Grants purpose vm := by
  unfold DidDocument.grants DidDocument.Grants
  cases hrefs : doc.relationships.lookup purpose with
  | none => simp
  | some refs =>
    simp only [List.any_eq_true, List.contains_iff_mem, Option.some.injEq, forall_eq', ← abs_eq]
    refine exists_congr fun r => and_congr_right fun _ => ?_
    cases habs : doc.abs vm.id with
    | none => simp [spellings]
    | some url =>
      rw [mem_spellings_iff]
      simp

theorem keyForPurpose_eq_some {kid : Option Str} {purpose : Str} {vm : VerificationMethod} :
    doc.keyForPurpose kid purpose = some vm ↔
      doc.selected kid = some vm ∧ doc.Grants purpose vm := by
  rw [DidDocument.keyForPurpose, Option.filter_eq_some_iff, grants_iff]

/-! ## Respelled documents -/

/-- The URLs that the references of each relationship stand for. -/
def resolvedRelationships (doc : DidDocument) : List (Str × List (Option Str)) :=
  doc.relationships.map fun e => (e.1, e.2.map doc.abs)

/-- Selection, over the methods with their URLs. -/
def SelectedIn (methods : List (Option Str × Str × Str × Dict)) (kid : Option Str)
    (m : Option Str × Str × Str × Dict) : Prop :=
  match kid with
  | none => methods = [m]
  | some kid => ∃ before after, methods = before ++ m :: after ∧ m.1 = some kid ∧
      ∀ x ∈ before ++ after, x.1 ≠ some kid

/-- The grant, over the URLs of the references. -/
def GrantedIn (relationships : List (Str × List (Option Str))) (purpose : Str)
    (m : Option Str × Str × Str × Dict) : Prop :=
  ∀ refs, relationships.lookup purpose = some refs → ∃ url, some url ∈ refs ∧ m.1 = some url

theorem grants_iff_grantedIn {purpose : Str} {vm : VerificationMethod} :
    doc.Grants purpose vm ↔
      GrantedIn (resolvedRelationships doc) purpose (doc.resolvedMethod vm) := by
  unfold DidDocument.Grants GrantedIn resolvedRelationships
  simp only [lookup_map_snd, Option.map_eq_some_iff, DidDocument.resolvedMethod]
  constructor
  · rintro h refs' ⟨refs, hrefs, rfl⟩
    obtain ⟨r, hr, url, hurl, hvm⟩ := h refs hrefs
    exact ⟨url, List.mem_map.mpr ⟨r, hr, hurl⟩, hvm⟩
  · intro h refs hrefs
    obtain ⟨url, hmem, hvm⟩ := h _ ⟨refs, hrefs, rfl⟩
    obtain ⟨r, hr, hurl⟩ := List.mem_map.mp hmem
    exact ⟨r, hr, url, hurl, hvm⟩

/-- What is selected, and under which URL, is decided by the URLs. -/
theorem selected_iff_selectedIn {kid : Option Str} {m : Option Str × Str × Str × Dict} :
    (∃ vm, doc.selected kid = some vm ∧ doc.resolvedMethod vm = m) ↔
      SelectedIn (doc.verificationMethods.map doc.resolvedMethod) kid m := by
  cases kid with
  | none =>
    simp only [selected_none_iff, SelectedIn]
    constructor
    · rintro ⟨vm, hvm, rfl⟩
      rw [hvm]
      rfl
    · intro h
      obtain ⟨vm, hvm, hm⟩ := List.map_eq_singleton_iff.mp h
      exact ⟨vm, hvm, hm⟩
  | some kid =>
    simp only [selected_some_iff, SelectedIn, DidDocument.Names]
    constructor
    · rintro ⟨vm, ⟨before, after, hvm, hurl, hall⟩, rfl⟩
      refine ⟨before.map doc.resolvedMethod, after.map doc.resolvedMethod, by rw [hvm]; simp, hurl, ?_⟩
      rw [← List.map_append]
      intro x hx
      obtain ⟨vm', hmem, rfl⟩ := List.mem_map.mp hx
      exact hall vm' hmem
    · rintro ⟨before, after, hm, hurl, hall⟩
      obtain ⟨before', rest, hsplit, rfl, hrest⟩ := List.map_eq_append_iff.mp hm
      obtain ⟨vm, after', rfl, rfl, rfl⟩ := List.map_eq_cons_iff.mp hrest
      refine ⟨vm, ⟨before', after', hsplit, hurl, fun m hmem => ?_⟩, rfl⟩
      rw [← List.map_append] at hall
      exact hall _ (List.mem_map_of_mem hmem)

theorem keyForPurpose_map_eq_some {kid : Option Str} {purpose : Str}
    {m : Option Str × Str × Str × Dict} :
    (doc.keyForPurpose kid purpose).map doc.resolvedMethod = some m ↔
      SelectedIn (doc.verificationMethods.map doc.resolvedMethod) kid m ∧
        GrantedIn (resolvedRelationships doc) purpose m := by
  rw [Option.map_eq_some_iff, ← selected_iff_selectedIn]
  constructor
  · rintro ⟨vm, hvm, rfl⟩
    obtain ⟨hsel, hgrant⟩ := keyForPurpose_eq_some.mp hvm
    exact ⟨⟨vm, hsel, rfl⟩, grants_iff_grantedIn.mp hgrant⟩
  · rintro ⟨⟨vm, hsel, rfl⟩, hgrant⟩
    exact ⟨vm, keyForPurpose_eq_some.mpr ⟨hsel, grants_iff_grantedIn.mpr hgrant⟩, rfl⟩

/-- `key_for_purpose` is its reference semantics. With a `kid` it returns the method whose id alone
stands for that URL, without one the only method, if the relationship of the purpose grants it. The
spelling of ids and references does not count, and different absolute URLs are different. -/
theorem keyForPurpose_reference (doc : DidDocument) :
    (∀ kid purpose vm, doc.keyForPurpose (some kid) purpose = some vm ↔
      doc.Names kid vm ∧ doc.Grants purpose vm) ∧
    (∀ purpose vm, doc.keyForPurpose none purpose = some vm ↔
      doc.verificationMethods = [vm] ∧ doc.Grants purpose vm) ∧
    (∀ doc', doc.Respelled doc' → ∀ kid purpose,
      (doc'.keyForPurpose kid purpose).map doc'.resolvedMethod =
        (doc.keyForPurpose kid purpose).map doc.resolvedMethod) ∧
    (∀ u v, Str.startsWith u "did:" = true → Str.startsWith v "did:" = true →
      doc.abs u = doc.abs v → u = v) := by
  refine ⟨fun kid purpose vm => ?_, fun purpose vm => ?_, fun doc' h kid purpose => ?_,
    fun u v hu hv h => ?_⟩
  · rw [keyForPurpose_eq_some, selected_some_iff]
  · rw [keyForPurpose_eq_some, selected_none_iff]
  · have hrel : resolvedRelationships doc' = resolvedRelationships doc := h.relationships
    ext m
    rw [keyForPurpose_map_eq_some, keyForPurpose_map_eq_some, h.methods, hrel]
  · rw [DidDocument.abs, DidDocument.abs, if_pos hu, if_pos hv] at h
    exact Option.some.inj h

/-- A document with one method, granted by one reference. -/
def oneMethodDocument (id ref : Str) : DidDocument :=
  { id := "did:web:a.example"
    verificationMethods := [⟨id, "JsonWebKey2020", "did:web:a.example", []⟩]
    raw := []
    relationships := [("assertionMethod", [ref])] }

/-- A method with a relative id, granted by an absolute reference, and the document with both spelled
the other way. -/
theorem keyForPurpose_reference_respelled :
    (oneMethodDocument "#key-1" "did:web:a.example#key-1").keyForPurpose
        (some "did:web:a.example#key-1") "assertionMethod" =
      some ⟨"#key-1", "JsonWebKey2020", "did:web:a.example", []⟩ ∧
    ((oneMethodDocument "did:web:a.example#key-1" "#key-1").keyForPurpose
        (some "did:web:a.example#key-1") "assertionMethod").map
          (oneMethodDocument "did:web:a.example#key-1" "#key-1").resolvedMethod =
      ((oneMethodDocument "#key-1" "did:web:a.example#key-1").keyForPurpose
        (some "did:web:a.example#key-1") "assertionMethod").map
          (oneMethodDocument "#key-1" "did:web:a.example#key-1").resolvedMethod := by
  constructor
  · refine ((keyForPurpose_reference _).1 _ _ _).mpr ⟨⟨[], [], rfl, by decide, nofun⟩, ?_⟩
    intro refs hrefs
    have hrefs : refs = ["did:web:a.example#key-1"] := (Option.some.inj hrefs).symm
    rw [hrefs]
    exact ⟨_, List.mem_singleton_self _, "did:web:a.example#key-1", by decide, by decide⟩
  · refine (keyForPurpose_reference _).2.2.1 _ ⟨rfl, ?_, ?_⟩ _ _
    · simp [oneMethodDocument, DidDocument.resolvedMethod, DidDocument.abs]
    · simp [oneMethodDocument, DidDocument.abs]

end OpenVC.Did
