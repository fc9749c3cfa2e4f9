import OpenVC.Proofs.MdocProofs

/-!
# The claims of a document and the order of its items

The items of a namespace are written one after the other into the returned map, so that the last of
two items with one identifier wins. The map holds every item, in whatever order they come, exactly
when no two items of a namespace disagree about an element.
-/

namespace OpenVC.Mdoc

open Python Cbor Cose

/-! ## Lookups -/

section Assign

variable {α : Type}

theorem lookup_assign (d : Named α) (name k : Str) (value : α) :
    (assign d name value).lookup k = if k = name then some value else d.lookup k := by
  induction d with
  | nil =>
    rw [assign, List.lookup_cons]
    by_cases hk : k = name
    · simp [hk]
    · have hkn : (k == name) = false := by simpa using hk
      rw [hkn, if_neg hk]
  | cons p d ih =>
    obtain ⟨n, v⟩ := p
    rw [assign]
    by_cases hn : n = name
    · rw [if_pos hn, List.lookup_cons, List.lookup_cons]
      by_cases hk : k = name
      · simp [hk, hn]
      · have hkn : (k == n) = false := by simpa [hn] using hk
        rw [hkn, if_neg hk]
    · rw [if_neg hn, List.lookup_cons, List.lookup_cons, ih]
      by_cases hk : k = n
      · simp [hk, hn]
      · have hkn : (k == n) = false := by simpa using hk
        rw [hkn]

/-- What is found under a name is the last value assigned to it. -/
theorem lookup_assignAll (d elements : Named α) (k : Str) :
    (∃ e ∈ elements, e.1 = k ∧ (assignAll d elements).lookup k = some e.2) ∨
      (∀ e ∈ elements, e.1 ≠ k) ∧ (assignAll d elements).lookup k = d.lookup k := by
  induction elements generalizing d with
  | nil => exact .inr ⟨fun e he => absurd he List.not_mem_nil, rfl⟩
  | cons p elements ih =>
    rcases ih (assign d p.1 p.2) with ⟨e, he, hk, hlookup⟩ | ⟨hnone, hlookup⟩
    · exact .inl ⟨e, List.mem_cons_of_mem _ he, hk, hlookup⟩
    · rw [lookup_assign] at hlookup
      by_cases hp : k = p.1
      · rw [if_pos hp] at hlookup
        exact .inl ⟨p, List.mem_cons_self, hp.symm, hlookup⟩
      · rw [if_neg hp] at hlookup
        exact .inr ⟨List.forall_mem_cons.mpr ⟨fun h => hp h.symm, hnone⟩, hlookup⟩

end Assign

/-! ## Disclosure -/

/-- The element of an item: its identifier, and its value without tags. -/
def elementOf (item : Cbor) : Option (Str × Cbor) := do
  let (value, _) ← embedded item
  let fields ← (decode value).toOption.bind map?
  let name ← (field fields "elementIdentifier").text?
  return (name, plain (field fields "elementValue"))

theorem SealedItem.elementOf_eq {hasher : Bytes → Bytes} {nsDigests : List (CborKey × Cbor)}
    {item : Cbor} {element : Str × Cbor} (h : SealedItem hasher nsDigests item element) :
    elementOf item = some element := by
  obtain ⟨value, received, fields, digestId, rfl, hdecode, -, -, hname, -, hvalue⟩ := h
  have hembedded := embedded_eq_some.mpr
    (rfl : Cbor.tag tagEncodedCbor (.bytes value) (some received) = _)
  simp only [elementOf, hembedded, hdecode, hname, ← hvalue, Option.bind_eq_bind, Option.bind_some,
    Except.toOption, map?, text?, pure]

/-- The `issuerSigned` of a document. -/
def issuerSignedOf (document : Cbor) : List (CborKey × Cbor) :=
  ((field (document.map?.getD []) "issuerSigned").map?).getD []

/-- Two items of one namespace with one identifier have one value. -/
def Consistent (document : Cbor) : Prop :=
  ∀ space items, (CborKey.text space, Cbor.arr items) ∈ spacesOf (issuerSignedOf document) →
    ∀ item ∈ items, ∀ item' ∈ items, ∀ e e', elementOf item = some e → elementOf item' = some e' →
      e.1 = e'.1 → Same e.2 e'.2

/-- Each item is in the returned map. -/
def Appears (document : Cbor) (namespaces : Named (Named Cbor)) : Prop :=
  ∀ space items, (CborKey.text space, Cbor.arr items) ∈ spacesOf (issuerSignedOf document) →
    ∀ item ∈ items, ∀ e, elementOf item = some e →
      ∃ claims v, namespaces.lookup space = some claims ∧ claims.lookup e.1 = some v ∧ Same v e.2

/-- The same claims, in whatever order. -/
def SameClaims (claims claims' : Named Cbor) : Prop :=
  ∀ name, Option.Rel Same (claims.lookup name) (claims'.lookup name)

/-- The same claims in each namespace. -/
def SameNamespaces (namespaces namespaces' : Named (Named Cbor)) : Prop :=
  ∀ space, Option.Rel SameClaims (namespaces.lookup space) (namespaces'.lookup space)

/-- `d[name] = value` for a name that the map has. -/
def setField (m : List (CborKey × Cbor)) (name : String) (value : Cbor) : List (CborKey × Cbor) :=
  m.map fun p => if p.1 = .text (lit name) then (p.1, value) else p

/-- A namespace with its items in another order. -/
def PermutedSpace (entry entry' : CborKey × Cbor) : Prop :=
  entry.1 = entry'.1 ∧
    ∃ items items', entry.2 = .arr items ∧ entry'.2 = .arr items' ∧ items.Perm items'

/-- The document with the items of its namespaces in another order. -/
def Permuted (document document' : Cbor) : Prop :=
  ∃ entries issuerSigned spaces spaces', document = .map entries ∧
    field entries "issuerSigned" = .map issuerSigned ∧
    field issuerSigned "nameSpaces" = .map spaces ∧
    List.Forall₂ PermutedSpace spaces spaces' ∧
    document' = .map (setField entries "issuerSigned"
      (.map (setField issuerSigned "nameSpaces" (.map spaces'))))

/-- The order of the items does not matter to a verification. -/
def OrderFree (verify : Cbor → Result VerifiedMdoc) (document : Cbor)
    (namespaces : Named (Named Cbor)) : Prop :=
  ∀ document', Permuted document document' → ∃ out', verify document' = .ok out' ∧
    SameNamespaces namespaces out'.namespaces

/-! ## One namespace -/

section Items

variable {elements elements' : Named Cbor}

/-- The claims hold each of the elements if these agree. -/
theorem lookup_claims (hagree : ∀ e ∈ elements, ∀ e' ∈ elements, e.1 = e'.1 → Same e.2 e'.2)
    {e : Str × Cbor} (he : e ∈ elements) :
    ∃ v, (assignAll [] elements).lookup e.1 = some v ∧ Same v e.2 := by
  rcases lookup_assignAll [] elements e.1 with ⟨e', he', hname, hlookup⟩ | ⟨hnone, -⟩
  · exact ⟨e'.2, hlookup, hagree e' he' e he hname⟩
  · exact absurd rfl (hnone e he)

theorem sameClaims_of_perm (hperm : elements.Perm elements')
    (hagree : ∀ e ∈ elements, ∀ e' ∈ elements, e.1 = e'.1 → Same e.2 e'.2) :
    SameClaims (assignAll [] elements) (assignAll [] elements') := by
  intro name
  rcases lookup_assignAll [] elements name with ⟨e, he, hname, hlookup⟩ | ⟨hnone, hlookup⟩
  · rcases lookup_assignAll [] elements' name with ⟨e', he', hname', hlookup'⟩ | ⟨hnone', -⟩
    · rw [hlookup, hlookup']
      exact .some (hagree e he e' (hperm.mem_iff.mpr he') (hname.trans hname'.symm))
    · exact absurd hname (hnone' e (hperm.mem_iff.mp he))
  · rcases lookup_assignAll [] elements' name with ⟨e', he', hname', -⟩ | ⟨-, hlookup'⟩
    · exact absurd hname' (hnone e' (hperm.mem_iff.mpr he'))
    · rw [hlookup, hlookup']
      exact .none

end Items

/-! ## The namespaces of a document -/

section Spaces

variable {hasher : Bytes → Bytes} {valueDigests : List (CborKey × Cbor)}
  {entries entries' : List (CborKey × Cbor)} {spaces : Named (Named Cbor)}

theorem names_of_sealed (hall : List.Forall₂ (SealedSpace hasher valueDigests) entries spaces) :
    entries.map Prod.fst = spaces.map fun s => CborKey.text s.1 := by
  induction hall with
  | nil => rfl
  | cons hspace _ ih =>
    obtain ⟨items, nsDigests, elements, rfl, -⟩ := hspace
    rw [List.map_cons, List.map_cons, ih]

/-- A namespace is found under its name. -/
theorem lookup_space (hall : List.Forall₂ (SealedSpace hasher valueDigests) entries spaces)
    (hnodup : (entries.map Prod.fst).Nodup) {s : Str × Named Cbor} (hs : s ∈ spaces) :
    (assignAll [] spaces).lookup s.1 = some s.2 := by
  rw [names_of_sealed hall] at hnodup
  rcases lookup_assignAll [] spaces s.1 with ⟨s', hs', hname, hlookup⟩ | ⟨hnone, -⟩
  · have heq := List.inj_on_of_nodup_map hnodup hs' hs (congrArg CborKey.text hname)
    rw [hlookup, heq]
  · exact absurd rfl (hnone s hs)

/-- The items of a namespace in another order are sealed alike. -/
theorem sealedSpace_permuted {entry entry' : CborKey × Cbor} {out : Str × Named Cbor}
    (h : SealedSpace hasher valueDigests entry out) (hp : PermutedSpace entry entry')
    (hagree : ∀ items, entry.2 = .arr items → ∀ item ∈ items, ∀ item' ∈ items, ∀ e e',
      elementOf item = some e → elementOf item' = some e' → e.1 = e'.1 → Same e.2 e'.2) :
    ∃ claims', SealedSpace hasher valueDigests entry' (out.1, claims') ∧
      SameClaims out.2 claims' := by
  obtain ⟨items, nsDigests, elements, rfl, hns, hall, hout⟩ := h
  obtain ⟨hkey, items₁, items', hitems, hitems', hperm⟩ := hp
  cases hitems
  obtain ⟨elements', hall', hperm'⟩ := List.perm_comp_forall₂ hperm.symm hall
  refine ⟨assignAll [] elements', ⟨items', nsDigests, elements', ?_, hns, hall', rfl⟩, ?_⟩
  · exact Prod.ext hkey.symm hitems'
  · rw [hout]
    refine sameClaims_of_perm hperm'.symm fun e he e' he' hname => ?_
    obtain ⟨item, hitem, hsealed⟩ := exists_of_mem_left hall.flip he
    obtain ⟨item', hitem', hsealed'⟩ := exists_of_mem_left hall.flip he'
    exact hagree items rfl item hitem item' hitem' e e' (SealedItem.elementOf_eq hsealed)
      (SealedItem.elementOf_eq hsealed') hname

/-- The namespaces with their items in another order are sealed alike. -/
theorem sealedSpaces_permuted (hall : List.Forall₂ (SealedSpace hasher valueDigests) entries spaces)
    (hp : List.Forall₂ PermutedSpace entries entries')
    (hagree : ∀ entry ∈ entries, ∀ items, entry.2 = .arr items → ∀ item ∈ items, ∀ item' ∈ items,
      ∀ e e', elementOf item = some e → elementOf item' = some e' → e.1 = e'.1 → Same e.2 e'.2) :
    ∃ spaces', List.Forall₂ (SealedSpace hasher valueDigests) entries' spaces' ∧
      List.Forall₂ (fun s s' => s.1 = s'.1 ∧ SameClaims s.2 s'.2) spaces spaces' := by
  induction hall generalizing entries' with
  | nil =>
    cases hp
    exact ⟨[], .nil, .nil⟩
  | cons hspace _ ih =>
    cases hp with
    | cons hentry hrest =>
      rw [List.forall_mem_cons] at hagree
      obtain ⟨claims', hspace', hsame⟩ := sealedSpace_permuted hspace hentry hagree.1
      obtain ⟨spaces', hall', hsames⟩ := ih hrest hagree.2
      exact ⟨_ :: spaces', .cons hspace' hall', .cons ⟨rfl, hsame⟩ hsames⟩

end Spaces

/-! ## Fields -/

theorem lookup_setField (m : List (CborKey × Cbor)) (name : String) (value : Cbor) (k : CborKey) :
    (setField m name value).lookup k =
      if k = .text (lit name) then (m.lookup k).map fun _ => value else m.lookup k := by
  induction m with
  | nil => by_cases hk : k = .text (lit name) <;> simp [setField]
  | cons p m ih =>
    obtain ⟨n, v⟩ := p
    rw [setField] at ih
    rw [setField, List.map_cons]
    by_cases hn : n = .text (lit name)
    · rw [if_pos hn, List.lookup_cons, List.lookup_cons, ih]
      by_cases hk : k = n
      · simp [hk, hn]
      · have hkn : (k == n) = false := by simpa using hk
        rw [hkn]
    · rw [if_neg hn, List.lookup_cons, List.lookup_cons, ih]
      by_cases hk : k = n
      · simp [hk, hn]
      · have hkn : (k == n) = false := by simpa using hk
        rw [hkn]

theorem field_setField_self {m : List (CborKey × Cbor)} {name : String} {value v : Cbor}
    (h : field m name = v) (hv : v ≠ .null) : field (setField m name value) name = value := by
  rw [field, CborKey.get] at h ⊢
  rw [lookup_setField, if_pos rfl]
  cases hl : m.lookup (.text (lit name)) with
  | none =>
    rw [hl] at h
    exact absurd h.symm hv
  | some w => rfl

theorem field_setField {m : List (CborKey × Cbor)} {name name' : String} {value : Cbor}
    (h : lit name' ≠ lit name) : field (setField m name value) name' = field m name' := by
  rw [field, CborKey.get, lookup_setField, if_neg (by simpa using h)]
  rfl

/-! ## The verifiers -/

section Document

variable {E : Env} {call : Call E} {document : Cbor} {parts : IssuerParts}

/-- What a document discloses: its namespaces, each sealed. -/
structure Disclosed (document : Cbor) (namespaces : Named (Named Cbor)) where
  hasher : Bytes → Bytes
  valueDigests : List (CborKey × Cbor)
  spaces : Named (Named Cbor)
  sealedSpaces :
    List.Forall₂ (SealedSpace hasher valueDigests) (spacesOf (issuerSignedOf document)) spaces
  namespaces_eq : namespaces = assignAll [] spaces

theorem disclosed_of_verifyIssuerParts (h : verifyIssuerParts E call document = .ok parts) :
    Nonempty (Disclosed document parts.namespaces) := by
  simp only [verifyIssuerParts, bind_eq_ok, orRaise_eq_ok, pure_eq_ok, map?_eq_some, Prod.exists,
    verifyValueDigests_eq_ok] at h
  obtain ⟨entries, rfl, _, -, _, -, issuerSigned, hissuerSigned, _, _, -, _, _, -, _, -, _, -, _, -, _,
    -, mso, -, _, -, hasher, -, _, -, _, -, namespaces, ⟨valueDigests, spaces, -, -, hspaces, rfl⟩,
    rfl⟩ := h
  have hsigned : issuerSignedOf (.map entries) = issuerSigned := by
    simp only [issuerSignedOf, map?, Option.getD_some, hissuerSigned]
  exact ⟨hasher, valueDigests, spaces, hsigned ▸ hspaces, rfl⟩

theorem wf_field {m : List (CborKey × Cbor)} {name : String} {v : Cbor} (h : WF (.map m))
    (hv : field m name = v) (hne : v ≠ .null) : WF v :=
  wfEntries_iff.mp h.2 _ (mem_of_get hv hne)

theorem nodup_spaces (hwf : WF document) :
    ((spacesOf (issuerSignedOf document)).map Prod.fst).Nodup := by
  have hsigned : WF (.map (issuerSignedOf document)) := by
    unfold issuerSignedOf
    cases document with
    | map entries =>
      cases hs : field entries "issuerSigned" with
      | map issuerSigned =>
        simp only [map?, Option.getD_some, hs]
        exact wf_field hwf hs (by simp)
      | _ => simp [map?, hs, WF, WFEntries]
    | _ => simp [map?, field, CborKey.get, WF, WFEntries]
  unfold spacesOf
  cases hs : field (issuerSignedOf document) "nameSpaces" with
  | map spaces => exact (wf_field hsigned hs (by simp)).1
  | _ => simp [map?]

theorem issuerSignedOf_map {entries issuerSigned : List (CborKey × Cbor)}
    (h : field entries "issuerSigned" = .map issuerSigned) :
    issuerSignedOf (.map entries) = issuerSigned := by
  simp only [issuerSignedOf, map?, Option.getD_some, h]

theorem spacesOf_map {issuerSigned spaces : List (CborKey × Cbor)}
    (h : field issuerSigned "nameSpaces" = .map spaces) : spacesOf issuerSigned = spaces := by
  simp only [spacesOf, h, map?, Option.getD_some]

/-- Namespaces that are the same one by one are the same as maps. -/
theorem sameNamespaces_of_forall₂ {hasher : Bytes → Bytes} {valueDigests : List (CborKey × Cbor)}
    {entries entries' : List (CborKey × Cbor)} {spaces spaces' : Named (Named Cbor)}
    (hall : List.Forall₂ (SealedSpace hasher valueDigests) entries spaces)
    (hall' : List.Forall₂ (SealedSpace hasher valueDigests) entries' spaces')
    (hnodup : (entries.map Prod.fst).Nodup) (hnodup' : (entries'.map Prod.fst).Nodup)
    (h : List.Forall₂ (fun s s' => s.1 = s'.1 ∧ SameClaims s.2 s'.2) spaces spaces') :
    SameNamespaces (assignAll [] spaces) (assignAll [] spaces') := by
  intro space
  rcases lookup_assignAll [] spaces space with ⟨s, hs, rfl, hlookup⟩ | ⟨hnone, hlookup⟩
  · obtain ⟨s', hs', hname, hsame⟩ := exists_of_mem_left h hs
    rw [lookup_space hall hnodup hs, hname, lookup_space hall' hnodup' hs']
    exact .some hsame
  · rcases lookup_assignAll [] spaces' space with ⟨s', hs', hname', -⟩ | ⟨-, hlookup'⟩
    · obtain ⟨s, hs, hname, -⟩ := exists_of_mem_left h.flip hs'
      exact absurd (hname.trans hname') (hnone s hs)
    · rw [hlookup, hlookup']
      exact .none

theorem permutedSpace_keys {entries entries' : List (CborKey × Cbor)}
    (h : List.Forall₂ PermutedSpace entries entries') :
    entries'.map Prod.fst = entries.map Prod.fst := by
  induction h with
  | nil => rfl
  | cons hp _ ih => rw [List.map_cons, List.map_cons, hp.1, ih]

/-- The parts of a consistent document are the same in another order of its items. -/
theorem verifyIssuerParts_permuted {document' : Cbor} (hp : Permuted document document')
    (h : verifyIssuerParts E call document = .ok parts) (hcons : Consistent document)
    (hwf : WF document) : ∃ namespaces',
      verifyIssuerParts E call document' = .ok { parts with namespaces := namespaces' } ∧
      SameNamespaces parts.namespaces namespaces' := by
  have hnodup := nodup_spaces hwf
  obtain ⟨entries, issuerSigned, spaces, spaces', rfl, hsigned, hspaces, hperm, rfl⟩ := hp
  unfold Consistent at hcons
  rw [issuerSignedOf_map hsigned, spacesOf_map hspaces] at hnodup hcons
  simp only [verifyIssuerParts, bind_eq_ok, orRaise_eq_ok, pure_eq_ok, map?_eq_some, Prod.exists,
    verifyValueDigests_eq_ok] at h
  obtain ⟨_, hmap, docType, hdocType, u₁, hexpected, _, hissuerSigned, issuerAuth, chain, hparsed,
    instant, leeway, hwindow, issuerKey, hkey, payload, hpayload, ok, hok, u₂, hverified, mso, hmso, u₃,
    hmsoDocType, hasher, hhasher, validity, hvalidity, u₄, hwithin, namespaces,
    ⟨valueDigests, out, hdigests, -, hall, rfl⟩, rfl⟩ := h
  cases hmap
  rw [hsigned] at hissuerSigned
  cases hissuerSigned
  rw [spacesOf_map hspaces] at hall
  obtain ⟨out', hall', hsame⟩ := sealedSpaces_permuted hall hperm fun entry hentry items hitems => by
    obtain ⟨s, -, items', nsDigests, elements, rfl, -⟩ := exists_of_mem_left hall hentry
    cases hitems
    exact hcons _ _ hentry
  have hnodup' : (spaces'.map Prod.fst).Nodup := by rw [permutedSpace_keys hperm]; exact hnodup
  refine ⟨assignAll [] out', ?_, sameNamespaces_of_forall₂ hall hall' hnodup hnodup' hsame⟩
  have hsigned' : field (setField entries "issuerSigned"
      (.map (setField issuerSigned "nameSpaces" (.map spaces')))) "issuerSigned" =
      .map (setField issuerSigned "nameSpaces" (.map spaces')) :=
    field_setField_self hsigned (by simp)
  have hspaces' : field (setField issuerSigned "nameSpaces" (.map spaces')) "nameSpaces" =
      .map spaces' := field_setField_self hspaces (by simp)
  simp only [verifyIssuerParts, bind_eq_ok, orRaise_eq_ok, pure_eq_ok, map?_eq_some, Prod.exists,
    verifyValueDigests_eq_ok]
  refine ⟨_, rfl, docType, ?_, u₁, hexpected, _, hsigned', issuerAuth, chain, ?_, instant, leeway,
    hwindow, issuerKey, hkey, payload, hpayload, ok, hok, u₂, hverified, mso, hmso, u₃, hmsoDocType,
    hasher, hhasher, validity, hvalidity, u₄, hwithin, _,
    ⟨valueDigests, out', hdigests, .inr ⟨_, hspaces'⟩, ?_, rfl⟩, rfl⟩
  · rw [field_setField (by decide)]
    exact hdocType
  · rw [field_setField (by decide)]
    exact hparsed
  · rw [spacesOf_map hspaces']
    exact hall'

theorem appears_of_consistent {namespaces : Named (Named Cbor)} (d : Disclosed document namespaces)
    (hcons : Consistent document) (hwf : WF document) : Appears document namespaces := by
  intro space items hmem item hitem e he
  obtain ⟨s, hs, items', nsDigests, elements, heq, -, hall, hclaims⟩ :=
    exists_of_mem_left d.sealedSpaces hmem
  obtain ⟨hname, hitems⟩ := Prod.mk.inj heq
  cases hname
  cases hitems
  obtain ⟨e', he', hsealed⟩ := exists_of_mem_left hall hitem
  rw [hsealed.elementOf_eq] at he
  cases he
  have hagree : ∀ x ∈ elements, ∀ y ∈ elements, x.1 = y.1 → Same x.2 y.2 := by
    intro x hx y hy hxy
    obtain ⟨a, ha, hsa⟩ := exists_of_mem_left hall.flip hx
    obtain ⟨b, hb, hsb⟩ := exists_of_mem_left hall.flip hy
    exact hcons _ _ hmem a ha b hb x y (SealedItem.elementOf_eq hsa) (SealedItem.elementOf_eq hsb) hxy
  obtain ⟨v, hv, hsame⟩ := lookup_claims hagree he'
  refine ⟨s.2, v, ?_, by rw [hclaims]; exact hv, hsame⟩
  rw [d.namespaces_eq]
  exact lookup_space d.sealedSpaces (nodup_spaces hwf) hs

theorem consistent_of_appears {namespaces : Named (Named Cbor)} (h : Appears document namespaces) :
    Consistent document := by
  intro space items hmem item hitem item' hitem' e e' he he' hname
  obtain ⟨claims, v, hclaims, hv, hsame⟩ := h space items hmem item hitem e he
  obtain ⟨claims', v', hclaims', hv', hsame'⟩ := h space items hmem item' hitem' e' he'
  rw [hclaims] at hclaims'
  cases hclaims'
  rw [← hname, hv] at hv'
  cases hv'
  exact hsame.symm.trans hsame'

theorem verifyDeviceAuth_setField {entries : List (CborKey × Cbor)} {value : Cbor}
    {namespaces' : Named (Named Cbor)} (sessionTranscript : Bytes) (deviceMacKey : Option Bytes) :
    verifyDeviceAuth E (setField entries "issuerSigned" value) { parts with namespaces := namespaces' }
      sessionTranscript deviceMacKey =
    verifyDeviceAuth E entries parts sessionTranscript deviceMacKey := by
  have hfield : field (setField entries "issuerSigned" value) "deviceSigned" =
      field entries "deviceSigned" := field_setField (by decide)
  rw [verifyDeviceAuth, verifyDeviceAuth, hfield]

end Document

/-- A verification of one document: of its issuer's seal alone, or also of the device's. -/
inductive Verification (E : Env) (call : Call E) : (Cbor → Result VerifiedMdoc) → Prop
  | issuerSigned : Verification E call (verifyIssuerSigned E call)
  | deviceResponse (sessionTranscript : Bytes) (deviceMacKey : Option Bytes) :
      Verification E call (verifyDocument E call sessionTranscript deviceMacKey)

section Document

variable {E : Env} {call : Call E} {verify : Cbor → Result VerifiedMdoc} {document : Cbor}
  {out : VerifiedMdoc}

theorem Verification.parts (hv : Verification E call verify) (h : verify document = .ok out) :
    ∃ parts, verifyIssuerParts E call document = .ok parts ∧ out.namespaces = parts.namespaces := by
  cases hv with
  | issuerSigned =>
    simp only [verifyIssuerSigned, bind_eq_ok, pure_eq_ok] at h
    obtain ⟨_, -, parts, hparts, rfl⟩ := h
    exact ⟨parts, hparts, rfl⟩
  | deviceResponse sessionTranscript deviceMacKey =>
    simp only [verifyDocument, bind_eq_ok, pure_eq_ok] at h
    obtain ⟨parts, hparts, _, -, rfl⟩ := h
    exact ⟨parts, hparts, rfl⟩

theorem Verification.orderFree (hv : Verification E call verify) (h : verify document = .ok out)
    (hcons : Consistent document) (hwf : WF document) : OrderFree verify document out.namespaces := by
  intro document' hp
  cases hv with
  | issuerSigned =>
    simp only [verifyIssuerSigned, bind_eq_ok, pure_eq_ok] at h
    obtain ⟨_, hleeway, parts, hparts, rfl⟩ := h
    obtain ⟨namespaces', hparts', hsame⟩ := verifyIssuerParts_permuted hp hparts hcons hwf
    exact ⟨_, bind_eq_ok.mpr ⟨_, hleeway, bind_eq_ok.mpr ⟨_, hparts', rfl⟩⟩, hsame⟩
  | deviceResponse sessionTranscript deviceMacKey =>
    simp only [verifyDocument, bind_eq_ok, pure_eq_ok] at h
    obtain ⟨parts, hparts, u, hdevice, rfl⟩ := h
    obtain ⟨namespaces', hparts', hsame⟩ := verifyIssuerParts_permuted hp hparts hcons hwf
    obtain ⟨entries, issuerSigned, spaces, spaces', rfl, -, -, -, rfl⟩ := hp
    refine ⟨_, bind_eq_ok.mpr ⟨_, hparts', bind_eq_ok.mpr ⟨u, ?_, rfl⟩⟩, hsame⟩
    exact (verifyDeviceAuth_setField _ _).trans hdevice

/-- The returned map of an accepted document holds every item, in whatever order the items come,
exactly when no two items of a namespace disagree about an element. -/
theorem disclosure_lossless_iff (hv : Verification E call verify) (hwf : WF document)
    (h : verify document = .ok out) :
    (Appears document out.namespaces ∧ OrderFree verify document out.namespaces) ↔
      Consistent document := by
  constructor
  · exact fun hp => consistent_of_appears hp.1
  · intro hcons
    obtain ⟨parts, hparts, hnamespaces⟩ := hv.parts h
    obtain ⟨disclosed⟩ := disclosed_of_verifyIssuerParts hparts
    rw [← hnamespaces] at disclosed
    exact ⟨appears_of_consistent disclosed hcons hwf, hv.orderFree h hcons hwf⟩

end Document

/-! ## Two items about one element -/

theorem wf_of_decode {data : Bytes} {v : Cbor} (h : decode data = .ok v) : WF v :=
  (decodeAt_spec (decode_eq_ok.mp h)).1.1

/-- A truth value. -/
def bool? : Cbor → Option Bool
  | .bool b => some b
  | _ => none

/-- What an item says about its element. -/
structure Said where
  name : Str
  value : Option Bool
  deriving DecidableEq

/-- What the item says, if it is readable. -/
def saidBy (item : Cbor) : Option Said := (elementOf item).map fun e => ⟨e.1, bool? e.2⟩

/-- What the items of the namespaces of a document say. -/
def said (document : Cbor) : List (Option Str × List (Option Said)) :=
  (spacesOf (issuerSignedOf document)).map fun p =>
    (spaceName p.1, (p.2.arr?.getD []).map saidBy)

theorem elementOf_of_saidBy {item : Cbor} {name : Str} {b : Bool}
    (h : saidBy item = some ⟨name, some b⟩) : elementOf item = some (name, .bool b) := by
  obtain ⟨⟨n, v⟩, he, heq⟩ := Option.map_eq_some_iff.mp h
  obtain ⟨rfl, hb⟩ := Said.mk.inj heq
  rw [he]
  cases v <;> cases hb
  rfl

/-- A document with one namespace has the items that are said. -/
theorem mem_spaces_of_said {document : Cbor} {space : Str} {l : List (Option Said)}
    (h : said document = [(some space, l)]) : ∃ items : List Cbor,
      (l ≠ [] → spacesOf (issuerSignedOf document) = [(.text space, .arr items)]) ∧
      items.map saidBy = l := by
  obtain ⟨⟨key, value⟩, hentries, hentry⟩ := List.map_eq_singleton_iff.mp h
  obtain ⟨hname, hitems⟩ := Prod.mk.inj hentry
  have hkey : key = .text space := spaceName_eq_some.mp hname
  refine ⟨value.arr?.getD [], fun hne => ?_, hitems⟩
  rw [hentries, hkey]
  cases hl : value.arr? with
  | none =>
    dsimp only at hitems
    rw [hl] at hitems
    exact absurd hitems.symm hne
  | some items => rw [arr?_eq_some.mp hl, Option.getD_some]

theorem not_consistent_of_said {document : Cbor} {space name : Str}
    (h : said document = [(some space, [some ⟨name, some true⟩, some ⟨name, some false⟩])]) :
    ¬ Consistent document := by
  intro hcons
  obtain ⟨items, hspaces, hitems⟩ := mem_spaces_of_said h
  obtain ⟨yes, rest, rfl, hyes, hrest⟩ := List.map_eq_cons_iff.mp hitems
  obtain ⟨no, rfl, hno⟩ := List.map_eq_singleton_iff.mp hrest
  have hmem : (CborKey.text space, Cbor.arr [yes, no]) ∈ spacesOf (issuerSignedOf document) := by
    rw [hspaces (by simp)]
    exact List.mem_singleton_self _
  have hsame := hcons space [yes, no] hmem yes (by simp) no (by simp) _ _ (elementOf_of_saidBy hyes)
    (elementOf_of_saidBy hno) rfl
  exact absurd hsame (by simp [Same])

/-- Items that name different elements do not disagree. -/
theorem consistent_of_said {document : Cbor} {space : Str} {l : List (Option Said)}
    (h : said document = [(some space, l)]) (hne : l ≠ [])
    (hnames : (l.map (Option.map Said.name)).Nodup) : Consistent document := by
  intro s items hmem item hitem item' hitem' x y hx hy hxy
  obtain ⟨items₁, hspaces, rfl⟩ := mem_spaces_of_said h
  rw [hspaces hne, List.mem_singleton] at hmem
  cases hmem
  have hname : ∀ {item : Cbor} {e : Str × Cbor}, elementOf item = some e →
      (saidBy item).map Said.name = some e.1 := by
    intro item e he
    rw [saidBy, he]
    rfl
  rw [List.map_map] at hnames
  have heq : item = item' := List.inj_on_of_nodup_map hnames hitem hitem'
    ((hname hx).trans (hxy ▸ (hname hy).symm))
  rw [heq, hy] at hx
  cases hx
  exact Same.refl _

/-- An issuer sealed two items about one element: the verifier accepts both, and returns what the last
one says. -/
theorem disclosure_last_item_wins : ∃ document out, decode documentBoth = .ok document ∧
    verifyIssuerSigned signerEnv signerCall document = .ok out ∧
    ¬ (Appears document out.namespaces ∧
      OrderFree (verifyIssuerSigned signerEnv signerCall) document out.namespaces) := by
  obtain ⟨document, hdocument, heq⟩ := exists_ok_of_map (x := decode documentBoth)
    (f := fun d => (said d, returned (verifyIssuerSigned signerEnv signerCall d)))
    (c := ([(some (lit "org.iso.18013.5.1"),
      [some ⟨lit "age_over_18", some true⟩, some ⟨lit "age_over_18", some false⟩])], true))
    (by decide +kernel)
  obtain ⟨hsaid, hreturned⟩ := Prod.mk.inj heq
  obtain ⟨out, hout⟩ := returned_iff.mp hreturned
  exact ⟨document, out, hdocument, hout,
    fun h => not_consistent_of_said hsaid (consistent_of_appears h.1)⟩

/-- The document whose two items are about different elements is returned whole. -/
theorem disclosure_lossless_two_items : ∃ document out, decode documentYoung = .ok document ∧
    verifyIssuerSigned signerEnv signerCall document = .ok out ∧
    Appears document out.namespaces ∧
    OrderFree (verifyIssuerSigned signerEnv signerCall) document out.namespaces := by
  obtain ⟨document, hdocument, heq⟩ := exists_ok_of_map (x := decode documentYoung)
    (f := fun d => (said d, returned (verifyIssuerSigned signerEnv signerCall d)))
    (c := ([(some (lit "org.iso.18013.5.1"),
      [some ⟨lit "age_over_18", some true⟩, some ⟨lit "age_over_21", some false⟩])], true))
    (by decide +kernel)
  obtain ⟨hsaid, hreturned⟩ := Prod.mk.inj heq
  obtain ⟨out, hout⟩ := returned_iff.mp hreturned
  exact ⟨document, out, hdocument, hout,
    (disclosure_lossless_iff .issuerSigned (wf_of_decode hdocument) hout).mpr
      (consistent_of_said hsaid (by simp) (by decide))⟩

end OpenVC.Mdoc
