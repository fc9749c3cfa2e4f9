import OpenVC.Proof.Proofs.StatusWalkProofs

/-!
# A status entry is described where it is read

RDF merges what every node object with one id says. In an expanded document that both walks accept,
what is said of a status entry anywhere is what the entries under the top-level `credentialStatus`
say of it.
-/

namespace OpenVC.ContextValidation

open Python JsonText JsonDumps

variable {what : Str} {v w x : Json} {m o node : Dict}

/-! ## What is said of a node -/

/-- The values of a member: the elements of an array. -/
def valuesOf : Json → List Json
  | .arr l => l
  | v => [v]

/-- The properties and values of some node objects, the values up to their canonical form. -/
def statements (S : Set Dict) : Set (Str × Option Str) :=
  {q | ∃ m ∈ S, ∃ v, (q.1, v) ∈ m ∧ isLeafKey q.1 = false ∧ ∃ x ∈ valuesOf v, canonical x = q.2}

/-- The types of some node objects. -/
def types (S : Set Dict) : Set Json :=
  {t | ∃ m ∈ S, ∃ v, (lit "@type", v) ∈ m ∧ t ∈ valuesOf v}

/-- The node objects anywhere in a document that have an id. -/
def nodesNamed (node : Dict) (nodeId : Str) : Set Dict :=
  {m | Within (.obj node) (.obj m) ∧ isLiteral m = false ∧ m.get "@id" = .str nodeId}

/-- The entries of the top-level `credentialStatus` that have an id. -/
def entriesNamed (node : Dict) (nodeId : Str) : Set Dict :=
  {m | EntryOf (node.get credentialStatus) m ∧ m.get "@id" = .str nodeId}

/-! ## Copies say the same -/

/-- A value that reads the same as an element and as a property value, and is no array. -/
structure Plain (x : Json) : Prop where
  normal : ∀ e, normalize e x = normalize true x
  not_arr : ∀ t, sorted (normalize true x) ≠ .arr t

theorem plain_str (s : Str) : Plain (.str s) := ⟨fun _ => rfl, nofun⟩

theorem plain_obj (hm : ∀ x, m ≠ [(lit "id", x)]) : Plain (.obj m) where
  normal e := by rw [normalize_obj e hm, normalize_obj true hm]
  not_arr t := by
    rw [normalize_obj true hm]
    nofun

/-- Arrays with one normal form have the same elements up to their own. -/
theorem exists_element {l l' : List Json} (hl : ∀ x ∈ l, Plain x) (hl' : ∀ x ∈ l', Plain x)
    (h : sorted (normalize false (.arr l)) = sorted (normalize false (.arr l'))) (hx : x ∈ l) :
    ∃ y ∈ l', sorted (normalize true x) = sorted (normalize true y) := by
  rcases normalize_arr false l with heq | ⟨-, z, rfl, -, heq⟩ <;>
    rcases normalize_arr false l' with heq' | ⟨-, z', rfl, -, heq'⟩ <;> rw [heq, heq'] at h
  · rw [sorted_arr, sorted_arr, List.map_map, List.map_map] at h
    have hmem : sorted (normalize true x) ∈ l'.map (sorted ∘ normalize true) :=
      Json.arr.inj h ▸ List.mem_map_of_mem hx
    obtain ⟨y, hy, hxy⟩ := List.mem_map.mp hmem
    exact ⟨y, hy, hxy.symm⟩
  · rw [sorted_arr] at h
    exact absurd h.symm ((hl' z' (List.mem_singleton_self _)).not_arr _)
  · rw [sorted_arr] at h
    exact absurd h ((hl z (List.mem_singleton_self _)).not_arr _)
  · obtain rfl := List.mem_singleton.mp hx
    exact ⟨z', List.mem_singleton_self _, h⟩

/-- Objects with one normal form have the same members up to theirs. -/
theorem exists_member {k : Str} (hm : ∀ x, m ≠ [(lit "id", x)]) (ho : ∀ x, o ≠ [(lit "id", x)])
    (h : sorted (normalize false (.obj m)) = sorted (normalize false (.obj o))) (hv : (k, v) ∈ m) :
    ∃ w, (k, w) ∈ o ∧ sorted (normalize false v) = sorted (normalize false w) := by
  rw [normalize_obj false hm, normalize_obj false ho, sorted, sorted] at h
  have hperm : (sortedMembers (normalizeMembers m)).Perm (sortedMembers (normalizeMembers o)) :=
    (List.perm_insertionSort keyLe _).symm.trans
      (Json.obj.inj h ▸ List.perm_insertionSort keyLe _)
  simp only [sortedMembers_eq_map, normalizeMembers_eq_map, List.map_map] at hperm
  have hmem := hperm.mem_iff.mp (List.mem_map_of_mem hv)
  obtain ⟨⟨k', w⟩, hw, heq⟩ := List.mem_map.mp hmem
  obtain ⟨rfl, heq⟩ := Prod.mk.inj heq
  exact ⟨w, hw, heq.symm⟩

theorem not_reference (hc : Checked m) (x : Json) : m ≠ [(lit "id", x)] := by
  rintro rfl
  have hid : ¬ (Str.startsWith (lit "id") "@" = true ∨ isPredicate (lit "id") = true) := by decide
  exact hid (hc.keys (lit "id") List.mem_cons_self)

theorem not_reference_of_literal (hm : isLiteral m = true) (x : Json) : m ≠ [(lit "id", x)] := by
  rintro rfl
  have hid : isLiteral [(lit "id", x)] = false := rfl
  rw [hid] at hm
  cases hm

theorem exists_plain (hs : Sound (.obj m)) (hm : isLiteral m = false) {k : Str} (hv : (k, v) ∈ m)
    (hk : k ≠ "@id") : ∃ l, v = .arr l ∧ ∀ x ∈ l, Plain x := by
  obtain ⟨hexp, hc, -⟩ := hs m (.refl _) hm
  by_cases hleaf : isLeafKey k = true
  · rw [isLeafKey, Bool.or_eq_true, beq_iff_eq, beq_iff_eq] at hleaf
    obtain rfl := hleaf.resolve_left hk
    obtain ⟨t, rfl⟩ := hexp.types _ hv
    refine ⟨_, rfl, fun x hx => ?_⟩
    obtain ⟨s, -, rfl⟩ := List.mem_map.mp hx
    exact plain_str s
  · have hrefused : k ∉ refusedKeywords := by
      intro hk
      have hno := hc.keywords k hk
      rw [Dict.has_iff.mpr (List.mem_map_of_mem hv)] at hno
      cases hno
    obtain ⟨t, rfl⟩ := hexp.values k _ hv (Bool.eq_false_of_not_eq_true hleaf) hrefused
    refine ⟨_, rfl, fun x hx => ?_⟩
    obtain ⟨o, -, rfl⟩ := List.mem_map.mp hx
    by_cases ho : isLiteral o = true
    · exact plain_obj (not_reference_of_literal ho)
    · rw [Bool.not_eq_true] at ho
      exact plain_obj (not_reference (hs o (.member hm hv (.item hx (.refl _))) ho).2.1)

/-- An accepted node object of a document. -/
structure Accepted (m : Dict) : Prop where
  sound : Sound (.obj m)
  literal : isLiteral m = false
  valid : Valid (.obj m)

/-- What one of two objects with one canonical text says, the other says. -/
theorem exists_said {text : Str} (hm : Accepted m) (ho : Accepted o)
    (htm : canonical (.obj m) = some text) (hto : canonical (.obj o) = some text) {k : Str}
    (hv : (k, v) ∈ m) (hk : k ≠ "@id") (hx : x ∈ valuesOf v) :
    ∃ w, (k, w) ∈ o ∧ ∃ y ∈ valuesOf w, Plain x ∧ Plain y ∧
      sorted (normalize true x) = sorted (normalize true y) := by
  have hsorted := sorted_normalize_of_canonicalAt hm.valid ho.valid htm hto
  have href := not_reference (hm.sound m (.refl _) hm.literal).2.1
  have href' := not_reference (ho.sound o (.refl _) ho.literal).2.1
  obtain ⟨w, hw, hvw⟩ := exists_member href href' hsorted hv
  obtain ⟨l, rfl, hl⟩ := exists_plain hm.sound hm.literal hv hk
  obtain ⟨l', rfl, hl'⟩ := exists_plain ho.sound ho.literal hw hk
  obtain ⟨y, hy, hxy⟩ := exists_element hl hl' hvw hx
  exact ⟨_, hw, y, hy, hl x hx, hl' y hy, hxy⟩

theorem Plain.canonical_eq (hx : Plain x) : canonical x = text (sorted (normalize true x)) := by
  rw [canonical, canonicalAt, sortedText, hx.normal]

/-! ## What has a canonical form has one in its parts -/

/-- The values of an object with a canonical form have one. -/
theorem exists_canonical {s : Str} {k : Str} {l : List Json} (hm : ∀ x, m ≠ [(lit "id", x)])
    (h : canonical (.obj m) = some s) (hl : (k, .arr l) ∈ m) (hx : x ∈ l) (hp : Plain x) :
    ∃ t, canonical x = some t := by
  rw [canonical, canonicalAt, sortedText, normalize_obj false hm, sorted] at h
  have hmem : (k, sorted (normalize false (.arr l))) ∈
      (sortedMembers (normalizeMembers m)).insertionSort keyLe := by
    rw [(List.perm_insertionSort keyLe _).mem_iff, sortedMembers_eq_map, normalizeMembers_eq_map,
      List.map_map]
    exact List.mem_map_of_mem hl
  have ht := isSome_text_obj.mp (Option.isSome_of_eq_some h) _ hmem
  rw [hp.canonical_eq, ← Option.isSome_iff_exists]
  rcases normalize_arr false l with heq | ⟨-, z, rfl, -, heq⟩
  · rw [heq, sorted_arr, List.map_map] at ht
    exact isSome_text_arr.mp ht _ (List.mem_map_of_mem hx)
  · obtain rfl := List.mem_singleton.mp hx
    rwa [heq] at ht

theorem exists_str_of_type (hm : Accepted m) (hv : (lit "@type", v) ∈ m) (hx : x ∈ valuesOf v) :
    ∃ s, x = .str s := by
  obtain ⟨l, rfl⟩ := (hm.sound m (.refl _) hm.literal).1.types v hv
  obtain ⟨s, -, rfl⟩ := List.mem_map.mp hx
  exact ⟨s, rfl⟩

/-! ## A status entry in place -/

theorem valid_of_within (hw : Within v w) : Valid v → Valid w := by
  induction hw with
  | refl v => exact id
  | item hx _ ih => exact fun h => ih (valid_arr.mp h _ hx)
  | member _ hx _ ih => exact fun h => ih ((valid_obj.mp h).2 _ hx).2

theorem Within.trans (h : Within v w) : Within w x → Within v x := by
  induction h with
  | refl v => exact id
  | item hx _ ih => exact fun h => .item hx (ih h)
  | member hm hx _ ih => exact fun h => .member hm hx (ih h)

theorem within_of_entryOf (h : EntryOf v m) : Within v (.obj m) ∧ isLiteral m = false := by
  induction h with
  | node hm hl => exact ⟨.refl _, hm⟩
  | item hx _ ih => exact ⟨.item hx ih.1, ih.2⟩
  | listed ho hx _ ih => exact ⟨.member ho (Dict.mem_of_get?_eq_some hx) ih.1, ih.2⟩

theorem entriesNamed_subset (hnode : isLiteral node = false) (nodeId : Str) :
    entriesNamed node nodeId ⊆ nodesNamed node nodeId := by
  rintro m ⟨hm, hid⟩
  obtain ⟨hw, hlit⟩ := within_of_entryOf hm
  refine ⟨?_, hlit, hid⟩
  cases hget : node.get? credentialStatus with
  | none =>
    rw [Dict.get, hget] at hm
    cases hm
  | some v =>
    rw [Dict.get, hget] at hw
    exact .member hnode (Dict.mem_of_get?_eq_some hget) hw

/-- A node that has the id of an entry says nothing, or what one of the entries says. -/
theorem exists_entry_of_named (hsound : Sound (.obj node))
    (hstatus : checkStatusInPlace what node = .ok ()) {nodeId : Str}
    (hne : (entriesNamed node nodeId).Nonempty) (hm : m ∈ nodesNamed node nodeId) :
    describes m = false ∨ ∃ e ∈ entriesNamed node nodeId, ∃ text,
      canonical (.obj m) = some text ∧ canonical (.obj e) = some text := by
  simp only [checkStatusInPlace, bind_eq_ok] at hstatus
  obtain ⟨entries, hentries, hrest⟩ := hstatus
  have hcollects := collects_collectStatusEntries _ _ _ hentries
  obtain ⟨e, he, hid⟩ := hne
  obtain ⟨t, ht⟩ := hcollects.canonical e nodeId he hid
  have hmem : (nodeId, t) ∈ entries := (hcollects.mem_iff _).mpr (.inr ⟨e, he, hid, ht⟩)
  have hnotEmpty : ¬ entries.isEmpty = true := by
    rw [List.isEmpty_iff]
    rintro rfl
    cases hmem
  rw [if_neg hnotEmpty] at hrest
  simp only [checkNotMoved, bind_eq_ok, raiseIf_eq_ok, Bool.not_eq_false', List.isEmpty_iff] at hrest
  obtain ⟨moved, hwalk, rfl⟩ := hrest
  obtain ⟨hw, hlit, hmid⟩ := hm
  rcases accounted_of_within hw hsound hwalk m rfl hlit with hs | ⟨hin, -⟩ | ⟨-, o, ho, hentry⟩
  · by_cases hd : describes m = true
    · obtain ⟨text, htext, htmem⟩ := hs nodeId hmid (List.mem_map_of_mem hmem) hd
      rcases (hcollects.mem_iff _).mp htmem with hnil | ⟨e', he', hid', ht'⟩
      · cases hnil
      · exact .inr ⟨e', ⟨he', hid'⟩, text, htext, ht'⟩
    · exact .inl (Bool.eq_false_of_not_eq_true hd)
  · cases hin
  · cases ho
    obtain ⟨text, htext⟩ := hcollects.canonical m nodeId hentry hmid
    exact .inr ⟨m, ⟨hentry, hmid⟩, text, htext, htext⟩

/-- In an expanded document that both walks accept, the properties, values and types that RDF merges
for the id of an entry are those of the entries directly under the top-level `credentialStatus`. -/
theorem checkStatusInPlace_merged (what : Str) (node : Dict) (hvalid : Valid (.obj node))
    (hdoc : ExpandedDocument node)
    (hexp : checkExpanded what (node.get "@id") true (.obj node) = .ok ())
    (hstatus : checkStatusInPlace what node = .ok ()) (nodeId : Str)
    (hne : (entriesNamed node nodeId).Nonempty) :
    statements (nodesNamed node nodeId) = statements (entriesNamed node nodeId) ∧
      types (nodesNamed node nodeId) = types (entriesNamed node nodeId) ∧
      ∀ q ∈ statements (nodesNamed node nodeId), q.2 ≠ none := by
  have hsound : Sound (.obj node) := by
    intro m hw hm
    refine ⟨hdoc.expanded m hw hm, checked_of_within hw hvalid hdoc.expanded hexp m rfl hm, ?_⟩
    exact (valid_obj.mp (valid_of_within hw hvalid)).1
  have haccepted : ∀ m ∈ nodesNamed node nodeId, Accepted m := by
    rintro m ⟨hw, hm, -⟩
    exact ⟨fun o ho => hsound o (hw.trans ho), hm, valid_of_within hw hvalid⟩
  have hsub := entriesNamed_subset hdoc.literal nodeId
  have hsaid : ∀ m ∈ nodesNamed node nodeId, ∀ k v x, (k, v) ∈ m → k ≠ "@id" → x ∈ valuesOf v →
      (∃ t, canonical x = some t) ∧ ∃ e ∈ entriesNamed node nodeId, ∃ w, (k, w) ∈ e ∧
        ∃ y ∈ valuesOf w, Plain x ∧ Plain y ∧
          sorted (normalize true x) = sorted (normalize true y) := by
    intro m hm k v x hv hk hx
    have hacc := haccepted m hm
    rcases exists_entry_of_named hsound hstatus hne hm with hd | ⟨e, he, text, htm, hte⟩
    · have hall : describes m = true := List.any_eq_true.mpr ⟨_, hv, by simpa using hk⟩
      rw [hall] at hd
      cases hd
    · refine ⟨?_, e, he, exists_said hacc (haccepted e (hsub he)) htm hte hv hk hx⟩
      obtain ⟨l, rfl, hplain⟩ := exists_plain hacc.sound hacc.literal hv hk
      exact exists_canonical (not_reference (hacc.sound m (.refl _) hacc.literal).2.1) htm hv hx
        (hplain x hx)
  have hkey : ∀ {k : Str}, isLeafKey k = false → k ≠ "@id" := by
    rintro k hleaf rfl
    cases hleaf
  refine ⟨?_, ?_, ?_⟩
  · apply Set.Subset.antisymm
    · rintro ⟨k, c⟩ ⟨m, hm, v, hv, hleaf, x, hx, rfl⟩
      obtain ⟨-, e, he, w, hw, y, hy, hpx, hpy, hxy⟩ := hsaid m hm k v x hv (hkey hleaf) hx
      refine ⟨e, he, w, hw, hleaf, y, hy, ?_⟩
      rw [hpx.canonical_eq, hpy.canonical_eq, hxy]
    · rintro q ⟨m, hm, hq⟩
      exact ⟨m, hsub hm, hq⟩
  · apply Set.Subset.antisymm
    · rintro t ⟨m, hm, v, hv, ht⟩
      obtain ⟨s, rfl⟩ := exists_str_of_type (haccepted m hm) hv ht
      have hk : lit "@type" ≠ lit "@id" := by decide
      obtain ⟨-, e, he, w, hw, y, hy, -, -, hxy⟩ := hsaid m hm _ v _ hv hk ht
      obtain ⟨s', rfl⟩ := exists_str_of_type (haccepted e (hsub he)) hw hy
      have hss : s = s' := Json.str.inj hxy
      rw [hss]
      exact ⟨e, he, w, hw, hy⟩
    · rintro t ⟨m, hm, ht⟩
      exact ⟨m, hsub hm, ht⟩
  · rintro ⟨k, c⟩ ⟨m, hm, v, hv, hleaf, x, hx, rfl⟩
    obtain ⟨⟨t, ht⟩, -⟩ := hsaid m hm k v x hv (hkey hleaf) hx
    rw [ht]
    nofun

/-! ## A copy under another property -/

theorem expanded_str (s : Str) : Expanded (.str s) := nofun

theorem expanded_arr {l : List Json} (h : ∀ x ∈ l, Expanded x) : Expanded (.arr l) := by
  rintro m hm
  cases hm with
  | item hx hm => exact h _ hx m hm

theorem expanded_obj (hm : ExpandedObject m) (h : ∀ p ∈ m, Expanded p.2) : Expanded (.obj m) := by
  rintro o ho
  cases ho with
  | refl => exact fun _ => hm
  | member _ hx ho => exact h _ hx o ho

/-- A status entry: its id and its type. -/
def statusEntry : Dict := [("@id", .str "urn:s"), ("@type", .arr [.str "urn:t"])]

/-- A document that has the entry under `credentialStatus` and under another property. -/
def copiedStatus : Dict :=
  [(credentialStatus, .arr [.obj statusEntry]), ("urn:p", .arr [.obj statusEntry])]

theorem valid_copiedStatus : Valid (.obj copiedStatus) := by
  have hkey : ∀ s : Str, (∀ c ∈ s, c < 0x110000) → IsStr s := fun s hs => hs
  have hstr : ∀ s : Str, (∀ c ∈ s, c < 0x110000) → Valid (.str s) := fun s hs => ⟨hs, trivial⟩
  have hentry : Valid (.obj statusEntry) := by
    refine valid_obj.mpr ⟨by decide, List.forall_mem_cons.mpr ⟨⟨hkey _ (by decide), ?_⟩,
      List.forall_mem_singleton.mpr ⟨hkey _ (by decide), valid_arr.mpr ?_⟩⟩⟩
    · exact hstr _ (by decide)
    · exact List.forall_mem_singleton.mpr (hstr _ (by decide))
  have hlist : Valid (.arr [.obj statusEntry]) := valid_arr.mpr (List.forall_mem_singleton.mpr hentry)
  exact valid_obj.mpr ⟨by decide, List.forall_mem_cons.mpr ⟨⟨hkey _ (by decide), hlist⟩,
    List.forall_mem_singleton.mpr ⟨hkey _ (by decide), hlist⟩⟩⟩

theorem expanded_statusEntry : Expanded (.obj statusEntry) := by
  refine expanded_obj ⟨nofun, fun v hv => ?_, fun k v hv hleaf _ => ?_⟩ fun p hp => ?_
  · simp only [statusEntry, List.mem_cons, Prod.mk.injEq, List.not_mem_nil, or_false] at hv
    rcases hv with ⟨hk, -⟩ | ⟨-, rfl⟩
    · have hne : lit "@type" ≠ lit "@id" := by decide
      exact absurd hk hne
    · exact ⟨["urn:t"], rfl⟩
  · simp only [statusEntry, List.mem_cons, Prod.mk.injEq, List.not_mem_nil, or_false] at hv
    rcases hv with ⟨rfl, -⟩ | ⟨rfl, -⟩ <;> cases hleaf
  · simp only [statusEntry, List.mem_cons, List.not_mem_nil, or_false] at hp
    rcases hp with rfl | rfl
    · exact expanded_str _
    · exact expanded_arr (List.forall_mem_singleton.mpr (expanded_str _))

theorem expandedDocument_copiedStatus : ExpandedDocument copiedStatus := by
  have hlist : Expanded (.arr [.obj statusEntry]) :=
    expanded_arr (List.forall_mem_singleton.mpr expanded_statusEntry)
  have hmem : ∀ k v, (k, v) ∈ copiedStatus →
      (k = credentialStatus ∨ k = "urn:p") ∧ v = .arr [.obj statusEntry] := by
    intro k v hv
    simp only [copiedStatus, List.mem_cons, Prod.mk.injEq, List.not_mem_nil, or_false] at hv
    rcases hv with ⟨rfl, rfl⟩ | ⟨rfl, rfl⟩
    · exact ⟨.inl rfl, rfl⟩
    · exact ⟨.inr rfl, rfl⟩
  refine ⟨by decide, expanded_obj ⟨by rintro ⟨⟩, fun v hv => ?_, fun k v hv _ _ => ?_⟩ fun p hp => ?_⟩
  · have hne : lit "@type" ≠ credentialStatus ∧ lit "@type" ≠ lit "urn:p" := by decide
    exact ((hmem _ v hv).1.elim hne.1 hne.2).elim
  · exact ⟨[statusEntry], (hmem k v hv).2⟩
  · rw [(hmem p.1 p.2 hp).2]
    exact hlist

theorem checkStatusInPlace_merged_copied :
    statements (nodesNamed copiedStatus "urn:s") = statements (entriesNamed copiedStatus "urn:s") ∧
      types (nodesNamed copiedStatus "urn:s") = types (entriesNamed copiedStatus "urn:s") ∧
      ∀ q ∈ statements (nodesNamed copiedStatus "urn:s"), q.2 ≠ none := by
  refine checkStatusInPlace_merged "document" copiedStatus valid_copiedStatus
    expandedDocument_copiedStatus (eq_ok_of_toOption (by decide +kernel))
    (eq_ok_of_toOption (by decide +kernel)) "urn:s" ⟨statusEntry, ?_, rfl⟩
  exact .item List.mem_cons_self (.node rfl rfl)

end OpenVC.ContextValidation
