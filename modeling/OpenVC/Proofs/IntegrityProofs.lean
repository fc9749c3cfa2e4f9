import OpenVC.Proofs.TypeMetadataProofs

/-!
# Integrity metadata

What `_verify_sri` accepts, said of the options of the string, and where the two lanes that declare
integrity metadata enforce it: a `credentialSchema` reference and the references of a type.
-/

namespace OpenVC

open Python

namespace Schema

/-! ## The options of an integrity string -/

/-- The decodable options of an integrity string. -/
def sriOptions (integrity : Str) : List (SriAlg × Bytes) := (words integrity).filterMap sriOption

/-- Some option of the strongest algorithm among the decodable ones is the digest of the bytes. -/
def MatchesSri (C : Crypto) (data : Bytes) (integrity : Str) : Prop :=
  ∃ alg, (alg, alg.digest C data) ∈ sriOptions integrity ∧
    ∀ o ∈ sriOptions integrity, o.1.rank ≤ alg.rank

theorem SriAlg.rank_injective : Function.Injective SriAlg.rank := by
  intro a b h
  cases a <;> cases b <;> first | rfl | cases h

theorem foldl_strongest (options : List (SriAlg × Bytes)) (a : SriAlg) :
    let s := options.foldl (fun alg o => if alg.rank < o.1.rank then o.1 else alg) a
    a.rank ≤ s.rank ∧ (∀ o ∈ options, o.1.rank ≤ s.rank) ∧
      (s = a ∨ ∃ o ∈ options, o.1 = s) := by
  induction options generalizing a with
  | nil => exact ⟨Nat.le_refl _, fun o ho => absurd ho List.not_mem_nil, .inl rfl⟩
  | cons o options ih =>
    have hstep : a.rank ≤ (if a.rank < o.1.rank then o.1 else a).rank ∧
        o.1.rank ≤ (if a.rank < o.1.rank then o.1 else a).rank ∧
        ((if a.rank < o.1.rank then o.1 else a) = a ∨
          o.1 = if a.rank < o.1.rank then o.1 else a) := by
      by_cases hlt : a.rank < o.1.rank
      · simp only [if_pos hlt]
        exact ⟨Nat.le_of_lt hlt, Nat.le_refl _, .inr trivial⟩
      · simp only [if_neg hlt]
        exact ⟨Nat.le_refl _, Nat.le_of_not_lt hlt, .inl trivial⟩
    rw [List.foldl_cons]
    generalize (if a.rank < o.1.rank then o.1 else a) = b at hstep
    obtain ⟨hle, hall, hmem⟩ := ih b
    refine ⟨hstep.1.trans hle, fun o' ho' => ?_, ?_⟩
    · rcases List.mem_cons.mp ho' with rfl | ho'
      · exact hstep.2.1.trans hle
      · exact hall o' ho'
    · rcases hmem with hmem | ⟨o', ho', heq⟩
      · rw [hmem]
        exact hstep.2.2.imp_right fun h => ⟨o, List.mem_cons_self, h⟩
      · exact .inr ⟨o', List.mem_cons_of_mem _ ho', heq⟩

theorem rank_le_strongest {options : List (SriAlg × Bytes)} {o : SriAlg × Bytes}
    (ho : o ∈ options) : o.1.rank ≤ (strongest options).rank :=
  (foldl_strongest options .sha256).2.1 o ho

theorem exists_strongest {options : List (SriAlg × Bytes)} (h : options ≠ []) :
    ∃ o ∈ options, o.1 = strongest options := by
  rcases (foldl_strongest options .sha256).2.2 with hs | hs
  · obtain ⟨o, ho⟩ := List.exists_mem_of_ne_nil _ h
    have hle := rank_le_strongest ho
    refine ⟨o, ho, SriAlg.rank_injective ?_⟩
    have hzero : (strongest options).rank = 0 := congrArg SriAlg.rank hs
    omega
  · exact hs

theorem verifySri_eq_ok {C : Crypto} {data : Bytes} {integrity url : Str} {u : Unit} :
    verifySri C data integrity url = .ok u ↔ MatchesSri C data integrity := by
  simp only [verifySri, bind_eq_ok, raiseIf_eq_ok, Bool.not_eq_false', List.any_eq_true,
    Bool.and_eq_true, beq_iff_eq]
  constructor
  · rintro ⟨-, hne, ⟨alg, digest⟩, ho, halg, hdigest⟩
    change alg = strongest _ at halg
    change alg.digest C data = digest at hdigest
    rw [← hdigest] at ho
    refine ⟨alg, ho, fun o ho => ?_⟩
    rw [halg]
    exact rank_le_strongest ho
  · rintro ⟨alg, ho, hmax⟩
    have hne : sriOptions integrity ≠ [] := List.ne_nil_of_mem ho
    obtain ⟨o, hmem, heq⟩ := exists_strongest hne
    refine ⟨(), List.isEmpty_eq_false_iff.mpr hne, _, ho, SriAlg.rank_injective ?_, rfl⟩
    have hle := hmax o hmem
    have hge := rank_le_strongest ho
    rw [heq] at hle
    exact Nat.le_antisymm hge hle

theorem not_matchesSri_of_nil {C : Crypto} {data : Bytes} {integrity : Str}
    (h : sriOptions integrity = []) : ¬ MatchesSri C data integrity := by
  rintro ⟨alg, ho, -⟩
  rw [h] at ho
  cases ho

/-! ## The schema lane -/

theorem prepareSchemaBytes_eq_ok {C : Crypto} {ref : SchemaRef} {raw : Fetched} {data : Bytes} :
    prepareSchemaBytes C ref raw = .ok data ↔ raw = .bytes data ∧
      ∀ sri, ref.digestSri = some sri → sri ≠ [] → MatchesSri C data sri := by
  simp only [prepareSchemaBytes, bind_eq_ok, pure_eq_ok]
  have hcheck : ∀ d, checkDigestSri C ref d = .ok () ↔
      ∀ sri, ref.digestSri = some sri → sri ≠ [] → MatchesSri C d sri := by
    intro d
    unfold checkDigestSri
    cases ref.digestSri with
    | none => simp
    | some sri =>
      by_cases hsri : sri = []
      · simp [hsri]
      · have hne : sri.isEmpty = false := List.isEmpty_eq_false_iff.mpr hsri
        simp only [hne, Bool.false_eq_true, if_false, verifySri_eq_ok, Option.some.injEq]
        exact ⟨fun h sri' he _ => he ▸ h, fun h => h sri rfl hsri⟩
  constructor
  · rintro ⟨d, hd, ⟨⟩, hsri, rfl⟩
    cases raw with
    | bytes d' =>
      cases hd
      exact ⟨rfl, (hcheck _).mp hsri⟩
    | other t => cases hd
  · rintro ⟨rfl, hsri⟩
    exact ⟨data, rfl, (), (hcheck data).mpr hsri, rfl⟩

theorem parseEntry_eq_ok {raw : Dict} {ref : SchemaRef} (h : parseEntry raw = .ok ref) :
    raw.get "id" = .str ref.id ∧
      (raw.get "digestSRI" ≠ .null → ∃ sri, raw.get "digestSRI" = .str sri ∧
        ref.digestSri = some sri) := by
  simp only [parseEntry, bind_eq_ok, orRaise_eq_ok, raiseIf_eq_ok, pure_eq_ok,
    Option.filter_eq_some_iff] at h
  obtain ⟨sid, ⟨hid, -⟩, types, -, ⟨⟩, -, ⟨⟩, hsri, rfl⟩ := h
  refine ⟨?_, fun hnull => ?_⟩
  · cases hv : raw.get "id" <;> simp_all [Json.str?]
  · cases hv : raw.get "digestSRI" <;> simp_all [Json.str?, Json.isNull]

/-- A declared integrity hash holds of the bytes. -/
def Enforced (C : Crypto) (data : Bytes) (integrity : Json) : Prop :=
  integrity ≠ .null → ∃ sri, integrity = .str sri ∧ MatchesSri C data sri

/-- The bytes of every reference of a validated credential were fetched, and held to its integrity
hash unless that is empty. -/
theorem validateCredentialSchema_refs {C : Crypto} {P : Processor} {credential : Dict}
    {resolve : SchemaResolver} {verifyInner : Option VerifyInner} {result : ValidationResult}
    (h : validateCredentialSchema C P credential resolve verifyInner = .ok result) :
    ∃ refs, parseCredentialSchemas credential = .ok refs ∧
      ∀ pre ref suf, refs = pre ++ ref :: suf →
        ∃ data, resolve pre.length ref.id = .ok (.bytes data) ∧
          ∀ sri, ref.digestSri = some sri → sri ≠ [] → MatchesSri C data sri := by
  simp only [validateCredentialSchema, bind_eq_ok] at h
  obtain ⟨refs, hrefs, applied, hloop, -⟩ := h
  refine ⟨refs, hrefs, ?_⟩
  have hstep : ∀ (done : List SchemaRef) applied ref applied',
      (fun _ _ => True : List SchemaRef → List Str → Prop) done applied →
      applySchema C P credential resolve verifyInner applied done.length ref = .ok applied' →
      True ∧ ∃ data, resolve done.length ref.id = .ok (.bytes data) ∧
        ∀ sri, ref.digestSri = some sri → sri ≠ [] → MatchesSri C data sri := by
    intro done applied ref applied' _ happly
    simp only [applySchema, resolveSchema, bind_eq_ok, reraise_eq_ok] at happly
    obtain ⟨-, ⟨-, -, raw, hraw, data, hdata, -⟩, -⟩ := happly
    obtain ⟨rfl, hsri⟩ := prepareSchemaBytes_eq_ok.mp hdata
    exact ⟨trivial, data, hraw, hsri⟩
  have hloop : enumerateLoop (applySchema C P credential resolve verifyInner) []
      ([] : List SchemaRef).length refs = .ok applied := hloop
  exact (enumerateLoop_invariant hstep trivial hloop).2

end Schema

namespace TypeMetadata

open Schema

/-! ## The type metadata lane -/

theorem checkIntegrity_eq_ok {C : Crypto} {vct : Str} {raw : Bytes} {integrity : Json} {u : Unit} :
    checkIntegrity C vct raw integrity = .ok u ↔ Enforced C raw integrity := by
  cases integrity with
  | null => exact iff_of_true rfl fun h => absurd rfl h
  | str sri =>
    rw [checkIntegrity, reraise_eq_ok, verifySri_eq_ok]
    constructor
    · exact fun h _ => ⟨sri, rfl, h⟩
    · intro h
      obtain ⟨sri', heq, hm⟩ := h Json.noConfusion
      cases heq
      exact hm
  | _ =>
    refine iff_of_false (fun h => nomatch h) fun h => ?_
    obtain ⟨sri, heq, -⟩ := h Json.noConfusion
    cases heq

theorem fetchDocument_enforced {C : Crypto} {resolve : ResolveTypeMetadata} {vct : Str}
    {integrity : Json} {document : Dict}
    (h : fetchDocument C resolve vct integrity = .ok document) :
    ∃ data, resolve vct = .ok (.bytes data) ∧ Enforced C data integrity := by
  simp only [fetchDocument, bind_eq_ok, reraise_eq_ok] at h
  obtain ⟨fetched, hfetched, raw, hraw, ⟨⟩, hcheck, -⟩ := h
  cases fetched with
  | bytes data =>
    cases hraw
    exact ⟨_, hfetched, checkIntegrity_eq_ok.mp hcheck⟩
  | other t => cases hraw

/-- The bytes of the first document of a chain are held to the hash of the credential, those of each
other one to the hash of the document that extends it. -/
theorem Chain.enforced {C : Crypto} {resolve : ResolveTypeMetadata} {vct : Str} {integrity : Json}
    {ls : List Level} (h : Chain C resolve vct integrity ls) :
    (∃ data, resolve vct = .ok (.bytes data) ∧ Enforced C data integrity) ∧
      ∀ pre d d' suf, ls.map Level.document = pre ++ d :: d' :: suf →
        ∃ super data, d.get "extends" = .str super ∧ resolve super = .ok (.bytes data) ∧
          Enforced C data (d.get "extends#integrity") := by
  induction h with
  | @root l integrity hserved hroot =>
    refine ⟨fetchDocument_enforced hserved.document_eq, fun pre d d' suf heq => ?_⟩
    have hlen := congrArg List.length heq
    simp only [List.length_map, List.length_cons, List.length_nil, List.length_append] at hlen
    omega
  | @extend l integrity super ls hserved hext hs ih =>
    refine ⟨fetchDocument_enforced hserved.document_eq, fun pre d d' suf heq => ?_⟩
    cases pre with
    | nil =>
      obtain ⟨rfl, -⟩ := List.cons.inj heq
      obtain ⟨data, hdata, henf⟩ := ih.1
      exact ⟨super, data, hext, hdata, henf⟩
    | cons c pre => exact ih.2 pre d d' suf (List.cons.inj heq).2

end TypeMetadata

open Schema TypeMetadata

/-! ## The two lanes -/

/-- A `credentialSchema` reference is held to its integrity hash, as a reference of a type is, iff
the hash is not the empty string. In a run, what a reference names was fetched and matches. -/
theorem integrity_enforced (C : Crypto) :
    (∀ (ref : SchemaRef) (sri : Str) (data : Bytes) (vct : Str), ref.digestSri = some sri →
      (((prepareSchemaBytes C ref (.bytes data) = .ok data → MatchesSri C data sri) ∧
          returned (prepareSchemaBytes C ref (.bytes data)) =
            returned (checkIntegrity C vct data (.str sri))) ↔ sri ≠ [])) ∧
    (∀ (P : Processor) (credential : Dict) (resolve : SchemaResolver)
        (verifyInner : Option VerifyInner) (result : ValidationResult),
      validateCredentialSchema C P credential resolve verifyInner = .ok result →
      ∃ raws, asEntryList (credential.get "credentialSchema") = .ok raws ∧
        ∀ pre raw suf, raws = pre ++ raw :: suf → raw.get "digestSRI" ≠ .str [] →
          ∃ id data, raw.get "id" = .str id ∧ resolve pre.length id = .ok (.bytes data) ∧
            Enforced C data (raw.get "digestSRI")) ∧
    (∀ (payload : Dict) (vct : Str) (vctIntegrity : Json) (resolve : ResolveTypeMetadata)
        (depth : Nat) (r : TypeMetadataResult),
      validateTypeMetadata C payload vct vctIntegrity resolve depth = .ok r →
      (∃ data, resolve vct = .ok (.bytes data) ∧ Enforced C data vctIntegrity) ∧
        ∀ pre d d' suf, r.documents = pre ++ d :: d' :: suf →
          ∃ super data, d.get "extends" = .str super ∧ resolve super = .ok (.bytes data) ∧
            Enforced C data (d.get "extends#integrity")) := by
  refine ⟨fun ref sri data vct hsri => ?_, fun P credential resolve verifyInner result h => ?_,
    fun payload vct vctIntegrity resolve depth r h => ?_⟩
  · have hlane : prepareSchemaBytes C ref (.bytes data) = .ok data ↔
        (sri ≠ [] → MatchesSri C data sri) := by
      rw [prepareSchemaBytes_eq_ok]
      constructor
      · exact fun h => h.2 sri hsri
      · refine fun h => ⟨rfl, fun sri' heq => ?_⟩
        rw [hsri] at heq
        cases heq
        exact h
    have hreturned : returned (prepareSchemaBytes C ref (.bytes data)) = true ↔
        (sri ≠ [] → MatchesSri C data sri) := by
      rw [← hlane, returned_iff]
      constructor
      · rintro ⟨d, hd⟩
        obtain ⟨heq, -⟩ := prepareSchemaBytes_eq_ok.mp hd
        cases heq
        exact hd
      · exact fun hd => ⟨data, hd⟩
    have hother : returned (checkIntegrity C vct data (.str sri)) = true ↔
        MatchesSri C data sri := by
      rw [returned_iff]
      constructor
      · rintro ⟨u, hu⟩
        obtain ⟨sri', heq, hm⟩ := checkIntegrity_eq_ok.mp hu Json.noConfusion
        cases heq
        exact hm
      · exact fun hm => ⟨(), checkIntegrity_eq_ok.mpr fun _ => ⟨sri, rfl, hm⟩⟩
    rw [Bool.eq_iff_iff, hlane, hreturned, hother]
    constructor
    · rintro ⟨henf, -⟩ rfl
      exact not_matchesSri_of_nil rfl (henf fun hne => absurd rfl hne)
    · intro hne
      exact ⟨fun h => h hne, fun h => h hne, fun h _ => h⟩
  · obtain ⟨refs, hrefs, hrun⟩ := validateCredentialSchema_refs h
    simp only [parseCredentialSchemas, bind_eq_ok, collect_eq_ok] at hrefs
    obtain ⟨raws, hraws, hall⟩ := hrefs
    refine ⟨raws, hraws, ?_⟩
    rintro pre raw suf rfl hne
    have hpre := List.forall₂_take_append _ _ _ hall.flip
    have hrest := List.forall₂_drop_append _ _ _ hall.flip
    obtain ⟨ref, suf', href, -, hdrop⟩ := List.forall₂_cons_right_iff.mp hrest
    have hsplit : refs = refs.take pre.length ++ ref :: suf' := by
      rw [← hdrop, List.take_append_drop]
    obtain ⟨data, hdata, hsri⟩ := hrun _ ref suf' hsplit
    rw [hpre.length_eq] at hdata
    obtain ⟨hid, hdigest⟩ := parseEntry_eq_ok href
    refine ⟨ref.id, data, hid, hdata, fun hnull => ?_⟩
    obtain ⟨sri, heq, hsome⟩ := hdigest hnull
    refine ⟨sri, heq, hsri sri hsome ?_⟩
    rintro rfl
    exact hne heq
  · simp only [validateTypeMetadata, bind_eq_ok, pure_eq_ok] at h
    obtain ⟨⟨documents, claims⟩, hchain, ⟨⟩, -, rfl⟩ := h
    obtain ⟨ls, hls, -, -, -, heq⟩ := exists_chain_of_resolveChain hchain
    obtain ⟨rfl, rfl⟩ := Prod.mk.inj heq
    exact hls.enforced

/-- What the host of the schema serves. -/
def servedSchema : Bytes := (lit "\x7b\x22$schema\x22:\x22\x22\x7d").map UInt8.ofNat

/-- The integrity hash of the served schema. -/
def schemaHash : Str := "sha256-3nJDWkZSRn+af7SCCOGJMLmttRZ8rKEFet7/Lg6Dx+8="

/-- A credential that names its schema by that hash. -/
def pinned : Dict :=
  [("credentialSchema", .obj [("id", .str "https://n.eu/s"), ("type", .str "JsonSchema"),
    ("digestSRI", .str schemaHash)])]

/-- The pinned schema is held to its hash in the lane of the schemas as in that of the types, and so
is the type that the card extends. -/
theorem integrity_enforced_pinned :
    ((prepareSchemaBytes (Crypto.ofTexts []) ⟨"https://n.eu/s", "JsonSchema", some schemaHash⟩
          (.bytes servedSchema) = .ok servedSchema →
        MatchesSri (Crypto.ofTexts []) servedSchema schemaHash) ∧
      returned (prepareSchemaBytes (Crypto.ofTexts [])
          ⟨"https://n.eu/s", "JsonSchema", some schemaHash⟩ (.bytes servedSchema)) =
        returned (checkIntegrity (Crypto.ofTexts []) "card" servedSchema (.str schemaHash))) ∧
    Enforced (Crypto.ofTexts []) servedSchema (.str schemaHash) ∧
    ∃ r d d' super data,
      validateTypeMetadata (Crypto.ofTexts []) ann "card" .null typeHost 3 = .ok r ∧
        r.documents = [d, d'] ∧ d.get "extends" = .str super ∧ typeHost super = .ok (.bytes data) ∧
        Enforced (Crypto.ofTexts []) data (d.get "extends#integrity") := by
  obtain ⟨hlanes, hschema, htype⟩ := integrity_enforced (Crypto.ofTexts [])
  refine ⟨?_, ?_, ?_⟩
  · exact (hlanes _ schemaHash servedSchema "card" rfl).mpr (by decide)
  · obtain ⟨result, hresult⟩ : ∃ result, validateCredentialSchema (Crypto.ofTexts [])
        (some fun _ _ => .valid) pinned (fun _ _ => .ok (.bytes servedSchema)) none = .ok result :=
      returned_iff.mp (by decide +kernel)
    obtain ⟨raws, hraws, hentries⟩ := hschema _ _ _ _ _ hresult
    obtain rfl : [_] = raws := Except.ok.inj hraws
    have hhash : Json.str schemaHash ≠ .str [] := fun h => absurd (Json.str.inj h) (by decide)
    obtain ⟨id, data, -, hdata, henforced⟩ := hentries [] _ [] rfl hhash
    cases hdata
    exact henforced
  · obtain ⟨r, hr, hdocuments⟩ := exists_cardRun
    obtain ⟨d, d', hpair⟩ := List.length_eq_two.mp hdocuments
    obtain ⟨super, data, hsuper, hdata, henforced⟩ := (htype _ _ _ _ _ r hr).2 [] d d' [] hpair
    exact ⟨r, d, d', super, data, hr, hpair, hsuper, hdata, henforced⟩

/-- A credential whose only schema reference has an empty integrity hash. -/
def unpinned : Dict :=
  [("credentialSchema", .obj [("id", .str "https://n.eu/s"), ("type", .str "JsonSchema"),
    ("digestSRI", .str [])])]

/-- It is validated against whatever the host serves; a type with that hash is refused. -/
theorem unpinned_validated :
    returned (validateCredentialSchema (Crypto.ofTexts []) (some fun _ _ => .valid) unpinned
        (fun _ _ => .ok (.bytes servedSchema)) none) = true ∧
      ¬ MatchesSri (Crypto.ofTexts []) servedSchema [] ∧
      returned (checkIntegrity (Crypto.ofTexts []) "https://n.eu/s" servedSchema (.str [])) =
        false :=
  ⟨by decide +kernel, not_matchesSri_of_nil rfl, by decide +kernel⟩

end OpenVC
