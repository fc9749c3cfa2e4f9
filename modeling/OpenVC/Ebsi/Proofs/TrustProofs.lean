import OpenVC.Ebsi.Proofs.VersioningProofs
import OpenVC.Ebsi.Trust
import OpenVC.Logic.Path
import OpenVC.Proof.Proofs.VcJwtProofs

/-!
# Soundness of the EBSI trust chain

One iteration of the walk establishes `HopSound` for the hop it appends; `WalkInv` is what holds
between iterations. The scope is fixed at the leaf, and the record that an iteration read it from
carries the token that was then verified.
-/

namespace OpenVC.Ebsi

open Python

/-! ## Eligibility -/

/-- An eligible accreditation has a live role, delegating above the leaf, and the kind of its
position. -/
theorem accreditationIneligibility_eq_none {acc : Accreditation} {leaf : Bool}
    (h : accreditationIneligibility acc leaf = none) :
    acc.issuerType ∈ trustRoles ∧ (leaf = false → acc.issuerType ∈ delegatingRoles) ∧
      wantedKind leaf ∈ acc.accreditationTypes := by
  rw [accreditationIneligibility] at h
  split at h
  · cases h
  · rename_i hrole
    split at h
    · cases h
    · rename_i hdelegating
      split at h
      · cases h
      · rename_i hkind
        refine ⟨?_, ?_, by simpa using hkind⟩
        · simpa [Accreditation.hasTrustRole] using hrole
        · rintro rfl
          simpa [Accreditation.canAccredit] using hdelegating

theorem pickAccreditation_eq_some {record : IssuerRecord} {needed : Finset Str} {leaf : Bool}
    {acc : Accreditation} (h : pickAccreditation record needed leaf = some acc) :
    acc ∈ record.accreditations ∧ accreditationIneligibility acc leaf = none ∧
      covers acc needed leaf = true := by
  rw [pickAccreditation] at h
  split at h
  · have hp := List.find?_some h
    rw [Bool.and_eq_true, Option.isNone_iff_eq_none] at hp
    exact ⟨List.mem_of_find?_eq_some h, hp⟩
  · cases h

/-! ## The subject -/

/-- A value sent as the name of the accredited party: `sub`, `credentialSubject.id` or
`credentialSubject.@id`. -/
def SentName (r : VcJwt.Verified) (v : Json) : Prop :=
  r.claims.get? "sub" = some v ∨ ∃ cs, r.credential.get? "credentialSubject" = some (.obj cs) ∧
    (Dict.get? cs "id" = some v ∨ Dict.get? cs "@id" = some v)

theorem exists_mem_sentMembers {lead : Str} {keys : List Str} {d : Dict} {v : Json} :
    (∃ w, (w, v) ∈ sentMembers lead keys d) ↔ ∃ key ∈ keys, d.get? key = some v := by
  simp only [sentMembers, List.mem_map, List.mem_filter, Prod.mk.injEq]
  constructor
  · rintro ⟨w, key, ⟨hkey, hhas⟩, -, rfl⟩
    obtain ⟨v, hv⟩ := Option.isSome_iff_exists.mp hhas
    exact ⟨key, hkey, by rw [Dict.get, hv]; rfl⟩
  · rintro ⟨key, hkey, hv⟩
    exact ⟨_, key, ⟨hkey, by rw [Dict.has, hv]; rfl⟩, rfl, by rw [Dict.get, hv]; rfl⟩

theorem sentName_iff {subject : Str} {r : VcJwt.Verified} {names : List (Str × Json)}
    (h : subjectNames subject r.claims r.credential = .ok names) {v : Json} :
    SentName r v ↔ ∃ w, (w, v) ∈ names := by
  rw [subjectNames] at h
  split at h
  · rename_i hnone
    cases h
    simp [SentName, exists_mem_sentMembers, hnone]
  · rename_i cs hcs
    cases h
    simp [SentName, List.mem_append, exists_or, exists_mem_sentMembers, hcs]
  · cases h

theorem checkSubjectBinding_eq_ok {r : VcJwt.Verified} {subject : Str}
    (h : checkSubjectBinding r subject = .ok ()) :
    (∃ v, SentName r v) ∧ ∀ v, SentName r v → v = .str subject := by
  simp only [checkSubjectBinding, bind_eq_ok, raiseIf_eq_ok, each_eq_ok] at h
  obtain ⟨names, hnames, ⟨⟩, hne, hall⟩ := h
  constructor
  · obtain ⟨⟨w, v⟩, hv⟩ := List.exists_mem_of_ne_nil names (by simpa using hne)
    exact ⟨v, (sentName_iff hnames).mpr ⟨w, hv⟩⟩
  · intro v hv
    obtain ⟨w, hw⟩ := (sentName_iff hnames).mp hv
    have hname := hall _ hw
    rw [checkName, raiseIf_eq_ok, bne_eq_false_iff_eq] at hname
    exact Json.str?_eq_some.mp hname

/-! ## One hop -/

namespace Verifier

variable {V : Verifier} {credentialTypes : List Str} {anchors : Finset Str} {subjectDid : Str}
  {maxDepth : Nat} {chain : TrustChain}

/-- What stands behind hop `n`: `r` is the token of the hop's accreditation as it verified. -/
structure Accredited (V : Verifier) (n : Nat) (hop : TrustHop) (token : Str) (r : VcJwt.Verified) :
    Prop where
  carried : hop.accreditation.credentialJwt = some token
  /-- The token verifies under a key of the accreditor's resolved document. -/
  signed : ∃ doc vm, V.resolver.resolve V.crypto n hop.accreditor = .ok doc ∧
    doc.id = hop.accreditor ∧ vm ∈ doc.verificationMethods ∧
    V.verifyToken token vm.publicKeyJwk = .ok r
  issuer : r.claims.get "iss" = .str hop.accreditor
  named : ∃ v, SentName r v
  bound : ∀ v, SentName r v → v = .str hop.subject
  role : hop.accreditation.issuerType ∈ trustRoles
  delegating : 0 < n → hop.accreditation.issuerType ∈ delegatingRoles
  kind : NamesKind r.credential (wantedKind (n == 0))
  status : ∀ resolve, V.resolveStatusList = some resolve → ∃ status,
    Status.checkCredentialStatus V.zlib r.credential (resolve n) = .ok status ∧
      status.revoked = false

/-- A hop of a chain with the given scope. The scope is what the token of the leaf authorises of the
credential's types, and the token of every accreditation above authorises all of it. -/
def HopSound (V : Verifier) (credentialTypes : List Str) (scope : Finset Str) (n : Nat)
    (hop : TrustHop) : Prop :=
  ∃ token r, V.Accredited n hop token r ∧
    (n = 0 → ∀ t, t ∈ scope ↔ AccreditedFor r.credential t ∧ t ∈ credentialTypes) ∧
    (0 < n → ∀ t ∈ scope, AccreditedFor r.credential t)

/-- The decoder injected into the resolver is the proof suite's `peek_claims`. -/
def PeeksClaims (V : Verifier) : Prop :=
  ∀ token, V.resolver.decode token = (VcJwt.peekClaims token).map Json.obj

/-- The token that `_verify_accreditation` verified. -/
theorem verifyAccreditation_eq_ok {n : Nat} {acc : Accreditation} {subject accreditor : Str}
    {vc : Dict} (hJ : V.pyJwt.ReturnsPayload)
    (h : V.verifyAccreditation n acc subject accreditor = .ok vc) :
    ∃ token r, acc.credentialJwt = some token ∧ token ≠ [] ∧ r.credential = vc ∧
      (∃ doc vm, V.resolver.resolve V.crypto n accreditor = .ok doc ∧ doc.id = accreditor ∧
        vm ∈ doc.verificationMethods ∧ V.verifyToken token vm.publicKeyJwk = .ok r) ∧
      r.claims.get "iss" = .str accreditor ∧ checkSubjectBinding r subject = .ok () := by
  simp only [verifyAccreditation, bind_eq_ok, reraise_eq_ok, orRaise_eq_ok, raiseIf_eq_ok,
    pure_eq_ok, Option.filter_eq_some_iff] at h
  obtain ⟨token, ⟨htoken, hne⟩, ⟨iss, kid⟩, hpeek, ⟨⟩, hiss, doc, hdoc, vm, hvm, r, hr, ⟨⟩, hbind,
    rfl⟩ := h
  have hacc : iss = accreditor := by simpa using hiss
  obtain ⟨run⟩ := VcJwt.verify_eq_ok.mp hr
  exact ⟨token, r, htoken, by simpa using hne, rfl,
    ⟨doc, vm, hdoc, DidEbsiResolver.resolve_id hdoc, Did.DidDocument.mem_of_keyByKid hvm, hr⟩,
    hacc ▸ run.iss_eq hJ hpeek, hbind⟩

theorem checkAccreditationStatus_eq_ok {n : Nat} {current : Str} {vc : Dict}
    (h : V.checkAccreditationStatus n current vc = .ok ()) :
    ∀ resolve, V.resolveStatusList = some resolve → ∃ status,
      Status.checkCredentialStatus V.zlib vc (resolve n) = .ok status ∧ status.revoked = false := by
  intro resolve hresolve
  simp only [checkAccreditationStatus, hresolve, bind_eq_ok, reraise_eq_ok, raiseIf_eq_ok] at h
  exact h

/-- What the record says a verified token authorises is what the token says. -/
theorem readFrom_verified {acc : Accreditation} {token : Str} {jwk : Dict} {r : VcJwt.Verified}
    (hJ : V.pyJwt.ReturnsPayload) (hpeek : V.PeeksClaims)
    (hread : acc.ReadFrom V.resolver.decode) (htoken : acc.credentialJwt = some token)
    (hne : token ≠ []) (hr : V.verifyToken token jwk = .ok r) :
    (∀ t, t ∈ acc.credentialTypes ↔ AccreditedFor r.credential t) ∧
      ∀ kind, kind ∈ acc.accreditationTypes ↔ NamesKind r.credential kind := by
  obtain ⟨run⟩ := VcJwt.verify_eq_ok.mp hr
  rw [Accreditation.ReadFrom, htoken, typesFromToken.eq_def] at hread
  obtain ⟨c, token, rfl⟩ := List.exists_cons_of_ne_nil hne
  simp only [bind_eq_ok, reraise_eq_ok, hpeek _, run.readPayload] at hread
  obtain ⟨claims, hclaims, hscope⟩ := hread
  cases hclaims
  refine scopeOfClaims_spec hscope ?_
  rw [← run.claims_eq hJ]
  exact Json.obj?_eq_some.mp run.credential

/-! ## The walk -/

/-- What holds between two iterations. -/
structure WalkInv (V : Verifier) (subjectDid : Str) (credentialTypes : List Str)
    (anchors : Finset Str) (st : Walk) : Prop where
  linked : Path.Linked TrustHop.subject TrustHop.accreditor subjectDid st.hops st.current
  nodup : (Path.vertices TrustHop.accreditor subjectDid st.hops).Nodup
  seen : ∀ did, did ∈ st.seen ↔ did ∈ Path.vertices TrustHop.accreditor subjectDid st.hops
  notAnchor : ∀ did ∈ Path.vertices TrustHop.accreditor subjectDid st.hops, did ∉ anchors
  /-- The scope is open at the leaf only. -/
  leaf : st.scope = none ↔ st.hops = []
  scope : ∀ scope, st.scope = some scope → scope.Nonempty ∧
    ∀ n hop, st.hops[n]? = some hop → V.HopSound credentialTypes scope n hop

/-- An iteration appends a sound hop, and keeps the scope once it is fixed. -/
theorem climb_eq_ok {st : Walk} {hop : TrustHop} {scope : Finset Str}
    (hJ : V.pyJwt.ReturnsPayload) (hpeek : V.PeeksClaims)
    (hinv : V.WalkInv subjectDid credentialTypes anchors st)
    (h : V.climb credentialTypes st = .ok (hop, scope)) :
    hop.subject = st.current ∧ scope.Nonempty ∧
      V.HopSound credentialTypes scope st.hops.length hop ∧
      ∀ s, st.scope = some s → scope = s := by
  simp only [climb, bind_eq_ok, orRaise_eq_ok, pure_eq_ok, Prod.mk.injEq,
    Option.filter_eq_some_iff, currentRecord, recast_eq_ok] at h
  obtain ⟨record, hrecord, acc, hpick, accreditor, -, vc, hvc, ⟨⟩, hstatus, rfl, rfl⟩ := h
  obtain ⟨hmem, heligible, hcovers⟩ := pickAccreditation_eq_some hpick
  obtain ⟨hrole, hdelegating, hkind⟩ := accreditationIneligibility_eq_none heligible
  obtain ⟨token, r, htoken, hne, rfl, ⟨doc, vm, hdoc, hid, hvm, hr⟩, hiss, hbind⟩ :=
    verifyAccreditation_eq_ok hJ hvc
  obtain ⟨htypes, hkinds⟩ := readFrom_verified hJ hpeek
    (DidEbsiResolver.issuerRecord_readFrom hrecord acc hmem) htoken hne hr
  obtain ⟨hnamed, hbound⟩ := checkSubjectBinding_eq_ok hbind
  -- the loop is at the leaf exactly when no hop has been appended
  have hleaf : st.scope.isNone = (st.hops.length == 0) := by
    rw [Bool.eq_iff_iff, Option.isNone_iff_eq_none, beq_iff_eq, List.length_eq_zero_iff]
    exact hinv.leaf
  have haccredited : V.Accredited st.hops.length ⟨st.current, accreditor, acc⟩ token r :=
    { carried := htoken
      signed := ⟨doc, vm, hdoc, hid, hvm, hr⟩
      issuer := hiss
      named := hnamed
      bound := hbound
      role := hrole
      delegating := fun hn => hdelegating (by rw [hleaf]; simpa using Nat.pos_iff_ne_zero.mp hn)
      kind := (hkinds _).mp (hleaf ▸ hkind)
      status := checkAccreditationStatus_eq_ok hstatus }
  cases hscope : st.scope with
  | none =>
    simp only [hscope, Option.isNone_none, covers, if_true, decide_eq_true_eq,
      Option.getD_none] at hcovers
    have hzero : st.hops.length = 0 := List.length_eq_zero_iff.mpr (hinv.leaf.mp hscope)
    refine ⟨rfl, hcovers, ⟨token, r, haccredited, fun _ t => ?_, fun hn => by omega⟩, by simp⟩
    rw [Option.getD_none, Finset.mem_inter, List.mem_toFinset, List.mem_toFinset, htypes]
  | some s =>
    simp only [hscope, Option.isNone_some, covers, Bool.false_eq_true, if_false,
      decide_eq_true_eq, Option.getD_some] at hcovers
    have hpos : st.hops ≠ [] := fun e => by simp [hinv.leaf.mpr e] at hscope
    refine ⟨rfl, (hinv.scope s hscope).1,
      ⟨token, r, haccredited, fun hn => absurd (List.length_eq_zero_iff.mp hn) hpos,
        fun _ t ht => ?_⟩, fun _ e => Option.some.inj e⟩
    exact (htypes t).mp (List.mem_toFinset.mp (hcovers ht))

/-- The chain that a walk returns, from any of its states. -/
theorem walk_eq_ok {left : Nat} {st : Walk} (hJ : V.pyJwt.ReturnsPayload) (hpeek : V.PeeksClaims)
    (hinv : V.WalkInv subjectDid credentialTypes anchors st)
    (h : V.walk subjectDid credentialTypes anchors maxDepth left st = .ok chain) :
    chain.subject = subjectDid ∧
      Path.Linked TrustHop.subject TrustHop.accreditor subjectDid chain.hops chain.anchor ∧
      (Path.vertices TrustHop.accreditor subjectDid chain.hops).Nodup ∧
      chain.hops.length ≤ st.hops.length + left ∧ chain.anchor ∈ anchors ∧ chain.scope.Nonempty ∧
      ∀ n hop, chain.hops[n]? = some hop → V.HopSound credentialTypes chain.scope n hop := by
  induction left generalizing st with
  | zero => cases h
  | succ left ih =>
    obtain ⟨⟨hop, scope⟩, hclimb, h⟩ := bind_eq_ok.mp h
    obtain ⟨hsubject, hne, hsound, hkeep⟩ := climb_eq_ok hJ hpeek hinv hclimb
    have hlinked := hinv.linked.snoc hsubject
    -- the hops before this one are sound for the scope that it leaves
    have hall : ∀ n hop', (st.hops ++ [hop])[n]? = some hop' →
        V.HopSound credentialTypes scope n hop' := by
      refine Path.forall_getElem?_snoc (fun n hop' hn => ?_) hsound
      cases hscope : st.scope with
      | none =>
        rw [hinv.leaf.mp hscope] at hn
        cases hn
      | some s =>
        rw [hkeep s hscope]
        exact (hinv.scope s hscope).2 n hop' hn
    simp only at h
    split at h
    · rename_i hanchor
      cases h
      refine ⟨rfl, hlinked, Path.nodup_vertices_snoc hinv.nodup fun hmem =>
        hinv.notAnchor _ hmem hanchor, ?_, hanchor, hne, hall⟩
      simp
    · rename_i hanchor
      simp only [bind_eq_ok, raiseIf_eq_ok] at h
      obtain ⟨⟨⟩, hseen, h⟩ := h
      have hnew : hop.accreditor ∉ Path.vertices TrustHop.accreditor subjectDid st.hops := by
        rw [← hinv.seen]
        simpa using hseen
      have hinv' : V.WalkInv subjectDid credentialTypes anchors
          ⟨hop.accreditor, hop.accreditor :: st.seen, some scope, st.hops ++ [hop]⟩ :=
        { linked := hlinked
          nodup := Path.nodup_vertices_snoc hinv.nodup hnew
          seen := fun did => by
            rw [Path.vertices_snoc, List.mem_append, List.mem_singleton, List.mem_cons, hinv.seen,
              or_comm]
          notAnchor := fun did hdid => by
            rw [Path.vertices_snoc, List.mem_append, List.mem_singleton] at hdid
            rcases hdid with hdid | rfl
            · exact hinv.notAnchor did hdid
            · exact hanchor
          leaf := by simp
          scope := fun s hs => by
            cases hs
            exact ⟨hne, hall⟩ }
      obtain ⟨h₁, h₂, h₃, h₄, h₅⟩ := ih hinv' h
      refine ⟨h₁, h₂, h₃, ?_, h₅⟩
      simp only [List.length_append, List.length_singleton] at h₄
      omega

theorem walkInv_init (h : subjectDid ∉ anchors) :
    V.WalkInv subjectDid credentialTypes anchors ⟨subjectDid, [subjectDid], none, []⟩ where
  linked := Path.Linked.nil
  nodup := List.nodup_singleton _
  seen _ := Iff.rfl
  notAnchor did hdid := by
    rw [Path.vertices, List.map_nil, List.mem_singleton] at hdid
    exact hdid ▸ h
  leaf := by simp
  scope := nofun

/-- A chain that `verify_trust_chain` returns is a path of distinct DIDs from the subject to an anchor,
of at most `max_depth` hops, each backed by a token that verified; and the scope it vouches for is
what the verified tokens authorise. -/
theorem verifyTrustChain_sound (hJ : V.pyJwt.ReturnsPayload) (hpeek : V.PeeksClaims)
    (h : V.verifyTrustChain subjectDid credentialTypes anchors maxDepth = .ok chain) :
    chain.subject = subjectDid ∧
      chain.hops.map TrustHop.subject ++ [chain.anchor] =
        subjectDid :: chain.hops.map TrustHop.accreditor ∧
      (subjectDid :: chain.hops.map TrustHop.accreditor).Nodup ∧
      chain.hops.length ≤ maxDepth ∧ chain.anchor ∈ anchors ∧
      (chain.hops ≠ [] → chain.scope.Nonempty) ∧
      ∀ n hop, chain.hops[n]? = some hop → V.HopSound credentialTypes chain.scope n hop := by
  rw [verifyTrustChain] at h
  split at h
  · rename_i hanchor
    cases h
    refine ⟨rfl, rfl, List.nodup_singleton _, Nat.zero_le _, hanchor, fun hne => absurd rfl hne, ?_⟩
    intro n hop hn
    cases hn
  · rename_i hanchor
    obtain ⟨hsubject, hlinked, hnodup, hlen, hmem, hne, hall⟩ :=
      walk_eq_ok hJ hpeek (walkInv_init hanchor) h
    exact ⟨hsubject, hlinked, hnodup, by simpa using hlen, hmem, fun _ => hne, hall⟩

end Verifier

/-! ## A chain of two hops -/

/-- A university. -/
def uniDid : Str := lit "did:ebsi:ziuXxCZuLtSWjT83wzznyrE"

/-- The ministry that accredited it. -/
def taoDid : Str := lit "did:ebsi:z22LN7Zok1XmFUBy7xWRiQTk"

/-- The root. -/
def rootDid : Str := lit "did:ebsi:zhWhquzou5V1fPWVbe5yQae"

/-- The ministry's accreditation of the university for `Diploma` and `Badge`. -/
def uniToken : Str :=
  List.flatMap lit
    ["eyJhbGciOiJFZERTQSJ9.eyJpc3MiOiJkaWQ6ZWJzaTp6MjJMTjdab2sxWG1GVUJ5N3hXUmlRVGsiLCJzdWIiOiJk",
     "aWQ6ZWJzaTp6aXVYeENadUx0U1dqVDgzd3p6bnlyRSIsInZjIjp7InR5cGUiOlsiVmVyaWZpYWJsZUFjY3JlZGl0YX",
     "Rpb25Ub0F0dGVzdCJdLCJjcmVkZW50aWFsU3ViamVjdCI6eyJpZCI6ImRpZDplYnNpOnppdVh4Q1p1THRTV2pUODN3",
     "enpueXJFIiwiYWNjcmVkaXRlZEZvciI6W3sidHlwZXMiOlsiRGlwbG9tYSIsIkJhZGdlIl19XX19fQ.npCAhLIAMEv",
     "U4CbR5tbE33HGN4o5z2t6KiZkr5BcDMQj_Xy_HqKWsd3LkiVbhvGqcnm9yobV4nxPUjvXujd0DQ"]

/-- The root's accreditation of the ministry for `Diploma` and `Licence`. -/
def taoToken : Str :=
  List.flatMap lit
    ["eyJhbGciOiJFZERTQSJ9.eyJpc3MiOiJkaWQ6ZWJzaTp6aFdocXV6b3U1VjFmUFdWYmU1eVFhZSIsInZjIjp7InR5",
     "cGUiOiJWZXJpZmlhYmxlQWNjcmVkaXRhdGlvblRvQWNjcmVkaXQiLCJjcmVkZW50aWFsU3ViamVjdCI6eyJpZCI6Im",
     "RpZDplYnNpOnoyMkxON1pvazFYbUZVQnk3eFdSaVFUayIsImFjY3JlZGl0ZWRGb3IiOlsiRGlwbG9tYSIsIkxpY2Vu",
     "Y2UiXX19fQ.TCuyr3GkrGYbEZr2LpvkOvGFAxYNipWBBtRCm5fMpGaN_N1NP3_kXEaaGurTOfLYKRIAkDvBItyWjxS",
     "8KcU1Cw"]

/-- The root's public key. -/
def rootX : Str := lit "ebVWLo_mVPlAeLES6KmLp5AfhTrmlb7X4OORC60ElmQ"

/-- A DID document with one Ed25519 key. -/
def didDocument (did x : Str) : Json :=
  .obj [("id", .str did), ("verificationMethod", .arr [.obj [("id", .str "#k"),
    ("publicKeyJwk", .obj [("kty", .str "OKP"), ("crv", .str "Ed25519"), ("x", .str x)])]])]

/-- The attribute of a record with one accreditation. -/
def revisionOf (role tao token : Str) : Json :=
  .obj [("attribute", .obj [("hash", .str "h"), ("issuerType", .str role), ("tao", .str tao),
    ("body", .str token)])]

/-- The registries at the node `n`: the university, then the ministry. -/
def twoHopGet : HttpGet
  | .issuer 0, _ => .ok (.obj [("did", .str uniDid), ("hasAttributes", .bool true)])
  | .issuer 1, _ => .ok (.obj [("did", .str taoDid), ("hasAttributes", .bool true)])
  | .attributes _ 0, _ => .ok (.obj [("items", .arr [.obj [("id", .str "a"),
      ("href", .str "https://n/a")]]), ("total", .int 1)])
  | .revision 0 0, _ => .ok (revisionOf "TI" taoDid uniToken)
  | .revision 1 0, _ => .ok (revisionOf "TAO" rootDid taoToken)
  | .identifiers 0, _ => .ok (didDocument taoDid cardX)
  | .identifiers 1, _ => .ok (didDocument rootDid rootX)
  | _, _ => raise .httpNotFound "404" []

/-- The verifier of that walk. -/
def twoHopVerifier : Verifier where
  interpreter := .atSecond 1800000000 []
  crypto := .ofTexts []
  pyJwt := signedPyJwt 1800000000 [(uniToken, cardX), (taoToken, rootX)]
  zlib := ⟨fun _ => none, fun _ => none⟩
  resolver := ⟨twoHopGet, fun token => (VcJwt.peekClaims token).map Json.obj, "https://n", .v5, .v5⟩
  proofSuite := ⟨60, leeway_minute, false, false⟩
  resolveStatusList := some fun _ _ _ => raise .statusListError "unreachable" []

/-- The university may issue a `Diploma`, vouched for over two hops. -/
theorem verifyTrustChain_sound_twoHops :
    ∃ chain, twoHopVerifier.verifyTrustChain uniDid ["Diploma", "Transcript"] {rootDid} 6 =
        .ok chain ∧ chain.hops.map TrustHop.accreditor = [taoDid, rootDid] ∧
      chain.scope = {lit "Diploma"} ∧ chain.anchor ∈ ({rootDid} : Finset Str) ∧
      ∀ n hop, chain.hops[n]? = some hop →
        twoHopVerifier.HopSound ["Diploma", "Transcript"] chain.scope n hop := by
  obtain ⟨chain, hchain, heq⟩ := exists_ok_of_map
    (x := twoHopVerifier.verifyTrustChain uniDid ["Diploma", "Transcript"] {rootDid} 6)
    (f := fun chain => (chain.hops.map TrustHop.accreditor, chain.scope))
    (c := ([taoDid, rootDid], {lit "Diploma"})) (by
      unfold twoHopVerifier twoHopGet uniToken taoToken uniDid taoDid rootDid
      simp only [List.flatMap_cons, List.flatMap_nil]
      repeat rw [lit_ofList]
      decide +kernel)
  rw [Prod.mk.injEq] at heq
  obtain ⟨-, -, -, -, hanchor, -, hall⟩ := Verifier.verifyTrustChain_sound
    (signedPyJwt_returnsPayload _ _) (fun _ => rfl) hchain
  exact ⟨chain, hchain, heq.1, heq.2, hanchor, hall⟩

end OpenVC.Ebsi
