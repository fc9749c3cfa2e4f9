import OpenVC.Proof.Proofs.KeyBindingProofs
import OpenVC.Proof.Proofs.VcJwtProofs
import OpenVC.Proofs.DataIntegrityProofs

/-!
# The reported issuer is the one the key was obtained for

The issuer of a credential is read before its proof is verified, to find a key, and again from what
was verified. On every lane the two readings are one identifier, and a VCDM `issuer` names nobody
else.
-/

namespace OpenVC

open Python

namespace SdJwt

/-- The issuer JWT of an SD-JWT is the text before the first `~`. -/
theorem split_issuerJwt {sdJwt : Str} {parts : Parts} (h : split sdJwt = .ok parts) :
    parts.issuerJwt = Str.beforeFirst 126 sdJwt := by
  have hmem : sdJwt.contains 126 = true := by
    by_contra hno
    have hno : 126 ∉ sdJwt := by simpa using hno
    rw [split, Str.split, List.splitOn_eq_singleton hno] at h
    cases h
  have heq := Str.partition_eq hmem
  rw [heq] at h
  have hnot : 126 ∉ Str.beforeFirst 126 sdJwt := by
    intro hc
    have := List.mem_takeWhile_imp hc
    simp at this
  exact issuerJwt_of_split hnot h

/-- The issuer of a run is the one its issuer JWT names. -/
theorem Run.issuer_eq {I : Interpreter} {C : Crypto} {suite : Suite} {sdJwt : Str} {jwk : Dict}
    {policy : Policy} {checkTemporal : Bool} {r : Verified}
    (run : Run I C suite sdJwt jwk policy checkTemporal r) :
    issuerFromBody run.jws.payload run.jws.header = .str r.issuer := by
  obtain ⟨hiss, -, -⟩ := checkEnvelope_eq_ok.mp run.checkedEnvelope
  simp only [issAndHash, bind_eq_ok, orRaise_eq_ok, pure_eq_ok, Prod.mk.injEq] at hiss
  obtain ⟨iss, htext, _, -, hiss, -⟩ := hiss
  rw [run.issuer, ← hiss]
  exact Json.str?_eq_some.mp (Option.filter_eq_some_iff.mp htext).1

/-- What the peek reads is what the verified issuer JWT names. -/
theorem peekIssuer_eq_ok {sdJwt iss : Str} {kid : Json} {jws : Jws}
    (h : peekIssuer sdJwt = .ok (iss, kid)) (hjws : decodeJws (Str.beforeFirst 126 sdJwt) = .ok jws) :
    issuerFromBody jws.payload jws.header = .str iss := by
  simp only [peekIssuer, bind_eq_ok, orRaise_eq_ok, raiseIf_eq_ok, pure_eq_ok, Prod.mk.injEq] at h
  obtain ⟨jws', hjws', iss', hiss, ⟨⟩, -, rfl, -⟩ := h
  cases hjws.symm.trans hjws'
  exact Json.str?_eq_some.mp (Option.filter_eq_some_iff.mp hiss).1

end SdJwt

namespace Pipeline

variable {H : Host} {S : Sources H} {policy : Policy} {kbBinding : Option (Str × Str)}
  {r : VerificationResult}

/-- A present `issuer` names nobody but the identifier: its string, or each of the `id` and `@id` of
its object. -/
def NamesOnly (credential : Dict) (iss : Str) : Prop :=
  ∀ issuer, credential.get? "issuer" = some issuer →
    ∀ name ∈ issuerIdentifiers issuer, name = .str iss

theorem namesOnly_of_reconcile {claims credential : Dict} {iss : Str} {subject : Option Str}
    (h : VcJwt.reconcile claims credential = .ok (iss, subject)) :
    claims.get "iss" = .str iss ∧ NamesOnly credential iss := by
  simp only [VcJwt.reconcile, bind_eq_ok, orRaise_eq_ok, raiseIf_eq_ok, pure_eq_ok,
    Prod.mk.injEq, Json.str?_eq_some] at h
  obtain ⟨iss', hiss, ⟨⟩, hconflict, ⟨⟩, -, ⟨⟩, -, rfl, -⟩ := h
  refine ⟨hiss, fun issuer hissuer name hname => ?_⟩
  rw [VcJwt.issuerConflicts, hissuer] at hconflict
  have := List.any_eq_false.mp hconflict name hname
  exact Json.pyEq_str_right.mp (by simpa using this)

/-! ## The key of a JOSE issuer -/

/-- The key was obtained for the identifier: the certificates in the header of its token bind it, its
metadata serves the key under the `kid`, or the document the resolver gave for it holds the key. -/
inductive ObtainedFor (S : Sources H) (token iss : Str) (kid : Json) (now : Option DateTime)
    (jwk : Dict) : Prop
  | x5c (anchors : List H.x509.Certificate) (jws : SdJwt.Jws)
      (hs : S.x5cTrustAnchors = some anchors) (hjws : parseCompact token = .ok jws)
      (h : X5c.resolveKey H.x509 H.I (jws.header.get "x5c") iss anchors now = .ok jwk)
  | wellKnown (fetch : Fetch) (hs : S.jwtVcIssuerFetch = some fetch)
      (h : JwtVcIssuer.resolveKey H.I fetch iss kid = .ok jwk)
  | did (doc : Did.Resolved) (hs : S.resolver.resolve iss = .ok doc)
      (h : joseDocumentKey doc iss kid = .ok jwk)

theorem obtainedFor_of_resolveJoseKey {token iss : Str} {kid : Json} {now : Option DateTime}
    {jwk : Dict} (h : resolveJoseKey S iss kid = .ok jwk) :
    ObtainedFor S token iss kid now jwk := by
  rw [resolveJoseKey] at h
  split at h
  · simp only [resolveHttpsKey, bind_eq_ok, orRaise_eq_ok, reraise_eq_ok] at h
    obtain ⟨fetch, hf, hkey⟩ := h
    exact .wellKnown fetch hf hkey
  · simp only [resolveDidKey, bind_eq_ok, reraise_eq_ok] at h
    obtain ⟨doc, hdoc, hkey⟩ := h
    exact .did doc hdoc hkey

theorem obtainedFor_of_resolveJoseKeyWithX5c {token iss : Str} {kid : Json} {sdJwt : Bool}
    {now : Option DateTime} {jwk : Dict}
    (h : resolveJoseKeyWithX5c S token iss kid sdJwt now = .ok jwk) :
    ObtainedFor S (compactJws token sdJwt) iss kid now jwk := by
  unfold resolveJoseKeyWithX5c at h
  split at h
  · exact obtainedFor_of_resolveJoseKey h
  · rename_i anchors hs
    obtain ⟨jws, hjws, h⟩ := bind_eq_ok.mp h
    split at h
    · rw [resolveX5c, reraise_eq_ok] at h
      exact .x5c anchors jws hs hjws h
    · exact obtainedFor_of_resolveJoseKey h

/-! ## The lanes -/

/-- The credential a chain of envelopes holds. -/
inductive Opens : Json → Detected → Prop
  | here {credential : Json} {d : Detected} (h : detectFormat credential = .ok d) :
      Opens credential d
  | envelope {credential inner : Json} {doc : Dict} {d : Detected}
      (h : detectFormat credential = .ok (.enveloped doc))
      (hu : unwrapEnveloped doc = .ok inner) (hd : Opens inner d) : Opens credential d

/-- The key that verified a Data Integrity proof is that of its `verificationMethod`, in the document
of the DID in it. -/
structure DiKeyOf (S : Sources H) (policy : Policy) (suite : DiSuite) (doc : Dict)
    (verified : VerifiedDi) (did : Str) (jwk : Dict) : Prop where
  ofMethod : ∃ method document, verified.proof.get "verificationMethod" = .str method ∧
    Str.beforeFirst 35 method = did ∧
    ((S.resolver.resolve did = .ok document) ∨
      ∃ d, Did.DidKey.resolve H.crypto did = .ok d ∧ document = .document d) ∧
    documentKey document method (purposeOf (verified.proof.get "proofPurpose")) = .ok jwk
  verifies : ∀ resolver,
    verifyDiSuite H suite policy.leewayS doc (some jwk) resolver policy.diPolicy = .ok verified

/-- The reported issuer is the identifier the verifying key was obtained for. -/
def IssuerBound (S : Sources H) (policy : Policy) (kbBinding : Option (Str × Str))
    (r : VerificationResult) : Detected → Prop
  | .vcJwt token => ∃ kid jwk verified, VcJwt.peekIssuer token = .ok (r.issuer, kid) ∧
      ObtainedFor S token r.issuer kid policy.now jwk ∧
      VcJwt.verify H.I H.crypto H.pyJwt policy.vcJwtSuite token (.obj jwk) ⟨[], policy.audience⟩
        policy.requireNotExpired = .ok verified ∧
      r.raw = .vcJwt verified ∧ verified.issuer = r.issuer ∧
      verified.claims.get "iss" = .str r.issuer ∧ NamesOnly verified.credential r.issuer
  | .sdJwtVc sdJwt => ∃ kid jwk expected verified, SdJwt.peekIssuer sdJwt = .ok (r.issuer, kid) ∧
      ObtainedFor S (Str.beforeFirst 126 sdJwt) r.issuer kid policy.now jwk ∧
      kbExpectations policy kbBinding = .ok expected ∧
      SdJwt.verify H.I H.crypto policy.sdJwtSuite sdJwt jwk (policy.sdJwtPolicy expected)
        policy.requireNotExpired = .ok verified ∧
      r.raw = .sdJwtVc verified ∧ verified.issuer = r.issuer ∧
      (∃ jws, SdJwt.decodeJws (Str.beforeFirst 126 sdJwt) = .ok jws ∧
        (∃ alg, verifySignature H.crypto alg jwk jws.signingInput jws.signature = .ok true) ∧
        SdJwt.issuerFromBody jws.payload jws.header = .str r.issuer) ∧
      (SdJwt.declaresVcdm verified.claims = true → NamesOnly verified.claims r.issuer)
  | .dataIntegrity suite doc => ∃ jwk verified, r.raw = .dataIntegrity verified ∧
      verified.issuer = .str r.issuer ∧ DiKeyOf S policy suite doc verified r.issuer jwk
  | .enveloped _ => False

theorem verifyVcJwt_issuerBound (hJ : H.pyJwt.ReturnsPayload) {token : Str}
    {verifyInner : Option Schema.VerifyInner} (h : verifyVcJwt S policy verifyInner token = .ok r) :
    IssuerBound S policy kbBinding r (.vcJwt token) := by
  simp only [verifyVcJwt, bind_eq_ok, pure_eq_ok] at h
  obtain ⟨⟨iss, kid⟩, hpeek, jwk, hkey, verified, hverify, ⟨⟩, -, status, -, schema, -, rfl⟩ := h
  obtain ⟨run⟩ := VcJwt.verify_eq_ok.mp hverify
  obtain ⟨hiss, hnames⟩ := namesOnly_of_reconcile run.reconciled
  -- the peeked identifier and the verified one are both the `iss` of the verified claims
  have heq : iss = verified.issuer :=
    Json.str.inj ((run.iss_eq hJ hpeek).symm.trans hiss)
  subst heq
  exact ⟨kid, jwk, verified, hpeek, obtainedFor_of_resolveJoseKeyWithX5c hkey, hverify, rfl, rfl,
    hiss, hnames⟩

theorem verifySdJwt_issuerBound {sdJwt : Str} {verifyInner : Option Schema.VerifyInner}
    (h : verifySdJwt S policy verifyInner kbBinding sdJwt = .ok r) :
    IssuerBound S policy kbBinding r (.sdJwtVc sdJwt) := by
  simp only [verifySdJwt, bind_eq_ok, pure_eq_ok] at h
  obtain ⟨⟨iss, kid⟩, hpeek, jwk, hkey, expected, hexp, verified, hverify, ⟨⟩, -, status, -, schema,
    -, rfl⟩ := h
  obtain ⟨run⟩ := SdJwt.verify_eq_ok.mp hverify
  obtain ⟨hjws, hsig⟩ := SdJwt.openIssuerJwt_eq_ok run.signed
  rw [SdJwt.split_issuerJwt run.split] at hjws
  have heq : iss = verified.issuer :=
    Json.str.inj ((SdJwt.peekIssuer_eq_ok hpeek hjws).symm.trans run.issuer_eq)
  subst heq
  refine ⟨kid, jwk, expected, verified, hpeek, obtainedFor_of_resolveJoseKeyWithX5c hkey, hexp,
    hverify, rfl, rfl, ⟨run.jws, hjws, hsig, run.issuer_eq⟩, fun hvcdm => ?_⟩
  have hwindow := run.window
  rw [run.vcdm, hvcdm, SdJwt.checkVcdm_eq_ok] at hwindow
  rcases hwindow with ⟨hfalse, -⟩ | ⟨-, -, -, -, ⟨iss', subject⟩, hrec⟩
  · cases hfalse
  · obtain ⟨hiss, hnames⟩ := namesOnly_of_reconcile hrec
    rw [Dict.get, Dict.get?_set, if_pos rfl] at hiss
    have heq' : run.envelope.iss = iss' := Json.str.inj hiss
    rw [sdJwtResult, run.issuer, heq']
    exact hnames

theorem verifyDataIntegrity_issuerBound {suite : DiSuite} {doc : Dict}
    {verifyInner : Option Schema.VerifyInner}
    (h : verifyDataIntegrity S policy verifyInner suite doc = .ok r) :
    IssuerBound S policy kbBinding r (.dataIntegrity suite doc) := by
  simp only [verifyDataIntegrity, bind_eq_ok, pure_eq_ok] at h
  obtain ⟨verified, hverify, issuer, hbind, ⟨⟩, -, status, -, schema, -, rfl⟩ := h
  obtain ⟨jwk, hkey, hpinned⟩ := verifyDiSuite_resolvesKey hverify
  obtain ⟨method, document, hmethod, hdoc, hdocKey⟩ := resolveVerificationKey_eq_ok hkey
  simp only [bindIssuer, bind_eq_ok, orRaise_eq_ok, raiseIf_eq_ok, pure_eq_ok, hmethod,
    Json.str?] at hbind
  obtain ⟨issuer', hissuer, ⟨⟩, hdid, rfl⟩ := hbind
  have hissuer : verified.issuer = .str issuer' :=
    Json.str?_eq_some.mp (Option.filter_eq_some_iff.mp hissuer).1
  have hdid : Str.beforeFirst 35 method = issuer' := by simpa using hdid
  rw [hdid] at hdoc
  refine ⟨jwk, verified, rfl, hissuer, ⟨⟨method, document, hmethod, hdid, ?_, hdocKey⟩, hpinned⟩⟩
  rcases didDocument_eq_ok hdoc with ⟨resolver, hr, hresolve⟩ | hoffline
  · cases hr
    exact .inl hresolve
  · exact .inr hoffline

/-! ## The pipeline -/

/-- An envelope is transparent: what is verified is what it holds. -/
theorem verifyAt_issuerBound (hJ : H.pyJwt.ReturnsPayload)
    {verifyInner : Nat → Option Schema.VerifyInner} {left : Nat} {credential : Json}
    (h : verifyAt S policy verifyInner kbBinding left credential = .ok r) :
    ∃ d, Opens credential d ∧ IssuerBound S policy kbBinding r d := by
  induction left generalizing credential with
  | zero =>
    unfold verifyAt at h
    obtain ⟨⟨⟩, -, h⟩ := bind_eq_ok.mp h
    obtain ⟨d, hd, h⟩ := bind_eq_ok.mp h
    cases d with
    | vcJwt token => exact ⟨_, .here hd, verifyVcJwt_issuerBound hJ h⟩
    | sdJwtVc sdJwt => exact ⟨_, .here hd, verifySdJwt_issuerBound h⟩
    | dataIntegrity suite doc => exact ⟨_, .here hd, verifyDataIntegrity_issuerBound h⟩
    | enveloped doc => cases h
  | succ left ih =>
    unfold verifyAt at h
    obtain ⟨⟨⟩, -, h⟩ := bind_eq_ok.mp h
    obtain ⟨d, hd, h⟩ := bind_eq_ok.mp h
    cases d with
    | vcJwt token => exact ⟨_, .here hd, verifyVcJwt_issuerBound hJ h⟩
    | sdJwtVc sdJwt => exact ⟨_, .here hd, verifySdJwt_issuerBound h⟩
    | dataIntegrity suite doc => exact ⟨_, .here hd, verifyDataIntegrity_issuerBound h⟩
    | enveloped doc =>
      obtain ⟨inner, hu, h⟩ := bind_eq_ok.mp h
      obtain ⟨d, hopens, hbound⟩ := ih h
      exact ⟨d, .envelope hd hu hopens, hbound⟩

/-- If the pipeline accepts a credential, the issuer it reports is the identifier for which the
verifying key was obtained. On the JOSE lanes the identifier the peek read is the one the verified
payload names, and a VCDM `issuer` names no other; on the Data Integrity lanes it is the DID of the
`verificationMethod` whose key verified the proof. -/
theorem verifyCredential_issuerBound (H : Host) (hJ : H.pyJwt.ReturnsPayload) (S : Sources H)
    (policy : Policy) (kbBinding : Option (Str × Str)) (credential : Json) (r : VerificationResult)
    (h : verifyCredential S policy kbBinding credential = .ok r) :
    ∃ d, Opens credential d ∧ IssuerBound S policy kbBinding r d :=
  verifyAt_issuerBound hJ h

/-! ## A credential -/

/-- A host without certificates, JSON-LD or schemas, where one VC-JWT is signed. -/
def cardHost (now : Int) : Host where
  I := .atSecond now []
  crypto := SdJwt.annCrypto
  pyJwt := cardPyJwt now
  zlib := ⟨fun _ => none, fun _ => none⟩
  x509 := ⟨Unit, fun _ => .error [], fun _ _ _ _ => .error [], fun _ => .ok none, fun _ => .other⟩
  jsonLd := ⟨fun _ => .error .unavailable, fun _ => .error .unavailable,
    fun _ => .error .unavailable, fun _ => .error [], fun _ _ => .error [], []⟩
  schemas := none

/-- A resolver that knows the issuer of the card. -/
def cardResolver : Did.DidResolver where
  supports := none
  resolve did :=
    if did = lit "i" then .ok (.document ⟨"i", [⟨"i#k", "JsonWebKey2020", "i",
      [("kty", .str "OKP"), ("crv", .str "Ed25519"), ("x", .str cardX)]⟩], [], []⟩)
    else raise .didResolutionError "unknown DID %" [.str did]

/-- The sources of a call with that resolver alone. -/
def cardSources (now : Int) : Sources (cardHost now) where
  resolver := cardResolver
  statusList := none
  statusListToken := none
  credentialSchema := none
  jwtVcIssuerFetch := none
  x5cTrustAnchors := none

/-- The card is accepted, as issued by `i`, whose key the resolver gave. -/
theorem verifyCredential_issuerBound_card :
    ∃ r, verifyCredential (cardSources 1800000000) {} none (.str cardToken) = .ok r ∧
      r.issuer = lit "i" ∧
      ∃ d, Opens (.str cardToken) d ∧ IssuerBound (cardSources 1800000000) {} none r d := by
  obtain ⟨r, hr, hi⟩ := exists_ok_of_map
    (x := verifyCredential (cardSources 1800000000) {} none (.str cardToken))
    (f := fun r => r.issuer) (c := lit "i") (by decide +kernel)
  exact ⟨r, hr, hi, verifyCredential_issuerBound (cardHost 1800000000)
    (signedPyJwt_returnsPayload 1800000000 _) (cardSources 1800000000) {} none (.str cardToken) r hr⟩

end Pipeline

end OpenVC
