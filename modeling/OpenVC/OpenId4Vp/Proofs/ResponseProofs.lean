import OpenVC.OpenId4Vp.Proofs.DcqlProofs
import OpenVC.Proof.Proofs.VpJwtProofs

/-!
# Holder binding of an OpenID4VP response

Each accepted presentation is signed by a holder for the request's nonce and one of its audiences, or
answers a query that waived the binding. A credential that is not bound to that holder is returned
only for such a query too.
-/

namespace OpenVC.OpenId4Vp

open Python Pipeline

variable {H : Host} {M : Mdoc} {call : Call H M} {d : Durations} {auds : Option (List Str)}
  {query : Dict} {presentation : Json} {r : VerifiedPresentation M} {n : Nat} {id aud : Str}
  {types : TypeConstraint} {binding : Bool}

/-! ## The audience -/

/-- The audiences of a call: its `client_id`, or an origin it expects. -/
inductive Call.Audience (call : Call H M) : Str → Prop
  | clientId {c : Str} (h : call.clientId = some c) : call.Audience c
  | origin {origins : List Str} {o : Str} (h : call.expectedOrigins = some origins)
      (ho : o ∈ origins) : call.Audience (originAudience o)

theorem dcApiAcceptedAuds_eq_some {clientId : Option Str} {origins : Option (List Str)}
    {l : List Str} (h : dcApiAcceptedAuds clientId origins = .ok (some l)) :
    ∃ os, origins = some os ∧ l = os.map originAudience := by
  unfold dcApiAcceptedAuds at h
  split at h
  · simp only [originAudiences, bind_eq_ok, pure_eq_ok, Option.some.injEq] at h
    obtain ⟨⟨⟩, -, rfl⟩ := h
    exact ⟨_, rfl, rfl⟩
  · obtain ⟨⟨⟩, -, h⟩ := bind_eq_ok.mp h
    cases h
  · cases h

/-- The audience a presentation is held to is one of the call's. -/
theorem audience_of_effectiveAudience {fmt : Option Format}
    (hauds : dcApiAcceptedAuds call.clientId call.expectedOrigins = .ok auds)
    (h : effectiveAudience fmt presentation call.clientId auds = .ok aud) : call.Audience aud := by
  unfold effectiveAudience at h
  split at h
  · rename_i c hc
    cases h
    exact .clientId hc
  · simp only [bind_eq_ok, orRaise_eq_ok] at h
    obtain ⟨l, rfl, hfound⟩ := h
    obtain ⟨os, hos, rfl⟩ := dcApiAcceptedAuds_eq_some hauds
    obtain ⟨candidate, -, hc⟩ := List.exists_of_findSome?_eq_some hfound
    obtain ⟨-, hmem⟩ := Option.filter_eq_some_iff.mp hc
    obtain ⟨o, ho, rfl⟩ := List.mem_map.mp (List.contains_iff_mem.mp hmem)
    exact .origin hos ho

/-! ## Holder proofs -/

/-- The KB-JWT of an SD-JWT is signed by the `cnf` key of its issuer JWT, for an audience and a
nonce. -/
def KeyBoundTo (C : Crypto) (sdJwt aud nonce : Str) : Prop :=
  ∃ parts jws cnf holderJwk kb alg, SdJwt.split sdJwt = .ok parts ∧
    SdJwt.decodeJws parts.issuerJwt = .ok jws ∧ jws.payload.get "cnf" = .obj cnf ∧
    Dict.get cnf "jwk" = .obj holderJwk ∧ SdJwt.decodeJws parts.kbJwt = .ok kb ∧
    kb.header.get "alg" = .str alg ∧
    verifySignature C alg holderJwk kb.signingInput kb.signature = .ok true ∧
    kb.payload.get "aud" = .str aud ∧ kb.payload.get "nonce" = .str nonce

/-- A VP-JWT is signed by the key that was obtained for its holder, for an audience and a nonce. -/
def VpSignedBy (H : Host) (resolver : Did.DidResolver) (vpJwt holder aud nonce : Str) : Prop :=
  ∃ jws jwk alg, parseCompact vpJwt = .ok jws ∧
    ObtainedFor (VpJwt.holderSources H resolver) vpJwt holder (jws.header.get "kid") none jwk ∧
    VcJwt.permittedAlg allowedAlgs jws.header = some alg ∧
    verifySignature H.crypto alg jwk jws.signingInput jws.signature = .ok true ∧
    VpJwt.audIncludes (jws.payload.get "aud") aud = true ∧ jws.payload.get "nonce" = .str nonce

/-- An LDP presentation has an `authentication` proof for an audience and a nonce, verified under the
key of its `verificationMethod`, and the DID of that method is the holder. -/
def LdpSignedBy (H : Host) (resolver : Did.DidResolver) (leeway : Int) (vp : Dict)
    (policy : DiPolicy) (verified : VerifiedDi) (holder aud nonce : Str) : Prop :=
  ∃ suite jwk method document, verified.proof.get "verificationMethod" = .str method ∧
    Str.beforeFirst 35 method = holder ∧
    didDocument H.crypto (some resolver) method holder = .ok document ∧
    documentKey document method (lit "authentication") = .ok jwk ∧
    (∀ r, verifyDiSuite H suite leeway vp (some jwk) r policy = .ok verified) ∧
    vp.get "proof" = .obj verified.proof ∧
    verified.proof.get "proofPurpose" = .str (lit "authentication") ∧
    verified.proof.get "challenge" = .str nonce ∧
    domainIncludes (verified.proof.get "domain") aud = true

/-- The credentials of a presentation are the results of verifying the items it embeds, in order. -/
def VerifiesEach (verify : Json → Nat → Result VerificationResult) (items : List Json)
    (credentials : List (Credential M)) : Prop :=
  ∃ results, List.Forall₂ (fun item result => verify item.1 item.2 = .ok result) items.zipIdx results ∧
    credentials = results.map .w3c

/-- The doctype that the `meta` of a query asks for. -/
def doctypeAsked (query : Dict) : Option Str :=
  ((query.get "meta").obj?.bind fun m => Dict.get? m "doctype_value").bind Json.str?

/-- How a holder signed the presentation at a place of the response for this request, and what was
verified there. -/
inductive HolderSigned (call : Call H M) (d : Durations) (n : Nat) (query : Dict)
    (presentation : Json) (r : VerifiedPresentation M) : Prop
  | sdJwt (sdJwt aud : Str) (result : VerificationResult) (hp : presentation = .str sdJwt)
      (hf : r.format = .sdJwtVc) (hh : r.holder = result.subject) (ha : call.Audience aud)
      (h : KeyBoundTo H.crypto sdJwt aud call.nonce)
      (hv : verifyCredential (call.jose n 0)
        { lanePolicy call d (requiresBinding query) with
          audience := some aud, nonce := some call.nonce } none presentation = .ok result)
      (hk : result.keyBound = some true) (hr : r.credentials = [.w3c result])
      (hraw : r.raw = .credential result.raw)
  | vpJwt (vpJwt aud : Str) (verified : VpJwt.Verified) (hp : presentation = .str vpJwt)
      (hf : r.format = .jwtVc) (hh : r.holder = .str verified.holder) (ha : call.Audience aud)
      (h : VpSignedBy H call.resolver vpJwt verified.holder aud call.nonce)
      (hv : VpJwt.verify H d.leewayS call.resolver (call.jose n)
        (lanePolicy call d (requiresBinding query))
        ⟨aud, call.nonce, none, none, call.requireHolderBinding⟩ vpJwt = .ok verified)
      (hr : r.credentials = verified.credentials.map .w3c) (hraw : r.raw = .vpJwt verified)
  | ldpVp (vp : Dict) (holder aud : Str) (verified : VerifiedDi) (hp : presentation = .obj vp)
      (hf : r.format = .ldpVc) (hh : r.holder = .str holder) (ha : call.Audience aud)
      (h : LdpSignedBy call.host call.resolver d.leewayS vp (ldpVpPolicy call aud) verified holder
        aud call.nonce)
      (hr : VerifiesEach (fun vc c => verifyCredential (call.linked n c)
        (lanePolicy call d (requiresBinding query)) (some (aud, call.nonce)) vc)
        (embeddedItems vp) r.credentials) (hraw : r.raw = .ldpVp verified)
  | mdoc (text origin : Str) (origins : List Str) (anchors : List M.Anchor)
      (response transcript : Bytes) (documents : List M.Document) (hp : presentation = .str text)
      (hf : r.format = .msoMdoc) (hd : Codec.b64urlDecodePadded text = some response)
      (ho : call.expectedOrigins = some origins) (hm : origin ∈ origins)
      (ha : call.trustAnchors = some anchors)
      (ht : dcapiSessionTranscript H.crypto origin call.nonce call.mdocJwkThumbprint =
        .ok transcript)
      (hv : M.verifyDeviceResponse response anchors transcript call.now call.leewayS
        (doctypeAsked query) = .ok documents)
      (hr : r.credentials = documents.map .mdoc) (hraw : r.raw = .mdoc documents)

/-- A presentation without a holder's proof: an SD-JWT without a KB-JWT, or a bare credential, which
is verified as any credential is. -/
inductive Unsigned (call : Call H M) (d : Durations) (n : Nat) (presentation : Json)
    (r : VerifiedPresentation M) : Prop
  | sdJwt (sdJwt aud : Str) (parts : SdJwt.Parts) (result : VerificationResult)
      (hp : presentation = .str sdJwt) (hf : r.format = .sdJwtVc) (hh : r.holder = result.subject)
      (hs : SdJwt.split sdJwt = .ok parts) (hk : parts.kbJwt = [])
      (hv : verifyCredential (call.jose n 0)
        { lanePolicy call d false with audience := some aud, nonce := some call.nonce } none
        presentation = .ok result)
      (hr : r.credentials = [.w3c result]) (hraw : r.raw = .credential result.raw)
  | bare (result : VerificationResult) (hh : r.holder = .null) (hf : result.format ≠ .sdJwtVc)
      (hq : call.requireHolderBinding = false)
      (hv : verifyCredential (call.linked n 0) (lanePolicy call d false) none presentation =
        .ok result)
      (hr : r.credentials = [.w3c result]) (hraw : r.raw = .credential result.raw)

/-- A result is bound to a holder: an SD-JWT by its KB-JWT, any other by its one subject. -/
def ResultBound (holder : Json) (result : VerificationResult) : Prop :=
  if result.format = .sdJwtVc then result.keyBound = some true
  else (∀ l, result.credential.get "credentialSubject" ≠ .arr l) ∧
    ∃ h, h ≠ [] ∧ holder = .str h ∧ result.subject = .str h

/-- A credential of a presentation is bound to its holder; an mdoc is by its device key. -/
def CredentialBound (holder : Json) : Credential M → Prop
  | .w3c result => ResultBound holder result
  | .mdoc _ => True

/-- A query waives cryptographic holder binding. -/
def Waived (query : Dict) : Prop :=
  query.get? "require_cryptographic_holder_binding" = some (.bool false)

/-- What holds of a result and the presentation at a place of the response that it came from. -/
structure Accepted (call : Call H M) (d : Durations) (n : Nat) (query : Dict) (presentation : Json)
    (r : VerifiedPresentation M) : Prop where
  signed : HolderSigned call d n query presentation r ∨
    Waived query ∧ Unsigned call d n presentation r
  bound : (∀ c ∈ r.credentials, CredentialBound r.holder c) ∨ Waived query

theorem waived_of_not_requiresBinding
    (hb : ∃ b, flag query "require_cryptographic_holder_binding" true = .bool b)
    (h : requiresBinding query = false) : Waived query := by
  by_contra hne
  have := flag_true_of_ne hb hne
  rw [requiresBinding, this] at h
  cases h

/-! ## The SD-JWT lane -/

theorem verifySdJwt_of_verifyCredential {S : Sources H} {policy : Policy}
    {kbBinding : Option (Str × Str)} {text : Str} {result : VerificationResult}
    (ht : text.contains 126 = true)
    (h : verifyCredential S policy kbBinding (.str text) = .ok result) :
    ∃ verifyInner, verifySdJwt S policy verifyInner kbBinding text = .ok result := by
  unfold verifyCredential verifyAt at h
  obtain ⟨⟨⟩, -, h⟩ := bind_eq_ok.mp h
  obtain ⟨detected, hd, h⟩ := bind_eq_ok.mp h
  rw [detectFormat, if_pos ht] at hd
  cases hd
  exact ⟨_, h⟩

theorem keyBoundTo_of_run {I : Interpreter} {C : Crypto} {suite : SdJwt.Suite} {text nonce : Str}
    {jwk : Dict} {policy : SdJwt.Policy} {checkTemporal : Bool} {v : SdJwt.Verified}
    (run : SdJwt.Run I C suite text jwk policy checkTemporal v) (hb : v.keyBound = true)
    (ha : policy.audience = some aud) (hn : policy.nonce = some nonce) :
    KeyBoundTo C text aud nonce := by
  obtain ⟨b⟩ := run.bound hb
  obtain ⟨hjws, -⟩ := SdJwt.openIssuerJwt_eq_ok run.signed
  exact ⟨run.parts, run.jws, b.holder, b.holderJwk, b.kb, b.alg, run.split, hjws, b.confirmation,
    b.named, b.decoded, Json.str?_eq_some.mp (Option.filter_eq_some_iff.mp b.permitted).1, b.signed,
    b.audience aud ha, b.nonce nonce hn⟩

theorem verifySdJwtVc_accepted {values : Option (List Str)} (ha : call.Audience aud)
    (hw : requiresBinding query = false → Waived query)
    (h : verifySdJwtVc call d n id values presentation (requiresBinding query) aud = .ok r) :
    Accepted call d n query presentation r := by
  simp only [verifySdJwtVc, bind_eq_ok, orRaise_eq_ok, raiseIf_eq_ok, pure_eq_ok] at h
  obtain ⟨text, htext, ⟨⟩, htilde, result, hrun, ⟨⟩, hformat, verified, -, ⟨⟩, -, rfl⟩ := h
  obtain rfl : presentation = .str text := Json.str?_eq_some.mp htext
  have hformat : result.format = .sdJwtVc := by simpa using hformat
  have hv := hrun
  obtain ⟨inner, hsd⟩ := verifySdJwt_of_verifyCredential (by simpa using htilde) hrun
  simp only [verifySdJwt, bind_eq_ok, pure_eq_ok] at hsd
  obtain ⟨⟨iss, kid⟩, -, jwk, -, expected, hexp, v, hverify, ⟨⟩, -, status, -, schema, -, rfl⟩ := hsd
  cases hexp
  obtain ⟨run⟩ := SdJwt.verify_eq_ok.mp hverify
  cases hb : v.keyBound with
  | true =>
    refine ⟨.inl (.sdJwt text aud _ rfl rfl rfl ha (keyBoundTo_of_run run hb rfl rfl) hv
      (congrArg some hb) rfl rfl), .inl ?_⟩
    intro c hc
    obtain rfl := List.mem_singleton.mp hc
    rw [CredentialBound, ResultBound, if_pos hformat]
    exact congrArg some hb
  | false =>
    have hreq : requiresBinding query = false := by
      by_contra hne
      have hrequired : requiresBinding query = true := by simpa using hne
      have hkb := run.keyBound hrequired
      rw [hb] at hkb
      cases hkb
    rw [hreq] at hv
    exact ⟨.inr ⟨hw hreq, .sdJwt text aud run.parts _ rfl rfl rfl run.split (run.kbJwt_eq_nil hb) hv
      rfl rfl⟩, .inr (hw hreq)⟩

/-! ## The presentation lanes -/

theorem truthy_str {s : Str} : (Json.str s).truthy = true ↔ s ≠ [] := by
  cases s <;> simp [Json.truthy]

theorem credentialBound_of_check {holder : Str} {result : VerificationResult}
    (h : checkCredentialBound id (.str holder) result = .ok ()) :
    ResultBound (.str holder) result := by
  unfold checkCredentialBound at h
  unfold ResultBound
  split at h
  · rename_i hf
    rw [if_pos hf]
    simpa [raiseIf_eq_ok] using h
  · rename_i hf
    rw [if_neg hf]
    simp only [bind_eq_ok, raiseIf_eq_ok, Bool.or_eq_false_iff, Bool.not_eq_false'] at h
    obtain ⟨⟨⟩, harr, ⟨hholder, -⟩, heq⟩ := h
    refine ⟨fun l hl => ?_, holder, truthy_str.mp hholder, rfl, Json.pyEq_str_right.mp heq⟩
    rw [hl] at harr
    cases harr

theorem bound_of_checkHolderBound {holder : Str} {credentials : List VerificationResult}
    (hw : requiresBinding query = false → Waived query)
    (h : checkHolderBound (requiresBinding query) id credentials (.str holder) = .ok ()) :
    (∀ c ∈ credentials.map (Credential.w3c (M := M)), CredentialBound (.str holder) c) ∨
      Waived query := by
  unfold checkHolderBound at h
  split at h
  · refine .inl fun c hc => ?_
    obtain ⟨result, hr, rfl⟩ := List.mem_map.mp hc
    exact credentialBound_of_check (each_eq_ok.mp h result hr)
  · rename_i hreq
    exact .inr (hw (by simpa using hreq))

theorem vpSignedBy_of_verify {resolver : Did.DidResolver} {sources : Nat → Sources H}
    {policy : Policy} {leeway : Int} {nonce text : Str} {eh : Option Str} {rhb : Bool}
    {v : VpJwt.Verified}
    (h : VpJwt.verify H leeway resolver sources policy ⟨aud, nonce, none, eh, rhb⟩ text = .ok v) :
    VpSignedBy H resolver text v.holder aud nonce := by
  obtain ⟨run⟩ := VpJwt.run_of_verify h
  exact ⟨run.jws, run.jwk, run.alg, run.parsed, obtainedFor_of_resolveJoseKey run.key,
    run.permitted, run.signed, run.audience, run.nonce⟩

theorem verifyJwtVp_accepted (ha : call.Audience aud)
    (hw : requiresBinding query = false → Waived query)
    (h : verifyJwtVp call d n id types presentation (requiresBinding query) aud = .ok r) :
    Accepted call d n query presentation r := by
  simp only [verifyJwtVp, bind_eq_ok, orRaise_eq_ok, raiseIf_eq_ok, pure_eq_ok] at h
  obtain ⟨text, htext, verified, hverify, ⟨⟩, -, ⟨⟩, hbound, ⟨⟩, -, rfl⟩ := h
  exact ⟨.inl (.vpJwt text aud verified (Json.str?_eq_some.mp htext) rfl rfl ha
    (vpSignedBy_of_verify hverify) hverify rfl rfl), bound_of_checkHolderBound hw hbound⟩

theorem readLdpVp_eq_ok {vp : Dict} {suite : DiSuite}
    (h : readLdpVp id presentation = .ok (vp, suite)) :
    presentation = .obj vp ∧ suite ≠ .ecdsaSd := by
  simp only [readLdpVp, bind_eq_ok, orRaise_eq_ok, pure_eq_ok, Prod.mk.injEq] at h
  obtain ⟨vp', hvp, ⟨⟩, -, proof, -, suite', hsuite, rfl, rfl⟩ := h
  refine ⟨?_, by simpa using (Option.filter_eq_some_iff.mp hsuite).2⟩
  unfold ldpObject at hvp
  split at hvp
  · cases hvp
  · exact Json.obj?_eq_some.mp (orRaise_eq_ok.mp hvp)

/-- What a proof that passed the policy of the lane is for. -/
theorem ldpVpPolicy_eq_ok {proof : Dict}
    (h : checkProofPurpose proof (ldpVpPolicy call aud).expectedProofPurpose = .ok () ∧
      checkPresentationBinding proof (ldpVpPolicy call aud).expectedChallenge
        (ldpVpPolicy call aud).expectedDomain = .ok ()) :
    proof.get "proofPurpose" = .str (lit "authentication") ∧
      proof.get "challenge" = .str call.nonce ∧ domainIncludes (proof.get "domain") aud = true := by
  obtain ⟨hpurpose, hbinding⟩ := h
  simp only [checkProofPurpose, raiseIf_eq_ok] at hpurpose
  simp only [checkPresentationBinding, bind_eq_ok, raiseIf_eq_ok] at hbinding
  obtain ⟨⟨⟩, hchallenge, hdomain⟩ := hbinding
  exact ⟨SdJwt.eq_of_not_any_ne hpurpose _ rfl, SdJwt.eq_of_not_any_ne hchallenge _ rfl,
    by simpa [ldpVpPolicy] using hdomain⟩

theorem ldpSignedBy_of_verify {H : Host} {resolver : Did.DidResolver} {suite : DiSuite}
    {leeway : Int} {vp : Dict} {policy : DiPolicy} {verified : VerifiedDi} {nonce : Str}
    (h : verifyDiSuite H suite leeway vp none (some resolver) policy = .ok verified)
    (hpurpose : verified.proof.get "proofPurpose" = .str (lit "authentication"))
    (hchallenge : verified.proof.get "challenge" = .str nonce)
    (hdomain : domainIncludes (verified.proof.get "domain") aud = true) :
    ∃ holder, authenticatedHolder verified.proof = some holder ∧
      LdpSignedBy H resolver leeway vp policy verified holder aud nonce := by
  obtain ⟨hproof, jwk, hne, hkey, hrun⟩ := verifyDiSuite_usesKey h
  obtain ⟨method, document, hmethod, hdoc, hdocKey⟩ := resolveVerificationKey_eq_ok hkey
  rw [hpurpose] at hdocKey
  refine ⟨Str.beforeFirst 35 method, ?_, suite, jwk, method, document, hmethod, rfl, hdoc,
    hdocKey, fun r => hrun (some jwk) r (diKey_pinned hne r), hproof, hpurpose, hchallenge, hdomain⟩
  rw [authenticatedHolder, hmethod]
  rfl

theorem verifyLdpVp_accepted (ha : call.Audience aud)
    (hw : requiresBinding query = false → Waived query)
    (h : verifyLdpVp call d n id types presentation (requiresBinding query) aud = .ok r) :
    Accepted call d n query presentation r := by
  simp only [verifyLdpVp, bind_eq_ok, pure_eq_ok] at h
  obtain ⟨⟨vp, suite⟩, hread, verified, hverify, holder, hholder, vcs, hvcs, credentials, hcredentials,
    ⟨⟩, hbound, ⟨⟩, -, ⟨⟩, -, rfl⟩ := h
  obtain ⟨rfl, hsuite⟩ := readLdpVp_eq_ok hread
  obtain ⟨hpurpose, hchallenge, hdomain⟩ := ldpVpPolicy_eq_ok (verifyDiSuite_policy hsuite hverify)
  obtain ⟨did, hdid, hsigned⟩ := ldpSignedBy_of_verify hverify hpurpose hchallenge hdomain
  simp only [vpHolder, bind_eq_ok, pure_eq_ok, hdid] at hholder
  obtain ⟨⟨⟩, -, rfl⟩ := hholder
  simp only [embeddedVcs, bind_eq_ok, pure_eq_ok] at hvcs
  obtain ⟨⟨⟩, -, ⟨⟩, -, rfl⟩ := hvcs
  exact ⟨.inl (.ldpVp vp did aud verified rfl rfl rfl ha hsigned
    ⟨credentials, collect_eq_ok.mp hcredentials, rfl⟩ rfl), bound_of_checkHolderBound hw hbound⟩

/-! ## Bare credentials and mdocs -/

theorem verifyVcLane_accepted {fmt : Format} (hw : requiresBinding query = false → Waived query)
    (h : verifyVcLane call d n id query fmt types presentation = .ok r) :
    Accepted call d n query presentation r := by
  simp only [verifyVcLane, verifyBareW3cVc, bind_eq_ok, raiseIf_eq_ok, pure_eq_ok] at h
  obtain ⟨⟨⟩, hreq, ⟨⟩, hholder, result, hresult, ⟨⟩, hformat, ⟨⟩, -, rfl⟩ := h
  refine ⟨.inr ⟨hw hreq, .bare result rfl ?_ hholder hresult rfl rfl⟩, .inr (hw hreq)⟩
  intro hf
  rw [hf] at hformat
  cases hformat

/-- The documents that were returned verified under the transcript of one of the origins. -/
theorem tryOrigins_eq_ok {verifyAt : Str → Result (List M.Document)} {last : Option Err}
    {origins : List Str} {documents : List M.Document}
    (h : tryOrigins verifyAt last origins = .ok documents) :
    ∃ origin ∈ origins, verifyAt origin = .ok documents := by
  induction origins generalizing last with
  | nil => cases last <;> cases h
  | cons origin origins ih =>
    cases hat : verifyAt origin with
    | ok documents' =>
      simp only [tryOrigins, hat, Except.ok.injEq] at h
      exact ⟨origin, List.mem_cons_self, h ▸ hat⟩
    | error e =>
      simp only [tryOrigins, hat] at h
      split at h
      · obtain ⟨o, ho, hat'⟩ := ih h
        exact ⟨o, List.mem_cons_of_mem _ ho, hat'⟩
      · cases h

theorem mdocDoctypeValue_eq_ok {doctype : Option Str}
    (h : mdocDoctypeValue id query = .ok doctype) : doctype = doctypeAsked query := by
  obtain ⟨m, hm, h⟩ := bind_eq_ok.mp h
  have hm := orRaise_eq_ok.mp hm
  have hasked : doctypeAsked query = (Dict.get? m "doctype_value").bind Json.str? := by
    rw [doctypeAsked, Dict.get]
    cases hmeta : query.get? "meta" with
    | none =>
      rw [hmeta] at hm
      cases hm
      rfl
    | some v =>
      rw [hmeta] at hm
      rw [Option.getD_some] at hm ⊢
      rw [hm, Option.bind_some]
  rw [hasked]
  cases hvalue : Dict.get? m "doctype_value" with
  | none =>
    rw [hvalue] at h
    exact (pure_eq_ok.mp h).symm
  | some v =>
    simp only [hvalue] at h
    cases htext : v.str?.filter (!·.isEmpty) with
    | none =>
      rw [htext] at h
      cases h
    | some text =>
      rw [htext] at h
      cases h
      exact (Option.filter_eq_some_iff.mp htext).1.symm

theorem verifyMsoMdoc_accepted (h : verifyMsoMdoc call id query presentation = .ok r) :
    Accepted call d n query presentation r := by
  simp only [verifyMsoMdoc, bind_eq_ok, orRaise_eq_ok, pure_eq_ok] at h
  obtain ⟨origins, horigins, anchors, hanchors, text, htext, doctype, hdoctype, response, hresponse,
    documents, htry, rfl⟩ := h
  obtain rfl := mdocDoctypeValue_eq_ok hdoctype
  obtain ⟨origin, hmem, hat⟩ := tryOrigins_eq_ok htry
  obtain ⟨transcript, htranscript, hverify⟩ := bind_eq_ok.mp hat
  refine ⟨.inl (.mdoc text origin origins anchors response transcript documents
    (Json.str?_eq_some.mp htext) rfl hresponse horigins hmem hanchors htranscript hverify rfl rfl),
    .inl fun c hc => ?_⟩
  obtain ⟨document, -, rfl⟩ := List.mem_map.mp hc
  exact trivial

/-! ## The response -/

theorem verifyW3c_accepted {fmt : Format}
    (hauds : dcApiAcceptedAuds call.clientId call.expectedOrigins = .ok auds)
    (hw : requiresBinding query = false → Waived query)
    (h : verifyW3c call d auds n id query fmt presentation = .ok r) :
    Accepted call d n query presentation r := by
  unfold verifyW3c at h
  obtain ⟨types, -, h⟩ := bind_eq_ok.mp h
  obtain ⟨shape, -, h⟩ := bind_eq_ok.mp h
  cases shape with
  | vc => exact verifyVcLane_accepted hw h
  | vp =>
    obtain ⟨aud, haud, h⟩ := bind_eq_ok.mp h
    have ha := audience_of_effectiveAudience hauds haud
    split at h
    · exact verifyJwtVp_accepted ha hw h
    · exact verifyLdpVp_accepted ha hw h

theorem verifyOne_accepted
    (hauds : dcApiAcceptedAuds call.clientId call.expectedOrigins = .ok auds)
    (hw : requiresBinding query = false → Waived query)
    (h : verifyOne call d auds n id query presentation = .ok r) :
    Accepted call d n query presentation r := by
  unfold verifyOne at h
  dsimp only at h
  split at h
  · exact verifyMsoMdoc_accepted h
  · obtain ⟨values, -, h⟩ := bind_eq_ok.mp h
    obtain ⟨aud, haud, h⟩ := bind_eq_ok.mp h
    exact verifySdJwtVc_accepted (audience_of_effectiveAudience hauds haud) hw h
  · exact verifyW3c_accepted hauds hw h
  · obtain ⟨-, -, h⟩ := bind_eq_ok.mp h
    cases h

theorem verifyOne_named (h : verifyOne call d auds n id query presentation = .ok r) :
    r.queryId = id ∧ (query.get "format").str?.bind Format.ofName = some r.format := by
  have hname : ∀ {f}, Format.ofName ((query.get "format").str?.getD []) = some f →
      (query.get "format").str?.bind Format.ofName = some f := by
    intro f hf
    cases hstr : (query.get "format").str? with
    | none =>
      rw [hstr] at hf
      cases hf
    | some name =>
      rw [hstr] at hf
      exact hf
  unfold verifyOne at h
  dsimp only at h
  split at h
  · rename_i hfmt
    simp only [verifyMsoMdoc, bind_eq_ok, pure_eq_ok] at h
    obtain ⟨-, -, -, -, -, -, -, -, -, -, -, -, rfl⟩ := h
    exact ⟨rfl, hname hfmt⟩
  · rename_i hfmt
    simp only [verifySdJwtVc, bind_eq_ok, pure_eq_ok] at h
    obtain ⟨-, -, -, -, -, -, -, -, -, -, -, -, -, -, -, -, rfl⟩ := h
    exact ⟨rfl, hname hfmt⟩
  · rename_i fmt hmdoc hsdJwt hfmt
    unfold verifyW3c at h
    obtain ⟨types, -, h⟩ := bind_eq_ok.mp h
    obtain ⟨shape, -, h⟩ := bind_eq_ok.mp h
    cases shape with
    | vc =>
      simp only [verifyVcLane, verifyBareW3cVc, bind_eq_ok, pure_eq_ok] at h
      obtain ⟨-, -, -, -, -, -, -, -, -, -, rfl⟩ := h
      exact ⟨rfl, hname hfmt⟩
    | vp =>
      obtain ⟨aud, -, h⟩ := bind_eq_ok.mp h
      split at h
      · rename_i hjwt
        simp only [verifyJwtVp, bind_eq_ok, pure_eq_ok] at h
        obtain ⟨-, -, -, -, -, -, -, -, -, -, rfl⟩ := h
        exact ⟨rfl, hjwt ▸ hname hfmt⟩
      · rename_i hjwt
        simp only [verifyLdpVp, bind_eq_ok, pure_eq_ok] at h
        obtain ⟨-, -, -, -, -, -, -, -, -, -, -, -, -, -, -, -, rfl⟩ := h
        -- the only format left
        cases fmt with
        | sdJwtVc => exact (hsdJwt rfl).elim
        | jwtVc => exact (hjwt rfl).elim
        | ldpVc => exact ⟨rfl, hname hfmt⟩
        | msoMdoc => exact (hmdoc rfl).elim
  · obtain ⟨-, -, h⟩ := bind_eq_ok.mp h
    cases h

/-- What an accepted response satisfies. -/
structure Answered (call : Call H M) (token dcql : Dict) (results : List (VerifiedPresentation M)) :
    Prop where
  /-- Every id answered is in the query, by one Credential Query. -/
  queried : ∀ item ∈ token, ∃ query, Queried dcql item.1 query ∧
    ∀ query', Queried dcql item.1 query' → query' = query
  complete : Complete token dcql
  /-- An id is answered by an array, of one presentation unless its query allows several. -/
  single : ∀ item ∈ token, ∀ query, Queried dcql item.1 query →
    ∃ presentations, item.2 = .arr presentations ∧
      (query.get? "multiple" ≠ some (.bool true) → presentations.length = 1)
  /-- The results pair with the presentations, in order. -/
  paired : ∃ d, checkDurations call.leewayS call.kbMaxAgeS = .ok d ∧
    List.Forall₂ (fun answer r => r.queryId = answer.1.1 ∧ ∃ query,
      Queried dcql answer.1.1 query ∧
      (query.get "format").str?.bind Format.ofName = some r.format ∧
      Accepted call d answer.2 query answer.1.2 r) (answers token).zipIdx results

theorem multiple_of_truthy (hb : ∃ b, flag query "multiple" false = .bool b)
    (h : query.get? "multiple" ≠ some (.bool true)) :
    (flag query "multiple" false).truthy = false := by
  obtain ⟨b, hb⟩ := hb
  cases b with
  | false => rw [hb]; rfl
  | true =>
    unfold flag at hb
    cases hg : query.get? "multiple" with
    | none => rw [hg] at hb; cases hb
    | some v =>
      rw [hg] at hb
      exact absurd (hg.trans (congrArg some hb)) h

/-- If `verify_vp_token` returns, the response answers what the query requires and only what it asks
for, its results pair with its presentations, each holder's proof is for the request's nonce and one
of its audiences, and what is not bound to a holder answers a query that waived the binding. -/
theorem verifyVpToken_answered (H : Host) (M : Mdoc) (call : Call H M) (vpToken : Json)
    (results : List (VerifiedPresentation M)) (h : verifyVpToken call vpToken = .ok results) :
    ∃ token dcql, parseVpToken vpToken = .ok token ∧ call.dcqlQuery = .obj dcql ∧
      Answered call token dcql results := by
  simp only [verifyVpToken, bind_eq_ok, raiseIf_eq_ok] at h
  obtain ⟨d, hd, ⟨⟩, -, auds, hauds, token, htoken, ⟨⟩, -, ⟨dcql, queries⟩, hindex, ⟨⟩, hcomplete,
    hrun⟩ := h
  obtain ⟨hdcql, ⟨credentials, hcred, hall⟩, hnodup, hsets⟩ := indexDcql_eq_ok hindex
  obtain ⟨hitems, hpaired⟩ := verifyItems_paired hrun
  refine ⟨token, dcql, htoken, hdcql, ⟨?_, ?_, ?_, ?_⟩⟩
  · intro item hitem
    obtain ⟨query, -, hq, -⟩ := hitems item hitem
    have hqueried := (queried_of_lookup hcred hall hq).1
    exact ⟨query, hqueried, fun query' h' => Queried.unique hcred hall hnodup h' hqueried⟩
  · exact complete_of_checkCompleteness hcred hall hsets hcomplete
  · intro item hitem query hquery
    obtain ⟨query', presentations, hq, hp⟩ := hitems item hitem
    obtain ⟨hqueried, hindexed⟩ := queried_of_lookup hcred hall hq
    obtain rfl := Queried.unique hcred hall hnodup hquery hqueried
    obtain ⟨harr, hone⟩ := presentationList_eq_ok hp
    exact ⟨presentations, harr, fun hm => hone (multiple_of_truthy hindexed.multiple hm)⟩
  · refine ⟨d, hd, hpaired.imp fun answer r hr => ?_⟩
    obtain ⟨query, hq, hone⟩ := hr
    obtain ⟨hqueried, hindexed⟩ := queried_of_lookup hcred hall hq
    obtain ⟨hid, hformat⟩ := verifyOne_named hone
    exact ⟨hid, query, hqueried, hformat,
      verifyOne_accepted hauds (waived_of_not_requiresBinding hindexed.binding) hone⟩

/-- A host where the issuer and the holder of the bound credential signed it. -/
def boundHost : Host :=
  { cardHost 1800000001 with I := .atSecond 1800000001 [], crypto := SdJwt.boundCrypto }

/-- A verifier that asks for one SD-JWT VC, without mdocs or JSON-LD. -/
def boundCall : Call boundHost ⟨Unit, Unit, fun _ _ _ _ _ _ => raise .mdocError "" []⟩ where
  dcqlQuery := .obj [("credentials",
    .arr [.obj [("id", .str (lit "q")), ("format", .str (lit "dc+sd-jwt"))]])]
  nonce := "n-1"
  clientId := some "rp"
  resolver := cardResolver
  sources _ _ := ⟨cardResolver, none, none, none, none, none⟩
  extraContexts := (cardHost 1800000001).jsonLd
  expand := none

/-- The bound credential, presented for that query. -/
theorem verifyVpToken_answered_bound :
    ∃ results token dcql,
      verifyVpToken boundCall (.obj [("q",
        .arr [.str (SdJwt.boundCredential ++ 126 :: SdJwt.kbJwt)])]) = .ok results ∧
      results.map (·.queryId) = [lit "q"] ∧ Answered boundCall token dcql results := by
  obtain ⟨results, h, hids⟩ := exists_ok_of_map
    (x := verifyVpToken boundCall (.obj [("q",
      .arr [.str (SdJwt.boundCredential ++ 126 :: SdJwt.kbJwt)])]))
    (f := List.map (·.queryId)) (c := [lit "q"]) (by decide +kernel)
  obtain ⟨token, dcql, -, -, hanswered⟩ := verifyVpToken_answered _ _ boundCall _ results h
  exact ⟨results, token, dcql, h, hids, hanswered⟩

end OpenVC.OpenId4Vp
