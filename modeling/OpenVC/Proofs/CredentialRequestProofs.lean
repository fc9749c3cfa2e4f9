import OpenVC.CredentialRequest
import OpenVC.Logic.SingleUse
import OpenVC.Proofs.ErrorsProofs
import OpenVC.Python.Interleaving

/-!
# Key proofs: single-use nonces

A Credential Request is verified in full before its nonce is consumed, and consuming it is the last
thing a call does. So a call that returns has consumed one nonce, the one its proofs carry, and a call
whose proofs fail any check has consumed none, whatever other calls do to the store meanwhile.
-/

namespace OpenVC.OpenId4Vci

open Python

variable {E : Env} {call : Call E} {entry : Str × Nat} {input : RequestInput}

/-! ## One proof -/

/-- The key that a proof names: the only key parameter of its header, followed to a JWK. -/
inductive Gives (call : Call E) (header : Dict) (alg : Str)
    (attestation : Option UnverifiedKeyAttestation) (index : Nat) : Dict → Prop
  | jwk (jwk : Dict) (hparam : presentParams header = [lit "jwk"])
      (hjwk : header.get "jwk" = .obj jwk) : Gives call header alg attestation index jwk
  | x5c (chain : X5c.Chain E.x509.toX509) (jwk : Dict)
      (hparam : presentParams header = [lit "x5c"])
      (hchain : X5c.loadX5cChain E.x509.toX509 (header.get "x5c") = .ok chain)
      (hjwk : X5c.leafPublicJwk E.x509 chain.1 = .ok jwk) :
      Gives call header alg attestation index jwk
  | kid (kid : Str) (jwk : Dict) (refusal : Err) (hparam : presentParams header = [lit "kid"])
      (hkid : header.get "kid" = .str kid)
      (hjwk : resolveKid call ⟨kid, alg, header, attestation, call.credentialIssuer, index⟩ =
        .ok (.obj jwk, refusal)) : Gives call header alg attestation index jwk

variable {header jwk jwk' : Dict} {alg source : Str} {index : Nat}
  {attestation : Option UnverifiedKeyAttestation}

theorem Gives.unique (h : Gives call header alg attestation index jwk)
    (h' : Gives call header alg attestation index jwk') : jwk = jwk' := by
  cases h with
  | jwk _ hparam hjwk =>
    cases h' with
    | jwk _ _ hjwk' =>
      rw [hjwk] at hjwk'
      exact Json.obj.inj hjwk'
    | x5c chain _ hparam' _ _ => cases hparam.symm.trans hparam'
    | kid kid _ refusal hparam' _ _ => cases hparam.symm.trans hparam'
  | x5c chain _ hparam hchain hjwk =>
    cases h' with
    | jwk _ hparam' _ => cases hparam.symm.trans hparam'
    | x5c chain' _ _ hchain' hjwk' =>
      obtain rfl : chain = chain' := Except.ok.inj (hchain.symm.trans hchain')
      exact Except.ok.inj (hjwk.symm.trans hjwk')
    | kid kid _ refusal hparam' _ _ => cases hparam.symm.trans hparam'
  | kid kid _ refusal hparam hkid hjwk =>
    cases h' with
    | jwk _ hparam' _ => cases hparam.symm.trans hparam'
    | x5c chain _ hparam' _ _ => cases hparam.symm.trans hparam'
    | kid kid' _ refusal' _ hkid' hjwk' =>
      obtain rfl : kid = kid' := Json.str.inj (hkid.symm.trans hkid')
      cases hjwk.symm.trans hjwk'
      rfl

theorem onlyOne_eq_some {l : List Str} : onlyOne l = some source ↔ l = [source] := by
  constructor
  · intro h
    match l, h with
    | [_], h => rw [Option.some.inj h]
  · rintro rfl
    rfl

/-- `_proof_key` returns the key that the header names, bound to its algorithm. -/
theorem proofKey_eq_ok (h : proofKey call header alg attestation index = .ok (jwk, source)) :
    Gives call header alg attestation index jwk ∧ checkKeyBindsToAlg jwk alg = .ok () := by
  simp only [proofKey, bind_eq_ok, orRaise_eq_ok, onlyOne_eq_some, pure_eq_ok, Prod.mk.injEq] at h
  obtain ⟨_, hparam, _, hkey, rfl, rfl⟩ := h
  unfold keyOfSource at hkey
  split at hkey
  · rename_i hsource
    subst hsource
    simp only [headerJwk, bind_eq_ok, orRaise_eq_ok, raiseIf_eq_ok, pure_eq_ok,
      Json.obj?_eq_some] at hkey
    obtain ⟨found, hjwk, ⟨⟩, -, ⟨⟩, hbinds, rfl⟩ := hkey
    exact ⟨.jwk _ hparam hjwk, hbinds⟩
  · split at hkey
    · rename_i hsource
      subst hsource
      simp only [headerX5c, bind_eq_ok, raiseIf_eq_ok, pure_eq_ok] at hkey
      obtain ⟨⟨⟩, -, chain, hchain, ⟨⟩, -, found, hjwk, ⟨⟩, hbinds, rfl⟩ := hkey
      exact ⟨.x5c chain _ hparam hchain hjwk, hbinds⟩
    · split at hkey
      · rename_i hsource
        subst hsource
        simp only [headerKid, bind_eq_ok, orRaise_eq_ok, pure_eq_ok, Prod.exists,
          Json.obj?_eq_some, Option.filter_eq_some_iff, Json.str?_eq_some] at hkey
        obtain ⟨kid, ⟨hkid, -⟩, _, refusal, hjwk, found, rfl, ⟨⟩, hbinds, rfl⟩ := hkey
        exact ⟨.kid kid _ refusal hparam hkid hjwk, hbinds⟩
      · cases hkey

/-- What was checked of a proof that was accepted. -/
structure Checked (call : Call E) (entry : Str × Nat) (p : VerifiedProof) (jws : SdJwt.Jws)
    (attestation : Option UnverifiedKeyAttestation) : Prop where
  parse : Pipeline.parseCompact entry.1 = .ok jws
  typ : checkTyp jws.header = .ok ()
  alg : VcJwt.permittedAlg call.allowedAlgs jws.header = some p.alg
  crit : rejectUnknownCrit jws.header = .ok ()
  attestationJwt : headerAttestation jws.header = .ok p.keyAttestation
  parsed : parseAttestation p.keyAttestation = .ok attestation
  key : Gives call jws.header p.alg attestation entry.2 p.publicJwk
  proofKey : proofKey call jws.header p.alg attestation entry.2 = .ok (p.publicJwk, p.keySource)
  binds : checkKeyBindsToAlg p.publicJwk p.alg = .ok ()
  thumbprint : thumbprint E.crypto p.publicJwk "the key proof's key" = .ok p.thumbprint
  signature : verifySignature E.crypto p.alg p.publicJwk jws.signingInput jws.signature = .ok true
  audience : checkAudience (jws.payload.get "aud") call.credentialIssuer = .ok ()
  fresh : checkIatFreshness (jws.payload.get "iat") call.maxAgeS call.leewayS
    (.int (currentEpoch E.interpreter call.now)) "key proof" = .ok p.issuedAt
  temporal : ∃ expired, checkJwtTemporal E.interpreter jws.payload call.leewayS "key proof"
    (some (.int (currentEpoch E.interpreter call.now))) true = .ok expired
  client : checkClient jws.payload call.expectedClientId = .ok p.clientId
  nonce : readNonce jws.payload = .ok p.nonce

theorem verifyOneProof_eq_ok {p : VerifiedProof} (h : verifyOneProof call entry = .ok p) :
    ∃ jws attestation, Checked call entry p jws attestation := by
  simp only [verifyOneProof, verifyCompact, bind_eq_ok, orRaise_eq_ok, raiseIf_eq_ok,
    reraise_eq_ok, pure_eq_ok, Prod.exists] at h
  obtain ⟨jws, hparse, ⟨⟩, htyp, alg, halg, ⟨⟩, hcrit, text, htext, attestation, hattestation, ⟨⟩, -,
    jwk, source, hkey, tp, htp, ⟨⟩, -, _, ⟨jws', hparse', alg', halg', ⟨⟩, -, ok, hok, ⟨⟩, htrue,
    rfl⟩, ⟨⟩, haud, iat, hiat, expired, htemporal, client, hclient, nonce, hnonce, rfl⟩ := h
  obtain rfl : jws = jws' := Except.ok.inj (hparse.symm.trans hparse')
  obtain rfl : alg = alg' := Option.some.inj (halg.symm.trans halg')
  obtain rfl : ok = true := by simpa using htrue
  obtain ⟨hgives, hbinds⟩ := proofKey_eq_ok hkey
  exact ⟨jws, attestation, hparse, htyp, halg, hcrit, htext, hattestation, hgives, hkey, hbinds, htp,
    hok, haud, hiat, ⟨expired, htemporal⟩, hclient, hnonce⟩

/-! ## Requests that are refused -/

/-- The parts of a proof from which its key is found. -/
structure Reads (call : Call E) (entry : Str × Nat) (jws : SdJwt.Jws) (alg : Str)
    (attestation : Option UnverifiedKeyAttestation) : Prop where
  parse : Pipeline.parseCompact entry.1 = .ok jws
  alg : VcJwt.permittedAlg call.allowedAlgs jws.header = some alg
  attestation : ∃ text, headerAttestation jws.header = .ok text ∧
    parseAttestation text = .ok attestation

/-- A proof that fails a check. -/
inductive Faulty (call : Call E) (entry : Str × Nat) : Prop
  | malformed (h : ∀ jws, Pipeline.parseCompact entry.1 ≠ .ok jws)
  | header (jws : SdJwt.Jws) (hparse : Pipeline.parseCompact entry.1 = .ok jws)
      (h : checkTyp jws.header ≠ .ok () ∨ VcJwt.permittedAlg call.allowedAlgs jws.header = none ∨
        rejectUnknownCrit jws.header ≠ .ok ())
  | attestation (jws : SdJwt.Jws) (hparse : Pipeline.parseCompact entry.1 = .ok jws)
      (h : ∀ text attestation, headerAttestation jws.header = .ok text →
        parseAttestation text ≠ .ok attestation)
  | keyParams (jws : SdJwt.Jws) (hparse : Pipeline.parseCompact entry.1 = .ok jws)
      (h : (presentParams jws.header).length ≠ 1)
  | binding (jws : SdJwt.Jws) (alg : Str) (attestation : Option UnverifiedKeyAttestation)
      (jwk : Dict) (hreads : Reads call entry jws alg attestation)
      (hgives : Gives call jws.header alg attestation entry.2 jwk)
      (h : checkKeyBindsToAlg jwk alg ≠ .ok ())
  | signature (jws : SdJwt.Jws) (alg : Str) (attestation : Option UnverifiedKeyAttestation)
      (jwk : Dict) (hreads : Reads call entry jws alg attestation)
      (hgives : Gives call jws.header alg attestation entry.2 jwk)
      (h : verifySignature E.crypto alg jwk jws.signingInput jws.signature ≠ .ok true)
  | audience (jws : SdJwt.Jws) (hparse : Pipeline.parseCompact entry.1 = .ok jws)
      (h : checkAudience (jws.payload.get "aud") call.credentialIssuer ≠ .ok ())
  | freshness (jws : SdJwt.Jws) (hparse : Pipeline.parseCompact entry.1 = .ok jws)
      (h : ∀ iat, checkIatFreshness (jws.payload.get "iat") call.maxAgeS call.leewayS
        (.int (currentEpoch E.interpreter call.now)) "key proof" ≠ .ok iat)
  | temporal (jws : SdJwt.Jws) (hparse : Pipeline.parseCompact entry.1 = .ok jws)
      (h : ∀ expired, checkJwtTemporal E.interpreter jws.payload call.leewayS "key proof"
        (some (.int (currentEpoch E.interpreter call.now))) true ≠ .ok expired)
  | issuer (jws : SdJwt.Jws) (hparse : Pipeline.parseCompact entry.1 = .ok jws)
      (h : ∀ client, checkClient jws.payload call.expectedClientId ≠ .ok client)
  | nonce (jws : SdJwt.Jws) (hparse : Pipeline.parseCompact entry.1 = .ok jws)
      (h : ∀ nonce, readNonce jws.payload ≠ .ok nonce)

theorem Gives.one_param (h : Gives call header alg attestation index jwk) :
    (presentParams header).length = 1 := by
  cases h with
  | jwk _ hparam _ => rw [hparam, List.length_singleton]
  | x5c _ _ hparam _ _ => rw [hparam, List.length_singleton]
  | kid _ _ _ hparam _ _ => rw [hparam, List.length_singleton]

variable {p : VerifiedProof} {jws jws' : SdJwt.Jws}

theorem Checked.parse_unique (h : Checked call entry p jws attestation)
    (hparse : Pipeline.parseCompact entry.1 = .ok jws') : jws' = jws :=
  Except.ok.inj (hparse.symm.trans h.parse)

/-- The key of a checked proof is the one that its header gives. -/
theorem Checked.gives_unique {attestation' : Option UnverifiedKeyAttestation}
    (h : Checked call entry p jws attestation) (hreads : Reads call entry jws' alg attestation')
    (hgives : Gives call jws'.header alg attestation' entry.2 jwk) :
    jws' = jws ∧ alg = p.alg ∧ jwk = p.publicJwk := by
  obtain rfl := h.parse_unique hreads.parse
  obtain rfl : alg = p.alg := Option.some.inj (hreads.alg.symm.trans h.alg)
  obtain ⟨text, htext, hparsed⟩ := hreads.attestation
  obtain rfl : text = p.keyAttestation := Except.ok.inj (htext.symm.trans h.attestationJwt)
  obtain rfl : attestation' = attestation := Except.ok.inj (hparsed.symm.trans h.parsed)
  exact ⟨rfl, rfl, hgives.unique h.key⟩

theorem Faulty.not_checked (hfaulty : Faulty call entry)
    (h : Checked call entry p jws attestation) : False := by
  cases hfaulty with
  | malformed hno => exact hno jws h.parse
  | header jws' hparse hno =>
    obtain rfl := h.parse_unique hparse
    rcases hno with hno | hno | hno
    · exact hno h.typ
    · cases hno.symm.trans h.alg
    · exact hno h.crit
  | attestation jws' hparse hno =>
    obtain rfl := h.parse_unique hparse
    exact hno _ _ h.attestationJwt h.parsed
  | keyParams jws' hparse hno =>
    obtain rfl := h.parse_unique hparse
    exact hno h.key.one_param
  | binding jws' alg _ jwk hreads hgives hno =>
    obtain ⟨rfl, rfl, rfl⟩ := h.gives_unique hreads hgives
    exact hno h.binds
  | signature jws' alg _ jwk hreads hgives hno =>
    obtain ⟨rfl, rfl, rfl⟩ := h.gives_unique hreads hgives
    exact hno h.signature
  | audience jws' hparse hno =>
    obtain rfl := h.parse_unique hparse
    exact hno h.audience
  | freshness jws' hparse hno =>
    obtain rfl := h.parse_unique hparse
    exact hno _ h.fresh
  | temporal jws' hparse hno =>
    obtain rfl := h.parse_unique hparse
    obtain ⟨expired, htemporal⟩ := h.temporal
    exact hno _ htemporal
  | issuer jws' hparse hno =>
    obtain rfl := h.parse_unique hparse
    exact hno _ h.client
  | nonce jws' hparse hno =>
    obtain rfl := h.parse_unique hparse
    exact hno _ h.nonce

/-- A request that is malformed, has a proof that fails a check, or has two proofs that disagree on
the nonce. -/
inductive Invalid (call : Call E) (input : RequestInput) : Prop
  | request (h : ∀ request, readRequest call input ≠ .ok request)
  | proof (request : CredentialRequest) (hread : readRequest call input = .ok request)
      (entry : Str × Nat) (hmem : entry ∈ request.proofs.zipIdx) (h : Faulty call entry)
  | nonces (request : CredentialRequest) (hread : readRequest call input = .ok request)
      (a b : Str × Nat) (ha : a ∈ request.proofs.zipIdx) (hb : b ∈ request.proofs.zipIdx)
      (jws jws' : SdJwt.Jws) (hparse : Pipeline.parseCompact a.1 = .ok jws)
      (hparse' : Pipeline.parseCompact b.1 = .ok jws')
      (h : readNonce jws.payload ≠ readNonce jws'.payload)

variable {verified : List VerifiedProof} {nonce : Option Str}

/-- The proofs of a request, each checked. -/
theorem verifyEach_eq_ok (h : verifyEach call input = .ok verified) :
    checkArguments call = .ok () ∧ ∃ request, readRequest call input = .ok request ∧
      List.Forall₂ (fun entry p => verifyOneProof call entry = .ok p) request.proofs.zipIdx
        verified := by
  simp only [verifyEach, bind_eq_ok, raiseIf_eq_ok, collect_eq_ok] at h
  obtain ⟨⟨⟩, hargs, request, hread, ⟨⟩, -, hproofs⟩ := h
  exact ⟨hargs, request, hread, hproofs⟩

theorem sharedNonce_eq_some {l : List (Option Str)} :
    sharedNonce l = some nonce → ∀ n ∈ l, n = nonce := by
  intro h n hn
  cases l with
  | nil => cases hn
  | cons m l =>
    simp only [sharedNonce] at h
    split at h
    · rename_i hall
      obtain rfl := Option.some.inj h
      rcases List.mem_cons.mp hn with rfl | hn
      · rfl
      · simpa using List.all_eq_true.mp hall n hn
    · cases h

theorem checkBatch_eq_ok (h : checkBatch call verified = .ok nonce) :
    (∀ p ∈ verified, p.nonce = nonce) ∧ (call.requireNonce = true → nonce ≠ none) ∧
      (verified.map (·.thumbprint)).Nodup := by
  simp only [checkBatch, bind_eq_ok, orRaise_eq_ok, raiseIf_eq_ok, pure_eq_ok] at h
  obtain ⟨n, hshared, ⟨⟩, hrequire, ⟨⟩, hnodup, rfl⟩ := h
  refine ⟨fun p hp => ?_, fun hr => ?_, by simpa using hnodup⟩
  · exact sharedNonce_eq_some hshared _ (List.mem_map_of_mem hp)
  · rintro rfl
    rw [hr] at hrequire
    cases hrequire

theorem Invalid.refused (hinvalid : Invalid call input) (heach : verifyEach call input = .ok verified)
    (hbatch : checkBatch call verified = .ok nonce) : False := by
  obtain ⟨-, request, hread, hproofs⟩ := verifyEach_eq_ok heach
  cases hinvalid with
  | request h => exact h request hread
  | proof request' hread' entry hmem h =>
    obtain rfl : request = request' := Except.ok.inj (hread.symm.trans hread')
    obtain ⟨p, -, hp⟩ := exists_of_mem_left hproofs hmem
    obtain ⟨jws, attestation, hchecked⟩ := verifyOneProof_eq_ok hp
    exact h.not_checked hchecked
  | nonces request' hread' a b ha hb jws jws' hparse hparse' h =>
    obtain rfl : request = request' := Except.ok.inj (hread.symm.trans hread')
    obtain ⟨p, hmem, hp⟩ := exists_of_mem_left hproofs ha
    obtain ⟨p', hmem', hp'⟩ := exists_of_mem_left hproofs hb
    obtain ⟨_, _, hchecked⟩ := verifyOneProof_eq_ok hp
    obtain ⟨_, _, hchecked'⟩ := verifyOneProof_eq_ok hp'
    obtain rfl := hchecked.parse_unique hparse
    obtain rfl := hchecked'.parse_unique hparse'
    have hshared := (checkBatch_eq_ok hbatch).1
    rw [hchecked.nonce, hchecked'.nonce, hshared p hmem, hshared p' hmem'] at h
    exact h rfl

/-! ## One call -/

/-- What a call makes of the answer about its nonce. -/
def settle (nonce : Str) (verified : List VerifiedProof) (answer : Result Bool) :
    Result (List VerifiedProof) := do
  let fresh ← answer
  raiseIf (!fresh)
    ⟨.proofReplayed, "nonce % was already consumed or is unknown", [.str nonce]⟩
  return verified

theorem checkNonce_of_arguments (h : checkArguments call = .ok ())
    (hrequire : call.requireNonce = true) : call.checkNonce = true := by
  simp only [checkArguments, bind_eq_ok, raiseIf_eq_ok] at h
  obtain ⟨_, -, ⟨⟩, -, ⟨⟩, hnonce, -⟩ := h
  simpa [hrequire] using hnonce

/-- What is left of a call whose proofs and batch were checked. -/
def finish (call : Call E) (verified : List VerifiedProof) (shared : Option Str) :
    Checking (List VerifiedProof) :=
  match shared.filter fun _ => call.checkNonce with
  | none => .done (.ok verified)
  | some nonce => .call nonce fun r => .done (settle nonce verified r)

theorem verifyCredentialRequestProofs_of_verified (heach : verifyEach call input = .ok verified) :
    verifyCredentialRequestProofs call input =
      checkBatchInvariants call verified >>= fun _ => pure verified := by
  rw [verifyCredentialRequestProofs, heach]
  rfl

theorem verifyCredentialRequestProofs_eq_finish {shared : Option Str}
    (heach : verifyEach call input = .ok verified)
    (hbatch : checkBatch call verified = .ok shared) :
    verifyCredentialRequestProofs call input = finish call verified shared := by
  rw [verifyCredentialRequestProofs_of_verified heach, checkBatchInvariants, hbatch]
  change consumeNonce call shared >>= _ = _
  rw [consumeNonce, finish]
  cases shared.filter fun _ => call.checkNonce with
  | none => rfl
  | some nonce =>
    change Calling.call nonce _ = Calling.call nonce _
    congr 1
    funext r
    rcases r with e | _ | _
    · rfl
    · rfl
    · rfl

/-- A call raises without calling `check_nonce`, or has verified all of the request and ends with the
answer about the nonce that its proofs share. -/
theorem verifyCredentialRequestProofs_cases (call : Call E) (input : RequestInput) :
    (∃ e, verifyCredentialRequestProofs call input = .done (.error e)) ∨
      ∃ verified shared, verifyEach call input = .ok verified ∧
        checkBatch call verified = .ok shared ∧
        verifyCredentialRequestProofs call input = finish call verified shared := by
  cases heach : verifyEach call input with
  | error e =>
    refine .inl ⟨e, ?_⟩
    rw [verifyCredentialRequestProofs, heach]
    rfl
  | ok verified =>
    cases hbatch : checkBatch call verified with
    | error e =>
      refine .inl ⟨e, ?_⟩
      rw [verifyCredentialRequestProofs_of_verified heach, checkBatchInvariants, hbatch]
      rfl
    | ok shared =>
      exact .inr ⟨verified, shared, rfl, hbatch,
        verifyCredentialRequestProofs_eq_finish heach hbatch⟩

theorem finish_of_required {nonce : Option Str} (hargs : checkArguments call = .ok ())
    (hbatch : checkBatch call verified = .ok nonce) (hrequire : call.requireNonce = true) :
    ∃ n, nonce = some n ∧
      finish call verified nonce = .call n fun r => .done (settle n verified r) := by
  cases nonce with
  | none => exact absurd rfl ((checkBatch_eq_ok hbatch).2.1 hrequire)
  | some n =>
    refine ⟨n, rfl, ?_⟩
    rw [finish, Option.filter_some, checkNonce_of_arguments hargs hrequire]
    rfl

theorem settle_eq_ok {nonce : Str} {answer : Result Bool} {result : List VerifiedProof}
    (h : settle nonce verified answer = .ok result) : answer = .ok true ∧ verified = result := by
  simp only [settle, bind_eq_ok, raiseIf_eq_ok, pure_eq_ok] at h
  obtain ⟨fresh, rfl, ⟨⟩, hfresh, rfl⟩ := h
  exact ⟨by simpa using hfresh, rfl⟩

/-- A call of `check_nonce` with its answer. -/
abbrev Consumption := Exchange Str (fun _ => Bool) Err

/-- What a call returns was verified and checked as a batch. -/
theorem checked_of_returned {made : List Consumption}
    (h : (verifyCredentialRequestProofs call input).Reaches made (.done (.ok verified))) :
    verifyEach call input = .ok verified ∧ ∃ shared, checkBatch call verified = .ok shared := by
  rcases verifyCredentialRequestProofs_cases call input with
    ⟨e, he⟩ | ⟨proofs, shared, heach, hbatch, hcall⟩
  · rw [he] at h
    cases (Calling.reaches_done h).2
  · have hsame : proofs = verified := by
      rw [hcall, finish] at h
      split at h
      · simpa using (Calling.reaches_done h).2.symm
      · rename_i nonce _
        rcases Calling.reaches_call_done h with ⟨-, hdone⟩ | ⟨r, -, hdone⟩
        · cases hdone
        · have hsettle : settle nonce proofs r = .ok verified := by
            simpa using hdone.symm
          exact (settle_eq_ok hsettle).2
    subst hsame
    exact ⟨heach, shared, hbatch⟩

/-- A call that has returned has made one call of `check_nonce`, with the nonce that all of its proofs
carry. -/
theorem consumed_of_returned {made : List Consumption} (hrequire : call.requireNonce = true)
    (h : (verifyCredentialRequestProofs call input).Reaches made (.done (.ok verified))) :
    ∃ nonce, made = [⟨nonce, .ok true⟩] ∧ ∀ p ∈ verified, p.nonce = some nonce := by
  rcases verifyCredentialRequestProofs_cases call input with
    ⟨e, he⟩ | ⟨proofs, shared, heach, hbatch, hcall⟩
  · rw [he] at h
    cases (Calling.reaches_done h).2
  · obtain ⟨nonce, rfl, hfinish⟩ := finish_of_required (verifyEach_eq_ok heach).1 hbatch hrequire
    rw [hcall, hfinish] at h
    rcases Calling.reaches_call_done h with ⟨-, hdone⟩ | ⟨r, rfl, hdone⟩
    · cases hdone
    · have hsettle : settle nonce proofs r = .ok verified := by
        simpa using hdone.symm
      obtain ⟨rfl, rfl⟩ := settle_eq_ok hsettle
      exact ⟨nonce, rfl, (checkBatch_eq_ok hbatch).1⟩

/-- A call with an invalid request raises, and consumes nothing. -/
theorem consumed_of_invalid {made : List Consumption} {rest : Checking (List VerifiedProof)}
    (hinvalid : Invalid call input) (h : (verifyCredentialRequestProofs call input).Reaches made rest) :
    made = [] ∧ ∃ e, rest = .done (.error e) := by
  rcases verifyCredentialRequestProofs_cases call input with
    ⟨e, he⟩ | ⟨proofs, shared, heach, hbatch, -⟩
  · rw [he] at h
    obtain ⟨rfl, rfl⟩ := Calling.reaches_done h
    exact ⟨rfl, e, rfl⟩
  · exact (hinvalid.refused heach hbatch).elim

/-! ## Any number of calls -/

/-- A call of the verifier that requires a nonce, with its request. -/
structure Attempt (E : Env) where
  call : Call E
  input : RequestInput
  requireNonce : call.requireNonce = true

/-- What an attempt runs. -/
def Attempt.code (a : Attempt E) : Checking (List VerifiedProof) :=
  verifyCredentialRequestProofs a.call a.input

/-- A nonce store: it accepts a nonce that it has issued once. -/
abbrev NonceStore := SingleUse.Store Str

/-- `check_nonce`, an atomic operation of the store. -/
def serveNonce (nonce : Str) (store : NonceStore) : Result Bool × NonceStore :=
  (.ok (SingleUse.consume nonce store).1, (SingleUse.consume nonce store).2)

/-- Attempts interleaved over one store, which issues nonces meanwhile. -/
abbrev Issuance (E : Env) := World Str (fun _ => Bool) Err (List VerifiedProof) NonceStore (Attempt E)

/-- The states that some interleaving leads to. -/
def Issuance.Reachable (w : Issuance E) : Prop :=
  World.Reachable Attempt.code serveNonce SingleUse.Issues SingleUse.Store.empty w

/-- Whether a consumption was accepted. -/
def isAccepted (e : Nat × Consumption) : Bool :=
  match e.2.2 with
  | .ok fresh => fresh
  | .error _ => false

/-- The nonces that the calls in a log were given. -/
def acceptedNonces (log : List (Nat × Consumption)) : List Str :=
  (log.filter isAccepted).map (·.2.1)

theorem acceptedNonces_snoc (log : List (Nat × Consumption)) (e : Nat × Consumption) :
    acceptedNonces (log ++ [e]) =
      if isAccepted e = true then acceptedNonces log ++ [e.2.1] else acceptedNonces log := by
  unfold acceptedNonces
  rw [List.filter_append, List.map_append]
  split
  · rename_i h
    rw [List.filter_cons_of_pos h]
    rfl
  · rename_i h
    rw [List.filter_cons_of_neg h]
    exact List.append_nil _

variable {w : Issuance E}

theorem accepted_of_reachable (h : w.Reachable) :
    SingleUse.Accepted w.object (acceptedNonces w.log) := by
  refine World.reachable_invariant
    (fun store log => SingleUse.Accepted store (acceptedNonces log))
    SingleUse.accepted_empty (fun s log i nonce hs => ?_) (fun s s' log hs hissue => ?_) h
  · rw [acceptedNonces_snoc]
    split
    · rename_i hyes
      exact hs.accept hyes
    · exact hs.after_consume nonce
  · exact hs.issue hissue

theorem madeBy_unique (h : w.Reachable) {i j : Nat} {nonce : Str}
    (hi : ⟨nonce, .ok true⟩ ∈ w.madeBy i) (hj : ⟨nonce, .ok true⟩ ∈ w.madeBy j) : i = j := by
  obtain ⟨a, ha, hai⟩ := List.mem_map.mp hi
  obtain ⟨b, hb, hbj⟩ := List.mem_map.mp hj
  obtain ⟨hamem, rfl⟩ : a ∈ w.log ∧ a.1 = i := by simpa using List.mem_filter.mp ha
  obtain ⟨hbmem, rfl⟩ : b ∈ w.log ∧ b.1 = j := by simpa using List.mem_filter.mp hb
  have hacc : isAccepted a = true := by rw [isAccepted, hai]
  have hbcc : isAccepted b = true := by rw [isAccepted, hbj]
  have heq : a = b := List.inj_on_of_nodup_map (accepted_of_reachable h).once
    (List.mem_filter.mpr ⟨hamem, hacc⟩) (List.mem_filter.mpr ⟨hbmem, hbcc⟩) (by rw [hai, hbj])
  rw [heq]

/-- What holds of the nonces however the attempts are interleaved. -/
structure NonceLaws (w : Issuance E) : Prop where
  /-- A nonce is accepted for one attempt, and only if it was issued. -/
  once : ∀ i nonce, ⟨nonce, .ok true⟩ ∈ w.madeBy i →
    nonce ∈ w.object.issued ∧ ∀ j, ⟨nonce, .ok true⟩ ∈ w.madeBy j → j = i
  /-- An attempt that returned consumed one nonce, the one of all of its proofs. -/
  returned : ∀ i a verified, w.threads[i]? = some (a, .done (.ok verified)) →
    ∃ nonce, w.madeBy i = [⟨nonce, .ok true⟩] ∧ ∀ p ∈ verified, p.nonce = some nonce
  /-- An attempt with an invalid request raises and consumes nothing. -/
  invalid : ∀ i a rest, w.threads[i]? = some (a, rest) → Invalid a.call a.input →
    w.madeBy i = [] ∧ ∃ e, rest = .done (.error e)

/-- However calls are interleaved over one atomic store, a nonce is accepted once, a call that returns
consumed the nonce of its proofs and no other, and an invalid request consumes nothing. -/
theorem nonces_single_use (w : Issuance E) (h : w.Reachable) : NonceLaws w where
  once i nonce hi := by
    refine ⟨?_, fun j hj => madeBy_unique h hj hi⟩
    obtain ⟨a, ha, hai⟩ := List.mem_map.mp hi
    have hacc : isAccepted a = true := by rw [isAccepted, hai]
    refine (accepted_of_reachable h).issued nonce (List.mem_map.mpr ⟨a, ?_, by rw [hai]⟩)
    exact List.mem_filter.mpr ⟨(List.mem_filter.mp ha).1, hacc⟩
  returned i a verified hi :=
    consumed_of_returned a.requireNonce ((World.coherent_of_reachable h).reaches i a _ hi)
  invalid i a rest hi hinvalid :=
    consumed_of_invalid hinvalid ((World.coherent_of_reachable h).reaches i a _ hi)

/-! ## Two requests with one proof -/

/-- What a wallet signed: a key proof for the issuer `i` with the nonce `n`. -/
def walletSigningInput : Str :=
  List.flatMap lit
    ["eyJ0eXAiOiJvcGVuaWQ0dmNpLXByb29mK2p3dCIsImFsZyI6IkVkRFNBIiwiandr",
     "Ijp7Imt0eSI6Ik9LUCIsImNydiI6IkVkMjU1MTkiLCJ4IjoiX1Jja09GcWd4MXRr",
     "LTNqTllDLWgyWkg5Nl9kckU4V08xd0xxeURYcDloZyJ9fQ.eyJhdWQiOiJpIiwia",
     "WF0IjoxODAwMDAwMDAwLCJub25jZSI6Im4ifQ"]

/-- The key proof. -/
def walletProof : Str :=
  walletSigningInput ++ List.flatMap lit
    [".RxjIeyqRPpPmAUszEllBuVbtf5Kh2w9Nos16QafZAu1xgC1MtAICMZviOr1DRv67E0",
     "uM6I1e7iSXX2YbcXffDA"]

/-- The wallet's signature of the proof. -/
def walletRow : Nat × Str × (Nat × Nat) :=
  (0xfd1724385aa0c75b64fb78cd602fa1d991fdebf76b13c58ed702eac835e9f618, walletSigningInput,
    (0x4718c87b2a913e93e6014b33125941b956ed7f92a1db0f4da2cd7a41a7d902ed,
     0x71802d4cb40202319be23abd4346febb134b8ce88d5eee24975f661b7177df0c))

/-- An environment without certificates, where a wallet signed some texts. -/
def walletEnv (table : List (Nat × Str × (Nat × Nat))) : Env where
  interpreter := .atSecond 1800000000 []
  crypto := Crypto.ofTexts table
  x509 :=
    { Certificate := Unit
      loadDer := fun _ => .error []
      verifyPath := fun _ _ _ _ => .error []
      subjectAltName := fun _ => .ok none
      publicKey := fun _ => .other
      extendedKeyUsage := fun _ => .ok none
      notValidBefore := fun _ => 0
      notValidAfter := fun _ => 0 }

/-- A Credential Request with the given proofs. -/
def walletRequest (proofs : List Str) : RequestInput :=
  .body (.obj [("credential_configuration_id", .str "c"),
    ("proofs", .obj [("jwt", .arr (proofs.map .str))])])

/-- The request with the proof, as the issuer `i` takes it. -/
def walletAttempt : Attempt (walletEnv [walletRow]) :=
  ⟨{ credentialIssuer := "i" }, walletRequest [walletProof], rfl⟩

theorem walletAttempt_code : ∃ verified, walletAttempt.code =
    .call (lit "n") fun r => .done (settle (lit "n") verified r) := by
  obtain ⟨nonce, hnonce, hn⟩ := exists_ok_of_map
    (x := verifyEach walletAttempt.call walletAttempt.input >>= checkBatch walletAttempt.call)
    (f := id) (c := some (lit "n")) (by decide +kernel)
  obtain rfl : nonce = some (lit "n") := hn
  obtain ⟨verified, heach, hbatch⟩ := bind_eq_ok.mp hnonce
  exact ⟨verified, verifyCredentialRequestProofs_eq_finish heach hbatch⟩

/-- Two calls with the proof, once the nonce was issued: the first returns, the second is refused. -/
theorem nonces_single_use_wallet : ∃ w : Issuance (walletEnv [walletRow]), w.Reachable ∧
    (w.madeBy 0 = [⟨lit "n", .ok true⟩] ∧ w.madeBy 1 = [⟨lit "n", .ok false⟩]) ∧
      NonceLaws w := by
  obtain ⟨verified, hcode⟩ := walletAttempt_code
  let rest (r : Result Bool) : Checking (List VerifiedProof) := .done (settle (lit "n") verified r)
  let waiting : Attempt (walletEnv [walletRow]) × Checking (List VerifiedProof) :=
    (walletAttempt, .call (lit "n") rest)
  have hissued : Issuance.Reachable ⟨⟨[lit "n"], [lit "n"]⟩, [waiting, waiting], []⟩ := by
    have h : Issuance.Reachable ⟨.empty, [(walletAttempt, walletAttempt.code),
        (walletAttempt, walletAttempt.code)], []⟩ :=
      (World.Reachable.init.step (.start walletAttempt)).step (.start walletAttempt)
    rw [hcode] at h
    exact World.Reachable.step h (.move (⟨[lit "n"], [lit "n"]⟩ : NonceStore)
      ⟨lit "n", nofun, rfl⟩)
  have hfirst : Issuance.Reachable ⟨⟨[lit "n"], []⟩,
      [(walletAttempt, rest (.ok true)), waiting], [(0, ⟨lit "n", .ok true⟩)]⟩ := by
    have hserve : serveNonce (lit "n") ⟨[lit "n"], [lit "n"]⟩ = (.ok true, ⟨[lit "n"], []⟩) := rfl
    exact World.Reachable.served (i := 0) hissued rfl hserve
  have hsecond : Issuance.Reachable ⟨⟨[lit "n"], []⟩,
      [(walletAttempt, rest (.ok true)), (walletAttempt, rest (.ok false))],
      [(0, ⟨lit "n", .ok true⟩), (1, ⟨lit "n", .ok false⟩)]⟩ := by
    have hserve : serveNonce (lit "n") ⟨[lit "n"], []⟩ = (.ok false, ⟨[lit "n"], []⟩) := rfl
    exact World.Reachable.served (i := 1) hfirst rfl hserve
  exact ⟨_, hsecond, ⟨rfl, rfl⟩, nonces_single_use _ hsecond⟩

end OpenVC.OpenId4Vci
