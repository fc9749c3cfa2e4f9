import OpenVC.Pipeline

/-!
# The key of a Data Integrity proof

A suite that was given no key uses the one that `resolve_verification_key` gives for the
`verificationMethod` of the proof, and reads nothing else of the resolver: the proof verifies under
that key alone.
-/

namespace OpenVC

open Python

variable {I : Interpreter} {C : Crypto} {L : JsonLd} {leeway : Int} {secured proof jwk : Dict}
  {resolver resolver' : Option Did.DidResolver} {policy : DiPolicy} {verified : VerifiedDi}

/-! ## Resolution -/

/-- What `resolve_verification_key` returns is the key of the method in the document of its DID. -/
theorem resolveVerificationKey_eq_ok {vm purpose : Json}
    (h : resolveVerificationKey C vm purpose resolver = .ok jwk) :
    ∃ method doc, vm = .str method ∧
      didDocument C resolver method (Str.beforeFirst 35 method) = .ok doc ∧
      documentKey doc method (purposeOf purpose) = .ok jwk := by
  simp only [resolveVerificationKey, bind_eq_ok, orRaise_eq_ok, raiseIf_eq_ok] at h
  obtain ⟨method, hvm, ⟨⟩, -, doc, hdoc, hkey⟩ := h
  exact ⟨method, doc, Json.str?_eq_some.mp (Option.filter_eq_some_iff.mp hvm).1, hdoc, hkey⟩

/-- The document of a method is the resolver's, or that of the offline `did:key` resolver. -/
theorem didDocument_eq_ok {method did : Str} {doc : Did.Resolved}
    (h : didDocument C resolver method did = .ok doc) :
    (∃ r, resolver = some r ∧ r.resolve did = .ok doc) ∨
      ∃ d, Did.DidKey.resolve C did = .ok d ∧ doc = .document d := by
  obtain ⟨found, hfound, h⟩ := bind_eq_ok.mp h
  have hoffline : offlineDocument C method did = .ok doc →
      ∃ d, Did.DidKey.resolve C did = .ok d ∧ doc = .document d := by
    intro h
    simp only [offlineDocument, bind_eq_ok, raiseIf_eq_ok, reraise_eq_ok, pure_eq_ok] at h
    obtain ⟨⟨⟩, -, d, hd, rfl⟩ := h
    exact ⟨d, hd, rfl⟩
  have hresolved : found ≠ .none → ∃ r, resolver = some r ∧ r.resolve did = .ok found := by
    intro hne
    unfold resolvedDocument at hfound
    split at hfound
    · cases hfound
      exact absurd rfl hne
    · rename_i r
      split at hfound
      · rw [reraise_eq_ok, tryExcept_eq_ok] at hfound
        rcases hfound with hr | ⟨e, -, -, he⟩
        · exact ⟨r, rfl, hr⟩
        · cases he
          exact absurd rfl hne
      · cases hfound
        exact absurd rfl hne
  cases found with
  | none => exact .inr (hoffline h)
  | document d =>
    cases h
    exact .inl (hresolved (by simp))
  | other d =>
    cases h
    exact .inl (hresolved (by simp))

/-! ## The suites -/

theorem diKey_pinned (h : jwk ≠ []) (resolver : Option Did.DidResolver) :
    diKey C (some jwk) proof resolver = .ok jwk := by
  cases jwk with
  | nil => exact absurd rfl h
  | cons m jwk => rfl

theorem prepareDiProof_proof {cryptosuite : Str} {p : DiProof}
    (h : prepareDiProof secured cryptosuite = .ok p) : secured.get "proof" = .obj p.proof := by
  simp only [prepareDiProof, bind_eq_ok, orRaise_eq_ok, raiseIf_eq_ok, pure_eq_ok] at h
  obtain ⟨⟨⟩, -, proof, hproof, ⟨⟩, -, ⟨⟩, -, _, -, _, -, rfl⟩ := h
  exact Json.obj?_eq_some.mp hproof

theorem readProof_proof {derived : Dict} {proofValue : Str}
    (h : EcdsaSd.readProof derived = .ok (proof, proofValue)) :
    derived.get "proof" = .obj proof := by
  simp only [EcdsaSd.readProof, bind_eq_ok, orRaise_eq_ok, raiseIf_eq_ok, pure_eq_ok,
    Prod.mk.injEq] at h
  obtain ⟨⟨⟩, -, proof', hproof, ⟨⟩, -, _, -, rfl, -⟩ := h
  exact Json.obj?_eq_some.mp hproof

theorem ne_nil_of_isKind {kty crv : Str} (h : VcJwt.isKind jwk kty crv = true) : jwk ≠ [] := by
  rintro rfl
  simp [VcJwt.isKind, Dict.get, Json.pyEq, Json.num?] at h

theorem ne_nil_of_matchAlg {allowed : List AlgProfile} {cryptosuite : Str} {profile : AlgProfile}
    (h : matchAlg jwk allowed cryptosuite = .ok profile) : jwk ≠ [] := by
  rw [matchAlg, orRaise_eq_ok] at h
  have hkind := List.find?_some h
  exact ne_nil_of_isKind hkind

theorem ne_nil_of_verifyEd25519 {data signature : Bytes} {b : Bool}
    (h : verifyEd25519 C jwk data signature = .ok b) : jwk ≠ [] := by
  simp only [verifyEd25519, bind_eq_ok, raiseIf_eq_ok, Bool.or_eq_false_iff] at h
  obtain ⟨⟨⟩, ⟨hkind, -⟩, -⟩ := h
  exact ne_nil_of_isKind (by simpa using hkind)

theorem ne_nil_of_checkSignatures {toVerify : Bytes} {parsed : EcdsaSd.DerivedProof}
    {lines : List Str} (h : EcdsaSd.checkSignatures C jwk toVerify parsed lines = .ok ()) :
    jwk ≠ [] := by
  rintro rfl
  obtain ⟨ok, hok, -⟩ := bind_eq_ok.mp h
  simp only [verifySignature, ed25519AlgNames] at hok
  rw [if_neg (by decide), if_pos (by decide)] at hok
  simp only [verifyEcdsa, bind_eq_ok, orRaise_eq_ok] at hok
  obtain ⟨⟨⟩, -, x, hx, -⟩ := hok
  cases hx

/-- A run of a suite used one key, that of its arguments and the proof of the document, and runs the
same on any arguments that give that key. -/
def UsesKey (C : Crypto) (doc : Dict) (publicKeyJwk : Option Dict)
    (resolver : Option Did.DidResolver) (verified : VerifiedDi)
    (verify : Option Dict → Option Did.DidResolver → Result VerifiedDi) : Prop :=
  doc.get "proof" = .obj verified.proof ∧
    ∃ jwk, jwk ≠ [] ∧ diKey C publicKeyJwk verified.proof resolver = .ok jwk ∧
      ∀ k r, diKey C k verified.proof r = .ok jwk → verify k r = .ok verified

section

variable {key : Option Dict}

theorem JcsSuite.verify_usesKey {suite : JcsSuite}
    (h : suite.verify I C leeway secured key resolver policy = .ok verified) :
    UsesKey C secured key resolver verified fun k r =>
      suite.verify I C leeway secured k r policy := by
  simp only [JcsSuite.verify, bind_eq_ok, pure_eq_ok] at h
  obtain ⟨p, hp, jwk, hkey, profile, hprofile, data, hdata, ⟨⟩, hsig, expired, hpol, rfl⟩ := h
  refine ⟨prepareDiProof_proof hp, jwk, ne_nil_of_matchAlg hprofile, hkey, fun k r hk => ?_⟩
  simp only [JcsSuite.verify, bind_eq_ok, pure_eq_ok]
  exact ⟨p, hp, jwk, hk, profile, hprofile, data, hdata, (), hsig, expired, hpol, rfl⟩

theorem DataIntegrity.verify_usesKey
    (h : DataIntegrity.verify I C L leeway secured key resolver policy = .ok verified) :
    UsesKey C secured key resolver verified fun k r =>
      DataIntegrity.verify I C L leeway secured k r policy := by
  simp only [DataIntegrity.verify, bind_eq_ok, pure_eq_ok] at h
  obtain ⟨p, hp, data, hdata, jwk, hkey, ok, hok, ⟨⟩, hsig, ⟨⟩, hval, expired, hpol, rfl⟩ := h
  refine ⟨prepareDiProof_proof hp, jwk, ne_nil_of_verifyEd25519 hok, hkey, fun k r hk => ?_⟩
  simp only [DataIntegrity.verify, bind_eq_ok, pure_eq_ok]
  exact ⟨p, hp, data, hdata, jwk, hk, ok, hok, (), hsig, (), hval, expired, hpol, rfl⟩

theorem EcdsaRdfc.verify_usesKey
    (h : EcdsaRdfc.verify I C L leeway secured key resolver policy = .ok verified) :
    UsesKey C secured key resolver verified fun k r =>
      EcdsaRdfc.verify I C L leeway secured k r policy := by
  simp only [EcdsaRdfc.verify, bind_eq_ok, pure_eq_ok] at h
  obtain ⟨p, hp, jwk, hkey, profile, hprofile, data, hdata, ⟨⟩, hsig, ⟨⟩, hval, expired, hpol,
    rfl⟩ := h
  refine ⟨prepareDiProof_proof hp, jwk, ne_nil_of_matchAlg hprofile, hkey, fun k r hk => ?_⟩
  simp only [EcdsaRdfc.verify, bind_eq_ok, pure_eq_ok]
  exact ⟨p, hp, jwk, hk, profile, hprofile, data, hdata, (), hsig, (), hval, expired, hpol, rfl⟩

theorem EcdsaSd.verify_usesKey
    (h : EcdsaSd.verify I C L leeway secured key resolver policy = .ok verified) :
    UsesKey C secured key resolver verified fun k r =>
      EcdsaSd.verify I C L leeway secured k r policy := by
  simp only [EcdsaSd.verify, bind_eq_ok, pure_eq_ok] at h
  obtain ⟨⟨proof, value⟩, hp, parsed, hparsed, st, hst, mand, hmand, jwk, hkey, ⟨⟩, hsig, ⟨⟩, hval,
    ⟨⟩, hpurpose, expired, hwin, rfl⟩ := h
  refine ⟨readProof_proof hp, jwk, ne_nil_of_checkSignatures hsig, hkey, fun k r hk => ?_⟩
  simp only [EcdsaSd.verify, bind_eq_ok, pure_eq_ok]
  exact ⟨(proof, value), hp, parsed, hparsed, st, hst, mand, hmand, jwk, hk, (), hsig, (), hval, (),
    hpurpose, expired, hwin, rfl⟩

end

/-- A run of a suite without a key is a run with the key that was resolved. -/
def ResolvesKey (C : Crypto) (resolver : Option Did.DidResolver) (verified : VerifiedDi)
    (verify : Option Dict → Option Did.DidResolver → Result VerifiedDi) : Prop :=
  ∃ jwk, resolveVerificationKey C (verified.proof.get "verificationMethod")
      (verified.proof.get "proofPurpose") resolver = .ok jwk ∧
    ∀ resolver', verify (some jwk) resolver' = .ok verified

namespace Pipeline

variable {H : Host} {suite : DiSuite} {doc : Dict}

/-- Whichever suite verified a proof, it used one key. -/
theorem verifyDiSuite_usesKey {key : Option Dict}
    (h : verifyDiSuite H suite leeway doc key resolver policy = .ok verified) :
    UsesKey H.crypto doc key resolver verified fun k r =>
      verifyDiSuite H suite leeway doc k r policy := by
  cases suite with
  | eddsaRdfc => exact DataIntegrity.verify_usesKey h
  | ecdsaSd => exact EcdsaSd.verify_usesKey h
  | eddsaJcs => exact JcsSuite.verify_usesKey h
  | ecdsaJcs => exact JcsSuite.verify_usesKey h
  | ecdsaRdfc => exact EcdsaRdfc.verify_usesKey h

/-- Without a key of the caller, that is the key of the proof's `verificationMethod`. -/
theorem verifyDiSuite_resolvesKey
    (h : verifyDiSuite H suite leeway doc none resolver policy = .ok verified) :
    ResolvesKey H.crypto resolver verified fun jwk r =>
      verifyDiSuite H suite leeway doc jwk r policy := by
  obtain ⟨-, jwk, hne, hkey, hrun⟩ := verifyDiSuite_usesKey h
  exact ⟨jwk, hkey, fun r => hrun (some jwk) r (diKey_pinned hne r)⟩

theorem checkDiPolicy_eq_ok {unsecured : Dict} {b : Bool}
    (h : checkDiPolicy I unsecured proof policy leeway = .ok b) :
    checkProofPurpose proof policy.expectedProofPurpose = .ok () ∧
      checkPresentationBinding proof policy.expectedChallenge policy.expectedDomain = .ok () := by
  simp only [checkDiPolicy, bind_eq_ok] at h
  obtain ⟨⟨⟩, hpurpose, ⟨⟩, hbinding, -⟩ := h
  exact ⟨hpurpose, hbinding⟩

/-- The whole-document suites hold a proof to the purpose, the challenge and the domain asked for. -/
theorem verifyDiSuite_policy {key : Option Dict} (hs : suite ≠ .ecdsaSd)
    (h : verifyDiSuite H suite leeway doc key resolver policy = .ok verified) :
    checkProofPurpose verified.proof policy.expectedProofPurpose = .ok () ∧
      checkPresentationBinding verified.proof policy.expectedChallenge policy.expectedDomain =
        .ok () := by
  have hjcs : ∀ s : JcsSuite,
      s.verify H.I H.crypto leeway doc key resolver policy = .ok verified →
      ∃ unsecured b, checkDiPolicy H.I unsecured verified.proof policy leeway = .ok b := by
    intro s h
    simp only [JcsSuite.verify, bind_eq_ok, pure_eq_ok] at h
    obtain ⟨p, -, jwk, -, profile, -, data, -, ⟨⟩, -, expired, hpol, rfl⟩ := h
    exact ⟨_, _, hpol⟩
  cases suite with
  | ecdsaSd => exact absurd rfl hs
  | eddsaJcs =>
    obtain ⟨_, _, hpol⟩ := hjcs _ h
    exact checkDiPolicy_eq_ok hpol
  | ecdsaJcs =>
    obtain ⟨_, _, hpol⟩ := hjcs _ h
    exact checkDiPolicy_eq_ok hpol
  | eddsaRdfc =>
    simp only [verifyDiSuite, DataIntegrity.verify, bind_eq_ok, pure_eq_ok] at h
    obtain ⟨p, -, data, -, jwk, -, ok, -, ⟨⟩, -, ⟨⟩, -, expired, hpol, rfl⟩ := h
    exact checkDiPolicy_eq_ok hpol
  | ecdsaRdfc =>
    simp only [verifyDiSuite, EcdsaRdfc.verify, bind_eq_ok, pure_eq_ok] at h
    obtain ⟨p, -, jwk, -, profile, -, data, -, ⟨⟩, -, ⟨⟩, -, expired, hpol, rfl⟩ := h
    exact checkDiPolicy_eq_ok hpol

end Pipeline

end OpenVC
