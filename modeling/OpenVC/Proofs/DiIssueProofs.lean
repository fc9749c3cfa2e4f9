import Mathlib.Data.Nat.Digits.Lemmas
import OpenVC.Proof.DiIssue
import OpenVC.Proof.Proofs.EcdsaSdSettingProofs
import OpenVC.Proofs.Base58Proofs
import OpenVC.Proofs.IssuerBindingProofs
import OpenVC.Proofs.JsonInputProofs
import OpenVC.Python.Proofs.CodecProofs

/-!
# Issuing and verifying a Data Integrity proof

A verifier recomputes from the secured document what the issuer signed, so that the policy alone
decides; what it accepts, an issuer signed.
-/

namespace OpenVC

open Python

/-! ## The proof value -/

theorem Multibase.length_b58btcEncode (b : Bytes) : (b58btcEncode b).length ≤ 3 * b.length := by
  have hzeros : (b.takeWhile (· = 0)).length ≤ b.length := (List.takeWhile_prefix _).length_le
  have hdigits : (Nat.digits 58 (Codec.intFromBytes b)).length ≤ 2 * b.length := by
    rw [Nat.digits_length_le_iff (by omega), Nat.pow_mul]
    calc Codec.intFromBytes b < 256 ^ b.length := Codec.intFromBytes_lt b
      _ ≤ (58 ^ 2) ^ b.length := Nat.pow_le_pow_left (by omega) _
  rw [b58btcEncode, List.length_append, List.length_replicate, List.length_reverse, List.length_map]
  omega

theorem Multibase.decodeMultibase_encodeMultibase {b : Bytes} (h : b.length ≤ 96) :
    decodeMultibase (encodeMultibase b) = .ok b := by
  have hlen := length_b58btcEncode b
  have hb58 : b58btcDecode (b58btcEncode b) = .ok b :=
    b58btcDecode_eq_ok.mpr ⟨by rw [maxB58Len]; omega, isB58_encode b, (b58Bytes_encode b).symm⟩
  simp only [decodeMultibase, bind_eq_ok, raiseIf_eq_ok]
  exact ⟨(), rfl, hb58⟩

/-- The key signs what the JWK verifies, under one profile. -/
structure SignsFor (C : Crypto) (key : SigningKey) (jwk : Dict) (profile : AlgProfile) : Prop where
  listed : profile ∈ eddsaProfile :: ecdsaProfiles
  alg : key.alg = profile.alg
  kind : VcJwt.isKind jwk profile.kty profile.crv = true
  verifies : ∀ data signature, key.sign data = .ok signature →
    verifySignature C key.alg jwk data signature = .ok true
  /-- Raw signatures have 64 or 96 bytes. -/
  length : ∀ data signature, key.sign data = .ok signature → signature.length ≤ 96

namespace DiIssuance

variable {a : DiIssuance} {suite created : Str} {signature : Bytes} {credential : Dict}

/-! ## The signed proof -/

theorem keys_memberIf (name : Str) (value : Option Str) :
    (memberIf name value).keys = [] ∨ (memberIf name value).keys = [name] := by
  cases value with
  | none => exact .inl rfl
  | some v => exact .inr rfl

theorem keys_proof : (a.proof suite created).keys =
    [lit "type", lit "cryptosuite", lit "created", lit "verificationMethod", lit "proofPurpose"] ++
      (memberIf "challenge" a.challenge).keys ++ (memberIf "domain" a.domain).keys := by
  rw [proof, Dict.keys, List.map_append, List.map_append]
  rfl

theorem nodup_keys_proof :
    lit "proofValue" ∉ (a.proof suite created).keys ∧ (a.proof suite created).keys.Nodup := by
  rw [keys_proof]
  rcases keys_memberIf "challenge" a.challenge with hc | hc <;>
    rcases keys_memberIf "domain" a.domain with hd | hd <;> rw [hc, hd] <;> decide

theorem proofValue_not_mem_proof : lit "proofValue" ∉ (a.proof suite created).keys :=
  nodup_keys_proof.1

theorem proofConfig_signedProof (context : Json) :
    proofConfig (a.signedProof suite created signature) context =
      proofConfig (a.proof suite created) context := by
  rw [proofConfig, proofConfig, signedProof, EcdsaSd.erase_set proofValue_not_mem_proof,
    Dict.erase_of_not_mem proofValue_not_mem_proof]

theorem signedProof_eq : a.signedProof suite created signature =
    a.proof suite created ++
      [(lit "proofValue", .str (Multibase.encodeMultibase signature))] :=
  Dict.set_of_not_mem proofValue_not_mem_proof

theorem get_proofValue : Dict.get (a.signedProof suite created signature) "proofValue" =
    .str (Multibase.encodeMultibase signature) := by
  rw [signedProof, Dict.get, Dict.get?_set, if_pos rfl]
  rfl

theorem get_type : Dict.get (a.signedProof suite created signature) "type" = .str diProofType := by
  rw [signedProof_eq]
  rfl

theorem get_cryptosuite : Dict.get (a.signedProof suite created signature) "cryptosuite" =
    .str suite := by
  rw [signedProof_eq]
  rfl

theorem get_proofPurpose : Dict.get (a.signedProof suite created signature) "proofPurpose" =
    .str a.proofPurpose := by
  rw [signedProof_eq]
  rfl

theorem get_challenge : Dict.get (a.signedProof suite created signature) "challenge" =
    (a.challenge.map Json.str).getD .null := by
  rw [signedProof_eq, proof, memberIf.eq_def, memberIf.eq_def]
  cases a.challenge <;> cases a.domain <;> rfl

theorem get_domain : Dict.get (a.signedProof suite created signature) "domain" =
    (a.domain.map Json.str).getD .null := by
  rw [signedProof_eq, proof, memberIf.eq_def, memberIf.eq_def]
  cases a.challenge <;> cases a.domain <;> rfl

theorem depth_signedProof : Json.depth (.obj (a.signedProof suite created signature)) = 1 := by
  rw [signedProof_eq, proof, memberIf.eq_def, memberIf.eq_def]
  cases a.challenge <;> cases a.domain <;> rfl

/-- The proof nests the document no deeper than a verifier reads. -/
theorem nestingExceeds_secured (h : credential.has "proof" = false) :
    nestingExceeds
        (.obj (credential.set "proof" (.obj (a.signedProof suite created signature)))) maxDepth =
      nestingExceeds (.obj credential) maxDepth := by
  have hlast : ∀ l : List Json,
      Json.depthList (l ++ [.obj (a.signedProof suite created signature)]) =
        max (Json.depthList l) 1 := by
    intro l
    induction l with
    | nil => simp [Json.depthList, depth_signedProof]
    | cons w l ih => rw [List.cons_append, Json.depthList, ih, Json.depthList, max_assoc]
  have hdepth : Json.depth (.obj (credential.set "proof"
      (.obj (a.signedProof suite created signature)))) = max (Json.depth (.obj credential)) 2 := by
    rw [Json.depth, Json.depth, Json.depthMembers_eq, Json.depthMembers_eq,
      Dict.set_of_not_mem (EcdsaSd.not_mem_keys_of_has h), List.map_append, List.map_singleton,
      hlast]
    omega
  rw [nestingExceeds_eq, nestingExceeds_eq, hdepth, decide_eq_decide, maxDepth]
  omega

/-- What a verifier reads of a secured document. -/
theorem prepareDiProof_secured (a : DiIssuance) (suite created : Str)
    (h : credential.has "proof" = false) (hlen : signature.length ≤ 96)
    (hdepth : nestingExceeds (.obj credential) maxDepth = false) :
    prepareDiProof (credential.set "proof" (.obj (a.signedProof suite created signature))) suite =
      .ok ⟨a.signedProof suite created signature,
        proofConfig (a.proof suite created) (credential.get "@context"), signature⟩ := by
  have hproof : Dict.get (credential.set "proof" (.obj (a.signedProof suite created signature)))
      "proof" = .obj (a.signedProof suite created signature) := by
    rw [Dict.get, Dict.get?_set, if_pos rfl]
    rfl
  have hcontext : Dict.get (credential.set "proof" (.obj (a.signedProof suite created signature)))
      "@context" = credential.get "@context" := by
    rw [Dict.get, Dict.get?_set, if_neg (by decide)]
    rfl
  simp only [prepareDiProof, bind_eq_ok, raiseIf_eq_ok, orRaise_eq_ok, reraise_eq_ok, pure_eq_ok,
    hproof, hcontext, nestingExceeds_secured h]
  refine ⟨(), hdepth, _, rfl, (), ?_, (), ?_, Multibase.encodeMultibase signature, ?_, signature,
    ?_, ?_⟩
  · rw [get_type]
    decide
  · rw [get_cryptosuite]
    simp [Json.pyEq]
  · rw [get_proofValue]
    rfl
  · exact Multibase.decodeMultibase_encodeMultibase hlen
  · rw [proofConfig_signedProof]

/-! ## The policy -/

/-- What the verifier expects of a proof is what it was issued for. -/
structure Meets (a : DiIssuance) (policy : DiPolicy) : Prop where
  purpose : ∀ e, policy.expectedProofPurpose = some e → a.proofPurpose = e
  challenge : ∀ e, policy.expectedChallenge = some e → a.challenge = some e
  domain : ∀ e, policy.expectedDomain = some e → a.domain = some e

theorem checkProofPurpose_signed {expected : Option Str} :
    checkProofPurpose (a.signedProof suite created signature) expected = .ok () ↔
      ∀ e, expected = some e → a.proofPurpose = e := by
  rw [checkProofPurpose, raiseIf_eq_ok, get_proofPurpose]
  cases expected with
  | none => simp
  | some e => simp [Json.pyEq]

theorem checkPresentationBinding_signed {challenge domain : Option Str} :
    checkPresentationBinding (a.signedProof suite created signature) challenge domain = .ok () ↔
      (∀ e, challenge = some e → a.challenge = some e) ∧
        ∀ e, domain = some e → a.domain = some e := by
  simp only [checkPresentationBinding, bind_eq_ok, raiseIf_eq_ok, get_challenge, get_domain]
  constructor
  · rintro ⟨⟨⟩, hchallenge, hdomain⟩
    constructor
    · rintro e rfl
      cases hc : a.challenge with
      | none => simp [hc, Json.pyEq, Json.num?] at hchallenge
      | some c => simpa [hc, Json.pyEq] using hchallenge
    · rintro e rfl
      cases hd : a.domain with
      | none => simp [hd, domainIncludes, Json.pyEq, Json.num?] at hdomain
      | some d => simpa [hd, domainIncludes, Json.pyEq] using hdomain
  · rintro ⟨hchallenge, hdomain⟩
    refine ⟨(), ?_, ?_⟩
    · cases challenge with
      | none => rfl
      | some e => simp [hchallenge e rfl, Json.pyEq]
    · cases domain with
      | none => rfl
      | some e => simp [hdomain e rfl, domainIncludes, Json.pyEq]

/-- The policy passes when the proof was issued for what is expected, within the window. -/
theorem checkDiPolicy_signed {I : Interpreter} {policy : DiPolicy} {leeway : Int} {b : Bool} :
    checkDiPolicy I credential (a.signedProof suite created signature) policy leeway = .ok b ↔
      Meets a policy ∧ checkWindowAt I credential (a.signedProof suite created signature) policy.now
        leeway policy.checkTemporal = .ok b := by
  simp only [checkDiPolicy, bind_eq_ok]
  constructor
  · rintro ⟨⟨⟩, hpurpose, ⟨⟩, hbinding, hwindow⟩
    obtain ⟨hchallenge, hdomain⟩ := checkPresentationBinding_signed.mp hbinding
    exact ⟨⟨checkProofPurpose_signed.mp hpurpose, hchallenge, hdomain⟩, hwindow⟩
  · rintro ⟨⟨hpurpose, hchallenge, hdomain⟩, hwindow⟩
    exact ⟨(), checkProofPurpose_signed.mpr hpurpose, (),
      checkPresentationBinding_signed.mpr ⟨hchallenge, hdomain⟩, hwindow⟩

end DiIssuance

/-! ## The key -/

section Keys

variable {C : Crypto} {key : SigningKey} {jwk : Dict} {profile : AlgProfile}
  {data signature : Bytes}

/-- The suite signs under the profile that it matches to the public key. -/
theorem SignsFor.matchAlg_eq (hs : SignsFor C key jwk profile) {allowed : List AlgProfile}
    (hallowed : allowed = [eddsaProfile] ∨ allowed = ecdsaProfiles) {cryptosuite : Str}
    {p : AlgProfile} (h : signingProfile allowed cryptosuite key.alg = .ok p) :
    p = profile ∧ matchAlg jwk allowed cryptosuite = .ok profile := by
  rw [signingProfile, orRaise_eq_ok] at h
  have hmem : p ∈ allowed := List.mem_of_find?_eq_some h
  have halg : p.alg = profile.alg := by
    have := List.find?_some h
    rw [← hs.alg]
    exact of_decide_eq_true this
  have hkind := hs.kind
  rw [matchAlg, orRaise_eq_ok]
  rcases hallowed with rfl | rfl
  · obtain rfl := List.mem_singleton.mp hmem
    have hlisted := hs.listed
    simp only [ecdsaProfiles, List.mem_cons, List.not_mem_nil, or_false] at hlisted
    rcases hlisted with rfl | rfl | rfl
    · exact ⟨rfl, by rw [List.find?_cons, hkind]⟩
    · exact absurd halg (by decide)
    · exact absurd halg (by decide)
  · have hlisted := hs.listed
    simp only [ecdsaProfiles, List.mem_cons, List.not_mem_nil, or_false] at hlisted hmem
    rcases hlisted with rfl | rfl | rfl
    · rcases hmem with rfl | rfl
      · exact absurd halg (by decide)
      · exact absurd halg (by decide)
    · rcases hmem with rfl | rfl
      · exact ⟨rfl, by rw [ecdsaProfiles, List.find?_cons, hkind]⟩
      · exact absurd halg (by decide)
    · rcases hmem with rfl | rfl
      · exact absurd halg (by decide)
      · refine ⟨rfl, ?_⟩
        -- the curve of the key is P-384, so that the first profile is passed over
        have hfirst : VcJwt.isKind jwk "EC" "P-256" = false := by
          rw [VcJwt.isKind, Bool.and_eq_true] at hkind
          have hcrv := hkind.2
          rw [VcJwt.isKind, Bool.and_eq_false_iff]
          right
          cases hget : jwk.get "crv" with
          | str crv =>
            rw [hget, Json.pyEq, beq_iff_eq] at hcrv
            rw [hcrv, Json.pyEq]
            decide
          | _ => simp [Json.pyEq, Json.num?]
        rw [ecdsaProfiles, List.find?_cons, hfirst, List.find?_cons, hkind]

theorem SignsFor.checkDiSignature_eq_ok (hs : SignsFor C key jwk profile)
    (hsign : key.sign data = .ok signature) (cryptosuite : Str) :
    checkDiSignature C profile.alg jwk data signature cryptosuite = .ok () := by
  have hverify := hs.verifies data signature hsign
  rw [hs.alg] at hverify
  simp only [checkDiSignature, bind_eq_ok, reraise_eq_ok, raiseIf_eq_ok]
  exact ⟨true, hverify, rfl⟩

theorem SignsFor.verifyEd25519_eq_ok (hs : SignsFor C key jwk profile)
    (halg : key.alg = lit "EdDSA") (hsign : key.sign data = .ok signature) :
    verifyEd25519 C jwk data signature = .ok true := by
  have hprofile : profile = eddsaProfile := by
    have hlisted := hs.listed
    have hname := hs.alg
    rw [halg] at hname
    simp only [ecdsaProfiles, List.mem_cons, List.not_mem_nil, or_false] at hlisted
    rcases hlisted with rfl | rfl | rfl
    · rfl
    · exact absurd hname (by decide)
    · exact absurd hname (by decide)
  subst hprofile
  have hkind : VcJwt.isKind jwk "OKP" "Ed25519" = true := hs.kind
  have hverify := hs.verifies data signature hsign
  rw [halg, verifySignature, if_pos (by decide)] at hverify
  simp only [bind_eq_ok, orRaise_eq_ok, raiseIf_eq_ok, pure_eq_ok] at hverify
  obtain ⟨raw, hraw, ⟨⟩, hlen, hok⟩ := hverify
  have hx : (jwk.get "x").str?.isNone = false := by
    rw [jwkBytes] at hraw
    split at hraw
    · rename_i s hget
      rw [Dict.get, hget]
      rfl
    · cases hraw
  simp only [verifyEd25519, bind_eq_ok, raiseIf_eq_ok, orRaise_eq_ok, pure_eq_ok, hkind, hx, hraw]
  refine ⟨(), rfl, raw, ?_, hok⟩
  rw [Option.filter_some, if_pos]
  simpa using hlen

end Keys

/-! ## The round trip -/

namespace Pipeline

variable {H : Host} {I : Interpreter} {suite : DiSuite} {credential secured jwk : Dict}
  {a : DiIssuance} {profile : AlgProfile}

/-- The whole-document suite's `add_proof` returned this document. -/
def IsIssued (I : Interpreter) (C : Crypto) (L : JsonLd) (suite : DiSuite) (credential : Dict)
    (a : DiIssuance) (secured : Dict) : Prop :=
  match suite with
  | .ecdsaSd => False
  | .eddsaJcs => eddsaJcsSuite.addProof I C credential a = .ok secured
  | .ecdsaJcs => ecdsaJcsSuite.addProof I C credential a = .ok secured
  | .ecdsaRdfc => EcdsaRdfc.addProof I C L credential a = .ok secured
  | .eddsaRdfc => DataIntegrity.addProof I C L credential a = .ok secured

/-- Verifying gives the policy's verdict on the issued proof: the signature is no obstacle. -/
def PolicyDecides (H : Host) (suite : DiSuite) (jwk credential : Dict) (a : DiIssuance)
    (secured : Dict) : Prop :=
  ∃ proof, secured.get "proof" = .obj proof ∧ secured.erase "proof" = credential ∧
    ∀ leeway key resolver policy verified, diKey H.crypto key proof resolver = .ok jwk →
      (verifyDiSuite H suite leeway secured key resolver policy = .ok verified ↔
        a.Meets policy ∧ ∃ expired, checkWindowAt H.I credential proof policy.now leeway
          policy.checkTemporal = .ok expired ∧ verified = verifiedDi secured proof expired)

theorem checkUnsecured_eq_ok {noContext : String}
    (h : checkUnsecured credential noContext = .ok ()) : credential.has "proof" = false := by
  simp only [checkUnsecured, bind_eq_ok, raiseIf_eq_ok] at h
  obtain ⟨⟨⟩, -, h⟩ := h
  exact h

theorem get_proof_secured {proof : Dict} :
    Dict.get (credential.set "proof" (.obj proof)) "proof" = .obj proof := by
  rw [Dict.get, Dict.get?_set, if_pos rfl]
  rfl

/-- The policy checks, with the result that follows them. -/
theorem checkDiPolicy_verdict {I : Interpreter} {cryptosuite created : Str} {signature : Bytes}
    {policy : DiPolicy} {leeway : Int} {verified : VerifiedDi} :
    (∃ expired, checkDiPolicy I credential (a.signedProof cryptosuite created signature) policy
        leeway = .ok expired ∧
      verifiedDi secured (a.signedProof cryptosuite created signature) expired = verified) ↔
      a.Meets policy ∧ ∃ expired, checkWindowAt I credential
        (a.signedProof cryptosuite created signature) policy.now leeway policy.checkTemporal =
          .ok expired ∧
        verified = verifiedDi secured (a.signedProof cryptosuite created signature) expired := by
  constructor
  · rintro ⟨expired, hpolicy, rfl⟩
    obtain ⟨hmeets, hwindow⟩ := DiIssuance.checkDiPolicy_signed.mp hpolicy
    exact ⟨hmeets, expired, hwindow, rfl⟩
  · rintro ⟨hmeets, expired, hwindow, rfl⟩
    exact ⟨expired, DiIssuance.checkDiPolicy_signed.mpr ⟨hmeets, hwindow⟩, rfl⟩

theorem policyDecides_jcs {s : JcsSuite}
    (hallowed : s.allowed = [eddsaProfile] ∨ s.allowed = ecdsaProfiles)
    (hrun : ∀ leeway doc key resolver policy,
      verifyDiSuite H suite leeway doc key resolver policy =
        s.verify H.I H.crypto leeway doc key resolver policy)
    (hadd : s.addProof I H.crypto credential a = .ok secured)
    (hsigns : SignsFor H.crypto a.signingKey jwk profile)
    (hdepth : nestingExceeds (.obj credential) maxDepth = false) :
    PolicyDecides H suite jwk credential a secured := by
  simp only [JcsSuite.addProof, bind_eq_ok, pure_eq_ok] at hadd
  obtain ⟨p, hp, ⟨⟩, hcheck, created, -, data, hdata, signature, hsign, rfl⟩ := hadd
  have hnone := checkUnsecured_eq_ok hcheck
  have hmem := EcdsaSd.not_mem_keys_of_has hnone
  obtain ⟨rfl, hmatch⟩ := hsigns.matchAlg_eq hallowed hp
  rw [Dict.erase_of_not_mem hmem] at hdata
  refine ⟨a.signedProof s.cryptosuite created signature, get_proof_secured,
    EcdsaSd.erase_set hmem _, ?_⟩
  intro leeway key resolver policy verified hkey
  have hprepared := DiIssuance.prepareDiProof_secured a s.cryptosuite created hnone
    (hsigns.length data signature hsign) hdepth
  have hsig := hsigns.checkDiSignature_eq_ok hsign s.cryptosuite
  rw [← checkDiPolicy_verdict]
  simp only [hrun, JcsSuite.verify, EcdsaSd.erase_set hmem, bind_eq_ok, pure_eq_ok]
  constructor
  · rintro ⟨p', hp', jwk', -, profile', -, data', -, ⟨⟩, -, hverdict⟩
    rw [hprepared] at hp'
    cases hp'
    exact hverdict
  · intro hverdict
    exact ⟨_, hprepared, jwk, hkey, p, hmatch, data, hdata, (), hsig, hverdict⟩

/-- What the RDF suites hash and validate to sign, a verifier hashes and validates. -/
theorem rdfSigningInput_eq_ok {C : Crypto} {L : JsonLd} {unsecured config : Dict} {hash : DiHash}
    {data : Bytes} : rdfSigningInput C L unsecured config hash = .ok data ↔
      rdfHashData C L unsecured config hash = .ok data ∧
        L.validateDocument unsecured config = .ok () := by
  simp only [rdfSigningInput, bind_eq_ok, pure_eq_ok]
  constructor
  · rintro ⟨data', hdata, ⟨⟩, hvalid, rfl⟩
    exact ⟨hdata, hvalid⟩
  · rintro ⟨hdata, hvalid⟩
    exact ⟨data, hdata, (), hvalid, rfl⟩

theorem policyDecides_eddsaRdfc
    (hadd : DataIntegrity.addProof I H.crypto H.jsonLd credential a = .ok secured)
    (hsigns : SignsFor H.crypto a.signingKey jwk profile)
    (hdepth : nestingExceeds (.obj credential) maxDepth = false) :
    PolicyDecides H .eddsaRdfc jwk credential a secured := by
  simp only [DataIntegrity.addProof, bind_eq_ok, pure_eq_ok, raiseIf_eq_ok,
    rdfSigningInput_eq_ok] at hadd
  obtain ⟨⟨⟩, halg, ⟨⟩, hcheck, created, -, data, ⟨hdata, hvalid⟩, signature, hsign, rfl⟩ := hadd
  have hnone := checkUnsecured_eq_ok hcheck
  have hmem := EcdsaSd.not_mem_keys_of_has hnone
  rw [Dict.erase_of_not_mem hmem] at hdata hvalid
  refine ⟨a.signedProof DataIntegrity.cryptosuite created signature, get_proof_secured,
    EcdsaSd.erase_set hmem _, ?_⟩
  intro leeway key resolver policy verified hkey
  have hprepared := DiIssuance.prepareDiProof_secured a DataIntegrity.cryptosuite created hnone
    (hsigns.length data signature hsign) hdepth
  have hsig := hsigns.verifyEd25519_eq_ok (by simpa using halg) hsign
  rw [← checkDiPolicy_verdict]
  simp only [verifyDiSuite, DataIntegrity.verify, EcdsaSd.erase_set hmem, bind_eq_ok, pure_eq_ok,
    raiseIf_eq_ok]
  constructor
  · rintro ⟨p', hp', data', -, jwk', -, ok, -, ⟨⟩, -, ⟨⟩, -, hverdict⟩
    rw [hprepared] at hp'
    cases hp'
    exact hverdict
  · intro hverdict
    exact ⟨_, hprepared, data, hdata, jwk, hkey, true, hsig, (), rfl, (), hvalid, hverdict⟩

theorem policyDecides_ecdsaRdfc
    (hadd : EcdsaRdfc.addProof I H.crypto H.jsonLd credential a = .ok secured)
    (hsigns : SignsFor H.crypto a.signingKey jwk profile)
    (hdepth : nestingExceeds (.obj credential) maxDepth = false) :
    PolicyDecides H .ecdsaRdfc jwk credential a secured := by
  simp only [EcdsaRdfc.addProof, bind_eq_ok, pure_eq_ok, rdfSigningInput_eq_ok] at hadd
  obtain ⟨p, hp, ⟨⟩, hcheck, created, -, data, ⟨hdata, hvalid⟩, signature, hsign, rfl⟩ := hadd
  have hnone := checkUnsecured_eq_ok hcheck
  have hmem := EcdsaSd.not_mem_keys_of_has hnone
  obtain ⟨rfl, hmatch⟩ := hsigns.matchAlg_eq (.inr rfl) hp
  rw [Dict.erase_of_not_mem hmem] at hdata hvalid
  refine ⟨a.signedProof EcdsaRdfc.cryptosuite created signature, get_proof_secured,
    EcdsaSd.erase_set hmem _, ?_⟩
  intro leeway key resolver policy verified hkey
  have hprepared := DiIssuance.prepareDiProof_secured a EcdsaRdfc.cryptosuite created hnone
    (hsigns.length data signature hsign) hdepth
  have hsig := hsigns.checkDiSignature_eq_ok hsign EcdsaRdfc.cryptosuite
  rw [← checkDiPolicy_verdict]
  simp only [verifyDiSuite, EcdsaRdfc.verify, EcdsaSd.erase_set hmem, bind_eq_ok, pure_eq_ok]
  constructor
  · rintro ⟨p', hp', jwk', -, profile', -, data', -, ⟨⟩, -, ⟨⟩, -, hverdict⟩
    rw [hprepared] at hp'
    cases hp'
    exact hverdict
  · intro hverdict
    exact ⟨_, hprepared, jwk, hkey, p, hmatch, data, hdata, (), hsig, (), hvalid, hverdict⟩

/-- Whatever a whole-document suite has issued within the depth bound, it accepts under the key of
the signer exactly when the policy expects what the proof was issued for and the validity window
holds. -/
theorem verifyDiSuite_addProof (hissued : IsIssued I H.crypto H.jsonLd suite credential a secured)
    (hsigns : SignsFor H.crypto a.signingKey jwk profile)
    (hdepth : nestingExceeds (.obj credential) maxDepth = false) :
    PolicyDecides H suite jwk credential a secured := by
  cases suite with
  | ecdsaSd => exact hissued.elim
  | eddsaJcs =>
    exact policyDecides_jcs (s := eddsaJcsSuite) (.inl rfl) (fun _ _ _ _ _ => rfl) hissued hsigns
      hdepth
  | ecdsaJcs =>
    exact policyDecides_jcs (s := ecdsaJcsSuite) (.inr rfl) (fun _ _ _ _ _ => rfl) hissued hsigns
      hdepth
  | ecdsaRdfc => exact policyDecides_ecdsaRdfc hissued hsigns hdepth
  | eddsaRdfc => exact policyDecides_eddsaRdfc hissued hsigns hdepth

/-! ## A note -/

/-- The bytes of a pair of halves. -/
def halves (n : Nat × Nat) : Bytes := Codec.intToFixed n.1 32 ++ Codec.intToFixed n.2 32

/-- What is signed for the note. -/
def noteData : Nat × Nat :=
  (0xb5a5a51a014ac9685d3454de25935e974cb6425c44c42bd3fae410b2b4cfd04f,
    0xb1a6affc6091313a5606129926ab2fed029112f020e0052a377da8974b8158b0)

/-- The signature of the note. -/
def noteSignature : Nat × Nat :=
  (0x188a6cbbc78e5c397d82ef7445782bd30f5c662e4c288db2b6def6c848953c63,
    0x7f10aa3ea5fa66b462bd6b6045b89ebd0c7a50a0dd7b951b7b299a0180a35306)

/-- The key that signs the note. -/
def noteKey : SigningKey where
  alg := "EdDSA"
  kid := "did:example:i#k"
  sign data :=
    if data = halves noteData then .ok (halves noteSignature)
    else raise .exception "no signature is on record" []

/-- The public key of the note. -/
def noteJwk : Dict :=
  [("kty", .str "OKP"), ("crv", .str "Ed25519"),
    ("x", .str "QosYda3LyO8ueiwkdu3xITfglFaKMXYdIhjSK0V5MD0")]

/-- The note. -/
def note : Dict :=
  [("@context", .str "https://www.w3.org/ns/credentials/v2"), ("issuer", .str "did:example:i")]

/-- What the note is issued for. -/
def noteIssuance : DiIssuance where
  signingKey := noteKey
  verificationMethod := "did:example:i#k"
  challenge := some (lit "c")
  created := some ⟨1767225600000000, some 0⟩

/-- A host that knows the signature of the note. -/
def noteHost : Host :=
  { cardHost 1800000000 with
    crypto := .ofTable [(0x428b1875adcbc8ef2e7a2c2476edf12137e094568a31761d2218d22b4579303d,
      noteData, noteSignature)] }

theorem noteKey_sign {data signature : Bytes} (h : noteKey.sign data = .ok signature) :
    data = halves noteData ∧ signature = halves noteSignature := by
  change (if data = halves noteData then _ else _) = _ at h
  split at h
  · rename_i hdata
    cases h
    exact ⟨hdata, rfl⟩
  · cases h

theorem noteKey_signsFor : SignsFor noteHost.crypto noteKey noteJwk eddsaProfile where
  listed := List.mem_cons_self
  alg := rfl
  kind := by decide
  verifies data signature h := by
    obtain ⟨rfl, rfl⟩ := noteKey_sign h
    exact eq_ok_of_toOption (by decide +kernel)
  length data signature h := by
    obtain ⟨rfl, rfl⟩ := noteKey_sign h
    decide +kernel

theorem note_issued :
    returned (eddsaJcsSuite.addProof noteHost.I noteHost.crypto note noteIssuance) = true := by
  decide +kernel

/-- The note is issued, and whether it is accepted is for the policy to say. -/
theorem verifyDiSuite_addProof_note :
    ∃ secured, eddsaJcsSuite.addProof noteHost.I noteHost.crypto note noteIssuance = .ok secured ∧
      PolicyDecides noteHost .eddsaJcs noteJwk note noteIssuance secured := by
  obtain ⟨secured, hsecured⟩ := returned_iff.mp note_issued
  have hissued : IsIssued noteHost.I noteHost.crypto noteHost.jsonLd .eddsaJcs note noteIssuance
      secured := hsecured
  exact ⟨secured, hsecured, verifyDiSuite_addProof hissued noteKey_signsFor (by decide +kernel)⟩

end Pipeline

end OpenVC
