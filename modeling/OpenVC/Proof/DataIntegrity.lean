import OpenVC.Did.Base
import OpenVC.Jcs
import OpenVC.Proof.ValidateDocument
import OpenVC.Proof.VcJwt

/-!
# Data Integrity proofs over the whole document (`openvc.proof.data_integrity`, `di_jcs`,
`di_ecdsa_rdfc`)

An embedded proof signs the hash of its own configuration and the hash of the document without it.
The RDF suites canonicalize with a JSON-LD processor, which is a parameter; the JCS suites canonicalize
with `Jcs`.
-/

namespace OpenVC

open Python

/-! ## The key of a verification method -/

/-- The document the resolver gives for a DID, `none` where the lookup is left to the offline
`did:key` resolver. -/
def resolvedDocument (resolver : Option Did.DidResolver) (did : Str) : Result Did.Resolved :=
  match resolver with
  | none => .ok .none
  | some resolver =>
    if resolver.handles did then
      reraise
        (tryExcept (resolver.resolve did) (·.cls.isa .unsupportedDidMethod) fun _ => .ok .none)
        (·.cls.isa .didResolutionError) .keyResolutionError "could not resolve %: " [.str did]
    else .ok .none

/-- The offline fallback of `resolve_verification_key`. -/
def offlineDocument (C : Crypto) (verificationMethod did : Str) : Result Did.Resolved := do
  raiseIf (!did.startsWith "did:key:") ⟨.keyResolutionError,
    "cannot resolve % offline (pass a resolver, or an injected public_key_jwk)",
    [.str verificationMethod]⟩
  let doc ← reraise (Did.DidKey.resolve C did) (·.cls.isa .didResolutionError) .keyResolutionError
    "could not resolve %: " [.str did]
  return .document doc

/-- The document a verification method is looked up in. -/
def didDocument (C : Crypto) (resolver : Option Did.DidResolver) (verificationMethod did : Str) :
    Result Did.Resolved := do
  let doc ← resolvedDocument resolver did
  match doc with
  | .none => offlineDocument C verificationMethod did
  | doc => .ok doc

/-- The refusal of a method that `key_for_purpose` did not give, by the number of methods with its
id. -/
def refuseMethod (verificationMethod purpose : Str) (found : Nat) : Result Dict :=
  if found = 0 then
    raise .keyResolutionError "verificationMethod % not in the DID document"
      [.str verificationMethod]
  else if 1 < found then
    raise .keyResolutionError "verificationMethod % names % methods in the DID document"
      [.str verificationMethod, .int found]
  else
    raise .proofPurposeMismatch "verificationMethod % is not authorized for proofPurpose %"
      [.str verificationMethod, .str purpose]

/-- The key of the method in a document, for a purpose. -/
def documentKey (doc : Did.Resolved) (verificationMethod purpose : Str) : Result Dict :=
  match doc with
  | .none => raise .attributeError "key_for_purpose" []
  | .document doc =>
    match doc.keyForPurpose (some verificationMethod) purpose with
    | some vm => .ok vm.publicKeyJwk
    | none =>
      refuseMethod verificationMethod purpose
        (doc.methodsWithId verificationMethod doc.base).length
  | .other doc =>
    match doc.keyForPurpose verificationMethod purpose with
    | some jwk => .ok jwk
    | none =>
      refuseMethod verificationMethod purpose
        (if (doc.keyByKid (.str verificationMethod)).isNone then 0 else 1)

/-- The relationship a `proofPurpose` names. -/
def purposeOf (proofPurpose : Json) : Str :=
  match proofPurpose with
  | .str (c :: t) => c :: t
  | _ => "assertionMethod"

/-- `resolve_verification_key(verification_method, proof_purpose, resolver)`. -/
def resolveVerificationKey (C : Crypto) (verificationMethod proofPurpose : Json)
    (resolver : Option Did.DidResolver) : Result Dict := do
  let vm ← orRaise (verificationMethod.str?.filter (!·.isEmpty))
    ⟨.keyResolutionError, "proof has no verificationMethod to resolve", []⟩
  raiseIf (!proofPurpose.isNull && proofPurpose.str?.isNone)
    ⟨.proofMalformed, "proofPurpose must be a string, not %", [.str (Did.typeName proofPurpose)]⟩
  let doc ← didDocument C resolver vm (Str.beforeFirst 35 vm)
  documentKey doc vm (purposeOf proofPurpose)

/-! ## Policy -/

/-- What a caller of a suite's `verify` asks for. -/
structure DiPolicy where
  expectedProofPurpose : Option Str := some "assertionMethod"
  expectedChallenge : Option Str := none
  expectedDomain : Option Str := none
  now : Option DateTime := none
  checkTemporal : Bool := true

/-- `check_proof_purpose(proof, expected)`. -/
def checkProofPurpose (proof : Dict) (expected : Option Str) : Result Unit :=
  raiseIf (expected.any fun e => !Json.pyEq (proof.get "proofPurpose") (.str e))
    ⟨.proofPurposeMismatch, "proofPurpose % != expected %",
      [proof.get "proofPurpose", .str (expected.getD [])]⟩

/-- Whether a `domain` is the expected one, or a list that has it. -/
def domainIncludes (domain : Json) (expected : Str) : Bool :=
  Json.pyEq domain (.str expected) ||
    match domain with
    | .arr l => l.any (Json.pyEq (.str expected))
    | _ => false

/-- `check_presentation_binding(proof, expected_challenge, expected_domain)`. -/
def checkPresentationBinding (proof : Dict) (expectedChallenge expectedDomain : Option Str) :
    Result Unit := do
  raiseIf (expectedChallenge.any fun e => !Json.pyEq (proof.get "challenge") (.str e))
    ⟨.presentationBindingError, "proof challenge % != expected %",
      [proof.get "challenge", .str (expectedChallenge.getD [])]⟩
  raiseIf (expectedDomain.any fun e => !domainIncludes (proof.get "domain") e)
    ⟨.presentationBindingError, "proof domain % does not include expected %",
      [proof.get "domain", .str (expectedDomain.getD [])]⟩

/-- `check_validity_window(document, proof, now, leeway_s, check_temporal)`. -/
def checkWindowAt (I : Interpreter) (document proof : Dict) (now : Option DateTime) (leewayS : Int)
    (checkTemporal : Bool) : Result Bool := do
  let instant ← utcInstant I now .proofError
  checkValidityWindow { I with utcNow := instant } document proof leewayS checkTemporal

/-! ## The proof -/

/-- `PROOF_TYPE`. -/
def diProofType : Str := "DataIntegrityProof"

/-- A checked proof object: the proof, what of it is signed, and the signature. -/
structure DiProof where
  proof : Dict
  config : Dict
  signature : Bytes

/-- The proof without its value, with the context of the document. -/
def proofConfig (proof : Dict) (context : Json) : Dict :=
  (proof.erase "proofValue").set "@context" context

/-- `prepare_di_proof(secured, proof_type, cryptosuite)`. -/
def prepareDiProof (secured : Dict) (cryptosuite : Str) : Result DiProof := do
  raiseIf (nestingExceeds (.obj secured) maxDepth)
    ⟨.proofMalformed, "credential is nested deeper than % levels", [.int maxDepth]⟩
  let proof ← orRaise (secured.get "proof").obj?
    ⟨.proofMalformed, "credential has no proof object", []⟩
  raiseIf (!Json.pyEq (proof.get "type") (.str diProofType))
    ⟨.proofMalformed, "unexpected proof type %", [proof.get "type"]⟩
  raiseIf (!Json.pyEq (proof.get "cryptosuite") (.str cryptosuite))
    ⟨.unsupportedCryptosuite, "unsupported cryptosuite %", [proof.get "cryptosuite"]⟩
  let proofValue ← orRaise (proof.get "proofValue").str?
    ⟨.proofMalformed, "proof has no proofValue", []⟩
  let signature ← reraise (Multibase.decodeMultibase proofValue) (fun _ => true) .proofMalformed
    "invalid proofValue: " []
  return ⟨proof, proofConfig proof (secured.get "@context"), signature⟩

/-- A `VerifiedDataIntegrity` (or a `VerifiedSdCredential`, which has the same fields). -/
structure VerifiedDi where
  credential : Dict
  issuer : Json
  subject : Json
  proof : Dict
  expired : Bool

/-- The result of a suite. -/
def verifiedDi (secured proof : Dict) (expired : Bool) : VerifiedDi where
  credential := secured
  issuer := VcJwt.identifier (secured.get "issuer")
  subject := VcJwt.subjectId secured
  proof := proof
  expired := expired

/-- `public_key_jwk or resolve_verification_key(…)`. -/
def diKey (C : Crypto) (publicKeyJwk : Option Dict) (proof : Dict)
    (resolver : Option Did.DidResolver) : Result Dict :=
  match publicKeyJwk with
  | some (m :: jwk) => .ok (m :: jwk)
  | _ =>
    resolveVerificationKey C (proof.get "verificationMethod") (proof.get "proofPurpose") resolver

/-- The policy checks that follow the signature. -/
def checkDiPolicy (I : Interpreter) (unsecured proof : Dict) (policy : DiPolicy) (leeway : Int) :
    Result Bool := do
  checkProofPurpose proof policy.expectedProofPurpose
  checkPresentationBinding proof policy.expectedChallenge policy.expectedDomain
  checkWindowAt I unsecured proof policy.now leeway policy.checkTemporal

/-- The digest of an algorithm profile. -/
inductive DiHash where
  | sha256
  | sha384

/-- `getattr(hashlib, hash_name)`. -/
def Crypto.digest (C : Crypto) : DiHash → Bytes → Bytes
  | .sha256 => C.sha256
  | .sha384 => C.sha384

/-- `ALG_PROFILE[alg]`: the key type, the curve and the digest. -/
structure AlgProfile where
  alg : Str
  kty : Str
  crv : Str
  hash : DiHash

/-- `ALG_PROFILE["EdDSA"]`. -/
def eddsaProfile : AlgProfile := ⟨"EdDSA", "OKP", "Ed25519", .sha256⟩

/-- The profiles of the ECDSA suites, in the order of their names. -/
def ecdsaProfiles : List AlgProfile :=
  [⟨"ES256", "EC", "P-256", .sha256⟩, ⟨"ES384", "EC", "P-384", .sha384⟩]

/-- `match_alg(jwk, allowed_algs, cryptosuite)`. -/
def matchAlg (jwk : Dict) (allowed : List AlgProfile) (cryptosuite : Str) : Result AlgProfile :=
  orRaise (allowed.find? fun p => VcJwt.isKind jwk p.kty p.crv)
    ⟨.proofMalformed, "% does not accept a kty=% crv=% key",
      [.str cryptosuite, jwk.get "kty", jwk.get "crv"]⟩

/-- The signature check of the suites that match the algorithm to the key. -/
def checkDiSignature (C : Crypto) (alg : Str) (jwk : Dict) (data signature : Bytes)
    (cryptosuite : Str) : Result Unit := do
  let ok ← reraise (verifySignature C alg jwk data signature)
    (fun e => e.cls.isa .openvcError || e.cls.isa .valueError || e.cls.isa .keyError)
    .signatureInvalid "% proof does not verify: " [.str cryptosuite]
  raiseIf (!ok) ⟨.signatureInvalid, "% proof does not verify", [.str cryptosuite]⟩

/-! ## The JCS suites -/

/-- `_hash_data(unsecured, proof_config, hash_name)` of the JCS suites. -/
def jcsHashData (C : Crypto) (unsecured config : Dict) (hash : DiHash) : Result Bytes :=
  reraise (do
    let config ← Jcs.canonicalize (.obj config)
    let document ← Jcs.canonicalize (.obj unsecured)
    return C.digest hash config ++ C.digest hash document)
    (fun e => e.cls.isa .jcsError || e.cls.isa .valueError || e.cls.isa .typeError)
    .proofMalformed "document is not JCS-canonicalizable: " []

/-- A `_JcsProofSuite`. -/
structure JcsSuite where
  cryptosuite : Str
  allowed : List AlgProfile

/-- `EddsaJcsProofSuite`. -/
def eddsaJcsSuite : JcsSuite := ⟨"eddsa-jcs-2022", [eddsaProfile]⟩

/-- `EcdsaJcsProofSuite`. -/
def ecdsaJcsSuite : JcsSuite := ⟨"ecdsa-jcs-2019", ecdsaProfiles⟩

/-- `_JcsProofSuite.verify(secured, …)`. -/
def JcsSuite.verify (I : Interpreter) (C : Crypto) (suite : JcsSuite) (leeway : Int)
    (secured : Dict) (publicKeyJwk : Option Dict) (resolver : Option Did.DidResolver)
    (policy : DiPolicy) : Result VerifiedDi := do
  let p ← prepareDiProof secured suite.cryptosuite
  let unsecured := secured.erase "proof"
  let jwk ← diKey C publicKeyJwk p.proof resolver
  let profile ← matchAlg jwk suite.allowed suite.cryptosuite
  let data ← jcsHashData C unsecured p.config profile.hash
  checkDiSignature C profile.alg jwk data p.signature suite.cryptosuite
  let expired ← checkDiPolicy I unsecured p.proof policy leeway
  return verifiedDi secured p.proof expired

/-! ## The RDF suites -/

/-- Whether a code point is a UTF-16 surrogate. -/
def isSurrogate (c : Nat) : Bool := 0xD800 ≤ c && c ≤ 0xDFFF

/-- `_json.utf8(text, error, what)`. -/
def utf8 (text : Str) (error : ErrorClass) (what : String) : Result Bytes :=
  orRaise (Codec.encodeUtf8 text)
    ⟨error, what ++ " holds a lone UTF-16 surrogate (U+% at index %)",
      [.int (text.getD (text.findIdx isSurrogate) 0), .int (text.findIdx isSurrogate)]⟩

/-- What the JSON-LD processor gave, as `_canonize` reports it. -/
def canonized : Except JsonLdError Str → Result Str
  | .ok nquads => .ok nquads
  | .error .unavailable => raise .dataIntegrityError
      "Data Integrity needs the pyld JSON-LD processor: pip install 'openvc-core[data-integrity]'" []
  | .error (.loader text) => raise .documentLoaderError "%" [.str text]
  | .error (.other text) => raise .dataIntegrityError "canonicalization failed: %" [.str text]

/-- `_canonize(document, loader)`. -/
def canonize (L : JsonLd) (document : Dict) : Result Bytes := do
  let nquads ← canonized (L.normalize document)
  utf8 nquads .dataIntegrityError "the canonical N-Quads"

/-- `_hash_data(document, proof_config, loader)` of the RDF suites, with the digest. -/
def rdfHashData (C : Crypto) (L : JsonLd) (unsecured config : Dict) (hash : DiHash) :
    Result Bytes := do
  let config ← canonize L config
  let document ← canonize L unsecured
  return C.digest hash config ++ C.digest hash document

/-- `_verify_ed25519(jwk, data, signature)`. -/
def verifyEd25519 (C : Crypto) (jwk : Dict) (data signature : Bytes) : Result Bool := do
  raiseIf (!VcJwt.isKind jwk "OKP" "Ed25519" || (jwk.get "x").str?.isNone)
    ⟨.proofMalformed, "public key is not an Ed25519 (OKP) JWK", []⟩
  let raw ← orRaise ((jwkBytes jwk "x").filter (·.length == 32))
    ⟨.proofMalformed, "malformed Ed25519 public key: ", []⟩
  return C.ed25519Verify raw data signature

namespace DataIntegrity

/-- `CRYPTOSUITE`. -/
def cryptosuite : Str := "eddsa-rdfc-2022"

/-- `DataIntegrityProofSuite.verify(secured, …)`. -/
def verify (I : Interpreter) (C : Crypto) (L : JsonLd) (leeway : Int) (secured : Dict)
    (publicKeyJwk : Option Dict) (resolver : Option Did.DidResolver) (policy : DiPolicy) :
    Result VerifiedDi := do
  let p ← prepareDiProof secured cryptosuite
  let unsecured := secured.erase "proof"
  let data ← rdfHashData C L unsecured p.config .sha256
  let jwk ← diKey C publicKeyJwk p.proof resolver
  let ok ← verifyEd25519 C jwk data p.signature
  raiseIf (!ok) ⟨.signatureInvalid, "Data Integrity proof does not verify", []⟩
  L.validateDocument unsecured p.config
  let expired ← checkDiPolicy I unsecured p.proof policy leeway
  return verifiedDi secured p.proof expired

end DataIntegrity

namespace EcdsaRdfc

/-- `ECDSA_RDFC_CRYPTOSUITE`. -/
def cryptosuite : Str := "ecdsa-rdfc-2019"

/-- `EcdsaRdfcProofSuite.verify(secured, …)`. -/
def verify (I : Interpreter) (C : Crypto) (L : JsonLd) (leeway : Int) (secured : Dict)
    (publicKeyJwk : Option Dict) (resolver : Option Did.DidResolver) (policy : DiPolicy) :
    Result VerifiedDi := do
  let p ← prepareDiProof secured cryptosuite
  let unsecured := secured.erase "proof"
  let jwk ← diKey C publicKeyJwk p.proof resolver
  let profile ← matchAlg jwk ecdsaProfiles cryptosuite
  let data ← rdfHashData C L unsecured p.config profile.hash
  checkDiSignature C profile.alg jwk data p.signature cryptosuite
  L.validateDocument unsecured p.config
  let expired ← checkDiPolicy I unsecured p.proof policy leeway
  return verifiedDi secured p.proof expired

end EcdsaRdfc

end OpenVC
