import OpenVC.JwkThumbprint
import OpenVC.Keys
import OpenVC.Mdoc
import OpenVC.Pipeline
import OpenVC.Python.Calling

/-!
# OpenID4VCI Credential Requests (`openvc.openid4vci`)

A Credential Request carries key proofs, each a JWT that a wallet signed with a key it wants a
credential bound to. Every proof is verified on its own; the batch then has to share one nonce and
no two keys. The nonce store is the caller's: its one operation, `check_nonce`, is a call.
-/

namespace OpenVC.OpenId4Vci

open Python

/-- `PROOF_TYPE_JWT`. -/
def proofTypeJwt : Str := "jwt"

/-- `PROOF_TYP`. -/
def proofTyp : List Str := ["openid4vci-proof+jwt", "application/openid4vci-proof+jwt"]

/-- `MAX_PROOF_BYTES`. -/
def maxProofBytes : Nat := 16 * 1024

/-- `MAX_KEY_ATTESTATION_BYTES`. -/
def maxKeyAttestationBytes : Nat := 16 * 1024

/-- `DEFAULT_PROOF_MAX_AGE_S`. -/
def defaultProofMaxAgeS : Int := 300

/-- `_KEY_PARAMS`. -/
def keyParams : List Str := ["jwk", "kid", "x5c", "trust_chain"]

/-- `_PRIVATE_JWK_MEMBERS`, sorted. -/
def privateJwkMembers : List Str := ["d", "dp", "dq", "k", "p", "priv", "q", "qi"]

/-! ## The request -/

/-- A `CredentialRequest`. -/
structure CredentialRequest where
  credentialConfigurationId : Option Str
  credentialIdentifier : Option Str
  proofType : Option Str
  proofs : List Str
  responseEncryption : Option Dict
  raw : Dict

/-- `_as_mapping(value, subject)`. -/
def asMapping (value : Json) (subject : Str) : Result Dict :=
  match value with
  | .obj m => .ok m
  | .str text => do
    let parsed ← recast (loads text) .valueError
      ⟨.credentialRequestMalformed, "% is not valid JSON: ", [.str subject]⟩
    orRaise parsed.obj?
      ⟨.credentialRequestMalformed, "% must be a JSON object", [.str subject]⟩
  | _ => raise .credentialRequestMalformed "% must be an object or a JSON string" [.str subject]

/-- A member of the body that is a non-empty string when present. -/
def optionalString (body : Dict) (name : Str) : Result (Option Str) := do
  raiseIf (!(body.get name).isNull && ((body.get name).str?.filter (!·.isEmpty)).isNone)
    ⟨.credentialRequestMalformed, "% must be a non-empty string", [.str name]⟩
  return (body.get name).str?

/-- The only member of an object. -/
def onlyMember : Dict → Option (Str × Json)
  | [member] => some member
  | _ => none

/-- One entry of the `proofs` array. -/
def proofEntry (proofType : Str) (value : Json) : Result Str := do
  let value ← orRaise (value.str?.filter (!·.isEmpty))
    (if proofType = proofTypeJwt then
      ⟨.credentialRequestMalformed, "proofs[%] entries must be non-empty strings",
        [.str proofType]⟩
    else ⟨.unsupportedProofType, "proof type % is not supported (only 'jwt')", [.str proofType]⟩)
  raiseIf (!value.isAscii) ⟨.credentialRequestMalformed,
    "proofs[%] entries must be ASCII compact JWS strings", [.str proofType]⟩
  raiseIf (decide (maxProofBytes < value.length)) ⟨.credentialRequestMalformed,
    "proofs[%] entry exceeds % bytes", [.str proofType, .int maxProofBytes]⟩
  return value

/-- `_parse_proofs(proofs, limit)`. -/
def parseProofs (proofs : Json) (limit : Int) : Result (Str × List Str) := do
  let members ← orRaise proofs.obj?
    ⟨.credentialRequestMalformed, "Credential Request needs a proofs object", []⟩
  let (proofType, values) ← orRaise (onlyMember members) ⟨.credentialRequestMalformed,
    "proofs must carry exactly one proof type, got %", [.int members.length]⟩
  raiseIf proofType.isEmpty
    ⟨.credentialRequestMalformed, "proofs key must be a non-empty string", []⟩
  let values ← orRaise (values.arr?.filter (!·.isEmpty))
    ⟨.credentialRequestMalformed, "proofs[%] must be a non-empty array", [.str proofType]⟩
  raiseIf (limit < values.length) ⟨.credentialRequestMalformed,
    "proofs[%] has % entries, batch limit is %",
    [.str proofType, .int values.length, .int limit]⟩
  let values ← collect (proofEntry proofType) values
  return (proofType, values)

/-- `parse_credential_request(body, batch_size, supported_configuration_ids)`. -/
def parseCredentialRequest (body : Json) (batchSize : Option Int)
    (supportedConfigurationIds : Option (List Str)) : Result CredentialRequest := do
  let body ← asMapping body "Credential Request"
  raiseIf (decide (batchSize.getD 1 < 1))
    ⟨.credentialRequestMalformed, "batch_size must be at least 1", []⟩
  raiseIf ((body.get "credential_configuration_id").isNull ==
      (body.get "credential_identifier").isNull) ⟨.credentialRequestMalformed,
    "Credential Request needs exactly one of credential_configuration_id or credential_identifier",
    []⟩
  let configId ← optionalString body "credential_configuration_id"
  let identifier ← optionalString body "credential_identifier"
  raiseIf (configId.any fun c => supportedConfigurationIds.any fun ids => !ids.contains c)
    ⟨.credentialRequestMalformed, "unsupported credential_configuration_id %",
      [.str (configId.getD [])]⟩
  let (proofType, proofs) ← parseProofs (body.get "proofs") (batchSize.getD 1)
  raiseIf (!(body.get "credential_response_encryption").isNull &&
      (body.get "credential_response_encryption").obj?.isNone)
    ⟨.credentialRequestMalformed, "credential_response_encryption must be an object", []⟩
  return ⟨configId, identifier, some proofType, proofs,
    (body.get "credential_response_encryption").obj?, body⟩

/-! ## Key attestations -/

/-- An `UnverifiedKeyAttestation`. -/
structure UnverifiedKeyAttestation where
  attestedKeys : List Dict
  keyStorage : List Str
  userAuthentication : List Str
  certification : Option Str
  nonce : Option Str
  status : Option Dict
  issuedAt : Option Int
  expiresAt : Option Int
  header : Dict
  claims : Dict

/-- `_attestation_strings(value, name)`. -/
def attestationStrings (value : Json) (name : Str) : Result (List Str) :=
  if value.isNull then .ok []
  else orRaise ((value.arr?.filter fun l => !l.isEmpty && l.all (·.str?.isSome)).map
      (·.filterMap Json.str?))
    ⟨.claimsInvalid, "key attestation % must be a non-empty array of strings when present",
      [.str name]⟩

/-- `_attestation_string(value, name)`. -/
def attestationString (value : Json) (name : Str) : Result (Option Str) := do
  raiseIf (!value.isNull && value.str?.isNone)
    ⟨.claimsInvalid, "key attestation % must be a string when present", [.str name]⟩
  return value.str?

/-- `_attestation_object(value)`. -/
def attestationObject (value : Json) : Result (Option Dict) := do
  raiseIf (!value.isNull && value.obj?.isNone)
    ⟨.claimsInvalid, "key attestation status must be an object when present", []⟩
  return value.obj?

/-- `_attestation_timestamp(value, name)`. -/
def attestationTimestamp (value : Json) (name : Str) : Result (Option Int) := do
  raiseIf (!value.isNull && !isNumericDate value) ⟨.claimsInvalid,
    "key attestation % must be a finite numeric timestamp when present", [.str name]⟩
  return if value.isNull then none else some value.trunc

/-- `peek_key_attestation(attestation)`. -/
def peekKeyAttestation (attestation : Str) : Result UnverifiedKeyAttestation := do
  raiseIf (!attestation.isAscii)
    ⟨.malformedToken, "key attestation must be an ASCII compact JWS", []⟩
  raiseIf (decide (maxKeyAttestationBytes < attestation.length))
    ⟨.malformedToken, "key attestation exceeds % bytes", [.int maxKeyAttestationBytes]⟩
  let jws ← Pipeline.parseCompact attestation
  let keys ← orRaise ((jws.payload.get "attested_keys").arr?.filter (!·.isEmpty))
    ⟨.claimsInvalid, "key attestation attested_keys must be a non-empty array", []⟩
  let keys ← collect (fun key => orRaise key.obj?
    ⟨.claimsInvalid, "key attestation attested_keys entries must be JWK objects", []⟩) keys
  let keyStorage ← attestationStrings (jws.payload.get "key_storage") "key_storage"
  let userAuthentication ← attestationStrings (jws.payload.get "user_authentication")
    "user_authentication"
  let certification ← attestationString (jws.payload.get "certification") "certification"
  let nonce ← attestationString (jws.payload.get "nonce") "nonce"
  let status ← attestationObject (jws.payload.get "status")
  let issuedAt ← attestationTimestamp (jws.payload.get "iat") "iat"
  let expiresAt ← attestationTimestamp (jws.payload.get "exp") "exp"
  return ⟨keys, keyStorage, userAuthentication, certification, nonce, status, issuedAt, expiresAt,
    jws.header, jws.payload⟩

/-- The `key_attestation` of a proof's header. -/
def headerAttestation (header : Dict) : Result (Option Str) := do
  raiseIf (!(header.get "key_attestation").isNull && (header.get "key_attestation").str?.isNone)
    ⟨.claimsInvalid, "key_attestation header must be a string when present", []⟩
  return (header.get "key_attestation").str?

/-- The attestation, parsed if there is one. -/
def parseAttestation (attestation : Option Str) : Result (Option UnverifiedKeyAttestation) :=
  match attestation with
  | none => .ok none
  | some attestation => do
    let parsed ← peekKeyAttestation attestation
    return some parsed

/-! ## The key of a proof -/

/-- A `ProofKeyContext`. -/
structure ProofKeyContext where
  kid : Str
  alg : Str
  header : Dict
  keyAttestation : Option UnverifiedKeyAttestation
  credentialIssuer : Str
  index : Nat

/-- The interpreter and the packages outside the library. -/
structure Env where
  interpreter : Interpreter
  crypto : Crypto
  x509 : SignerX509

/-- The arguments of a call but for the request. A resolver answers each proof by its place. -/
structure Call (E : Env) where
  credentialIssuer : Str
  /-- Whether `check_nonce` was given. -/
  checkNonce : Bool := true
  requireNonce : Bool := true
  expectedClientId : Option Str := none
  resolveProofKey : Option (Nat → Str → Result Json) := none
  resolveProofKeyInContext : Option (ProofKeyContext → Result Json) := none
  trustAnchors : List E.x509.Certificate := []
  requireKeyAttestation : Bool := false
  maxAgeS : Int := defaultProofMaxAgeS
  leewayS : Int := 60
  now : Option DateTime := none
  allowedAlgs : List Str := OpenVC.allowedAlgs
  batchSize : Option Int := none

variable {E : Env}

/-- The key of a `jwk` header. -/
def headerJwk (header : Dict) (alg : Str) : Result Dict := do
  let jwk ← orRaise (header.get "jwk").obj?
    ⟨.claimsInvalid, "key proof jwk header must be an object", []⟩
  raiseIf (privateJwkMembers.any fun name => jwk.has name)
    ⟨.claimsInvalid, "key proof jwk carries private members %",
      [.arr ((privateJwkMembers.filter fun name => jwk.has name).map .str)]⟩
  checkKeyBindsToAlg jwk alg
  return jwk

/-- The key of an `x5c` header. -/
def headerX5c (call : Call E) (header : Dict) (alg : Str) : Result Dict := do
  raiseIf call.trustAnchors.isEmpty ⟨.claimsInvalid,
    "key proof uses x5c but no trust_anchors were given to validate it", []⟩
  let chain ← X5c.loadX5cChain E.x509.toX509 (header.get "x5c")
  X5c.validateCertChain E.x509.toX509 E.interpreter chain call.trustAnchors call.now
  let jwk ← X5c.leafPublicJwk E.x509 chain.1
  checkKeyBindsToAlg jwk alg
  return jwk

/-- What the caller's resolver gives for a `kid`, with the refusal of what is not a JWK. -/
def resolveKid (call : Call E) (context : ProofKeyContext) : Result (Json × Err) :=
  match call.resolveProofKeyInContext, call.resolveProofKey with
  | some resolve, _ => do
    let jwk ← resolve context
    return (jwk, ⟨.claimsInvalid, "resolve_proof_key_in_context did not return a JWK", []⟩)
  | none, some resolve => do
    let jwk ← resolve context.index context.kid
    return (jwk,
      ⟨.claimsInvalid, "resolve_proof_key(%) did not return a JWK", [.str context.kid]⟩)
  | none, none => raise .claimsInvalid
    "key proof uses kid but no resolve_proof_key was given to resolve it (or resolve_proof_key_in_context, if the key is in the header's key_attestation)"
    []

/-- The key of a `kid` header. -/
def headerKid (call : Call E) (header : Dict) (alg : Str)
    (attestation : Option UnverifiedKeyAttestation) (index : Nat) : Result Dict := do
  let kid ← orRaise ((header.get "kid").str?.filter (!·.isEmpty))
    ⟨.claimsInvalid, "key proof kid header must be a non-empty string", []⟩
  let (jwk, refusal) ← resolveKid call
    ⟨kid, alg, header, attestation, call.credentialIssuer, index⟩
  let jwk ← orRaise jwk.obj? refusal
  checkKeyBindsToAlg jwk alg
  return jwk

/-- The key parameters that a header carries. -/
def presentParams (header : Dict) : List Str := keyParams.filter fun name => !(header.get name).isNull

/-- The key of a header parameter. -/
def keyOfSource (call : Call E) (header : Dict) (alg : Str)
    (attestation : Option UnverifiedKeyAttestation) (index : Nat) (source : Str) : Result Dict :=
  if source = lit "jwk" then headerJwk header alg
  else if source = lit "x5c" then headerX5c call header alg
  else if source = lit "kid" then headerKid call header alg attestation index
  else raise .unsupportedProofType
    "OpenID Federation trust_chain proof keys are not supported" []

/-- The only element of a list. -/
def onlyOne : List Str → Option Str
  | [source] => some source
  | _ => none

/-- `_proof_key(header, alg, …)`. -/
def proofKey (call : Call E) (header : Dict) (alg : Str)
    (attestation : Option UnverifiedKeyAttestation) (index : Nat) : Result (Dict × Str) := do
  let source ← orRaise (onlyOne (presentParams header))
    ⟨.claimsInvalid, "key proof must carry exactly one of jwk/kid/x5c/trust_chain, got %",
      [.arr ((presentParams header).map .str)]⟩
  let jwk ← keyOfSource call header alg attestation index source
  return (jwk, source)

/-- `_thumbprint(jwk, subject)`. -/
def thumbprint (C : Crypto) (jwk : Dict) (subject : Str) : Result Str :=
  reraise (jwkThumbprint C jwk) (·.cls.isa .invalidKey) .claimsInvalid
    "% cannot be thumbprinted: " [.str subject]

/-- Whether one of the keys has the thumbprint. The keys after the first that has it are not
read. -/
def isAttested (C : Crypto) (proofThumbprint : Str) : List Dict → Result Bool
  | [] => .ok false
  | key :: keys => do
    let found ← thumbprint C key "an attested key"
    if found = proofThumbprint then return true else isAttested C proofThumbprint keys

/-- `_check_attested_key(thumbprint, attestation)`, where there is an attestation. -/
def checkAttestedKey (C : Crypto) (proofThumbprint : Str)
    (attestation : Option UnverifiedKeyAttestation) : Result Unit :=
  match attestation with
  | none => .ok ()
  | some attestation => do
    let attested ← isAttested C proofThumbprint attestation.attestedKeys
    raiseIf (!attested) ⟨.claimsInvalid,
      "the key that signed this proof is not among the key attestation's attested_keys (compared by RFC 7638 thumbprint — note that a JWK whose coordinates are not fixed-width per RFC 7518 §6.2.1.2 thumbprints differently from the same key encoded correctly)",
      []⟩

/-! ## One proof -/

/-- A `VerifiedProof`. -/
structure VerifiedProof where
  publicJwk : Dict
  thumbprint : Str
  alg : Str
  keySource : Str
  issuedAt : Int
  nonce : Option Str
  clientId : Option Str
  keyAttestation : Option Str
  header : Dict
  claims : Dict

/-- The `typ` of a key proof. -/
def checkTyp (header : Dict) : Result Unit :=
  raiseIf (!(header.get "typ").str?.any proofTyp.contains)
    ⟨.claimsInvalid, "key proof typ must be openid4vci-proof+jwt, got %", [header.get "typ"]⟩

/-- `verify_compact(token, public_key_jwk, allowed_algs)`. -/
def verifyCompact (C : Crypto) (allowed : List Str) (token : Str) (jwk : Dict) :
    Result SdJwt.Jws := do
  let jws ← Pipeline.parseCompact token
  let alg ← orRaise (VcJwt.permittedAlg allowed jws.header)
    ⟨.unsupportedAlgorithm, "algorithm % is not permitted", [jws.header.get "alg"]⟩
  rejectUnknownCrit jws.header
  let ok ← reraise (verifySignature C alg jwk jws.signingInput jws.signature)
    (·.cls.isa .keyBackendError) .signatureInvalid "could not verify signature: " []
  raiseIf (!ok) ⟨.signatureInvalid, "signature verification failed", []⟩
  return jws

/-- The values of an `aud` claim. -/
def audValues : Json → Option (List Json)
  | .str s => some [.str s]
  | .arr l => some l
  | _ => none

/-- `_check_audience(aud, credential_issuer)`. -/
def checkAudience (aud : Json) (credentialIssuer : Str) : Result Unit := do
  let values ← orRaise (audValues aud)
    ⟨.claimsInvalid, "key proof aud must be a string or an array", []⟩
  raiseIf (values.length != 1) ⟨.claimsInvalid,
    "key proof aud must name exactly one audience, got %", [.int values.length]⟩
  raiseIf (!values.all fun value => Json.pyEq value (.str credentialIssuer)) ⟨.claimsInvalid,
    "key proof aud % is not this Credential Issuer %", values ++ [.str credentialIssuer]⟩

/-- The `iss` of a key proof. -/
def checkClient (claims : Dict) (expected : Option Str) : Result (Option Str) := do
  raiseIf (!(claims.get "iss").isNull && (claims.get "iss").str?.isNone)
    ⟨.claimsInvalid, "key proof iss must be a string when present", []⟩
  raiseIf (expected.any fun e => (claims.get "iss").str? != some e)
    ⟨.claimsInvalid, "key proof iss % does not match the authenticated client",
      [claims.get "iss"]⟩
  return (claims.get "iss").str?

/-- The `nonce` of a key proof. -/
def readNonce (claims : Dict) : Result (Option Str) := do
  raiseIf (!(claims.get "nonce").isNull &&
      ((claims.get "nonce").str?.filter (!·.isEmpty)).isNone)
    ⟨.claimsInvalid, "key proof nonce must be a non-empty string when present", []⟩
  return (claims.get "nonce").str?

/-- `utc_epoch(now)`. -/
def currentEpoch (I : Interpreter) (now : Option DateTime) : Int :=
  match now with
  | none => (Json.float I.time).trunc
  | some now => utcEpoch now

/-- `_verify_one_proof(proof, …)`, the proof with its index. -/
def verifyOneProof (call : Call E) (entry : Str × Nat) : Result VerifiedProof := do
  let parsed ← Pipeline.parseCompact entry.1
  checkTyp parsed.header
  let alg ← orRaise (VcJwt.permittedAlg call.allowedAlgs parsed.header)
    ⟨.unsupportedAlgorithm, "key proof alg % is not allow-listed", [parsed.header.get "alg"]⟩
  rejectUnknownCrit parsed.header
  let attestationJwt ← headerAttestation parsed.header
  let attestation ← parseAttestation attestationJwt
  raiseIf (call.requireKeyAttestation && attestation.isNone)
    ⟨.claimsInvalid, "key proof is missing the required key_attestation header", []⟩
  let (jwk, source) ← proofKey call parsed.header alg attestation entry.2
  let proofThumbprint ← thumbprint E.crypto jwk "the key proof's key"
  checkAttestedKey E.crypto proofThumbprint attestation
  let jws ← verifyCompact E.crypto call.allowedAlgs entry.1 jwk
  checkAudience (jws.payload.get "aud") call.credentialIssuer
  let current := Json.int (currentEpoch E.interpreter call.now)
  let issuedAt ← checkIatFreshness (jws.payload.get "iat") call.maxAgeS call.leewayS current
    "key proof"
  let _ ← checkJwtTemporal E.interpreter jws.payload call.leewayS "key proof" (some current) true
  let clientId ← checkClient jws.payload call.expectedClientId
  let nonce ← readNonce jws.payload
  return ⟨jwk, proofThumbprint, alg, source, issuedAt, nonce, clientId, attestationJwt,
    parsed.header, jws.payload⟩

/-! ## The batch -/

/-- The request as the caller hands it in. -/
inductive RequestInput where
  | parsed (request : CredentialRequest)
  /-- A mapping, or a JSON text. -/
  | body (value : Json)

/-- The request of a call. -/
def readRequest (call : Call E) : RequestInput → Result CredentialRequest
  | .parsed request => .ok request
  | .body value => parseCredentialRequest value call.batchSize none

/-- The checks on the arguments of a call. -/
def checkArguments (call : Call E) : Result Unit := do
  let _ ← leewaySeconds call.leewayS "leeway_s" .credentialRequestMalformed
  raiseIf call.credentialIssuer.isEmpty
    ⟨.credentialRequestMalformed, "credential_issuer must be a non-empty string", []⟩
  raiseIf (call.requireNonce && !call.checkNonce) ⟨.claimsInvalid,
    "a nonce is required but no check_nonce was given to consume it; pass check_nonce, or set require_nonce=False to opt out explicitly",
    []⟩
  raiseIf (call.maxAgeS < 0) ⟨.credentialRequestMalformed, "max_age_s must not be negative", []⟩
  raiseIf (call.resolveProofKey.isSome && call.resolveProofKeyInContext.isSome)
    ⟨.credentialRequestMalformed,
      "pass resolve_proof_key or resolve_proof_key_in_context, not both", []⟩

/-- The part of `verify_credential_request_proofs` before the batch invariants. -/
def verifyEach (call : Call E) (input : RequestInput) : Result (List VerifiedProof) := do
  checkArguments call
  let request ← readRequest call input
  raiseIf (request.proofType != some proofTypeJwt)
    ⟨.unsupportedProofType, "proof type % is not supported (only 'jwt')",
      [(request.proofType.map .str).getD .null]⟩
  collect (verifyOneProof call) request.proofs.zipIdx

/-- The only element of the set of the nonces. -/
def sharedNonce : List (Option Str) → Option (Option Str)
  | [] => none
  | nonce :: nonces => if nonces.all (· == nonce) then some nonce else none

/-- The invariants of the batch that need no call: its nonce. -/
def checkBatch (call : Call E) (verified : List VerifiedProof) : Result (Option Str) := do
  let nonce ← orRaise (sharedNonce (verified.map (·.nonce))) ⟨.claimsInvalid,
    "all key proofs in a Credential Request must carry the same nonce", []⟩
  raiseIf (call.requireNonce && nonce.isNone)
    ⟨.claimsInvalid, "key proof is missing the required nonce", []⟩
  raiseIf (!decide (verified.map (·.thumbprint)).Nodup)
    ⟨.claimsInvalid, "two key proofs in the batch are bound to the same key", []⟩
  return nonce

/-- Code that calls `check_nonce`. -/
abbrev Checking (α : Type) := Calling Str (fun _ => Bool) Err α

/-- The consumption of the nonce. -/
def consumeNonce (call : Call E) (nonce : Option Str) : Checking Unit :=
  match nonce.filter fun _ => call.checkNonce with
  | none => pure ()
  | some nonce => do
    let fresh ← Calling.ask nonce
    raiseIf (!fresh) (⟨.proofReplayed, "nonce % was already consumed or is unknown",
      [.str nonce]⟩ : Err)

/-- `_check_batch_invariants(verified, check_nonce, require_nonce)`. -/
def checkBatchInvariants (call : Call E) (verified : List VerifiedProof) : Checking Unit := do
  let nonce ← checkBatch call verified
  consumeNonce call nonce

/-- `verify_credential_request_proofs(request, …)`. -/
def verifyCredentialRequestProofs (call : Call E) (input : RequestInput) :
    Checking (List VerifiedProof) := do
  let verified ← verifyEach call input
  checkBatchInvariants call verified
  return verified

end OpenVC.OpenId4Vci
