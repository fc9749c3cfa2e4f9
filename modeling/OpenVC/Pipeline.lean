import OpenVC.Proof.EcdsaSd
import OpenVC.Proof.SdJwt
import OpenVC.Schema
import OpenVC.Verify
import OpenVC.X5c

/-!
# The verification pipeline (`openvc.verify`)

`verify_credential` detects the format of a credential, finds the key of its issuer, runs the proof
suite and then the checks on types, status and schema. What the library takes from other packages is
a `Host`, what the caller hands in is a `Sources`.
-/

namespace OpenVC

open Python

/-- The interpreter, the primitives and the packages outside the library, with the JSON-LD contexts
the caller serves. -/
structure Host where
  I : Interpreter
  crypto : Crypto
  pyJwt : PyJwt
  zlib : Zlib
  x509 : X509
  jsonLd : JsonLd
  schemas : Schema.Processor

/-- The resolvers and trust anchors of a call. -/
structure Sources (H : Host) where
  resolver : Did.DidResolver
  statusList : Option Resolver
  statusListToken : Option Resolver
  credentialSchema : Option Schema.SchemaResolver
  jwtVcIssuerFetch : Option Fetch
  x5cTrustAnchors : Option (List H.x509.Certificate)

/-- The resolvers of the status gate. -/
def Sources.status {H : Host} (S : Sources H) : Resolvers := ⟨S.statusList, S.statusListToken⟩

namespace Pipeline

/-- A `VerificationPolicy`. A bare string of `expected_types` is the list of it. -/
structure Policy extends VerificationPolicy where
  leewayS : Int := 60
  leeway_ok : 0 ≤ leewayS ∧ leewayS ≤ maxLeewayS := by decide
  expectedTypes : List Str := []
  expectedVct : Option Str := none
  audience : Option Str := none
  nonce : Option Str := none
  requireKeyBinding : Bool := false
  proofPurpose : Str := "assertionMethod"
  requireSchema : Bool := false
  now : Option DateTime := none
  requireNotExpired : Bool := true
  kbMaxAgeS : Int := defaultKbMaxAgeS
  kbMaxAge_ok : 0 ≤ kbMaxAgeS := by decide

/-- The policy a schema-defining credential is verified under, `_schema_inner_policy(policy)`. -/
def schemaInnerPolicy (policy : Policy) : Policy :=
  { leewayS := policy.leewayS
    leeway_ok := policy.leeway_ok
    requireStatus := policy.requireStatus
    now := policy.now
    requireStatusIssuerBinding := policy.requireStatusIssuerBinding
    statusIssuerAllowlist := policy.statusIssuerAllowlist
    kbMaxAgeS := policy.kbMaxAgeS
    kbMaxAge_ok := policy.kbMaxAge_ok }

/-! ## Formats -/

/-- The Data Integrity cryptosuites. -/
inductive DiSuite where
  | eddsaRdfc
  | ecdsaSd
  | eddsaJcs
  | ecdsaJcs
  | ecdsaRdfc
  deriving DecidableEq

/-- `_CRYPTOSUITE_FORMAT`. -/
def DiSuite.ofName (name : Str) : Option DiSuite :=
  if name = lit "eddsa-rdfc-2022" then some .eddsaRdfc
  else if name = lit "ecdsa-sd-2023" then some .ecdsaSd
  else if name = lit "eddsa-jcs-2022" then some .eddsaJcs
  else if name = lit "ecdsa-jcs-2019" then some .ecdsaJcs
  else if name = lit "ecdsa-rdfc-2019" then some .ecdsaRdfc
  else none

/-- The format tags of a result. -/
inductive Format where
  | vcJwt
  | sdJwtVc
  | dataIntegrity (suite : DiSuite)
  deriving DecidableEq

/-- A credential under its format. -/
inductive Detected where
  | vcJwt (token : Str)
  | sdJwtVc (sdJwt : Str)
  | dataIntegrity (suite : DiSuite) (doc : Dict)
  | enveloped (doc : Dict)

/-- The entries of a `type` that is a string or an array. -/
def typeList : Json → Option (List Json)
  | .str s => some [.str s]
  | .arr l => some l
  | _ => none

/-- How a message shows a cryptosuite. -/
def shownSuite (cryptosuite : Json) : Json :=
  match cryptosuite with
  | .str s => .str s
  | v => .str (Did.typeName v)

/-- The format of a dict with a proof. -/
def detectProof (doc : Dict) : Result Detected := do
  let proof ← orRaise (doc.get "proof").obj? ⟨.unknownCredentialFormat,
    "dict has no `proof` and is not an EnvelopedVerifiableCredential", []⟩
  let suite ← orRaise ((proof.get "cryptosuite").str?.bind DiSuite.ofName)
    ⟨.unknownCredentialFormat, "unsupported Data Integrity cryptosuite %",
      [shownSuite (proof.get "cryptosuite")]⟩
  return .dataIntegrity suite doc

/-- The format of a dict. -/
def detectDict (doc : Dict) : Result Detected := do
  let types ← orRaise (typeList ((doc.get? "type").getD (.arr []))) ⟨.unknownCredentialFormat,
    "credential `type` must be a string or an array, not %",
    [.str (Did.typeName (doc.get "type"))]⟩
  if types.any (Json.pyEq (.str (lit "EnvelopedVerifiableCredential"))) then
    return .enveloped doc
  else detectProof doc

/-- `detect_format(credential)`. -/
def detectFormat : Json → Result Detected
  | .str s =>
    if s.contains 126 then .ok (.sdJwtVc s)
    else if s.count 46 = 2 then .ok (.vcJwt s)
    else raise .unknownCredentialFormat "string is neither a compact JWS nor an SD-JWT" []
  | .obj doc => detectDict doc
  | v => raise .unknownCredentialFormat "cannot verify a %" [.str (Did.typeName v)]

/-- The payload of a `data:` URL, with its media type. -/
def dataPayload (params : List Str) (payload : Str) : Result Str :=
  if params.contains (lit "base64") then
    orRaise ((Codec.b64Decode payload).bind (Codec.decodeUtf8 false)) ⟨.valueError, "base64", []⟩
  else .ok payload

/-- The credential of a media type; `none` for a media type that is not supported. -/
def mediaCredential (media payload : Str) : Result (Option Json) :=
  if [lit "application/vc+jwt", lit "application/jwt"].contains media then
    .ok (some (.str payload))
  else if decide (lit "sd-jwt" <:+: media) then .ok (some (.str payload))
  else if [lit "application/vc+ld+json", lit "application/vc", lit "application/ld+json"].contains
      media then do
    let vc ← loads payload
    return some vc
  else .ok none

/-- The decoding block of `_unwrap_enveloped`. -/
def decodeEnveloped (params : List Str) (media payload : Str) : Result (Option Json) := do
  let payload ← dataPayload params payload
  mediaCredential media payload

/-- `_unwrap_enveloped(doc)`. -/
def unwrapEnveloped (doc : Dict) : Result Json := do
  let eid ← orRaise ((doc.get "id").str?.filter (·.startsWith "data:"))
    ⟨.unknownCredentialFormat, "EnvelopedVerifiableCredential has no `data:` id to unwrap", []⟩
  let (mediaType, _, payload) := Str.partition 44 (eid.drop (lit "data:").length)
  raiseIf payload.isEmpty
    ⟨.unknownCredentialFormat, "enveloped `data:` id has no payload", []⟩
  let params := Str.split 59 mediaType
  let media := params.headD []
  let credential ← reraise (decodeEnveloped params.tail media payload) (·.cls.isa .valueError)
    .unknownCredentialFormat "malformed enveloped payload for media %: " [.str media]
  orRaise credential
    ⟨.unknownCredentialFormat, "unsupported enveloped media type %", [.str media]⟩

/-- `_reject_deep_credential(credential)`. -/
def rejectDeepCredential (credential : Json) : Result Unit :=
  raiseIf (credential.str?.isNone && nestingExceeds credential maxDepth)
    ⟨.unknownCredentialFormat, "credential is nested deeper than % levels", [.int maxDepth]⟩

/-! ## Results -/

/-- The result of the suite behind a verification. -/
inductive Raw where
  | vcJwt (verified : VcJwt.Verified)
  | sdJwtVc (verified : SdJwt.Verified)
  | dataIntegrity (verified : VerifiedDi)

/-- A `VerificationResult`. -/
structure VerificationResult where
  format : Format
  credential : Dict
  issuer : Str
  /-- `null` when there is none. -/
  subject : Json
  claims : Option Dict
  keyBound : Option Bool
  status : Option StatusOutcome
  schema : Option Schema.ValidationResult
  raw : Raw
  expired : Bool

/-! ## The key of a JOSE issuer -/

/-- `parse_compact(token)`. -/
def parseCompact (token : Str) : Result SdJwt.Jws := do
  let (segments, header, payload, signature) ← recast (SdJwt.decodeSegments token) .valueError
    ⟨.malformedToken, "not a valid compact JWS (need 3 base64url JSON parts)", []⟩
  let header ← orRaise header.obj?
    ⟨.malformedToken, "JWS header and payload must be JSON objects", []⟩
  let payload ← orRaise payload.obj?
    ⟨.malformedToken, "JWS header and payload must be JSON objects", []⟩
  let signingInput ← orRaise (Codec.encodeAscii (segments.header ++ 46 :: segments.payload))
    ⟨.valueError, "UnicodeEncodeError", []⟩
  return ⟨header, payload, signingInput, signature⟩

/-- The key of a `kid` in the document of a JOSE issuer. -/
def joseDocumentKey (doc : Did.Resolved) (iss : Str) (kid : Json) : Result Dict :=
  match doc with
  | .none => raise .attributeError "key_by_kid" []
  | .document doc => orRaise ((doc.keyByKid kid).map (·.publicKeyJwk)) (noMethod iss kid)
  | .other doc => orRaise (doc.keyByKid kid) (noMethod iss kid)
where
  noMethod (iss : Str) (kid : Json) : Err :=
    ⟨.keyResolutionFailed, "no verification method for kid % in DID %", [kid, .str iss]⟩

/-- The failures of the well-known lookup that are typed. -/
def lookupFailed (e : Err) : Bool := e.cls.isa .jwtVcIssuerError || e.cls.isa .didError

variable {H : Host}

/-- The key of an https issuer. -/
def resolveHttpsKey (S : Sources H) (iss : Str) (kid : Json) : Result Dict := do
  let fetch ← orRaise S.jwtVcIssuerFetch ⟨.keyResolutionFailed,
    "issuer % is an https URL; pass jwt_vc_issuer_fetch (e.g. openvc.fetch.https_json_fetch) to resolve its key",
    [.str iss]⟩
  reraise (JwtVcIssuer.resolveKey H.I fetch iss kid) lookupFailed .keyResolutionFailed
    "could not resolve issuer key for %: " [.str iss]

/-- The key of a DID issuer. -/
def resolveDidKey (S : Sources H) (iss : Str) (kid : Json) : Result Dict := do
  let doc ← reraise (S.resolver.resolve iss) (·.cls.isa .didError) .keyResolutionFailed
    "could not resolve issuer DID %: " [.str iss]
  joseDocumentKey doc iss kid

/-- `_resolve_jose_key(resolver, iss, kid, jwt_vc_issuer_fetch)`. -/
def resolveJoseKey (S : Sources H) (iss : Str) (kid : Json) : Result Dict :=
  if iss.startsWith "https://" then resolveHttpsKey S iss kid else resolveDidKey S iss kid

/-- The compact JWS of a token. -/
def compactJws (token : Str) (sdJwt : Bool) : Str :=
  if sdJwt then Str.beforeFirst 126 token else token

/-- `resolve_x5c_key` as the pipeline calls it. -/
def resolveX5c (H : Host) (x5c : Json) (iss : Str) (anchors : List H.x509.Certificate)
    (now : Option DateTime) : Result Dict :=
  reraise (X5c.resolveKey H.x509 H.I x5c iss anchors now) (·.cls.isa .x5cError)
    .keyResolutionFailed "x5c key resolution failed for issuer %: " [.str iss]

/-- `_resolve_jose_key_with_x5c(token, iss, kid, sd_jwt, …)`. -/
def resolveJoseKeyWithX5c (S : Sources H) (token : Str) (iss : Str) (kid : Json) (sdJwt : Bool)
    (now : Option DateTime) : Result Dict :=
  match S.x5cTrustAnchors with
  | none => resolveJoseKey S iss kid
  | some anchors => do
    let jws ← parseCompact (compactJws token sdJwt)
    if (jws.header.get "x5c").truthy then resolveX5c H (jws.header.get "x5c") iss anchors now
    else resolveJoseKey S iss kid

/-! ## Checks after the proof -/

/-- `_check_types(credential, expected)`. -/
def checkTypes (credential : Dict) (expected : List Str) : Result Unit :=
  let missing := expected.filter fun t => !(VcJwt.typeEntries credential).any (Json.pyEq (.str t))
  raiseIf (!missing.isEmpty)
    ⟨.typeMismatch, "credential is missing required type(s): %", missing.map .str⟩

/-- `_check_sd_jwt_types(verified, expected)`. -/
def checkSdJwtTypes (verified : SdJwt.Verified) (expected : List Str) : Result Unit :=
  if verified.vcdm then checkTypes verified.claims expected
  else raiseIf (!expected.isEmpty) ⟨.typeMismatch,
    "expected_types constrains a W3C credential's `type`; this IETF SD-JWT VC is typed by `vct` (pin it with expected_vct)",
    []⟩

/-- The suites whose proof covers the RDF dataset. -/
def DiSuite.isRdf : DiSuite → Bool
  | .eddsaRdfc | .ecdsaRdfc | .ecdsaSd => true
  | .eddsaJcs | .ecdsaJcs => false

/-- `expected_types` by the expanded types. -/
def checkRdfTypes (L : JsonLd) (credential : Dict) (expected : List Str) : Result Unit :=
  if expected.isEmpty then .ok ()
  else do
    let missing ← L.missingTypes credential expected
    raiseIf (!missing.isEmpty) ⟨.typeMismatch,
      "credential is missing required type(s): %. An RDF Data Integrity credential is typed by IRI: a name matches only through a context the verifier serves (bundled or extra_contexts), never the credential's own @context, so serve the context (or @vocab) that defines it, or pin the full type IRI",
      missing.map .str⟩

/-- `_check_di_types(credential, expected, fmt, extra_contexts)`. -/
def checkDiTypes (L : JsonLd) (suite : DiSuite) (credential : Dict) (expected : List Str) :
    Result Unit :=
  if suite.isRdf then checkRdfTypes L credential expected else checkTypes credential expected

/-- The refusal of a declared schema that cannot be fetched. -/
def refuseUnresolvedSchema (requireSchema : Bool) : Result Unit :=
  raiseIf requireSchema ⟨.schemaUnavailable,
    "credential declares a credentialSchema but no resolve_credential_schema was given (set policy.require_schema=False to skip)",
    []⟩

/-- `_check_schema(credential, policy, resolve_credential_schema, verify_inner)`. -/
def checkSchema (H : Host) (credential : Dict) (policy : Policy)
    (resolve : Option Schema.SchemaResolver) (verifyInner : Option Schema.VerifyInner) :
    Result (Option Schema.ValidationResult) :=
  if !(credential.get "credentialSchema").truthy then .ok none
  else match resolve with
    | none => do
      refuseUnresolvedSchema policy.requireSchema
      return none
    | some resolve => do
      let result ← Schema.validateCredentialSchema H.crypto H.schemas credential resolve verifyInner
      return some result

/-- `_bind_issuer_to_verification_method(verified)`: the issuer that is bound. -/
def bindIssuer (verified : VerifiedDi) : Result Str := do
  let issuer ← orRaise (verified.issuer.str?.filter (!·.isEmpty)) ⟨.issuerBindingError,
    "Data Integrity credential has no issuer to bind the key to", []⟩
  raiseIf (!(verified.proof.get "verificationMethod").str?.any
      fun vm => Str.beforeFirst 35 vm == issuer)
    ⟨.issuerBindingError, "proof verificationMethod % is not controlled by issuer %",
      [verified.proof.get "verificationMethod", .str issuer]⟩
  return issuer

/-! ## The handlers -/

/-- The suite that the VC-JWT handler builds. -/
def Policy.vcJwtSuite (policy : Policy) : VcJwt.Suite :=
  ⟨policy.leewayS, policy.leeway_ok, false, false⟩

/-- The suite that the SD-JWT handler builds. -/
def Policy.sdJwtSuite (policy : Policy) : SdJwt.Suite := ⟨policy.leewayS, policy.leeway_ok, false⟩

/-- The result of the VC-JWT handler. -/
def vcJwtResult (verified : VcJwt.Verified) (status : Option StatusOutcome)
    (schema : Option Schema.ValidationResult) : VerificationResult where
  format := .vcJwt
  credential := verified.credential
  issuer := verified.issuer
  subject := (verified.subject.map Json.str).getD .null
  claims := some verified.claims
  keyBound := none
  status := status
  schema := schema
  raw := .vcJwt verified
  expired := verified.expired

/-- `_verify_vc_jwt(token, policy, …)`. -/
def verifyVcJwt (S : Sources H) (policy : Policy) (verifyInner : Option Schema.VerifyInner)
    (token : Str) : Result VerificationResult := do
  let (iss, kid) ← VcJwt.peekIssuer token
  let jwk ← resolveJoseKeyWithX5c S token iss kid false policy.now
  let verified ← VcJwt.verify H.I H.crypto H.pyJwt policy.vcJwtSuite token (.obj jwk)
    ⟨[], policy.audience⟩ policy.requireNotExpired
  checkTypes verified.credential policy.expectedTypes
  let status ← checkStatus H.zlib verified.credential (some verified.claims)
    policy.toVerificationPolicy S.status (some verified.issuer)
  let schema ← checkSchema H verified.credential policy S.credentialSchema verifyInner
  return vcJwtResult verified status schema

/-- The audience and nonce a KB-JWT is held to: those of the presentation the credential is nested
in, else the policy's. -/
def kbExpectations (policy : Policy) (kbBinding : Option (Str × Str)) :
    Result (Option Str × Option Str) :=
  match kbBinding with
  | none => .ok (policy.audience, policy.nonce)
  | some (audience, nonce) => do
    raiseIf (audience.isEmpty || nonce.isEmpty) ⟨.claimsInvalid,
      "a presentation binding must be a non-empty (audience, nonce)", []⟩
    return (some audience, some nonce)

/-- The result of the SD-JWT handler. -/
def sdJwtResult (verified : SdJwt.Verified) (status : Option StatusOutcome)
    (schema : Option Schema.ValidationResult) : VerificationResult where
  format := .sdJwtVc
  credential := verified.claims
  issuer := verified.issuer
  subject := ((verified.claims.get "sub").str?.map Json.str).getD .null
  claims := some verified.claims
  keyBound := some verified.keyBound
  status := status
  schema := schema
  raw := .sdJwtVc verified
  expired := verified.expired

/-- What the SD-JWT handler asks of the suite. -/
def Policy.sdJwtPolicy (policy : Policy) (expected : Option Str × Option Str) : SdJwt.Policy where
  audience := expected.1
  nonce := expected.2
  requireKeyBinding := policy.requireKeyBinding
  expectedVct := policy.expectedVct
  kbMaxAgeS := policy.kbMaxAgeS
  now := policy.now

/-- `_verify_sd_jwt(sd_jwt, policy, …, kb_binding)`. -/
def verifySdJwt (S : Sources H) (policy : Policy) (verifyInner : Option Schema.VerifyInner)
    (kbBinding : Option (Str × Str)) (sdJwt : Str) : Result VerificationResult := do
  let (iss, kid) ← SdJwt.peekIssuer sdJwt
  let jwk ← resolveJoseKeyWithX5c S sdJwt iss kid true policy.now
  let expected ← kbExpectations policy kbBinding
  let verified ← SdJwt.verify H.I H.crypto policy.sdJwtSuite sdJwt jwk
    (policy.sdJwtPolicy expected) policy.requireNotExpired
  checkSdJwtTypes verified policy.expectedTypes
  let status ← checkStatus H.zlib verified.claims (some verified.claims)
    policy.toVerificationPolicy S.status (some verified.issuer)
  let schema ← checkSchema H verified.claims policy S.credentialSchema verifyInner
  return sdJwtResult verified status schema

/-- What the Data Integrity handler asks of a suite. -/
def Policy.diPolicy (policy : Policy) : DiPolicy where
  expectedProofPurpose := some policy.proofPurpose
  now := policy.now
  checkTemporal := policy.requireNotExpired

/-- The suite of a Data Integrity format, on the resolver it is given. -/
def verifyDiSuite (H : Host) (suite : DiSuite) (leeway : Int) (doc : Dict)
    (publicKeyJwk : Option Dict) (resolver : Option Did.DidResolver) (policy : DiPolicy) :
    Result VerifiedDi :=
  match suite with
  | .ecdsaSd => EcdsaSd.verify H.I H.crypto H.jsonLd leeway doc publicKeyJwk resolver policy
  | .eddsaJcs => eddsaJcsSuite.verify H.I H.crypto leeway doc publicKeyJwk resolver policy
  | .ecdsaJcs => ecdsaJcsSuite.verify H.I H.crypto leeway doc publicKeyJwk resolver policy
  | .ecdsaRdfc => EcdsaRdfc.verify H.I H.crypto H.jsonLd leeway doc publicKeyJwk resolver policy
  | .eddsaRdfc => DataIntegrity.verify H.I H.crypto H.jsonLd leeway doc publicKeyJwk resolver policy

/-- The result of the Data Integrity handler. -/
def diResult (suite : DiSuite) (verified : VerifiedDi) (issuer : Str)
    (status : Option StatusOutcome) (schema : Option Schema.ValidationResult) :
    VerificationResult where
  format := .dataIntegrity suite
  credential := verified.credential
  issuer := issuer
  subject := verified.subject
  claims := none
  keyBound := none
  status := status
  schema := schema
  raw := .dataIntegrity verified
  expired := verified.expired

/-- `_verify_data_integrity(doc, fmt, policy, …)`. -/
def verifyDataIntegrity (S : Sources H) (policy : Policy)
    (verifyInner : Option Schema.VerifyInner) (suite : DiSuite) (doc : Dict) :
    Result VerificationResult := do
  let verified ← verifyDiSuite H suite policy.leewayS doc none (some S.resolver) policy.diPolicy
  let issuer ← bindIssuer verified
  checkDiTypes H.jsonLd suite verified.credential policy.expectedTypes
  let status ← checkStatus H.zlib verified.credential (some verified.credential)
    policy.toVerificationPolicy S.status (some issuer)
  let schema ← checkSchema H verified.credential policy S.credentialSchema verifyInner
  return diResult suite verified issuer status schema

/-! ## The pipeline -/

/-- `_bytes_to_credential(raw)`. -/
def bytesToCredential (raw : Bytes) : Result Json := do
  let text ← orRaise (Codec.decodeUtf8 false raw) ⟨.unknownCredentialFormat,
    "JsonSchemaCredential bytes are not valid UTF-8: ", []⟩
  match loads text with
  | .ok (.obj m) => return .obj m
  | _ => return .str text

/-- The handlers of `_verify_by_format`; an envelope is handed to `unwrap`. -/
def verifyByFormat (S : Sources H) (policy : Policy) (verifyInner : Option Schema.VerifyInner)
    (kbBinding : Option (Str × Str)) (unwrap : Dict → Result VerificationResult) :
    Detected → Result VerificationResult
  | .enveloped doc => unwrap doc
  | .vcJwt token => verifyVcJwt S policy verifyInner token
  | .sdJwtVc sdJwt => verifySdJwt S policy verifyInner kbBinding sdJwt
  | .dataIntegrity suite doc => verifyDataIntegrity S policy verifyInner suite doc

/-- `verify_credential` with the number of envelopes that may still be opened (two less `_depth`),
on the closures that verify a schema-defining credential at each depth. -/
def verifyAt (S : Sources H) (policy : Policy) (verifyInner : Nat → Option Schema.VerifyInner)
    (kbBinding : Option (Str × Str)) : Nat → Json → Result VerificationResult
  | left, credential => do
    rejectDeepCredential credential
    let detected ← detectFormat credential
    verifyByFormat S policy (verifyInner left) kbBinding
      (fun doc => match left with
        | 0 => raise .unknownCredentialFormat "enveloped credential nested too deeply" []
        | left + 1 => do
          let inner ← unwrapEnveloped doc
          verifyAt S policy verifyInner kbBinding left inner) detected

/-- `_make_schema_verifier(policy, …)`. The inner pass has no schema resolver, so it needs no
verifier of its own. -/
def schemaVerifier (S : Sources H) (policy : Policy) (left : Nat) : Schema.VerifyInner :=
  fun raw => do
    let credential ← bytesToCredential raw
    let result ← verifyAt { S with credentialSchema := none } (schemaInnerPolicy policy)
      (fun _ => none) none (left - 1) credential
    return result.credential

/-- `_depth >= 2` refuses an envelope. -/
def maxEnvelopes : Nat := 2

/-- `verify_credential(credential, policy, …, _kb_binding)`. -/
def verifyCredential (S : Sources H) (policy : Policy) (kbBinding : Option (Str × Str))
    (credential : Json) : Result VerificationResult :=
  verifyAt S policy (fun left => some (schemaVerifier S policy left)) kbBinding maxEnvelopes
    credential

end Pipeline

end OpenVC
