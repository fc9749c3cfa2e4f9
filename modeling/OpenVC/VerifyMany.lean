import OpenVC.Cache

/-!
# Batch verification (`openvc.verify.verify_many`)

The pipeline again, with each use of a caller's callable written out as a lookup, so that the lookups
of one credential can be answered from what those before it have cached.
-/

namespace OpenVC.VerifyMany

open Python Pipeline

/-- Code that looks things up. -/
abbrev Looking (α : Type) := Calling Lookup Lookup.Answer Err α

/-- The callables that a call was given, and its trust anchors. -/
structure Given (H : Host) where
  /-- Whether the resolver is asked for the DID. -/
  handles : Str → Bool
  statusList : Bool
  statusListToken : Bool
  credentialSchema : Bool
  jwtVcIssuerFetch : Bool
  x5cTrustAnchors : Option (List H.x509.Certificate)

variable {H : Host}

/-- `resolver.resolve(did)`. -/
def lookupDid (did : Str) : Looking Did.Resolved := Calling.ask (Lookup.mk .resolver did)

/-- A status list resolver, of either convention. -/
abbrev StatusLookup := Str → Looking Json

/-- `resolve_status_list(url)`. -/
def lookupStatusList : StatusLookup := fun url => Calling.ask (Lookup.mk .statusList url)

/-- `resolve_status_list_token(uri)`. -/
def lookupStatusListToken : StatusLookup := fun uri => Calling.ask (Lookup.mk .statusListToken uri)

/-- `resolve_credential_schema(url)`. -/
def lookupSchema (url : Str) : Looking Schema.Fetched := Calling.ask (Lookup.mk .credentialSchema url)

/-- `jwt_vc_issuer_fetch(url)`. -/
def lookupIssuer (url : Str) : Looking Json := Calling.ask (Lookup.mk .jwtVcIssuerFetch url)

/-! ## Status -/

/-- One iteration of `check_credential_status`. -/
def checkEntry (Z : Zlib) (resolve : StatusLookup) (results : List Status.EntryResult)
    (entry : Status.Entry) : Looking (List Status.EntryResult) := do
  let statusVc ← resolve entry.statusListCredential
  let result ← Status.readStatusBit Z statusVc entry
  return results ++ [result]

/-- `check_credential_status(credential, resolve_status_list)`. -/
def checkCredentialStatus (Z : Zlib) (credential : Dict) (resolve : StatusLookup) :
    Looking Status.StatusResult := do
  let entries ← Status.parseStatusEntries credential
  let results ← Calling.forEach (checkEntry Z resolve) [] entries
  return Status.tallyStatus results

/-- `check_token_status(claims, resolve_status_list_token)` for a token with a reference. -/
def checkTokenStatus (Z : Zlib) (ref : Status.TokenStatusRef) (resolve : StatusLookup) :
    Looking Status.TokenStatusResult := do
  let tokenClaims ← resolve ref.uri
  Status.tokenStatusResult Z ref tokenClaims

/-- `_bind_status_issuer(inner, credential_issuer, policy, field)`. -/
def bindStatusIssuer (inner : StatusLookup) (credentialIssuer : Str) (policy : VerificationPolicy)
    (field : Str) : StatusLookup := fun uri => do
  let obj ← inner uri
  enforceStatusIssuer obj field credentialIssuer policy
  return obj

/-- The resolvers that `_check_status` uses. -/
structure StatusLookups where
  statusList : Option StatusLookup
  statusListToken : Option StatusLookup

/-- The resolvers of the status gate. -/
def Given.status (G : Given H) : StatusLookups :=
  ⟨if G.statusList then some lookupStatusList else none,
    if G.statusListToken then some lookupStatusListToken else none⟩

/-- The resolvers with the issuer binding the policy asks for. -/
def boundResolvers (policy : VerificationPolicy) (resolvers : StatusLookups)
    (credentialIssuer : Option Str) : Result StatusLookups :=
  if policy.requireStatusIssuerBinding then do
    let issuer ← orRaise (credentialIssuer.filter (!·.isEmpty)) ⟨.statusListIssuerUntrusted,
      "require_status_issuer_binding is set but the credential has no issuer", []⟩
    return ⟨resolvers.statusList.map (bindStatusIssuer · issuer policy "issuer"),
      resolvers.statusListToken.map (bindStatusIssuer · issuer policy "iss")⟩
  else .ok resolvers

/-- The W3C status of a credential with recognised entries. -/
def checkW3cEntries (Z : Zlib) (w3cSource : Dict) (policy : VerificationPolicy)
    (resolve : Option StatusLookup) : Looking (Option Status.StatusResult) :=
  match resolve with
  | none => do
    failClosed policy "credentialStatus" "resolve_status_list"
    return none
  | some resolve => do
    let w3c ← checkCredentialStatus Z w3cSource resolve
    refuseW3c policy w3cSource w3c
    return some w3c

/-- The W3C half of `_check_status`. -/
def checkW3cStatus (Z : Zlib) (w3cSource : Dict) (policy : VerificationPolicy)
    (resolve : Option StatusLookup) : Looking (Option Status.StatusResult) := do
  let entries ← Status.parseStatusEntries w3cSource
  if entries.isEmpty then do
    refuseUnrecognisedW3c policy w3cSource
    return none
  else checkW3cEntries Z w3cSource policy resolve

/-- The IETF status of a token with a reference. -/
def checkIetfRef (Z : Zlib) (ref : Status.TokenStatusRef) (policy : VerificationPolicy)
    (resolve : Option StatusLookup) : Looking (Option Status.TokenStatusResult) :=
  match resolve with
  | none => do
    failClosed policy "status reference" "resolve_status_list_token"
    return none
  | some resolve => do
    let ietf ← checkTokenStatus Z ref resolve
    refuseIetf policy ietf
    return some ietf

/-- The IETF half of `_check_status`, for one source of claims. -/
def checkIetfSource (Z : Zlib) (ietfSource : Dict) (policy : VerificationPolicy)
    (resolve : Option StatusLookup) : Looking (Option Status.TokenStatusResult) := do
  let ref ← Status.parseTokenStatusRef ietfSource
  match ref with
  | none => do
    refuseUnrecognisedIetf policy ietfSource
    return none
  | some ref => checkIetfRef Z ref policy resolve

/-- The IETF half of `_check_status`. -/
def checkIetfStatus (Z : Zlib) (ietfSource : Option Dict) (policy : VerificationPolicy)
    (resolve : Option StatusLookup) : Looking (Option Status.TokenStatusResult) :=
  match ietfSource with
  | none => pure none
  | some ietfSource => checkIetfSource Z ietfSource policy resolve

/-- `_check_status(w3c_source, ietf_source, policy, …, credential_issuer)`. -/
def checkStatus (Z : Zlib) (w3cSource : Dict) (ietfSource : Option Dict)
    (policy : VerificationPolicy) (resolvers : StatusLookups) (credentialIssuer : Option Str) :
    Looking (Option StatusOutcome) := do
  let resolvers ← boundResolvers policy resolvers credentialIssuer
  let w3c ← checkW3cStatus Z w3cSource policy resolvers.statusList
  let ietf ← checkIetfStatus Z ietfSource policy resolvers.statusListToken
  return (w3c.map .w3c) <|> (ietf.map .ietf)

/-! ## Keys -/

/-- The JWK Set, fetched when the metadata only names it. -/
def fetchJwks : JwtVcIssuer.Jwks → Looking Json
  | .inline jwks => pure jwks
  | .uri uri => lookupIssuer uri

/-- `resolve_jwt_vc_issuer_key(iss, kid, fetch)`. -/
def resolveIssuerKey (I : Interpreter) (iss : Str) (kid : Json) : Looking Dict := do
  let url ← JwtVcIssuer.metadataUrl I iss
  let metadata ← lookupIssuer url
  let jwks ← JwtVcIssuer.inlineJwksOrUri metadata iss
  let jwks ← fetchJwks jwks
  JwtVcIssuer.keyFromJwks jwks kid

/-- The key of an https issuer. -/
def resolveHttpsKey (G : Given H) (iss : Str) (kid : Json) : Looking Dict := do
  raiseIf (!G.jwtVcIssuerFetch) (⟨.keyResolutionFailed,
    "issuer % is an https URL; pass jwt_vc_issuer_fetch (e.g. openvc.fetch.https_json_fetch) to resolve its key",
    [.str iss]⟩ : Err)
  (resolveIssuerKey H.I iss kid).handle fun r => reraise r lookupFailed .keyResolutionFailed
    "could not resolve issuer key for %: " [.str iss]

/-- The key of a DID issuer. -/
def resolveDidKey (iss : Str) (kid : Json) : Looking Dict := do
  let doc ← (lookupDid iss).handle fun r => reraise r (·.cls.isa .didError) .keyResolutionFailed
    "could not resolve issuer DID %: " [.str iss]
  joseDocumentKey doc iss kid

/-- `_resolve_jose_key(resolver, iss, kid, jwt_vc_issuer_fetch)`. -/
def resolveJoseKey (G : Given H) (iss : Str) (kid : Json) : Looking Dict :=
  if iss.startsWith "https://" then resolveHttpsKey G iss kid else resolveDidKey iss kid

/-- `_resolve_jose_key_with_x5c(token, iss, kid, sd_jwt, …)`. -/
def resolveJoseKeyWithX5c (G : Given H) (token : Str) (iss : Str) (kid : Json) (sdJwt : Bool)
    (now : Option DateTime) : Looking Dict :=
  match G.x5cTrustAnchors with
  | none => resolveJoseKey G iss kid
  | some anchors => do
    let jws ← parseCompact (compactJws token sdJwt)
    if (jws.header.get "x5c").truthy then .done (resolveX5c H (jws.header.get "x5c") iss anchors now)
    else resolveJoseKey G iss kid

/-- The document the resolver gives for a DID, `none` where the lookup is left to the offline
`did:key` resolver. -/
def resolvedDocument (G : Given H) (did : Str) : Looking Did.Resolved :=
  if G.handles did then
    (lookupDid did).handle fun r =>
      reraise (tryExcept r (·.cls.isa .unsupportedDidMethod) fun _ => .ok .none)
        (·.cls.isa .didResolutionError) .keyResolutionError "could not resolve %: " [.str did]
  else pure .none

/-- The document a verification method is looked up in. -/
def didDocument (G : Given H) (verificationMethod did : Str) : Looking Did.Resolved := do
  let doc ← resolvedDocument G did
  match doc with
  | .none => .done (offlineDocument H.crypto verificationMethod did)
  | doc => pure doc

/-- `resolve_verification_key(verification_method, proof_purpose, resolver)` for a proof. -/
def resolveVerificationKey (G : Given H) (proof : Dict) : Looking Dict := do
  let vm ← (orRaise ((proof.get "verificationMethod").str?.filter (!·.isEmpty))
    ⟨.keyResolutionError, "proof has no verificationMethod to resolve", []⟩ : Result Str)
  raiseIf (!(proof.get "proofPurpose").isNull && (proof.get "proofPurpose").str?.isNone)
    (⟨.proofMalformed, "proofPurpose must be a string, not %",
      [.str (Did.typeName (proof.get "proofPurpose"))]⟩ : Err)
  let doc ← didDocument G vm (Str.beforeFirst 35 vm)
  documentKey doc vm (purposeOf (proof.get "proofPurpose"))

/-! ## Schemas -/

/-- A verifier of a schema-defining credential. -/
abbrev VerifyInner := Bytes → Looking Dict

/-- `_schema_from_credential(raw, ref, verify_inner)`. -/
def schemaFromCredential (raw : Bytes) (ref : Schema.SchemaRef) (verifyInner : Option VerifyInner) :
    Looking Dict := do
  let verify ← Schema.requireInnerVerifier verifyInner
  let inner ← (verify raw).handle fun r => reraise r Schema.innerFailed .schemaResolutionError
    "JsonSchemaCredential at % did not verify: " [.str ref.id]
  Schema.schemaFromVerified inner ref

/-- The schema in the fetched bytes. -/
def readSchema (type : Schema.SchemaType) (data : Bytes) (ref : Schema.SchemaRef)
    (verifyInner : Option VerifyInner) : Looking Dict :=
  match type with
  | .json => .done (Schema.schemaFromResource data ref.id)
  | .jsonCredential => schemaFromCredential data ref verifyInner

/-- `_resolve_schema(ref, resolve_credential_schema, verify_inner)`. -/
def resolveSchema (C : Crypto) (ref : Schema.SchemaRef) (verifyInner : Option VerifyInner) :
    Looking Dict := do
  let type ← Schema.requireKnownSchemaType ref
  let raw ← (lookupSchema ref.id).handle fun r => reraise r Schema.fetchFailed
    .schemaResolutionError "could not resolve schema %: " [.str ref.id]
  let data ← Schema.prepareSchemaBytes C ref raw
  readSchema type data ref verifyInner

/-- One iteration of `validate_credential_schema`. -/
def applySchema (C : Crypto) (P : Schema.Processor) (credential : Dict)
    (verifyInner : Option VerifyInner) (applied : List Str) (ref : Schema.SchemaRef) :
    Looking (List Str) := do
  let schema ← resolveSchema C ref verifyInner
  Schema.validateInstance P credential schema ref.id
  return applied ++ [ref.id]

/-- `validate_credential_schema(credential, resolve_credential_schema, verify_inner)`. -/
def validateCredentialSchema (C : Crypto) (P : Schema.Processor) (credential : Dict)
    (verifyInner : Option VerifyInner) : Looking Schema.ValidationResult := do
  let refs ← Schema.parseCredentialSchemas credential
  let applied ← Calling.forEach (applySchema C P credential verifyInner) [] refs
  return ⟨!applied.isEmpty, applied⟩

/-- `_check_schema(credential, policy, resolve_credential_schema, verify_inner)`. -/
def checkSchema (G : Given H) (credential : Dict) (policy : Policy)
    (verifyInner : Option VerifyInner) : Looking (Option Schema.ValidationResult) :=
  if !(credential.get "credentialSchema").truthy then pure none
  else if G.credentialSchema then do
    let result ← validateCredentialSchema H.crypto H.schemas credential verifyInner
    return some result
  else do
    refuseUnresolvedSchema policy.requireSchema
    return none

/-! ## The proof suites -/

/-- `_JcsProofSuite.verify(secured, …)`. -/
def verifyJcs (G : Given H) (suite : JcsSuite) (leeway : Int) (secured : Dict) (policy : DiPolicy) :
    Looking VerifiedDi := do
  let p ← prepareDiProof secured suite.cryptosuite
  let unsecured := secured.erase "proof"
  let jwk ← resolveVerificationKey G p.proof
  let profile ← matchAlg jwk suite.allowed suite.cryptosuite
  let data ← jcsHashData H.crypto unsecured p.config profile.hash
  checkDiSignature H.crypto profile.alg jwk data p.signature suite.cryptosuite
  let expired ← checkDiPolicy H.I unsecured p.proof policy leeway
  return verifiedDi secured p.proof expired

/-- `DataIntegrityProofSuite.verify(secured, …)`. -/
def verifyEddsaRdfc (G : Given H) (leeway : Int) (secured : Dict) (policy : DiPolicy) :
    Looking VerifiedDi := do
  let p ← prepareDiProof secured DataIntegrity.cryptosuite
  let unsecured := secured.erase "proof"
  let data ← rdfHashData H.crypto H.jsonLd unsecured p.config .sha256
  let jwk ← resolveVerificationKey G p.proof
  let ok ← verifyEd25519 H.crypto jwk data p.signature
  raiseIf (!ok) (⟨.signatureInvalid, "Data Integrity proof does not verify", []⟩ : Err)
  H.jsonLd.validateDocument unsecured p.config
  let expired ← checkDiPolicy H.I unsecured p.proof policy leeway
  return verifiedDi secured p.proof expired

/-- `EcdsaRdfcProofSuite.verify(secured, …)`. -/
def verifyEcdsaRdfc (G : Given H) (leeway : Int) (secured : Dict) (policy : DiPolicy) :
    Looking VerifiedDi := do
  let p ← prepareDiProof secured EcdsaRdfc.cryptosuite
  let unsecured := secured.erase "proof"
  let jwk ← resolveVerificationKey G p.proof
  let profile ← matchAlg jwk ecdsaProfiles EcdsaRdfc.cryptosuite
  let data ← rdfHashData H.crypto H.jsonLd unsecured p.config profile.hash
  checkDiSignature H.crypto profile.alg jwk data p.signature EcdsaRdfc.cryptosuite
  H.jsonLd.validateDocument unsecured p.config
  let expired ← checkDiPolicy H.I unsecured p.proof policy leeway
  return verifiedDi secured p.proof expired

/-- `EcdsaSdProofSuite.verify(derived, …)`. -/
def verifyEcdsaSd (G : Given H) (leeway : Int) (derived : Dict) (policy : DiPolicy) :
    Looking VerifiedDi := do
  let (proof, proofValue) ← EcdsaSd.readProof derived
  let parsed ← EcdsaSd.readDerivedProof proofValue
  let st ← EcdsaSd.statements H.crypto H.jsonLd derived proof parsed
  let mandatoryHash ← EcdsaSd.sha256Lines H.crypto st.mandatory
  let toVerify := st.proofHash ++ parsed.publicKey ++ mandatoryHash
  let jwk ← resolveVerificationKey G proof
  EcdsaSd.checkSignatures H.crypto jwk toVerify parsed st.nonMandatory
  let unsecured := derived.erase "proof"
  H.jsonLd.validateDocument unsecured (proofConfig proof (derived.get "@context"))
  checkProofPurpose proof policy.expectedProofPurpose
  let expired ← checkWindowAt H.I unsecured proof policy.now leeway policy.checkTemporal
  return verifiedDi derived proof expired

/-- The suite of a Data Integrity format. -/
def verifyDiSuite (G : Given H) (suite : DiSuite) (leeway : Int) (doc : Dict) (policy : DiPolicy) :
    Looking VerifiedDi :=
  match suite with
  | .ecdsaSd => verifyEcdsaSd G leeway doc policy
  | .eddsaJcs => verifyJcs G eddsaJcsSuite leeway doc policy
  | .ecdsaJcs => verifyJcs G ecdsaJcsSuite leeway doc policy
  | .ecdsaRdfc => verifyEcdsaRdfc G leeway doc policy
  | .eddsaRdfc => verifyEddsaRdfc G leeway doc policy

/-! ## The handlers -/

/-- `_verify_vc_jwt(token, policy, …)`. -/
def verifyVcJwt (G : Given H) (policy : Policy) (verifyInner : Option VerifyInner) (token : Str) :
    Looking VerificationResult := do
  let (iss, kid) ← VcJwt.peekIssuer token
  let jwk ← resolveJoseKeyWithX5c G token iss kid false policy.now
  let verified ← VcJwt.verify H.I H.crypto H.pyJwt policy.vcJwtSuite token (.obj jwk)
    ⟨[], policy.audience⟩ policy.requireNotExpired
  checkTypes verified.credential policy.expectedTypes
  let status ← checkStatus H.zlib verified.credential (some verified.claims)
    policy.toVerificationPolicy G.status (some verified.issuer)
  let schema ← checkSchema G verified.credential policy verifyInner
  return vcJwtResult verified status schema

/-- `_verify_sd_jwt(sd_jwt, policy, …)`. -/
def verifySdJwt (G : Given H) (policy : Policy) (verifyInner : Option VerifyInner) (sdJwt : Str) :
    Looking VerificationResult := do
  let (iss, kid) ← SdJwt.peekIssuer sdJwt
  let jwk ← resolveJoseKeyWithX5c G sdJwt iss kid true policy.now
  let expected ← kbExpectations policy none
  let verified ← SdJwt.verify H.I H.crypto policy.sdJwtSuite sdJwt jwk
    (policy.sdJwtPolicy expected) policy.requireNotExpired
  checkSdJwtTypes verified policy.expectedTypes
  let status ← checkStatus H.zlib verified.claims (some verified.claims)
    policy.toVerificationPolicy G.status (some verified.issuer)
  let schema ← checkSchema G verified.claims policy verifyInner
  return sdJwtResult verified status schema

/-- `_verify_data_integrity(doc, fmt, policy, …)`. -/
def verifyDataIntegrity (G : Given H) (policy : Policy) (verifyInner : Option VerifyInner)
    (suite : DiSuite) (doc : Dict) : Looking VerificationResult := do
  let verified ← verifyDiSuite G suite policy.leewayS doc policy.diPolicy
  let issuer ← bindIssuer verified
  checkDiTypes H.jsonLd suite verified.credential policy.expectedTypes
  let status ← checkStatus H.zlib verified.credential (some verified.credential)
    policy.toVerificationPolicy G.status (some issuer)
  let schema ← checkSchema G verified.credential policy verifyInner
  return diResult suite verified issuer status schema

/-! ## The pipeline -/

/-- The handlers of `_verify_by_format`; an envelope is handed to `unwrap`. -/
def verifyByFormat (G : Given H) (policy : Policy) (verifyInner : Option VerifyInner)
    (unwrap : Dict → Looking VerificationResult) : Detected → Looking VerificationResult
  | .enveloped doc => unwrap doc
  | .vcJwt token => verifyVcJwt G policy verifyInner token
  | .sdJwtVc sdJwt => verifySdJwt G policy verifyInner sdJwt
  | .dataIntegrity suite doc => verifyDataIntegrity G policy verifyInner suite doc

/-- `verify_credential` with the number of envelopes that may still be opened. -/
def verifyAt (G : Given H) (policy : Policy) (verifyInner : Nat → Option VerifyInner) :
    Nat → Json → Looking VerificationResult
  | left, credential => do
    rejectDeepCredential credential
    let detected ← detectFormat credential
    verifyByFormat G policy (verifyInner left)
      (fun doc => match left with
        | 0 => .done (raise .unknownCredentialFormat "enveloped credential nested too deeply" [])
        | left + 1 => do
          let inner ← unwrapEnveloped doc
          verifyAt G policy verifyInner left inner) detected

/-- `_make_schema_verifier(policy, …)`. -/
def schemaVerifier (G : Given H) (policy : Policy) (left : Nat) : VerifyInner :=
  fun raw => do
    let credential ← bytesToCredential raw
    let result ← verifyAt { G with credentialSchema := false } (schemaInnerPolicy policy)
      (fun _ => none) (left - 1) credential
    return result.credential

/-- `verify_credential(credential, policy, …)`. -/
def verifyCredential (G : Given H) (policy : Policy) (credential : Json) :
    Looking VerificationResult :=
  verifyAt G policy (fun left => some (schemaVerifier G policy left)) maxEnvelopes credential

/-! ## The batch -/

/-- A `BatchResult`. -/
structure BatchResult where
  index : Nat
  result : Option VerificationResult := none
  error : Option Err := none

/-- The `try` around one item: an `OpenvcError` is its verdict. -/
def batchResult (index : Nat) : Result VerificationResult → Result BatchResult
  | .ok result => .ok { index, result := some result }
  | .error e => if e.cls.isa .openvcError then .ok { index, error := some e } else .error e

/-- One iteration of the loop of `verify_many`. -/
def verifyItem (G : Given H) (policy : Policy) (out : List BatchResult) (item : Json × Nat) :
    Looking (List BatchResult) := do
  let result ← (verifyCredential G policy item.1).handle (batchResult item.2)
  return out ++ [result]

/-- The loop of `verify_many`. -/
def verifyItems (G : Given H) (policy : Policy) (credentials : List Json) :
    Looking (List BatchResult) :=
  Calling.forEach (verifyItem G policy) [] credentials.zipIdx

/-- The callables of a caller, which answer a key always in the same way, and its trust anchors. -/
structure Callables (H : Host) where
  resolver : Did.DidResolver
  statusList : Option (Str → Result Json)
  statusListToken : Option (Str → Result Json)
  credentialSchema : Option (Str → Result Schema.Fetched)
  jwtVcIssuerFetch : Option (Str → Result Json)
  x5cTrustAnchors : Option (List H.x509.Certificate)

/-- What a call of an absent callable raises. -/
def notCallable : Err := ⟨.typeError, "'NoneType' object is not callable", []⟩

/-- The answers of the callables. -/
def Callables.fn (S : Callables H) : (q : Lookup) → Result q.Answer
  | ⟨.resolver, did⟩ => S.resolver.resolve did
  | ⟨.statusList, url⟩ => (S.statusList.map (· url)).getD (.error notCallable)
  | ⟨.statusListToken, uri⟩ => (S.statusListToken.map (· uri)).getD (.error notCallable)
  | ⟨.credentialSchema, url⟩ => (S.credentialSchema.map (· url)).getD (.error notCallable)
  | ⟨.jwtVcIssuerFetch, url⟩ => (S.jwtVcIssuerFetch.map (· url)).getD (.error notCallable)

/-- Which callables there are. A caching resolver supports what the resolver in it does. -/
def Callables.given (S : Callables H) : Given H where
  handles := S.resolver.handles
  statusList := S.statusList.isSome
  statusListToken := S.statusListToken.isSome
  credentialSchema := S.credentialSchema.isSome
  jwtVcIssuerFetch := S.jwtVcIssuerFetch.isSome
  x5cTrustAnchors := S.x5cTrustAnchors

/-- The callables as a single call of `verify_credential` takes them. -/
def Callables.sources (S : Callables H) : Sources H where
  resolver := S.resolver
  statusList := S.statusList.map fun resolve _ url => resolve url
  statusListToken := S.statusListToken.map fun resolve _ uri => resolve uri
  credentialSchema := S.credentialSchema.map fun resolve _ url => resolve url
  jwtVcIssuerFetch := S.jwtVcIssuerFetch.map fun fetch _ url => fetch url
  x5cTrustAnchors := S.x5cTrustAnchors

/-- `verify_many(credentials, policy, …)`, with what its caches and callables went through. -/
def verifyMany (clock : Nat → Rat) (S : Callables H) (policy : Policy) (credentials : List Json) :
    Result (List BatchResult) × Batch :=
  (verifyItems S.given policy credentials).runWith (Batch.cachedResolve clock S.fn) batchResolvers

end OpenVC.VerifyMany
