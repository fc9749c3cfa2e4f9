import OpenVC.Pipeline
import OpenVC.Python.Coroutine

/-!
# The async verification surface (`openvc.aio`)

`verify_credential_async` awaits what `verify_credential` blocks on. The proof suites, codecs and
checks are those of the blocking path; the sequencing around each fetch is written a second time,
here and in the async twins of the status, schema and issuer modules.
-/

namespace OpenVC

open Python

/-- What an `async def` returns when it is called. -/
abbrev Awaitable (α : Type) := Coroutine Err α

/-- An `AsyncDidResolver`; one without a `supports` is asked for every DID. -/
structure Did.AsyncDidResolver where
  supports : Option (Str → Bool)
  resolve : Str → Awaitable Did.Resolved

/-- Whether the resolver is asked for the DID. -/
def Did.AsyncDidResolver.handles (resolver : Did.AsyncDidResolver) (did : Str) : Bool :=
  match resolver.supports with
  | some supports => supports did
  | none => true

/-- `as_async_resolver(resolver)`. -/
def Did.asAsyncResolver (resolver : Did.DidResolver) : Did.AsyncDidResolver where
  supports := resolver.supports
  resolve did := .done (resolver.resolve did)

/-! ## Status lists (`openvc.status`) -/

namespace Status

/-- An `AsyncResolveStatusList` or `AsyncResolveStatusListToken`. -/
abbrev AsyncResolver := Str → Awaitable Json

/-- One iteration of `check_credential_status_async`. -/
def checkEntryAsync (Z : Zlib) (resolve : AsyncResolver) (results : List EntryResult)
    (entry : Entry) : Awaitable (List EntryResult) := do
  let statusVc ← resolve entry.statusListCredential
  let result ← readStatusBit Z statusVc entry
  return results ++ [result]

/-- `check_credential_status_async(credential, resolve_status_list)`. -/
def checkCredentialStatusAsync (Z : Zlib) (credential : Dict) (resolve : AsyncResolver) :
    Awaitable StatusResult := do
  let entries ← parseStatusEntries credential
  let results ← Coroutine.forEach (checkEntryAsync Z resolve) [] entries
  return tallyStatus results

/-- `check_token_status_async(claims, resolve_status_list_token)` for a token with a reference. -/
def checkTokenStatusAsync (Z : Zlib) (ref : TokenStatusRef) (resolve : AsyncResolver) :
    Awaitable TokenStatusResult := do
  let tokenClaims ← resolve ref.uri
  tokenStatusResult Z ref tokenClaims

end Status

/-! ## Issuer metadata (`openvc.jwt_vc_issuer`) -/

/-- An `AsyncFetch`. -/
abbrev AsyncFetch := Str → Awaitable Json

namespace JwtVcIssuer

/-- The JWK Set, fetched when the metadata only names it. -/
def fetchJwksAsync (fetch : AsyncFetch) : Jwks → Awaitable Json
  | .inline jwks => pure jwks
  | .uri uri => fetch uri

/-- `resolve_jwt_vc_issuer_key_async(iss, kid, fetch)`. -/
def resolveKeyAsync (I : Interpreter) (fetch : AsyncFetch) (iss : Str) (kid : Json) :
    Awaitable Dict := do
  let url ← metadataUrl I iss
  let metadata ← fetch url
  let jwks ← inlineJwksOrUri metadata iss
  let jwks ← fetchJwksAsync fetch jwks
  keyFromJwks jwks kid

end JwtVcIssuer

/-! ## Schemas (`openvc.schema`) -/

namespace Schema

/-- An `AsyncResolveCredentialSchema`. -/
abbrev AsyncSchemaResolver := Str → Awaitable Fetched

/-- An `AsyncVerifyInnerCredential`. -/
abbrev AsyncVerifyInner := Bytes → Awaitable Dict

/-- `_schema_from_credential_async(raw, ref, verify_inner)`. -/
def schemaFromCredentialAsync (raw : Bytes) (ref : SchemaRef)
    (verifyInner : Option AsyncVerifyInner) : Awaitable Dict := do
  let verify ← requireInnerVerifier verifyInner
  let inner ← (verify raw).handle fun r => reraise r innerFailed .schemaResolutionError
    "JsonSchemaCredential at % did not verify: " [.str ref.id]
  schemaFromVerified inner ref

/-- The schema in the fetched bytes. -/
def readSchemaAsync (type : SchemaType) (data : Bytes) (ref : SchemaRef)
    (verifyInner : Option AsyncVerifyInner) : Awaitable Dict :=
  match type with
  | .json => .done (schemaFromResource data ref.id)
  | .jsonCredential => schemaFromCredentialAsync data ref verifyInner

/-- `_resolve_schema_async(ref, resolve_credential_schema, verify_inner)`. -/
def resolveSchemaAsync (C : Crypto) (ref : SchemaRef) (resolve : AsyncSchemaResolver)
    (verifyInner : Option AsyncVerifyInner) : Awaitable Dict := do
  let type ← requireKnownSchemaType ref
  let raw ← (resolve ref.id).handle fun r => reraise r fetchFailed .schemaResolutionError
    "could not resolve schema %: " [.str ref.id]
  let data ← prepareSchemaBytes C ref raw
  readSchemaAsync type data ref verifyInner

/-- One iteration of `validate_credential_schema_async`. -/
def applySchemaAsync (C : Crypto) (P : Processor) (credential : Dict)
    (resolve : AsyncSchemaResolver) (verifyInner : Option AsyncVerifyInner) (applied : List Str)
    (ref : SchemaRef) : Awaitable (List Str) := do
  let schema ← resolveSchemaAsync C ref resolve verifyInner
  validateInstance P credential schema ref.id
  return applied ++ [ref.id]

/-- `validate_credential_schema_async(credential, resolve_credential_schema, verify_inner)`. -/
def validateCredentialSchemaAsync (C : Crypto) (P : Processor) (credential : Dict)
    (resolve : AsyncSchemaResolver) (verifyInner : Option AsyncVerifyInner) :
    Awaitable ValidationResult := do
  let refs ← parseCredentialSchemas credential
  let applied ← Coroutine.forEach (applySchemaAsync C P credential resolve verifyInner) [] refs
  return ⟨!applied.isEmpty, applied⟩

end Schema

/-! ## The status gate -/

open Status

/-- `_bind_status_issuer_async(inner, credential_issuer, policy, field)`. -/
def bindStatusIssuerAsync (inner : AsyncResolver) (credentialIssuer : Str)
    (policy : VerificationPolicy) (field : Str) : AsyncResolver := fun uri => do
  let obj ← inner uri
  enforceStatusIssuer obj field credentialIssuer policy
  return obj

/-- The resolvers that `_check_status_async` uses. -/
structure AsyncResolvers where
  statusList : Option AsyncResolver
  statusListToken : Option AsyncResolver

/-- The resolvers with the issuer binding the policy asks for. -/
def boundResolversAsync (policy : VerificationPolicy) (resolvers : AsyncResolvers)
    (credentialIssuer : Option Str) : Result AsyncResolvers :=
  if policy.requireStatusIssuerBinding then do
    let issuer ← orRaise (credentialIssuer.filter (!·.isEmpty)) ⟨.statusListIssuerUntrusted,
      "require_status_issuer_binding is set but the credential has no issuer", []⟩
    return ⟨resolvers.statusList.map (bindStatusIssuerAsync · issuer policy "issuer"),
      resolvers.statusListToken.map (bindStatusIssuerAsync · issuer policy "iss")⟩
  else .ok resolvers

/-- The W3C status of a credential with recognised entries. -/
def checkW3cEntriesAsync (Z : Zlib) (w3cSource : Dict) (policy : VerificationPolicy)
    (resolve : Option AsyncResolver) : Awaitable (Option StatusResult) :=
  match resolve with
  | none => do
    failClosed policy "credentialStatus" "resolve_status_list"
    return none
  | some resolve => do
    let w3c ← checkCredentialStatusAsync Z w3cSource resolve
    refuseW3c policy w3cSource w3c
    return some w3c

/-- The W3C half of `_check_status_async`. -/
def checkW3cStatusAsync (Z : Zlib) (w3cSource : Dict) (policy : VerificationPolicy)
    (resolve : Option AsyncResolver) : Awaitable (Option StatusResult) := do
  let entries ← parseStatusEntries w3cSource
  if entries.isEmpty then do
    refuseUnrecognisedW3c policy w3cSource
    return none
  else checkW3cEntriesAsync Z w3cSource policy resolve

/-- The IETF status of a token with a reference. -/
def checkIetfRefAsync (Z : Zlib) (ref : TokenStatusRef) (policy : VerificationPolicy)
    (resolve : Option AsyncResolver) : Awaitable (Option TokenStatusResult) :=
  match resolve with
  | none => do
    failClosed policy "status reference" "resolve_status_list_token"
    return none
  | some resolve => do
    let ietf ← checkTokenStatusAsync Z ref resolve
    refuseIetf policy ietf
    return some ietf

/-- The IETF half of `_check_status_async`, for one source of claims. -/
def checkIetfSourceAsync (Z : Zlib) (ietfSource : Dict) (policy : VerificationPolicy)
    (resolve : Option AsyncResolver) : Awaitable (Option TokenStatusResult) := do
  let ref ← parseTokenStatusRef ietfSource
  match ref with
  | none => do
    refuseUnrecognisedIetf policy ietfSource
    return none
  | some ref => checkIetfRefAsync Z ref policy resolve

/-- The IETF half of `_check_status_async`. -/
def checkIetfStatusAsync (Z : Zlib) (ietfSource : Option Dict) (policy : VerificationPolicy)
    (resolve : Option AsyncResolver) : Awaitable (Option TokenStatusResult) :=
  match ietfSource with
  | none => pure none
  | some ietfSource => checkIetfSourceAsync Z ietfSource policy resolve

/-- `_check_status_async(w3c_source, ietf_source, policy, …, credential_issuer)`. -/
def checkStatusAsync (Z : Zlib) (w3cSource : Dict) (ietfSource : Option Dict)
    (policy : VerificationPolicy) (resolvers : AsyncResolvers) (credentialIssuer : Option Str) :
    Awaitable (Option StatusOutcome) := do
  let resolvers ← boundResolversAsync policy resolvers credentialIssuer
  let w3c ← checkW3cStatusAsync Z w3cSource policy resolvers.statusList
  let ietf ← checkIetfStatusAsync Z ietfSource policy resolvers.statusListToken
  return (w3c.map .w3c) <|> (ietf.map .ietf)

/-! ## Keys -/

/-- The resolvers and trust anchors of an async call. -/
structure AsyncSources (H : Host) where
  resolver : Did.AsyncDidResolver
  statusList : Option AsyncResolver
  statusListToken : Option AsyncResolver
  credentialSchema : Option Schema.AsyncSchemaResolver
  jwtVcIssuerFetch : Option AsyncFetch
  x5cTrustAnchors : Option (List H.x509.Certificate)

/-- The resolvers of the status gate. -/
def AsyncSources.status {H : Host} (A : AsyncSources H) : AsyncResolvers :=
  ⟨A.statusList, A.statusListToken⟩

namespace Pipeline

variable {H : Host}

/-- The key of an https issuer. -/
def resolveHttpsKeyAsync (A : AsyncSources H) (iss : Str) (kid : Json) : Awaitable Dict := do
  let fetch ← (orRaise A.jwtVcIssuerFetch ⟨.keyResolutionFailed,
    "issuer % is an https URL; pass an async jwt_vc_issuer_fetch (e.g. openvc.fetch.https_json_fetch_async) to resolve its key",
    [.str iss]⟩ : Result AsyncFetch)
  (JwtVcIssuer.resolveKeyAsync H.I fetch iss kid).handle fun r =>
    reraise r lookupFailed .keyResolutionFailed "could not resolve issuer key for %: " [.str iss]

/-- The key of a DID issuer. -/
def resolveDidKeyAsync (A : AsyncSources H) (iss : Str) (kid : Json) : Awaitable Dict := do
  let doc ← (A.resolver.resolve iss).handle fun r =>
    reraise r (·.cls.isa .didError) .keyResolutionFailed "could not resolve issuer DID %: "
      [.str iss]
  joseDocumentKey doc iss kid

/-- `_resolve_jose_key_async(resolver, iss, kid, jwt_vc_issuer_fetch)`. -/
def resolveJoseKeyAsync (A : AsyncSources H) (iss : Str) (kid : Json) : Awaitable Dict :=
  if iss.startsWith "https://" then resolveHttpsKeyAsync A iss kid else resolveDidKeyAsync A iss kid

/-- `_resolve_jose_key_with_x5c_async(token, iss, kid, sd_jwt, …)`. -/
def resolveJoseKeyWithX5cAsync (A : AsyncSources H) (token : Str) (iss : Str) (kid : Json)
    (sdJwt : Bool) (now : Option DateTime) : Awaitable Dict :=
  match A.x5cTrustAnchors with
  | none => resolveJoseKeyAsync A iss kid
  | some anchors => do
    let jws ← parseCompact (compactJws token sdJwt)
    if (jws.header.get "x5c").truthy then .done (resolveX5c H (jws.header.get "x5c") iss anchors now)
    else resolveJoseKeyAsync A iss kid

/-- `_OneShotResolver(did, doc)`. -/
def oneShotResolver (did : Str) (doc : Did.Resolved) : Did.DidResolver where
  supports := some (· == did)
  resolve d :=
    if d != did then raise .didResolutionError "unknown DID %" [.str d] else .ok doc

/-- The handlers around the lookup of `_preresolved_di_resolver`. -/
def oneShot (did : Str) (found : Result Did.Resolved) : Result (Option Did.DidResolver) :=
  reraise
    (tryExcept (found.map fun doc => some (oneShotResolver did doc))
      (·.cls.isa .unsupportedDidMethod) fun _ => .ok none)
    (·.cls.isa .didResolutionError) .keyResolutionError "could not resolve %: " [.str did]

/-- The `verificationMethod` of the proof of a document. -/
def proofMethod (doc : Dict) : Json :=
  match doc.get "proof" with
  | .obj proof => Dict.get proof "verificationMethod"
  | _ => .null

/-- `_preresolved_di_resolver(doc, resolver)`. -/
def preresolvedDiResolver (doc : Dict) (resolver : Did.AsyncDidResolver) :
    Awaitable (Option Did.DidResolver) :=
  match (proofMethod doc).str?.filter (!·.isEmpty) with
  | none => pure none
  | some vm =>
    let did := Str.beforeFirst 35 vm
    if resolver.handles did then (resolver.resolve did).handle (oneShot did) else pure none

/-! ## The handlers -/

/-- `_check_schema_async(credential, policy, resolve_credential_schema, verify_inner)`. -/
def checkSchemaAsync (H : Host) (credential : Dict) (policy : Policy)
    (resolve : Option Schema.AsyncSchemaResolver) (verifyInner : Option Schema.AsyncVerifyInner) :
    Awaitable (Option Schema.ValidationResult) :=
  if !(credential.get "credentialSchema").truthy then pure none
  else match resolve with
    | none => do
      refuseUnresolvedSchema policy.requireSchema
      return none
    | some resolve => do
      let result ← Schema.validateCredentialSchemaAsync H.crypto H.schemas credential resolve
        verifyInner
      return some result

/-- `_verify_vc_jwt_async(token, policy, …)`. -/
def verifyVcJwtAsync (A : AsyncSources H) (policy : Policy)
    (verifyInner : Option Schema.AsyncVerifyInner) (token : Str) :
    Awaitable VerificationResult := do
  let (iss, kid) ← VcJwt.peekIssuer token
  let jwk ← resolveJoseKeyWithX5cAsync A token iss kid false policy.now
  let verified ← VcJwt.verify H.I H.crypto H.pyJwt policy.vcJwtSuite token (.obj jwk)
    ⟨[], policy.audience⟩ policy.requireNotExpired
  checkTypes verified.credential policy.expectedTypes
  let status ← checkStatusAsync H.zlib verified.credential (some verified.claims)
    policy.toVerificationPolicy A.status (some verified.issuer)
  let schema ← checkSchemaAsync H verified.credential policy A.credentialSchema verifyInner
  return vcJwtResult verified status schema

/-- `_verify_sd_jwt_async(sd_jwt, policy, …)`. -/
def verifySdJwtAsync (A : AsyncSources H) (policy : Policy)
    (verifyInner : Option Schema.AsyncVerifyInner) (sdJwt : Str) :
    Awaitable VerificationResult := do
  let (iss, kid) ← SdJwt.peekIssuer sdJwt
  let jwk ← resolveJoseKeyWithX5cAsync A sdJwt iss kid true policy.now
  let verified ← SdJwt.verify H.I H.crypto policy.sdJwtSuite sdJwt jwk
    (policy.sdJwtPolicy (policy.audience, policy.nonce)) policy.requireNotExpired
  checkSdJwtTypes verified policy.expectedTypes
  let status ← checkStatusAsync H.zlib verified.claims (some verified.claims)
    policy.toVerificationPolicy A.status (some verified.issuer)
  let schema ← checkSchemaAsync H verified.claims policy A.credentialSchema verifyInner
  return sdJwtResult verified status schema

/-- `_verify_data_integrity_async(doc, fmt, policy, …)`. -/
def verifyDataIntegrityAsync (A : AsyncSources H) (policy : Policy)
    (verifyInner : Option Schema.AsyncVerifyInner) (suite : DiSuite) (doc : Dict) :
    Awaitable VerificationResult := do
  let syncResolver ← preresolvedDiResolver doc A.resolver
  let verified ← verifyDiSuite H suite policy.leewayS doc none syncResolver policy.diPolicy
  let issuer ← bindIssuer verified
  checkDiTypes H.jsonLd suite verified.credential policy.expectedTypes
  let status ← checkStatusAsync H.zlib verified.credential (some verified.credential)
    policy.toVerificationPolicy A.status (some issuer)
  let schema ← checkSchemaAsync H verified.credential policy A.credentialSchema verifyInner
  return diResult suite verified issuer status schema

/-! ## The pipeline -/

/-- The handlers of `_verify_by_format_async`; an envelope is handed to `unwrap`. -/
def verifyByFormatAsync (A : AsyncSources H) (policy : Policy)
    (verifyInner : Option Schema.AsyncVerifyInner) (unwrap : Dict → Awaitable VerificationResult) :
    Detected → Awaitable VerificationResult
  | .enveloped doc => unwrap doc
  | .vcJwt token => verifyVcJwtAsync A policy verifyInner token
  | .sdJwtVc sdJwt => verifySdJwtAsync A policy verifyInner sdJwt
  | .dataIntegrity suite doc => verifyDataIntegrityAsync A policy verifyInner suite doc

/-- `verify_credential_async` with the number of envelopes that may still be opened (two less
`_depth`), on the closures that verify a schema-defining credential at each depth. -/
def verifyAtAsync (A : AsyncSources H) (policy : Policy)
    (verifyInner : Nat → Option Schema.AsyncVerifyInner) :
    Nat → Json → Awaitable VerificationResult
  | left, credential => do
    rejectDeepCredential credential
    let detected ← detectFormat credential
    verifyByFormatAsync A policy (verifyInner left)
      (fun doc => match left with
        | 0 => .done (raise .unknownCredentialFormat "enveloped credential nested too deeply" [])
        | left + 1 => do
          let inner ← unwrapEnveloped doc
          verifyAtAsync A policy verifyInner left inner) detected

/-- `_make_schema_verifier_async(policy, …)`. -/
def schemaVerifierAsync (A : AsyncSources H) (policy : Policy) (left : Nat) :
    Schema.AsyncVerifyInner :=
  fun raw => do
    let credential ← bytesToCredential raw
    let result ← verifyAtAsync { A with credentialSchema := none } (schemaInnerPolicy policy)
      (fun _ => none) (left - 1) credential
    return result.credential

/-- `verify_credential_async(credential, policy, …)`. -/
def verifyCredentialAsync (A : AsyncSources H) (policy : Policy) (credential : Json) :
    Awaitable VerificationResult :=
  verifyAtAsync A policy (fun left => some (schemaVerifierAsync A policy left)) maxEnvelopes
    credential

end Pipeline

end OpenVC
