import OpenVC.OpenId4Vp.Dcql

/-!
# The presentations of an OpenID4VP response (`openvc.openid4vp`)

Each presentation is verified under the format of its query and bound to the request's nonce and
audience; a query that waives holder binding may be answered with a bare credential.
-/

namespace OpenVC.OpenId4Vp

open Python Pipeline

/-! ## Shapes -/

/-- What a W3C answer is. -/
inductive Shape where
  | vp
  | vc
  deriving DecidableEq

/-- The two objects of a compact JWS. -/
def jwsObjects (header payload : Str) : Option (Dict × Dict) :=
  match loadSegment header, loadSegment payload with
  | .ok (.obj header), .ok (.obj payload) => some (header, payload)
  | _, _ => none

/-- `_peek_jws(value)`. -/
def peekJws (value : Json) : Option (Dict × Dict) :=
  match value with
  | .str s =>
    if s.contains 126 then none
    else match Str.split 46 s with
      | [header, payload, _] => jwsObjects header payload
      | _ => none
  | _ => none

/-- `_jwt_typ_kind(header)`. -/
def jwtTypKind (I : Interpreter) (header : Dict) : Option Shape :=
  match header.get "typ" with
  | .str typ =>
    let media := VcJwt.dropStart (I.lower typ) "application/"
    if media = lit "vc+jwt" then some .vc else if media = lit "vp+jwt" then some .vp else none
  | _ => none

/-- The shape of a JWT by the claims it carries, for a `typ` that does not contradict it. -/
def typedShape (I : Interpreter) (queryId : Str) (header : Dict) (shape : Shape) : Result Shape := do
  raiseIf ((jwtTypKind I header).any (· != shape)) ⟨.vpTokenMalformed,
    "the jwt_vc_json Presentation for % is typed % but carries a % claim",
    [.str queryId, header.get "typ", .str (if shape = .vp then "`vp`" else "`vc`")]⟩
  return shape

/-- `_jwt_shape(query_id, presentation)`. -/
def jwtShape (I : Interpreter) (queryId : Str) (presentation : Json) : Result Shape :=
  match peekJws presentation with
  | none => .ok .vp
  | some (header, payload) =>
    if payload.has "vp" && payload.has "vc" then raise .vpTokenMalformed
      "the jwt_vc_json Presentation for % carries both a `vp` and a `vc` claim, so it is not decidably a presentation or a credential"
      [.str queryId]
    else if payload.has "vp" then typedShape I queryId header .vp
    else if (payload.get "vc").obj?.isSome then typedShape I queryId header .vc
    else .ok .vp

/-- Whether a `type` lists a name. -/
def typed (presentation : Dict) (name : Str) : Bool :=
  (VcJwt.typeEntries presentation).any (Json.pyEq (.str name))

/-- `_ldp_shape(query_id, presentation)`. -/
def ldpShape (queryId : Str) (presentation : Json) : Result Shape :=
  match presentation with
  | .obj m =>
    if typed m "VerifiablePresentation" && typed m "VerifiableCredential" then
      raise .vpTokenMalformed
        "an ldp_vc Presentation for % is typed both VerifiablePresentation and VerifiableCredential, so it is not decidably a presentation or a credential"
        [.str queryId]
    else if typed m "VerifiablePresentation" then .ok .vp
    else if typed m "EnvelopedVerifiableCredential" then raise .vpTokenMalformed
      "an ldp_vc Presentation for % is an EnvelopedVerifiableCredential, which is not accepted: answer with a VerifiablePresentation or a Data Integrity VerifiableCredential"
      [.str queryId]
    else .ok (if typed m "VerifiableCredential" then .vc else .vp)
  | _ => .ok .vp

/-! ## Type values -/

/-- `_RELATIVE_BASE`. -/
def relativeBase : Str := "https://openvc.invalid/relative/"

/-- The types that are written in a credential. -/
def writtenTypes (written : Json) : List Json :=
  match written with
  | .str s => [.str s]
  | .arr l => l
  | _ => []

/-- A value of an expanded `@type`, as it is compared: a type no context defines is the string that
was written. -/
def comparedType (written : List Json) (value : Str) : Option Str :=
  if value.startsWith relativeBase then
    let rest := value.drop relativeBase.length
    if written.any (Json.pyEq (.str rest)) then some rest else none
  else if value.startsWith "https://openvc.invalid/" then none
  else some value

/-- The values of the `@type` of a node. -/
def nodeTypes (node : Json) : List Json :=
  match node with
  | .obj m => SdJwt.entries (Dict.get m "@type")
  | _ => []

/-- The types of an expanded document. -/
def comparedTypes (written : List Json) (expanded : Json) : List Str :=
  ((((expanded.arr?.getD []).flatMap nodeTypes).filterMap Json.str?)).filterMap
    (comparedType written)

/-- The part of a credential that its types are expanded from. -/
def typedPart (credential : Dict) : Dict :=
  ([lit "@context", lit "type"]).filterMap fun key => (credential.get? key).map (key, ·)

/-- Whether the JSON of a result is what its proof covers. -/
def coversJson (format : Pipeline.Format) : Bool :=
  match format with
  | .vcJwt => true
  | .dataIntegrity _ => true
  | .sdJwtVc => false

/-- `_expanded_types(query_id, index, result, loader)`. -/
def expandedTypes (expand : Dict → Except JsonLdError Json) (queryId : Str) (index : Nat)
    (result : VerificationResult) : Result (List Str) :=
  if coversJson result.format then
    match expand (typedPart result.credential) with
    | .ok expanded =>
      .ok (comparedTypes (writtenTypes ((typedPart result.credential).get "type")) expanded)
    | .error (.loader text) => raise .documentLoaderError "%" [.str text]
    | .error .unavailable => raise .claimsInvalid
        "Credential Query %: cannot expand the types of embedded credential #% to match type_values (%)"
        [.str queryId, .int index, .str (lit "ImportError")]
    | .error (.other code) => raise .claimsInvalid
        "Credential Query %: cannot expand the types of embedded credential #% to match type_values (%)"
        [.str queryId, .int index, .str code]
  else .ok []

/-- Whether a credential answers one of the alternatives. -/
def checkTypesOf (expand : Dict → Except JsonLdError Json) (queryId : Str)
    (alternatives : List (List Str)) (index : Nat) (result : VerificationResult) : Result Unit := do
  let expanded ← expandedTypes expand queryId index result
  raiseIf (!alternatives.any fun alt => alt.all expanded.contains) ⟨.claimsInvalid,
    "Credential Query %: embedded credential #% has none of the requested type_values",
    [.str queryId, .int index]⟩

/-- The `type_values` of a query that is answered, with the processor they need. -/
abbrev TypeConstraint := Option ((Dict → Except JsonLdError Json) × List (List Str))

/-- `_type_values` with `_require_pyld`. -/
def typeConstraint (expand : Expander) (queryId : Str) (query : Dict) : Result TypeConstraint := do
  let values ← typeValues queryId query
  match values with
  | none => return none
  | some values => (orRaise expand ⟨.openId4VpError,
      "Credential Query %: matching meta.type_values expands each credential's types with JSON-LD, which needs pyld: pip install 'openvc-core[data-integrity]'",
      [.str queryId]⟩).map fun expand => some (expand, values)

/-- `_check_type_values(query_id, type_values, credentials, extra_contexts)`. -/
def checkTypeValues (queryId : Str) (types : TypeConstraint) (credentials : List VerificationResult) :
    Result Unit :=
  match types with
  | none => .ok ()
  | some (expand, alternatives) =>
    each (fun c => checkTypesOf expand queryId alternatives c.2 c.1) credentials.zipIdx

/-! ## Holder binding -/

/-- One credential of `_check_holder_bound`. -/
def checkCredentialBound (queryId : Str) (holder : Json) (result : VerificationResult) :
    Result Unit :=
  if result.format = .sdJwtVc then raiseIf (result.keyBound != some true) ⟨.claimsInvalid,
    "Credential Query % requires cryptographic holder binding: a nested SD-JWT VC has no Key Binding JWT bound to this presentation",
    [.str queryId]⟩
  else do
    raiseIf (result.credential.get "credentialSubject").arr?.isSome ⟨.claimsInvalid,
      "Credential Query % requires cryptographic holder binding: a credential with a credentialSubject array has no single subject to bind",
      [.str queryId]⟩
    raiseIf (!holder.truthy || !result.subject.truthy || !Json.pyEq result.subject holder)
      ⟨.claimsInvalid,
        "Credential Query % requires cryptographic holder binding: credential subject % is not the authenticated holder %",
        [.str queryId, result.subject, holder]⟩

/-- `_check_holder_bound(query_id, credentials, holder)`, when binding is required. -/
def checkHolderBound (requireBinding : Bool) (queryId : Str) (credentials : List VerificationResult)
    (holder : Json) : Result Unit :=
  if requireBinding then each (checkCredentialBound queryId holder) credentials else .ok ()

/-! ## The lanes -/

variable {H : Host} {M : Mdoc}

/-- A host with the extra contexts of the call. -/
def Call.host (call : Call H M) : Host := { H with jsonLd := call.extraContexts }

/-- The resolvers of a pipeline run; no lane has a schema resolver. -/
def Call.jose (call : Call H M) (n c : Nat) : Sources H :=
  { call.sources n c with resolver := call.resolver, credentialSchema := none }

/-- The same with the extra contexts. -/
def Call.linked (call : Call H M) (n c : Nat) : Sources call.host where
  resolver := call.resolver
  statusList := (call.sources n c).statusList
  statusListToken := (call.sources n c).statusListToken
  credentialSchema := none
  jwtVcIssuerFetch := (call.sources n c).jwtVcIssuerFetch
  x5cTrustAnchors := (call.sources n c).x5cTrustAnchors

/-- The policy that the lanes have in common. -/
def lanePolicy (call : Call H M) (d : Durations) (requireKeyBinding : Bool) : Policy where
  leewayS := d.leewayS
  leeway_ok := d.leeway_ok
  kbMaxAgeS := d.kbMaxAgeS
  kbMaxAge_ok := d.kbMaxAge_ok
  requireStatus := call.requireStatus
  now := call.now
  requireKeyBinding := requireKeyBinding

/-- `dcapi_session_transcript(origin, nonce, jwk_thumbprint)`. -/
def dcapiSessionTranscript (C : Crypto) (origin nonce : Str) (jwkThumbprint : Option Bytes) :
    Result Bytes := do
  let info ← Cbor.encode (.arr [.text origin, .text nonce,
    (jwkThumbprint.map Cbor.bytes).getD .null])
  Cbor.encode (.arr [.null, .null, .arr [.text (lit "OpenID4VPDCAPIHandover"),
    .bytes (C.sha256 info)]])

/-- A `DeviceResponse` under the transcript of one origin. -/
def verifyAtOrigin (call : Call H M) (anchors : List M.Anchor) (deviceResponse : Bytes)
    (doctype : Option Str) (origin : Str) : Result (List M.Document) := do
  let transcript ← dcapiSessionTranscript H.crypto origin call.nonce call.mdocJwkThumbprint
  M.verifyDeviceResponse deviceResponse anchors transcript call.now call.leewayS doctype

/-- Whether the loop over the origins goes on after an error. -/
def triesNext (e : Err) : Bool := e.cls.isa .mdocDeviceAuthError

/-- The loop over the origins: only a failed device authentication tries the next one. -/
def tryOrigins (verifyAt : Str → Result (List M.Document)) :
    Option Err → List Str → Result (List M.Document)
  | none, [] => raise .assertionError "last_error is not None" []
  | some lastError, [] => .error lastError
  | _, origin :: origins =>
    match verifyAt origin with
    | .ok documents => .ok documents
    | .error e => if triesNext e then tryOrigins verifyAt (some e) origins else .error e

/-- `_verify_mso_mdoc(query_id, query, presentation, …)`. -/
def verifyMsoMdoc (call : Call H M) (queryId : Str) (query : Dict) (presentation : Json) :
    Result (VerifiedPresentation M) := do
  let origins ← orRaise call.expectedOrigins ⟨.unsupportedPresentationFormat,
    "Credential Query % format 'mso_mdoc' is only wired for the W3C Digital Credentials API flow — pass expected_origins",
    [.str queryId]⟩
  let anchors ← orRaise call.trustAnchors ⟨.claimsInvalid,
    "verifying an mso_mdoc needs trust_anchors (the IACA root certificates)", []⟩
  let text ← orRaise presentation.str? ⟨.vpTokenMalformed,
    "an mso_mdoc Presentation for % must be a base64url string (the DeviceResponse)",
    [.str queryId]⟩
  let doctype ← mdocDoctypeValue queryId query
  let deviceResponse ← orRaise (Codec.b64urlDecodePadded text) ⟨.vpTokenMalformed,
    "the mso_mdoc Presentation for % is not valid base64url: ", [.str queryId]⟩
  let documents ← tryOrigins (verifyAtOrigin call anchors deviceResponse doctype) none origins
  return ⟨queryId, .msoMdoc, .null, documents.map .mdoc, .mdoc documents⟩

/-- The suite's result of an SD-JWT. -/
def sdJwtRaw : Pipeline.Raw → Option SdJwt.Verified
  | .sdJwtVc verified => some verified
  | _ => none

/-- `_check_vct(query_id, vct_values, vct)`. -/
def checkVct (queryId : Str) (vctValues : Option (List Str)) (vct : Option Str) : Result Unit :=
  raiseIf (vctValues.any fun values => !vct.any values.contains) ⟨.claimsInvalid,
    "Credential Query %: vct % is not one of the requested vct_values",
    [.str queryId, (vct.map Json.str).getD .null]⟩

/-- `_verify_sd_jwt_vc(query_id, vct_values, presentation, …)`. -/
def verifySdJwtVc (call : Call H M) (d : Durations) (n : Nat) (queryId : Str)
    (vctValues : Option (List Str)) (presentation : Json) (requireBinding : Bool) (aud : Str) :
    Result (VerifiedPresentation M) := do
  let text ← orRaise presentation.str? ⟨.vpTokenMalformed,
    "a dc+sd-jwt Presentation for % must be a compact string", [.str queryId]⟩
  raiseIf (!text.contains 126)
    ⟨.vpTokenMalformed, "a dc+sd-jwt Presentation for % must be an SD-JWT", [.str queryId]⟩
  let result ← verifyCredential (call.jose n 0)
    { lanePolicy call d requireBinding with audience := some aud, nonce := some call.nonce } none
    (.str text)
  raiseIf (result.format != .sdJwtVc) ⟨.vpTokenMalformed,
    "Presentation for % did not verify as an SD-JWT VC", [.str queryId]⟩
  let verified ← orRaise ((sdJwtRaw result.raw).filter fun v => v.typ == some Format.sdJwtVc.name)
    ⟨.vpTokenMalformed,
      "a dc+sd-jwt Presentation for % must be an IETF SD-JWT VC (issuer JWT typ 'dc+sd-jwt')",
      [.str queryId]⟩
  checkVct queryId vctValues verified.vct
  return ⟨queryId, .sdJwtVc, result.subject, [.w3c result], .credential result.raw⟩

/-- `_verify_jwt_vp(query_id, presentation, …)`. -/
def verifyJwtVp (call : Call H M) (d : Durations) (n : Nat) (queryId : Str) (types : TypeConstraint)
    (presentation : Json) (requireBinding : Bool) (aud : Str) :
    Result (VerifiedPresentation M) := do
  let text ← orRaise presentation.str? ⟨.vpTokenMalformed,
    "a jwt_vc_json Presentation for % must be a compact JWT string", [.str queryId]⟩
  let verified ← VpJwt.verify H d.leewayS call.resolver (call.jose n)
    (lanePolicy call d requireBinding)
    ⟨aud, call.nonce, none, none, call.requireHolderBinding⟩ text
  raiseIf verified.credentials.isEmpty ⟨.vpTokenMalformed,
    "the jwt_vc_json Presentation for % embeds no verifiableCredential", [.str queryId]⟩
  checkHolderBound requireBinding queryId verified.credentials (.str verified.holder)
  checkTypeValues queryId types verified.credentials
  return ⟨queryId, .jwtVc, .str verified.holder, verified.credentials.map .w3c, .vpJwt verified⟩

/-- The suite of a holder proof, `_LDP_VP_CRYPTOSUITES` and `_di_suite_for(cryptosuite, leeway_s)`. -/
def ldpVpSuite (cryptosuite : Json) : Option DiSuite :=
  (cryptosuite.str?.bind DiSuite.ofName).filter (· != .ecdsaSd)

/-- The proof of an LDP presentation. -/
def ldpProof (queryId : Str) (proof : Json) : Result Dict :=
  match proof with
  | .arr _ => raise .unsupportedPresentationFormat
      "the ldp_vc Presentation for % carries multiple proofs (not supported)" [.str queryId]
  | proof => orRaise proof.obj? ⟨.vpTokenMalformed,
      "the ldp_vc Presentation for % has no Data Integrity holder proof", [.str queryId]⟩

/-- The holder that a presentation claims. -/
def claimedHolder (presentation : Dict) : Json :=
  match presentation.get "holder" with
  | .obj m => Dict.get m "id"
  | v => v

/-- The DID of the method that signed. -/
def authenticatedHolder (proof : Dict) : Option Str :=
  (proof.get "verificationMethod").str?.map (Str.beforeFirst 35)

/-- `_vp_holder(query_id, presentation, proof)`. -/
def vpHolder (queryId : Str) (presentation proof : Dict) : Result Json := do
  raiseIf ((claimedHolder presentation).str?.any fun claimed => !claimed.isEmpty &&
      (authenticatedHolder proof).any fun holder => !holder.isEmpty && claimed != holder)
    ⟨.claimsInvalid,
      "the ldp_vc Presentation for % claims holder % but was authenticated by %",
      [.str queryId, claimedHolder presentation, ((authenticatedHolder proof).map .str).getD .null]⟩
  return ((authenticatedHolder proof).map .str).getD .null

/-- The items of `verifiableCredential`. -/
def embeddedItems (presentation : Dict) : List Json :=
  match presentation.get "verifiableCredential" with
  | .arr l => l
  | .null => []
  | vc => [vc]

/-- `_embedded_vcs(query_id, presentation)`. -/
def embeddedVcs (queryId : Str) (presentation : Dict) : Result (List Json) := do
  let items := embeddedItems presentation
  raiseIf items.isEmpty ⟨.vpTokenMalformed,
    "the ldp_vc Presentation for % embeds no verifiableCredential", [.str queryId]⟩
  raiseIf (!items.all fun item => item.str?.isSome || item.obj?.isSome) ⟨.vpTokenMalformed,
    "each embedded credential in % must be a string or JSON object", [.str queryId]⟩
  return items

/-- The `require_holder_binding` of the LDP lane. -/
def checkSubjects (required : Bool) (credentials : List VerificationResult) (holder : Json) :
    Result Unit :=
  if required then each (fun result =>
    raiseIf (!result.subject.truthy || !Json.pyEq result.subject holder) ⟨.claimsInvalid,
      "credential subject % is not the authenticated holder % (require_holder_binding)",
      [result.subject, holder]⟩) credentials
  else .ok ()

/-- What the holder proof of an LDP presentation is held to. -/
def ldpVpPolicy (call : Call H M) (aud : Str) : DiPolicy where
  expectedProofPurpose := some "authentication"
  expectedChallenge := some call.nonce
  expectedDomain := some aud
  now := call.now

/-- The object an LDP presentation has to be. -/
def ldpObject (queryId : Str) (presentation : Json) : Result Dict :=
  match presentation with
  | .str _ => raise .vpTokenMalformed
      "an ldp_vc Presentation for % must be a JSON object (a W3C Verifiable Presentation), not a string"
      [.str queryId]
  | presentation => orRaise presentation.obj? ⟨.vpTokenMalformed,
      "an ldp_vc Presentation for % must be a JSON object", [.str queryId]⟩

/-- The presentation an LDP lane verifies, with its suite. -/
def readLdpVp (queryId : Str) (presentation : Json) : Result (Dict × DiSuite) := do
  let vp ← ldpObject queryId presentation
  raiseIf (!typed vp "VerifiablePresentation") ⟨.vpTokenMalformed,
    "an ldp_vc Presentation for % must be a VerifiablePresentation", [.str queryId]⟩
  let proof ← ldpProof queryId (vp.get "proof")
  let suite ← orRaise (ldpVpSuite (proof.get "cryptosuite")) ⟨.unsupportedPresentationFormat,
    "the ldp_vc Presentation for % uses an unsupported Data Integrity cryptosuite %",
    [.str queryId, proof.get "cryptosuite"]⟩
  return (vp, suite)

/-- `_verify_ldp_vp(query_id, presentation, …)`. -/
def verifyLdpVp (call : Call H M) (d : Durations) (n : Nat) (queryId : Str) (types : TypeConstraint)
    (presentation : Json) (requireBinding : Bool) (aud : Str) :
    Result (VerifiedPresentation M) := do
  let (vp, suite) ← readLdpVp queryId presentation
  let verified ← verifyDiSuite call.host suite d.leewayS vp none (some call.resolver)
    (ldpVpPolicy call aud)
  let holder ← vpHolder queryId vp verified.proof
  let vcs ← embeddedVcs queryId vp
  let credentials ← collect (fun vc => verifyCredential (call.linked n vc.2)
    (lanePolicy call d requireBinding) (some (aud, call.nonce)) vc.1) vcs.zipIdx
  checkHolderBound requireBinding queryId credentials holder
  checkSubjects call.requireHolderBinding credentials holder
  checkTypeValues queryId types credentials
  return ⟨queryId, .ldpVc, holder, credentials.map .w3c, .ldpVp verified⟩

/-- `_check_bare_format(query_id, fmt, result)`. -/
def bareFormat (fmt : Format) (format : Pipeline.Format) : Bool :=
  match format with
  | .vcJwt => fmt == .jwtVc
  | .dataIntegrity _ => fmt != .jwtVc
  | .sdJwtVc => false

/-- `_verify_bare_w3c_vc(query_id, fmt, presentation, …)`. -/
def verifyBareW3cVc (call : Call H M) (d : Durations) (n : Nat) (queryId : Str) (fmt : Format)
    (types : TypeConstraint) (presentation : Json) : Result (VerifiedPresentation M) := do
  raiseIf call.requireHolderBinding ⟨.claimsInvalid,
    "Credential Query %: a bare credential has no authenticated holder, so it cannot meet require_holder_binding",
    [.str queryId]⟩
  let result ← verifyCredential (call.linked n 0) (lanePolicy call d false) none presentation
  raiseIf (!bareFormat fmt result.format) ⟨.vpTokenMalformed,
    "the bare credential for % did not verify as a % credential", [.str queryId, .str fmt.name]⟩
  checkTypeValues queryId types [result]
  return ⟨queryId, fmt, .null, [.w3c result], .credential result.raw⟩

/-! ## The response -/

/-- Whether a query requires cryptographic holder binding. -/
def requiresBinding (query : Dict) : Bool :=
  (flag query "require_cryptographic_holder_binding" true).truthy

/-- `_w3c_shape(query_id, fmt, presentation)`. -/
def w3cShape (I : Interpreter) (queryId : Str) (fmt : Format) (presentation : Json) :
    Result Shape :=
  if fmt = .jwtVc then jwtShape I queryId presentation else ldpShape queryId presentation

/-- The lane of a presentation that is no bare credential. -/
def verifyVpLane (call : Call H M) (d : Durations) (auds : Option (List Str)) (n : Nat)
    (queryId : Str) (query : Dict) (fmt : Format) (types : TypeConstraint) (presentation : Json) :
    Result (VerifiedPresentation M) := do
  let aud ← effectiveAudience (some fmt) presentation call.clientId auds
  if fmt = .jwtVc then
    verifyJwtVp call d n queryId types presentation (requiresBinding query) aud
  else verifyLdpVp call d n queryId types presentation (requiresBinding query) aud

/-- The bare credential that only a query without holder binding accepts. -/
def verifyVcLane (call : Call H M) (d : Durations) (n : Nat) (queryId : Str) (query : Dict)
    (fmt : Format) (types : TypeConstraint) (presentation : Json) :
    Result (VerifiedPresentation M) := do
  raiseIf (requiresBinding query) ⟨.vpTokenMalformed,
    "Credential Query % requires cryptographic holder binding (require_cryptographic_holder_binding is true or absent), so its % answer must be a Verifiable Presentation; a bare Verifiable Credential is accepted only when the query sets it to false",
    [.str queryId, .str fmt.name]⟩
  verifyBareW3cVc call d n queryId fmt types presentation

/-- `_verify_one` for a `jwt_vc_json` or an `ldp_vc` query. -/
def verifyW3c (call : Call H M) (d : Durations) (auds : Option (List Str)) (n : Nat) (queryId : Str)
    (query : Dict) (fmt : Format) (presentation : Json) : Result (VerifiedPresentation M) := do
  let types ← typeConstraint call.expand queryId query
  let shape ← w3cShape H.I queryId fmt presentation
  match shape with
  | .vc => verifyVcLane call d n queryId query fmt types presentation
  | .vp => verifyVpLane call d auds n queryId query fmt types presentation

/-- `_verify_one(query_id, query, presentation, …)`, for the `n`-th presentation. -/
def verifyOne (call : Call H M) (d : Durations) (auds : Option (List Str)) (n : Nat) (queryId : Str)
    (query : Dict) (presentation : Json) : Result (VerifiedPresentation M) :=
  let name := (query.get "format").str?.getD []
  match Format.ofName name with
  | some .msoMdoc => verifyMsoMdoc call queryId query presentation
  | some .sdJwtVc => do
    let values ← vctValues queryId query
    let aud ← effectiveAudience (some .sdJwtVc) presentation call.clientId auds
    verifySdJwtVc call d n queryId values presentation (requiresBinding query) aud
  | some fmt => verifyW3c call d auds n queryId query fmt presentation
  | none => do
    let _ ← effectiveAudience none presentation call.clientId auds
    raise .unsupportedPresentationFormat "Credential Query % has unknown format %"
      [.str queryId, .str name]

/-- The presentations of one query, after those already verified. -/
def verifyPresentations (call : Call H M) (d : Durations) (auds : Option (List Str)) (queryId : Str)
    (query : Dict) (verified : List (VerifiedPresentation M)) (presentations : List Json) :
    Result (List (VerifiedPresentation M)) :=
  enumerateLoop (fun verified _ presentation => do
    let result ← verifyOne call d auds verified.length queryId query presentation
    return verified ++ [result]) verified 0 presentations

/-- One iteration over the items of the `vp_token`. -/
def verifyItem (call : Call H M) (d : Durations) (auds : Option (List Str)) (queries : Queries)
    (verified : List (VerifiedPresentation M)) (item : Str × Json) :
    Result (List (VerifiedPresentation M)) := do
  let query ← orRaise (queries.lookup item.1) ⟨.vpTokenMalformed,
    "vp_token key % is not a Credential Query id in the DCQL query", [.str item.1]⟩
  let presentations ← presentationList item.1 query item.2
  verifyPresentations call d auds item.1 query verified presentations

/-- `verify_vp_token(vp_token, dcql_query, nonce, …)`: the presentations. -/
def verifyVpToken (call : Call H M) (vpToken : Json) : Result (List (VerifiedPresentation M)) := do
  let d ← checkDurations call.leewayS call.kbMaxAgeS
  raiseIf call.nonce.isEmpty
    ⟨.claimsInvalid, "verify_vp_token requires a non-empty nonce", []⟩
  let auds ← dcApiAcceptedAuds call.clientId call.expectedOrigins
  let token ← parseVpToken vpToken
  raiseIf token.isEmpty ⟨.vpTokenMalformed, "vp_token contains no presentations", []⟩
  let (dcql, queries) ← indexDcql call.dcqlQuery
  checkCompleteness token queries dcql
  enumerateLoop (fun verified _ item => verifyItem call d auds queries verified item) [] 0 token

end OpenVC.OpenId4Vp
