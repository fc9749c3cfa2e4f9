import OpenVC.Pipeline

/-!
# The VP-JWT proof suite (`openvc.proof.vp_jwt`)

A holder wraps credentials in a `vp` object and signs it for one verifier and one challenge. Each
embedded credential goes through the pipeline, on resolvers that are cached for the call.
-/

namespace OpenVC.VpJwt

open Python Pipeline

/-- A `VerifiedPresentation` of the suite. -/
structure Verified where
  holder : Str
  credentials : List VerificationResult
  claims : Dict
  vp : Dict

/-- `verify_compact(token, public_key_jwk)`: the header and the payload. -/
def verifyCompact (C : Crypto) (token : Str) (jwk : Dict) : Result SdJwt.Jws := do
  let jws ← parseCompact token
  let alg ← orRaise (VcJwt.permittedAlg allowedAlgs jws.header)
    ⟨.unsupportedAlgorithm, "algorithm % is not permitted", [jws.header.get "alg"]⟩
  rejectUnknownCrit jws.header
  let ok ← reraise (verifySignature C alg jwk jws.signingInput jws.signature)
    (·.cls.isa .keyBackendError) .signatureInvalid "could not verify signature: " []
  raiseIf (!ok) ⟨.signatureInvalid, "signature verification failed", []⟩
  return jws

/-- `vp.holder` of a payload. -/
def vpHolder (payload : Dict) : Json :=
  match payload.get "vp" with
  | .obj vp => Dict.get vp "holder"
  | _ => .null

/-- `x or y`. -/
def orElse (x y : Json) : Json := if x.truthy then x else y

/-- `_holder_and_kid(header, payload)`, with the holder that can be resolved. -/
def holderAndKid (header payload : Dict) : Result (Str × Json) := do
  raiseIf (!(header.get "kid").isNull && (header.get "kid").str?.isNone)
    ⟨.malformedToken, "kid must be a string", []⟩
  let holder ← orRaise ((orElse (payload.get "iss") (vpHolder payload)).str?.filter (!·.isEmpty))
    ⟨.malformedToken, "VP-JWT has no holder (iss / vp.holder) to resolve", []⟩
  return (holder, header.get "kid")

/-- The holder is resolved by DID alone. -/
def holderSources (H : Host) (resolver : Did.DidResolver) : Sources H where
  resolver := resolver
  statusList := none
  statusListToken := none
  credentialSchema := none
  jwtVcIssuerFetch := none
  x5cTrustAnchors := none

/-- `_resolve_holder_key(header, payload, resolver)`. -/
def resolveHolderKey (H : Host) (resolver : Did.DidResolver) (header payload : Dict) :
    Result Dict := do
  let (holder, kid) ← holderAndKid header payload
  reraise (resolveJoseKey (holderSources H resolver) holder kid) (·.cls.isa .keyResolutionFailed)
    .claimsInvalid "could not resolve holder key: " []

/-- The key the presentation is verified with. -/
def holderKey (H : Host) (resolver : Did.DidResolver) (pinned : Option Dict) (jws : SdJwt.Jws) :
    Result Dict :=
  match pinned with
  | some jwk => .ok jwk
  | none => resolveHolderKey H resolver jws.header jws.payload

/-- The checks on the unverified token. -/
def inspect (I : Interpreter) (vpJwt : Str) : Result SdJwt.Jws := do
  let jws ← parseCompact vpJwt
  let _ ← orRaise (VcJwt.permittedAlg allowedAlgs jws.header)
    ⟨.unsupportedAlgorithm, "algorithm % is not permitted", [jws.header.get "alg"]⟩
  rejectUnknownCrit jws.header
  VcJwt.rejectSdJwtTyp I jws.header
  VcJwt.rejectSdJwtPayload jws.payload
  return jws

/-- Whether an `aud` is the expected verifier, or a list that has it. -/
def audIncludes (aud : Json) (expected : Str) : Bool :=
  Json.pyEq aud (.str expected) ||
    match aud with
    | .arr l => l.any (Json.pyEq (.str expected))
    | _ => false

/-- The claims that bind a presentation to a verifier and a challenge. -/
def checkBinding (I : Interpreter) (claims : Dict) (leeway : Int) (audience nonce : Str) :
    Result Unit := do
  let _ ← checkJwtTemporal I claims leeway "presentation" none true
  raiseIf (!audIncludes (claims.get "aud") audience)
    ⟨.claimsInvalid, "aud % != expected verifier %", [claims.get "aud", .str audience]⟩
  raiseIf (!Json.pyEq (claims.get "nonce") (.str nonce))
    ⟨.claimsInvalid, "nonce does not match the expected challenge", []⟩

/-- The holder that the claims name. -/
def readHolder (claims vp : Dict) (expectedHolder : Option Str) : Result Str := do
  let holder ← orRaise ((orElse (claims.get "iss") (vp.get "holder")).str?.filter (!·.isEmpty))
    ⟨.claimsInvalid, "VP-JWT has no holder (iss / vp.holder)", []⟩
  raiseIf ((vp.get "holder").truthy && !Json.pyEq (vp.get "holder") (.str holder))
    ⟨.claimsInvalid, "vp.holder does not match iss", []⟩
  raiseIf (expectedHolder.any (· != holder))
    ⟨.claimsInvalid, "holder % != expected %", [.str holder, .str (expectedHolder.getD [])]⟩
  return holder

/-- The embedded credentials. -/
def entries (vp : Dict) : Result (List Json) :=
  match (vp.get? "verifiableCredential").getD (.arr []) with
  | .str s => .ok [.str s]
  | .obj m => .ok [.obj m]
  | .arr l => .ok l
  | raw => raise .claimsInvalid "vp.verifiableCredential must be a credential or an array, not %"
      [.str (Did.typeName raw)]

/-- Whether the subject of a result is the holder. -/
def namesHolder (holder : Str) (result : VerificationResult) : Bool :=
  result.subject.truthy && Json.pyEq result.subject (.str holder)

/-- `require_holder_binding`. -/
def checkSubjects (holder : Str) (results : List VerificationResult) : Result Unit :=
  each (fun result => raiseIf (!namesHolder holder result) ⟨.claimsInvalid,
    "credential subject % is not the holder % (holder binding required)",
    [result.subject, .str holder]⟩) results

/-- What a caller of `verify` asks of the holder. -/
structure Expectation where
  audience : Str
  nonce : Str
  holderKeyJwk : Option Dict := none
  expectedHolder : Option Str := none
  requireHolderBinding : Bool := false

/-- `batch_resolvers(resolver, …)`, on callables that answer as their caches do. A resolver is a
function of the DID, so its own cache does not show. -/
def batchResolvers {H : Host} (resolver : Did.DidResolver) (S : Sources H) : Sources H :=
  { S with resolver := ⟨some resolver.handles, resolver.resolve⟩ }

/-- `VpJwtProofSuite(leeway_s).verify(vp_jwt, …, policy, …)`; `sources n` answers as the callables
and their caches do for the `n`-th embedded credential. -/
def verify (H : Host) (leeway : Int) (resolver : Did.DidResolver) (sources : Nat → Sources H)
    (policy : Policy) (expected : Expectation) (vpJwt : Str) : Result Verified := do
  raiseIf (expected.audience.isEmpty || expected.nonce.isEmpty)
    ⟨.claimsInvalid, "VP-JWT verify requires a non-empty audience and nonce", []⟩
  let peeked ← inspect H.I vpJwt
  let jwk ← holderKey H resolver expected.holderKeyJwk peeked
  let jws ← verifyCompact H.crypto vpJwt jwk
  checkBinding H.I jws.payload leeway expected.audience expected.nonce
  let vp ← orRaise (jws.payload.get "vp").obj?
    ⟨.claimsInvalid, "VP-JWT has no `vp` object", []⟩
  let holder ← readHolder jws.payload vp expected.expectedHolder
  raiseIf (expected.requireHolderBinding && expected.holderKeyJwk.isSome &&
      expected.expectedHolder.isNone) ⟨.claimsInvalid,
    "require_holder_binding with a pinned holder key needs expected_holder to authenticate the presenter",
    []⟩
  let entries ← entries vp
  let results ← collect (fun e => verifyCredential (batchResolvers resolver (sources e.2)) policy
    (some (expected.audience, expected.nonce)) e.1) entries.zipIdx
  if expected.requireHolderBinding then do
    checkSubjects holder results
    return ⟨holder, results, jws.payload, vp⟩
  else return ⟨holder, results, jws.payload, vp⟩

end OpenVC.VpJwt
