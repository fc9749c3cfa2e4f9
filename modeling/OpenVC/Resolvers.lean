import OpenVC.Proof.VpJwt

/-!
# The default status resolvers (`openvc.resolvers`)

A status list is fetched, verified, and returned with the issuer that was authenticated. A W3C list
goes through the pipeline, an IETF token through the JWS layer. The fetch is known by the outcome of
each of its calls.
-/

namespace OpenVC

open Python Pipeline

/-- A fetch of text: the outcome of its `n`-th call, for a URL. -/
abbrev TextFetch := Nat → Str → Result Str

namespace Status

/-- `STATUS_LIST_JWT_TYP`. -/
def statusListJwtTyp : Str := "statuslist+jwt"

/-- A claim of a status list token that is present must be a NumericDate. -/
def checkTokenDate (claims : Dict) (name : Str) : Result Unit :=
  raiseIf (claims.has name && !isNumericDate (claims.get name)) ⟨.statusListError,
    "status list token % must be a finite numeric timestamp, got %", [.str name, claims.get name]⟩

/-- `verify_status_list_token(token, public_key_jwk, expected_uri, leeway_s)`. -/
def verifyStatusListToken (I : Interpreter) (C : Crypto) (token : Str) (jwk : Dict)
    (expectedUri : Str) (leewayS : Int) : Result Dict := do
  let _ ← leewaySeconds leewayS "leeway_s" .statusListError
  let jws ← VpJwt.verifyCompact C token jwk
  raiseIf (!Json.pyEq (jws.header.get "typ") (.str statusListJwtTyp)) ⟨.statusListError,
    "unexpected token typ %, want %", [jws.header.get "typ", .str statusListJwtTyp]⟩
  raiseIf (!Json.pyEq (jws.payload.get "sub") (.str expectedUri)) ⟨.statusListError,
    "status list token sub % != expected %", [jws.payload.get "sub", .str expectedUri]⟩
  each (checkTokenDate jws.payload) ["exp", "nbf", "iat"]
  let _ ← reraise (checkJwtTemporal I jws.payload leewayS "status list token" none true)
    (·.cls.isa .claimsInvalid) .statusListError "" []
  return jws.payload

end Status

namespace Resolvers

/-- `_as_credential(raw)`. -/
def asCredential (raw : Str) : Json :=
  match loads raw.strip with
  | .ok (.obj m) => .obj m
  | _ => .str raw.strip

/-- The identifier of an `issuer`: its string, or the `id` of its object. -/
def issuerName : Json → Option Str
  | .str s => some s
  | .obj m => (Dict.get m "id").str?
  | _ => none

/-- The issuer that the payload of a token claims. -/
def claimedInPayload (payload : Dict) : Option Str :=
  match payload.get "iss" with
  | .str iss => some iss
  | _ =>
    match payload.get "vc" with
    | .obj vc => issuerName (Dict.get vc "issuer")
    | _ => none

/-- `_claimed_list_issuer(credential)`. -/
def claimedListIssuer : Json → Option Str
  | .obj m => issuerName (Dict.get m "issuer")
  | .str s =>
    match parseCompact s.strip with
    | .ok jws => claimedInPayload jws.payload
    | .error _ => none
  | _ => none

/-- `_require_expected_issuer(claimed, expected)`. -/
def requireExpectedIssuer (claimed expected : Option Str) : Result Unit :=
  raiseIf (claimed.any fun c => expected.any (c != ·)) ⟨.statusListError,
    "status list issuer % does not match expected issuer %",
    [.str (claimed.getD []), .str (expected.getD [])]⟩

/-- The issuer of a list whose body names no one is filled in. -/
def fillIssuer (credential : Dict) (issuer : Json) (signer : Str) : Dict :=
  match issuer with
  | .obj m =>
    if (issuerIdentifiers issuer).isEmpty && !signer.isEmpty then
      credential.set "issuer" (.obj (Dict.set m "id" (.str signer)))
    else credential
  | _ => credential

/-- `_authenticated_list(result)`. -/
def authenticatedList (result : VerificationResult) : Result Dict :=
  match result.credential.get? "issuer" with
  | none => .ok (if result.issuer.isEmpty then result.credential
      else result.credential.set "issuer" (.str result.issuer))
  | some issuer => do
    raiseIf ((issuerIdentifiers issuer).any fun name => !Json.pyEq name (.str result.issuer))
      ⟨.statusListError, "status list names issuer % but is signed by %",
        [issuer, .str result.issuer]⟩
    return fillIssuer result.credential issuer result.issuer

/-- The arguments of a default resolver. -/
structure ListResolver (H : Host) where
  resolver : Did.DidResolver
  jwtVcIssuerFetch : Option Fetch
  leewayS : Int
  leeway_ok : 0 ≤ leewayS ∧ leewayS ≤ maxLeewayS
  fetch : TextFetch
  expectedIssuer : Option Str

variable {H : Host}

/-- What a list is verified with: no status of a status, no schema, no certificates. -/
def ListResolver.sources (D : ListResolver H) : Sources H where
  resolver := D.resolver
  statusList := none
  statusListToken := none
  credentialSchema := none
  jwtVcIssuerFetch := D.jwtVcIssuerFetch
  x5cTrustAnchors := none

/-- The policy a list is verified under. -/
def ListResolver.policy (D : ListResolver H) : Policy :=
  { requireStatus := false, leewayS := D.leewayS, leeway_ok := D.leeway_ok }

/-- `default_status_list_resolver(…)`. -/
def defaultStatusListResolver (D : ListResolver H) : Resolver := fun n url => do
  let raw ← D.fetch n url
  requireExpectedIssuer (claimedListIssuer (asCredential raw)) D.expectedIssuer
  let result ← verifyCredential D.sources D.policy none (asCredential raw)
  let list ← authenticatedList result
  return .obj list

/-- `default_status_list_token_resolver(…)`. -/
def defaultStatusListTokenResolver (D : ListResolver H) : Resolver := fun n uri => do
  let raw ← D.fetch n uri
  let jws ← parseCompact raw.strip
  let iss ← orRaise ((jws.payload.get "iss").str?.filter (!·.isEmpty)) ⟨.statusListError,
    "status list token has no string `iss` to resolve its key", []⟩
  requireExpectedIssuer (some iss) D.expectedIssuer
  let jwk ← resolveJoseKey D.sources iss (jws.header.get "kid")
  let claims ← Status.verifyStatusListToken H.I H.crypto raw.strip jwk uri D.leewayS
  return .obj claims

end Resolvers

end OpenVC
