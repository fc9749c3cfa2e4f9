import OpenVC.Keys
import OpenVC.Proof.VerifyCommon

/-!
# The VC-JWT proof suite (`openvc.proof.vc_jwt`)

Verification of a credential in the `vc` claim of a compact JWS. PyJWT verifies the classic
algorithms and is a parameter; ML-DSA tokens are verified here.
-/

namespace OpenVC

open Python

/-- `ALLOWED_ALGS`. -/
def allowedAlgs : List Str := ["ES256", "ES384", "EdDSA", "Ed25519"]

/-- `ALLOWED_ALGS_PQ`. -/
def allowedAlgsPq : List Str := ["ML-DSA-44", "ML-DSA-65", "ML-DSA-87"]

/-- `ALLOWED_ALGS_ES256K`. -/
def allowedAlgsEs256k : List Str := ["ES256K"]

/-! ## PyJWT -/

/-- The exceptions of `PyJWT.decode`, by the `except` clause that catches them. -/
inductive PyJwtError where
  /-- `ExpiredSignatureError`. -/
  | expiredSignature (text : Str)
  /-- `InvalidSignatureError`. -/
  | invalidSignature (text : Str)
  /-- Any other `PyJWTError`, or an `OverflowError`, `TypeError`, `ValueError`, `RecursionError`. -/
  | other (text : Str)
  deriving DecidableEq, Repr

/-- The arguments of `PyJWT.decode` that the suite varies between calls, but for `verify_exp`. -/
structure DecodeCall (Key : Type) where
  token : Str
  key : Key
  alg : Str
  leeway : Int
  audience : Option Str

/-- PyJWT and the key loaders of `cryptography`, at the instant of the run. -/
structure PyJwt where
  /-- A loaded public key. -/
  Key : Type
  /-- `ECAlgorithm.from_jwk` for the `ES` names, `OKPAlgorithm.from_jwk` for the others; the error
  is the text of the exception. -/
  fromJwk : Str → Dict → Except Str Key
  /-- `EllipticCurvePublicNumbers(x, y, SECP256K1()).public_key()`. -/
  secp256k1Key : Nat → Nat → Except Str Key
  /-- `PyJWT.decode` with the options of `_decode`; the last argument is `verify_exp`. -/
  decode : DecodeCall Key → Bool → Except PyJwtError Dict

/-! ## Parsing -/

/-- The three segments of a compact JWS. -/
structure Segments where
  header : Str
  payload : Str
  signature : Str

/-- The three parts of a text with two dots. -/
def threeSegments (token : Str) : Option Segments :=
  match Str.split 46 token with
  | [h, p, s] => some ⟨h, p, s⟩
  | _ => none

namespace VcJwt

/-- `_split(token)`. -/
def split (token : Str) : Result Segments := do
  raiseIf (!token.isAscii)
    ⟨.malformedToken, "token is not a compact JWS (non-ASCII characters)", []⟩
  orRaise (threeSegments token)
    ⟨.malformedToken, "token is not a compact JWS (need 3 segments)", []⟩

end VcJwt

/-- `_json.loads(_b64url_decode(segment))`. -/
def loadSegment (segment : Str) : Result Json := do
  let data ← orRaise (Codec.b64urlDecodePadded segment) ⟨.valueError, "binascii.Error", []⟩
  loadsBytes data

namespace VcJwt

/-- `peek_claims(token)`. -/
def peekClaims (token : Str) : Result Dict := do
  let segments ← split token
  let payload ← recast (loadSegment segments.payload) .valueError
    ⟨.malformedToken, "payload is not valid base64url JSON", []⟩
  orRaise payload.obj? ⟨.malformedToken, "JWS payload must be a JSON object", []⟩

/-- The header and the payload that `peek_issuer` reads. -/
def peekSegments (segments : Segments) : Result (Json × Json) := do
  let header ← loadSegment segments.header
  let payload ← loadSegment segments.payload
  return (header, payload)

/-- `vc.issuer` of a payload. -/
def vcIssuer (payload : Dict) : Json :=
  match payload.get "vc" with
  | .obj vc => Dict.get vc "issuer"
  | _ => .null

/-- An issuer, or the `id` of one that is an object. -/
def identifier : Json → Json
  | .obj m => Dict.get m "id"
  | v => v

/-- The issuer that a payload names: `iss`, else `vc.issuer`. -/
def namedIssuer (payload : Dict) : Json :=
  identifier (if (payload.get "iss").truthy then payload.get "iss" else vcIssuer payload)

/-- `peek_issuer(token)`: the issuer and the `kid`, nothing verified. -/
def peekIssuer (token : Str) : Result (Str × Json) := do
  let segments ← split token
  let (header, payload) ← recast (peekSegments segments) .valueError
    ⟨.malformedToken, "header/payload is not valid base64url JSON", []⟩
  let header ← orRaise header.obj?
    ⟨.malformedToken, "JWS header and payload must be JSON objects", []⟩
  let payload ← orRaise payload.obj?
    ⟨.malformedToken, "JWS header and payload must be JSON objects", []⟩
  let iss ← orRaise ((namedIssuer payload).str?.filter (!·.isEmpty))
    ⟨.malformedToken, "no issuer (iss / vc.issuer) present", []⟩
  raiseIf (!(header.get "kid").isNull && (header.get "kid").str?.isNone)
    ⟨.malformedToken, "kid must be a string", []⟩
  return (iss, header.get "kid")

/-- The header that `verify` reads. -/
def readHeader (token : Str) : Result Dict := do
  let segments ← split token
  let header ← recast (loadSegment segments.header) .valueError
    ⟨.malformedToken, "invalid JWS header", []⟩
  orRaise header.obj? ⟨.malformedToken, "JWS header must be a JSON object", []⟩

/-- `s` without the given beginning, or `s` itself. -/
def dropStart (s start : Str) : Str := if s.startsWith start then s.drop start.length else s

/-- Whether a media type names an SD-JWT issuer JWT or a Key Binding JWT. -/
def isSdJwtMedia (media : Str) : Bool :=
  media == lit "sd-jwt" || media.endsWith "+sd-jwt" || media == lit "kb+jwt"

/-- `_reject_sd_jwt_typ(header)`. -/
def rejectSdJwtTyp (I : Interpreter) (header : Dict) : Result Unit :=
  match header.get "typ" with
  | .str typ => raiseIf (isSdJwtMedia (dropStart (I.lower typ) "application/"))
      ⟨.malformedToken, "a JWS typed % is not a VC-JWT", [.str typ]⟩
  | _ => .ok ()

/-- The values below a value that the marker search pushes, and whether it is itself a hit. -/
def markerStep : Json → Bool × List Json
  | .obj m => (Dict.has m "_sd" || Dict.has m "_sd_alg" || Dict.has m "...", m.map Prod.snd)
  | .arr l => (false, l)
  | _ => (false, [])

/-- The loop of `_carries_sd_jwt_marker`. The stack's top is the head of the list; a run pops at most
as many values as the tree has, which is the fuel it is started with. -/
def markerLoop : Nat → List Json → Bool
  | 0, _ => false
  | _ + 1, [] => false
  | n + 1, current :: stack =>
    (markerStep current).1 || markerLoop n ((markerStep current).2.reverse ++ stack)

/-- `_carries_sd_jwt_marker(node)`. -/
def carriesSdJwtMarker (node : Json) : Bool := markerLoop (node.nodes + 1) [node]

/-- `_reject_sd_jwt_payload(payload)`. -/
def rejectSdJwtPayload (payload : Dict) : Result Unit :=
  raiseIf (carriesSdJwtMarker (.obj payload)) ⟨.malformedToken,
    "a JWS whose payload carries SD-JWT markers (_sd, _sd_alg, \"...\") is an SD-JWT issuer JWT, not a VC-JWT",
    []⟩

/-! ## Keys -/

/-- `_SECP256K1_FIELD_PRIME`. -/
def secp256k1FieldPrime : Nat := 2 ^ 256 - 2 ^ 32 - 977

/-- A character of the base64url alphabet. -/
def isB64Url (c : Nat) : Bool :=
  (65 ≤ c && c ≤ 90) || (97 ≤ c && c ≤ 122) || Str.isDigit c || c == 95 || c == 45

/-- The text of a JWK member that has the shape of a secp256k1 coordinate. -/
def es256kText (v : Json) : Option Str :=
  v.str?.filter fun s => s.length == 43 && s.all isB64Url

/-- `_es256k_coordinate(jwk, member)`. -/
def es256kCoordinate (jwk : Dict) (member : Str) : Result Nat := do
  let value ← orRaise (es256kText (jwk.get member)) ⟨.proofError,
    "ES256K key member % must be a 43-character unpadded base64url string (a 32-octet coordinate), got %",
    [.str member, jwk.get member]⟩
  let raw ← orRaise (Codec.urlsafeB64Decode (value ++ lit "="))
    ⟨.valueError, "binascii.Error", []⟩
  raiseIf (Codec.b64urlEncode raw != value)
    ⟨.proofError, "ES256K key member % is not canonical base64url", [.str member]⟩
  raiseIf (secp256k1FieldPrime ≤ Codec.intFromBytes raw)
    ⟨.proofError, "ES256K key member % is not a field element", [.str member]⟩
  return Codec.intFromBytes raw

/-- Whether `key_ops` is an array of strings that includes `verify`. -/
def isVerifyOps : Json → Bool
  | .arr ops => ops.all (·.str?.isSome) && ops.any (Json.pyEq (.str (lit "verify")))
  | _ => false

/-- `_es256k_check_members(jwk)`. -/
def es256kCheckMembers (jwk : Dict) : Result Unit := do
  raiseIf (jwk.has "alg" && !Json.pyEq (jwk.get "alg") (.str (lit "ES256K")))
    ⟨.proofError, "ES256K key member 'alg' must be 'ES256K' when present, got %", [jwk.get "alg"]⟩
  raiseIf (jwk.has "use" && !Json.pyEq (jwk.get "use") (.str (lit "sig")))
    ⟨.proofError, "ES256K key member 'use' must be 'sig' when present, got %", [jwk.get "use"]⟩
  raiseIf (jwk.has "key_ops" && !isVerifyOps (jwk.get "key_ops")) ⟨.proofError,
    "ES256K key member 'key_ops' must be an array of strings that includes 'verify' when present, got %",
    [jwk.get "key_ops"]⟩

/-- Whether a JWK has the given `kty` and `crv`. -/
def isKind (jwk : Dict) (kty crv : Str) : Bool :=
  Json.pyEq (jwk.get "kty") (.str kty) && Json.pyEq (jwk.get "crv") (.str crv)

/-- What a key loader gave, as the suite reports it. -/
def loaded {α : Type} (alg : Str) : Except Str α → Result α
  | .ok key => .ok key
  | .error text => raise .proofError "could not load % key from JWK: %" [.str alg, .str text]

/-- `_es256k_public_key(jwk)`. -/
def es256kPublicKey (J : PyJwt) (jwk : Dict) : Result J.Key := do
  raiseIf (!isKind jwk "EC" "secp256k1") ⟨.proofError,
    "ES256K requires an EC secp256k1 key, got kty=% crv=%", [jwk.get "kty", jwk.get "crv"]⟩
  es256kCheckMembers jwk
  let x ← es256kCoordinate jwk "x"
  let y ← es256kCoordinate jwk "y"
  loaded "ES256K" (J.secp256k1Key x y)

/-- The `kty` and `crv` a classic algorithm is pinned to. -/
def pinnedKind (alg : Str) : Str × Str :=
  if alg = lit "ES256" then ("EC", "P-256")
  else if alg = lit "ES384" then ("EC", "P-384")
  else ("OKP", "Ed25519")

/-- The branches of `_jwk_to_key` for the algorithms PyJWT loads a key for. -/
def classicKey (J : PyJwt) (jwk : Dict) (alg : Str) : Result J.Key := do
  raiseIf (!isKind jwk (pinnedKind alg).1 (pinnedKind alg).2)
    ⟨.proofError, "% requires an % % key, got kty=% crv=%",
      [.str alg, .str (pinnedKind alg).1, .str (pinnedKind alg).2, jwk.get "kty", jwk.get "crv"]⟩
  loaded alg (J.fromJwk alg jwk)

/-- `_jwk_to_key(jwk, alg)` for an algorithm of the allow-list. -/
def jwkToKey (J : PyJwt) (jwk : Json) (alg : Str) : Result J.Key :=
  match jwk with
  | .obj jwk => if alg = lit "ES256K" then es256kPublicKey J jwk else classicKey J jwk alg
  | jwk => raise .proofError "% requires a JWK object, got %" [.str alg, jwk]

/-! ## Claims -/

/-- `credentialSubject.id` of a credential with one subject. -/
def subjectId (vc : Dict) : Json :=
  match vc.get "credentialSubject" with
  | .obj cs => Dict.get cs "id"
  | _ => .null

/-- Whether a present `issuer` names anyone but `iss`. -/
def issuerConflicts (iss : Str) (vc : Dict) : Bool :=
  match vc.get? "issuer" with
  | some issuer => (issuerIdentifiers issuer).any fun name => !Json.pyEq name (.str iss)
  | none => false

/-- Whether two values are both truthy and differ. -/
def conflict (x y : Json) : Bool := x.truthy && y.truthy && !Json.pyEq x y

/-- `_reconcile(claims, vc)`: the issuer and the subject. -/
def reconcile (claims vc : Dict) : Result (Str × Option Str) := do
  let iss ← orRaise (claims.get "iss").str?
    ⟨.claimsInvalid, "iss claim is missing or not a string", []⟩
  raiseIf (issuerConflicts iss vc)
    ⟨.claimsInvalid, "iss % != issuer %", [.str iss, vc.get "issuer"]⟩
  raiseIf (conflict (claims.get "sub") (subjectId vc))
    ⟨.claimsInvalid, "sub % != credentialSubject.id %", [claims.get "sub", subjectId vc]⟩
  raiseIf (conflict (claims.get "jti") (vc.get "id"))
    ⟨.claimsInvalid, "jti % != vc.id %", [claims.get "jti", vc.get "id"]⟩
  return (iss, (claims.get "sub").str? <|> (subjectId vc).str?)

/-- The entries of the `type` of a credential. -/
def typeEntries (vc : Dict) : List Json :=
  match vc.get "type" with
  | .str s => [.str s]
  | .arr l => l
  | _ => []

/-- `_check_types(vc, expected)`. -/
def checkTypes (vc : Dict) (expected : List Str) : Result Unit :=
  let missing := expected.filter fun t => !(typeEntries vc).any (Json.pyEq (.str t))
  raiseIf (!missing.isEmpty)
    ⟨.claimsInvalid, "credential missing required type(s): %", missing.map .str⟩

/-! ## The suite -/

/-- A `VcJwtProofSuite`. -/
structure Suite where
  leeway : Int
  leeway_ok : 0 ≤ leeway ∧ leeway ≤ maxLeewayS
  allowPq : Bool
  allowEs256k : Bool

/-- `VcJwtProofSuite(leeway_s, allow_pq, allow_es256k)`. -/
def Suite.init (leewayS : Int) (allowPq allowEs256k : Bool) : Result Suite :=
  if h : 0 ≤ leewayS ∧ leewayS ≤ maxLeewayS then .ok ⟨leewayS, h, allowPq, allowEs256k⟩
  else raise .proofError "% must be a whole number of seconds from 0 to %, got %"
    [.str (lit "leeway_s"), .int maxLeewayS, .int leewayS]

/-- `self._algs`. -/
def Suite.algs (suite : Suite) : List Str :=
  allowedAlgs ++ (if suite.allowPq then allowedAlgsPq else []) ++
    (if suite.allowEs256k then allowedAlgsEs256k else [])

/-- What a caller of `verify` asks for, but for the expiry waiver. -/
structure Policy where
  expectedTypes : List Str := []
  audience : Option Str := none

/-- A `VerifiedCredential`. -/
structure Verified where
  credential : Dict
  issuer : Str
  subject : Option Str
  claims : Dict
  expired : Bool

/-- A string `alg` of the allow-list. -/
def permittedAlg (algs : List Str) (header : Dict) : Option Str :=
  (header.get "alg").str?.filter algs.contains

/-- The string claims that `_check_jwt_claims` requires. -/
def checkStringClaims (claims : Dict) : Result Unit := do
  raiseIf (claims.get "iss").str?.isNone ⟨.claimsInvalid, "the 'iss' claim is required", []⟩
  raiseIf (claims.has "sub" && (claims.get "sub").str?.isNone)
    ⟨.claimsInvalid, "Subject must be a string", []⟩
  raiseIf (claims.has "jti" && (claims.get "jti").str?.isNone)
    ⟨.claimsInvalid, "JWT ID must be a string", []⟩

/-- `_check_jwt_claims(claims, audience, check_temporal)`. -/
def checkJwtClaims (I : Interpreter) (suite : Suite) (claims : Dict) (checkTemporal : Bool) :
    Result Bool := do
  checkStringClaims claims
  checkJwtTemporal I claims suite.leeway "token" none checkTemporal

/-- `verify_signature` as `_verify_mldsa` calls it. -/
def checkMldsaSignature (C : Crypto) (alg : Str) (jwk : Dict) (signingInput signature : Bytes) :
    Result Unit := do
  let ok ← reraise (verifySignature C alg jwk signingInput signature) (·.cls.isa .keyBackendError)
    .signatureInvalid "could not verify % signature: " [.str alg]
  raiseIf (!ok) ⟨.signatureInvalid, "% signature does not verify", [.str alg]⟩

/-- The claims of an ML-DSA token whose signature verifies. -/
def mldsaClaims (C : Crypto) (token alg : Str) (jwk : Json) : Result Dict := do
  let segments ← orRaise (threeSegments token)
    ⟨.malformedToken, "not a compact JWS (need three parts)", []⟩
  let signingInput ← orRaise (Codec.encodeAscii (segments.header ++ 46 :: segments.payload))
    ⟨.valueError, "UnicodeEncodeError", []⟩
  let signature ← orRaise (Codec.b64urlDecodePadded segments.signature)
    ⟨.malformedToken, "token is not valid base64url", []⟩
  let payload ← orRaise (Codec.b64urlDecodePadded segments.payload)
    ⟨.malformedToken, "token is not valid base64url", []⟩
  -- a key that is not a mapping has no member to read: the `TypeError` is a malformed key too
  checkMldsaSignature C alg (jwk.obj?.getD []) signingInput signature
  let parsed ← recast (loadsBytes payload) .valueError
    ⟨.malformedToken, "payload is not valid JSON", []⟩
  orRaise parsed.obj? ⟨.claimsInvalid, "JWT payload must be a JSON object", []⟩

/-- `_verify_mldsa(token, alg, public_key_jwk, audience, check_temporal)`. -/
def verifyMldsa (I : Interpreter) (C : Crypto) (suite : Suite) (token alg : Str) (jwk : Json)
    (checkTemporal : Bool) : Result (Dict × Bool) := do
  let claims ← mldsaClaims C token alg jwk
  let expired ← checkJwtClaims I suite claims checkTemporal
  return (claims, expired)

/-- What `_decode` raises for an exception of PyJWT; `ExpiredSignatureError` it leaves as it is. -/
def decodeError : PyJwtError → Err
  | .expiredSignature text => ⟨.exception, "ExpiredSignatureError: %", [.str text]⟩
  | .invalidSignature text => ⟨.signatureInvalid, "%", [.str text]⟩
  | .other text => ⟨.claimsInvalid, "%", [.str text]⟩

/-- The classic lane of `verify`: PyJWT judges `exp` first, and only a waived expiry decodes again
without that check. -/
def decodeClassic (J : PyJwt) (call : DecodeCall J.Key) (checkTemporal : Bool) :
    Result (Dict × Bool) :=
  match J.decode call true with
  | .ok claims => .ok (claims, false)
  | .error (.expiredSignature text) =>
    if checkTemporal then raise .claimsInvalid "%" [.str text]
    else match J.decode call false with
      | .ok claims => .ok (claims, true)
      | .error e => .error (decodeError e)
  | .error e => .error (decodeError e)

/-- The claims a token verifies to, and whether its waived `exp` has passed. -/
def verifyClaims (I : Interpreter) (C : Crypto) (J : PyJwt) (suite : Suite) (token alg : Str)
    (jwk : Json) (audience : Option Str) (checkTemporal : Bool) : Result (Dict × Bool) :=
  if alg ∈ allowedAlgsPq then verifyMldsa I C suite token alg jwk checkTemporal
  else do
    let key ← jwkToKey J jwk alg
    decodeClassic J ⟨token, key, alg, suite.leeway, audience⟩ checkTemporal

/-- `VcJwtProofSuite.verify(token, public_key_jwk, expected_types, audience, check_temporal)`. -/
def verify (I : Interpreter) (C : Crypto) (J : PyJwt) (suite : Suite) (token : Str) (jwk : Json)
    (policy : Policy) (checkTemporal : Bool) : Result Verified := do
  checkExpectedAudience policy.audience
  let header ← readHeader token
  let alg ← orRaise (permittedAlg suite.algs header)
    ⟨.unsupportedAlgorithm, "algorithm % is not permitted", [header.get "alg"]⟩
  rejectUnknownCrit header
  rejectSdJwtTyp I header
  let payload ← peekClaims token
  rejectSdJwtPayload payload
  checkNumericDates payload ["exp", "nbf", "iat"] "token"
  let (claims, jwtExpired) ← verifyClaims I C J suite token alg jwk policy.audience checkTemporal
  checkJwtAudience claims policy.audience "token" true
  let credential ← orRaise (claims.get "vc").obj?
    ⟨.claimsInvalid, "no embedded `vc` object in token", []⟩
  let bodyExpired ← checkValidityWindow I credential [] suite.leeway checkTemporal
  let (issuer, subject) ← reconcile claims credential
  checkTypes credential policy.expectedTypes
  return ⟨credential, issuer, subject, claims, jwtExpired || bodyExpired⟩

end VcJwt

end OpenVC
