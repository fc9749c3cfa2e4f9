import OpenVC.Proof.VcJwt

/-!
# The SD-JWT VC proof suite (`openvc.proof.sd_jwt`)

Verification of `<issuer JWT>~<disclosure>~…~<KB-JWT>`: the issuer's signature, the disclosures the
holder chose to send, and the Key Binding JWT.
-/

namespace OpenVC.SdJwt

open Python

/-- `_ISSUER_TYP`. -/
def issuerTyp : Str := "dc+sd-jwt"

/-- `_KB_TYP`. -/
def kbTyp : Str := "kb+jwt"

/-- `_W3C_TYPS`. -/
def w3cTyps : List Str := ["vc+sd-jwt", "vc+ld+json+sd-jwt"]

/-- `_ACCEPTED_ISSUER_TYP`. -/
def acceptedIssuerTyp : List Str := issuerTyp :: w3cTyps

/-- `_VCDM_CONTEXTS`. -/
def vcdmContexts : List Str :=
  ["https://www.w3.org/ns/credentials/v2", "https://www.w3.org/2018/credentials/v1"]

/-- `_MAX_DEPTH`. -/
def maxDepth : Nat := 100

/-- `_SD_JWT_VC_NON_DISCLOSABLE`. -/
def sdJwtVcNonDisclosable : List Str :=
  ["iss", "nbf", "exp", "cnf", "vct", "vct#integrity", "aka_vcts", "status"]

/-- `_OPENVC_NON_DISCLOSABLE`. -/
def openvcNonDisclosable : List Str := ["credentialStatus", "@context"]

/-- `_VCDM_VALIDITY_CLAIMS`. -/
def vcdmValidityClaims : List Str := ["validFrom", "validUntil", "issuanceDate", "expirationDate"]

/-- `_HASHES`. -/
def hashes (C : Crypto) (name : Str) : Option (Bytes → Bytes) :=
  if name = lit "sha-256" then some C.sha256
  else if name = lit "sha-384" then some C.sha384
  else if name = lit "sha-512" then some C.sha512
  else none

/-- `disclosure_digest(disclosure, hash_name)`. -/
def disclosureDigest (C : Crypto) (disclosure hashName : Str) : Result Str := do
  let hasher ← orRaise (hashes C hashName) ⟨.sdJwtError, "unsupported _sd_alg %", [.str hashName]⟩
  let data ← orRaise (Codec.encodeAscii disclosure) ⟨.valueError, "UnicodeEncodeError", []⟩
  return Codec.b64urlEncode (hasher data)

/-! ## Unpacking -/

/-- What `_unpack` accumulates: the digests of the disclosures it used, those it met, and where it
placed each disclosure. -/
structure Unpacking where
  used : List Str := []
  seen : List Str := []
  placed : List (Option Str × Bool) := []

/-- The disclosures by digest. -/
abbrev ByDigest := List (Str × List Json)

/-- The recursive call of `_unpack`, one level further down: the top-level claim, the node, the
state. -/
abbrev Descend := Option Str → Json → Unpacking → Result (Json × Unpacking)

/-- `_sd_digests(sd)`. -/
def sdDigests : Json → Result (List Str)
  | .null => .ok []
  | .arr l => orRaise (if l.all (·.str?.isSome) then some (l.filterMap Json.str?) else none)
      ⟨.sdJwtError, "_sd must be an array of digest strings", []⟩
  | _ => raise .sdJwtError "_sd must be an array of digest strings" []

/-- The loop over the members of an object. -/
def unpackMembers (descend : Descend) (top : Option Str) :
    Dict → Dict → Unpacking → Result (Dict × Unpacking)
  | [], result, st => .ok (result, st)
  | (key, value) :: members, result, st =>
    if key = lit "_sd" then unpackMembers descend top members result st
    else if key = lit "..." then raise .sdJwtError "'...' is only valid as an array element" []
    else do
      let (value', st) ← descend (some (top.getD key)) value st
      unpackMembers descend top members (result.set key value') st

/-- The name and the value of an object disclosure that may be inserted into `result`. -/
def objectDisclosure (result : Dict) : List Json → Result (Str × Json)
  | [_, .str name, value] => do
    raiseIf (name == lit "_sd" || name == lit "...")
      ⟨.sdJwtError, "disclosure claim name % is reserved", [.str name]⟩
    raiseIf (result.has name) ⟨.sdJwtError, "disclosure would overwrite claim %", [.str name]⟩
    return (name, value)
  | [_, _, _] => raise .sdJwtError "disclosure claim name must be a string" []
  | _ => raise .sdJwtError "object disclosure must be [salt, name, value]" []

/-- The record of a disclosure of `name` inserted below `top`. -/
def placement (top : Option Str) (name : Str) : Option Str × Bool :=
  match top with
  | none => (some name, false)
  | some t => (some t, true)

/-- The loop over the `_sd` digests of an object. -/
def unpackDigests (disclosures : ByDigest) (descend : Descend) (top : Option Str) :
    List Str → Dict → Unpacking → Result (Dict × Unpacking)
  | [], result, st => .ok (result, st)
  | digest :: digests, result, st =>
    if digest ∈ st.seen then raise .sdJwtError "duplicate digest in payload" []
    else match disclosures.lookup digest with
      -- a decoy, or simply not disclosed
      | none => unpackDigests disclosures descend top digests result
          { st with seen := digest :: st.seen }
      | some disclosure => do
        let (name, value) ← objectDisclosure result disclosure
        let (value', st) ← descend (some (top.getD name)) value
          { used := digest :: st.used, seen := digest :: st.seen,
            placed := st.placed ++ [placement top name] }
        unpackDigests disclosures descend top digests (result.set name value') st

/-- The digest of an array element `{"...": digest}`. -/
def elementDigest : Json → Option Json
  | .obj [(key, digest)] => if key = lit "..." then some digest else none
  | _ => none

/-- The value of an array disclosure. -/
def arrayDisclosure : List Json → Result Json
  | [_, value] => .ok value
  | _ => raise .sdJwtError "array disclosure must be [salt, value]" []

/-- What an array element `{"...": digest}` becomes: nothing when it is not disclosed. -/
def unpackElementDigest (disclosures : ByDigest) (descend : Descend) (top : Option Str)
    (digest : Json) (st : Unpacking) : Result (List Json × Unpacking) := do
  let digest ← orRaise digest.str? ⟨.sdJwtError, "array digest must be a string", []⟩
  raiseIf (st.seen.contains digest) ⟨.sdJwtError, "duplicate digest in payload", []⟩
  match disclosures.lookup digest with
  | none => return ([], { st with seen := digest :: st.seen })
  | some disclosure => do
    let value ← arrayDisclosure disclosure
    let (value', st) ← descend top value
      { used := digest :: st.used, seen := digest :: st.seen, placed := st.placed ++ [(top, true)] }
    return ([value'], st)

/-- What an array element becomes. -/
def unpackElement (disclosures : ByDigest) (descend : Descend) (top : Option Str) (element : Json)
    (st : Unpacking) : Result (List Json × Unpacking) :=
  match elementDigest element with
  | some digest => unpackElementDigest disclosures descend top digest st
  | none => do
    let (value, st) ← descend top element st
    return ([value], st)

/-- The loop over the elements of an array. -/
def unpackElements (disclosures : ByDigest) (descend : Descend) (top : Option Str) :
    List Json → Unpacking → Result (List Json × Unpacking)
  | [], st => .ok ([], st)
  | element :: elements, st => do
    let (front, st) ← unpackElement disclosures descend top element st
    let (rest, st) ← unpackElements disclosures descend top elements st
    return (front ++ rest, st)

/-- `_unpack(node, disclosures, used, seen, depth, top, placed)`. The number is how many more levels
the depth bound allows: `_MAX_DEPTH + 1 - depth`. -/
def unpack (disclosures : ByDigest) : Nat → Descend
  | 0, _, _, _ => raise .sdJwtError "claim/disclosure nesting exceeds the maximum depth of %"
      [.int maxDepth]
  | levels + 1, top, node, st =>
    match node with
    | .obj members => do
      let (result, st) ← unpackMembers (unpack disclosures levels) top members [] st
      let digests ← sdDigests (Dict.get members "_sd")
      let (result, st) ← unpackDigests disclosures (unpack disclosures levels) top digests result st
      return (.obj result, st)
    | .arr elements => do
      let (out, st) ← unpackElements disclosures (unpack disclosures levels) top elements st
      return (.arr out, st)
    | node => return (node, st)

/-- `_disclosure_refusal(name, vcdm)`. -/
def disclosureRefusal (name : Option Str) (vcdm : Bool) : Option String :=
  match name with
  | none => none
  | some name =>
    if name ∈ sdJwtVcNonDisclosable then some "draft-ietf-oauth-sd-jwt-vc-19 §2.2.2.3"
    else if name ∈ openvcNonDisclosable then some "openvc enforces it on SD-JWT"
    else if vcdm && vcdmValidityClaims.contains name then
      some "the W3C VCDM validity window openvc enforces"
    else none

/-! ## The profile -/

/-- A `VerifiedSdJwt`. -/
structure Verified where
  claims : Dict
  issuer : Str
  vct : Option Str
  keyBound : Bool
  /-- The `cnf` claim, `null` when there is none. -/
  confirmation : Json
  expired : Bool
  vcdm : Bool
  typ : Option Str

/-- Whether `aka_vcts` is a non-empty array of non-empty strings. -/
def isAkaVcts : Json → Bool
  | .arr l => !l.isEmpty && l.all fun item => match item with
    | .str s => !s.isEmpty
    | _ => false
  | _ => false

/-- The elements of an array, none for any other value. -/
def elements (v : Json) : List Json := v.arr?.getD []

/-- `_check_aka_vcts(payload)`. -/
def checkAkaVcts (payload : Dict) : Result Unit :=
  if (payload.get "aka_vcts").isNull then .ok ()
  else do
    raiseIf (!isAkaVcts (payload.get "aka_vcts")) ⟨.claimsInvalid,
      "aka_vcts must be a non-empty array of non-empty strings when present", []⟩
    raiseIf ((payload.get "vct").str?.isSome &&
        (elements (payload.get "aka_vcts")).any (Json.pyEq (payload.get "vct")))
      ⟨.claimsInvalid, "aka_vcts must not contain the credential's vct", []⟩

/-- A value as a list of entries: an array's elements, or the value itself. -/
def entries : Json → List Json
  | .arr l => l
  | v => [v]

/-- Whether an entry is a VCDM base context. -/
def isVcdmContext : Json → Bool
  | .str s => vcdmContexts.contains s
  | _ => false

/-- `_declares_vcdm(claims)`. -/
def declaresVcdm (claims : Dict) : Bool := (entries (claims.get "@context")).any isVcdmContext

/-- `_declares_credential(claims)`. -/
def declaresCredential (claims : Dict) : Bool :=
  let names := (entries (claims.get "type")).filterMap Json.str?
  names.contains (lit "VerifiableCredential") && !names.contains (lit "VerifiablePresentation")

/-- `_vcdm_issuer(body)`. -/
def vcdmIssuer (body : Dict) : Option Str :=
  match issuerIdentifiers (body.get "issuer") with
  | .str i :: rest => if !i.isEmpty && rest.all (Json.pyEq (.str i)) then some i else none
  | _ => none

/-- `_may_use_vcdm_issuer(body, header)`. -/
def mayUseVcdmIssuer (body header : Dict) : Bool :=
  !body.has "iss" && match header.get? "typ" with
    | none => true
    | some (.str typ) => w3cTyps.contains typ
    | some _ => false

/-- `_issuer_from_body(body, header)`. -/
def issuerFromBody (body header : Dict) : Json :=
  if mayUseVcdmIssuer body header then ((vcdmIssuer body).map Json.str).getD .null
  else body.get "iss"

/-- `_starts_with_base_context(claims)`. -/
def startsWithBaseContext (claims : Dict) : Bool :=
  match claims.get "@context" with
  | .arr (first :: _) => isVcdmContext first
  | context => isVcdmContext context

/-- `_vcdm_nonconformity(claims)`. -/
def vcdmNonconformity (claims : Dict) : Option String :=
  if !startsWithBaseContext claims then
    some "needs a VCDM base context as the first `@context` entry (VCDM 2.0 §4.3), not just somewhere in it"
  else if !declaresCredential claims then
    some "needs a `type` that includes VerifiableCredential and not VerifiablePresentation (VCDM 2.0 §4.5, §4.13)"
  else none

/-! ## The suite -/

/-- An `SdJwtVcProofSuite`, as `verify` reads it. -/
structure Suite where
  leeway : Int
  leeway_ok : 0 ≤ leeway ∧ leeway ≤ maxLeewayS
  allowPq : Bool

/-- `SdJwtVcProofSuite(leeway_s, hash_name, allow_pq)`. -/
def Suite.init (C : Crypto) (leewayS : Int) (hashName : Str) (allowPq : Bool) : Result Suite :=
  if h : 0 ≤ leewayS ∧ leewayS ≤ maxLeewayS then do
    raiseIf (hashes C hashName).isNone ⟨.sdJwtError, "unsupported hash %", [.str hashName]⟩
    return ⟨leewayS, h, allowPq⟩
  else raise .sdJwtError "% must be a whole number of seconds from 0 to %, got %"
    [.str (lit "leeway_s"), .int maxLeewayS, .int leewayS]

/-- `self._algs`. -/
def Suite.algs (suite : Suite) : List Str :=
  allowedAlgs ++ if suite.allowPq then allowedAlgsPq else []

/-- What a caller of `verify` asks for, but for the expiry waiver. -/
structure Policy where
  audience : Option Str := none
  nonce : Option Str := none
  requireKeyBinding : Bool := false
  expectedVct : Option Str := none
  kbMaxAgeS : Int := defaultKbMaxAgeS
  now : Option DateTime := none

/-- The parts of a presentation. -/
structure Parts where
  issuerJwt : Str
  disclosures : List Str
  /-- Empty when there is none. -/
  kbJwt : Str

/-- `_split(sd_jwt)`. -/
def split (sdJwt : Str) : Result Parts :=
  match Str.split 126 sdJwt with
  | issuerJwt :: part :: parts =>
    .ok ⟨issuerJwt, (part :: parts).dropLast.filter (!·.isEmpty), (part :: parts).getLastD []⟩
  | _ => raise .malformedToken "not an SD-JWT (no '~' separator)" []

/-- A decoded compact JWS. -/
structure Jws where
  header : Dict
  payload : Dict
  signingInput : Bytes
  signature : Bytes

/-- The three segments of a compact JWS with the header, the payload and the signature they
encode. -/
def decodeSegments (jws : Str) : Result (Segments × Json × Json × Bytes) := do
  let segments ← orRaise (threeSegments jws) ⟨.valueError, "not three segments", []⟩
  let header ← loadSegment segments.header
  let payload ← loadSegment segments.payload
  let signature ← orRaise (Codec.b64urlDecodePadded segments.signature)
    ⟨.valueError, "binascii.Error", []⟩
  return (segments, header, payload, signature)

/-- `_decode_jws(jws)`. -/
def decodeJws (jws : Str) : Result Jws := do
  let (segments, header, payload, signature) ← recast (decodeSegments jws) .valueError
    ⟨.malformedToken, "not a valid compact JWS", []⟩
  let header ← orRaise header.obj?
    ⟨.malformedToken, "JWS header and payload must be JSON objects", []⟩
  let payload ← orRaise payload.obj?
    ⟨.malformedToken, "JWS header and payload must be JSON objects", []⟩
  let signingInput ← orRaise (Codec.encodeAscii (segments.header ++ 46 :: segments.payload))
    ⟨.valueError, "UnicodeEncodeError", []⟩
  return ⟨header, payload, signingInput, signature⟩

/-- `_verify_signature(alg, jwk, signing_input, signature, what)`. -/
def checkSignature (C : Crypto) (alg : Str) (jwk : Dict) (jws : Jws) (what : Str) :
    Result Unit := do
  let ok ← reraise (verifySignature C alg jwk jws.signingInput jws.signature)
    (·.cls.isa .keyBackendError) .proofError "could not verify %: " [.str what]
  raiseIf (!ok) ⟨.signatureInvalid, "% signature failed", [.str what]⟩

/-- One iteration of `_index_disclosures`. -/
def indexDisclosure (C : Crypto) (hashName : Str) (byDigest : ByDigest) (disclosure : Str) :
    Result ByDigest := do
  let parsed ← recast (loadSegment disclosure) .valueError
    ⟨.sdJwtError, "a disclosure is not valid base64url JSON", []⟩
  let parsed ← orRaise (parsed.arr?.filter fun l => l.length == 2 || l.length == 3)
    ⟨.sdJwtError, "a disclosure must be a 2- or 3-element array", []⟩
  let digest ← disclosureDigest C disclosure hashName
  raiseIf (byDigest.lookup digest).isSome
    ⟨.sdJwtError, "duplicate disclosure in presentation", []⟩
  return byDigest ++ [(digest, parsed)]

/-- `_index_disclosures(disclosures, hash_name)`. -/
def indexDisclosures (C : Crypto) (hashName : Str) (disclosures : List Str) : Result ByDigest :=
  enumerateLoop (fun byDigest _ disclosure => indexDisclosure C hashName byDigest disclosure) [] 0
    disclosures

/-- The presentation a KB-JWT's `sd_hash` is over. -/
def presented (parts : Parts) : Str :=
  parts.issuerJwt ++ 126 :: parts.disclosures.flatMap (· ++ [126])

/-- The key a `cnf` claim names. -/
def cnfJwk : Json → Option Dict
  | .obj cnf => (Dict.get cnf "jwk").obj?
  | _ => none

/-- Whether an expected value is a non-empty string. -/
def nonEmpty (s : Option Str) : Bool := s.any fun s => !s.isEmpty

/-- `_verify_key_binding` for a KB-JWT that is present. -/
def checkKbJwt (I : Interpreter) (C : Crypto) (suite : Suite) (parts : Parts) (cnf : Json)
    (hashName : Str) (policy : Policy) (current : Json) : Result Bool := do
  let given := policy.audience.isSome || policy.nonce.isSome
  raiseIf (given && (policy.audience.isNone || policy.nonce.isNone)) ⟨.claimsInvalid,
    "a KB-JWT is present but only % was given to bind it against; aud and nonce bind it together (RFC 9901 §7.3 step 5.6), so pass both",
    [.str (lit (if policy.nonce.isNone then "audience" else "nonce"))]⟩
  raiseIf (given && !(nonEmpty policy.audience && nonEmpty policy.nonce)) ⟨.claimsInvalid,
    "the audience and nonce a KB-JWT is bound against must be non-empty strings", []⟩
  let jws ← decodeJws parts.kbJwt
  raiseIf (!Json.pyEq (jws.header.get "typ") (.str kbTyp))
    ⟨.sdJwtError, "KB-JWT typ must be %", [.str kbTyp]⟩
  let alg ← orRaise (VcJwt.permittedAlg suite.algs jws.header)
    ⟨.unsupportedAlgorithm, "KB-JWT algorithm % is not permitted", [jws.header.get "alg"]⟩
  rejectUnknownCrit jws.header
  let jwk ← orRaise (cnfJwk cnf)
    ⟨.claimsInvalid, "no cnf.jwk in the issuer JWT for key binding", []⟩
  checkSignature C alg jwk jws "KB-JWT"
  let _ ← checkIatFreshness (jws.payload.get "iat") policy.kbMaxAgeS suite.leeway current "KB-JWT"
  checkNumericDates jws.payload ["exp", "nbf"] "KB-JWT"
  let _ ← recast (checkJwtTemporal I jws.payload suite.leeway "KB-JWT" (some current) true)
    .claimsInvalid ⟨.claimsInvalid, "KB-JWT is outside its own exp/nbf window", []⟩
  raiseIf (policy.audience.any fun a => !Json.pyEq (jws.payload.get "aud") (.str a))
    ⟨.claimsInvalid, "KB-JWT aud does not match", []⟩
  raiseIf (policy.nonce.any fun n => !Json.pyEq (jws.payload.get "nonce") (.str n))
    ⟨.claimsInvalid, "KB-JWT nonce does not match", []⟩
  let hasher ← orRaise (hashes C hashName) ⟨.keyError, "_HASHES", []⟩
  let data ← orRaise (Codec.encodeAscii (presented parts))
    ⟨.sdJwtError, "SD-JWT presentation is not ASCII", []⟩
  raiseIf (!Json.pyEq (jws.payload.get "sd_hash") (.str (Codec.b64urlEncode (hasher data))))
    ⟨.claimsInvalid, "KB-JWT sd_hash does not match the presented disclosures", []⟩
  return true

/-- `_verify_key_binding(kb_jwt, issuer_jwt, disclosures, cnf, …, required)`. -/
def verifyKeyBinding (I : Interpreter) (C : Crypto) (suite : Suite) (parts : Parts) (cnf : Json)
    (hashName : Str) (policy : Policy) (required : Bool) (current : Json) : Result Bool := do
  raiseIf (required && (policy.audience.isNone || policy.nonce.isNone)) ⟨.claimsInvalid,
    "key binding required but no audience/nonce given to bind it against (a KB-JWT without a verifier nonce and aud does not prevent replay)",
    []⟩
  raiseIf (required && parts.kbJwt.isEmpty)
    ⟨.claimsInvalid, "key binding required but no KB-JWT present", []⟩
  if parts.kbJwt.isEmpty then return false
  else checkKbJwt I C suite parts cnf hashName policy current

/-- `peek_issuer(sd_jwt)`: the issuer and the `kid`, nothing verified. -/
def peekIssuer (sdJwt : Str) : Result (Str × Json) := do
  let jws ← decodeJws (Str.beforeFirst 126 sdJwt)
  let iss ← orRaise ((issuerFromBody jws.payload jws.header).str?.filter (!·.isEmpty))
    ⟨.malformedToken, if mayUseVcdmIssuer jws.payload jws.header then
      "no iss in the issuer-signed JWT (and no usable VCDM `issuer` for a W3C credential)"
      else "no iss in the issuer-signed JWT", []⟩
  raiseIf (!(jws.header.get "kid").isNull && (jws.header.get "kid").str?.isNone)
    ⟨.malformedToken, "kid must be a string", []⟩
  return (iss, jws.header.get "kid")

/-! ## Verification -/

/-- The instant the KB-JWT window is evaluated at. -/
def kbInstant (I : Interpreter) (now : Option DateTime) : Json :=
  match now with
  | none => .float I.time
  | some now => .int (utcEpoch now)

/-- The `typ` of an issuer JWT: `none` when it is absent. -/
def readTyp (header : Dict) : Result (Option Str) :=
  match header.get? "typ" with
  | none => .ok none
  | some (.str typ) =>
    if typ ∈ acceptedIssuerTyp then .ok (some typ)
    else raise .sdJwtError "unexpected issuer JWT typ %" [.str typ]
  | some typ => raise .sdJwtError "unexpected issuer JWT typ %" [typ]

/-- The issuer JWT with its signature verified, and its `typ`. -/
def openIssuerJwt (C : Crypto) (suite : Suite) (issuerJwt : Str) (jwk : Dict) :
    Result (Jws × Option Str) := do
  let jws ← decodeJws issuerJwt
  let alg ← orRaise (VcJwt.permittedAlg suite.algs jws.header)
    ⟨.unsupportedAlgorithm, "algorithm % is not permitted", [jws.header.get "alg"]⟩
  let typ ← readTyp jws.header
  rejectUnknownCrit jws.header
  checkSignature C alg jwk jws "issuer JWT"
  return (jws, typ)

/-- A non-empty string. -/
def text? (v : Json) : Option Str := v.str?.filter (!·.isEmpty)

/-- `_iss_and_hash()`: the issuer and the name of the digest algorithm. -/
def issAndHash (C : Crypto) (jws : Jws) : Result (Str × Str) := do
  let iss ← orRaise (text? (issuerFromBody jws.payload jws.header))
    ⟨.claimsInvalid, if mayUseVcdmIssuer jws.payload jws.header then
      "iss claim is missing or not a string (and no usable VCDM `issuer` for a W3C credential)"
      else "iss claim is missing or not a string", []⟩
  let hashName ← orRaise
    (((jws.payload.get? "_sd_alg").getD (.str (lit "sha-256"))).str?.filter
      fun name => (hashes C name).isSome)
    ⟨.sdJwtError, "unsupported _sd_alg %", [jws.payload.get "_sd_alg"]⟩
  return (iss, hashName)

/-- `self._check_temporal(claims, check_temporal)`. -/
def checkTemporalClaims (I : Interpreter) (suite : Suite) (claims : Dict) (checkTemporal : Bool) :
    Result Bool :=
  checkJwtTemporal I claims suite.leeway "token" none checkTemporal

/-- What `verify` knows of the issuer JWT before it opens the disclosures. -/
structure Envelope where
  iss : Str
  hashName : Str
  keyBound : Bool
  expired : Bool

/-- The issuer, the holder binding and the temporal verdict. A required binding is proved before the
temporal claims are judged. -/
def checkEnvelope (I : Interpreter) (C : Crypto) (suite : Suite) (parts : Parts) (jws : Jws)
    (policy : Policy) (checkTemporal : Bool) (current : Json) : Result Envelope :=
  if policy.requireKeyBinding then do
    let (iss, hashName) ← issAndHash C jws
    let keyBound ← verifyKeyBinding I C suite parts (jws.payload.get "cnf") hashName policy true
      current
    let expired ← checkTemporalClaims I suite jws.payload checkTemporal
    return ⟨iss, hashName, keyBound, expired⟩
  else do
    let expired ← checkTemporalClaims I suite jws.payload checkTemporal
    let (iss, hashName) ← issAndHash C jws
    return ⟨iss, hashName, false, expired⟩

/-- The processed payload, with the record of what was placed in it. -/
def processPayload (C : Crypto) (hashName : Str) (parts : Parts) (claims : Dict) :
    Result (Dict × List (Option Str × Bool)) := do
  let byDigest ← indexDisclosures C hashName parts.disclosures
  let (unpacked, st) ← unpack byDigest (maxDepth + 1) none (.obj claims) {}
  let unreferenced := byDigest.filter fun d => !st.used.contains d.1
  raiseIf (!unreferenced.isEmpty)
    ⟨.sdJwtError, "% disclosure(s) not referenced by any digest", [.int unreferenced.length]⟩
  let unpacked ← orRaise unpacked.obj? ⟨.attributeError, "pop", []⟩
  return (unpacked.erase "_sd_alg", st.placed)

/-- The loop over what was placed: nothing non-disclosable may have been disclosed. -/
def refuseDisclosures (placed : List (Option Str × Bool)) (vcdm : Bool) : Result Unit :=
  each (fun p => raiseIf (disclosureRefusal p.1 vcdm).isSome ⟨.sdJwtError,
    "% % is selectively disclosed (%): the issuer made it withholdable, so its absence would go undetected",
    [.str (lit (if p.2 then "a sub-claim of" else "claim")), (p.1.map Json.str).getD .null,
      .str (lit ((disclosureRefusal p.1 vcdm).getD ""))]⟩) placed

/-- How a message names the `typ` of an issuer JWT. -/
def shownTyp (typ : Option Str) : Str :=
  match typ with
  | none => "without a typ"
  | some typ => lit "typ " ++ typ

/-- The rules for an issuer JWT that is not a `dc+sd-jwt`. -/
def checkW3c (typ : Option Str) (vcdm : Bool) (unpacked : Dict) : Result Unit :=
  if typ = some issuerTyp then .ok ()
  else do
    raiseIf (!vcdm) ⟨.sdJwtError,
      "issuer JWT % needs a W3C VCDM @context; an IETF SD-JWT VC is typed 'dc+sd-jwt'",
      [.str (shownTyp typ)]⟩
    raiseIf (typ.isNone && (unpacked.has "vc" || unpacked.has "vp")) ⟨.sdJwtError,
      "issuer JWT without a typ must not carry a `vc` or `vp` claim (VC-JOSE-COSE §3.1.3)", []⟩
    raiseIf (vcdmNonconformity unpacked).isSome ⟨.sdJwtError, "issuer JWT % %",
      [.str (shownTyp typ), .str (lit ((vcdmNonconformity unpacked).getD ""))]⟩

/-- The window and the consistency of a VCDM payload; the result says whether a waived expiry has
passed. -/
def checkVcdm (I : Interpreter) (suite : Suite) (vcdm : Bool) (iss : Str) (unpacked : Dict)
    (checkTemporal : Bool) : Result Bool :=
  if vcdm then do
    let expired ← checkValidityWindow I unpacked [] suite.leeway checkTemporal
    let _ ← VcJwt.reconcile (unpacked.set "iss" (.str iss)) unpacked
    return expired
  else .ok false

/-- The holder binding: a required one was proved in the envelope, an optional one is proved last. -/
def optionalBinding (I : Interpreter) (C : Crypto) (suite : Suite) (parts : Parts) (jws : Jws)
    (policy : Policy) (envelope : Envelope) (current : Json) : Result Bool :=
  if policy.requireKeyBinding then .ok envelope.keyBound
  else verifyKeyBinding I C suite parts (jws.payload.get "cnf") envelope.hashName policy false current

/-- `SdJwtVcProofSuite.verify(presentation, public_key_jwk, …, check_temporal, …)`. -/
def verify (I : Interpreter) (C : Crypto) (suite : Suite) (presentation : Str) (jwk : Dict)
    (policy : Policy) (checkTemporal : Bool) : Result Verified := do
  let _ ← nonNegativeSeconds policy.kbMaxAgeS "kb_max_age_s" .sdJwtError
  let current := kbInstant I policy.now
  let parts ← split presentation
  let (jws, typ) ← openIssuerJwt C suite parts.issuerJwt jwk
  let envelope ← checkEnvelope I C suite parts jws policy checkTemporal current
  let (unpacked, placed) ← processPayload C envelope.hashName parts jws.payload
  let vcdm := declaresVcdm unpacked
  refuseDisclosures placed vcdm
  checkW3c typ vcdm unpacked
  let vct := unpacked.get "vct"
  raiseIf (typ == some issuerTyp && (text? vct).isNone)
    ⟨.claimsInvalid, "an SD-JWT VC (dc+sd-jwt) needs a non-empty string vct", []⟩
  let processedExpired ← checkTemporalClaims I suite unpacked checkTemporal
  checkJwtAudience unpacked policy.audience "issuer JWT" false
  let windowExpired ← checkVcdm I suite vcdm envelope.iss unpacked checkTemporal
  raiseIf (policy.expectedVct.any fun e => !Json.pyEq vct (.str e))
    ⟨.claimsInvalid, "vct % != expected %", [vct, .str (policy.expectedVct.getD [])]⟩
  checkAkaVcts unpacked
  let keyBound ← optionalBinding I C suite parts jws policy envelope current
  return ⟨unpacked, envelope.iss, vct.str?, keyBound, jws.payload.get "cnf",
    windowExpired || processedExpired || envelope.expired, vcdm, typ⟩

end OpenVC.SdJwt
