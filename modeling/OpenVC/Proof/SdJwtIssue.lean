import Mathlib.Data.List.Lex
import Mathlib.Data.List.Sort
import Mathlib.Data.Nat.Basic
import OpenVC.Proof.SdJwt
import OpenVC.Python.JsonDumps

/-!
# Issuance and presentation of SD-JWT VCs (`openvc.proof.sd_jwt`)

`issue` takes claims out of the payload, each for a disclosure and its digest, and signs the rest;
`create_presentation` signs a Key Binding JWT over an issued credential.
-/

namespace OpenVC

open Python

/-- A `SigningKey`; `sign` may call out to a backend that raises. -/
structure SigningKey where
  alg : Str
  kid : Str
  sign : Bytes → Result Bytes

/-- `secrets.token_bytes`: what the call of that number returns for that size. -/
abbrev TokenBytes := (call size : Nat) → Bytes

namespace SdJwt

/-- An `SdJwtVcProofSuite` with the hash it issues and presents with. -/
structure HashingSuite (C : Crypto) extends Suite where
  hashName : Str
  hasher : Bytes → Bytes
  hash_ok : hashes C hashName = some hasher

/-- `_SALT_BYTES`. -/
def saltBytes : Nat := 16

/-- `_HASHES[hash_name]().digest_size`. -/
def digestSize (hashName : Str) : Nat :=
  if hashName = lit "sha-256" then 32 else if hashName = lit "sha-384" then 48 else 64

/-- `_json_bytes(obj)`. -/
def jsonBytes (obj : Json) : Result Bytes := do
  let text ← orRaise (JsonDumps.dumps obj) ⟨.valueError, "json.dumps", []⟩
  orRaise (Codec.encodeUtf8 text) ⟨.valueError, "UnicodeEncodeError", []⟩

/-- `make_object_disclosure(salt, name, value)`. -/
def makeObjectDisclosure (salt name : Str) (value : Json) : Result Str := do
  let data ← jsonBytes (.arr [.str salt, .str name, value])
  return Codec.b64urlEncode data

/-- `int(time.time())`. -/
def currentSecond (I : Interpreter) : Result Int :=
  match I.time with
  | .fin q => .ok (q.num.tdiv q.den)
  | .nan => raise .valueError "cannot convert float NaN to integer" []
  | _ => raise .overflowError "cannot convert float infinity to integer" []

/-- `_sign_compact(header, payload, key)`. -/
def signCompact (header payload : Dict) (key : SigningKey) : Result Str := do
  let header ← jsonBytes (.obj header)
  let payload ← jsonBytes (.obj payload)
  let signingInput := Codec.b64urlEncode header ++ 46 :: Codec.b64urlEncode payload
  let data ← orRaise (Codec.encodeAscii signingInput) ⟨.valueError, "UnicodeEncodeError", []⟩
  let signature ← key.sign data
  return signingInput ++ 46 :: Codec.b64urlEncode signature

/-! ## Issuance -/

/-- The arguments of `issue` but for the key. -/
structure Issuance where
  claims : Dict
  disclosable : List Str := []
  holderJwk : Option Dict := none
  vct : Option Str := none
  expiresInS : Option Int := none
  decoys : Int := 0
  x5c : Option (List Str) := none

/-- The claims with the ones `issue` itself sets before its checks. -/
def Issuance.dated (a : Issuance) (now : Int) : Dict :=
  let payload := if a.claims.has "iat" then a.claims else a.claims.set "iat" (.int now)
  match a.vct with
  | some vct => payload.set "vct" (.str vct)
  | none => payload

/-- All the claims of the credential: those, the expiry and the confirmation key. -/
def Issuance.full (a : Issuance) (now : Int) : Dict :=
  let payload := match a.expiresInS with
    | some s => (a.dated now).set "exp" (.int (now + s))
    | none => a.dated now
  match a.holderJwk with
  | some jwk => payload.set "cnf" (.obj [("jwk", .obj jwk)])
  | none => payload

/-- The checks of `issue` on the claims. -/
def checkIssued (payload : Dict) : Result Unit := do
  raiseIf (!(payload.get "iss").truthy) ⟨.sdJwtError, "an SD-JWT VC needs an 'iss' claim", []⟩
  raiseIf (text? (payload.get "vct")).isNone
    ⟨.sdJwtError, "an SD-JWT VC needs a 'vct' claim (a non-empty string)", []⟩
  checkAkaVcts payload

/-- Whether the payload is a VCDM one, as the verifier will parse it. -/
def issuesVcdm (payload : Dict) : Result Bool := do
  let data ← jsonBytes (.obj payload)
  let parsed ← orRaise (JsonLoads.loadsBytes data) ⟨.valueError, "JSONDecodeError", []⟩
  let parsed ← orRaise parsed.obj? ⟨.attributeError, "get", []⟩
  return declaresVcdm parsed

/-- The loop that refuses names before any disclosure is built. -/
def refuseNames (names : List Str) (vcdm : Bool) : Result Unit :=
  each (fun name => raiseIf (disclosureRefusal (some name) vcdm).isSome ⟨.sdJwtError,
    "claim % must not be selectively disclosable (%): a holder could withhold it, and a verifier cannot tell a withheld disclosure from an absent claim",
    [.str name, .str (lit ((disclosureRefusal (some name) vcdm).getD ""))]⟩) names

/-- What the disclosure loop of `issue` accumulates. -/
structure Disclosing where
  payload : Dict
  disclosures : List Str := []
  digests : List Str := []

/-- One iteration of the disclosure loop. -/
def disclose (C : Crypto) (random : TokenBytes) (hashName : Str) (st : Disclosing) (i : Nat)
    (name : Str) : Result Disclosing := do
  let value ← orRaise (st.payload.get? name)
    ⟨.sdJwtError, "disclosable claim % is not in the claims", [.str name]⟩
  let disclosure ← makeObjectDisclosure (Codec.b64urlEncode (random i saltBytes)) name value
  let digest ← disclosureDigest C disclosure hashName
  return ⟨st.payload.erase name, st.disclosures ++ [disclosure], st.digests ++ [digest]⟩

/-- The decoy digests. -/
def decoyDigests (random : TokenBytes) (hashName : Str) (start : Nat) (decoys : Int) : List Str :=
  (List.range decoys.toNat).map fun i =>
    Codec.b64urlEncode (random (start + i) (digestSize hashName))

/-- The payload with its digests, in an order that leaks nothing. -/
def withDigests (payload : Dict) (digests : List Str) (hashName : Str) : Dict :=
  if digests.isEmpty then payload
  else (payload.set "_sd" (.arr ((digests.insertionSort (· ≤ ·)).map .str))).set "_sd_alg"
    (.str hashName)

/-- The header of an issuer JWT. -/
def issuerHeader (key : SigningKey) (x5c : Option (List Str)) : Result Dict := do
  let header : Dict := [("typ", .str issuerTyp), ("alg", .str key.alg), ("kid", .str key.kid)]
  match x5c with
  | none => return header
  | some chain => do
    raiseIf (chain.isEmpty || chain.any (·.isEmpty)) ⟨.sdJwtError,
      "x5c must be a non-empty list of base64 certificate strings", []⟩
    return header.set "x5c" (.arr (chain.map .str))

/-- `SdJwtVcProofSuite.issue(claims, signing_key, …)`. -/
def issue (I : Interpreter) (C : Crypto) (random : TokenBytes) (suite : HashingSuite C)
    (key : SigningKey) (a : Issuance) : Result Str := do
  raiseIf (!suite.algs.contains key.alg)
    ⟨.unsupportedAlgorithm, "key alg % not permitted", [.str key.alg]⟩
  let now ← currentSecond I
  checkIssued (a.dated now)
  let vcdm ← issuesVcdm (a.full now)
  refuseNames a.disclosable vcdm
  let st ← enumerateLoop (disclose C random suite.hashName) ⟨a.full now, [], []⟩ 0 a.disclosable
  let digests := st.digests ++ decoyDigests random suite.hashName a.disclosable.length a.decoys
  let header ← issuerHeader key a.x5c
  let issuerJwt ← signCompact header (withDigests st.payload digests suite.hashName) key
  return issuerJwt ++ 126 :: st.disclosures.flatMap (· ++ [126])

/-! ## Presentation -/

/-- `SdJwtVcProofSuite.create_presentation(sd_jwt, holder_key, audience, nonce)`. -/
def createPresentation (I : Interpreter) {C : Crypto} (suite : HashingSuite C) (sdJwt : Str)
    (key : SigningKey) (audience nonce : Str) : Result Str := do
  raiseIf (!suite.algs.contains key.alg)
    ⟨.unsupportedAlgorithm, "holder key alg % not permitted", [.str key.alg]⟩
  let parts ← split sdJwt
  let data ← orRaise (Codec.encodeAscii (presented parts))
    ⟨.sdJwtError, "SD-JWT presentation is not ASCII", []⟩
  let now ← currentSecond I
  let kbJwt ← signCompact [("typ", .str kbTyp), ("alg", .str key.alg)]
    [("iat", .int now), ("aud", .str audience), ("nonce", .str nonce),
      ("sd_hash", .str (Codec.b64urlEncode (suite.hasher data)))] key
  return presented parts ++ kbJwt

end SdJwt

end OpenVC
