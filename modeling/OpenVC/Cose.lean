import OpenVC.Cbor
import OpenVC.Keys

/-!
# COSE (`openvc.cose`)

The structures that an mdoc verifier meets: `COSE_Sign1` and `COSE_Mac0`, read from a decoded item,
and the bytes that their signature or tag covers. A value of a map that is absent is `null`, as
`dict.get` has it.
-/

namespace OpenVC

open Python

/-- `m.get(key)`. -/
def CborKey.get (m : List (CborKey × Cbor)) (key : CborKey) : Cbor := (m.lookup key).getD .null

namespace Cbor

/-- `m.get(name)` for a text key. -/
def field (m : List (CborKey × Cbor)) (name : String) : Cbor := CborKey.get m (.text (lit name))

/-- `m.get(label)` for an integer key. -/
def labelled (m : List (CborKey × Cbor)) (label : Int) : Cbor := CborKey.get m (.int label)

/-- The value as a map. -/
def map? : Cbor → Option (List (CborKey × Cbor))
  | .map m => some m
  | _ => none

/-- The value as an integer; a `bool` is none. -/
def int? : Cbor → Option Int
  | .int n => some n
  | _ => none

/-- The value as a byte string. -/
def bytes? : Cbor → Option Bytes
  | .bytes b => some b
  | _ => none

/-- The value as a text. -/
def text? : Cbor → Option Str
  | .text s => some s
  | _ => none

/-- The value as an array. -/
def arr? : Cbor → Option (List Cbor)
  | .arr l => some l
  | _ => none

mutual

/-- A value in a message; the texts the source shows through `repr` are carried as they are. -/
def shown : Cbor → Json
  | .null => .null
  | .bool b => .bool b
  | .int n => .int n
  | .bytes b => .arr (b.map fun x => .int x.toNat)
  | .text s => .str s
  | .arr l => .arr (shownItems l)
  | .map m => .arr (shownEntries m)
  | .tag n v _ => .arr [.int n, shown v]
  | .raw b => .arr (b.map fun x => .int x.toNat)

/-- The items of an array in a message. -/
def shownItems : List Cbor → List Json
  | [] => []
  | v :: t => shown v :: shownItems t

/-- The entries of a map in a message. -/
def shownEntries : List (CborKey × Cbor) → List Json
  | [] => []
  | (k, v) :: t => .arr [shownKey k, shown v] :: shownEntries t

end

end Cbor

namespace Cose

open Cbor

/-- `TAG_COSE_MAC0`. -/
def tagMac0 : Nat := 17

/-- `TAG_COSE_SIGN1`. -/
def tagSign1 : Nat := 18

/-- `TAG_ENCODED_CBOR`. -/
def tagEncodedCbor : Nat := 24

/-- `_HDR_ALG`. -/
def hdrAlg : Int := 1

/-- `_HDR_CRIT`. -/
def hdrCrit : Int := 2

/-- `_HDR_X5CHAIN`. -/
def hdrX5chain : Int := 33

/-- `_KNOWN_CRIT_LABELS`. -/
def knownCritLabels : List Int := [hdrAlg, hdrX5chain]

/-- `COSE_ALG_TO_JOSE`. -/
def coseAlgToJose (alg : Int) : Option Str :=
  if alg = -7 then some "ES256" else if alg = -35 then some "ES384"
  else if alg = -8 then some "EdDSA" else none

/-- `_COSE_HMAC_256`. -/
def coseHmac256 : Int := 5

/-- A parsed `CoseSign1` or `CoseMac0`; its last field is the signature or the tag. -/
structure Structure where
  protectedRaw : Bytes
  protectedHeader : List (CborKey × Cbor)
  unprotected : List (CborKey × Cbor)
  payload : Option Bytes
  authenticator : Bytes

/-- The names of a structure in its messages and of its last field, and its tag. -/
structure Kind where
  name : Str
  field : Str
  tag : Nat

/-- `COSE_Sign1`. -/
def sign1 : Kind := ⟨"COSE_Sign1", "signature", tagSign1⟩

/-- `COSE_Mac0`. -/
def mac0 : Kind := ⟨"COSE_Mac0", "tag", tagMac0⟩

/-! ## Parsing -/

/-- The array under the tag, or the value itself. -/
def untag (kind : Kind) : Cbor → Result Cbor
  | .tag n v _ =>
    if n = kind.tag then .ok v
    else raise .coseMalformed "%: unexpected CBOR tag %" [.str kind.name, .int n]
  | v => .ok v

/-- `_unwrap(obj, tag, kind)`. -/
def unwrap (kind : Kind) (obj : Cbor) : Result (Cbor × Cbor × Cbor × Cbor) := do
  match ← untag kind obj with
  | .arr [a, b, c, d] => .ok (a, b, c, d)
  | _ => raise .coseMalformed "% must be a 4-element array" [.str kind.name]

/-- The labels of `crit`, all of them known. -/
def checkCrit (kind : Kind) (crit : Cbor) : Result Unit := do
  let labels ← orRaise (crit.arr?.filter (!·.isEmpty))
    ⟨.coseMalformed, "%: 'crit' (label 2) must be a non-empty array", [.str kind.name]⟩
  let labels ← orRaise (labels.mapM int?)
    ⟨.coseMalformed, "%: 'crit' labels must be integers", [.str kind.name]⟩
  let unknown := labels.filter (!knownCritLabels.contains ·)
  raiseIf (!unknown.isEmpty) ⟨.coseMalformed, "%: unsupported critical header label(s) %",
    [.str kind.name, .arr (unknown.map .int)]⟩

/-- `_reject_unhandled_crit(header, kind)`. -/
def rejectUnhandledCrit (kind : Kind) (header : List (CborKey × Cbor)) : Result Unit :=
  match header.lookup (.int hdrCrit) with
  | none => .ok ()
  | some crit => checkCrit kind crit

/-- The header of a non-empty protected byte string. -/
def decodeProtected (kind : Kind) (encoded : Bytes) : Result (List (CborKey × Cbor)) := do
  let header ← reraise (decode encoded) (·.cls.isa .cborError) .coseMalformed
    "%: protected header is not valid CBOR: " [.str kind.name]
  let header ← orRaise header.map?
    ⟨.coseMalformed, "%: protected header must be a CBOR map", [.str kind.name]⟩
  rejectUnhandledCrit kind header
  return header

/-- The protected header; the empty byte string has no parameters. -/
def protectedHeader (kind : Kind) (encoded : Bytes) : Result (List (CborKey × Cbor)) :=
  if encoded.isEmpty then .ok [] else decodeProtected kind encoded

/-- `_parse_protected(protected, kind)`. -/
def parseProtected (kind : Kind) (protectedItem : Cbor) :
    Result (Bytes × List (CborKey × Cbor)) := do
  let encoded ← orRaise protectedItem.bytes?
    ⟨.coseMalformed, "%: protected header must be a byte string", [.str kind.name]⟩
  let header ← protectedHeader kind encoded
  return (encoded, header)

/-- A payload: a byte string, or `nil` for a detached one. -/
def parsePayload (kind : Kind) : Cbor → Result (Option Bytes)
  | .null => .ok none
  | .bytes b => .ok (some b)
  | _ => raise .coseMalformed "%: payload must be a byte string or nil" [.str kind.name]

/-- `parse_sign1(obj)` and `parse_mac0(obj)`. -/
def parse (kind : Kind) (obj : Cbor) : Result Structure := do
  let (protectedItem, unprotected, payload, authenticator) ← unwrap kind obj
  let (encoded, header) ← parseProtected kind protectedItem
  let unprotected ← orRaise unprotected.map?
    ⟨.coseMalformed, "%: unprotected header must be a map", [.str kind.name]⟩
  let payload ← parsePayload kind payload
  let authenticator ← orRaise authenticator.bytes?
    ⟨.coseMalformed, "%: % must be a byte string", [.str kind.name, .str kind.field]⟩
  return ⟨encoded, header, unprotected, payload, authenticator⟩

/-- `parse_sign1(obj)`. -/
def parseSign1 (obj : Cbor) : Result Structure := parse sign1 obj

/-- `parse_mac0(obj)`. -/
def parseMac0 (obj : Cbor) : Result Structure := parse mac0 obj

/-! ## Verification -/

/-- `_require_alg(protected_header)`. -/
def requireAlg (header : List (CborKey × Cbor)) : Result Int :=
  orRaise (labelled header hdrAlg).int?
    ⟨.coseMalformed, "COSE protected header has no integer 'alg' (label 1)", []⟩

/-- `_tbs(context, protected, external_aad, payload)`: a `Sig_structure` or a `MAC_structure`. -/
def tbs (context : Str) (protectedRaw externalAad payload : Bytes) : Result Bytes :=
  encode (.arr [.text context, .bytes protectedRaw, .bytes externalAad, .bytes payload])

/-- `_effective_payload(attached, detached, kind)`. -/
def effectivePayload (kind : Kind) : (attached detached : Option Bytes) → Result Bytes
  | some _, some _ => raise .coseMalformed
      "%: payload is attached but a detached payload was also supplied" [.str kind.name]
  | some attached, none => .ok attached
  | none, some detached => .ok detached
  | none, none => raise .coseMalformed
      "%: payload is detached (nil) but none was supplied" [.str kind.name]

/-- `verify_sign1(sign1, public_jwk, detached_payload, external_aad)`. -/
def verifySign1 (C : Crypto) (s : Structure) (publicJwk : Dict) (detachedPayload : Option Bytes)
    (externalAad : Bytes) : Result Bool := do
  let alg ← requireAlg s.protectedHeader
  let joseAlg ← orRaise (coseAlgToJose alg) ⟨.coseUnsupportedAlgorithm,
    "COSE_Sign1 alg % is not allow-listed (need one of [-35, -8, -7] = ES256/ES384/EdDSA)",
    [.int alg]⟩
  let payload ← effectivePayload sign1 s.payload detachedPayload
  let input ← tbs "Signature1" s.protectedRaw externalAad payload
  verifySignature C joseAlg publicJwk input s.authenticator

/-- `verify_mac0(mac0, mac_key, detached_payload, external_aad)`. -/
def verifyMac0 (C : Crypto) (s : Structure) (macKey : Bytes) (detachedPayload : Option Bytes)
    (externalAad : Bytes) : Result Bool := do
  let alg ← requireAlg s.protectedHeader
  raiseIf (alg != coseHmac256) ⟨.coseUnsupportedAlgorithm,
    "COSE_Mac0 alg % is not allow-listed (need 5 = HMAC 256/256)", [.int alg]⟩
  let payload ← effectivePayload mac0 s.payload detachedPayload
  let input ← tbs "MAC0" s.protectedRaw externalAad payload
  return Hashlib.hmac C.sha256 64 macKey input == s.authenticator

/-! ## Certificates and keys -/

/-- `x5chain_ders(sign1)`. -/
def x5chainDers (s : Structure) : Result (List Bytes) :=
  match (s.unprotected.lookup (.int hdrX5chain)).getD (labelled s.protectedHeader hdrX5chain) with
  | .null => raise .coseMalformed "COSE_Sign1 has no x5chain (label 33) to anchor the signer" []
  | .bytes b => .ok [b]
  | value => orRaise (value.arr?.bind fun l => if l.isEmpty then none else l.mapM bytes?)
      ⟨.coseMalformed, "x5chain must be a certificate bstr or a non-empty array of bstr", []⟩

/-- `kty == _KTY_OKP`; `True` equals 1. -/
def isOkp : Cbor → Bool
  | .int n => n == 1
  | .bool b => b
  | _ => false

/-- `_EC2_CRV_TO_JWK`. -/
def ec2Curve (crv : Cbor) : Option (Str × Nat) :=
  match crv.int? with
  | some 1 => some ("P-256", 32)
  | some 2 => some ("P-384", 48)
  | _ => none

/-- The JWK of an EC2 key. -/
def ec2Jwk (key : List (CborKey × Cbor)) : Result Dict := do
  let (name, size) ← orRaise (ec2Curve (labelled key (-1))) ⟨.coseMalformed,
    "COSE_Key EC2 curve % is not P-256 or P-384", [shown (labelled key (-1))]⟩
  let x ← orRaise (labelled key (-2)).bytes?
    ⟨.coseMalformed, "COSE_Key EC2 needs byte-string x (-2) and y (-3) coordinates", []⟩
  let y ← orRaise (labelled key (-3)).bytes?
    ⟨.coseMalformed, "COSE_Key EC2 needs byte-string x (-2) and y (-3) coordinates", []⟩
  raiseIf (x.length != size || y.length != size)
    ⟨.coseMalformed, "COSE_Key EC2 % coordinates must be % bytes", [.str name, .int size]⟩
  return [("kty", .str "EC"), ("crv", .str name), ("x", .str (Codec.b64urlEncode x)),
    ("y", .str (Codec.b64urlEncode y))]

/-- The JWK of an OKP key. -/
def okpJwk (key : List (CborKey × Cbor)) : Result Dict := do
  raiseIf ((labelled key (-1)).int? != some 6)
    ⟨.coseMalformed, "COSE_Key OKP curve % is not Ed25519", [shown (labelled key (-1))]⟩
  let x ← orRaise ((labelled key (-2)).bytes?.filter (·.length == 32))
    ⟨.coseMalformed, "COSE_Key OKP Ed25519 needs a 32-byte x (-2)", []⟩
  return [("kty", .str "OKP"), ("crv", .str "Ed25519"), ("x", .str (Codec.b64urlEncode x))]

/-- `cose_key_to_jwk(cose_key)`. -/
def coseKeyToJwk (coseKey : Cbor) : Result Dict := do
  let key ← orRaise coseKey.map? ⟨.coseMalformed, "COSE_Key must be a CBOR map", []⟩
  if (labelled key 1).int? = some 2 then ec2Jwk key
  else if isOkp (labelled key 1) then okpJwk key
  else raise .coseMalformed "COSE_Key kty % is not EC2 (2) or OKP (1)" [shown (labelled key 1)]

end Cose

end OpenVC
