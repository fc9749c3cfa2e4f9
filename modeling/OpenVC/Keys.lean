import OpenVC.Errors
import OpenVC.Python.Codec
import OpenVC.Python.Hashlib

/-!
# Keys and signatures (`openvc.keys`)

The primitives of `hashlib` and of the `cryptography` package are a parameter.
-/

namespace OpenVC

open Python

/-- The NIST curves. -/
inductive Curve where
  | p256
  | p384
  deriving DecidableEq, Repr

/-- The number of bytes of a coordinate. -/
def Curve.coordBytes : Curve → Nat
  | .p256 => 32
  | .p384 => 48

/-- The hash and signature primitives. Each verification says whether the signature verifies
(`InvalidSignature` is `false`). -/
structure Crypto where
  /-- `hashlib.sha256(data).digest()`. -/
  sha256 : Bytes → Bytes
  /-- `hashlib.sha384(data).digest()`. -/
  sha384 : Bytes → Bytes
  /-- `hashlib.sha512(data).digest()`. -/
  sha512 : Bytes → Bytes
  /-- `Ed25519PublicKey.verify`: key, message, signature. -/
  ed25519Verify : Bytes → Bytes → Bytes → Bool
  /-- Whether `EllipticCurvePublicNumbers(x, y, curve).public_key()` accepts the coordinates. -/
  ecOnCurve : Curve → Nat → Nat → Bool
  /-- ECDSA with the curve's hash: coordinates, message, `r` and `s`. -/
  ecdsaVerify : Curve → Nat × Nat → Bytes → Nat × Nat → Bool
  /-- `EllipticCurvePublicKey.from_encoded_point`, `none` for a point it refuses. -/
  ecDecodePoint : Curve → Bytes → Option (Nat × Nat)
  /-- Whether `from_public_bytes` of the ML-DSA parameter set accepts the key; `none` when the
  installed `cryptography` has no ML-DSA. -/
  mldsaKey : Str → Bytes → Option Bool
  /-- ML-DSA verification: parameter set, key, message, signature. -/
  mldsaVerify : Str → Bytes → Bytes → Bytes → Bool

/-- `ED25519_ALG_NAMES`. -/
def ed25519AlgNames : List Str := ["EdDSA", "Ed25519"]

/-- `MLDSA_ALGS`. -/
def mldsaAlgs : List Str := ["ML-DSA-44", "ML-DSA-65", "ML-DSA-87"]

/-- `_b64url_decode(jwk[name])`; `none` is the `KeyError`, `TypeError` or `ValueError` of a member
that is absent, not a string or not base64. -/
def jwkBytes (jwk : Dict) (name : Str) : Option Bytes :=
  match jwk.get? name with
  | some (.str s) => Codec.b64urlDecodePadded s
  | _ => none

/-- The failure that `verify_signature` reports for a malformed key. -/
def malformedKey (alg : Str) : Err := ⟨.invalidKey, "malformed public key for %: ", [.str alg]⟩

/-- The ECDSA branches of `verify_signature`. -/
def verifyEcdsa (C : Crypto) (curve : Curve) (alg : Str) (lengthText : String) (publicJwk : Dict)
    (signingInput signature : Bytes) : Result Bool := do
  raiseIf (signature.length != 2 * curve.coordBytes) ⟨.invalidKey, lengthText, []⟩
  let x ← orRaise (jwkBytes publicJwk "x") (malformedKey alg)
  let y ← orRaise (jwkBytes publicJwk "y") (malformedKey alg)
  let point := (Codec.intFromBytes x, Codec.intFromBytes y)
  raiseIf (!C.ecOnCurve curve point.1 point.2) (malformedKey alg)
  return C.ecdsaVerify curve point signingInput
    (Codec.intFromBytes (signature.take curve.coordBytes),
      Codec.intFromBytes (signature.drop curve.coordBytes))

/-- `verify_signature(alg, public_jwk, signing_input, signature)`. -/
def verifySignature (C : Crypto) (alg : Str) (publicJwk : Dict) (signingInput signature : Bytes) :
    Result Bool :=
  if alg ∈ ed25519AlgNames then do
    let raw ← orRaise (jwkBytes publicJwk "x") (malformedKey alg)
    raiseIf (raw.length != 32) (malformedKey alg)
    return C.ed25519Verify raw signingInput signature
  else if alg = lit "ES256" then
    verifyEcdsa C .p256 alg "ES256 signature must be 64-byte R||S" publicJwk signingInput signature
  else if alg = lit "ES384" then
    verifyEcdsa C .p384 alg "ES384 signature must be 96-byte R||S" publicJwk signingInput signature
  else if alg ∈ mldsaAlgs then do
    raiseIf (C.mldsaKey alg []).isNone
      ⟨.invalidKey, "ML-DSA requires cryptography>=48: pip install 'openvc-core[pq]'", []⟩
    let pub ← orRaise (jwkBytes publicJwk "pub") (malformedKey alg)
    raiseIf (C.mldsaKey alg pub != some true) (malformedKey alg)
    return C.mldsaVerify alg pub signingInput signature
  else raise .invalidKey "unsupported alg %" [.str alg]

/-- An Ed25519 signature as numbers: the key, and the halves of a 64-byte message and of the
signature. -/
abbrev SignatureRow := Nat × (Nat × Nat) × (Nat × Nat)

/-- The primitives on concrete inputs: SHA-256 itself, and the Ed25519 signatures of a table. -/
def Crypto.ofTable (table : List SignatureRow) : Crypto where
  sha256 := Hashlib.sha256
  sha384 _ := []
  sha512 _ := []
  ed25519Verify key message signature := table.any fun row =>
    key == Codec.intToFixed row.1 32 &&
      message == Codec.intToFixed row.2.1.1 32 ++ Codec.intToFixed row.2.1.2 32 &&
      signature == Codec.intToFixed row.2.2.1 32 ++ Codec.intToFixed row.2.2.2 32
  ecOnCurve _ _ _ := false
  ecdsaVerify _ _ _ _ := false
  ecDecodePoint _ _ := none
  mldsaKey _ _ := none
  mldsaVerify _ _ _ _ := false

/-- The primitives on concrete inputs, with Ed25519 signatures of ASCII texts: the key, the text and
the halves of the signature. -/
def Crypto.ofTexts (table : List (Nat × Str × (Nat × Nat))) : Crypto :=
  { Crypto.ofTable [] with
    ed25519Verify := fun key message signature => table.any fun row =>
      key == Codec.intToFixed row.1 32 &&
        some message == Codec.encodeAscii row.2.1 &&
        signature == Codec.intToFixed row.2.2.1 32 ++ Codec.intToFixed row.2.2.2 32 }

end OpenVC

namespace OpenVC.OpenId4Vci

/-! ## Key proofs (`openvc.openid4vci`) -/

open Python

/-- `_ALG_KEY_BINDING`: the `kty` and the `crv` a classic algorithm needs. -/
def algKeyBinding : List (Str × Str × Str) :=
  [("EdDSA", "OKP", "Ed25519"), ("Ed25519", "OKP", "Ed25519"), ("ES256", "EC", "P-256"),
   ("ES384", "EC", "P-384")]

/-- `_check_key_binds_to_alg(jwk, alg)`. -/
def checkKeyBindsToAlg (jwk : Dict) (alg : Str) : Result Unit :=
  match algKeyBinding.lookup alg with
  | some (kty, crv) =>
    raiseIf (!Json.pyEq (jwk.get "kty") (.str kty) || !Json.pyEq (jwk.get "crv") (.str crv))
      ⟨.claimsInvalid, "key proof alg % needs a kty=% crv=% key, got kty=% crv=%",
        [.str alg, .str kty, .str crv, jwk.get "kty", jwk.get "crv"]⟩
  | none =>
    if alg ∈ mldsaAlgs then
      raiseIf (!Json.pyEq (jwk.get "kty") (.str (lit "AKP")) ||
          !Json.pyEq (jwk.get "alg") (.str alg))
        ⟨.claimsInvalid, "key proof alg % needs a matching AKP key", [.str alg]⟩
    else raise .unsupportedAlgorithm "key proof alg % has no key binding rule" [.str alg]

end OpenVC.OpenId4Vci
