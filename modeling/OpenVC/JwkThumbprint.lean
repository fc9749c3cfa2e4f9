import OpenVC.Jcs
import OpenVC.Proof.DataIntegrity

/-!
# JWK thumbprints (`openvc.keys.jwk_thumbprint`)

RFC 7638: the digest of the members that a key type requires, as their JSON text spells them.
-/

namespace OpenVC

open Python

/-- `_THUMBPRINT_HASHES`. -/
def thumbprintHashes (C : Crypto) : List (Str × (Bytes → Bytes)) :=
  [("sha-256", C.sha256), ("sha-384", C.sha384), ("sha-512", C.sha512)]

/-- `_DEFAULT_THUMBPRINT_HASH`. -/
def defaultThumbprintHash : Str := "sha-256"

/-- `_THUMBPRINT_MEMBERS`: the members of a key type, sorted. -/
def thumbprintMembers : List (Str × List Str) :=
  [("EC", ["crv", "kty", "x", "y"]), ("OKP", ["crv", "kty", "x"]), ("RSA", ["e", "kty", "n"]),
    ("oct", ["k", "kty"])]

/-- One member of the canonical form. -/
def thumbprintMember (jwk : Dict) (kty name : Str) : Result (Str × Str) := do
  let value ← orRaise (jwk.get name).str?
    ⟨.invalidKey, "JWK of kty % needs a string % member for a thumbprint", [.str kty, .str name]⟩
  raiseIf (Codec.encodeUtf8 value).isNone
    ⟨.invalidKey, "JWK member % holds a lone UTF-16 surrogate (U+% at index %)",
      [.str name, .int (value.getD (value.findIdx isSurrogate) 0),
        .int (value.findIdx isSurrogate)]⟩
  return (name, value)

/-- The members that a thumbprint digests. -/
def thumbprintForm (jwk : Dict) : Result (List (Str × Str)) := do
  let kty ← orRaise (jwk.get "kty").str?
    ⟨.invalidKey, "JWK has no string 'kty'; cannot compute a thumbprint", []⟩
  let names ← orRaise (thumbprintMembers.lookup kty)
    ⟨.invalidKey, "unsupported JWK kty % for a thumbprint", [.str kty]⟩
  collect (thumbprintMember jwk kty) names

/-- `json.dumps(canonical, sort_keys=True, separators=(",", ":"), ensure_ascii=False)` of members
that are sorted already. A string is escaped as in `Jcs`. -/
def dumpsForm (form : List (Str × Str)) : Str :=
  [123] ++ List.intercalate [44] (form.map fun m =>
    Jcs.escapeString m.1 ++ [58] ++ Jcs.escapeString m.2) ++ [125]

/-- `jwk_thumbprint_bytes(jwk, hash_name)`. -/
def jwkThumbprintBytes (C : Crypto) (jwk : Dict) (hashName : Str) : Result Bytes := do
  let hasher ← orRaise ((thumbprintHashes C).lookup hashName)
    ⟨.invalidKey, "unsupported thumbprint hash %", [.str hashName]⟩
  let canonical ← thumbprintForm jwk
  let data ← orRaise (Codec.encodeUtf8 (dumpsForm canonical)) ⟨.valueError, "UnicodeEncodeError", []⟩
  return hasher data

/-- `jwk_thumbprint(jwk)`. -/
def jwkThumbprint (C : Crypto) (jwk : Dict) : Result Str := do
  let digest ← jwkThumbprintBytes C jwk defaultThumbprintHash
  return Codec.b64urlEncode digest

end OpenVC
