import OpenVC.JsonInput
import OpenVC.Keys
import OpenVC.Multibase
import OpenVC.Python.Url

/-!
# DID documents (`openvc.did.base`)

The parser of a DID document is shape-checking: the document is attacker-hosted JSON.
-/

namespace OpenVC.Did

open Python Multibase

/-- `RELATIONSHIP_KEYS`. -/
def relationshipKeys : List Str :=
  ["assertionMethod", "authentication", "keyAgreement", "capabilityInvocation",
    "capabilityDelegation"]

/-- A verification method with its public key. -/
structure VerificationMethod where
  id : Str
  type : Str
  controller : Str
  publicKeyJwk : Dict

/-- `VerificationMethod.kid`: the text after the first `#`, or all of it. -/
def VerificationMethod.kid (vm : VerificationMethod) : Str :=
  if vm.id.contains 35 then (Str.partition 35 vm.id).2.2 else vm.id

/-- A parsed DID document. A relationship missing from `relationships` was not declared. -/
structure DidDocument where
  id : Str
  verificationMethods : List VerificationMethod
  raw : Dict
  relationships : List (Str × List Str)

/-- `DidDocument.key_by_kid(kid)`; `none` is `None`. -/
def DidDocument.keyByKid (doc : DidDocument) (kid : Json) : Option VerificationMethod :=
  match kid with
  | .null =>
    match doc.verificationMethods with
    | [vm] => some vm
    | _ => none
  | .str kid =>
    let fragment := if kid.contains 35 then (Str.partition 35 kid).2.2 else kid
    doc.verificationMethods.find? fun vm => vm.id = kid || vm.kid = fragment
  | _ => none

theorem DidDocument.mem_of_keyByKid {doc : DidDocument} {kid : Json} {vm : VerificationMethod}
    (h : doc.keyByKid kid = some vm) : vm ∈ doc.verificationMethods := by
  cases kid with
  | null =>
    rw [keyByKid] at h
    split at h
    · rename_i vm' hvm
      cases h
      rw [hvm]
      exact List.mem_singleton_self _
    · cases h
  | str kid => exact List.mem_of_find?_eq_some h
  | _ => cases h

/-! ## Selection by exact id -/

/-- A character of a DID method name. -/
def isMethodChar (c : Nat) : Bool := (97 ≤ c && c ≤ 122) || Str.isDigit c

/-- A character of a method-specific id, but for the percent sign and the colon. -/
def isIdChar (c : Nat) : Bool :=
  (65 ≤ c && c ≤ 90) || (97 ≤ c && c ≤ 122) || Str.isDigit c || c == 46 || c == 95 || c == 45

/-- Whether a text is made of id characters and percent-encoded octets. -/
def isIdText : Str → Bool
  | [] => true
  | 37 :: a :: b :: t => (Url.hexVal a).isSome && (Url.hexVal b).isSome && isIdText t
  | c :: t => isIdChar c && isIdText t

/-- Whether `_DID_SYNTAX` matches the whole text. -/
def isDid (s : Str) : Bool :=
  match Str.split 58 s with
  | scheme :: method :: first :: rest =>
    scheme == lit "did" && !method.isEmpty && method.all isMethodChar &&
      (first :: rest).all isIdText && !((first :: rest).getLastD []).isEmpty
  | _ => false

/-- `_base()`: the document id, when it is a DID. -/
def DidDocument.base (doc : DidDocument) : Option Str := if isDid doc.id then some doc.id else none

/-- `_absolute(url, base)`. -/
def absolute (url : Str) (base : Option Str) : Option Str :=
  if url.startsWith "did:" then some url
  else if url.startsWith "#" then base.map (· ++ url)
  else none

/-- `_spellings(absolute, base)`. -/
def spellings (absolute : Option Str) (base : Option Str) : List Str :=
  match absolute with
  | none => []
  | some absolute =>
    if !absolute.startsWith "did:" then []
    else match base with
      | none => [absolute]
      | some base =>
        if absolute.startsWith base && Str.startsWith (absolute.drop base.length) "#" then
          [absolute, absolute.drop base.length]
        else [absolute]

/-- `_methods_with_id(vm_id, base)`. -/
def DidDocument.methodsWithId (doc : DidDocument) (vmId : Str) (base : Option Str) :
    List VerificationMethod :=
  doc.verificationMethods.filter fun vm => (spellings (some vmId) base).contains vm.id

/-- The method that `key_for_purpose` selects: the one with that absolute id, or without a `kid` the
sole one. -/
def DidDocument.selected (doc : DidDocument) (kid : Option Str) : Option VerificationMethod :=
  match kid with
  | none => doc.keyByKid .null
  | some kid =>
    match doc.methodsWithId kid doc.base with
    | [vm] => some vm
    | _ => none

/-- Whether a declared relationship refers to the method; an undeclared one grants every method. -/
def DidDocument.grants (doc : DidDocument) (purpose : Str) (vm : VerificationMethod) : Bool :=
  match doc.relationships.lookup purpose with
  | none => true
  | some refs => refs.any (spellings (absolute vm.id doc.base) doc.base).contains

/-- `key_for_purpose(kid, proof_purpose)`. -/
def DidDocument.keyForPurpose (doc : DidDocument) (kid : Option Str) (proofPurpose : Str) :
    Option VerificationMethod :=
  (doc.selected kid).filter (doc.grants proofPurpose)

/-! ## Resolvers -/

/-- A document type of a resolver's own, by the two lookups that are known to exist. Each gives the
public key of the method it finds. -/
structure OtherDocument where
  keyByKid : Json → Option Dict
  keyForPurpose : Str → Str → Option Dict

/-- What `resolve` returned. -/
inductive Resolved where
  /-- `None`. -/
  | none
  | document (doc : DidDocument)
  | other (doc : OtherDocument)

/-- A `DidResolver`; one without a `supports` is asked for every DID. -/
structure DidResolver where
  supports : Option (Str → Bool)
  resolve : Str → Result Resolved

/-- Whether the resolver is asked for the DID. -/
def DidResolver.handles (resolver : DidResolver) (did : Str) : Bool :=
  match resolver.supports with
  | some supports => supports did
  | none => true

/-! ## Parsing -/

/-- The name of a JSON value's Python type, in messages. -/
def typeName : Json → Str
  | .null => "NoneType"
  | .bool _ => "bool"
  | .int _ => "int"
  | .float _ => "float"
  | .str _ => "str"
  | .arr _ => "list"
  | .obj _ => "dict"

/-- `_array(value, what)`. -/
def array (value : Json) (what : Str) : Result (List Json) :=
  match value with
  | .arr l => .ok l
  | v => raise .didResolutionError "DID document % must be an array, not %"
      [.str what, .str (typeName v)]

/-- One entry of a relationship: an id, or the id of an embedded method. -/
def relationshipRef : Json → Option Str
  | .str s => some s
  | .obj m => (Dict.get m "id").str?
  | _ => none

/-- `_relationship_refs(doc, key)`. -/
def relationshipRefs (doc : Dict) (key : Str) : Result (List Str) := do
  let items ← array ((doc.get? key).getD (.arr [])) key
  return items.filterMap relationshipRef

/-- `_text(value)`. -/
def text (value : Json) : Str := value.str?.getD []

/-- The curve, name and coordinate size of an EC multicodec. -/
def multicodecCurve (code : Nat) : Option (Curve × Str) :=
  if code = 0x1200 then some (.p256, "P-256")
  else if code = 0x1201 then some (.p384, "P-384") else none

/-- `multikey_to_jwk(multibase_key)`; `none` is any of the exceptions its caller skips on. -/
def multikeyToJwk (C : Crypto) (multibaseKey : Str) : Option Dict :=
  match decodeMultibase multibaseKey with
  | .error _ => none
  | .ok raw =>
    match readVarint raw with
    | .error _ => none
    | .ok (code, off) =>
      let key := raw.drop off
      if code = 0xED then
        if key.length ≠ 32 then none
        else some [("kty", .str "OKP"), ("crv", .str "Ed25519"), ("x", .str (Codec.b64urlEncode key))]
      else
        match multicodecCurve code with
        | none => none
        | some (curve, crv) =>
          match C.ecDecodePoint curve key with
          | none => none
          | some (x, y) =>
            some [("kty", .str "EC"), ("crv", .str crv),
              ("x", .str (Codec.b64urlEncode (Codec.intToFixed x curve.coordBytes))),
              ("y", .str (Codec.b64urlEncode (Codec.intToFixed y curve.coordBytes)))]

/-- `_vm_public_jwk(vm)`. -/
def vmPublicJwk (C : Crypto) (vm : Dict) : Option Dict :=
  match vm.get "publicKeyJwk" with
  | .obj jwk => some jwk
  | _ =>
    match vm.get "publicKeyMultibase" with
    | .str mb => multikeyToJwk C mb
    | _ => none

/-- One object of `verificationMethod`; `none` drops it. -/
def parseMethodObject (C : Crypto) (docId : Str) (vm : Dict) : Option VerificationMethod :=
  match vm.get "id", vmPublicJwk C vm with
  | .str id, some jwk =>
    some
      { id := id
        type := text (vm.get "type")
        controller := match vm.get? "controller" with
          | some c => text c
          | none => docId
        publicKeyJwk := jwk }
  | _, _ => none

/-- One entry of `verificationMethod`; `none` drops it. -/
def parseMethod (C : Crypto) (docId : Str) : Json → Option VerificationMethod
  | .obj vm => parseMethodObject C docId vm
  | _ => none

/-- `parse_did_document(raw)`. -/
def parseDidDocument (C : Crypto) (raw : Json) : Result DidDocument := do
  let outer ← orRaise raw.obj?
    ⟨.didResolutionError, "DID document must be a JSON object, not %", [.str (typeName raw)]⟩
  raiseIf (nestingExceeds raw maxDepth)
    ⟨.didResolutionError, "DID document is nested deeper than % levels", [.int maxDepth]⟩
  let inner := (outer.get? "didDocument").getD (.obj outer)
  let doc ← orRaise inner.obj?
    ⟨.didResolutionError, "didDocument must be an object, not %", [.str (typeName inner)]⟩
  let docId := text (doc.get "id")
  let methods ← array ((doc.get? "verificationMethod").getD (.arr [])) "verificationMethod"
  let relationships ← collect (fun key => do return (key, ← relationshipRefs doc key))
    (relationshipKeys.filter doc.has)
  return { id := docId
           verificationMethods := methods.filterMap (parseMethod C docId)
           raw := doc
           relationships := relationships }

theorem parseDidDocument_raw {C : Crypto} {d : Dict} {doc : DidDocument}
    (h : parseDidDocument C (.obj d) = .ok doc) (hw : d.has "didDocument" = false) :
    doc.raw = d ∧ doc.id = text (d.get "id") := by
  have hnone : d.get? "didDocument" = none := by
    rw [Dict.has, Option.isSome_eq_false_iff, Option.isNone_iff_eq_none] at hw
    exact hw
  simp only [parseDidDocument, bind_eq_ok, orRaise_eq_ok, pure_eq_ok] at h
  obtain ⟨o, ho, -, -, doc', hd, ms, -, rs, -, rfl⟩ := h
  cases ho
  rw [hnone] at hd
  cases hd
  exact ⟨rfl, rfl⟩

end OpenVC.Did

/-!
## The `did:key` resolver (`openvc.did.did_key`)

The DID is the key: a multicodec-tagged public key in base58btc.
-/

namespace OpenVC.Did

open Python

namespace DidKey

/-- The digit loop of `_b58decode`. -/
def b58Value (num : Nat) : Str → Result Nat
  | [] => .ok num
  | ch :: t =>
    match Multibase.b58Index ch with
    | some d => b58Value (num * 58 + d) t
    | none => raise .didResolutionError "invalid base58 character %" [.str [ch]]

/-- `_b58decode(s)`: each leading `1` is a NUL byte. -/
def b58decode (s : Str) : Result Bytes := do
  let num ← b58Value 0 s
  return List.replicate (s.takeWhile (· = 49)).length 0 ++ Codec.intToBytes num

/-- The loop of `_read_varint`, at byte `i`. -/
def readVarintLoop (result shift i : Nat) : Bytes → Result (Nat × Nat)
  | [] => raise .didResolutionError "truncated multicodec varint" []
  | byte :: t =>
    let result := result ||| ((byte.toNat &&& 0x7F) <<< shift)
    if byte.toNat &&& 0x80 = 0 then .ok (result, i + 1)
    else readVarintLoop result (shift + 7) (i + 1) t

/-- `_read_varint(data)`. -/
def readVarint (data : Bytes) : Result (Nat × Nat) := readVarintLoop 0 0 0 data

/-- The JWK of a point on one of the NIST curves. -/
def pointJwk (C : Crypto) (curve : Curve) (crv : Str) (invalid : String) (keyBytes : Bytes) :
    Result Dict := do
  let point ← orRaise (C.ecDecodePoint curve keyBytes) ⟨.didResolutionError, invalid, []⟩
  return [("kty", .str "EC"), ("crv", .str crv),
    ("x", .str (Codec.b64urlEncode (Codec.intToFixed point.1 curve.coordBytes))),
    ("y", .str (Codec.b64urlEncode (Codec.intToFixed point.2 curve.coordBytes)))]

/-- The JWK of the key bytes under a multicodec. -/
def keyJwk (C : Crypto) (code : Nat) (keyBytes : Bytes) : Result Dict :=
  if code = 0xED then
    .ok [("kty", .str "OKP"), ("crv", .str "Ed25519"), ("x", .str (Codec.b64urlEncode keyBytes))]
  else if code = 0x1200 then pointJwk C .p256 "P-256" "invalid did:key P-256 point: " keyBytes
  else if code = 0x1201 then pointJwk C .p384 "P-384" "invalid did:key P-384 point: " keyBytes
  else raise .didResolutionError "unsupported did:key multicodec 0x%" [.int code]

/-- The document of a key: its one method is for authentication and assertion. -/
def document (did multibase : Str) (jwk : Dict) : DidDocument :=
  let vmId := did ++ 35 :: multibase
  { id := did
    verificationMethods := [⟨vmId, "JsonWebKey2020", did, jwk⟩]
    raw := [("@context", .arr [.str "https://www.w3.org/ns/did/v1"]), ("id", .str did),
      ("verificationMethod", .arr [.obj [("id", .str vmId), ("type", .str "JsonWebKey2020"),
        ("controller", .str did), ("publicKeyJwk", .obj jwk)]]),
      ("authentication", .arr [.str vmId]), ("assertionMethod", .arr [.str vmId])]
    relationships := [("authentication", [vmId]), ("assertionMethod", [vmId])] }

/-- `DidKeyResolver.resolve(did)`. -/
def resolve (C : Crypto) (did : Str) : Result DidDocument := do
  let multibase : Str := did.drop (lit "did:key:").length
  raiseIf (!multibase.startsWith "z")
    ⟨.didResolutionError, "did:key must use base58btc ('z') multibase", []⟩
  let raw ← b58decode (multibase.drop 1)
  let (code, offset) ← readVarint raw
  let jwk ← keyJwk C code (raw.drop offset)
  return document did multibase jwk

end DidKey

end OpenVC.Did
