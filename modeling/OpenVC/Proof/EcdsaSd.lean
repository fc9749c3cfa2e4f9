import OpenVC.Cbor
import OpenVC.Proof.DataIntegrity
import OpenVC.Python.JsonLoads

/-!
# Verification of a derived `ecdsa-sd-2023` proof (`openvc.proof.ecdsa_sd`)

A derived proof value is CBOR: the issuer's base signature over the mandatory statements, the
ephemeral key, its signature over each other disclosed statement, a map of blank-node labels and the
indexes of the mandatory statements.
-/

namespace OpenVC.EcdsaSd

open Python

/-- `CRYPTOSUITE`. -/
def cryptosuite : Str := "ecdsa-sd-2023"

/-- `DERIVED_PROOF_HEADER`. -/
def derivedProofHeader : Bytes := [0xD9, 0x5D, 0x01]

/-- `_P256_MULTIKEY_PREFIX`. -/
def p256MultikeyStart : Bytes := [0x80, 0x24]

/-! ## The proof value -/

/-- `_mb_encode(data)`. -/
def mbEncode (data : Bytes) : Str := 117 :: Codec.b64urlEncode data

/-- `_mb_decode(value)`. -/
def mbDecode (value : Str) : Result Bytes := do
  raiseIf (!value.startsWith "u")
    ⟨.proofValueMalformed, "proofValue must be multibase base64url ('u')", []⟩
  orRaise (Codec.b64urlDecodePadded (value.drop 1)) ⟨.valueError, "binascii.Error", []⟩

/-- `_check_proof_subset` on a map key. -/
def checkProofKey : CborKey → Result Unit
  | .int n => raiseIf (n < 0) ⟨.proofValueMalformed,
      "only unsigned integers are part of the proof-value shape", []⟩
  | _ => .ok ()

mutual

/-- `_check_proof_subset(obj, ProofValueMalformed)`. -/
def checkProofSubset : Cbor → Result Unit
  | .int n => raiseIf (n < 0) ⟨.proofValueMalformed,
      "only unsigned integers are part of the proof-value shape", []⟩
  | .bytes _ => .ok ()
  | .text _ => .ok ()
  | .arr l => checkProofSubsetList l
  | .map m => checkProofSubsetEntries m
  | _ => raise .proofValueMalformed "value is not part of the ecdsa-sd proof-value shape" []

/-- `_check_proof_subset` over an array. -/
def checkProofSubsetList : List Cbor → Result Unit
  | [] => .ok ()
  | v :: t => do
    checkProofSubset v
    checkProofSubsetList t

/-- `_check_proof_subset` over the entries of a map. -/
def checkProofSubsetEntries : List (CborKey × Cbor) → Result Unit
  | [] => .ok ()
  | (key, v) :: t => do
    checkProofKey key
    checkProofSubset v
    checkProofSubsetEntries t

end

/-- `decode_cbor(data)`. -/
def decodeCbor (data : Bytes) : Result Cbor := do
  let obj ← reraise (Cbor.decode data) (·.cls.isa .cborError) .proofValueMalformed "" []
  checkProofSubset obj
  return obj

/-- The parts of a derived proof value. -/
structure DerivedProof where
  baseSignature : Bytes
  publicKey : Bytes
  signatures : List Bytes
  labelMap : List (Str × Str)
  mandatoryIndexes : List Nat

/-- A byte string. -/
def bytes? : Cbor → Option Bytes
  | .bytes b => some b
  | _ => none

/-- The elements of an array that are all `f`. -/
def arrayOf {α : Type} (f : Cbor → Option α) : Cbor → Option (List α)
  | .arr l => if l.all fun v => (f v).isSome then some (l.filterMap f) else none
  | _ => none

/-- `_is_index(value)`. -/
def index? : Cbor → Option Nat
  | .int (.ofNat n) => some n
  | _ => none

/-- A label-map entry from an unsigned integer to a byte string. -/
def labelEntry : CborKey × Cbor → Option (Nat × Bytes)
  | (.int (.ofNat n), .bytes b) => some (n, b)
  | _ => none

/-- The entries of a compressed label map. -/
def compressedMap : Cbor → Option (List (Nat × Bytes))
  | .map m => if m.all fun e => (labelEntry e).isSome then some (m.filterMap labelEntry) else none
  | _ => none

/-- `decompress_label_map(compressed)`. -/
def decompressLabelMap (compressed : List (Nat × Bytes)) : List (Str × Str) :=
  compressed.map fun e => (lit "c14n" ++ Str.ofNat e.1, mbEncode e.2)

/-- The five elements of a derived proof. -/
def fiveParts : Cbor → Option (Cbor × Cbor × Cbor × Cbor × Cbor)
  | .arr [a, b, c, d, e] => some (a, b, c, d, e)
  | _ => none

/-- `decode_derived_proof(proof_value)`. -/
def decodeDerivedProof (proofValue : Str) : Result DerivedProof := do
  let raw ← mbDecode proofValue
  raiseIf (!derivedProofHeader.isPrefixOf raw)
    ⟨.proofValueMalformed, "not an ecdsa-sd-2023 derived proof (bad header)", []⟩
  let parts ← decodeCbor (raw.drop derivedProofHeader.length)
  let (baseSignature, publicKey, signatures, compressed, mandatoryIndexes) ← orRaise
    (fiveParts parts)
    ⟨.proofValueMalformed, "derived proof must decode to a 5-element array", []⟩
  let baseSignature ← orRaise (bytes? baseSignature)
    ⟨.proofValueMalformed, "derived proof base signature must be a byte string", []⟩
  let publicKey ← orRaise (bytes? publicKey)
    ⟨.proofValueMalformed, "derived proof public key must be a byte string", []⟩
  let signatures ← orRaise (arrayOf bytes? signatures)
    ⟨.proofValueMalformed, "derived proof signatures must be an array of byte strings", []⟩
  let compressed ← orRaise (compressedMap compressed)
    ⟨.proofValueMalformed,
      "derived proof label map must map unsigned integers to byte strings", []⟩
  let mandatoryIndexes ← orRaise (arrayOf index? mandatoryIndexes)
    ⟨.proofValueMalformed,
      "derived proof mandatory indexes must be an array of unsigned integers", []⟩
  raiseIf (!decide (compressed.map Prod.snd).Nodup) ⟨.proofValueMalformed,
    "derived proof label map gives two blank nodes the same label", []⟩
  return ⟨baseSignature, publicKey, signatures, decompressLabelMap compressed, mandatoryIndexes⟩

/-- `decode_derived_proof` as `verify` calls it. -/
def readDerivedProof (proofValue : Str) : Result DerivedProof :=
  tryExcept (decodeDerivedProof proofValue) (!·.cls.isa .proofError) fun e =>
    raise .proofValueMalformed ("malformed derived proof value: " ++ e.text) e.args

/-- `p256_multikey_to_jwk(multikey)`. -/
def p256MultikeyToJwk (C : Crypto) (multikey : Bytes) : Result Dict := do
  raiseIf (!p256MultikeyStart.isPrefixOf multikey || multikey.length != 35)
    ⟨.proofValueMalformed, "not a 35-byte P-256 multikey", []⟩
  let point ← orRaise (C.ecDecodePoint .p256 (multikey.drop 2)) ⟨.valueError, "not a point", []⟩
  return [("kty", .str "EC"), ("crv", .str "P-256"),
    ("x", .str (Codec.b64urlEncode (Codec.intToFixed point.1 32))),
    ("y", .str (Codec.b64urlEncode (Codec.intToFixed point.2 32)))]

/-! ## The statements -/

/-- A character that can begin a blank-node label. -/
def isLabelStart (c : Nat) : Bool :=
  (65 ≤ c && c ≤ 90) || (97 ≤ c && c ≤ 122) || Str.isDigit c || c == 95

/-- A character of a blank-node label. -/
def isLabelChar (c : Nat) : Bool := isLabelStart c || c == 46 || c == 45

/-- The blank-node label a text begins with. -/
def labelAt : Str → Option Str
  | 95 :: 58 :: c :: r =>
    if isLabelStart c then some (95 :: 58 :: c :: r.takeWhile isLabelChar) else none
  | _ => none

/-- `_BNODE_RE.sub(repl, line)`, with `k` characters of the last match still to skip. -/
def relabelLine (mapping : List (Str × Str)) : Nat → Str → Str
  | _, [] => []
  | k + 1, _ :: t => relabelLine mapping k t
  | 0, a :: t =>
    match labelAt (a :: t) with
    | some label => (mapping.lookup label).getD label ++ relabelLine mapping (label.length - 1) t
    | none => a :: relabelLine mapping 0 t

/-- `sorted(lines)`, by code points. -/
def sorted (lines : List Str) : List Str := lines.insertionSort (· ≤ ·)

/-- `_relabel(lines, mapping)`. -/
def relabel (lines : List Str) (mapping : List (Str × Str)) : List Str :=
  sorted (lines.map (relabelLine mapping 0))

/-- The canonical lines that `_canonicalize` returns. -/
def canonicalLines (text : Str) : List Str := sorted ((Str.split 10 text).filter (!·.isEmpty))

/-- What the JSON-LD processor gave, inside the block that types its failures. -/
def processed : Except JsonLdError Str → Result Str
  | .ok text => .ok text
  | .error .unavailable =>
    raise .ecdsaSdError "ecdsa-sd-2023 needs pyld: pip install 'openvc-core[data-integrity]'" []
  | .error (.loader text) | .error (.other text) =>
    raise .proofMalformed "could not canonicalize the derived credential: %" [.str text]

/-- The statements of a derived document: the mandatory ones, the others and the hash of the proof
configuration. -/
structure Statements where
  mandatory : List Str
  nonMandatory : List Str
  proofHash : Bytes

/-- The lines at the given indexes, or at the others. -/
def linesAt (lines : List Str) (keep : Nat → Bool) : List Str :=
  (lines.zipIdx.filter fun p => keep p.2).map Prod.fst

/-- The canonicalization block of `verify`. -/
def statements (C : Crypto) (L : JsonLd) (derived proof : Dict) (parsed : DerivedProof) :
    Result Statements := do
  let nquads ← processed (L.toRdf (derived.erase "proof"))
  let text ← processed (L.canonical nquads)
  let mapping := parsed.labelMap.map fun e => (lit "_:" ++ e.1, lit "_:" ++ e.2)
  let lines := relabel (canonicalLines text) mapping
  let config ← processed (L.normalize (proofConfig proof (derived.get "@context")))
  let config ← utf8 config .proofMalformed "the proof configuration N-Quads"
  return { mandatory := linesAt lines parsed.mandatoryIndexes.contains
           nonMandatory := linesAt lines (!parsed.mandatoryIndexes.contains ·)
           proofHash := C.sha256 config }

/-- `_sha256_lines(lines)`. -/
def sha256Lines (C : Crypto) (lines : List Str) : Result Bytes := do
  let data ← utf8 (lines.flatMap (· ++ [10])) .proofMalformed "the mandatory statements"
  return C.sha256 data

/-- The check of one disclosed statement. -/
def checkStatement (C : Crypto) (ephemeral : Dict) (entry : Str × Bytes) : Result Unit := do
  let data ← utf8 (entry.1 ++ [10]) .proofMalformed "a disclosed statement"
  let ok ← verifySignature C "ES256" ephemeral data entry.2
  raiseIf (!ok) ⟨.signatureInvalid, "a disclosed statement signature does not verify", []⟩

/-- The proof object that `verify` reads. -/
def readProof (derived : Dict) : Result (Dict × Str) := do
  raiseIf (nestingExceeds (.obj derived) maxDepth)
    ⟨.proofMalformed, "credential is nested deeper than % levels", [.int maxDepth]⟩
  let proof ← orRaise (derived.get "proof").obj?
    ⟨.proofMalformed, "credential has no proof object", []⟩
  raiseIf (!Json.pyEq (proof.get "cryptosuite") (.str cryptosuite))
    ⟨.unsupportedCryptosuite, "unsupported cryptosuite %", [proof.get "cryptosuite"]⟩
  let proofValue ← orRaise (proof.get "proofValue").str?
    ⟨.proofValueMalformed, "proofValue is missing or not a string", []⟩
  return (proof, proofValue)

/-- The signatures of a derived proof: the issuer's, then one for each disclosed statement. -/
def checkSignatures (C : Crypto) (jwk : Dict) (toVerify : Bytes) (parsed : DerivedProof)
    (nonMandatory : List Str) : Result Unit := do
  let ok ← verifySignature C "ES256" jwk toVerify parsed.baseSignature
  raiseIf (!ok) ⟨.signatureInvalid, "base signature does not verify", []⟩
  let ephemeral ← p256MultikeyToJwk C parsed.publicKey
  raiseIf (parsed.signatures.length != nonMandatory.length)
    ⟨.signatureInvalid, "disclosed statement / signature count mismatch", []⟩
  each (checkStatement C ephemeral) (nonMandatory.zip parsed.signatures)

/-- `EcdsaSdProofSuite.verify(derived, …)`. -/
def verify (I : Interpreter) (C : Crypto) (L : JsonLd) (leeway : Int) (derived : Dict)
    (publicKeyJwk : Option Dict) (resolver : Option Did.DidResolver) (policy : DiPolicy) :
    Result VerifiedDi := do
  let (proof, proofValue) ← readProof derived
  let parsed ← readDerivedProof proofValue
  let st ← statements C L derived proof parsed
  let mandatoryHash ← sha256Lines C st.mandatory
  let toVerify := st.proofHash ++ parsed.publicKey ++ mandatoryHash
  let jwk ← diKey C publicKeyJwk proof resolver
  checkSignatures C jwk toVerify parsed st.nonMandatory
  let unsecured := derived.erase "proof"
  L.validateDocument unsecured (proofConfig proof (derived.get "@context"))
  checkProofPurpose proof policy.expectedProofPurpose
  let expired ← checkWindowAt I unsecured proof policy.now leeway policy.checkTemporal
  return verifiedDi derived proof expired

end OpenVC.EcdsaSd

/-!
## The proof values of `ecdsa-sd-2023`, written and read (`openvc.proof.ecdsa_sd`)

A base proof value carries the issuer's signatures and the mandatory pointers, a derived one what a
holder discloses. Both are a header and a CBOR array of five elements, in multibase.
-/

namespace OpenVC.EcdsaSd

open Python

/-- `BASE_PROOF_HEADER`. -/
def baseProofHeader : Bytes := [0xD9, 0x5D, 0x00]

/-- `_check_proof_subset(obj, EcdsaSdError)`: the checks are the same, the class is another. -/
def checkEncodable (obj : Cbor) : Result Unit :=
  reraise (checkProofSubset obj) (fun _ => true) .ecdsaSdError "" []

/-- `encode_cbor(obj)`. -/
def encodeCbor (obj : Cbor) : Result Bytes := do
  checkEncodable obj
  reraise (Cbor.encode obj) (·.cls.isa .cborError) .ecdsaSdError "" []

/-! ## Label maps -/

/-- `int(text)`, `none` its `ValueError`; `other` reads what is not only ASCII digits. -/
def intOf (other : Str → Option Int) (text : Str) : Option Int :=
  if text ≠ [] ∧ ∀ c ∈ text, Str.isDigit c = true then
    if text.length ≤ JsonLoads.maxStrDigits then some (Str.toNat text) else none
  else other text

/-- `out[index] = digest`. -/
def setIndex (out : List (Int × Bytes)) (index : Int) (digest : Bytes) : List (Int × Bytes) :=
  match out with
  | [] => [(index, digest)]
  | e :: rest => if e.1 = index then (index, digest) :: rest else e :: setIndex rest index digest

/-- One entry of `compress_label_map`. -/
def compressEntry (other : Str → Option Int) (out : List (Int × Bytes)) (entry : Str × Str) :
    Result (List (Int × Bytes)) := do
  raiseIf (!entry.1.startsWith "c14n")
    ⟨.ecdsaSdError, "label map key % is not a c14n label", [.str entry.1]⟩
  -- the value of the assignment is evaluated before its key
  let digest ← mbDecode entry.2
  let index ← orRaise (intOf other (entry.1.drop 4))
    ⟨.valueError, "invalid literal for int() with base 10: %", [.str (entry.1.drop 4)]⟩
  return setIndex out index digest

/-- `compress_label_map(label_map)`. -/
def compressLabelMap (other : Str → Option Int) (labelMap : List (Str × Str)) :
    Result (List (Int × Bytes)) :=
  enumerateLoop (fun out _ entry => compressEntry other out entry) [] 0 labelMap

/-! ## Base proofs -/

/-- The components of a base proof value. -/
structure BaseProof where
  baseSignature : Bytes
  publicKey : Bytes
  hmacKey : Bytes
  signatures : List Bytes
  mandatoryPointers : List Str

/-- The array of a base proof value. -/
def BaseProof.toCbor (p : BaseProof) : Cbor :=
  .arr [.bytes p.baseSignature, .bytes p.publicKey, .bytes p.hmacKey,
    .arr (p.signatures.map .bytes), .arr (p.mandatoryPointers.map .text)]

/-- `encode_base_proof(…)`. -/
def encodeBaseProof (p : BaseProof) : Result Str := do
  let body ← encodeCbor p.toCbor
  return mbEncode (baseProofHeader ++ body)

/-- What `decode_base_proof` returns: the five elements, as they are. -/
structure BaseParts where
  baseSignature : Cbor
  publicKey : Cbor
  hmacKey : Cbor
  signatures : Cbor
  mandatoryPointers : Cbor

/-- `decode_base_proof(proof_value)`. -/
def decodeBaseProof (proofValue : Str) : Result BaseParts := do
  let raw ← mbDecode proofValue
  raiseIf (!baseProofHeader.isPrefixOf raw)
    ⟨.proofValueMalformed, "not an ecdsa-sd-2023 base proof (bad header)", []⟩
  let parts ← decodeCbor (raw.drop baseProofHeader.length)
  let (baseSignature, publicKey, hmacKey, signatures, mandatoryPointers) ← orRaise
    (fiveParts parts)
    ⟨.proofValueMalformed, "base proof must decode to a 5-element array", []⟩
  return ⟨baseSignature, publicKey, hmacKey, signatures, mandatoryPointers⟩

/-! ## Derived proofs -/

/-- The arguments of `encode_derived_proof`. -/
structure DerivedParts where
  baseSignature : Bytes
  publicKey : Bytes
  signatures : List Bytes
  labelMap : List (Str × Str)
  mandatoryIndexes : List Int

/-- The array of a derived proof value. -/
def DerivedParts.toCbor (p : DerivedParts) (compressed : List (Int × Bytes)) : Cbor :=
  .arr [.bytes p.baseSignature, .bytes p.publicKey, .arr (p.signatures.map .bytes),
    .map (compressed.map fun e => (.int e.1, .bytes e.2)), .arr (p.mandatoryIndexes.map .int)]

/-- `encode_derived_proof(…)`. -/
def encodeDerivedProof (other : Str → Option Int) (p : DerivedParts) : Result Str := do
  let compressed ← compressLabelMap other p.labelMap
  let body ← encodeCbor (p.toCbor compressed)
  return mbEncode (derivedProofHeader ++ body)

end OpenVC.EcdsaSd
