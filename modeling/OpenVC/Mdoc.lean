import OpenVC.Cose
import OpenVC.X5c

/-!
# mdoc verification (`openvc.mdoc`)

A `DeviceResponse` carries documents. Each is held to the issuer's seal (the `IssuerAuth` over the
Mobile Security Object, a certificate chain to an anchor, the validity window and the digest of every
disclosed item) and to the device's (a `DeviceSignature` or a `DeviceMac` over the session).
-/

namespace OpenVC

open Python

/-- `cryptography.x509`, with what a document signer's certificate is asked. -/
structure SignerX509 extends X509 where
  /-- The identifiers of `ExtendedKeyUsage`; the inner `none` is `ExtensionNotFound`. -/
  extendedKeyUsage : Certificate → Result (Option (List Str))
  /-- `not_valid_before_utc`, in microseconds since the epoch. -/
  notValidBefore : Certificate → Int
  /-- `not_valid_after_utc`. -/
  notValidAfter : Certificate → Int

namespace X5c

variable (X : SignerX509)

/-- One certificate of an `x5chain`. -/
def loadDer (der : Bytes) : Result X.Certificate :=
  match X.loadDer der with
  | .ok certificate => .ok certificate
  | .error text => raise .x5cError "mdoc x5chain entry is not a valid certificate: %" [.str text]

/-- `load_der_chain(x5chain)`. -/
def loadDerChain : List Bytes → Result (Chain X.toX509)
  | [] => raise .x5cError "mdoc x5chain is missing or empty" []
  | leaf :: rest => do
    let leaf ← loadDer X leaf
    let rest ← collect (loadDer X) rest
    return (leaf, rest)

/-- `leaf_public_jwk(leaf)`. -/
def leafPublicJwk (leaf : X.Certificate) : Result Dict :=
  match X.publicKey leaf with
  | .ec curve x y =>
    .ok [("kty", .str "EC"), ("crv", .str (if curve = .p256 then lit "P-256" else lit "P-384")),
      ("x", .str (Codec.b64urlEncode (Codec.intToFixed x curve.coordBytes))),
      ("y", .str (Codec.b64urlEncode (Codec.intToFixed y curve.coordBytes)))]
  | .ed25519 raw =>
    .ok [("kty", .str "OKP"), ("crv", .str "Ed25519"), ("x", .str (Codec.b64urlEncode raw))]
  | .unloadable e => .error e
  | .other => raise .x5cError "mdoc signer leaf key is not EC P-256/P-384 or Ed25519" []

/-- `_MDOC_DS_EKU_OID`. -/
def mdocDsEkuOid : Str := "1.0.18013.5.1.2"

/-- `_require_mdoc_ds_eku(leaf)`. -/
def requireMdocDsEku (leaf : X.Certificate) : Result Unit := do
  let eku ← X.extendedKeyUsage leaf
  let eku ← orRaise eku ⟨.x5cError,
    "mdoc document-signer certificate has no ExtendedKeyUsage (needs the mdoc DS EKU 1.0.18013.5.1.2)",
    []⟩
  raiseIf (!eku.contains mdocDsEkuOid) ⟨.x5cError,
    "mdoc document-signer certificate lacks the DS ExtendedKeyUsage 1.0.18013.5.1.2 (ISO 18013-5 Annex B)",
    []⟩

/-- `check_mdoc_signed_within_ds_validity(x5chain, signed)`. -/
def checkMdocSignedWithinDsValidity (x5chain : List Bytes) (signed : DateTime) : Result Unit := do
  let chain ← loadDerChain X x5chain
  raiseIf (!(X.notValidBefore chain.1 ≤ signed.instant && signed.instant ≤ X.notValidAfter chain.1))
    ⟨.x5cError, "MSO signed % is outside the document-signer certificate validity [% .. %]",
      [.int signed.instant, .int (X.notValidBefore chain.1), .int (X.notValidAfter chain.1)]⟩

/-- `resolve_mdoc_signer_key(x5chain, trust_anchors, now)`. -/
def resolveMdocSignerKey (I : Interpreter) (x5chain : List Bytes)
    (trustAnchors : List X.Certificate) (now : Option DateTime) : Result Dict := do
  let chain ← loadDerChain X x5chain
  validateCertChain X.toX509 I chain trustAnchors now
  requireMdocDsEku X chain.1
  leafPublicJwk X chain.1

end X5c

namespace Mdoc

open Cbor Cose

/-- What the verifier asks of its host. -/
structure Env where
  interpreter : Interpreter
  crypto : Crypto
  x509 : SignerX509
  /-- `date.fromisoformat`: the midnight of the day in UTC, in microseconds since the epoch; `none`
  is its `ValueError`. -/
  dateFromIsoFormat : Str → Option Int

/-- `TAG_DATE_TIME`. -/
def tagDateTime : Nat := 0

/-- `TAG_FULL_DATE`. -/
def tagFullDate : Nat := 1004

/-- A value for each name. -/
abbrev Named (α : Type) := List (Str × α)

/-- `d[name] = value`. -/
def assign {α : Type} (d : Named α) (name : Str) (value : α) : Named α :=
  match d with
  | [] => [(name, value)]
  | (n, v) :: t => if n = name then (n, value) :: t else (n, v) :: assign t name value

/-- `MdocValidity`. -/
structure Validity where
  signed : DateTime
  validFrom : DateTime
  validUntil : DateTime

/-- `_IssuerParts`. -/
structure IssuerParts where
  docType : Str
  namespaces : Named (Named Cbor)
  issuerKey : Dict
  validity : Validity
  mso : List (CborKey × Cbor)

/-- `VerifiedMdoc`. -/
structure VerifiedMdoc where
  docType : Str
  namespaces : Named (Named Cbor)
  deviceSigned : Bool
  issuerKey : Dict
  validity : Validity

/-! ## The response -/

/-- `_parse_response(device_response)`. -/
def parseResponse (deviceResponse : Bytes) : Result (List Cbor) := do
  let parsed ← reraise (decode deviceResponse) (·.cls.isa .cborError) .mdocMalformed
    "DeviceResponse is not valid CBOR: " []
  let parsed ← orRaise parsed.map? ⟨.mdocMalformed, "DeviceResponse must be a CBOR map", []⟩
  let status ← orRaise (field parsed "status").int?
    ⟨.mdocMalformed, "DeviceResponse has no integer status", []⟩
  raiseIf (status != 0)
    ⟨.mdocMalformed, "DeviceResponse status is % (not 0 = OK)", [.int status]⟩
  orRaise ((field parsed "documents").arr?.filter (!·.isEmpty))
    ⟨.mdocMalformed, "DeviceResponse carries no documents", []⟩

/-! ## The issuer's seal -/

/-- The byte string under a tag 24, with the bytes of the tagged item. -/
def embedded : Cbor → Option (Bytes × Bytes)
  | .tag n (.bytes b) (some received) => if n = tagEncodedCbor then some (b, received) else none
  | _ => none

/-- The value of a tag 24. -/
def encodedCbor? : Cbor → Option Cbor
  | .tag n v _ => if n = tagEncodedCbor then some v else none
  | _ => none

/-- `_decode_mso(payload)`. -/
def decodeMso (payload : Bytes) : Result (List (CborKey × Cbor)) := do
  let tagged ← reraise (decode payload) (·.cls.isa .cborError) .mdocMalformed
    "MSO payload is not valid CBOR: " []
  let value ← orRaise (encodedCbor? tagged)
    ⟨.mdocMalformed, "IssuerAuth payload is not a #6.24 embedded-CBOR MSO", []⟩
  let value ← orRaise value.bytes?
    ⟨.mdocMalformed, "MSO embedded-CBOR tag does not wrap a byte string", []⟩
  let mso ← reraise (decode value) (·.cls.isa .cborError) .mdocMalformed
    "MSO is not valid CBOR: " []
  orRaise mso.map? ⟨.mdocMalformed, "MSO must be a CBOR map", []⟩

mutual

/-- `_plain(value)`: the value without its tags. -/
def plain : Cbor → Cbor
  | .tag _ v _ => plain v
  | .arr l => .arr (plainItems l)
  | .map m => .map (plainEntries m)
  | v => v

/-- `_plain` of the items of an array. -/
def plainItems : List Cbor → List Cbor
  | [] => []
  | v :: t => plain v :: plainItems t

/-- `_plain` of the values of a map. -/
def plainEntries : List (CborKey × Cbor) → List (CborKey × Cbor)
  | [] => []
  | (k, v) :: t => (k, plain v) :: plainEntries t

end

/-- `_DIGEST_ALGS`. -/
def digestAlg (C : Crypto) (name : Str) : Option (Bytes → Bytes) :=
  if name = lit "SHA-256" then some C.sha256 else if name = lit "SHA-384" then some C.sha384
  else if name = lit "SHA-512" then some C.sha512 else none

/-- `_verify_item(namespace, item, ns_digests, hasher)`: the element that the item discloses. -/
def verifyItem (hasher : Bytes → Bytes) (space : Str) (nsDigests : List (CborKey × Cbor))
    (item : Cbor) : Result (Str × Cbor) := do
  let (value, received) ← orRaise (embedded item)
    ⟨.mdocMalformed, "IssuerSignedItem must be a #6.24 embedded-CBOR byte string", []⟩
  let issuerItem ← reraise (decode value) (·.cls.isa .cborError) .mdocMalformed
    "IssuerSignedItem is not valid CBOR: " []
  let issuerItem ← orRaise issuerItem.map?
    ⟨.mdocMalformed, "IssuerSignedItem must be a CBOR map", []⟩
  let digestId ← orRaise (field issuerItem "digestID").int?
    ⟨.mdocMalformed, "IssuerSignedItem has no integer digestID", []⟩
  let expected ← orRaise (labelled nsDigests digestId).bytes? ⟨.mdocDigestMismatch,
    "MSO valueDigests[%] has no digest for digestID %", [.str space, .int digestId]⟩
  raiseIf (hasher received != expected) ⟨.mdocDigestMismatch,
    "IssuerSignedItem digestID % in % does not match its MSO valueDigest (tampered or wrong item)",
    [.int digestId, .str space]⟩
  let elementId ← orRaise ((field issuerItem "elementIdentifier").text?.filter (!·.isEmpty))
    ⟨.mdocMalformed, "IssuerSignedItem has no elementIdentifier", []⟩
  return (elementId, plain (field issuerItem "elementValue"))

/-- The items of a namespace: `claims.update(…)` with each. -/
def verifyItems (hasher : Bytes → Bytes) (space : Str) (nsDigests : List (CborKey × Cbor)) :
    Named Cbor → List Cbor → Result (Named Cbor)
  | claims, [] => .ok claims
  | claims, item :: items => do
    let (elementId, value) ← verifyItem hasher space nsDigests item
    verifyItems hasher space nsDigests (assign claims elementId value) items

/-- The name of a namespace. -/
def spaceName : CborKey → Option Str
  | .text s => some s
  | _ => none

/-- One namespace of `issuerSigned.nameSpaces`. -/
def verifySpace (hasher : Bytes → Bytes) (valueDigests : List (CborKey × Cbor))
    (entry : CborKey × Cbor) : Result (Str × Named Cbor) := do
  let space ← orRaise (spaceName entry.1)
    ⟨.mdocMalformed, "issuerSigned namespace must be a text string", []⟩
  let items ← orRaise entry.2.arr?
    ⟨.mdocMalformed, "namespace % must map to an array of items", [.str space]⟩
  let nsDigests ← orRaise (CborKey.get valueDigests (.text space)).map? ⟨.mdocDigestMismatch,
    "MSO valueDigests has no digests for namespace %", [.str space]⟩
  let claims ← verifyItems hasher space nsDigests [] items
  return (space, claims)

/-- The loop over the namespaces. -/
def verifySpaces (hasher : Bytes → Bytes) (valueDigests : List (CborKey × Cbor)) :
    Named (Named Cbor) → List (CborKey × Cbor) → Result (Named (Named Cbor))
  | disclosed, [] => .ok disclosed
  | disclosed, entry :: entries => do
    let (space, claims) ← verifySpace hasher valueDigests entry
    verifySpaces hasher valueDigests (assign disclosed space claims) entries

/-- `_verify_value_digests(issuer_signed, mso, hasher)`. -/
def verifyValueDigests (issuerSigned mso : List (CborKey × Cbor)) (hasher : Bytes → Bytes) :
    Result (Named (Named Cbor)) := do
  let valueDigests ← orRaise (field mso "valueDigests").map?
    ⟨.mdocMalformed, "MSO has no valueDigests map", []⟩
  match field issuerSigned "nameSpaces" with
  | .null => .ok []
  | .map spaces => verifySpaces hasher valueDigests [] spaces
  | _ => raise .mdocMalformed "issuerSigned.nameSpaces must be a map" []

/-! ## The validity window -/

/-- The text with a `Z` written as an offset. -/
def numericZone (s : Str) : Str :=
  if s.endsWith "Z" || s.endsWith "z" then s.dropLast ++ lit "+00:00" else s

/-- `_parse_rfc3339(text)`. -/
def parseRfc3339 (E : Env) (value : Cbor) : Result DateTime := do
  let text ← orRaise value.text? ⟨.mdocMalformed, "date-time must be a text string", []⟩
  let parsed ← orRaise (E.interpreter.fromIsoFormat (numericZone text.strip))
    ⟨.mdocMalformed, "invalid RFC 3339 date-time %: ", [.str text]⟩
  return parsed.orUtc

/-- `_parse_full_date(text)`. -/
def parseFullDate (E : Env) (value : Cbor) : Result DateTime := do
  let text ← orRaise value.text? ⟨.mdocMalformed, "full-date must be a text string", []⟩
  let day ← orRaise (E.dateFromIsoFormat text.strip)
    ⟨.mdocMalformed, "invalid full-date %: ", [.str text]⟩
  return ⟨day, some 0⟩

/-- `_parse_date(value)`. -/
def parseDate (E : Env) : Cbor → Result (Option DateTime)
  | .null => .ok none
  | .tag n v _ =>
    if n = tagDateTime then (parseRfc3339 E v).map some
    else if n = tagFullDate then (parseFullDate E v).map some
    else raise .mdocMalformed "validityInfo date has unexpected CBOR tag %" [.int n]
  | .text s => (parseRfc3339 E (.text s)).map some
  | _ => raise .mdocMalformed "validityInfo date must be a tdate / full-date string" []

/-- `_check_validity(mso, instant, leeway)`, in microseconds. -/
def checkValidity (E : Env) (mso : List (CborKey × Cbor)) (instant leeway : Int) :
    Result Validity := do
  let info ← orRaise (field mso "validityInfo").map?
    ⟨.mdocMalformed, "MSO has no validityInfo map", []⟩
  let signed ← parseDate E (field info "signed")
  let validFrom ← parseDate E (field info "validFrom")
  let validUntil ← parseDate E (field info "validUntil")
  let signed ← orRaise signed
    ⟨.mdocMalformed, "MSO validityInfo needs a signed time (ISO 18013-5 §9.1.2.4)", []⟩
  let validFrom ← orRaise validFrom
    ⟨.mdocMalformed, "MSO validityInfo needs both validFrom and validUntil", []⟩
  let validUntil ← orRaise validUntil
    ⟨.mdocMalformed, "MSO validityInfo needs both validFrom and validUntil", []⟩
  raiseIf (leeway < validFrom.instant - instant)
    ⟨.mdocValidityError, "MSO is not yet valid (validFrom %)", [.int validFrom.instant]⟩
  raiseIf (leeway < instant - validUntil.instant)
    ⟨.mdocValidityError, "MSO has expired (validUntil %)", [.int validUntil.instant]⟩
  return ⟨signed, validFrom, validUntil⟩

/-! ## Issuer data authentication -/

/-- `utc_window(now, leeway_s, error=MdocError)`: the instant and the leeway, in microseconds. -/
def utcWindow (E : Env) (now : Option DateTime) (leewayS : Int) : Result (Int × Int) := do
  let instant ← utcInstant E.interpreter now .mdocError
  let leeway ← leewaySeconds leewayS "leeway_s" .mdocError
  return (instant, leeway * 1000000)

/-- The `IssuerAuth` with its certificate chain. -/
def parseIssuerAuth (obj : Cbor) : Result (Structure × List Bytes) := do
  let issuerAuth ← parseSign1 obj
  let chain ← x5chainDers issuerAuth
  return (issuerAuth, chain)

/-- The arguments of a verification. -/
structure Call (E : Env) where
  trustAnchors : List E.x509.Certificate
  now : Option DateTime := none
  leewayS : Int := 300
  expectedDocType : Option Str := none

/-- An aware `datetime` at an instant. -/
def atInstant (instant : Int) : DateTime := ⟨instant, some 0⟩

/-- `_verify_issuer_signed(document, trust_anchors, now, leeway_s, expected_doc_type)`. -/
def verifyIssuerParts (E : Env) (call : Call E) (document : Cbor) : Result IssuerParts := do
  let document ← orRaise document.map? ⟨.mdocMalformed, "each document must be a CBOR map", []⟩
  let docType ← orRaise ((field document "docType").text?.filter (!·.isEmpty))
    ⟨.mdocMalformed, "document has no docType", []⟩
  raiseIf (call.expectedDocType.any (docType != ·)) ⟨.mdocDocTypeMismatch,
    "document docType % is not the expected %",
    [.str docType, .str (call.expectedDocType.getD [])]⟩
  let issuerSigned ← orRaise (field document "issuerSigned").map?
    ⟨.mdocMalformed, "document has no issuerSigned map", []⟩
  let (issuerAuth, chain) ← reraise (parseIssuerAuth (field issuerSigned "issuerAuth"))
    (·.cls.isa .coseError) .mdocMalformed "issuerAuth: " []
  let (instant, leeway) ← utcWindow E call.now call.leewayS
  let issuerKey ← reraise (X5c.resolveMdocSignerKey E.x509 E.interpreter chain call.trustAnchors
      (some (atInstant instant))) (·.cls.isa .x5cError) .mdocTrustError
    "document-signer chain did not validate to an IACA anchor: " []
  let payload ← orRaise issuerAuth.payload
    ⟨.mdocMalformed, "IssuerAuth has a detached payload (no MSO)", []⟩
  let ok ← reraise (verifySign1 E.crypto issuerAuth issuerKey none [])
    (·.cls.isa .coseError) .mdocSignatureInvalid "IssuerAuth signature could not be checked: " []
  raiseIf (!ok) ⟨.mdocSignatureInvalid, "IssuerAuth (MSO) signature does not verify", []⟩
  let mso ← decodeMso payload
  raiseIf ((field mso "docType").text? != some docType) ⟨.mdocDocTypeMismatch,
    "MSO docType % does not match the document docType %",
    [shown (field mso "docType"), .str docType]⟩
  let hasher ← orRaise ((field mso "digestAlgorithm").text?.bind (digestAlg E.crypto))
    ⟨.mdocMalformed, "MSO digestAlgorithm % is not SHA-256/384/512",
      [shown (field mso "digestAlgorithm")]⟩
  let validity ← checkValidity E mso instant leeway
  reraise (X5c.checkMdocSignedWithinDsValidity E.x509 chain validity.signed)
    (·.cls.isa .x5cError) .mdocValidityError "" []
  let namespaces ← verifyValueDigests issuerSigned mso hasher
  return ⟨docType, namespaces, issuerKey, validity, mso⟩

/-- `verify_issuer_signed(document, trust_anchors, now, leeway_s, expected_doc_type)`. -/
def verifyIssuerSigned (E : Env) (call : Call E) (document : Cbor) : Result VerifiedMdoc := do
  let _ ← leewaySeconds call.leewayS "leeway_s" .mdocError
  let parts ← verifyIssuerParts E call document
  return ⟨parts.docType, parts.namespaces, false, parts.issuerKey, parts.validity⟩

/-! ## Device authentication -/

/-- The encoded `DeviceAuthentication`: the transcript and the device's namespaces go in as they
are. -/
def deviceAuthentication (sessionTranscript : Bytes) (docType : Str) (deviceNameSpaces : Bytes) :
    Result Bytes :=
  encode (.arr [.text (lit "DeviceAuthentication"), .raw sessionTranscript, .text docType,
    .raw deviceNameSpaces])

/-- `DeviceAuthenticationBytes`. -/
def deviceAuthenticationBytes (sessionTranscript : Bytes) (docType : Str)
    (deviceNameSpaces : Bytes) : Result Bytes := do
  let authentication ← deviceAuthentication sessionTranscript docType deviceNameSpaces
  encode (.tag tagEncodedCbor (.bytes authentication) none)

/-- A `DeviceSignature`. -/
def checkDeviceSignature (C : Crypto) (signature : Cbor) (deviceKey : Dict) (detached : Bytes) :
    Result Bool := do
  let sign1 ← parseSign1 signature
  verifySign1 C sign1 deviceKey (some detached) []

/-- A `DeviceMac`. -/
def checkDeviceMac (C : Crypto) (mac : Cbor) (macKey detached : Bytes) : Result Bool := do
  let mac0 ← parseMac0 mac
  verifyMac0 C mac0 macKey (some detached) []

/-- The bytes of the device's namespaces, as they were received. -/
def deviceNameSpacesRaw : Cbor → Option Bytes
  | .tag n _ received => if n = tagEncodedCbor then received else none
  | _ => none

/-- The `DeviceSignature` branch. -/
def verifyDeviceSignature (C : Crypto) (signature : Cbor) (deviceKey : Dict) (detached : Bytes) :
    Result Unit := do
  let ok ← reraise (checkDeviceSignature C signature deviceKey detached) (·.cls.isa .coseError)
    .mdocDeviceAuthError "DeviceSignature could not be checked: " []
  raiseIf (!ok) ⟨.mdocDeviceAuthError,
    "DeviceSignature does not verify (holder binding failed)", []⟩

/-- The `DeviceMac` branch. -/
def verifyDeviceMac (C : Crypto) (mac : Cbor) (deviceMacKey : Option Bytes) (detached : Bytes) :
    Result Unit := do
  let macKey ← orRaise deviceMacKey ⟨.mdocDeviceAuthError,
    "DeviceMac holder binding needs the ISO 18013-5 session EMacKey, which the OpenID4VP online flow does not establish; pass device_mac_key for a proximity SessionTranscript",
    []⟩
  let ok ← reraise (checkDeviceMac C mac macKey detached) (·.cls.isa .coseError)
    .mdocDeviceAuthError "DeviceMac could not be checked: " []
  raiseIf (!ok) ⟨.mdocDeviceAuthError, "DeviceMac does not verify (holder binding failed)", []⟩

/-- The two branches: a signature is preferred to a tag. -/
def verifyDeviceBinding (C : Crypto) (deviceAuth : List (CborKey × Cbor)) (deviceKey : Dict)
    (deviceMacKey : Option Bytes) (detached : Bytes) : Result Unit :=
  match field deviceAuth "deviceSignature", field deviceAuth "deviceMac" with
  | .null, .null =>
    raise .mdocMalformed "deviceAuth has neither deviceSignature nor deviceMac" []
  | .null, mac => verifyDeviceMac C mac deviceMacKey detached
  | signature, _ => verifyDeviceSignature C signature deviceKey detached

/-- `_verify_device_auth(document, parts, session_transcript, device_mac_key)`. -/
def verifyDeviceAuth (E : Env) (document : List (CborKey × Cbor)) (parts : IssuerParts)
    (sessionTranscript : Bytes) (deviceMacKey : Option Bytes) : Result Unit := do
  let deviceSigned ← orRaise (field document "deviceSigned").map?
    ⟨.mdocDeviceAuthError, "document has no deviceSigned (holder binding missing)", []⟩
  let deviceNs ← orRaise (deviceNameSpacesRaw (field deviceSigned "nameSpaces"))
    ⟨.mdocMalformed, "deviceSigned.nameSpaces must be a #6.24 embedded-CBOR value", []⟩
  let deviceAuth ← orRaise (field deviceSigned "deviceAuth").map?
    ⟨.mdocMalformed, "deviceSigned has no deviceAuth map", []⟩
  let detached ← deviceAuthenticationBytes sessionTranscript parts.docType deviceNs
  let deviceInfo ← orRaise (field parts.mso "deviceKeyInfo").map?
    ⟨.mdocMalformed, "MSO has no deviceKeyInfo", []⟩
  let deviceKey ← reraise (coseKeyToJwk (field deviceInfo "deviceKey")) (·.cls.isa .coseError)
    .mdocMalformed "MSO deviceKey: " []
  verifyDeviceBinding E.crypto deviceAuth deviceKey deviceMacKey detached

/-- One document of a response. -/
def verifyDocument (E : Env) (call : Call E) (sessionTranscript : Bytes)
    (deviceMacKey : Option Bytes) (document : Cbor) : Result VerifiedMdoc := do
  let parts ← verifyIssuerParts E call document
  verifyDeviceAuth E (document.map?.getD []) parts sessionTranscript deviceMacKey
  return ⟨parts.docType, parts.namespaces, true, parts.issuerKey, parts.validity⟩

/-- `verify_device_response(device_response, trust_anchors, session_transcript, now, leeway_s,
expected_doc_type, device_mac_key)`. -/
def verifyDeviceResponse (E : Env) (call : Call E) (deviceResponse sessionTranscript : Bytes)
    (deviceMacKey : Option Bytes) : Result (List VerifiedMdoc) := do
  let _ ← leewaySeconds call.leewayS "leeway_s" .mdocError
  let documents ← parseResponse deviceResponse
  collect (verifyDocument E call sessionTranscript deviceMacKey) documents

end Mdoc

end OpenVC
