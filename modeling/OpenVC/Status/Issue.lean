import OpenVC.Proof.SdJwtIssue
import OpenVC.Python.Calendar
import OpenVC.Resolvers
import OpenVC.Status.PackedList

/-!
# Issuing status lists (`openvc.status.issue`)

The builders of what an issuer publishes: the pointer into a list, and the list itself, as a
credential or as a signed token. Arguments are values of the caller, `null` for `None`; compression
is a parameter.
-/

namespace OpenVC.Status

open Python

/-- The compression of the status lists. -/
structure Deflate where
  /-- `gzip.compress(data, mtime=0)`. -/
  gzip : Bytes → Bytes
  /-- `zlib.compress(data, 9)`. -/
  zlib : Bytes → Bytes

/-- `encode_bitstring(bits)`. -/
def encodeBitstring (D : Deflate) (bits : Bytes) : Str := 117 :: Codec.b64urlEncode (D.gzip bits)

/-- `encode_status_list(data)`. -/
def encodeStatusList (D : Deflate) (data : Bytes) : Str := Codec.b64urlEncode (D.zlib data)

namespace Issue

/-! ## Arguments -/

/-- `_VC2_CONTEXT`. -/
def vc2Context : Str := "https://www.w3.org/ns/credentials/v2"

/-- `VC_BASE_CONTEXTS`. -/
def vcBaseContexts : List Str := [vc2Context, "https://www.w3.org/2018/credentials/v1"]

/-- `BITSTRING_CREDENTIAL_TYPE`. -/
def bitstringCredentialType : Str := "BitstringStatusListCredential"

/-- `BITSTRING_SUBJECT_TYPE`. -/
def bitstringSubjectType : Str := "BitstringStatusList"

/-- `BITSTRING_ENTRY_TYPE`. -/
def bitstringEntryType : Str := "BitstringStatusListEntry"

/-- `_ISSUER_MAX_DEPTH`. -/
def issuerMaxDepth : Nat := maxDepth - 2

/-- `_CONTEXT_ENTRY_MAX_DEPTH`. -/
def contextEntryMaxDepth : Nat := maxDepth - 3

/-- `_text(value, field)`. -/
def text (value : Json) (field : Str) : Result Str :=
  orRaise (value.str?.filter (!·.isEmpty)) ⟨.statusListError, "% must be a non-empty string, got %",
    [.str field, value]⟩

/-- `_text(value, field)` of an argument that may be `None`. -/
def textOrNone (value : Json) (field : Str) : Result (Option Str) :=
  match value with
  | .null => .ok none
  | value => (text value field).map some

/-- `_iso(value, name)`. -/
def iso (value : DateTime) (name : Str) : Result Str := do
  let instant := value.orUtc.instant
  raiseIf (instant < minInstant || maxInstant < instant)
    ⟨.statusListError, "% cannot be read as an instant: ", [.str name]⟩
  let utc ← orRaise (UtcDateTime.ofSeconds (instant / 1000000))
    ⟨.statusListError, "% cannot be read as an instant: ", [.str name]⟩
  return utc.isoformat.take 19 ++ lit "Z"

/-- `_iso(value, name)` of an argument that may be `None`. -/
def isoOrNone (value : Option DateTime) (name : Str) : Result (Option Str) :=
  match value with
  | none => .ok none
  | some value => (iso value name).map some

/-- What the encoder writes of a value, as it is read back; `none` is an error of either. -/
def wire (value : Json) : Option Json := (JsonDumps.dumps value).bind JsonLoads.loads

/-- `_refuse_unreadable(value, field, max_depth)`. -/
def refuseUnreadable (value : Json) (field : Str) (limit : Nat) : Result Unit := do
  let wire ← orRaise (wire value) ⟨.statusListError, "% could not be read as JSON: ", [.str field]⟩
  raiseIf (nestingExceeds wire limit) ⟨.statusListError,
    "% is nested deeper than % levels (the object itself is level 1): it sits inside a payload that the loader reading the signed list back limits to % levels, so this list could not be read back. Flatten it",
    [.str field, .int limit, .int maxDepth]⟩
  raiseIf (VcJwt.carriesSdJwtMarker wire) ⟨.statusListError,
    "% carries an SD-JWT marker member (\x60_sd\x60, \x60_sd_alg\x60 or \x60...\x60) at some depth: RFC 9901 §4.1 reserves them, and the VC-JWT lane refuses a payload that holds one as an SD-JWT issuer JWT, so this list could not be read back. Rename the member",
    [.str field]⟩

/-- The object form of `_credential_issuer(value)`. -/
def issuerObject (issuer : Dict) : Result Dict := do
  raiseIf (issuer.has "@id") ⟨.statusListError,
    "issuer must name itself with \x60id\x60 alone, not \x60@id\x60: the verifier compares every identifier it finds, and eddsa-rdfc-2022 refuses the \x60@id\x60 spelling",
    []⟩
  raiseIf (!issuer.has "id") ⟨.statusListError,
    "issuer object has no \x60id\x60: it names no one", []⟩
  let id ← text (issuer.get "id") "issuer id"
  refuseUnreadable (.obj (issuer.set "id" (.str id))) "issuer" issuerMaxDepth
  return issuer.set "id" (.str id)

/-- `_credential_issuer(value)`. -/
def credentialIssuer (value : Json) : Result Json :=
  match value with
  | .str _ => (text value "issuer").map .str
  | .obj m => (issuerObject m).map .obj
  | _ => raise .statusListError
      "issuer must be a non-empty string or an object with a string id, got %" [value]

/-- An entry of `contexts` after the first one, which is at `position`. -/
def checkContext (position : Nat) (entry : Json) : Result Unit :=
  match entry with
  | .obj m => refuseUnreadable (.obj m) (lit "contexts[" ++ Str.ofNat position ++ lit "]")
      contextEntryMaxDepth
  | entry => raiseIf (!(entry.str?.any (!·.isEmpty))) ⟨.statusListError,
      "contexts[%] must be a non-empty string or an object, got %", [.int position, entry]⟩

/-- `_contexts(value)`. -/
def readContexts (value : Json) : Result (List Json) :=
  match value with
  | .null => .ok [.str vc2Context]
  | .arr [] => raise .statusListError
      "contexts is empty: pass None for the default %, or a list that starts with a VC base context"
      [.arr [.str vc2Context]]
  | .arr (first :: rest) => do
    raiseIf (!(first.str?.any vcBaseContexts.contains)) ⟨.statusListError,
      "the first contexts entry must be a VC base context (https://www.w3.org/2018/credentials/v1 or https://www.w3.org/ns/credentials/v2), got %",
      [first]⟩
    each (fun (entry : Json × Nat) => checkContext entry.2 entry.1) (rest.zipIdx 1)
    return first :: rest
  | value => raise .statusListError
      "contexts must be None or a non-empty list of context URLs and objects, got %" [value]

/-- `_packed(value, field)` of a value that is bytes-like. -/
def packed (value : Bytes) (field : Str) : Result Bytes := do
  raiseIf (maxDecompressedBytes < value.length) ⟨.statusListError,
    "% is % bytes, past the % the verifier decodes: openvc would refuse to read the list back",
    [.str field, .int value.length, .int maxDecompressedBytes]⟩
  return value

/-- A time argument of a token: a `datetime`, or another value. -/
inductive TimeArg where
  | datetime (d : DateTime)
  | value (v : Json)

/-- `_epoch(value, name)`. -/
def epoch (value : TimeArg) (name : Str) : Result Int :=
  match value with
  | .datetime d => do
    raiseIf (d.orUtc.instant < minInstant || maxInstant < d.orUtc.instant)
      ⟨.statusListError, "% cannot be read as an instant: ", [.str name]⟩
    return utcEpoch d
  | .value v => do
    raiseIf (!isNumericDate v) ⟨.statusListError,
      "% must be a datetime or a finite number of epoch seconds, got %", [.str name, v]⟩
    return v.trunc

/-- `_ttl(value)`. -/
def readTtl (value : Json) : Result (Option Int) :=
  match value with
  | .null => .ok none
  | value => (orRaise (value.int?.filter fun held => 1 ≤ held && isNumericDate (.int held))
      ⟨.statusListError, "ttl must be a positive integer or None, got %", [value]⟩).map some

/-- A member that is there when it has a value. -/
def member {α : Type} (name : Str) (write : α → Json) (value : Option α) : Dict :=
  value.toList.map fun v => (name, write v)

/-! ## The status list credential -/

/-- The arguments of `build_status_list_credential`. -/
structure CredentialArgs where
  id : Json
  issuer : Json
  bitstring : Bytes
  statusPurpose : Json := .str purposeRevocation
  validFrom : Option DateTime := none
  validUntil : Option DateTime := none
  subjectId : Json := .null
  ttl : Json := .null
  contexts : Json := .null

/-- The `credentialSubject` of a status list credential. -/
def listSubject (D : Deflate) (id statusPurpose : Str) (subjectId : Option Str) (ttl : Option Int)
    (bits : Bytes) : Dict :=
  ([("id", .str (subjectId.getD (id ++ lit "#list"))), ("type", .str bitstringSubjectType),
    ("statusPurpose", .str statusPurpose),
    ("encodedList", .str (encodeBitstring D bits))] : Dict) ++ member "ttl" Json.int ttl

/-- `build_status_list_credential(…)`. -/
def buildStatusListCredential (D : Deflate) (args : CredentialArgs) : Result Dict := do
  let id ← text args.id "status list credential id"
  let statusPurpose ← text args.statusPurpose "statusPurpose"
  let issuer ← credentialIssuer args.issuer
  let subjectId ← textOrNone args.subjectId "subject_id"
  let context ← readContexts args.contexts
  let rawBits ← packed args.bitstring "bitstring"
  let ttl ← readTtl args.ttl
  let validFrom ← isoOrNone args.validFrom "valid_from"
  let validUntil ← isoOrNone args.validUntil "valid_until"
  return ([("@context", .arr context), ("id", .str id),
    ("type", .arr [.str "VerifiableCredential", .str bitstringCredentialType]), ("issuer", issuer),
    ("credentialSubject", .obj (listSubject D id statusPurpose subjectId ttl rawBits))] : Dict) ++
    member "validFrom" Json.str validFrom ++ member "validUntil" Json.str validUntil

/-- `build_status_list_entry(status_list_credential, index, status_purpose, id)`. -/
def buildStatusListEntry (statusListCredential index statusPurpose id : Json) : Result Dict := do
  let index ← statusIndex index "statusListIndex" false
  let statusListCredential ← text statusListCredential "statusListCredential"
  let statusPurpose ← text statusPurpose "statusPurpose"
  let id ← textOrNone id "status list entry id"
  return ([("type", .str bitstringEntryType), ("statusPurpose", .str statusPurpose),
    ("statusListIndex", .str (Str.ofNat index)),
    ("statusListCredential", .str statusListCredential)] : Dict) ++ member "id" Json.str id

/-! ## The status list token -/

/-- `sign_compact(header, payload, signing_key)`. -/
def signCompact (header payload : Dict) (key : SigningKey) : Result Str := do
  raiseIf (!allowedAlgs.contains key.alg)
    ⟨.unsupportedAlgorithm, "key alg % not permitted", [.str key.alg]⟩
  SdJwt.signCompact header payload key

/-- The arguments of `build_status_list_token` but for the key. -/
structure TokenArgs where
  uri : Json
  statusList : Bytes
  bits : Int := 1
  issuedAt : Option TimeArg := none
  expires : Option TimeArg := none
  ttl : Json := .null
  issuer : Json := .null

/-- `iat`: the time given, else the current one. -/
def issuedAtOrNow (I : Interpreter) (issuedAt : Option TimeArg) : Result Int :=
  match issuedAt with
  | some value => epoch value "issued_at"
  | none => SdJwt.currentSecond I

/-- `exp`, when a time is given. -/
def expiresOrNone (expires : Option TimeArg) : Result (Option Int) :=
  match expires with
  | some value => (epoch value "expires").map some
  | none => .ok none

/-- The claims of the token of `build_status_list_token`. -/
def tokenPayload (I : Interpreter) (D : Deflate) (args : TokenArgs) : Result Dict := do
  let uri ← text args.uri "status list token uri"
  let issuer ← textOrNone args.issuer "status list token issuer"
  let bits ← checkBits args.bits
  let packed ← packed args.statusList "status_list"
  let iat ← issuedAtOrNow I args.issuedAt
  let exp ← expiresOrNone args.expires
  let ttl ← readTtl args.ttl
  return ([("sub", .str uri), ("iat", .int iat),
    ("status_list", .obj [("bits", .int bits),
      ("lst", .str (encodeStatusList D packed))])] : Dict) ++
    member "iss" Json.str issuer ++ member "exp" Json.int exp ++ member "ttl" Json.int ttl

/-- The header of the token. -/
def tokenHeader (key : SigningKey) : Dict :=
  [("typ", .str statusListJwtTyp), ("alg", .str key.alg), ("kid", .str key.kid)]

/-- `build_status_list_token(…)`. -/
def buildStatusListToken (I : Interpreter) (D : Deflate) (key : SigningKey) (args : TokenArgs) :
    Result Str := do
  let payload ← tokenPayload I D args
  signCompact (tokenHeader key) payload key

/-- `build_token_status_reference(uri, index)`. -/
def buildTokenStatusReference (uri index : Json) : Result Dict := do
  let idx ← statusIndex index "status_list idx" false
  let uri ← text uri "status_list uri"
  return [("status", .obj [("status_list", .obj [("idx", .int idx), ("uri", .str uri)])])]

end Issue

end OpenVC.Status
