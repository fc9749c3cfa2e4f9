import OpenVC.Errors
import OpenVC.Python.Codec

/-!
# W3C status lists (`openvc.status.status_list`, `bitstring`, `_index`)

A credential names a bit in a published list. The resolver that fetches and verifies a list belongs
to the caller: it is known only by the outcome of each of its calls. Decompression is a parameter.
-/

namespace OpenVC

open Python

/-- The decompression the status lists use; `none` is an error of the library. -/
structure Zlib where
  /-- `gzip.GzipFile(fileobj=io.BytesIO(data)).read(max_out + 1)`. -/
  gunzip : Bytes → Option Bytes
  /-- All the output of `zlib.decompressobj()` on `data`. -/
  inflate : Bytes → Option Bytes

/-- A resolver of status lists: the outcome of its `n`-th call, for a URL. -/
abbrev Resolver := Nat → Str → Result Json

namespace Status

/-! ## Indices -/

/-- `MAX_DECOMPRESSED_BYTES`. -/
def maxDecompressedBytes : Nat := 16 * 1024 * 1024

/-- `MAX_STATUS_INDEX`. -/
def maxStatusIndex : Nat := maxDecompressedBytes * 8

/-- `_MAX_DIGITS`. -/
def maxDigits : Nat := (Str.ofNat maxStatusIndex).length

/-- The index a string of ASCII digits denotes. -/
def indexOfDigits (value field : Str) : Result Nat := do
  raiseIf (!(value.isAscii && !value.isEmpty && value.all Str.isDigit)) ⟨.statusListError,
    "% must be a base-10 string of ASCII digits, got %", [.str field, .str value]⟩
  raiseIf (maxDigits < (value.dropWhile (· == 48)).length) ⟨.statusListError,
    "% % is past the largest list openvc decodes (% statuses)",
    [.str field, .str value, .int maxStatusIndex]⟩
  return Str.toNat value

/-- An `int` that is not negative. -/
def indexOfInt (value : Int) (field : Str) : Result Nat := do
  raiseIf (value < 0) ⟨.statusListError, "% must be non-negative, got %", [.str field, .int value]⟩
  return value.toNat

/-- The integer an index value denotes. -/
def indexValue (value : Json) (field : Str) (allowString : Bool) : Result Nat :=
  match value with
  | .str s => if allowString then indexOfDigits s field
      else raise .statusListError "% must be an integer, got %" [.str field, value]
  | .int n => indexOfInt n field
  | _ => raise .statusListError "% must be %, got %"
      [.str field, .str (lit (if allowString then "an integer or a base-10 string"
        else "an integer")), value]

/-- `status_index(value, field, allow_string)`. -/
def statusIndex (value : Json) (field : Str) (allowString : Bool) : Result Nat := do
  let n ← indexValue value field allowString
  raiseIf (maxStatusIndex ≤ n) ⟨.statusListError,
    "% % is past the largest list openvc decodes (% statuses)",
    [.str field, value, .int maxStatusIndex]⟩
  return n

/-- `locate_status(index, per_byte, length, unit)`: the byte and the position in it. -/
def locateStatus (index perByte length : Nat) (unit : Str) : Result (Nat × Nat) := do
  raiseIf (length ≤ index / perByte) ⟨.statusListError, "status index % out of range for a %-% list",
    [.int index, .int (length * perByte), .str unit]⟩
  return (index / perByte, index % perByte)

/-! ## The bitstring -/

/-- What was decompressed, within the ceiling. -/
def bounded (out : Option Bytes) (invalid tooLarge : String) : Result Bytes := do
  let data ← orRaise out ⟨.statusListError, invalid, []⟩
  raiseIf (maxDecompressedBytes < data.length) ⟨.statusListError, tooLarge, []⟩
  return data

/-- `encoded_list` without its multibase marker. -/
def dropMultibase : Str → Str
  | 117 :: t => t
  | s => s

/-- `decode_bitstring(encoded_list)`. -/
def decodeBitstring (Z : Zlib) (encodedList : Str) : Result Bytes := do
  let compressed ← orRaise (Codec.b64urlDecodePadded (dropMultibase encodedList))
    ⟨.statusListError, "encodedList is not valid base64url: ", []⟩
  bounded (Z.gunzip compressed) "encodedList is not valid gzip: "
    "encodedList decompresses too large: "

/-- `get_status_bit(bits, index)`: the most significant bit of a byte comes first. -/
def getStatusBit (bits : Bytes) (index : Nat) : Result Nat := do
  let (byteIndex, bitIndex) ← locateStatus index 8 bits.length "bit"
  return ((bits.getD byteIndex 0).toNat >>> (7 - bitIndex)) &&& 1

/-! ## `credentialStatus` -/

/-- A `StatusEntry`. -/
structure Entry where
  statusListCredential : Str
  index : Nat
  purpose : Str

/-- A `StatusEntryResult`. -/
structure EntryResult where
  entry : Entry
  isSet : Bool

/-- A `StatusResult`. -/
structure StatusResult where
  revoked : Bool
  suspended : Bool
  entries : List EntryResult

/-- `_ENTRY_TYPES`. -/
def entryTypes : List Str := ["BitstringStatusListEntry", "StatusList2021Entry"]

/-- `PURPOSE_REVOCATION`. -/
def purposeRevocation : Str := "revocation"

/-- `PURPOSE_SUSPENSION`. -/
def purposeSuspension : Str := "suspension"

/-- `_as_entry_list(raw)`. -/
def asEntryList : Json → Result (List Dict)
  | .null => .ok []
  | .obj m => .ok [m]
  | .arr l => orRaise (if l.all (·.obj?.isSome) then some (l.filterMap Json.obj?) else none)
      ⟨.statusListError, "credentialStatus entries must be objects", []⟩
  | _ => raise .statusListError "credentialStatus must be an object or an array" []

/-- Whether a `type` is absent or empty. -/
def lacksType : Json → Bool
  | .null => true
  | .str s => s.isEmpty
  | .arr l => l.isEmpty
  | _ => false

/-- The strings among the entries of a `type`. -/
def typeNames : Json → List Str
  | .str s => [s]
  | .arr l => l.filterMap Json.str?
  | _ => []

/-- Whether the `type` of an entry is a recognised status-list entry. -/
def isStatusEntry (raw : Dict) : Bool := (typeNames (raw.get "type")).any entryTypes.contains

/-- The `StatusEntry` of a recognised entry. -/
def readEntry (raw : Dict) : Result Entry := do
  raiseIf (!(raw.get "statusListCredential").truthy || (raw.get "statusListIndex").isNull)
    ⟨.statusListError, "status entry needs statusListCredential and statusListIndex", []⟩
  let url ← orRaise (raw.get "statusListCredential").str? ⟨.statusListError,
    "statusListCredential must be a URL string, got %", [raw.get "statusListCredential"]⟩
  let purpose ← orRaise ((raw.get? "statusPurpose").getD (.str purposeRevocation)).str?
    ⟨.statusListError, "statusPurpose must be a string, got %", [raw.get "statusPurpose"]⟩
  let index ← statusIndex (raw.get "statusListIndex") "statusListIndex" true
  return ⟨url, index, purpose⟩

/-- The entry of one object of `credentialStatus`; an unrelated status type is skipped. -/
def parseEntry (raw : Dict) : Result (List Entry) := do
  raiseIf (lacksType (raw.get "type"))
    ⟨.statusListError, "credentialStatus entry needs a type", []⟩
  if isStatusEntry raw then do
    let entry ← readEntry raw
    return [entry]
  else return []

/-- `parse_status_entries(credential)`. -/
def parseStatusEntries (credential : Dict) : Result (List Entry) := do
  let raws ← asEntryList (credential.get "credentialStatus")
  let entries ← collect parseEntry raws
  return entries.flatten

/-- `_encoded_list(status_vc, entry)`. -/
def encodedList (statusVc : Json) (entry : Entry) : Result Str := do
  let vc ← orRaise statusVc.obj? ⟨.statusListError,
    "resolved status-list credential must be an object, got %", [statusVc]⟩
  let subject ← orRaise (vc.get "credentialSubject").obj?
    ⟨.statusListError, "status-list credential has no credentialSubject", []⟩
  raiseIf ((subject.get "statusPurpose").truthy &&
      !Json.pyEq (subject.get "statusPurpose") (.str entry.purpose))
    ⟨.statusListError, "status-list purpose % != entry purpose %",
      [subject.get "statusPurpose", .str entry.purpose]⟩
  orRaise ((subject.get "encodedList").str?.filter (!·.isEmpty))
    ⟨.statusListError, "status-list credentialSubject has no encodedList string", []⟩

/-- `_read_status_bit(status_vc, entry)`. -/
def readStatusBit (Z : Zlib) (statusVc : Json) (entry : Entry) : Result EntryResult := do
  let encoded ← encodedList statusVc entry
  let bits ← decodeBitstring Z encoded
  let bit ← getStatusBit bits entry.index
  return ⟨entry, bit != 0⟩

/-- One iteration of `check_credential_status`: the list of the `n`-th entry, and its bit. -/
def checkEntry (Z : Zlib) (resolve : Resolver) (results : List EntryResult) (n : Nat)
    (entry : Entry) : Result (List EntryResult) := do
  let statusVc ← resolve n entry.statusListCredential
  let result ← readStatusBit Z statusVc entry
  return results ++ [result]

/-- `_tally_status(results)`. -/
def tallyStatus (results : List EntryResult) : StatusResult :=
  ⟨results.any fun r => r.isSet && r.entry.purpose == purposeRevocation,
    results.any fun r => r.isSet && r.entry.purpose == purposeSuspension, results⟩

/-- `check_credential_status(credential, resolve_status_list)`. -/
def checkCredentialStatus (Z : Zlib) (credential : Dict) (resolve : Resolver) :
    Result StatusResult := do
  let entries ← parseStatusEntries credential
  let results ← enumerateLoop (checkEntry Z resolve) [] 0 entries
  return tallyStatus results

end Status

end OpenVC

/-!
## IETF Token Status Lists (`openvc.status.token_status_list`)

A status is a value of one, two, four or eight bits, packed from the least significant bit.
-/

namespace OpenVC.Status

open Python

/-- `STATUS_INVALID`. -/
def statusInvalid : Nat := 1

/-- `STATUS_SUSPENDED`. -/
def statusSuspended : Nat := 2

/-- `_check_bits(bits)`. -/
def checkBits (bits : Int) : Result Nat :=
  orRaise (if bits = 1 ∨ bits = 2 ∨ bits = 4 ∨ bits = 8 then some bits.toNat else none)
    ⟨.statusListError, "bits must be one of 1, 2, 4, 8; got %", [.int bits]⟩

/-- `decode_status_list(lst)`. -/
def decodeStatusList (Z : Zlib) (lst : Str) : Result Bytes := do
  let compressed ← orRaise (Codec.b64urlDecodePadded lst)
    ⟨.statusListError, "lst is not valid base64url: ", []⟩
  bounded (Z.inflate compressed) "lst is not valid zlib/DEFLATE: " "lst decompresses too large: "

/-- `get_status(data, index, bits)`. -/
def getStatus (data : Bytes) (index : Nat) (bits : Int) : Result Nat := do
  let bits ← checkBits bits
  let (byteIndex, pos) ← locateStatus index (8 / bits) data.length "status"
  return ((data.getD byteIndex 0).toNat >>> (pos * bits)) &&& (2 ^ bits - 1)

/-- A `TokenStatusRef`. -/
structure TokenStatusRef where
  uri : Str
  index : Nat

/-- A `TokenStatusResult`. -/
structure TokenStatusResult where
  ref : TokenStatusRef
  status : Nat
  revoked : Bool
  suspended : Bool

/-- The `status.status_list` object of a token. -/
def statusListClaim (claims : Dict) : Option Dict :=
  (claims.get "status").obj?.bind fun status => (status.get "status_list").obj?

/-- The reference a `status.status_list` object holds. -/
def readTokenStatusRef (ref : Dict) : Result TokenStatusRef := do
  raiseIf (!(ref.get "uri").truthy || (ref.get "idx").isNull)
    ⟨.statusListError, "status_list reference needs both uri and idx", []⟩
  let uri ← orRaise (ref.get "uri").str?
    ⟨.statusListError, "status_list uri must be a URL string, got %", [ref.get "uri"]⟩
  let index ← statusIndex (ref.get "idx") "status_list idx" false
  return ⟨uri, index⟩

/-- `parse_token_status_ref(claims)`. -/
def parseTokenStatusRef (claims : Dict) : Result (Option TokenStatusRef) :=
  match statusListClaim claims with
  | none => .ok none
  | some ref => do
    let ref ← readTokenStatusRef ref
    return some ref

/-- `_status_list_claim(token_claims)`: the width of a status and the packed list. -/
def statusListOfToken (tokenClaims : Json) : Result (Int × Str) := do
  let claims ← orRaise tokenClaims.obj? ⟨.statusListError,
    "resolved status list token claims must be an object, got %", [tokenClaims]⟩
  let sl ← orRaise (claims.get "status_list").obj?
    ⟨.statusListError, "status list token has no status_list claim", []⟩
  let bits ← orRaise (sl.get "bits").int?
    ⟨.statusListError, "status_list.bits must be an integer, got %", [sl.get "bits"]⟩
  let lst ← orRaise (sl.get "lst").str?
    ⟨.statusListError, "status_list.lst must be a base64url string", []⟩
  return (bits, lst)

/-- `_token_status_result(ref, token_claims)`. -/
def tokenStatusResult (Z : Zlib) (ref : TokenStatusRef) (tokenClaims : Json) :
    Result TokenStatusResult := do
  let (bits, lst) ← statusListOfToken tokenClaims
  let data ← decodeStatusList Z lst
  let value ← getStatus data ref.index bits
  return ⟨ref, value, value == statusInvalid, value == statusSuspended⟩

/-- `check_token_status(claims, resolve_status_list_token)` for a token with a reference. -/
def checkTokenStatus (Z : Zlib) (ref : TokenStatusRef) (resolve : Resolver) :
    Result TokenStatusResult := do
  let tokenClaims ← resolve 0 ref.uri
  tokenStatusResult Z ref tokenClaims

/-- `check_token_status(claims, resolve_status_list_token)`. -/
def checkTokenClaims (Z : Zlib) (claims : Dict) (resolve : Resolver) :
    Result (Option TokenStatusResult) := do
  let ref ← parseTokenStatusRef claims
  match ref with
  | none => return none
  | some ref => (checkTokenStatus Z ref resolve).map some

end OpenVC.Status
