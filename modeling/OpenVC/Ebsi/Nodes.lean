import OpenVC.Ebsi.OpenPgp
import OpenVC.JsonInput
import OpenVC.Python.Interpreter

/-!
# The Trusted Nodes List (`openvc_ebsi.nodes`)

The anchor signs the key list, the custodians of the key list sign the node list, and the node list
names the nodes of each environment.
-/

namespace OpenVC.Nodes

open Python OpenPgp

/-! ## Constants -/

/-- `LIST_VERSION_FLOOR`. -/
def listVersionFloor : Int := 4
/-- `KEYS_VERSION_FLOOR`. -/
def keysVersionFloor : Int := 1
/-- `DEFAULT_MIN_THRESHOLD`. -/
def defaultMinThreshold : Int := 2
def maxListBytes : Nat := 262144
def maxKeysBytes : Nat := 65536
def maxCustodians : Nat := 16
def maxNodes : Nat := 512
def maxVersion : Int := 2 ^ 63 - 1
/-- `_SKEW`, in microseconds. -/
def skew : Int := 300 * 1000000
/-- `_MAX_VALIDITY`, in microseconds. -/
def maxValidity : Int := 90 * 86400 * 1000000

/-- `_ENVIRONMENTS`. -/
def environments : List Str := ["pilot", "preprod", "prod"]

/-- `_PREFIX`: how the origins of an environment start. -/
def originStart (environment : Str) : Option Str :=
  if environment = lit "pilot" then some "https://api-pilot.ebsi."
  else if environment = lit "preprod" then some "https://api-preprod.ebsi."
  else if environment = lit "prod" then some "https://api.ebsi."
  else none

/-- `_ECMA_SPACE`. -/
def isEcmaSpace (c : Nat) : Bool :=
  (9 ≤ c && c ≤ 13) || c == 32 || c == 0xA0 || c == 0x1680 || (0x2000 ≤ c && c ≤ 0x200A) ||
    c == 0x2028 || c == 0x2029 || c == 0x202F || c == 0x205F || c == 0x3000 || c == 0xFEFF

/-- `_ECMA_LINE_TERMINATORS`. -/
def isEcmaLineTerminator (c : Nat) : Bool := c == 10 || c == 13 || c == 0x2028 || c == 0x2029

/-! ## The caller-facing types -/

/-- `[0-9a-f]{64}`, matched in full. -/
def isSha256Hex (s : Str) : Bool :=
  s.length == 64 && s.all fun c => Str.isDigit c || (97 ≤ c && c ≤ 102)

/-- `[0-9A-F]{40}`, matched in full. -/
def isFingerprint (s : Str) : Bool :=
  s.length == 40 && s.all fun c => Str.isDigit c || (65 ≤ c && c ≤ 70)

/-- An `Accepted` pair. -/
structure Accepted where
  version : Int
  sha256 : Str
  version_ok : 1 ≤ version ∧ version ≤ maxVersion
  sha256_ok : isSha256Hex sha256 = true

/-- `Accepted(version, sha256)`. -/
def Accepted.init (version : Int) (sha256 : Str) : Result Accepted :=
  if hv : 1 ≤ version ∧ version ≤ maxVersion then
    if hs : isSha256Hex sha256 = true then .ok ⟨version, sha256, hv, hs⟩
    else raise .nodeListConfigError "%.sha256 must be 64 lower-case hex characters, not %"
      [.str (lit "Accepted"), .str sha256]
  else raise .nodeListConfigError "%.version must be an int of at least 1, not %"
    [.str (lit "Accepted"), .int version]

/-- An `Anchor`. -/
structure Anchor where
  fingerprint : Str
  curve : Str
  publicPoint : Bytes

/-- A `Node`. -/
structure Node where
  origin : Str
  host : Str
  country : Str
  organisation : Str
  deriving DecidableEq

/-- A `VerifiedNodeList`; the instants are in microseconds since the epoch. -/
structure VerifiedNodeList where
  environment : Str
  version : Int
  keysVersion : Int
  issued : Int
  expires : Int
  nodes : List Node
  acceptedList : Accepted
  acceptedKeys : Accepted

/-- The configuration of a call. -/
structure Config where
  environment : Str
  now : Option DateTime
  anchor : Anchor
  listFloor : Int := listVersionFloor
  keysFloor : Int := keysVersionFloor
  /-- In microseconds. -/
  maxAge : Option Int := none
  minThreshold : Option Int := some defaultMinThreshold

/-! ## Argument checks -/

/-- `_anchor_key(anchor)`. -/
def anchorKey (P : Primitives) (anchor : Anchor) : Result PublicKey := do
  raiseIf (!isFingerprint anchor.fingerprint) ⟨.nodeListConfigError,
    "anchor.fingerprint must be 40 upper-case hex characters", []⟩
  reraise (makePublicKey P anchor.curve anchor.publicPoint anchor.fingerprint)
    (·.cls.isa .openPgpError) .nodeListConfigError "anchor is malformed: " []

/-- `_floor(value, name)`. -/
def checkFloor (value : Int) (name : Str) : Result Unit :=
  raiseIf (value < 1) ⟨.nodeListConfigError, "% must be an int of at least 1, not %",
    [.str name, .int value]⟩

/-- `_floor` of a value that may be absent. -/
def checkMinimum : Option Int → Result Unit
  | none => .ok ()
  | some value => checkFloor value "min_threshold"

/-- `_snapshot(value, name, cap)`: bytes within the cap. -/
def checkSize (value : Bytes) (name : Str) (cap : Nat) : Result Unit :=
  raiseIf (cap < value.length) ⟨.nodeListMalformed, "% is % bytes, over the % cap",
    [.str name, .int value.length, .int cap]⟩

/-- The first and the last instant a `datetime` in UTC can hold. -/
def minInstant : Int := -62135596800 * 1000000
def maxInstant : Int := 253402300799 * 1000000 + 999999

/-- `utc_instant(now)` of a required `now`. -/
def requiredInstant (now : Option DateTime) : Result Int := do
  let now ← orRaise now
    ⟨.nodeListConfigError, "now is required: the verifier reads no clock", []⟩
  raiseIf (!(minInstant ≤ now.orUtc.instant && now.orUtc.instant ≤ maxInstant))
    ⟨.nodeListConfigError, "now cannot be read as an instant: ", []⟩
  return now.orUtc.instant

/-! ## Document checks -/

/-- `_load_object(raw, name)`. -/
def loadObject (raw : Bytes) (name : Str) : Result Dict := do
  let text ← orRaise (Codec.decodeUtf8 false raw)
    ⟨.nodeListMalformed, "% is not UTF-8", [.str name]⟩
  raiseIf (text.startsWith [0xFEFF])
    ⟨.nodeListMalformed, "% starts with a byte order mark", [.str name]⟩
  let value ← recast (loadsUnambiguous text) .valueError
    ⟨.nodeListMalformed, "% is not acceptable JSON: ", [.str name]⟩
  orRaise value.obj? ⟨.nodeListMalformed, "% must be a JSON object", [.str name]⟩

/-- `_members(obj, names, what)`. -/
def checkMembers (obj : Dict) (names : List Str) (what : Str) : Result Unit :=
  raiseIf (!(obj.keys.all names.contains && names.all obj.keys.contains))
    ⟨.nodeListMalformed, "% must have exactly the members %", .str what :: names.map .str⟩

/-- `_version(value, what)`. -/
def readVersion (value : Json) (what : Str) : Result Int :=
  orRaise (value.int?.filter fun n => 1 ≤ n && n ≤ maxVersion)
    ⟨.nodeListMalformed, "% must be an integer of at least 1, not %", [.str what, value]⟩

/-- The number of the digits between two places of a text. -/
def digitsAt (s : Str) (start len : Nat) : Int := Str.toNat ((s.drop start).take len)

/-- `YYYY-MM-DDTHH:MM:SSZ`, matched in full. -/
def isInstantText (s : Str) : Bool :=
  s.length == 20 && (List.range 20).all fun i =>
    match s[i]? with
    | none => false
    | some c =>
      if i = 4 || i = 7 then c == 45 else if i = 10 then c == 84
      else if i = 13 || i = 16 then c == 58 else if i = 19 then c == 90 else Str.isDigit c

/-- A leap year of the proleptic Gregorian calendar. -/
def isLeap (y : Int) : Bool := y % 4 == 0 && (y % 100 != 0 || y % 400 == 0)

/-- The days before each month of a common year. -/
def daysBeforeMonth : List Int := [0, 31, 59, 90, 120, 151, 181, 212, 243, 273, 304, 334]

/-- The days of a month. -/
def daysInMonth (y m : Int) : Int :=
  if m = 2 then (if isLeap y then 29 else 28)
  else if m = 4 ∨ m = 6 ∨ m = 9 ∨ m = 11 then 30 else 31

/-- `date(y, m, d).toordinal()`. -/
def toOrdinal (y m d : Int) : Int :=
  (y - 1) * 365 + (y - 1) / 4 - (y - 1) / 100 + (y - 1) / 400 +
    daysBeforeMonth.getD (m - 1).toNat 0 + (if 2 < m && isLeap y then 1 else 0) + d

/-- The ordinal of the epoch. -/
def epochOrdinal : Int := 719163

/-- `datetime(…, tzinfo=timezone.utc)` in microseconds since the epoch; `none` is its
`ValueError`. -/
def utcDateTime (y mo d h mi sec : Int) : Option Int :=
  if 1 ≤ y && y ≤ 9999 && 1 ≤ mo && mo ≤ 12 && 1 ≤ d && d ≤ daysInMonth y mo && 0 ≤ h && h ≤ 23 &&
      0 ≤ mi && mi ≤ 59 && 0 ≤ sec && sec ≤ 59 then
    some ((((toOrdinal y mo d - epochOrdinal) * 24 + h) * 60 + mi) * 60 * 1000000 + sec * 1000000)
  else none

/-- `_instant(value, what)`. -/
def readInstant (value : Json) (what : Str) : Result Int := do
  let text ← orRaise (value.str?.filter isInstantText) ⟨.nodeListMalformed,
    "% is not a YYYY-MM-DDTHH:MM:SSZ timestamp: %", [.str what, value]⟩
  orRaise (utcDateTime (digitsAt text 0 4) (digitsAt text 5 2) (digitsAt text 8 2)
      (digitsAt text 11 2) (digitsAt text 14 2) (digitsAt text 17 2))
    ⟨.nodeListMalformed, "% is not a real date and time: %", [.str what, value]⟩

/-- `sys.get_int_max_str_digits()`. -/
def maxStrDigits : Nat := 4300

/-- An exception whose message formats an integer, `f"{n}"`: past that many digits the formatting
raises instead. -/
def formatting (n : Int) (e : Err) : Err :=
  if 10 ^ maxStrDigits ≤ n.natAbs then
    ⟨.valueError, "Exceeds the limit (% digits) for integer string conversion; use sys.set_int_max_str_digits() to increase the limit",
      [.int maxStrDigits]⟩
  else e

/-- `_check_pair(what, version, digest, floor, last)`; a version is below `2 ** 63`, a floor need not
be. -/
def checkPair (what : Str) (version : Int) (digest : Str) (floor : Int) (last : Option Accepted) :
    Result Unit := do
  raiseIf (version < floor) <| formatting floor ⟨.nodeListRollback,
    "% version % is below the shipped floor %", [.str what, .int version, .int floor]⟩
  raiseIf (last.any fun a => version < a.version) ⟨.nodeListRollback,
    "% version % is lower than the last accepted %",
    [.str what, .int version, (last.map fun a => Json.int a.version).getD .null]⟩
  raiseIf (last.any fun a => version == a.version && digest != a.sha256) ⟨.nodeListRollback,
    "% version % is the last accepted version with different bytes", [.str what, .int version]⟩

/-- A label of a DNS name. -/
def isLabel (label : Str) : Bool :=
  1 ≤ label.length && label.length ≤ 63 && label.head? != some 45 && label.getLast? != some 45

/-- `_check_host(host, what)`. -/
def checkHost (host what : Str) : Result Unit :=
  raiseIf (253 < host.length || !(Str.split 46 host).all isLabel)
    ⟨.nodeListMalformed, "%: % is not a DNS name", [.str what, .str host]⟩

/-- A character of a bare origin after `https://`. -/
def isHostChar (c : Nat) : Bool := (97 ≤ c && c ≤ 122) || Str.isDigit c || c == 46 || c == 45

/-- `https://[a-z0-9.-]+`, matched in full. -/
def isBareOrigin (url : Str) : Bool :=
  url.startsWith "https://" && !(url.drop 8).isEmpty && (url.drop 8).all isHostChar

/-- `check_node_origin(url, environment, what)`. -/
def checkNodeOrigin (url : Json) (environment what : Str) : Result Str := do
  let start ← orRaise (originStart environment) ⟨.nodeListConfigError,
    "environment must be one of pilot, preprod, prod, not %", [.str environment]⟩
  let origin ← orRaise (url.str?.filter isBareOrigin)
    ⟨.nodeListMalformed, "% is not a bare https origin: %", [.str what, url]⟩
  raiseIf (!origin.startsWith start)
    ⟨.nodeListMalformed, "% does not start with %", [.str what, .str start]⟩
  checkHost (origin.drop 8) what
  return origin

/-- `[A-Z]{2}`, matched in full. -/
def isCountry (s : Str) : Bool := s.length == 2 && s.all fun c => 65 ≤ c && c ≤ 90

/-- Whether an organisation has a length from 1 to 200, no white space at its ends and no line
terminator. -/
def isOrganisation (s : Str) : Bool :=
  1 ≤ s.length && s.length ≤ 200 && !(s.head?.any isEcmaSpace) && !(s.getLast?.any isEcmaSpace) &&
    !s.any isEcmaLineTerminator

/-- `_node(entry, environment, seen, what)`; `seen` grows by the origin of the node. -/
def readNode (entry : Json) (environment : Str) (seen : List Str) (what : Str) : Result Node := do
  let entry ← orRaise entry.obj? ⟨.nodeListMalformed, "% must be a JSON object", [.str what]⟩
  checkMembers entry ["url", "country", "organisation"] what
  let url ← checkNodeOrigin (entry.get "url") environment (what ++ lit ".url")
  raiseIf (seen.contains url)
    ⟨.nodeListMalformed, "%.url is listed twice: %", [.str what, .str url]⟩
  let country ← orRaise ((entry.get "country").str?.filter isCountry)
    ⟨.nodeListMalformed, "%.country is not two upper-case letters", [.str what]⟩
  let organisation ← orRaise (entry.get "organisation").str?
    ⟨.nodeListMalformed, "%.organisation must be a string", [.str what]⟩
  raiseIf (Codec.encodeUtf8 organisation).isNone ⟨.nodeListMalformed,
    "%.organisation holds a lone UTF-16 surrogate", [.str what]⟩
  raiseIf (!isOrganisation organisation) ⟨.nodeListMalformed,
    "%.organisation is empty, over 200 characters, has leading or trailing whitespace or contains a line terminator",
    [.str what]⟩
  return ⟨url, url.drop 8, country, organisation⟩

/-- The nodes read so far, and those of the environment being read. -/
structure Reading where
  seen : List Str := []
  nodes : List Node := []

/-- One iteration of the loop over the entries of an environment. -/
def readEntry (environment : Str) (st : Reading) (i : Nat) (entry : Json) : Result Reading := do
  let node ← readNode entry environment st.seen
    (lit "environments." ++ environment ++ lit "[" ++ Str.ofNat i ++ lit "]")
  return ⟨st.seen ++ [node.origin], st.nodes ++ [node]⟩

/-- The nodes of each environment of a list, with the origins seen and the number of entries. -/
structure Parsed where
  seen : List Str := []
  total : Nat := 0
  nodes : List (Str × List Node) := []

/-- One iteration of the loop over the environments. -/
def readEnvironment (envs : Dict) (st : Parsed) (environment : Str) : Result Parsed :=
  match envs.get? environment with
  | none => .ok st
  | some entries => do
    let entries ← orRaise (entries.arr?.filter (!·.isEmpty)) ⟨.nodeListMalformed,
      "tnl.json environments.% must be a non-empty array", [.str environment]⟩
    raiseIf (maxNodes < st.total + entries.length)
      ⟨.nodeListMalformed, "tnl.json lists more than % nodes", [.int maxNodes]⟩
    let reading ← enumerateLoop (readEntry environment) ⟨st.seen, []⟩ 0 entries
    return ⟨reading.seen, st.total + entries.length, st.nodes ++ [(environment, reading.nodes)]⟩

/-- A `_Document`. -/
structure Document where
  version : Int
  keysVersion : Int
  issued : Int
  expires : Int
  environments : List (Str × List Node)

/-- Whether the environments of a list are one to three of those known. -/
def areEnvironments (envs : Dict) : Bool :=
  1 ≤ envs.length && envs.length ≤ environments.length && envs.keys.all environments.contains

/-- `_parse_list(raw)`. -/
def parseList (raw : Bytes) : Result Document := do
  let doc ← loadObject raw "tnl.json"
  checkMembers doc ["version", "keysVersion", "issued", "expires", "environments"] "tnl.json"
  let version ← readVersion (doc.get "version") "tnl.json version"
  let keysVersion ← readVersion (doc.get "keysVersion") "tnl.json keysVersion"
  let issued ← readInstant (doc.get "issued") "tnl.json issued"
  let expires ← readInstant (doc.get "expires") "tnl.json expires"
  raiseIf (!(issued < expires) || maxValidity < expires - issued) ⟨.nodeListMalformed,
    "tnl.json expires must be after issued and at most 90 days after", []⟩
  let envs ← orRaise ((doc.get "environments").obj?.filter areEnvironments) ⟨.nodeListMalformed,
    "tnl.json environments must hold one to three of pilot, preprod and prod, and nothing else", []⟩
  let parsed ← enumerateLoop (fun st _ environment => readEnvironment envs st environment) {} 0
    environments
  return ⟨version, keysVersion, issued, expires, parsed.nodes⟩

/-- A `_Custodian`. -/
structure Custodian where
  fingerprint : Str
  armor : Json

/-- One entry of the custodians of a key list. -/
def readCustodian (i : Nat) (entry : Json) : Result Custodian := do
  let entry ← orRaise entry.obj?
    ⟨.nodeListMalformed, "trusted-keys.json keys[%] must be a JSON object", [.int i]⟩
  checkMembers entry ["fingerprint", "publicKey"]
    (lit "trusted-keys.json keys[" ++ Str.ofNat i ++ lit "]")
  let fingerprint ← orRaise ((entry.get "fingerprint").str?.filter isFingerprint)
    ⟨.nodeListMalformed,
      "trusted-keys.json keys[%].fingerprint is not 40 upper-case hex characters", [.int i]⟩
  return ⟨fingerprint, entry.get "publicKey"⟩

/-- A parsed key list. -/
structure KeyList where
  version : Int
  threshold : Int
  custodians : List Custodian

/-- `_parse_key_list(raw)`. -/
def parseKeyList (raw : Bytes) : Result KeyList := do
  let doc ← loadObject raw "trusted-keys.json"
  checkMembers doc ["version", "threshold", "keys"] "trusted-keys.json"
  let version ← readVersion (doc.get "version") "trusted-keys.json version"
  let threshold ← orRaise (doc.get "threshold").int? ⟨.nodeListMalformed,
    "trusted-keys.json threshold must be an integer, not %", [doc.get "threshold"]⟩
  let keys ← orRaise
    ((doc.get "keys").arr?.filter fun l => 1 ≤ l.length && l.length ≤ maxCustodians)
    ⟨.nodeListMalformed, "trusted-keys.json keys must be an array of 1 to % custodians",
      [.int maxCustodians]⟩
  let custodians ← collect (fun p => readCustodian p.1 p.2) ((List.range keys.length).zip keys)
  return ⟨version, threshold, custodians⟩

/-- One iteration of `_read_custodians`. -/
def readCustodianKey (P : Primitives) (allowed : Allowed) (i : Nat) (custodian : Custodian) :
    Result Allowed := do
  let key ← readPublicKeyBlock P custodian.armor
  raiseIf (key.fingerprint != custodian.fingerprint) ⟨.nodeListMalformed,
    "trusted-keys.json keys[%]: the listed fingerprint is not the key's", [.int i]⟩
  raiseIf ((allowed.map Prod.fst).contains key.fingerprint ||
      (allowed.map fun p => p.2.point).contains key.point)
    ⟨.nodeListMalformed, "trusted-keys.json keys[%] repeats a custodian", [.int i]⟩
  return allowed ++ [(key.fingerprint, key)]

/-- `_read_custodians(custodians)`. -/
def readCustodians (P : Primitives) (custodians : List Custodian) : Result Allowed :=
  enumerateLoop (readCustodianKey P) [] 0 custodians

/-! ## The verifier -/

/-- The four byte strings. -/
structure Input where
  tnl : Bytes
  tnlSig : Bytes
  keys : Bytes
  keysSig : Bytes

/-- Stage 1: the arguments and the size caps. The result is the instant and the anchor's key. -/
def checkArguments (P : Primitives) (input : Input) (config : Config) :
    Result (Int × PublicKey) := do
  raiseIf (!environments.contains config.environment) ⟨.nodeListConfigError,
    "environment must be one of pilot, preprod, prod, not %", [.str config.environment]⟩
  let instant ← requiredInstant config.now
  let anchor ← anchorKey P config.anchor
  checkFloor config.listFloor "list_floor"
  checkFloor config.keysFloor "keys_floor"
  raiseIf (config.maxAge.any (· ≤ 0)) ⟨.nodeListConfigError,
    "max_age must be a positive timedelta or None, not %",
    [(config.maxAge.map Json.int).getD .null]⟩
  checkMinimum config.minThreshold
  checkSize input.tnl "tnl" maxListBytes
  checkSize input.tnlSig "tnl_sig" maxSignatureFileBytes
  checkSize input.keys "keys" maxKeysBytes
  checkSize input.keysSig "keys_sig" maxSignatureFileBytes
  return (instant, anchor)

/-- `hashlib.sha256(data).hexdigest()`. -/
def hexDigest (P : Primitives) (data : Bytes) : Str := hexLower (P.sha256 data)

/-- Stages 2 and 3: the key list, signed by the anchor, against the last accepted one and the
threshold asked for. -/
def checkKeyList (P : Primitives) (input : Input) (config : Config) (anchor : PublicKey)
    (last : Option Accepted) : Result KeyList := do
  let signatures ← readSignatures input.keysSig
  let signers ← verifiedSigners P signatures input.keys [(anchor.fingerprint, anchor)]
  raiseIf (!signers.contains anchor.fingerprint)
    ⟨.nodeListSignatureError, "trusted-keys.json is not signed by the anchor", []⟩
  let keyList ← parseKeyList input.keys
  checkPair "trusted-keys.json" keyList.version (hexDigest P input.keys) config.keysFloor last
  raiseIf (!(1 ≤ keyList.threshold && keyList.threshold ≤ keyList.custodians.length))
    ⟨.nodeListMalformed, "trusted-keys.json threshold % is not between 1 and the % custodians",
      [.int keyList.threshold, .int keyList.custodians.length]⟩
  raiseIf (config.minThreshold.any fun m => keyList.threshold < m) <|
    formatting (config.minThreshold.getD 0) ⟨.nodeListThresholdError,
      "trusted-keys.json threshold % is below the minimum %",
      [.int keyList.threshold, (config.minThreshold.map Json.int).getD .null]⟩
  return keyList

/-- Stages 4 and 5: the custodians, and that the threshold of them signed the node list. -/
def checkThreshold (P : Primitives) (input : Input) (keyList : KeyList) : Result Unit := do
  let custodians ← readCustodians P keyList.custodians
  let signatures ← readSignatures input.tnlSig
  let signers ← verifiedSigners P signatures input.tnl custodians
  raiseIf ((signers.length : Int) < keyList.threshold) ⟨.nodeListThresholdError,
    "tnl.json is signed by % distinct custodians, % are required",
    [.int signers.length, .int keyList.threshold]⟩

/-- Stage 6: the node list itself. -/
def checkList (P : Primitives) (input : Input) (config : Config) (instant : Int)
    (keyList : KeyList) (last : Option Accepted) : Result Document := do
  let document ← parseList input.tnl
  checkPair "tnl.json" document.version (hexDigest P input.tnl) config.listFloor last
  raiseIf (keyList.version < document.keysVersion) ⟨.nodeListRollback,
    "tnl.json needs key list version %, the key list given is version %",
    [.int document.keysVersion, .int keyList.version]⟩
  raiseIf (document.expires ≤ instant)
    ⟨.nodeListExpired, "the node list expired at %", [.int document.expires]⟩
  raiseIf (skew < document.issued - instant) ⟨.nodeListNotYetValid,
    "the node list was issued at %, after now plus 300 s", [.int document.issued]⟩
  raiseIf (config.maxAge.any fun age => age < instant - document.issued) ⟨.nodeListStale,
    "the node list was issued at %, over max_age ago", [.int document.issued]⟩
  return document

/-- `verify_node_list(tnl, tnl_sig, keys, keys_sig, …, last_accepted_list, last_accepted_keys, …)`. -/
def verifyNodeList (P : Primitives) (input : Input) (config : Config)
    (lastList lastKeys : Option Accepted) : Result VerifiedNodeList := do
  let (instant, anchor) ← checkArguments P input config
  let keyList ← checkKeyList P input config anchor lastKeys
  checkThreshold P input keyList
  let document ← checkList P input config instant keyList lastList
  let nodes ← orRaise (document.environments.lookup config.environment)
    ⟨.nodeListEnvironmentMissing, "the node list has no % environment", [.str config.environment]⟩
  let acceptedList ← Accepted.init document.version (hexDigest P input.tnl)
  let acceptedKeys ← Accepted.init keyList.version (hexDigest P input.keys)
  return ⟨config.environment, document.version, document.keysVersion, document.issued,
    document.expires, nodes, acceptedList, acceptedKeys⟩

end OpenVC.Nodes
