import OpenVC.Ebsi.OpenPgp
import OpenVC.Mdoc
import OpenVC.Pipeline
import OpenVC.Python.Calendar
import OpenVC.TrustList.Model

/-!
# Lists of Trusted Entities (`openvc.trustlist.lote`)

A signed JSON list: the compact JWS, its signer against the certificates the caller pins, the strict
parse of the payload, the binding of the signer's name to the scheme operator and, under a profile,
the profile's gate.
-/

namespace OpenVC.Lote

open Python TrustList

/-- The interpreter and the packages outside the library. -/
structure Env where
  interpreter : Interpreter
  crypto : Crypto
  x509 : SignerX509
  /-- `public_bytes(Encoding.DER)`. -/
  der : x509.Certificate → Bytes
  /-- The values of `organizationName` in the subject. -/
  organizationNames : x509.Certificate → Result (List Str)
  /-- The values of `countryName` in the subject. -/
  countryNames : x509.Certificate → Result (List Str)
  /-- What `fromisoformat` reads of `YYYY-MM-DDThh:mm:ss+00:00` besides the seconds of the calendar:
  later interpreters take `24:00:00` for the midnight that ends the day. -/
  midnight : Str → Option UtcDateTime

/-- A certificate. -/
abbrev Cert (E : Env) := E.x509.Certificate

/-- A `LoteProfile`. -/
structure LoteProfile where
  name : Str
  loteType : Str
  statusDetermination : List Str
  schemeRules : Str
  territory : Str
  serviceTypes : List Str
  anchorServiceTypes : List Str
  maxUpdateMonths : Int := 6

/-- `EU_WRPAC_PROVIDERS_PROFILE`. -/
def euWrpacProvidersProfile : LoteProfile where
  name := "EU WRPAC providers list (TS 119 602 Annex F)"
  loteType := "http://uri.etsi.org/19602/LoTEType/EUWRPACProvidersList"
  statusDetermination := ["http://uri.etsi.org/19602/WRPACProvidersList/StatusDetn/EU"]
  schemeRules := "http://uri.etsi.org/19602/WRPACProvidersList/schemerules/EU"
  territory := "EU"
  serviceTypes := ["http://uri.etsi.org/19602/SvcType/WRPAC/Issuance",
    "http://uri.etsi.org/19602/SvcType/WRPAC/Revocation"]
  anchorServiceTypes := ["http://uri.etsi.org/19602/SvcType/WRPAC/Issuance"]

/-- `EU_WRPRC_PROVIDERS_PROFILE`: both spellings of the status determination. -/
def euWrprcProvidersProfile : LoteProfile where
  name := "EU WRPRC providers list (TS 119 602 Annex G)"
  loteType := "http://uri.etsi.org/19602/LoTEType/EUWRPRCProvidersList"
  statusDetermination := ["http://uri.etsi.org/19602/WRPRCrovidersList/StatusDetn/EU",
    "http://uri.etsi.org/19602/WRPRCProvidersList/StatusDetn/EU"]
  schemeRules := "http://uri.etsi.org/19602/WRPRCProvidersList/schemerules/EU"
  territory := "EU"
  serviceTypes := ["http://uri.etsi.org/19602/SvcType/WRPRC/Issuance",
    "http://uri.etsi.org/19602/SvcType/WRPRC/Revocation"]
  anchorServiceTypes := ["http://uri.etsi.org/19602/SvcType/WRPRC/Issuance"]

/-! ## Strict structural parsing -/

/-- `_require_mapping(value, ctx)`. -/
def requireMapping (value : Json) (ctx : Str) : Result Dict :=
  orRaise value.obj? ⟨.trustListParseError, "% must be a JSON object", [.str ctx]⟩

/-- `_require_list(value, ctx)`. -/
def requireList (value : Json) (ctx : Str) : Result (List Json) :=
  orRaise value.arr? ⟨.trustListParseError, "% must be a JSON array", [.str ctx]⟩

/-- `_require_str(value, ctx)`. -/
def requireStr (value : Json) (ctx : Str) : Result Str :=
  orRaise value.str? ⟨.trustListParseError, "% must be a string", [.str ctx]⟩

/-- `_require_int(value, ctx)`. -/
def requireInt (value : Json) (ctx : Str) : Result Int :=
  orRaise value.int? ⟨.trustListParseError, "% must be an integer", [.str ctx]⟩

/-- A list that must have an element. -/
def requireItems (value : Json) (ctx : Str) : Result (List Json) := do
  let items ← requireList value ctx
  raiseIf items.isEmpty ⟨.trustListParseError, "% must not be empty", [.str ctx]⟩
  return items

/-- `sorted(names)`, as the argument of a message. -/
def sortedNames (names : List Str) : Json :=
  .arr ((names.insertionSort fun a b => a ≤ b).map .str)

/-- `_check_keys(obj, allowed, required, ctx)`. -/
def checkKeys (obj : Dict) (allowed required : List Str) (ctx : Str) : Result Unit := do
  let unknown := obj.keys.filter fun k => !allowed.contains k
  raiseIf (!unknown.isEmpty)
    ⟨.trustListParseError, "% carries unknown member(s) %", [.str ctx, sortedNames unknown]⟩
  let missing := required.filter fun k => !obj.has k
  raiseIf (!missing.isEmpty)
    ⟨.trustListParseError, "% is missing required member(s) %", [.str ctx, sortedNames missing]⟩

/-- `f"{ctx}[{i}]"`. -/
def entryCtx (ctx : Str) (i : Nat) : Str := ctx ++ 91 :: (Str.ofNat i ++ [93])

/-- `f"{ctx}.{name}"`. -/
def memberCtx (ctx name : Str) : Str := ctx ++ 46 :: name

/-- A member that may be absent. -/
def optional {α : Type} (obj : Dict) (key : Str) (read : Json → Result α) : Result (Option α) :=
  match obj.get? key with
  | none => .ok none
  | some value => do
    let a ← read value
    return some a

/-- One entry of a multilingual sequence: its language and its text. -/
def mlEntry (textKey ctx : Str) (item : Json × Nat) : Result (Str × Str) := do
  let entry ← requireMapping item.1 (entryCtx ctx item.2)
  checkKeys entry ["lang", textKey] ["lang", textKey] (entryCtx ctx item.2)
  let lang ← requireStr (entry.get "lang") (memberCtx (entryCtx ctx item.2) "lang")
  let text ← requireStr (entry.get textKey) (memberCtx (entryCtx ctx item.2) textKey)
  return (lang, text)

/-- A non-empty multilingual sequence. -/
def mlEntries (textKey : Str) (value : Json) (ctx : Str) : Result (List (Str × Str)) := do
  let items ← requireItems value ctx
  collect (mlEntry textKey ctx) items.zipIdx

/-- `_ml_strings(value, ctx)`: the values, the English ones first. -/
def mlStrings (I : Interpreter) (value : Json) (ctx : Str) : Result (List Str) := do
  let entries ← mlEntries "value" value ctx
  let (english, other) := entries.partition fun e => I.lower e.1 == lit "en"
  return (english ++ other).map (·.2)

/-- `_ml_uris(value, ctx)`. -/
def mlUris (value : Json) (ctx : Str) : Result (List Str) := do
  let entries ← mlEntries "uriValue" value ctx
  return entries.map (·.2)

/-- The form of `_DATETIME_Z`, a `0` standing for a decimal digit. -/
def datetimeForm : Str := "0000-00-00T00:00:00Z"

/-- `_DATETIME_Z.fullmatch(text)`. -/
def matchesDatetimeZ (I : Interpreter) (text : Str) : Bool :=
  text.length == datetimeForm.length &&
    (text.zip datetimeForm).all fun p => if p.2 = 48 then I.isDecimal p.1 else p.1 == p.2

variable (E : Env)

/-- `datetime.fromisoformat(text)` on a text of the form `YYYY-MM-DDThh:mm:ss+00:00`. -/
def fromIsoFormat (text : Str) : Option UtcDateTime := (UtcDateTime.readIso text).or (E.midnight text)

/-- `_datetime_z(value, ctx)`. -/
def datetimeZ (value : Json) (ctx : Str) : Result UtcDateTime := do
  let text ← requireStr value ctx
  raiseIf (!matchesDatetimeZ E.interpreter text) ⟨.trustListParseError,
    "% must be a UTC date-time of the exact YYYY-MM-DDThh:mm:ssZ form (clause 6.1.3), got %",
    [.str ctx, .str text]⟩
  orRaise (fromIsoFormat E (text.dropLast ++ lit "+00:00"))
    ⟨.trustListParseError, "% is not a valid date-time: %", [.str ctx, .str text]⟩

/-- `value is True`. -/
def isTrue : Json → Bool
  | .bool b => b
  | _ => false

/-- Whether an extension says it is critical. -/
def isCritical : Json → Bool
  | .obj item => isTrue (Dict.get item "critical") || isTrue (Dict.get item "Critical")
  | _ => false

/-- One extension. -/
def rejectCritical (ctx : Str) (item : Json × Nat) : Result Unit :=
  raiseIf (isCritical item.1) ⟨.trustListParseError,
    "% is a critical extension this verifier does not recognise (clause 6.3.17: a LoTE with an unrecognised critical extension is rejected)",
    [.str (entryCtx ctx item.2)]⟩

/-- `_reject_critical_extensions(value, ctx)`. -/
def rejectCriticalExtensions (value : Json) (ctx : Str) : Result Unit := do
  let items ← requireItems value ctx
  each (rejectCritical ctx) items.zipIdx

/-! ## Certificates -/

/-- `x509.load_der_x509_certificate(base64.b64decode(val, validate=True))`; `none` is an exception. -/
def loadCertificate (val : Str) : Option (Cert E) :=
  (OpenPgp.b64decode val).bind fun der => (E.x509.loadDer der).toOption

/-- One entry of `X509Certificates`; `none` is one that was dropped. -/
def readCertificate (ctx : Str) (item : Json × Nat) : Result (Option (Cert E)) := do
  let ob ← requireMapping item.1 (entryCtx ctx item.2)
  checkKeys ob ["encoding", "specRef", "val"] ["val"] (entryCtx ctx item.2)
  let val ← requireStr (ob.get "val") (memberCtx (entryCtx ctx item.2) "val")
  return loadCertificate E val

/-- The certificates of `X509Certificates`. -/
def readCertificates (ctx : Str) (value : Json) : Result (List (Cert E)) := do
  let entries ← requireItems value ctx
  let certs ← collect (readCertificate E ctx) entries.zipIdx
  return certs.filterMap id

/-- The members of a `ServiceDigitalIdentity`. -/
def sdiKeys : List Str :=
  ["X509Certificates", "X509SubjectNames", "PublicKeyValues", "X509SKIs", "OtherIds"]

/-- `_certs_from_sdi(value, ctx)`. -/
def certsFromSdi (value : Json) (ctx : Str) : Result (List (Cert E)) := do
  let sdi ← requireMapping value ctx
  checkKeys sdi sdiKeys [] ctx
  let certs ← optional sdi "X509Certificates"
    (readCertificates E (memberCtx ctx "X509Certificates"))
  return certs.getD []

/-! ## Pointers -/

/-- `_QUALIFIER_KEYS`. -/
def qualifierKeys : List Str :=
  ["LoTEType", "SchemeOperatorName", "SchemeTypeCommunityRules", "SchemeTerritory", "MimeType"]

/-- What the qualifiers read so far say: `territory`, `lote_type` and `mime_type`. -/
structure Qualifiers where
  territory : Option Str := none
  loteType : Option Str := none
  mimeType : Option Str := none

/-- `if current is None: current = read`. -/
def firstOf (current : Option Str) (read : Result (Option Str)) : Result (Option Str) :=
  match current with
  | some text => .ok (some text)
  | none => read

/-- One qualifier of a pointer. -/
def readQualifier (ctx : Str) (st : Qualifiers) (i : Nat) (q : Json) : Result Qualifiers := do
  let qual ← requireMapping q (entryCtx ctx i)
  checkKeys qual qualifierKeys ["LoTEType", "SchemeOperatorName", "MimeType"] (entryCtx ctx i)
  let text := fun (key : Str) =>
    optional qual key fun value => requireStr value (memberCtx (entryCtx ctx i) key)
  let loteType ← firstOf st.loteType (text "LoTEType")
  let mimeType ← firstOf st.mimeType (text "MimeType")
  let territory ← firstOf st.territory (text "SchemeTerritory")
  return ⟨territory, loteType, mimeType⟩

/-- The members of a pointer. -/
def pointerKeys : List Str := ["LoTELocation", "ServiceDigitalIdentities", "LoTEQualifiers"]

/-- `_parse_pointer(value, ctx)`. -/
def parsePointer (value : Json) (ctx : Str) : Result (TslPointer (Cert E)) := do
  let ptr ← requireMapping value ctx
  checkKeys ptr pointerKeys pointerKeys ctx
  let location ← requireStr (ptr.get "LoTELocation") (memberCtx ctx "LoTELocation")
  let sdisCtx := memberCtx ctx "ServiceDigitalIdentities"
  let sdis ← requireItems (ptr.get "ServiceDigitalIdentities") sdisCtx
  let certs ← collect (fun sdi : Json × Nat => certsFromSdi E sdi.1 (entryCtx sdisCtx sdi.2))
    sdis.zipIdx
  let qualifiersCtx := memberCtx ctx "LoTEQualifiers"
  let qualifiers ← requireItems (ptr.get "LoTEQualifiers") qualifiersCtx
  let q ← enumerateLoop (readQualifier qualifiersCtx) {} 0 qualifiers
  return ⟨location, certs.flatten, q.territory, q.loteType, q.mimeType⟩

/-! ## Services and entities -/

/-- `_SERVICE_INFO_KEYS`. -/
def serviceInfoKeys : List Str :=
  ["ServiceName", "ServiceDigitalIdentity", "ServiceTypeIdentifier", "ServiceStatus",
    "StatusStartingTime", "SchemeServiceDefinitionURI", "ServiceSupplyPoints",
    "ServiceDefinitionURI", "ServiceInformationExtensions"]

/-- `_parse_service(value, ctx, te_name, territory)`. -/
def parseService (teName : Option Str) (territory : Option Str) (value : Json) (ctx : Str) :
    Result (List (TrustServiceAnchor (Cert E))) := do
  let svc ← requireMapping value ctx
  checkKeys svc ["ServiceInformation", "ServiceHistory"] ["ServiceInformation"] ctx
  let infoCtx := memberCtx ctx "ServiceInformation"
  let info ← requireMapping (svc.get "ServiceInformation") infoCtx
  checkKeys info serviceInfoKeys ["ServiceName", "ServiceDigitalIdentity"] infoCtx
  let names ← mlStrings E.interpreter (info.get "ServiceName") (memberCtx infoCtx "ServiceName")
  let serviceType ← optional info "ServiceTypeIdentifier"
    (requireStr · (memberCtx infoCtx "ServiceTypeIdentifier"))
  let serviceStatus ← optional info "ServiceStatus"
    (requireStr · (memberCtx infoCtx "ServiceStatus"))
  let _ ← optional info "StatusStartingTime"
    (datetimeZ E · (memberCtx infoCtx "StatusStartingTime"))
  let _ ← optional info "ServiceInformationExtensions"
    (rejectCriticalExtensions · (memberCtx infoCtx "ServiceInformationExtensions"))
  let certs ← certsFromSdi E (info.get "ServiceDigitalIdentity")
    (memberCtx infoCtx "ServiceDigitalIdentity")
  return certs.map fun cert =>
    ⟨cert, serviceType.getD [], serviceStatus.getD [], teName, names.head?, territory⟩

/-- `_TE_INFO_KEYS`. -/
def teInfoKeys : List Str :=
  ["TEName", "TETradeName", "TEAddress", "TEInformationURI", "TEInformationExtensions"]

/-- The members of a trusted entity. -/
def entityKeys : List Str := ["TrustedEntityInformation", "TrustedEntityServices"]

/-- `_parse_entity(value, ctx, territory)`. -/
def parseEntity (territory : Option Str) (value : Json) (ctx : Str) :
    Result (TrustServiceProvider (Cert E)) := do
  let entity ← requireMapping value ctx
  checkKeys entity entityKeys entityKeys ctx
  let infoCtx := memberCtx ctx "TrustedEntityInformation"
  let info ← requireMapping (entity.get "TrustedEntityInformation") infoCtx
  checkKeys info teInfoKeys ["TEName", "TEAddress", "TEInformationURI"] infoCtx
  let names ← mlStrings E.interpreter (info.get "TEName") (memberCtx infoCtx "TEName")
  let _ ← requireMapping (info.get "TEAddress") (memberCtx infoCtx "TEAddress")
  let _ ← mlUris (info.get "TEInformationURI") (memberCtx infoCtx "TEInformationURI")
  let _ ← optional info "TEInformationExtensions"
    (rejectCriticalExtensions · (memberCtx infoCtx "TEInformationExtensions"))
  let servicesCtx := memberCtx ctx "TrustedEntityServices"
  let rawServices ← requireItems (entity.get "TrustedEntityServices") servicesCtx
  let services ← collect
    (fun s : Json × Nat => parseService E names.head? territory s.1 (entryCtx servicesCtx s.2))
    rawServices.zipIdx
  return ⟨names.head?, services.flatten⟩

/-! ## The list -/

/-- `_SCHEME_KEYS`. -/
def schemeKeys : List Str :=
  ["LoTEVersionIdentifier", "LoTESequenceNumber", "LoTEType", "SchemeOperatorName",
    "SchemeOperatorAddress", "SchemeName", "SchemeInformationURI", "StatusDeterminationApproach",
    "SchemeTypeCommunityRules", "SchemeTerritory", "PolicyOrLegalNotice",
    "HistoricalInformationPeriod", "PointersToOtherLoTE", "ListIssueDateTime", "NextUpdate",
    "DistributionPoints", "SchemeExtensions"]

/-- `_SCHEME_REQUIRED`. -/
def schemeRequired : List Str :=
  ["LoTEVersionIdentifier", "LoTESequenceNumber", "SchemeOperatorName", "ListIssueDateTime",
    "NextUpdate"]

/-- `DistributionPoints`. -/
def checkDistributionPoints (value : Json) : Result Unit := do
  let points ← requireItems value "DistributionPoints"
  each (fun p : Json × Nat =>
    (requireStr p.1 (entryCtx "DistributionPoints" p.2)).map fun _ => ()) points.zipIdx

/-- The members of the scheme information that are checked and not kept. -/
def checkScheme (scheme : Dict) : Result Unit := do
  let _ ← optional scheme "HistoricalInformationPeriod" (requireInt · "HistoricalInformationPeriod")
  let _ ← optional scheme "StatusDeterminationApproach" (requireStr · "StatusDeterminationApproach")
  let _ ← optional scheme "SchemeTypeCommunityRules" (mlUris · "SchemeTypeCommunityRules")
  let _ ← optional scheme "SchemeName" (mlStrings E.interpreter · "SchemeName")
  let _ ← optional scheme "SchemeInformationURI" (mlUris · "SchemeInformationURI")
  let _ ← optional scheme "SchemeOperatorAddress" (requireMapping · "SchemeOperatorAddress")
  let _ ← optional scheme "PolicyOrLegalNotice" (requireList · "PolicyOrLegalNotice")
  let _ ← optional scheme "DistributionPoints" checkDistributionPoints
  let _ ← optional scheme "SchemeExtensions" (rejectCriticalExtensions · "SchemeExtensions")
  return ()

/-- `NextUpdate`, `None` for a closed list. -/
def readNextUpdate (value : Json) : Result (Option UtcDateTime) :=
  if value.isNull then .ok none
  else do
    let nextUpdate ← datetimeZ E value "NextUpdate"
    return some nextUpdate

/-- `PointersToOtherLoTE`. -/
def readPointers (value : Json) : Result (List (TslPointer (Cert E))) := do
  let rawPtrs ← requireItems value "PointersToOtherLoTE"
  collect (fun p : Json × Nat => parsePointer E p.1 (entryCtx "PointersToOtherLoTE" p.2))
    rawPtrs.zipIdx

/-- `TrustedEntitiesList`. -/
def readEntities (territory : Option Str) (value : Json) :
    Result (List (TrustServiceProvider (Cert E))) := do
  let entities ← requireItems value "TrustedEntitiesList"
  collect (fun e : Json × Nat => parseEntity E territory e.1 (entryCtx "TrustedEntitiesList" e.2))
    entities.zipIdx

/-- `parse_lote(payload)` on a decoded object. -/
def parseLoteObject (decoded : Json) : Result (TrustedList (Cert E)) := do
  let root ← requireMapping decoded "LoTE document"
  checkKeys root ["LoTE"] ["LoTE"] "LoTE document"
  let lote ← requireMapping (root.get "LoTE") "LoTE"
  checkKeys lote ["ListAndSchemeInformation", "TrustedEntitiesList"] ["ListAndSchemeInformation"]
    "LoTE"
  let scheme ← requireMapping (lote.get "ListAndSchemeInformation") "ListAndSchemeInformation"
  checkKeys scheme schemeKeys schemeRequired "ListAndSchemeInformation"
  let version ← requireInt (scheme.get "LoTEVersionIdentifier") "LoTEVersionIdentifier"
  let sequence ← requireInt (scheme.get "LoTESequenceNumber") "LoTESequenceNumber"
  let operatorNames ← mlStrings E.interpreter (scheme.get "SchemeOperatorName") "SchemeOperatorName"
  let loteType ← optional scheme "LoTEType" (requireStr · "LoTEType")
  let territory ← optional scheme "SchemeTerritory" (requireStr · "SchemeTerritory")
  checkScheme E scheme
  let issue ← datetimeZ E (scheme.get "ListIssueDateTime") "ListIssueDateTime"
  let nextUpdate ← readNextUpdate E (scheme.get "NextUpdate")
  let pointers ← optional scheme "PointersToOtherLoTE" (readPointers E)
  let providers ← optional lote "TrustedEntitiesList" (readEntities E territory)
  return ⟨loteType, operatorNames.head?, territory, some sequence, some issue.isoformat,
    nextUpdate.map (·.toDateTime), pointers.getD [], providers.getD [], some version⟩

/-- `parse_lote(payload, max_bytes)` on bytes. -/
def parseLoteBytes (payload : Bytes) (maxBytes : Int) : Result (TrustedList (Cert E)) := do
  raiseIf (maxBytes < payload.length) ⟨.trustListParseError,
    "LoTE is % bytes, over the %-byte cap", [.int payload.length, .int maxBytes]⟩
  let decoded ← reraise (loadsBytes payload) (·.cls.isa .valueError) .trustListParseError
    "LoTE is not valid JSON: " []
  parseLoteObject E decoded

/-! ## Signed consumption -/

/-- A LoTE token. -/
inductive Token where
  | str (s : Str)
  | bytes (b : Bytes)

/-- `bytes(token).decode("ascii")`, for a token of bytes. -/
def Token.text : Token → Result Str
  | .str s => .ok s
  | .bytes b => do
    raiseIf (!b.all (· < 128))
      ⟨.trustListParseError, "a compact JAdES LoTE must be ASCII", []⟩
    return b.map (·.toNat)

/-- `_KNOWN_CRIT`. -/
def knownCrit : List Str := ["alg", "typ", "x5c", "iat"]

/-- The names in a `crit` header; `none` when it is not a non-empty array of strings. -/
def critNames : Json → Option (List Str)
  | .arr l => if !l.isEmpty && l.all (·.str?.isSome) then some (l.filterMap Json.str?) else none
  | _ => none

/-- The rules on a `crit` header that is present. -/
def checkCrit (header : Dict) (crit : Json) : Result Unit := do
  let names ← orRaise (critNames crit)
    ⟨.trustListSignatureError, "LoTE 'crit' must be a non-empty array of strings", []⟩
  let unknown := names.filter fun c => !knownCrit.contains c
  raiseIf (!unknown.isEmpty) ⟨.trustListSignatureError,
    "LoTE marks header parameter(s) % critical, which this verifier does not process (understood: %)",
    [.arr (unknown.map .str), sortedNames knownCrit]⟩
  let missing := names.filter fun c => !header.has c
  raiseIf (!missing.isEmpty) ⟨.trustListSignatureError,
    "LoTE 'crit' names header parameter(s) % that are not present", [.arr (missing.map .str)]⟩

/-- `_reject_unknown_crit(header)`. -/
def rejectUnknownCrit (header : Dict) : Result Unit :=
  match header.get? "crit" with
  | none => .ok ()
  | some crit => checkCrit header crit

/-- The failures `except X5cError` catches. -/
def x5cFailed (e : Err) : Bool := e.cls.isa .x5cError

/-- `_signer_chain(header)`. -/
def signerChain (header : Dict) : Result (X5c.Chain E.x509.toX509) := do
  raiseIf (header.get "x5c").isNull ⟨.trustListSignatureError,
    "LoTE JWS header has no 'x5c' chain to identify the scheme operator (TS 119 182-1 clause 5.1.7 requires a signing-certificate reference)",
    []⟩
  reraise (X5c.loadX5cChain E.x509.toX509 (header.get "x5c")) x5cFailed .trustListSignatureError
    "LoTE 'x5c': " []

/-- A pinned leaf must be inside its own validity window. -/
def checkPinnedWindow (leaf : Cert E) (now : Option DateTime) : Result Unit := do
  let instant ← utcInstant E.interpreter now .trustListError
  raiseIf (!(E.x509.notValidBefore leaf ≤ instant && instant ≤ E.x509.notValidAfter leaf))
    ⟨.trustListSignatureError,
      "LoTE signing certificate matches a pinned certificate but is outside its own validity window",
      []⟩

/-- A leaf that is not pinned must have a path to the pinned certificates. -/
def validatePath (chain : X5c.Chain E.x509.toX509) (expected : List (Cert E))
    (now : Option DateTime) : Result Unit :=
  let validated := X5c.validateCertChain E.x509.toX509 E.interpreter chain expected now
  reraise validated x5cFailed .trustListSignatureError
    "LoTE signing certificate is not pinned and did not validate to the pinned set: " []

/-- `_authenticate_signer(leaf, chain, expected, now)`. -/
def authenticateSigner (chain : X5c.Chain E.x509.toX509) (expected : List (Cert E))
    (now : Option DateTime) : Result Unit := do
  raiseIf expected.isEmpty ⟨.trustListSignatureError,
    "no expected signer certificates given (a sequence of x509.Certificate objects) — a LoTE is never trusted unverified",
    []⟩
  if expected.any fun c => E.der chain.1 == E.der c then checkPinnedWindow E chain.1 now
  else validatePath E chain expected now

/-- The subject's country, where the list names a territory. -/
def checkSignerCountry (leaf : Cert E) (territory : Str) : Result Unit := do
  let countries ← E.countryNames leaf
  raiseIf (!countries.contains territory) ⟨.trustListSignatureError,
    "LoTE signing certificate countryName % does not match the SchemeTerritory % (clause 6.8)",
    [.arr (countries.map .str), .str territory]⟩

/-- `_check_signer_dn(leaf, scheme, territory)`. -/
def checkSignerDn (leaf : Cert E) (scheme : Dict) (territory : Option Str) : Result Unit := do
  let names ← mlStrings E.interpreter (scheme.get "SchemeOperatorName") "SchemeOperatorName"
  let orgs ← E.organizationNames leaf
  raiseIf (!orgs.any fun o => names.contains o) ⟨.trustListSignatureError,
    "LoTE signing certificate organizationName % matches no SchemeOperatorName value (clause 6.8)",
    [.arr (orgs.map .str)]⟩
  match territory with
  | none => .ok ()
  | some territory => checkSignerCountry E leaf territory

/-! ## The profile gate -/

/-- `dt.replace(year=year, month=month, day=day)`. -/
def replaceDate (dt : UtcDateTime) (year : Int) (month day : Nat) : Result UtcDateTime :=
  if year < -2147483648 ∨ 2147483647 < year then
    raise .overflowError "Python int too large to convert to C int" []
  else if year < 0 then raise .valueError "year % is out of range" [.int year]
  else orRaise (UtcDateTime.ofFields year.toNat month day dt.hour dt.minute dt.second)
    ⟨.valueError, "year % is out of range", [.int year]⟩

/-- `_plus_months(dt, months)`. -/
def plusMonths (dt : UtcDateTime) (months : Int) : Result UtcDateTime :=
  let month : Int := dt.month - 1 + months
  let year : Int := dt.year + month / 12
  let month : Nat := (month % 12).toNat + 1
  replaceDate dt year month (min dt.day (monthDays year month))

/-- `fail(detail)`. -/
def failure (profile : LoteProfile) (detail : String) (args : List Json) : Err :=
  ⟨.trustListProfileError, "%: " ++ detail, .str profile.name :: args⟩

/-- An optional text, as the argument of a message. -/
def optionalText (text : Option Str) : Json := (text.map Json.str).getD .null

/-- `NextUpdate` is within the profile's window. -/
def checkUpdateWindow (profile : LoteProfile) (issue : UtcDateTime) (nextUpdate : DateTime) :
    Result Unit := do
  let ceiling ← recast (plusMonths issue profile.maxUpdateMonths) .valueError
    (failure profile
      "ListIssueDateTime % is too far in the future to evaluate the %-month update window"
      [.str issue.isoformat, .int profile.maxUpdateMonths])
  raiseIf (ceiling.toDateTime.instant < nextUpdate.instant)
    (failure profile "NextUpdate % is more than % months after ListIssueDateTime %"
      [.int nextUpdate.instant, .int profile.maxUpdateMonths, .str issue.isoformat])

/-- `NextUpdate`, where the list is not closed. -/
def checkNextUpdate (profile : LoteProfile) (issue : UtcDateTime) :
    Option DateTime → Result Unit
  | none => .ok ()
  | some nextUpdate => checkUpdateWindow profile issue nextUpdate

/-- The type of one anchor. -/
def checkServiceType {Cert : Type} (profile : LoteProfile) (provider : Option Str)
    (svc : TrustServiceAnchor Cert) : Result Unit :=
  raiseIf (!profile.serviceTypes.contains svc.serviceType) (failure profile
    "ServiceTypeIdentifier % (service % of %) is outside the profile's exclusive set %"
    [.str svc.serviceType, optionalText svc.serviceName, optionalText provider,
      sortedNames profile.serviceTypes])

/-- The objects that are elements of a list; what `v or []` iterates over. -/
def objectsOf (v : Json) : List Dict := (v.arr?.getD []).filterMap Json.obj?

/-- The `ServiceInformation` objects on the wire. -/
def serviceInfos (lote : Dict) : List Dict :=
  let entities := objectsOf (lote.get "TrustedEntitiesList")
  let services := entities.flatMap fun entity => objectsOf (entity.get "TrustedEntityServices")
  services.filterMap fun svc => (svc.get "ServiceInformation").obj?

/-- The members that a service of a profiled list shall not carry. -/
def checkNoStatus (profile : LoteProfile) (info : Dict) : Result Unit := do
  raiseIf (info.has "ServiceStatus") (failure profile "ServiceStatus shall not be used" [])
  raiseIf (info.has "StatusStartingTime")
    (failure profile "StatusStartingTime shall not be used" [])

/-- The `SchemeTypeCommunityRules` of a scheme. -/
def schemeRulesOf (scheme : Dict) : Result (List Str) := do
  let rules ← optional scheme "SchemeTypeCommunityRules" (mlUris · "SchemeTypeCommunityRules")
  return rules.getD []

/-- Whether a value is one of the accepted spellings. -/
def isOneOf (spellings : List Str) : Json → Bool
  | .str s => spellings.contains s
  | _ => false

/-- The scheme information against the profile. -/
def checkProfileScheme {Cert : Type} (list : TrustedList Cert) (scheme : Dict)
    (profile : LoteProfile) : Result Unit := do
  raiseIf (list.version != some 1)
    (failure profile "LoTEVersionIdentifier must be 1, got %" [.int (list.version.getD 0)])
  raiseIf (list.tslType != some profile.loteType)
    (failure profile "LoTEType must be %, got %" [.str profile.loteType, optionalText list.tslType])
  raiseIf (!isOneOf profile.statusDetermination (scheme.get "StatusDeterminationApproach"))
    (failure profile "StatusDeterminationApproach must be one of %, got %"
      [.arr (profile.statusDetermination.map .str), scheme.get "StatusDeterminationApproach"])
  let rules ← schemeRulesOf scheme
  raiseIf (!rules.contains profile.schemeRules)
    (failure profile "SchemeTypeCommunityRules must include %, got %"
      [.str profile.schemeRules, .arr (rules.map .str)])
  raiseIf (list.territory != some profile.territory)
    (failure profile "SchemeTerritory must be %, got %"
      [.str profile.territory, optionalText list.territory])
  raiseIf (scheme.has "HistoricalInformationPeriod")
    (failure profile "HistoricalInformationPeriod shall not be present" [])

/-- `_check_profile(trust_list, lote_obj, profile)`. -/
def checkProfile (list : TrustedList (Cert E)) (loteObj : Dict) (profile : LoteProfile) :
    Result Unit := do
  let scheme := ((loteObj.get "ListAndSchemeInformation").obj?).getD []
  checkProfileScheme list scheme profile
  let issue ← orRaise (fromIsoFormat E (list.issueDatetime.getD []))
    (failure profile "ListIssueDateTime is missing or unparseable" [])
  checkNextUpdate profile issue list.nextUpdate
  each (fun provider => each (checkServiceType profile provider.name) provider.services)
    list.providers
  each (checkNoStatus profile) (serviceInfos loteObj)

/-- The arguments of `consume_lote` but for the token. -/
structure Call where
  expectedSignerCerts : List (Cert E)
  profile : Option LoteProfile := none
  now : Option DateTime := none
  maxBytes : Int := 16777216

/-- The failures `except ProofError` catches. -/
def proofFailed (e : Err) : Bool := e.cls.isa .proofError

/-- The signature of the token, under the key of its leaf. -/
def checkLoteSignature (alg : Str) (leaf : Cert E) (jws : SdJwt.Jws) : Result Unit := do
  let publicJwk ← reraise (X5c.leafPublicJwk E.x509 leaf) x5cFailed .trustListSignatureError
    "LoTE signing certificate: " []
  let ok ← reraise (verifySignature E.crypto alg publicJwk jws.signingInput jws.signature)
    (·.cls.isa .keyBackendError) .trustListSignatureError
    "LoTE signature could not be checked: " []
  raiseIf (!ok) ⟨.trustListSignatureError, "LoTE signature verification failed", []⟩

/-- The profile's gate, when a profile is given. -/
def checkProfileIfGiven (list : TrustedList (Cert E)) (loteObj : Dict) :
    Option LoteProfile → Result Unit
  | none => .ok ()
  | some profile => checkProfile E list loteObj profile

/-- The envelope of a token: its header, payload, signing input and signature. -/
def readToken (token : Token) (maxBytes : Int) : Result SdJwt.Jws := do
  let token ← token.text
  raiseIf (maxBytes < token.length) ⟨.trustListParseError,
    "LoTE token is % bytes, over the %-byte cap", [.int token.length, .int maxBytes]⟩
  reraise (Pipeline.parseCompact token) proofFailed .trustListParseError
    "LoTE is not a valid compact JWS: " []

/-- `consume_lote(token, expected_signer_certs, profile, now, max_bytes)`. -/
def consumeLote (call : Call E) (token : Token) : Result (TrustedList (Cert E)) := do
  let jws ← readToken token call.maxBytes
  let alg ← orRaise ((jws.header.get "alg").str?.filter allowedAlgs.contains)
    ⟨.trustListSignatureError, "LoTE alg % is not permitted (need one of %)",
      [jws.header.get "alg", sortedNames allowedAlgs]⟩
  rejectUnknownCrit jws.header
  let chain ← signerChain E jws.header
  authenticateSigner E chain call.expectedSignerCerts call.now
  checkLoteSignature E alg chain.1 jws
  let list ← parseLoteObject E (.obj jws.payload)
  let loteObj := ((jws.payload.get "LoTE").obj?).getD []
  let scheme := ((loteObj.get "ListAndSchemeInformation").obj?).getD []
  checkSignerDn E chain.1 scheme list.territory
  checkProfileIfGiven E list loteObj call.profile
  return list

end OpenVC.Lote

/-!
## The walk of a list of trusted entities (`openvc.trustlist.lote`)

The root is consumed under the profile, and so is each list it points to, one hop. A list that is
closed or out of date is refused.
-/

namespace OpenVC.Lote

open Python TrustList

variable (E : Env)

/-- `_stage(exc)`. -/
def stage (e : Err) : Str :=
  if e.cls.isa .trustListProfileError then "profile"
  else if e.cls.isa .trustListSignatureError then "signature"
  else if e.cls.isa .trustListParseError then "parse"
  else "consume"

/-- A list that was consumed, against the clock: `_staleness(trust_list, now)` refuses a closed one. -/
def admitCurrent {Cert : Type} (url : Str) (now : Int) (list : TrustedList Cert) :
    Result (Admission Cert) :=
  match list.nextUpdate with
  | none => .ok (.error ⟨url, "expired",
      "the LoTE is closed (NextUpdate null, clause 6.3.15) — its scheme ceased", []⟩)
  | some next => do
    raiseIf next.offset.isNone
      ⟨.typeError, "can't compare offset-naive and offset-aware datetimes", []⟩
    return if next.instant < now then
      .error ⟨url, "expired", "NextUpdate % is in the past", [.int next.instant]⟩ else .ok list

/-- The `select` of a walk: derived from the profile, or given. -/
inductive Selection where
  | derived
  | given (select : Option Select)

/-- The arguments of `walk_lote`, but for `fetch`. -/
structure WalkCall where
  loteUrl : Str
  loteSignerCerts : List (Cert E)
  profile : Option LoteProfile := none
  select : Selection := .derived
  now : Option DateTime := none
  maxBytes : Int := 16777216
  maxLists : Int := 8

namespace WalkCall

variable {E}

/-- The selection that is applied. -/
def selection (call : WalkCall E) : Option Select :=
  match call.select with
  | .derived => call.profile.map fun p => { serviceTypes := some p.anchorServiceTypes }
  | .given select => select

/-- The arguments of `consume_lote` for a list of the walk. -/
def consumption (call : WalkCall E) (now : Int) (signerCerts : List (Cert E)) : Call E where
  expectedSignerCerts := signerCerts
  profile := call.profile
  now := some ⟨now, some 0⟩
  maxBytes := call.maxBytes

end WalkCall

variable {E}

/-- The list at a URL, from what its fetch returned or raised. -/
def judge (call : WalkCall E) (now : Int) (url : Str) (signerCerts : List (Cert E)) :
    Result Token → Result (Admission (Cert E)) :=
  admitFetched url stage (consumeLote E (call.consumption now signerCerts)) (admitCurrent url now)

/-- What the loop keeps besides its result: `visited` and `consumed`. -/
structure Progress where
  visited : List Str
  consumed : Int

/-- A pointer whose type is not the profile's. -/
def outsideProfile (profile : Option LoteProfile) (pointer : TslPointer (Cert E)) :
    Option TrustListProblem :=
  match profile with
  | none => none
  | some profile =>
    if pointer.tslType = some profile.loteType then none
    else some ⟨pointer.location, "profile",
      "not followed: pointer LoTEType % is outside this profiled walk (%)",
      [optionalText pointer.tslType, .str profile.loteType]⟩

/-- What is done with a pointer. -/
def decisionOn (call : WalkCall E) (st : Progress) (pointer : TslPointer (Cert E)) :
    Decision × Progress :=
  if st.visited.contains pointer.location then (.skip, st)
  else match outsideProfile call.profile pointer with
    | some problem => (.note problem, st)
    | none =>
      if !inTerritories call.selection pointer then (.skip, st)
      else if call.maxLists ≤ st.consumed then
        (.note ⟨pointer.location, "consume", "not followed: the %-list cap was reached",
          [.int call.maxLists]⟩, st)
      else (.follow, ⟨pointer.location :: st.visited, st.consumed + 1⟩)

/-- The list of a pointer. -/
def admitPointed (call : WalkCall E) (now : Int) (pointer : TslPointer (Cert E)) :
    Result Token → Result (Admission (Cert E)) :=
  judge call now pointer.location pointer.signerCerts

/-- The anchors of a root that was admitted, and its pointers. -/
def walkPointers (call : WalkCall E) (now : Int) :
    Admission (Cert E) → Fetching Token (TrustAnchorSet (Cert E))
  | .error problem => pure ⟨[], [problem]⟩
  | .ok root => do
    let st ← Calling.forEach (visit (decisionOn call) (admitPointed call now) call.selection)
      (⟨[call.loteUrl], 1⟩, ⟨selected call.selection root, []⟩) root.pointers
    return st.2

/-- `walk_lote(lote_url, …)`. -/
def walkLote (call : WalkCall E) : Fetching Token (TrustAnchorSet (Cert E)) := do
  let now ← (utcInstant E.interpreter call.now .trustListError : Result Int)
  let outcome ← fetched call.loteUrl
  let root ← (judge call now call.loteUrl call.loteSignerCerts outcome : Result (Admission (Cert E)))
  walkPointers call now root

end OpenVC.Lote
