import OpenVC.Errors
import OpenVC.Proof.VerifyCommon
import OpenVC.TrustList.Model
import OpenVC.X5c

/-!
# Trusted lists in XML (`openvc.trustlist.parse`)

The hardened parse of the bytes into elements, and the records read from them. `expat` is outside the
library: it hands its events to the handlers in order, and may end with an exception of its own.
-/

namespace OpenVC.Tsl

open Python TrustList

/-! ## `expat` and the tree builder -/

/-- What `expat` hands to a handler; the handlers of a start and of an end get the raw name. -/
inductive XmlEvent where
  | doctype
  | startElement (name : Str) (attrs : List (Str × Str))
  | endElement
  | characterData (text : Str)

/-- What `parser.Parse(xml, True)` does when no handler raises: its events, and the exception it
raises after them. -/
structure ExpatRun where
  events : List XmlEvent
  /-- An `ExpatError`, as its text, or another exception: that of an unknown encoding. -/
  failure : Option (Str ⊕ Err)

/-- An `Element`; a missing text is the empty one, which the reads do not tell apart. -/
inductive Element where
  | mk (tag : Str) (attrib : List (Str × Str)) (text : Str) (children : List Element)

namespace Element

/-- `el.tag`. -/
def tag : Element → Str
  | mk tag _ _ _ => tag

/-- `el.attrib`. -/
def attrib : Element → List (Str × Str)
  | mk _ attrib _ _ => attrib

/-- `el.text`. -/
def text : Element → Str
  | mk _ _ text _ => text

/-- The children of an element. -/
def children : Element → List Element
  | mk _ _ _ children => children

/-- `el.find(tag)`. -/
def find (el : Element) (tag : Str) : Option Element := el.children.find? fun c => c.tag == tag

/-- `el.findall(tag)`. -/
def findall (el : Element) (tag : Str) : List Element := el.children.filter fun c => c.tag == tag

mutual

/-- `el.iter(tag)`: the element and all below it, in document order. -/
def iter (tag : Str) : Element → List Element
  | mk t attrib text children =>
    (if t == tag then [mk t attrib text children] else []) ++ iterAll tag children

/-- `iter`, over the elements of a list. -/
def iterAll (tag : Str) : List Element → List Element
  | [] => []
  | el :: rest => iter tag el ++ iterAll tag rest

end

end Element

/-- An element that is still open. -/
structure OpenElement where
  tag : Str
  attrib : List (Str × Str)
  text : Str
  children : List Element

/-- The element, once it ends. -/
def OpenElement.close (o : OpenElement) : Element := .mk o.tag o.attrib o.text o.children

/-- A `TreeBuilder`: the open elements, the innermost first, the root once it has ended, and the
number of elements so far. -/
structure TreeBuilder where
  opened : List OpenElement := []
  root : Option Element := none
  count : Nat := 0

/-- `_qname(name)`: `uri\x01local` as `{uri}local`. -/
def qname (name : Str) : Str :=
  let (uri, found, rest) := name.partition 1
  if found then 123 :: (uri ++ 125 :: rest) else name

/-- The text of a child is that of its parent no more: what follows is its tail, which nothing reads. -/
def OpenElement.addData (o : OpenElement) (data : Str) : OpenElement :=
  if o.children.isEmpty then { o with text := o.text ++ data } else o

/-- The end of the innermost element. -/
def TreeBuilder.finish (b : TreeBuilder) : TreeBuilder :=
  match b.opened with
  | [] => b
  | [o] => { b with opened := [], root := some o.close }
  | o :: parent :: rest =>
    { b with opened := { parent with children := parent.children ++ [o.close] } :: rest }

/-- Text inside the innermost element. -/
def TreeBuilder.addData (b : TreeBuilder) (data : Str) : TreeBuilder :=
  match b.opened with
  | [] => b
  | o :: rest => { b with opened := o.addData data :: rest }

/-- `DEFAULT_MAX_ELEMENTS`. -/
def defaultMaxElements : Nat := 500000

/-- One handler. -/
def TreeBuilder.handle (b : TreeBuilder) (_ : Nat) : XmlEvent → Result TreeBuilder
  | .doctype => raise .trustListParseError "DOCTYPE/DTD is not allowed in a trust list" []
  | .startElement name attrs => do
    raiseIf (defaultMaxElements < b.count + 1) ⟨.trustListParseError,
      "trust list exceeds the %-element cap", [.int defaultMaxElements]⟩
    let attrib := attrs.map fun a => (qname a.1, a.2)
    return { b with opened := ⟨qname name, attrib, [], []⟩ :: b.opened, count := b.count + 1 }
  | .endElement => .ok b.finish
  | .characterData data => .ok (b.addData data)

/-- How the parse ends after its events. -/
def expatOutcome : Option (Str ⊕ Err) → Result Unit
  | none => .ok ()
  | some (.inl text) => raise .trustListParseError "malformed trust list XML: %" [.str text]
  | some (.inr e) => .error e

/-- The interpreter and the packages outside the library. -/
structure Env where
  interpreter : Interpreter
  x509 : X509
  expat : Bytes → ExpatRun
  /-- `int(text)`; `none` is its `ValueError`. -/
  intOf : Str → Option Int

variable (E : Env)

/-- A certificate. -/
abbrev Cert := E.x509.Certificate

/-- `_hardened_parse(xml, max_bytes)`. -/
def hardenedParse (xml : Bytes) (maxBytes : Int) : Result Element := do
  raiseIf (maxBytes < xml.length) ⟨.trustListParseError,
    "trust list is % bytes, over the %-byte cap", [.int xml.length, .int maxBytes]⟩
  let run := E.expat xml
  let builder ← enumerateLoop TreeBuilder.handle {} 0 run.events
  expatOutcome run.failure
  orRaise builder.root ⟨.attributeError, "'NoneType' object has no attribute 'tag'", []⟩

/-! ## Elements -/

/-- `_q(local)`, in the namespace of trusted lists. -/
def q (name : Str) : Str := lit "\x7bhttp://uri.etsi.org/02231/v2#\x7d" ++ name

/-- `_q("MimeType", ADD)`. -/
def mimeTypeTag : Str := "\x7bhttp://uri.etsi.org/02231/v2/additionaltypes#\x7dMimeType"

/-- `XML_LANG`. -/
def xmlLang : Str := "\x7bhttp://www.w3.org/XML/1998/namespace\x7dlang"

/-- The text of an element that has one. -/
def stripped (el : Element) : Option Str := if el.text.isEmpty then none else some el.text.strip

/-- `_text(parent, tag)`. -/
def text (parent : Option Element) (tag : Str) : Option Str :=
  (parent.bind (·.find tag)).bind stripped

/-- `_localized_name(name_parent)`. -/
def localizedName (nameParent : Option Element) : Option Str := do
  let parent ← nameParent
  let names := parent.findall (q "Name")
  let english := names.filter fun el =>
    E.interpreter.lower ((el.attrib.lookup xmlLang).getD []) == lit "en"
  (english.findSome? stripped).or (names.findSome? stripped)

/-- `_int(value)`. -/
def int (value : Option Str) : Option Int := value.bind E.intOf

/-- `_parse_datetime(value)`. -/
def parseDatetime (value : Option Str) : Option DateTime :=
  match value with
  | none | some [] => none
  | some value => E.interpreter.fromIsoFormat (value.replace "Z" "+00:00")

/-- One certificate; `none` is one that was skipped. -/
def loadCertificate (el : Element) : Option (Cert E) :=
  if el.text.strip.isEmpty then none
  else (Codec.b64Decode el.text.strip).bind fun der => (E.x509.loadDer der).toOption

/-- `_certs_under(node)`. -/
def certsUnder : Option Element → List (Cert E)
  | none => []
  | some node => (node.iter (q "X509Certificate")).filterMap (loadCertificate E)

/-- The last text of a child that some of the elements has. -/
def lastText (elements : List Element) (tag : Str) : Option Str :=
  elements.foldl (fun last el => (text (some el) tag).or last) none

/-- `_parse_pointer(op)`; `none` is a pointer without a location. -/
def parsePointer (op : Element) : Option (TslPointer (Cert E)) :=
  match text (some op) (q "TSLLocation") with
  | none | some [] => none
  | some location =>
    let certs := certsUnder E (op.find (q "ServiceDigitalIdentities"))
    let others := match op.find (q "AdditionalInformation") with
      | none => []
      | some add => add.findall (q "OtherInformation")
    some ⟨location.strip, certs, lastText others (q "SchemeTerritory"), lastText others (q "TSLType"),
      lastText others mimeTypeTag⟩

/-- `_parse_service(svc, tsp_name, territory)`. -/
def parseService (tspName territory : Option Str) (svc : Element) :
    List (TrustServiceAnchor (Cert E)) :=
  match svc.find (q "ServiceInformation") with
  | none => []
  | some info =>
    let serviceType := (text (some info) (q "ServiceTypeIdentifier")).getD []
    let serviceStatus := (text (some info) (q "ServiceStatus")).getD []
    let serviceName := localizedName E (info.find (q "ServiceName"))
    let certs := certsUnder E (info.find (q "ServiceDigitalIdentity"))
    certs.map fun cert => ⟨cert, serviceType, serviceStatus, tspName, serviceName, territory⟩

/-- `_parse_provider(tsp, territory)`. -/
def parseProvider (territory : Option Str) (tsp : Element) : TrustServiceProvider (Cert E) :=
  let name := (tsp.find (q "TSPInformation")).bind fun info =>
    localizedName E (info.find (q "TSPName"))
  let services := match tsp.find (q "TSPServices") with
    | none => []
    | some list => list.findall (q "TSPService")
  ⟨name, services.flatMap (parseService E name territory)⟩

/-- `NextUpdate` of a scheme. -/
def nextUpdateOf (scheme : Option Element) : Option DateTime :=
  parseDatetime E (text (scheme.bind (·.find (q "NextUpdate"))) (q "dateTime"))

/-- The pointers of a scheme. -/
def pointersOf (scheme : Option Element) : List (TslPointer (Cert E)) :=
  match scheme.bind (·.find (q "PointersToOtherTSL")) with
  | none => []
  | some ptrs => (ptrs.findall (q "OtherTSLPointer")).filterMap (parsePointer E)

/-- The providers of a list. -/
def providersOf (root : Element) (territory : Option Str) : List (TrustServiceProvider (Cert E)) :=
  match root.find (q "TrustServiceProviderList") with
  | none => []
  | some list => (list.findall (q "TrustServiceProvider")).map (parseProvider E territory)

/-- The list that a root element describes. -/
def readList (root : Element) : TrustedList (Cert E) :=
  let scheme := root.find (q "SchemeInformation")
  let territory := text scheme (q "SchemeTerritory")
  { tslType := text scheme (q "TSLType")
    schemeOperator := localizedName E (scheme.bind (·.find (q "SchemeOperatorName")))
    territory := territory
    sequenceNumber := int E (text scheme (q "TSLSequenceNumber"))
    issueDatetime := text scheme (q "ListIssueDateTime")
    nextUpdate := nextUpdateOf E scheme
    pointers := pointersOf E scheme
    providers := providersOf E root territory
    version := int E (text scheme (q "TSLVersionIdentifier")) }

/-- `parse_trust_list(xml, max_bytes)`. -/
def parseTrustList (xml : Bytes) (maxBytes : Int) : Result (TrustedList (Cert E)) := do
  let root ← hardenedParse E xml maxBytes
  raiseIf (root.tag != q "TrustServiceStatusList") ⟨.trustListParseError,
    "root element is %, not a TrustServiceStatusList", [.str root.tag]⟩
  return readList E root

end OpenVC.Tsl

/-!
## The walk of a list of trusted lists (`openvc.trustlist.consume`)

The root is verified under the certificates the caller pins, each list it points to under those of
its pointer, and a list whose `NextUpdate` is in the past is refused.
-/

namespace OpenVC.Tsl

open Python TrustList

variable (E : Env)

/-- `verify_signature(xml, expected_signer_certs)`. -/
abbrev VerifySignature := Bytes → List (Cert E) → Result Unit

/-- `consume_trust_list(xml, verify_signature, expected_signer_certs, max_bytes)`. -/
def consumeTrustList (verify : Option (VerifySignature E)) (expected : List (Cert E))
    (maxBytes : Int) (xml : Bytes) : Result (TrustedList (Cert E)) := do
  let verify ← orRaise verify ⟨.trustListSignatureUnavailable,
    "no verify_signature callback given; a trust list is never trusted unverified (pass openvc.trustlist.verify_xades_enveloped from the [trustlist] extra, or inject your own)",
    []⟩
  reraise (verify xml expected) (fun e => !e.cls.isa .trustListError) .trustListSignatureError
    "trust list signature verification failed: " []
  parseTrustList E xml maxBytes

/-- `_stage(exc)`. -/
def stage (e : Err) : Str :=
  if e.cls.isa .trustListSignatureError || e.cls.isa .trustListSignatureUnavailable then "signature"
  else if e.cls.isa .trustListParseError then "parse"
  else "consume"

/-- `_expired(tl, now)`; a `datetime` without a time zone cannot be compared with `now`. -/
def expired {Cert : Type} (list : TrustedList Cert) (now : Int) : Result Bool :=
  match list.nextUpdate with
  | none => .ok false
  | some next => do
    raiseIf next.offset.isNone
      ⟨.typeError, "can't compare offset-naive and offset-aware datetimes", []⟩
    return next.instant < now

/-- A list that was verified and parsed, against the clock. -/
def admitCurrent {Cert : Type} (url : Str) (detail : String) (now : Int) (list : TrustedList Cert) :
    Result (Admission Cert) := do
  let isExpired ← expired list now
  let next := (list.nextUpdate.map fun d => Json.int d.instant).getD .null
  return if isExpired then .error ⟨url, "expired", detail, [next]⟩ else .ok list

/-- `DEFAULT_SELECT`: granted services that issue qualified certificates. -/
def defaultSelect : Select where
  serviceTypes := some ["http://uri.etsi.org/TrstSvc/Svctype/CA/QC"]
  statuses := some ["http://uri.etsi.org/TrstSvc/TrustedList/Svcstatus/granted"]

/-- The arguments of `walk_lotl`, but for `fetch`. -/
structure Call where
  lotlUrl : Str
  lotlSignerCerts : List (Cert E)
  verifySignature : Option (VerifySignature E)
  select : Option Select := some defaultSelect
  now : Option DateTime := none
  maxBytes : Int := 16777216

variable {E} in
/-- The list at a URL, from what its fetch returned or raised. -/
def judge (call : Call E) (now : Int) (url : Str) (signerCerts : List (Cert E)) (detail : String) :
    Result Bytes → Result (Admission (Cert E)) :=
  admitFetched url stage (consumeTrustList E call.verifySignature signerCerts call.maxBytes)
    (admitCurrent url detail now)

variable {E} in
/-- The list of the root. -/
def admitRoot (call : Call E) (now : Int) : Result Bytes → Result (Admission (Cert E)) :=
  judge call now call.lotlUrl call.lotlSignerCerts "LOTL NextUpdate % is in the past"

variable {E} in
/-- The list of a pointer. -/
def admitPointed (call : Call E) (now : Int) (pointer : TslPointer (Cert E)) :
    Result Bytes → Result (Admission (Cert E)) :=
  judge call now pointer.location pointer.signerCerts "NextUpdate % is in the past"

/-- A pointer to another list of lists is skipped, and one outside the territories. -/
def decisionOn {Cert : Type} (select : Option Select) (_ : Unit) (pointer : TslPointer Cert) :
    Decision × Unit :=
  if pointer.tslType.any fun t => Str.endsWith t "EUlistofthelists" then (.skip, ())
  else if !inTerritories select pointer then (.skip, ())
  else (.follow, ())

variable {E} in
/-- The pointers of a root that was admitted. -/
def walkPointers (call : Call E) (now : Int) :
    Admission (Cert E) → Fetching Bytes (TrustAnchorSet (Cert E))
  | .error problem => pure ⟨[], [problem]⟩
  | .ok lotl => do
    let st ← Calling.forEach (visit (decisionOn call.select) (admitPointed call now) call.select)
      ((), ⟨[], []⟩) lotl.pointers
    return st.2

variable {E} in
/-- `walk_lotl(lotl_url, …)`. -/
def walkLotl (call : Call E) : Fetching Bytes (TrustAnchorSet (Cert E)) := do
  let now ← (utcInstant E.interpreter call.now .trustListError : Result Int)
  let outcome ← fetched call.lotlUrl
  let root ← (admitRoot call now outcome : Result (Admission (Cert E)))
  walkPointers call now root

end OpenVC.Tsl
