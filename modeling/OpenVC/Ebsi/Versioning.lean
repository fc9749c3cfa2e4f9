import Mathlib.Data.List.Infix
import OpenVC.Did.Base
import OpenVC.Proof.VcJwt
import OpenVC.Python.Url

/-!
# The EBSI registries (`openvc_ebsi.models`, `_url`, `versioning`)

The adapters of the DID Registry and of the Trusted Issuers Registry (TIR), and the resolver over
them. A response is attacker-shaped JSON. What a record says an accreditation authorises is read from
the accreditation token, which nothing here verifies.

A registry is known by the outcome of each request. A client may answer one URL differently at
different times, so a request carries its place in the run beside its URL.
-/

namespace OpenVC.Ebsi

open Python Did

/-! ## The domain model -/

/-- `TRUST_ROLES`. -/
def trustRoles : List Str := ["RootTAO", "TAO", "TI"]

/-- `DELEGATING_ROLES`. -/
def delegatingRoles : List Str := ["RootTAO", "TAO"]

/-- `ACCREDITATION_TO_ATTEST`. -/
def accreditationToAttest : Str := "VerifiableAccreditationToAttest"

/-- `ACCREDITATION_TO_ACCREDIT`. -/
def accreditationToAccredit : Str := "VerifiableAccreditationToAccredit"

/-- An `Accreditation`. -/
structure Accreditation where
  attributeId : Str
  issuerType : Str
  /-- The DID that accredited the issuer. -/
  tao : Option Str
  rootTao : Option Str
  /-- The `accreditedFor` types. -/
  credentialTypes : List Str
  /-- The raw VC-JWT. -/
  credentialJwt : Option Str
  /-- The `vc.type` of the token. -/
  accreditationTypes : List Str
  deriving DecidableEq

/-- `has_trust_role`. -/
def Accreditation.hasTrustRole (acc : Accreditation) : Bool := trustRoles.contains acc.issuerType

/-- `can_accredit`. -/
def Accreditation.canAccredit (acc : Accreditation) : Bool :=
  delegatingRoles.contains acc.issuerType

/-- An `IssuerRecord`. -/
structure IssuerRecord where
  did : Str
  hasAttributes : Bool
  accreditations : List Accreditation

/-! ## Origins -/

/-- Why a URL has no origin. -/
inductive UrlError where
  | notVisibleAscii
  | doesNotParse

/-- An `Origin`. -/
structure Origin where
  scheme : Str
  host : Str
  port : Option Nat

/-- A visible ASCII character. -/
def isVisibleAscii (c : Nat) : Bool := 33 ≤ c && c ≤ 126

/-- `read_origin(url)`: only an absent `https` port is filled in. -/
def readOrigin (I : Interpreter) (url : Str) : Except UrlError Origin :=
  if !url.all isVisibleAscii then .error .notVisibleAscii
  else
    match Url.urlsplit I.bracketedNetloc url with
    | none => .error .doesNotParse
    | some parts =>
      match parts.port with
      | none => .error .doesNotParse
      | some none => .ok ⟨parts.scheme, parts.hostname.asciiLower,
          if parts.scheme = lit "https" then some 443 else none⟩
      | some (some port) => .ok ⟨parts.scheme, parts.hostname.asciiLower, some port⟩

/-- `scheme://host:port`. -/
def Origin.text (o : Origin) : Str :=
  o.scheme ++ lit "://" ++ o.host ++ lit ":" ++ (o.port.map Str.ofNat).getD []

/-- `_MAX_URL_LENGTH`. -/
def maxUrlLength : Nat := 8192

/-- `_origin(url)`. -/
def origin (I : Interpreter) (url : Str) : Result Str := do
  raiseIf (maxUrlLength < url.length) ⟨.malformedRegistryResponse, "registry URL is too long", []⟩
  match readOrigin I url with
  | .ok o => .ok o.text
  | .error .notVisibleAscii =>
    raise .malformedRegistryResponse "registry URL is not visible ASCII" []
  | .error .doesNotParse => raise .malformedRegistryResponse "registry URL does not parse" []

/-- `_on_origin(url, origin)`: a URL that does not parse is off every origin. -/
def onOrigin (I : Interpreter) (url listing : Str) : Bool :=
  match origin I url with
  | .ok o => o == listing
  | .error _ => false

/-! ## Readings of the wire -/

/-- `_require_object(value, what)`. -/
def requireObject (value : Json) (what : Str) : Result Dict :=
  orRaise value.obj? ⟨.malformedRegistryResponse, "expected a JSON object for %, got %",
    [.str what, .str (typeName value)]⟩

/-- `_wire_str(obj, key, what)`. -/
def wireStr (obj : Dict) (key what : Str) : Result Str :=
  orRaise ((obj.get? key).getD (.str [])).str?
    ⟨.malformedRegistryResponse, "% % is not a string: %", [.str what, .str key, obj.get key]⟩

/-- `_wire_opt_str(obj, key, what)`. -/
def wireOptStr (obj : Dict) (key what : Str) : Result (Option Str) :=
  match obj.get key with
  | .null => .ok none
  | .str s => .ok (some s)
  | value => raise .malformedRegistryResponse "% % is not a string: %"
      [.str what, .str key, value]

/-- `_wire_bool(obj, key, what)`. -/
def wireBool (obj : Dict) (key what : Str) : Result Bool :=
  orRaise ((obj.get? key).getD (.bool false)).bool?
    ⟨.malformedRegistryResponse, "% % is not a boolean: %", [.str what, .str key, obj.get key]⟩

/-- `_wire_object(obj, key, what)`. -/
def wireObject (obj : Dict) (key what : Str) : Result Dict :=
  orRaise ((obj.get? key).getD (.obj [])).obj?
    ⟨.malformedRegistryResponse, "% % is not an object: %", [.str what, .str key, obj.get key]⟩

/-- The types of one entry of `accreditedFor`. -/
def wireEntry (what : Str) (entry : Json × Nat) : Result (List Str) :=
  match entry with
  | (.str s, _) => .ok [s]
  | (.obj m, index) => do
    let members ← orRaise ((Dict.get? m "types").getD (.arr [])).arr?
      ⟨.malformedRegistryResponse, "% accreditedFor[%] types is not a list of strings: %",
        [.str what, .int index, Dict.get m "types"]⟩
    collect (fun member => orRaise member.str?
      ⟨.malformedRegistryResponse, "% accreditedFor[%] types is not a list of strings: %",
        [.str what, .int index, member]⟩) members
  | (value, index) => raise .malformedRegistryResponse
      "% accreditedFor[%] is not a string or an object: %" [.str what, .int index, value]

/-- `_wire_accredited_for(subject, what)`. -/
def wireAccreditedFor (subject : Dict) (what : Str) : Result (List Str) := do
  let value ← orRaise ((subject.get? "accreditedFor").getD (.arr [])).arr?
    ⟨.malformedRegistryResponse, "% accreditedFor is not a list: %",
      [.str what, subject.get "accreditedFor"]⟩
  let types ← collect (wireEntry what) value.zipIdx
  return types.flatten.eraseDups

/-- `_wire_vc_type(vc, what)`. -/
def wireVcType (vc : Dict) (what : Str) : Result (List Str) :=
  match (vc.get? "type").getD (.arr []) with
  | .str s => .ok [s]
  | .arr kinds => collect (fun kind => orRaise kind.str? ⟨.malformedRegistryResponse,
      "% vc.type is not a string or a list of strings: %", [.str what, kind]⟩) kinds
  | value => raise .malformedRegistryResponse
      "% vc.type is not a string or a list of strings: %" [.str what, value]

/-- A `_TokenScope`. -/
structure TokenScope where
  credentialTypes : List Str
  accreditationTypes : List Str

/-- What the claims of an accreditation token say about it. -/
def scopeOfClaims (value : Json) : Result TokenScope := do
  let claims ← requireObject value "TIR attribute token claims"
  let vc ← wireObject claims "vc" "TIR attribute token"
  let kinds ← wireVcType vc "TIR attribute token"
  let subject ← wireObject vc "credentialSubject" "TIR attribute token vc"
  let types ← wireAccreditedFor subject "TIR attribute token credentialSubject"
  return ⟨types, kinds⟩

/-- `_types_from_token(body, decode)`. -/
def typesFromToken (decode : Str → Result Json) (body : Option Str) : Result TokenScope :=
  match body with
  | none | some [] => .ok ⟨[], []⟩
  | some body => do
    let claims ← reraise (decode body) (·.cls.isa .proofError) .malformedRegistryResponse
      "TIR attribute token is not a readable JWS: " []
    scopeOfClaims claims

/-- The characters after the `z` of a `did:ebsi` identifier. -/
def isEbsiId (s : Str) : Bool := (s.length == 22 || s.length == 23) && s.all Multibase.b58.contains

/-- `_require_did_ebsi(did)`. -/
def requireDidEbsi (did : Str) : Result Unit :=
  raiseIf (!(did.startsWith "did:ebsi:z" && isEbsiId (did.drop 10)))
    ⟨.didResolutionError, "not a did:ebsi identifier: %", [.str did]⟩

/-! ## The contract address -/

/-- `_CONTRACT_ADDRESS_PARAM`. -/
def contractAddressParam : Str := "contractAddress"

/-- A character of a contract address. -/
def isAddressChar (c : Nat) : Bool :=
  (65 ≤ c && c ≤ 90) || (97 ≤ c && c ≤ 122) || Str.isDigit c || c == 46 || c == 95 || c == 45

/-- A configured contract address. -/
structure ContractAddress where
  text : Str
  wellFormed : text ≠ [] ∧ text.length ≤ 128 ∧ text.all isAddressChar = true

/-- `_require_contract_address(value)`. -/
def requireContractAddress (value : Str) : Result ContractAddress :=
  if h : value ≠ [] ∧ value.length ≤ 128 ∧ value.all isAddressChar = true then .ok ⟨value, h⟩
  else raise .valueError
    "contract_address must be 1 to 128 ASCII letters, digits, '.', '_' or '-': %" [.str value]

/-- The query parameters of a link whose name is read as a contract address. -/
def namedAddresses (I : Interpreter) (query : Str) : List (Str × Str) :=
  (Url.parseQsl query).filter fun field => decide (lit "contractaddress" <:+: I.casefold field.1)

/-- A parameter read as a contract address must be the configured one, spelled as configured. -/
def checkNamed (address : Str) (field : Str × Str) : Result Unit :=
  raiseIf (field.1 != contractAddressParam || field.2 != address) ⟨.malformedRegistryResponse,
    "registry link names contract address % as %, not the configured % as %",
    [.str field.2, .str field.1, .str address, .str contractAddressParam]⟩

/-- `query` with one more parameter. -/
def withParam (query name value : Str) : Str :=
  (if query.isEmpty then [] else query ++ lit "&") ++ name ++ lit "=" ++ value

/-- `_on_contract_address(url, address)`. -/
def onContractAddress (I : Interpreter) (url address : Str) : Result Str := do
  let parts ← orRaise (Url.urlsplit I.bracketedNetloc url) ⟨.valueError, "Invalid IPv6 URL", []⟩
  raiseIf (parts.query.contains 59) ⟨.malformedRegistryResponse,
    "registry link query uses ';', so a contract address in it cannot be told apart", []⟩
  each (checkNamed address) (namedAddresses I parts.query)
  return if (namedAddresses I parts.query).isEmpty then Url.urlunsplit
      { parts with query := withParam parts.query contractAddressParam address }
    else url

/-- A URL without a query, bound to a configured registry instance. -/
def withAddress (url : Str) : Option ContractAddress → Str
  | none => url
  | some address => url ++ lit "?" ++ contractAddressParam ++ lit "=" ++ address.text

/-! ## The adapters -/

/-- A DID Registry adapter, by version. -/
inductive DidRegistryAdapter where
  | v5
  | coreV1 (contractAddress : Option ContractAddress)

/-- `identifiers_url(base, did)`. -/
def DidRegistryAdapter.identifiersUrl (base did : Str) : DidRegistryAdapter → Str
  | .v5 => base ++ lit "/did-registry/v5/identifiers/" ++ did
  | .coreV1 address => withAddress (base ++ lit "/v1/did-registry/identifiers/" ++ did) address

/-- A TIR adapter, by version. -/
inductive TirAdapter where
  | v4
  | v5
  | coreV1 (contractAddress : Option ContractAddress)

/-- The place of a request in a run; `hop` counts the issuer records read before. -/
inductive Request where
  /-- The issuer response. -/
  | issuer (hop : Nat)
  /-- A page of its attributes listing. -/
  | attributes (hop page : Nat)
  /-- The revision that a listing item links to. -/
  | revision (hop item : Nat)
  /-- The DID document of the accreditor. -/
  | identifiers (hop : Nat)

/-- `http_get`. -/
abbrev HttpGet := Request → Str → Result Json

namespace TirAdapter

/-- `issuer_url(base, did)`. -/
def issuerUrl (base did : Str) : TirAdapter → Str
  | .v4 => base ++ lit "/trusted-issuers-registry/v4/issuers/" ++ did
  | .v5 => base ++ lit "/trusted-issuers-registry/v5/issuers/" ++ did
  | .coreV1 address => withAddress (base ++ lit "/v1/issuers-registry/issuers/" ++ did) address

/-- `_default_attributes_url(base, did)`. -/
def defaultAttributesUrl (base did : Str) : TirAdapter → Str
  | .coreV1 address =>
    withAddress (base ++ lit "/v1/issuers-registry/issuers/" ++ did ++ lit "/attributes") address
  | tir => tir.issuerUrl base did ++ lit "/attributes"

/-- `_follow(url)`. -/
def follow (I : Interpreter) (url : Str) : TirAdapter → Result Str
  | .coreV1 (some address) => onContractAddress I url address.text
  | _ => .ok url

end TirAdapter

/-- The accreditation that an attribute object describes: every scalar is typed before the token is
decoded. -/
def readAccreditation (decode : Str → Result Json) (attr : Dict) (id : Result Str) :
    Result Accreditation := do
  let body ← wireOptStr attr "body" "TIR attribute"
  let attributeId ← id
  let issuerType ← wireStr attr "issuerType" "TIR attribute"
  let tao ← wireOptStr attr "tao" "TIR attribute"
  let rootTao ← wireOptStr attr "rootTao" "TIR attribute"
  let scope ← typesFromToken decode body
  return { attributeId, issuerType, tao, rootTao, credentialTypes := scope.credentialTypes,
           credentialJwt := body, accreditationTypes := scope.accreditationTypes }

/-! ### Version 4: inline attributes -/

/-- One inline attribute must be an object. -/
def checkInline (attr : Json × Nat) : Result Unit :=
  raiseIf attr.1.obj?.isNone ⟨.malformedRegistryResponse,
    "TIR issuer response attributes[%] is not an object: %", [.int attr.2, attr.1]⟩

/-- `TirV4.parse_issuer(raw, did, decode)`. -/
def parseIssuerV4 (decode : Str → Result Json) (raw : Dict) (did : Str) : Result IssuerRecord := do
  let attributes ← orRaise ((raw.get? "attributes").getD (.arr [])).arr?
    ⟨.malformedRegistryResponse, "TIR issuer response attributes is not a list: %",
      [raw.get "attributes"]⟩
  each checkInline attributes.zipIdx
  let accs ← collect (fun a => readAccreditation decode a (wireStr a "hash" "TIR attribute"))
    (attributes.filterMap Json.obj?)
  return ⟨did, !accs.isEmpty, accs⟩

/-! ### Version 5 and Core API v1: the attribute walk -/

/-- `_MAX_ATTRIBUTE_PAGES`. -/
def maxAttributePages : Nat := 50

/-- `_MAX_ATTRIBUTE_ITEMS`. -/
def maxAttributeItems : Nat := 1000

/-- What the walk of one issuer's attributes is started with. -/
structure AttributeWalk where
  interpreter : Interpreter
  tir : TirAdapter
  get : HttpGet
  decode : Str → Result Json
  hop : Nat
  /-- The origin of the issuer URL. -/
  listingOrigin : Str

namespace AttributeWalk

variable (W : AttributeWalk)

/-- The id of an attribute: the listing item's, else the attribute's hash. -/
def attributeId (item attr : Dict) : Result Str := do
  let id ← wireStr item "id" "TIR attributes listing item"
  if id.isEmpty then wireStr attr "hash" "TIR attribute" else return id

/-- The accreditation behind the `href` of a listing item. -/
def readRevision (n : Nat) (item : Dict) (href : Str) : Result Accreditation := do
  let url ← W.tir.follow W.interpreter href
  let body ← W.get (.revision W.hop n) url
  let revision ← requireObject body "TIR attribute revision"
  let attr ← orRaise (revision.get "attribute").obj?
    ⟨.malformedRegistryResponse, "TIR attribute revision has no attribute object", []⟩
  readAccreditation W.decode attr (attributeId item attr)

/-- The loop body of `parse_issuer`: an item without a link on the listing's origin is skipped. -/
def readItem (n : Nat) (item : Dict) : Result (List Accreditation) :=
  match item.get "href" with
  | .str href =>
    if href.isEmpty || !onOrigin W.interpreter href W.listingOrigin then .ok []
    else do
      let acc ← W.readRevision n item href
      return [acc]
  | _ => .ok []

/-- The items of one page, handed to the loop body one by one. Returns the number of items so far, the
accreditations and whether the cap on items was reached. -/
def readItems : List Json → Nat → List Accreditation → Result (Nat × List Accreditation × Bool)
  | [], n, accs => .ok (n, accs, false)
  | .obj item :: items, n, accs => do
    let new ← W.readItem n item
    if maxAttributeItems ≤ n + 1 then return (n + 1, accs ++ new, true)
    else readItems items (n + 1) (accs ++ new)
  | _ :: items, n, accs => readItems items n accs

/-- The `total` of a listing: a number already read, else the page's. -/
def totalOf (total : Option Int) (page : Dict) : Option Int :=
  total <|> ((page.get "total").int?.filter (0 ≤ ·))

/-- The URL of the next page, if the page links one on the listing's origin. -/
def nextUrl (pagesOrigin : Str) (page : Dict) : Result (Option Str) :=
  match page.get "links" with
  | .obj links =>
    match Dict.get links "next" with
    | .str next =>
      if next.isEmpty || !onOrigin W.interpreter next pagesOrigin then .ok none
      else do
        let url ← W.tir.follow W.interpreter next
        return some url
    | _ => .ok none
  | _ => .ok none

/-- The loop of `_iter_attribute_items`, with the pages it may still read. -/
def readPages (pagesOrigin : Str) : Nat → Option Str → List Str → Nat → Option Int →
    List Accreditation → Result (List Accreditation)
  | pages + 1, some url, seen, collected, total, accs =>
    if url ∈ seen then .ok accs
    else do
      let body ← W.get (.attributes W.hop seen.length) url
      let page ← requireObject body "TIR attributes page"
      match page.get "items" with
      | .arr (item :: items) => do
        let (collected, accs, capped) ← W.readItems (item :: items) collected accs
        if capped || (totalOf total page).any (· ≤ (collected : Int)) then return accs
        else do
          let next ← W.nextUrl pagesOrigin page
          readPages pagesOrigin pages next (url :: seen) collected (totalOf total page) accs
      | _ => return accs
  | _, _, _, _, _, accs => .ok accs

/-- The URL of the attributes listing. -/
def attributesUrl (raw : Dict) (fallback : Str) : Result Str :=
  if !(raw.get "attributes").truthy then .ok fallback
  else
    match raw.get "attributes" with
    | .str url => do
      let urlOrigin ← origin W.interpreter url
      raiseIf (urlOrigin != W.listingOrigin)
        ⟨.malformedRegistryResponse, "TIR attributes URL is off the listing origin", []⟩
      return url
    | _ => raise .malformedRegistryResponse "TIR attributes URL is off the listing origin" []

/-- Every accreditation that the listing of an issuer leads to. -/
def read (raw : Dict) (fallback : Str) : Result (List Accreditation) := do
  let url ← W.attributesUrl raw fallback
  let url ← W.tir.follow W.interpreter url
  let pagesOrigin ← origin W.interpreter url
  W.readPages pagesOrigin maxAttributePages (some url) [] 0 none []

end AttributeWalk

/-! ## The resolver -/

/-- A `DidEbsiResolver`. -/
structure DidEbsiResolver where
  get : HttpGet
  /-- `decode_jwt`: the proof suite's `peek_claims`, injected. -/
  decode : Str → Result Json
  base : Str
  didr : DidRegistryAdapter
  tir : TirAdapter

namespace DidEbsiResolver

variable (R : DidEbsiResolver)

/-- `_TirAttributeWalk.parse_issuer(raw, base, did, fetch, decode)`. -/
def parseIssuerWalk (I : Interpreter) (hop : Nat) (raw : Dict) (did : Str) :
    Result IssuerRecord := do
  let hasAttributes ← wireBool raw "hasAttributes" "TIR issuer response"
  if hasAttributes then do
    let listingOrigin ← origin I (R.tir.issuerUrl R.base did)
    let accs ← AttributeWalk.read ⟨I, R.tir, R.get, R.decode, hop, listingOrigin⟩ raw
      (R.tir.defaultAttributesUrl R.base did)
    return ⟨did, true, accs⟩
  else return ⟨did, false, []⟩

/-- `parse_issuer(raw, base, did, fetch, decode)`. -/
def parseIssuer (I : Interpreter) (hop : Nat) (raw : Dict) (did : Str) : Result IssuerRecord :=
  match R.tir with
  | .v4 => parseIssuerV4 R.decode raw did
  | _ => R.parseIssuerWalk I hop raw did

/-- `resolve(did)`. -/
def resolve (C : Crypto) (hop : Nat) (did : Str) : Result DidDocument := do
  requireDidEbsi did
  let raw ← R.get (.identifiers hop) (R.didr.identifiersUrl R.base did)
  let doc ← parseDidDocument C raw
  raiseIf (doc.id != did)
    ⟨.didResolutionError, "document id % != requested %", [.str doc.id, .str did]⟩
  return doc

/-- `issuer_record(did)`. -/
def issuerRecord (I : Interpreter) (hop : Nat) (did : Str) : Result IssuerRecord := do
  requireDidEbsi did
  let body ← R.get (.issuer hop) (R.tir.issuerUrl R.base did)
  let raw ← requireObject body "TIR issuer response"
  raiseIf ((raw.get "did").str? != some did) ⟨.malformedRegistryResponse,
    "TIR issuer response names %, requested %", [raw.get "did", .str did]⟩
  R.parseIssuer I hop raw did

end DidEbsiResolver

end OpenVC.Ebsi
