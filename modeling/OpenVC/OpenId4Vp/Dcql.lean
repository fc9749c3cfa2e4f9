import OpenVC.Cbor
import OpenVC.Proof.VpJwt

/-!
# The request of an OpenID4VP response (`openvc.openid4vp`)

A `vp_token` answers the Credential Queries of a DCQL query. Here are the arguments of a
verification, the shape of the query, the completeness of the answer and the audience that a
presentation is held to. The mdoc verifier and the JSON-LD processor are parameters.
-/

namespace OpenVC.OpenId4Vp

open Python Pipeline

/-! ## The call -/

/-- The DCQL Credential Format Identifiers. -/
inductive Format where
  | sdJwtVc
  | jwtVc
  | ldpVc
  | msoMdoc
  deriving DecidableEq

/-- The identifier of a format. -/
def Format.name : Format → Str
  | .sdJwtVc => "dc+sd-jwt"
  | .jwtVc => "jwt_vc_json"
  | .ldpVc => "ldp_vc"
  | .msoMdoc => "mso_mdoc"

/-- The format of an identifier. -/
def Format.ofName (name : Str) : Option Format :=
  [Format.sdJwtVc, .jwtVc, .ldpVc, .msoMdoc].find? fun f => f.name == name

/-- `openvc.mdoc`, over its trust anchors. -/
structure Mdoc where
  Document : Type
  Anchor : Type
  /-- `verify_device_response(device_response, trust_anchors, session_transcript, now, leeway_s,
  expected_doc_type)`. -/
  verifyDeviceResponse :
    Bytes → List Anchor → Bytes → Option DateTime → Int → Option Str → Result (List Document)

/-- `jsonld.expand(document, …)` from the base `_RELATIVE_BASE`; `none` when `pyld` is not
installed. -/
abbrev Expander := Option (Dict → Except JsonLdError Json)

/-- The keyword arguments of `verify_vp_token`. -/
structure Call (H : Host) (M : Mdoc) where
  dcqlQuery : Json
  nonce : Str
  clientId : Option Str := none
  expectedOrigins : Option (List Str) := none
  trustAnchors : Option (List M.Anchor) := none
  mdocJwkThumbprint : Option Bytes := none
  resolver : Did.DidResolver
  /-- The other callables, as they answer for the `c`-th credential of the `n`-th presentation. -/
  sources : (n c : Nat) → Sources H
  /-- The JSON-LD processor over the bundled and the extra contexts. -/
  extraContexts : JsonLd
  expand : Expander
  now : Option DateTime := none
  leewayS : Int := 60
  requireHolderBinding : Bool := false
  requireStatus : Bool := false
  kbMaxAgeS : Int := defaultKbMaxAgeS

/-- The durations of a call, checked. -/
structure Durations where
  leewayS : Int
  leeway_ok : 0 ≤ leewayS ∧ leewayS ≤ maxLeewayS
  kbMaxAgeS : Int
  kbMaxAge_ok : 0 ≤ kbMaxAgeS

/-- The checks on the durations, before the response is read. -/
def checkDurations (leewayS kbMaxAgeS : Int) : Result Durations :=
  if h : 0 ≤ leewayS ∧ leewayS ≤ maxLeewayS then
    if h' : 0 ≤ kbMaxAgeS then .ok ⟨leewayS, h, kbMaxAgeS, h'⟩
    else raise .openId4VpError "% must be a non-negative int (seconds), got %"
      [.str (lit "kb_max_age_s"), .int kbMaxAgeS]
  else raise .openId4VpError "% must be a whole number of seconds from 0 to %, got %"
    [.str (lit "leeway_s"), .int maxLeewayS, .int leewayS]

/-- What a presentation's own result is. -/
inductive Raw (M : Mdoc) where
  | credential (raw : Pipeline.Raw)
  | vpJwt (verified : VpJwt.Verified)
  | ldpVp (verified : VerifiedDi)
  | mdoc (documents : List M.Document)

/-- A credential of a presentation. -/
inductive Credential (M : Mdoc) where
  | w3c (result : VerificationResult)
  | mdoc (document : M.Document)

/-- A `VerifiedPresentation`. -/
structure VerifiedPresentation (M : Mdoc) where
  queryId : Str
  format : Format
  /-- `null` when nothing authenticated a holder. -/
  holder : Json
  credentials : List (Credential M)
  raw : Raw M

/-! ## The request -/

/-- An origin that is not blank. -/
def isOrigin (o : Str) : Bool := !o.isEmpty && o == o.strip

/-- The audience of an origin. -/
def originAudience (o : Str) : Str := lit "origin:" ++ o

/-- The audiences of the Digital Credentials API flow. -/
def originAudiences (origins : List Str) : Result (Option (List Str)) := do
  raiseIf (origins.isEmpty || !origins.all isOrigin) ⟨.claimsInvalid,
    "expected_origins must be a non-empty list/tuple of non-blank origin strings", []⟩
  return some (origins.map originAudience)

/-- `_dc_api_accepted_auds(client_id, expected_origins)`. -/
def dcApiAcceptedAuds (clientId : Option Str) (expectedOrigins : Option (List Str)) :
    Result (Option (List Str)) :=
  match clientId, expectedOrigins with
  | none, some origins => originAudiences origins
  | some clientId, none => do
    raiseIf clientId.isEmpty
      ⟨.claimsInvalid, "verify_vp_token requires a non-empty client_id", []⟩
    return none
  | _, _ => raise .claimsInvalid
      "pass exactly one of client_id (redirect / direct_post) or expected_origins (the W3C Digital Credentials API)"
      []

/-- The parsed `vp_token`. -/
def loadVpToken : Json → Result Json
  | .str s => reraise (loads s) (·.cls.isa .valueError) .vpTokenMalformed
      "vp_token is not valid JSON: " []
  | v => .ok v

/-- `_parse_vp_token(vp_token)`. -/
def parseVpToken (vpToken : Json) : Result Dict := do
  let value ← loadVpToken vpToken
  let token ← orRaise value.obj?
    ⟨.vpTokenMalformed, "vp_token must be a JSON object keyed by Credential Query id", []⟩
  raiseIf (nestingExceeds value maxDepth)
    ⟨.vpTokenMalformed, "vp_token is nested deeper than % levels", [.int maxDepth]⟩
  return token

/-! ## Type constraints -/

/-- `_dcql_meta(query_id, query)`. -/
def dcqlMeta (queryId : Str) (query : Dict) : Result Dict :=
  orRaise ((query.get? "meta").getD (.obj [])).obj?
    ⟨.vpTokenMalformed, "Credential Query %: meta must be a JSON object", [.str queryId]⟩

/-- The strings of an array of strings. -/
def strings (v : Json) : Option (List Str) :=
  match v with
  | .arr l => if l.all (·.str?.isSome) then some (l.filterMap Json.str?) else none
  | _ => none

/-- A non-empty array of strings. -/
def vctAlternatives (v : Json) : Option (List Str) := (strings v).filter (!·.isEmpty)

/-- A non-empty array of non-empty strings. -/
def typeAlternative (v : Json) : Option (List Str) :=
  (strings v).filter fun l => !l.isEmpty && l.all (!·.isEmpty)

/-- A non-empty array of alternatives. -/
def typeAlternatives (v : Json) : Option (List (List Str)) :=
  match v with
  | .arr l =>
    if !l.isEmpty && l.all (fun alt => (typeAlternative alt).isSome) then
      some (l.filterMap typeAlternative)
    else none
  | _ => none

/-- A member of `meta` that is absent, or has the shape it must have. -/
def constraint {α : Type} (queryId : Str) (query : Dict) (member : Str) (read : Json → Option α)
    (shape : String) : Result (Option α) := do
  let m ← dcqlMeta queryId query
  match m.get? member with
  | none => return none
  | some v => (orRaise (read v)
      ⟨.vpTokenMalformed, "Credential Query %: meta." ++ shape, [.str queryId]⟩).map some

/-- `_vct_values(query_id, query)`. -/
def vctValues (queryId : Str) (query : Dict) : Result (Option (List Str)) :=
  constraint queryId query "vct_values" vctAlternatives
    "vct_values must be a non-empty array of strings"

/-- `_mdoc_doctype_value(query_id, query)`. -/
def mdocDoctypeValue (queryId : Str) (query : Dict) : Result (Option Str) :=
  constraint queryId query "doctype_value" (fun v => v.str?.filter (!·.isEmpty))
    "doctype_value must be a non-empty string"

/-- `_type_values(query_id, query)`. -/
def typeValues (queryId : Str) (query : Dict) : Result (Option (List (List Str))) :=
  constraint queryId query "type_values" typeAlternatives
    "type_values must be a non-empty array of non-empty arrays of type IRIs"

/-- `_check_constraint(query_id, query, fmt)`. -/
def checkConstraint (queryId : Str) (query : Dict) (fmt : Str) : Result Unit :=
  match Format.ofName fmt with
  | some .sdJwtVc => (vctValues queryId query).map fun _ => ()
  | some .msoMdoc => (mdocDoctypeValue queryId query).map fun _ => ()
  | some .jwtVc => (typeValues queryId query).map fun _ => ()
  | some .ldpVc => (typeValues queryId query).map fun _ => ()
  | none => .ok ()

/-! ## The query -/

/-- The Credential Queries by id. -/
abbrev Queries := List (Str × Dict)

/-- A flag of a query, with its default. -/
def flag (query : Dict) (name : Str) (default : Bool) : Json :=
  (query.get? name).getD (.bool default)

/-- One iteration of the walk of `_index_dcql`. -/
def indexQuery (queries : Queries) (entry : Json) : Result Queries := do
  let query ← orRaise entry.obj?
    ⟨.vpTokenMalformed, "each dcql_query.credentials entry must be an object", []⟩
  let queryId ← orRaise ((query.get "id").str?.filter (!·.isEmpty))
    ⟨.vpTokenMalformed, "each Credential Query needs a non-empty string id", []⟩
  let fmt ← orRaise ((query.get "format").str?.filter (!·.isEmpty))
    ⟨.vpTokenMalformed, "Credential Query % needs a string format", [.str queryId]⟩
  raiseIf (queries.lookup queryId).isSome
    ⟨.vpTokenMalformed, "duplicate Credential Query id %", [.str queryId]⟩
  raiseIf (flag query "require_cryptographic_holder_binding" true).bool?.isNone
    ⟨.vpTokenMalformed,
      "Credential Query %: require_cryptographic_holder_binding must be a boolean",
      [.str queryId]⟩
  raiseIf (flag query "multiple" false).bool?.isNone
    ⟨.vpTokenMalformed, "Credential Query %: multiple must be a boolean", [.str queryId]⟩
  checkConstraint queryId query fmt
  return queries ++ [(queryId, query)]

/-- One id of an option. -/
def checkOptionId (queries : Queries) (index position : Nat) (queryId : Json) : Result Unit := do
  let id ← orRaise queryId.str? ⟨.vpTokenMalformed,
    "dcql_query.credential_sets[%].options[%] must hold only Credential Query ids (strings)",
    [.int index, .int position]⟩
  raiseIf (queries.lookup id).isNone ⟨.vpTokenMalformed,
    "dcql_query.credential_sets[%].options[%] names Credential Query %, which is not in dcql_query.credentials",
    [.int index, .int position, .str id]⟩

/-- One option of a set. -/
def checkOption (queries : Queries) (index position : Nat) (option : Json) : Result Unit := do
  let ids ← orRaise (option.arr?.filter (!·.isEmpty)) ⟨.vpTokenMalformed,
    "dcql_query.credential_sets[%].options[%] must be a non-empty array of Credential Query ids",
    [.int index, .int position]⟩
  each (checkOptionId queries index position) ids

/-- One iteration of `_check_credential_sets`. -/
def checkSet (queries : Queries) (index : Nat) (entry : Json) : Result Unit := do
  let set ← orRaise entry.obj?
    ⟨.vpTokenMalformed, "dcql_query.credential_sets[%] must be an object", [.int index]⟩
  let options ← orRaise ((set.get "options").arr?.filter (!·.isEmpty)) ⟨.vpTokenMalformed,
    "dcql_query.credential_sets[%].options must be a non-empty array", [.int index]⟩
  each (fun o => checkOption queries index o.2 o.1) options.zipIdx
  raiseIf (flag set "required" true).bool?.isNone
    ⟨.vpTokenMalformed, "dcql_query.credential_sets[%].required must be a boolean", [.int index]⟩

/-- `_check_credential_sets(value, queries)`. -/
def checkCredentialSets (value : Json) (queries : Queries) : Result Unit := do
  let sets ← orRaise (value.arr?.filter (!·.isEmpty))
    ⟨.vpTokenMalformed, "dcql_query.credential_sets must be a non-empty array", []⟩
  each (fun s => checkSet queries s.2 s.1) sets.zipIdx

/-- The check of a present `credential_sets`. -/
def checkPresentSets (dcql : Dict) (queries : Queries) : Result Unit :=
  if dcql.has "credential_sets" then checkCredentialSets (dcql.get "credential_sets") queries
  else .ok ()

/-- `_index_dcql(dcql_query)`, with the query as the object it is. -/
def indexDcql (dcqlQuery : Json) : Result (Dict × Queries) := do
  let dcql ← orRaise dcqlQuery.obj?
    ⟨.vpTokenMalformed, "dcql_query must be a JSON object", []⟩
  let credentials ← orRaise ((dcql.get "credentials").arr?.filter (!·.isEmpty))
    ⟨.vpTokenMalformed, "dcql_query.credentials must be a non-empty array", []⟩
  let queries ← enumerateLoop (fun queries _ entry => indexQuery queries entry) [] 0 credentials
  checkPresentSets dcql queries
  return (dcql, queries)

/-! ## Completeness -/

/-- The ids of an option that have no answer. -/
def lacking (token : Dict) (option : Json) : List Str :=
  ((option.arr?.getD []).filterMap Json.str?).filter (!token.has ·)

/-- The first option with the fewest ids lacking. -/
def closest (lacks : List (List Str)) : Nat :=
  lacks.findIdx fun l => lacks.all fun l' => l.length ≤ l'.length

/-- One set of `_check_completeness`. -/
def checkAnswered (token : Dict) (index : Nat) (entry : Json) : Result Unit :=
  let set := entry.obj?.getD []
  let lacks := ((set.get "options").arr?.getD []).map (lacking token)
  raiseIf ((flag set "required" true).truthy && lacks.all (!·.isEmpty)) ⟨.vpTokenIncomplete,
    "vp_token does not satisfy credential_sets[%]: no option is answered in full; the closest is options[%], which lacks Credential Query id(s) %",
    [.int index, .int (closest lacks), .arr ((lacks.getD (closest lacks) []).map .str)]⟩

/-- Every query is required. -/
def checkAllAnswered (token : Dict) (queries : Queries) : Result Unit :=
  let missing := (queries.map Prod.fst).filter (!token.has ·)
  raiseIf (!missing.isEmpty) ⟨.vpTokenIncomplete,
    "vp_token is missing required Credential Query id(s): %", [.arr (missing.map .str)]⟩

/-- `_check_completeness(token, queries, dcql_query)`. -/
def checkCompleteness (token : Dict) (queries : Queries) (dcql : Dict) : Result Unit :=
  if dcql.has "credential_sets" then
    each (fun s => checkAnswered token s.2 s.1) ((dcql.get "credential_sets").arr?.getD []).zipIdx
  else checkAllAnswered token queries

/-- `_presentation_list(query_id, query, value)`. -/
def presentationList (queryId : Str) (query : Dict) (value : Json) : Result (List Json) := do
  let presentations ← orRaise value.arr?
    ⟨.vpTokenMalformed, "vp_token[%] must be an array of Presentations", [.str queryId]⟩
  raiseIf presentations.isEmpty
    ⟨.vpTokenMalformed, "vp_token[%] is an empty array", [.str queryId]⟩
  raiseIf (!(flag query "multiple" false).truthy && presentations.length != 1)
    ⟨.vpTokenMalformed,
      "Credential Query % is single-valued but returned % Presentations (set multiple:true to allow more)",
      [.str queryId, .int presentations.length]⟩
  return presentations

/-! ## The audience -/

/-- `_b64url_json(segment).get("aud")`, `null` where it raises. -/
def segmentAud (segment : Option Str) : Json :=
  match segment.map loadSegment with
  | some (.ok (.obj m)) => Dict.get m "aud"
  | _ => .null

/-- The last segment of an SD-JWT. -/
def lastPart (sdJwt : Str) : Str := (Str.split 126 sdJwt).getLastD []

/-- The proof that the audience of an LDP presentation is peeked from. -/
def firstProof (proof : Json) : Json :=
  match proof with
  | .arr (p :: _) => p
  | p => p

/-- `_peek_audience(fmt, presentation)`. -/
def peekAudience (fmt : Option Format) (presentation : Json) : Json :=
  match fmt, presentation with
  | some .sdJwtVc, .str s =>
    if (lastPart s).isEmpty then .null else segmentAud ((Str.split 46 (lastPart s))[1]?)
  | some .jwtVc, .str s => segmentAud ((Str.split 46 s)[1]?)
  | some .ldpVc, .obj m =>
    match firstProof (Dict.get m "proof") with
    | .obj proof => Dict.get proof "domain"
    | _ => .null
  | _, _ => .null

/-- An audience that is accepted. -/
def acceptedAudience (auds : List Str) (candidate : Json) : Option Str :=
  candidate.str?.filter auds.contains

/-- `_effective_audience(fmt, presentation, client_id, accepted_auds)`. -/
def effectiveAudience (fmt : Option Format) (presentation : Json) (clientId : Option Str)
    (acceptedAuds : Option (List Str)) : Result Str :=
  match clientId with
  | some clientId => .ok clientId
  | none => do
    let auds ← orRaise acceptedAuds ⟨.assertionError, "accepted_auds is not None", []⟩
    let aud := peekAudience fmt presentation
    orRaise ((SdJwt.entries aud).findSome? (acceptedAudience auds)) ⟨.claimsInvalid,
      "DC API presentation audience % is not one of the expected origins (need one of %)",
      [aud, .arr (auds.map .str)]⟩

end OpenVC.OpenId4Vp
