import OpenVC.JsonInput

/-!
# Relying-party registration: the scope of a request (`openvc.rp_registration`)

What a registration certificate grants, and the check of a presentation request against it. Both sides
are JSON: the registered `credentials` and the relying party's DCQL query.
-/

namespace OpenVC.Rp

open Python

/-- `_str_or_none(value)`. -/
def strOrNone : Json → Option Str
  | .str s => if s.strip.isEmpty then none else some s.strip
  | _ => none

/-! ## The registered scope -/

/-- A `RequestableCredential`. No constraint is `some []`, a malformed one `none`. -/
structure RequestableCredential where
  format : Option Str
  metaObj : Option Dict
  claimPaths : List (List Json)

/-- What the scope check reads of a `RelyingPartyRegistrationCertificate`. -/
structure Registration where
  intendedUseId : Option Str
  credentials : List RequestableCredential

/-- The claim path of one item; `none` skips it. -/
def pathOf : Json → Option (List Json)
  | .obj item =>
    match Dict.get item "path" with
    | .arr path => some path
    | .str name => some [.str name]
    | _ => none
  | _ => none

/-- `_paths_under(entry, key)`. -/
def pathsUnder (entry : Dict) (key : Str) : List (List Json) :=
  match entry.get key with
  | .arr items => items.filterMap pathOf
  | _ => []

/-- `_registered_paths(entry)`: a present `claim` wins, also when it is empty. -/
def registeredPaths (entry : Dict) : List (List Json) :=
  if entry.has "claim" then pathsUnder entry "claim" else pathsUnder entry "claims"

/-- One path added to those seen, unless Python finds it among them. -/
def addPath (seen : List (List Json)) (path : List Json) : List (List Json) :=
  if seen.any (Json.pyEqList path) then seen else seen ++ [path]

/-- `_requested_paths(query)`: the union of both spellings. -/
def requestedPaths (query : Dict) : List (List Json) :=
  (pathsUnder query "claim").foldl addPath (pathsUnder query "claims")

/-- The entry of one object of `credentials`. -/
def requestableEntry (entry : Dict) : RequestableCredential where
  format := strOrNone (entry.get "format")
  metaObj := if (entry.get "meta").isNull then some [] else (entry.get "meta").obj?
  claimPaths := registeredPaths entry

/-- `_requestable(value)`. -/
def requestable : Json → List RequestableCredential
  | .arr entries => (entries.filterMap Json.obj?).map requestableEntry
  | _ => []

/-- `_build(claims)`. -/
def build (claims : Dict) : Registration where
  intendedUseId := strOrNone (claims.get "intended_use_id")
  credentials := requestable (claims.get "credentials")

/-! ## The check -/

/-- Whether a value is a `bool`. -/
def isBool (v : Json) : Bool := v.bool?.isSome

/-- `_same(a, b)`. -/
def same (a b : Json) : Bool := Json.pyEq a b && (isBool a == isBool b)

/-- One step of a registered path against one of a requested path. -/
def elementCovered (registered requested : Json) : Bool :=
  registered.isNull || same registered requested

/-- `_path_covered(registered, requested)`. -/
def pathCovered (registered requested : List Json) : Bool :=
  !registered.isEmpty && registered.length ≤ requested.length &&
    (registered.zip requested).all fun step => elementCovered step.1 step.2

/-- One constraint of a request against the registered one. -/
def constraintCovered : Json → Json → Bool
  | .arr want, .arr held => want.all fun w => held.any (same w)
  | .arr _, _ => false
  | want, .arr held => held.any (same want)
  | want, held => same want held

/-- `_meta_covered(registered, requested)`. -/
def metaCovered (registered : Option Dict) (requested : Dict) : Bool :=
  match registered with
  | none => false
  | some registered =>
    if requested.isEmpty then registered.isEmpty
    else requested.all fun p =>
      match registered.get? p.1 with
      | some held => constraintCovered p.2 held
      | none => false

/-- The `meta` a credential query is read with. -/
def queryMeta (query : Dict) : Dict := (query.get "meta").obj?.getD []

/-- The registered entries that apply to a query. -/
def candidates (registration : Registration) (format : Str) (wantMeta : Dict) :
    List RequestableCredential :=
  registration.credentials.filter fun c => c.format == some format && metaCovered c.metaObj wantMeta

/-- One path of a request must be among the grants. -/
def checkPath (label : Str) (granted : List (List Json)) (path : List Json) : Result Unit :=
  raiseIf (!granted.any (pathCovered · path)) ⟨.rpRegistrationError,
    "credential query % requests claim path %, which this WRPRC does not register",
    [.str label, .arr path]⟩

/-- The name of a query in messages. -/
def labelOf (query : Dict) (index : Nat) : Str :=
  (strOrNone (query.get "id")).getD (lit "#" ++ Str.ofNat index)

/-- One credential query against the registration. -/
def checkQuery (registration : Registration) (entry : Json × Nat) : Result Unit := do
  let query ← orRaise entry.1.obj? ⟨.rpRegistrationError,
    "dcql_query credential #% is not an object", [.int entry.2]⟩
  let label := labelOf query entry.2
  let format ← orRaise (strOrNone (query.get "format")) ⟨.rpRegistrationError,
    "credential query % has no string format", [.str label]⟩
  let applicable := candidates registration format (queryMeta query)
  raiseIf applicable.isEmpty ⟨.rpRegistrationError,
    "credential query % asks for format % with meta %, which this WRPRC does not register",
    [.str label, .str format, .obj (queryMeta query)]⟩
  raiseIf (requestedPaths query).isEmpty ⟨.rpRegistrationError,
    "credential query % names no claims (asks for every attribute), which this WRPRC does not register",
    [.str label]⟩
  each (checkPath label (applicable.flatMap (·.claimPaths))) (requestedPaths query)

/-- Whether the registration is for the asserted intended use. -/
def useMatches (registration : Registration) (intendedUseId : Option Str) : Bool :=
  match intendedUseId with
  | none => true
  | some use => registration.intendedUseId == some use

/-- `check_request_within_registration(registration, dcql_query, intended_use_id)`. -/
def checkRequestWithinRegistration (registration : Registration) (dcqlQuery : Json)
    (intendedUseId : Option Str) : Result Unit := do
  raiseIf (!useMatches registration intendedUseId) ⟨.rpRegistrationError,
    "WRPRC registers intended use %, not %",
    [(registration.intendedUseId.map Json.str).getD .null, (intendedUseId.map Json.str).getD .null]⟩
  let query ← orRaise dcqlQuery.obj?
    ⟨.rpRegistrationError, "dcql_query must be a JSON object", []⟩
  raiseIf (nestingExceeds dcqlQuery maxDepth) ⟨.rpRegistrationError,
    "dcql_query is nested deeper than % levels", [.int maxDepth]⟩
  let queries ← orRaise ((query.get "credentials").arr?.filter (!·.isEmpty))
    ⟨.rpRegistrationError, "dcql_query has no 'credentials' array to check", []⟩
  each (checkQuery registration) queries.zipIdx

end OpenVC.Rp
