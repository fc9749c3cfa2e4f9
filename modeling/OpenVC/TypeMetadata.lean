import OpenVC.Schema

/-!
# SD-JWT VC type metadata (`openvc.type_metadata`)

A type is described by a document fetched under its `vct`; a document may extend another, whose
claim metadata it inherits where it declares no claim of the same path. A resolver is asked for a
`vct` at most once in a run, so it is a function of the `vct`.
-/

namespace OpenVC.TypeMetadata

open Python

/-- `_MAX_EXTENDS_DEPTH`. -/
def maxExtendsDepth : Nat := 10

/-- `_MAX_SELECT_NODES`. -/
def maxSelectNodes : Nat := 10000

/-- A `TypeMetadataResult`. -/
structure TypeMetadataResult where
  vct : Str
  documents : List Dict
  claims : List Dict

/-- A `ResolveTypeMetadata`. -/
abbrev ResolveTypeMetadata := Str → Result Schema.Fetched

/-! ## Resolution and the `extends` chain -/

/-- The failures `except Exception` catches. -/
def caught (e : Err) : Bool := e.cls.isa .exception

/-- The failures of an integrity check that are recast. -/
def sriFailed (e : Err) : Bool := e.cls.isa .schemaResolutionError

/-- The bytes a resolver returned. -/
def fetchedBytes (vct : Str) : Schema.Fetched → Result Bytes
  | .bytes data => .ok data
  | .other _ => raise .typeMetadataResolutionError
      "type metadata resolver for % must return bytes" [.str vct]

/-- The integrity hash of a document, if the reference to it declares one. -/
def checkIntegrity (C : Crypto) (vct : Str) (raw : Bytes) : Json → Result Unit
  | .null => .ok ()
  | .str integrity => reraise (Schema.verifySri C raw integrity vct) sriFailed
      .typeMetadataResolutionError "type metadata for % fails its integrity hash: " [.str vct]
  | _ => raise .typeMetadataResolutionError "% #integrity must be a string" [.str vct]

/-- The retrieved bytes as a document of the type. -/
def readDocument (vct : Str) (raw : Bytes) : Result Dict := do
  let parsed ← recast (loadsBytes raw) .valueError
    ⟨.typeMetadataResolutionError, "type metadata for % is not valid JSON: ", [.str vct]⟩
  let document ← orRaise parsed.obj?
    ⟨.typeMetadataResolutionError, "type metadata for % must be a JSON object", [.str vct]⟩
  raiseIf (!Json.pyEq (document.get "vct") (.str vct)) ⟨.typeMetadataMismatch,
    "type metadata vct % != requested %", [document.get "vct", .str vct]⟩
  return document

/-- `_fetch_document(vct, integrity, resolve)`. -/
def fetchDocument (C : Crypto) (resolve : ResolveTypeMetadata) (vct : Str) (integrity : Json) :
    Result Dict := do
  let fetched ← reraise (resolve vct) caught .typeMetadataResolutionError
    "could not retrieve type metadata for %: " [.str vct]
  let raw ← fetchedBytes vct fetched
  checkIntegrity C vct raw integrity
  readDocument vct raw

/-- `_is_valid_component(component)`. -/
def isValidComponent : Json → Bool
  | .str _ => true
  | .null => true
  | .int n => 0 ≤ n
  | _ => false

/-- `_is_valid_path(path)`. -/
def isValidPath : Json → Bool
  | .arr l => !l.isEmpty && l.all isValidComponent
  | _ => false

/-- The members of a `claims` array, all of them objects. -/
def claimObjects : Json → Option (List Dict)
  | .arr l => if l.all (·.obj?.isSome) then some (l.filterMap Json.obj?) else none
  | _ => none

/-- A claim of a document needs a well-formed path. -/
def checkPath (vct : Str) (claim : Dict) : Result Unit :=
  raiseIf (!isValidPath (claim.get "path")) ⟨.typeMetadataResolutionError,
    "type metadata % has a malformed claim path %", [.str vct, claim.get "path"]⟩

/-- The claims of a document that has some. -/
def readClaims (vct : Str) (claims : Json) : Result (List Dict) := do
  let claims ← orRaise (claimObjects claims) ⟨.typeMetadataResolutionError,
    "type metadata % claims must be an array of objects", [.str vct]⟩
  each (checkPath vct) claims
  return claims

/-- `_claim_list(document, vct)`. -/
def claimList (document : Dict) (vct : Str) : Result (List Dict) :=
  if (document.get "claims").isNull then .ok [] else readClaims vct (document.get "claims")

/-- `_path_key(path)`, a tuple. -/
def pathKey : Json → List Json
  | .arr l => l
  | path => [path]

/-- Whether the key of a claim is among those of others. -/
def overridden (child : List Dict) (p : Dict) : Bool :=
  child.any fun c => Json.pyEqList (pathKey (c.get "path")) (pathKey (p.get "path"))

/-- `_compose_claims(child, parent)`. -/
def composeClaims (child parent : List Dict) : List Dict :=
  child ++ parent.filter fun p => !overridden child p

/-- `_resolve_chain(vct, integrity, resolve, max_depth, seen)`, with `levels` for
`max_depth - len(seen)`. -/
def resolveChain (C : Crypto) (resolve : ResolveTypeMetadata) (maxDepth : Nat) :
    Nat → Str → Json → List Str → Result (List Dict × List Dict)
  | 0, _, _, _ => raise .typeMetadataResolutionError "type metadata extends chain exceeds % levels"
      [.int maxDepth]
  | levels + 1, vct, integrity, seen => do
    raiseIf (seen.contains vct) ⟨.typeMetadataResolutionError,
      "type metadata extends cycle at %", [.str vct]⟩
    let document ← fetchDocument C resolve vct integrity
    let claims ← claimList document vct
    match document.get "extends" with
    | .null => .ok ([document], claims)
    | .str extends' => do
      let (parentDocs, parentClaims) ← resolveChain C resolve maxDepth levels extends'
        (document.get "extends#integrity") (seen ++ [vct])
      return (document :: parentDocs, composeClaims claims parentClaims)
    | _ => raise .typeMetadataResolutionError "type metadata % has a non-string extends" [.str vct]

/-! ## Claim-metadata validation -/

/-- The nodes a component selects from one node. -/
def selectNode (component node : Json) : Result (List Json) :=
  match component with
  | .str name => match node with
    | .obj m => .ok (Dict.get? m name).toList
    | _ => raise .typeMetadataClaimsInvalid "path component % applied to a non-object" [component]
  | .null => match node with
    | .arr l => .ok l
    | _ => raise .typeMetadataClaimsInvalid "null path component applied to a non-array" []
  | .int n =>
    if 0 ≤ n then match node with
      | .arr l => .ok l[n.toNat]?.toList
      | _ => raise .typeMetadataClaimsInvalid "index path component % applied to a non-array"
          [component]
    else raise .typeMetadataClaimsInvalid "invalid path component %" [component]
  | _ => raise .typeMetadataClaimsInvalid "invalid path component %" [component]

/-- One component of a path, over the nodes selected so far. -/
def selectStep (nodes : List Json) (component : Json) : Result (List Json) := do
  let selected ← collect (selectNode component) nodes
  raiseIf (maxSelectNodes < selected.flatten.length) ⟨.typeMetadataClaimsInvalid,
    "claim path selection exceeds % nodes", [.int maxSelectNodes]⟩
  return selected.flatten

/-- The components of a path, one after another. -/
def selectFrom : List Json → List Json → Result (List Json)
  | nodes, [] => .ok nodes
  | nodes, component :: path => do
    let nodes ← selectStep nodes component
    selectFrom nodes path

/-- `_select(payload, path)`. -/
def select (payload : Dict) (path : List Json) : Result (List Json) :=
  selectFrom [.obj payload] path

/-- `mandatory is True`. -/
def isMandatory (claim : Dict) : Bool :=
  match claim.get "mandatory" with
  | .bool b => b
  | _ => false

/-- One iteration of `_validate_claims`. -/
def validateClaim (payload claim : Dict) : Result Unit := do
  let path ← orRaise ((claim.get "path").arr?.filter (!·.isEmpty))
    ⟨.typeMetadataClaimsInvalid, "a claim metadata object needs a non-empty path", []⟩
  let selection ← select payload path
  raiseIf (isMandatory claim && selection.isEmpty) ⟨.typeMetadataClaimsInvalid,
    "mandatory claim at path % is not present in the credential", [.arr path]⟩

/-- `_validate_claims(payload, claims)`. -/
def validateClaims (payload : Dict) (claims : List Dict) : Result Unit :=
  each (validateClaim payload) claims

/-- `validate_type_metadata(payload, vct, vct_integrity, resolve, max_extends_depth)`. -/
def validateTypeMetadata (C : Crypto) (payload : Dict) (vct : Str) (vctIntegrity : Json)
    (resolve : ResolveTypeMetadata) (depth : Nat) : Result TypeMetadataResult := do
  let (documents, claims) ← resolveChain C resolve depth depth vct vctIntegrity []
  validateClaims payload claims
  return ⟨vct, documents, claims⟩

end OpenVC.TypeMetadata
