import OpenVC.JsonInput
import OpenVC.Keys

/-!
# `credentialSchema` validation (`openvc.schema`)

A credential names JSON Schemas by URL; a schema is fetched, held to its integrity hash and applied
to the whole credential. The `jsonschema` processor is a parameter.
-/

namespace OpenVC.Schema

open Python

/-- The recognised schema types. -/
inductive SchemaType where
  /-- `JsonSchema`. -/
  | json
  /-- `JsonSchemaCredential`. -/
  | jsonCredential
  deriving DecidableEq

/-- The type a name stands for. -/
def SchemaType.ofName (name : Str) : Option SchemaType :=
  if name = lit "JsonSchema" then some .json
  else if name = lit "JsonSchemaCredential" then some .jsonCredential
  else none

/-- A `CredentialSchemaRef`. -/
structure SchemaRef where
  id : Str
  type : Str
  digestSri : Option Str

/-- A `SchemaValidationResult`. -/
structure ValidationResult where
  validated : Bool
  schemas : List Str

/-! ## Parsing -/

/-- `_as_entry_list(raw)`. -/
def asEntryList : Json → Result (List Dict)
  | .null => .ok []
  | .obj m => .ok [m]
  | .arr l => orRaise (if l.all (·.obj?.isSome) then some (l.filterMap Json.obj?) else none)
      ⟨.schemaResolutionError, "credentialSchema entries must be objects", []⟩
  | _ => raise .schemaResolutionError "credentialSchema must be an object or an array" []

/-- The declared types of an entry. -/
def declaredTypes : Json → Option (List Str)
  | .str s => some [s]
  | .arr l => if l.all (·.str?.isSome) then some (l.filterMap Json.str?) else none
  | _ => none

/-- The first recognised type, else the first declared one. -/
def chosenType (types : List Str) : Str :=
  (types.find? fun t => (SchemaType.ofName t).isSome).getD (types.headD [])

/-- One entry of `parse_credential_schemas`. -/
def parseEntry (raw : Dict) : Result SchemaRef := do
  let sid ← orRaise ((raw.get "id").str?.filter (!·.isEmpty))
    ⟨.schemaResolutionError, "credentialSchema entry needs a string id", []⟩
  let types ← orRaise (declaredTypes (raw.get "type"))
    ⟨.schemaResolutionError, "credentialSchema entry needs a type", []⟩
  raiseIf (chosenType types).isEmpty
    ⟨.schemaResolutionError, "credentialSchema entry needs a type", []⟩
  raiseIf (!(raw.get "digestSRI").isNull && (raw.get "digestSRI").str?.isNone)
    ⟨.schemaResolutionError, "credentialSchema digestSRI must be a string", []⟩
  return ⟨sid, chosenType types, (raw.get "digestSRI").str?⟩

/-- `parse_credential_schemas(credential)`. -/
def parseCredentialSchemas (credential : Dict) : Result (List SchemaRef) := do
  let raws ← asEntryList (credential.get "credentialSchema")
  collect parseEntry raws

/-! ## Integrity -/

/-- The algorithms of `_SRI_HASHES`, weakest first. -/
inductive SriAlg where
  | sha256
  | sha384
  | sha512
  deriving DecidableEq

/-- The algorithm a name stands for. -/
def SriAlg.ofName (name : Str) : Option SriAlg :=
  if name = lit "sha256" then some .sha256
  else if name = lit "sha384" then some .sha384
  else if name = lit "sha512" then some .sha512
  else none

/-- The order of the names. -/
def SriAlg.rank : SriAlg → Nat
  | .sha256 => 0
  | .sha384 => 1
  | .sha512 => 2

/-- The name of an algorithm. -/
def SriAlg.name : SriAlg → Str
  | .sha256 => "sha256"
  | .sha384 => "sha384"
  | .sha512 => "sha512"

/-- The digest of an algorithm. -/
def SriAlg.digest (C : Crypto) : SriAlg → Bytes → Bytes
  | .sha256 => C.sha256
  | .sha384 => C.sha384
  | .sha512 => C.sha512

/-- `s.split()` with the characters of the current word in `cur`, last one first. -/
def wordsGo (cur : Str) : Str → List Str
  | [] => if cur.isEmpty then [] else [cur.reverse]
  | c :: t =>
    if Str.isSpace c then (if cur.isEmpty then [] else [cur.reverse]) ++ wordsGo [] t
    else wordsGo (c :: cur) t

/-- `s.split()`. -/
def words (s : Str) : List Str := wordsGo [] s

/-- One option of an integrity string. -/
def sriOption (token : Str) : Option (SriAlg × Bytes) :=
  let (alg, _, b64) := Str.partition 45 token
  match SriAlg.ofName alg with
  | none => none
  | some alg => if b64.isEmpty then none else (Codec.b64Decode b64).map (alg, ·)

/-- `max(alg for alg, _ in options)`. -/
def strongest (options : List (SriAlg × Bytes)) : SriAlg :=
  options.foldl (fun alg o => if alg.rank < o.1.rank then o.1 else alg) .sha256

/-- `_verify_sri(data, integrity, url)`. -/
def verifySri (C : Crypto) (data : Bytes) (integrity url : Str) : Result Unit := do
  let options := (words integrity).filterMap sriOption
  raiseIf options.isEmpty
    ⟨.schemaResolutionError, "schema % has an unparseable digestSRI %", [.str url, .str integrity]⟩
  raiseIf (!options.any fun o => o.1 == strongest options && o.1.digest C data == o.2)
    ⟨.schemaResolutionError, "schema % does not match its digestSRI (%)",
      [.str url, .str (strongest options).name]⟩

/-! ## Validation -/

/-- What `check_schema` and `iter_errors` came to. -/
inductive Verdict where
  | valid
  /-- A `SchemaError`. -/
  | invalidSchema (text : Str)
  /-- A `ValidationError`. -/
  | notValidated (text : Str)
  /-- An unresolvable `$ref`. -/
  | unresolvable (text : Str)
  /-- The first of the errors, by its path and message. -/
  | mismatch (path text : Str)

/-- The `jsonschema` processor: schema, then instance. `none` when it is not installed. -/
abbrev Processor := Option (Dict → Dict → Verdict)

/-- The exception of a verdict. -/
def verdictOk (schemaUrl : Str) : Verdict → Result Unit
  | .valid => .ok ()
  | .invalidSchema text => raise .schemaResolutionError
      "resource at % is not a valid JSON Schema: %" [.str schemaUrl, .str text]
  | .notValidated text => raise .schemaValidationError
      "could not validate against schema %: %" [.str schemaUrl, .str text]
  | .unresolvable text => raise .schemaResolutionError
      "schema % has an unresolvable $ref (remote $ref resolution is off): %"
      [.str schemaUrl, .str text]
  | .mismatch path text => raise .schemaValidationError
      "credential does not conform to schema %: at %: %" [.str schemaUrl, .str path, .str text]

/-- `_validate_instance(instance, schema, schema_url)`. -/
def validateInstance (P : Processor) (inst schema : Dict) (schemaUrl : Str) : Result Unit := do
  let validate ← orRaise P ⟨.schemaBackendUnavailable,
    "credentialSchema validation needs the jsonschema processor: pip install openvc-core[schema]",
    []⟩
  raiseIf (schema.get "$schema").str?.isNone ⟨.schemaResolutionError,
    "resource at % has no $schema and MUST NOT be processed", [.str schemaUrl]⟩
  verdictOk schemaUrl (validate schema inst)

/-- `_require_known_schema_type(ref)`. -/
def requireKnownSchemaType (ref : SchemaRef) : Result SchemaType :=
  orRaise (SchemaType.ofName ref.type) ⟨.unsupportedSchemaType,
    "credentialSchema type % is not supported (only 'JsonSchema' and 'JsonSchemaCredential' are validated)",
    [.str ref.type]⟩

/-- What a schema resolver returned. -/
inductive Fetched where
  | bytes (data : Bytes)
  /-- Anything else, by the name of its type. -/
  | other (type : Str)

/-- A `ResolveCredentialSchema`: the answer to its `n`-th call may depend on `n`. -/
abbrev SchemaResolver := Nat → Str → Result Fetched

/-- A `VerifyInnerCredential`. -/
abbrev VerifyInner := Bytes → Result Dict

/-- The bytes a resolver returned. -/
def fetchedBytes (ref : SchemaRef) : Fetched → Result Bytes
  | .bytes data => .ok data
  | .other type => raise .schemaResolutionError "schema % resolver must return bytes, got %"
      [.str ref.id, .str type]

/-- The integrity hash of a reference, if it has one. -/
def checkDigestSri (C : Crypto) (ref : SchemaRef) (data : Bytes) : Result Unit :=
  match ref.digestSri with
  | none => .ok ()
  | some sri => if sri.isEmpty then .ok () else verifySri C data sri ref.id

/-- `_prepare_schema_bytes(ref, raw)`. -/
def prepareSchemaBytes (C : Crypto) (ref : SchemaRef) (raw : Fetched) : Result Bytes := do
  let data ← fetchedBytes ref raw
  checkDigestSri C ref data
  return data

/-- `_extract_json_schema(_parse_schema_resource(raw, url))`. -/
def schemaFromResource (raw : Bytes) (url : Str) : Result Dict := do
  let resource ← recast (loadsBytes raw) .valueError
    ⟨.schemaResolutionError, "schema % is not valid JSON: ", [.str url]⟩
  let resource ← orRaise resource.obj?
    ⟨.schemaResolutionError, "schema % did not resolve to a JSON object", [.str url]⟩
  return (resource.get "jsonSchema").obj?.getD resource

/-- Whether the `type` of a credential includes `JsonSchemaCredential`. -/
def isSchemaCredential (inner : Dict) : Bool :=
  match inner.get "type" with
  | .str s => s == lit "JsonSchemaCredential"
  | .arr l => l.any (Json.pyEq (.str (lit "JsonSchemaCredential")))
  | _ => false

/-- Whether a subject carries a schema. -/
def carriesSchema (subject : Dict) : Bool := (subject.get "jsonSchema").obj?.isSome

/-- The subject a schema is read from. -/
def schemaSubject (subject : Json) : Option Dict :=
  match subject with
  | .arr l => (l.filterMap Json.obj?).find? carriesSchema
  | subject => subject.obj?

/-- `_json_schema_from_verified_credential(inner, ref)`. -/
def schemaFromVerified (inner : Dict) (ref : SchemaRef) : Result Dict := do
  raiseIf (!isSchemaCredential inner) ⟨.schemaResolutionError,
    "credential at % verified but is not a JsonSchemaCredential (declared types: %)",
    [.str ref.id, inner.get "type"]⟩
  let subject ← orRaise (schemaSubject (inner.get "credentialSubject"))
    ⟨.schemaResolutionError, "JsonSchemaCredential at % has no credentialSubject object",
      [.str ref.id]⟩
  orRaise (subject.get "jsonSchema").obj? ⟨.schemaResolutionError,
    "JsonSchemaCredential at % credentialSubject carries no jsonSchema object", [.str ref.id]⟩

/-- The failure of a schema-defining credential. -/
def innerFailed (e : Err) : Bool := e.cls.isa .openvcError

/-- `_require_inner_verifier(verify_inner)`. -/
def requireInnerVerifier {α : Type} (verifyInner : Option α) : Result α :=
  orRaise verifyInner ⟨.unsupportedSchemaType,
    "credentialSchema type 'JsonSchemaCredential' needs a verifier for its inner VC; verify through openvc.verify_credential (which injects one) or pass verify_inner=",
    []⟩

/-- `_schema_from_credential(raw, ref, verify_inner)`. -/
def schemaFromCredential (raw : Bytes) (ref : SchemaRef) (verifyInner : Option VerifyInner) :
    Result Dict := do
  let verify ← requireInnerVerifier verifyInner
  let inner ← reraise (verify raw) innerFailed .schemaResolutionError
    "JsonSchemaCredential at % did not verify: " [.str ref.id]
  schemaFromVerified inner ref

/-- The failures of a schema fetch that are typed. -/
def fetchFailed (e : Err) : Bool := e.cls.isa .schemaError || e.cls.isa .didError

/-- The schema in the fetched bytes. -/
def readSchema (type : SchemaType) (data : Bytes) (ref : SchemaRef)
    (verifyInner : Option VerifyInner) : Result Dict :=
  match type with
  | .json => schemaFromResource data ref.id
  | .jsonCredential => schemaFromCredential data ref verifyInner

/-- `_resolve_schema(ref, resolve_credential_schema, verify_inner)`, at the `n`-th reference. -/
def resolveSchema (C : Crypto) (n : Nat) (ref : SchemaRef) (resolve : SchemaResolver)
    (verifyInner : Option VerifyInner) : Result Dict := do
  let type ← requireKnownSchemaType ref
  let raw ← reraise (resolve n ref.id) fetchFailed .schemaResolutionError
    "could not resolve schema %: " [.str ref.id]
  let data ← prepareSchemaBytes C ref raw
  readSchema type data ref verifyInner

/-- One iteration of `validate_credential_schema`. -/
def applySchema (C : Crypto) (P : Processor) (credential : Dict) (resolve : SchemaResolver)
    (verifyInner : Option VerifyInner) (applied : List Str) (n : Nat) (ref : SchemaRef) :
    Result (List Str) := do
  let schema ← resolveSchema C n ref resolve verifyInner
  validateInstance P credential schema ref.id
  return applied ++ [ref.id]

/-- `validate_credential_schema(credential, resolve_credential_schema, verify_inner)`. -/
def validateCredentialSchema (C : Crypto) (P : Processor) (credential : Dict)
    (resolve : SchemaResolver) (verifyInner : Option VerifyInner) : Result ValidationResult := do
  let refs ← parseCredentialSchemas credential
  let applied ← enumerateLoop (applySchema C P credential resolve verifyInner) [] 0 refs
  return ⟨!applied.isEmpty, applied⟩

end OpenVC.Schema
