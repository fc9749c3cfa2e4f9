import OpenVC.JsonInput
import OpenVC.Python.Interpreter
import OpenVC.Python.Url

/-!
# Issuer keys of an https issuer (`openvc.jwt_vc_issuer`)

The metadata of an https issuer is at a well-known URL of its host and must name the issuer. The
fetch is the caller's: the answer to its `n`-th call may depend on `n`.
-/

namespace OpenVC

open Python

/-- An injected fetch. -/
abbrev Fetch := Nat → Str → Result Json

namespace JwtVcIssuer

/-- `_WELL_KNOWN`. -/
def wellKnown : Str := "/.well-known/jwt-vc-issuer"

/-- `_DOT_SEGMENTS`. -/
def dotSegments : List Str := [".", "..", "%2e", ".%2e", "%2e.", "%2e%2e"]

/-- `_raw_url_disagreement(value)`. -/
def rawUrlDisagreement (value : Str) : Option String :=
  if !value.isAscii then some "is not ASCII; write an IDN host as its xn-- A-label"
  else if value.contains 92 then some "contains a backslash"
  else if value.contains 59 || value.contains 63 || value.contains 35 then
    some "must not carry params, a query or a fragment"
  else none

/-- `_parsed_url_disagreement(parsed)`. -/
def parsedUrlDisagreement (parsed : Url.SplitResult) : Option String :=
  if parsed.netloc.contains 37 then some "has a percent-encoded host"
  else if parsed.port = some (some 0) then some "has port 0"
  else if (Str.split 47 parsed.path).any fun s => dotSegments.contains s.asciiLower then
    some "has a . or .. path segment"
  else none

/-- `raise JwtVcIssuerError(f"issuer {safe_repr(iss)} {reason}")`, when there is a reason. -/
def refuse (iss : Str) (reason : Option String) : Result Unit :=
  raiseIf reason.isSome ⟨.jwtVcIssuerError, "issuer % " ++ reason.getD "", [.str iss]⟩

/-- A URL whose port and brackets `urlparse` can read. -/
def readableUrl (I : Interpreter) (iss : Str) : Option Url.SplitResult :=
  (Url.urlsplit I.bracketedNetloc iss).filter (·.port.isSome)

/-- `_parse_https_issuer(iss)`. -/
def parseHttpsIssuer (I : Interpreter) (iss : Str) : Result Url.SplitResult := do
  raiseIf (iss.any fun char => char < 0x21 || char == 0x7F)
    ⟨.jwtVcIssuerError, "issuer % contains control characters or whitespace", [.str iss]⟩
  refuse iss (rawUrlDisagreement iss)
  let parsed ← orRaise (readableUrl I iss)
    ⟨.jwtVcIssuerError, "issuer % is not a valid URL: ", [.str iss]⟩
  raiseIf (parsed.scheme != lit "https")
    ⟨.jwtVcIssuerError, "issuer % is not an https URL", [.str iss]⟩
  raiseIf (parsed.hostname.all (· == 46)) ⟨.jwtVcIssuerError, "issuer % has no host", [.str iss]⟩
  raiseIf (parsed.netloc.contains 64)
    ⟨.jwtVcIssuerError, "issuer % must not carry userinfo", [.str iss]⟩
  refuse iss (parsedUrlDisagreement parsed)
  return parsed

/-- `jwt_vc_issuer_metadata_url(iss)`. -/
def metadataUrl (I : Interpreter) (iss : Str) : Result Str := do
  let parsed ← parseHttpsIssuer I iss
  let path := if parsed.path = lit "/" then [] else parsed.path
  return Url.urlunsplit ⟨"https", parsed.netloc, wellKnown ++ path, [], []⟩

/-- The public keys of a JWK Set. -/
def publicKeys (keys : List Json) : List Dict :=
  (keys.filterMap Json.obj?).filter (!·.has "d")

/-- The one candidate that the `kid` names, or without a `kid` the only one. -/
def pickKey (candidates : List Dict) (kid : Json) : Result Dict :=
  if kid.isNull then
    match candidates with
    | [key] => .ok key
    | _ => raise .jwtVcIssuerError "issuer JWKS has multiple keys but the token has no kid" []
  else
    orRaise (candidates.find? fun key => Json.pyEq (key.get "kid") kid)
      ⟨.jwtVcIssuerError, "no key with kid % in the issuer JWKS", [kid]⟩

/-- `_select_key(keys, kid)`. -/
def selectKey (keys : List Json) (kid : Json) : Result Dict := do
  raiseIf (publicKeys keys).isEmpty
    ⟨.jwtVcIssuerError, "issuer JWKS has no usable public key", []⟩
  pickKey (publicKeys keys) kid

/-- Where the JWK Set of an issuer is: in its metadata, or at a URL. -/
inductive Jwks where
  | inline (jwks : Json)
  | uri (uri : Str)

/-- `_inline_jwks_or_uri(metadata, iss)`. -/
def inlineJwksOrUri (metadata : Json) (iss : Str) : Result Jwks := do
  let doc ← orRaise metadata.obj?
    ⟨.jwtVcIssuerError, "issuer metadata is not a JSON object", []⟩
  raiseIf (nestingExceeds metadata maxDepth)
    ⟨.jwtVcIssuerError, "issuer metadata is nested deeper than % levels", [.int maxDepth]⟩
  raiseIf (!Json.pyEq (doc.get "issuer") (.str iss))
    ⟨.jwtVcIssuerError, "metadata issuer % != token iss %", [doc.get "issuer", .str iss]⟩
  if !(doc.get "jwks").isNull then return .inline (doc.get "jwks")
  else do
    let uri ← orRaise (doc.get "jwks_uri").str?
      ⟨.jwtVcIssuerError, "issuer metadata has neither jwks nor jwks_uri", []⟩
    return .uri uri

/-- A non-empty `keys` array. -/
def keysOf (jwks : Json) : Option (List Json) :=
  match jwks with
  | .obj m => (Dict.get m "keys").arr?.filter (!·.isEmpty)
  | _ => none

/-- `_key_from_jwks(jwks, kid)`. -/
def keyFromJwks (jwks kid : Json) : Result Dict := do
  raiseIf (nestingExceeds jwks maxDepth)
    ⟨.jwtVcIssuerError, "issuer JWKS is nested deeper than % levels", [.int maxDepth]⟩
  let keys ← orRaise (keysOf jwks) ⟨.jwtVcIssuerError, "issuer JWKS has no `keys` array", []⟩
  selectKey keys kid

/-- The JWK Set, fetched when the metadata only names it. -/
def fetchJwks (fetch : Fetch) : Jwks → Result Json
  | .inline jwks => .ok jwks
  | .uri uri => fetch 1 uri

/-- `resolve_jwt_vc_issuer_key(iss, kid, fetch)`. -/
def resolveKey (I : Interpreter) (fetch : Fetch) (iss : Str) (kid : Json) : Result Dict := do
  let url ← metadataUrl I iss
  let metadata ← fetch 0 url
  let jwks ← inlineJwksOrUri metadata iss
  let jwks ← fetchJwks fetch jwks
  keyFromJwks jwks kid

end JwtVcIssuer

end OpenVC
