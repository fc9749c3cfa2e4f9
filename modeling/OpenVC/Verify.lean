import OpenVC.Status.StatusList

/-!
# The status gate of the pipeline (`openvc.verify`)

`_check_status` enforces both status conventions a credential can declare: the W3C `credentialStatus`
and the IETF `status`.
-/

namespace OpenVC

open Python Status

/-- The fields of a `VerificationPolicy` that the status gate reads. -/
structure VerificationPolicy where
  requireStatus : Bool := true
  requireNotRevoked : Bool := true
  requireStatusIssuerBinding : Bool := false
  statusIssuerAllowlist : Option (List Str) := none

/-- What `_check_status` returns: the result of either convention. -/
inductive StatusOutcome where
  | w3c (result : StatusResult)
  | ietf (result : TokenStatusResult)

/-- The value that names the issuer of a resolved list. -/
def listIssuer (statusObj : Json) (field : Str) : Json :=
  match statusObj with
  | .obj m => match Dict.get m field with
    | .obj issuer => Dict.get issuer "id"
    | issuer => issuer
  | _ => .null

/-- `_enforce_status_issuer(status_obj, field, credential_issuer, policy)`. -/
def enforceStatusIssuer (statusObj : Json) (field credentialIssuer : Str)
    (policy : VerificationPolicy) : Result Unit := do
  let si ← orRaise ((listIssuer statusObj field).str?.filter (!·.isEmpty)) ⟨.statusListIssuerUntrusted,
    "resolved status list has no issuer to bind against", []⟩
  raiseIf (si != credentialIssuer && !(policy.statusIssuerAllowlist.any (·.contains si)))
    ⟨.statusListIssuerUntrusted,
      "status list issuer % is not the credential issuer % nor an allow-listed delegate (require_status_issuer_binding)",
      [.str si, .str credentialIssuer]⟩

/-- `_bind_status_issuer(inner, credential_issuer, policy, field)`. -/
def bindStatusIssuer (inner : Resolver) (credentialIssuer : Str) (policy : VerificationPolicy)
    (field : Str) : Resolver := fun n uri => do
  let obj ← inner n uri
  enforceStatusIssuer obj field credentialIssuer policy
  return obj

/-- The resolvers that `_check_status` uses. -/
structure Resolvers where
  statusList : Option Resolver
  statusListToken : Option Resolver

/-- The resolvers with the issuer binding the policy asks for. -/
def boundResolvers (policy : VerificationPolicy) (resolvers : Resolvers)
    (credentialIssuer : Option Str) : Result Resolvers :=
  if policy.requireStatusIssuerBinding then do
    let issuer ← orRaise (credentialIssuer.filter (!·.isEmpty)) ⟨.statusListIssuerUntrusted,
      "require_status_issuer_binding is set but the credential has no issuer", []⟩
    return ⟨resolvers.statusList.map (bindStatusIssuer · issuer policy "issuer"),
      resolvers.statusListToken.map (bindStatusIssuer · issuer policy "iss")⟩
  else .ok resolvers

/-- `_fail_closed(policy, declared, resolver_arg)`. -/
def failClosed (policy : VerificationPolicy) (declared resolverArg : Str) : Result Unit :=
  raiseIf policy.requireStatus ⟨.statusUnavailable,
    "credential declares a % but no % was given (set policy.require_status=False to skip)",
    [.str declared, .str resolverArg]⟩

/-- The identifier of a credential, for a message. -/
def shownId (source : Dict) : Json := ((source.get "id").str?.map Json.str).getD .null

/-- The dispositions of a W3C status that fail the call. -/
def refuseW3c (policy : VerificationPolicy) (w3cSource : Dict) (w3c : StatusResult) :
    Result Unit := do
  raiseIf (w3c.revoked && policy.requireNotRevoked)
    ⟨.credentialRevoked, "credential % is revoked", [shownId w3cSource]⟩
  raiseIf w3c.suspended ⟨.credentialSuspended, "credential % is suspended", [shownId w3cSource]⟩

/-- The W3C status of a credential with recognised entries. -/
def checkW3cEntries (Z : Zlib) (w3cSource : Dict) (policy : VerificationPolicy)
    (resolve : Option Resolver) : Result (Option StatusResult) :=
  match resolve with
  | none => do
    failClosed policy "credentialStatus" "resolve_status_list"
    return none
  | some resolve => do
    let w3c ← checkCredentialStatus Z w3cSource resolve
    refuseW3c policy w3cSource w3c
    return some w3c

/-- A `credentialStatus` in which no entry is recognised. -/
def refuseUnrecognisedW3c (policy : VerificationPolicy) (w3cSource : Dict) : Result Unit :=
  raiseIf ((w3cSource.get "credentialStatus").truthy && policy.requireStatus) ⟨.statusUnavailable,
    "credential declares a credentialStatus of an unrecognised type (set policy.require_status=False to skip)",
    []⟩

/-- The W3C half of `_check_status`. -/
def checkW3cStatus (Z : Zlib) (w3cSource : Dict) (policy : VerificationPolicy)
    (resolve : Option Resolver) : Result (Option StatusResult) := do
  let entries ← parseStatusEntries w3cSource
  if entries.isEmpty then do
    refuseUnrecognisedW3c policy w3cSource
    return none
  else checkW3cEntries Z w3cSource policy resolve

/-- The dispositions of an IETF status that fail the call. -/
def refuseIetf (policy : VerificationPolicy) (ietf : TokenStatusResult) : Result Unit := do
  raiseIf (ietf.revoked && policy.requireNotRevoked) ⟨.credentialRevoked, "token is revoked", []⟩
  raiseIf ietf.suspended ⟨.credentialSuspended, "token is suspended", []⟩

/-- The IETF status of a token with a reference. -/
def checkIetfRef (Z : Zlib) (ref : TokenStatusRef) (policy : VerificationPolicy)
    (resolve : Option Resolver) : Result (Option TokenStatusResult) :=
  match resolve with
  | none => do
    failClosed policy "status reference" "resolve_status_list_token"
    return none
  | some resolve => do
    let ietf ← checkTokenStatus Z ref resolve
    refuseIetf policy ietf
    return some ietf

/-- A `status` claim that is no recognised reference. -/
def refuseUnrecognisedIetf (policy : VerificationPolicy) (ietfSource : Dict) : Result Unit :=
  raiseIf (!(ietfSource.get "status").isNull && policy.requireStatus) ⟨.statusUnavailable,
    "credential declares a status of an unrecognised shape (set policy.require_status=False to skip)",
    []⟩

/-- The IETF half of `_check_status`, for one source of claims. -/
def checkIetfSource (Z : Zlib) (ietfSource : Dict) (policy : VerificationPolicy)
    (resolve : Option Resolver) : Result (Option TokenStatusResult) := do
  let ref ← parseTokenStatusRef ietfSource
  match ref with
  | none => do
    refuseUnrecognisedIetf policy ietfSource
    return none
  | some ref => checkIetfRef Z ref policy resolve

/-- The IETF half of `_check_status`. -/
def checkIetfStatus (Z : Zlib) (ietfSource : Option Dict) (policy : VerificationPolicy)
    (resolve : Option Resolver) : Result (Option TokenStatusResult) :=
  match ietfSource with
  | none => .ok none
  | some ietfSource => checkIetfSource Z ietfSource policy resolve

/-- `_check_status(w3c_source, ietf_source, policy, resolve_status_list, resolve_status_list_token,
credential_issuer)`. -/
def checkStatus (Z : Zlib) (w3cSource : Dict) (ietfSource : Option Dict)
    (policy : VerificationPolicy) (resolvers : Resolvers) (credentialIssuer : Option Str) :
    Result (Option StatusOutcome) := do
  let resolvers ← boundResolvers policy resolvers credentialIssuer
  let w3c ← checkW3cStatus Z w3cSource policy resolvers.statusList
  let ietf ← checkIetfStatus Z ietfSource policy resolvers.statusListToken
  return (w3c.map .w3c) <|> (ietf.map .ietf)

end OpenVC
