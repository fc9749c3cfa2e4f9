import OpenVC.Python.Except
import OpenVC.Python.Json

/-!
# The exceptions of the library

The taxonomy of `openvc.errors` and of the modules that subclass it, with the built-in exceptions
that reach an `except` clause. An exception carries the text of its message as a template, `%`
standing for each interpolated value, and those values in order; a value the source shows through
`repr` or `safe_repr` is carried as it is.
-/

namespace OpenVC

open Python

/-- The exception classes. -/
inductive ErrorClass where
  -- built in
  | exception
  | valueError
  | typeError
  | attributeError
  | keyError
  | indexError
  | overflowError
  | assertionError
  -- openvc.errors, openvc.verify
  | openvcError
  | verificationError
  | keyResolutionFailed
  | unknownCredentialFormat
  | typeMismatch
  | issuerBindingError
  | statusListIssuerUntrusted
  | statusUnavailable
  -- openvc.proof
  | proofError
  | signatureInvalid
  | proofMalformed
  | unsupportedAlgorithm
  | malformedToken
  | claimsInvalid
  | credentialExpired
  | credentialNotYetValid
  | malformedTimestamp
  | keyResolutionError
  | presentationBindingError
  | invalidPolicy
  | sdJwtError
  | jcsError
  | proofPurposeMismatch
  | unsupportedCryptosuite
  | dataIntegrityError
  | documentLoaderError
  | ecdsaSdError
  | proofValueMalformed
  -- openvc.cbor, openvc.cose, openvc.x5c, openvc.jwt_vc_issuer
  | cborError
  | coseError
  | coseMalformed
  | coseUnsupportedAlgorithm
  | x5cError
  | jwtVcIssuerError
  -- openvc.schema
  | schemaError
  | schemaBackendUnavailable
  | schemaUnavailable
  | schemaResolutionError
  | unsupportedSchemaType
  | schemaValidationError
  -- openvc.type_metadata
  | typeMetadataError
  | typeMetadataResolutionError
  | typeMetadataMismatch
  | typeMetadataClaimsInvalid
  -- openvc.openid4vp
  | openId4VpError
  | vpTokenMalformed
  | vpTokenIncomplete
  | unsupportedPresentationFormat
  -- openvc.openid4vci
  | openId4VciError
  | credentialRequestMalformed
  | unsupportedProofType
  | proofReplayed
  -- openvc.mdoc
  | mdocError
  | mdocMalformed
  | mdocTrustError
  | mdocSignatureInvalid
  | mdocDigestMismatch
  | mdocValidityError
  | mdocDocTypeMismatch
  | mdocDeviceAuthError
  -- openvc.multibase, openvc.keys
  | multibaseError
  | keyBackendError
  | invalidKey
  -- openvc.did
  | didError
  | unsupportedDidMethod
  | didResolutionError
  | didWebvhError
  -- openvc.status
  | statusListError
  | credentialRevoked
  | credentialSuspended
  -- openvc.rp_registration
  | rpRegistrationError
  -- openvc.trustlist
  | trustListError
  | trustListParseError
  | trustListSignatureUnavailable
  | trustListSignatureBackendUnavailable
  | trustListSignatureError
  | trustListProfileError
  -- openvc_ebsi
  | ebsiError
  | httpError
  | httpNotFound
  | httpForbiddenHost
  | httpForbiddenAddress
  | httpTransientExhausted
  | httpUnexpectedEncoding
  | httpAddressResolutionFailed
  | httpAddressGuardUnavailable
  | nodeClientConfigError
  | noHealthyNode
  | malformedRegistryResponse
  | trustChainError
  | noTrustedAnchor
  | accreditationInvalid
  | accreditationRevoked
  | nodeListError
  | nodeListConfigError
  | nodeListMalformed
  | openPgpError
  | nodeListSignatureError
  | nodeListThresholdError
  | nodeListRollback
  | nodeListExpired
  | nodeListNotYetValid
  | nodeListStale
  | nodeListEnvironmentMissing
  deriving DecidableEq, Repr

namespace ErrorClass

/-- The bases of a class, in the order of its definition. -/
def bases : ErrorClass → List ErrorClass
  | exception => []
  | keyResolutionFailed | unknownCredentialFormat | typeMismatch | issuerBindingError
  | statusListIssuerUntrusted | statusUnavailable => [verificationError]
  | signatureInvalid | proofMalformed | unsupportedAlgorithm | malformedToken | claimsInvalid
  | credentialExpired | credentialNotYetValid | malformedTimestamp | presentationBindingError
  | invalidPolicy | sdJwtError | proofPurposeMismatch | unsupportedCryptosuite | dataIntegrityError
  | ecdsaSdError => [proofError]
  | proofValueMalformed => [ecdsaSdError]
  | schemaBackendUnavailable | schemaUnavailable | schemaResolutionError | unsupportedSchemaType
  | schemaValidationError => [schemaError]
  | typeMetadataResolutionError | typeMetadataMismatch | typeMetadataClaimsInvalid =>
    [typeMetadataError]
  | vpTokenMalformed | unsupportedPresentationFormat => [openId4VpError]
  | vpTokenIncomplete => [vpTokenMalformed]
  | mdocMalformed | mdocTrustError | mdocSignatureInvalid | mdocDigestMismatch | mdocValidityError
  | mdocDocTypeMismatch | mdocDeviceAuthError => [mdocError]
  | coseMalformed | coseUnsupportedAlgorithm => [coseError]
  | keyResolutionError => [proofError, keyResolutionFailed]
  | invalidKey => [keyBackendError]
  | unsupportedDidMethod | didResolutionError => [didError]
  | didWebvhError => [didResolutionError]
  | trustListParseError | trustListSignatureUnavailable | trustListSignatureError
  | trustListProfileError => [trustListError]
  | trustListSignatureBackendUnavailable => [trustListSignatureUnavailable]
  | malformedRegistryResponse | trustChainError | httpError | nodeListError | noHealthyNode =>
    [ebsiError]
  | nodeListConfigError | nodeListMalformed | nodeListSignatureError | nodeListThresholdError
  | nodeListRollback | nodeListExpired | nodeListNotYetValid | nodeListStale
  | nodeListEnvironmentMissing => [nodeListError]
  | openPgpError => [nodeListMalformed]
  | httpNotFound | httpForbiddenHost | httpTransientExhausted | httpUnexpectedEncoding
  | httpAddressResolutionFailed | httpAddressGuardUnavailable => [httpError]
  | httpForbiddenAddress => [httpForbiddenHost]
  | nodeClientConfigError => [ebsiError, valueError]
  | credentialRequestMalformed | unsupportedProofType | proofReplayed => [openId4VciError]
  | noTrustedAnchor | accreditationInvalid | accreditationRevoked => [trustChainError]
  | verificationError | proofError | multibaseError | keyBackendError | didError
  | statusListError | credentialRevoked | credentialSuspended | rpRegistrationError
  | trustListError | ebsiError | documentLoaderError | cborError | coseError | x5cError | jwtVcIssuerError
  | schemaError | typeMetadataError
  | openId4VpError | openId4VciError | mdocError => [openvcError]
  | valueError | typeError | attributeError | keyError | indexError | overflowError | assertionError
  | openvcError
  | jcsError => [exception]

/-- `issubclass(c, d)`, over at most `n` levels. -/
def isaUpTo : Nat → ErrorClass → ErrorClass → Bool
  | 0, c, d => c == d
  | n + 1, c, d => c == d || (bases c).any fun b => isaUpTo n b d

/-- `issubclass(c, d)`. -/
def isa (c d : ErrorClass) : Bool := isaUpTo 6 c d

end ErrorClass

/-- A raised exception: its class, the template of its message and the values interpolated. -/
structure Err where
  cls : ErrorClass
  text : String
  args : List Json := []

/-- The outcome of a call. -/
abbrev Result (α : Type) := Except Err α

/-- `raise cls(text)`. -/
def raise {α : Type} (cls : ErrorClass) (text : String) (args : List Json) : Result α :=
  .error ⟨cls, text, args⟩

/-- `try: x except handled: h`. -/
def tryExcept {α : Type} (x : Result α) (handled : Err → Bool) (h : Err → Result α) : Result α :=
  match x with
  | .ok a => .ok a
  | .error e => if handled e then h e else .error e

/-- `try: x except cls as exc: raise cls'(f"{lead}{exc}") from exc`. -/
def reraise {α : Type} (x : Result α) (handled : Err → Bool) (cls : ErrorClass) (lead : String)
    (args : List Json) : Result α :=
  tryExcept x handled fun e => raise cls (lead ++ e.text) (args ++ e.args)

/-- `try: x except cls as exc: raise e from exc`. -/
def recast {α : Type} (x : Result α) (cls : ErrorClass) (e : Err) : Result α :=
  tryExcept x (·.cls.isa cls) fun _ => .error e

theorem tryExcept_eq_ok {α : Type} {x : Result α} {handled : Err → Bool} {h : Err → Result α}
    {a : α} : tryExcept x handled h = .ok a ↔
      x = .ok a ∨ ∃ e, x = .error e ∧ handled e = true ∧ h e = .ok a := by
  cases x with
  | ok b => simp [tryExcept]
  | error e =>
    by_cases he : handled e = true
    · simp [tryExcept, he]
    · simp [tryExcept, he]

theorem reraise_eq_ok {α : Type} {x : Result α} {handled : Err → Bool} {cls : ErrorClass}
    {lead : String} {args : List Json} {a : α} :
    reraise x handled cls lead args = .ok a ↔ x = .ok a := by
  rw [reraise, tryExcept_eq_ok]
  constructor
  · rintro (h | ⟨e, _, _, h⟩)
    · exact h
    · cases h
  · exact Or.inl

theorem recast_eq_ok {α : Type} {x : Result α} {cls : ErrorClass} {e : Err} {a : α} :
    recast x cls e = .ok a ↔ x = .ok a := by
  rw [recast, tryExcept_eq_ok]
  constructor
  · rintro (h | ⟨e', _, _, h⟩)
    · exact h
    · cases h
  · exact Or.inl

end OpenVC
