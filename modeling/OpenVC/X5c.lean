import OpenVC.JwtVcIssuer
import OpenVC.Keys
import OpenVC.Proof.VerifyCommon

/-!
# X.509 issuer keys (`openvc.x5c`)

A JOSE `x5c` header is a certificate chain, leaf first. The X.509 implementation of `cryptography`
is a parameter: it loads certificates and validates paths.
-/

namespace OpenVC

open Python

/-- The public key of a certificate. -/
inductive CertificateKey where
  | ec (curve : Curve) (x y : Nat)
  | ed25519 (raw : Bytes)
  | other
  /-- `public_key()` raised. -/
  | unloadable (e : Err)

/-- A Subject Alternative Name: its URIs and its DNS names. -/
structure SubjectAltName where
  uris : List Str
  dnsNames : List Str

/-- `cryptography.x509`. -/
structure X509 where
  Certificate : Type
  /-- `load_der_x509_certificate`; the error is the text of the exception. -/
  loadDer : Bytes → Except Str Certificate
  /-- `PolicyBuilder().store(…).time(…)…build_client_verifier().verify(leaf, intermediates)`: the
  anchors, the instant, the leaf and the intermediates. The error is the text of the
  `VerificationError`. -/
  verifyPath : List Certificate → Int → Certificate → List Certificate → Except Str Unit
  /-- `extensions.get_extension_for_oid(SUBJECT_ALTERNATIVE_NAME)`; the inner `none` is
  `ExtensionNotFound`, any other exception is the outcome itself. -/
  subjectAltName : Certificate → Result (Option SubjectAltName)
  /-- `public_key()`. -/
  publicKey : Certificate → CertificateKey

namespace X5c

variable (X : X509)

/-- One entry of the header. -/
def loadEntry (entry : Json) : Result X.Certificate := do
  let text ← orRaise entry.str? ⟨.x5cError, "x5c entries must be base64 strings", []⟩
  let der ← orRaise (Codec.b64Decode text)
    ⟨.x5cError, "x5c entry is not a valid certificate: ", []⟩
  match X.loadDer der with
  | .ok certificate => .ok certificate
  | .error text => raise .x5cError "x5c entry is not a valid certificate: %" [.str text]

/-- A certificate chain: a leaf and its intermediates. -/
abbrev Chain := X.Certificate × List X.Certificate

/-- `load_x5c_chain(x5c)`. -/
def loadX5cChain (x5c : Json) : Result (Chain X) :=
  match x5c with
  | .arr (leaf :: rest) => do
    let leaf ← loadEntry X leaf
    let rest ← collect (loadEntry X) rest
    return (leaf, rest)
  | _ => raise .x5cError "x5c header is missing or empty" []

/-- `validate_cert_chain(leaf, intermediates, trust_anchors, now)`. -/
def validateCertChain (I : Interpreter) (chain : Chain X) (trustAnchors : List X.Certificate)
    (now : Option DateTime) : Result Unit := do
  raiseIf trustAnchors.isEmpty
    ⟨.x5cError, "no trust anchors given (a sequence of x509.Certificate roots)", []⟩
  let instant ← utcInstant I now .x5cError
  match X.verifyPath trustAnchors instant chain.1 chain.2 with
  | .ok () => .ok ()
  | .error text =>
    raise .x5cError "certificate chain did not validate to a trust anchor: %" [.str text]

/-- The host of a clean https issuer; `none` for any other. -/
def issuerHost (I : Interpreter) (iss : Str) : Option Str :=
  match JwtVcIssuer.parseHttpsIssuer I iss with
  | .ok parsed => some parsed.hostname
  | .error _ => none

/-- Whether a Subject Alternative Name binds the issuer: by its URI, or by the DNS name of its
host. -/
def binds (I : Interpreter) (san : SubjectAltName) (iss : Str) : Bool :=
  san.uris.contains iss ||
    (issuerHost I iss).any fun host => !host.isEmpty && san.dnsNames.contains host

/-- `_check_issuer_binding(leaf, iss)`. -/
def checkIssuerBinding (I : Interpreter) (leaf : X.Certificate) (iss : Str) : Result Unit := do
  let san ← X.subjectAltName leaf
  let san ← orRaise san
    ⟨.x5cError, "x5c leaf certificate has no Subject Alternative Name to bind the issuer", []⟩
  raiseIf (!binds I san iss)
    ⟨.x5cError, "issuer % is not in the x5c leaf certificate's SAN (not bound)", [.str iss]⟩

/-- `_leaf_p256_jwk(leaf)`. -/
def leafP256Jwk (leaf : X.Certificate) : Result Dict :=
  match X.publicKey leaf with
  | .ec .p256 x y =>
    .ok [("kty", .str "EC"), ("crv", .str "P-256"),
      ("x", .str (Codec.b64urlEncode (Codec.intToFixed x 32))),
      ("y", .str (Codec.b64urlEncode (Codec.intToFixed y 32)))]
  | .unloadable e => .error e
  | _ => raise .x5cError "x5c leaf key is not EC P-256 (only ES256 is supported)" []

/-- `resolve_x5c_key(x5c, iss, trust_anchors, now)`. -/
def resolveKey (I : Interpreter) (x5c : Json) (iss : Str) (trustAnchors : List X.Certificate)
    (now : Option DateTime) : Result Dict := do
  let chain ← loadX5cChain X x5c
  validateCertChain X I chain trustAnchors now
  checkIssuerBinding X I chain.1 iss
  leafP256Jwk X chain.1

end X5c

end OpenVC
