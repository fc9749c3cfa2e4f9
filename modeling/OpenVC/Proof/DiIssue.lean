import OpenVC.Proof.DataIntegrity
import OpenVC.Proof.SdJwtIssue
import OpenVC.Python.Calendar

/-!
# Issuing Data Integrity proofs (`openvc.proof.data_integrity`, `di_jcs`, `di_ecdsa_rdfc`)

`add_proof` of the whole-document suites: the options of a proof are hashed with the document and
signed, and the signature is embedded with them.
-/

namespace OpenVC

open Python

/-- `encode_multibase(data)`. -/
def Multibase.encodeMultibase (data : Bytes) : Str := 122 :: b58btcEncode data

/-- `utc_instant(value, error, name)`, in microseconds. -/
def namedInstant (I : Interpreter) (value : Option DateTime) (error : ErrorClass) (name : Str) :
    Result Int :=
  match value with
  | none => .ok I.utcNow
  | some value => do
    raiseIf (value.orUtc.instant < minInstant || maxInstant < value.orUtc.instant)
      ⟨error, "% cannot be read as an instant: ", [.str name]⟩
    return value.orUtc.instant

/-- `utc_iso(value, error, name)`: whole seconds. -/
def utcIso (I : Interpreter) (value : Option DateTime) (error : ErrorClass) (name : Str) :
    Result Str := do
  let instant ← namedInstant I value error name
  let utc ← orRaise (UtcDateTime.ofSeconds (instant / 1000000))
    ⟨error, "% cannot be read as an instant: ", [.str name]⟩
  return utc.isoformat.take 19 ++ lit "Z"

/-- The arguments of `add_proof` but for the credential and its contexts. -/
structure DiIssuance where
  signingKey : SigningKey
  verificationMethod : Str
  proofPurpose : Str := "assertionMethod"
  challenge : Option Str := none
  domain : Option Str := none
  created : Option DateTime := none

/-- A member that is written when there is a value. -/
def memberIf (name : Str) : Option Str → Dict
  | none => []
  | some value => [(name, .str value)]

/-- The members that every proof has, without its value. -/
def DiIssuance.options (a : DiIssuance) (cryptosuite created : Str) : Dict :=
  [("type", .str diProofType), ("cryptosuite", .str cryptosuite), ("created", .str created),
    ("verificationMethod", .str a.verificationMethod), ("proofPurpose", .str a.proofPurpose)]

/-- The proof without its value. -/
def DiIssuance.proof (a : DiIssuance) (cryptosuite created : Str) : Dict :=
  a.options cryptosuite created ++ memberIf "challenge" a.challenge ++ memberIf "domain" a.domain

/-- The proof with its value. -/
def DiIssuance.signedProof (a : DiIssuance) (cryptosuite created : Str) (signature : Bytes) :
    Dict :=
  (a.proof cryptosuite created).set "proofValue" (.str (Multibase.encodeMultibase signature))

/-- What a credential is refused for before it is signed. -/
def checkUnsecured (credential : Dict) (noContext : String) : Result Unit := do
  raiseIf (!credential.has "@context") ⟨.proofMalformed, noContext, []⟩
  raiseIf (credential.has "proof") ⟨.proofMalformed, "credential already carries a proof", []⟩

/-- The profile of the algorithm of a key that signs for a suite. -/
def signingProfile (allowed : List AlgProfile) (cryptosuite alg : Str) : Result AlgProfile :=
  orRaise (allowed.find? (·.alg = alg)) ⟨.unsupportedCryptosuite, "% requires one of %, got %",
    [.str cryptosuite, .arr (allowed.map fun p => .str p.alg), .str alg]⟩

/-- `_JcsProofSuite.add_proof(credential, …)`. -/
def JcsSuite.addProof (I : Interpreter) (C : Crypto) (suite : JcsSuite) (credential : Dict)
    (a : DiIssuance) : Result Dict := do
  let profile ← signingProfile suite.allowed suite.cryptosuite a.signingKey.alg
  checkUnsecured credential "credential has no @context"
  let created ← utcIso I a.created .proofMalformed "created"
  let data ← jcsHashData C (credential.erase "proof")
    (proofConfig (a.proof suite.cryptosuite created) (credential.get "@context")) profile.hash
  let signature ← a.signingKey.sign data
  return credential.set "proof" (.obj (a.signedProof suite.cryptosuite created signature))

/-- What the RDF suites sign: the hashes, once the context validation has passed. -/
def rdfSigningInput (C : Crypto) (L : JsonLd) (unsecured config : Dict) (hash : DiHash) :
    Result Bytes := do
  let data ← rdfHashData C L unsecured config hash
  L.validateDocument unsecured config
  return data

/-- `DataIntegrityProofSuite.add_proof(credential, …)`. -/
def DataIntegrity.addProof (I : Interpreter) (C : Crypto) (L : JsonLd) (credential : Dict)
    (a : DiIssuance) : Result Dict := do
  raiseIf (a.signingKey.alg != lit "EdDSA") ⟨.unsupportedCryptosuite,
    "eddsa-rdfc-2022 requires an Ed25519 (EdDSA) key, got %", [.str a.signingKey.alg]⟩
  checkUnsecured credential "credential has no @context to canonicalize against"
  let created ← utcIso I a.created .proofMalformed "created"
  let data ← rdfSigningInput C L (credential.erase "proof")
    (proofConfig (a.proof cryptosuite created) (credential.get "@context")) .sha256
  let signature ← a.signingKey.sign data
  return credential.set "proof" (.obj (a.signedProof cryptosuite created signature))

/-- `EcdsaRdfcProofSuite.add_proof(credential, …)`. -/
def EcdsaRdfc.addProof (I : Interpreter) (C : Crypto) (L : JsonLd) (credential : Dict)
    (a : DiIssuance) : Result Dict := do
  let profile ← signingProfile ecdsaProfiles cryptosuite a.signingKey.alg
  checkUnsecured credential "credential has no @context to canonicalize against"
  let created ← utcIso I a.created .proofMalformed "created"
  let data ← rdfSigningInput C L (credential.erase "proof")
    (proofConfig (a.proof cryptosuite created) (credential.get "@context")) profile.hash
  let signature ← a.signingKey.sign data
  return credential.set "proof" (.obj (a.signedProof cryptosuite created signature))

end OpenVC
