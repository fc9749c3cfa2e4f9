import OpenVC.Proof.EcdsaSd
import OpenVC.Proof.SdJwtIssue
import OpenVC.Proof.SelectJsonLd
import OpenVC.Proof.Skolemize

/-!
# Issuing and deriving `ecdsa-sd-2023` proofs (`openvc.proof.ecdsa_sd`)

`add_base_proof` signs the statements of a credential one by one, with blinded blank-node labels;
`derive_proof` reveals those that the pointers select, with the labels that a verifier needs.
-/

namespace OpenVC.EcdsaSd

open Python

/-- What `_transform` uses of `pyld` besides. -/
structure Pyld extends JsonLd where
  /-- `jsonld.to_rdf(expanded, …)` to N-Quads. -/
  toRdfExpanded : List Json → Except JsonLdError Str
  /-- `issuer.canonical_issuer.existing` once `main` has read the N-Quads. -/
  existing : Str → List (Str × Str)

/-- `hmac.new(key, label.encode("utf-8"), sha256).digest()`. -/
abbrev Hmac := (key : Bytes) → (label : Str) → Bytes

/-- What `pyld` gave; its error is no `OpenvcError`. -/
def pyld {α : Type} : Except JsonLdError α → Result α
  | .ok a => .ok a
  | .error .unavailable =>
    raise .ecdsaSdError "ecdsa-sd-2023 needs pyld: pip install 'openvc-core[data-integrity]'" []
  | .error (.loader text) | .error (.other text) => raise .exception "%" [.str text]

/-- `try: … except ProofError: raise except Exception: raise _canonicalization_failure(…)`. -/
def canonicalizing {α : Type} (x : Result α) : Result α :=
  tryExcept x (!·.cls.isa .proofError) fun e =>
    raise .proofMalformed ("could not canonicalize the credential: " ++ e.text) e.args

/-! ## The transformed document -/

/-- `hmac_label(hmac_key, canonical_label)`. -/
def hmacLabel (hmac : Hmac) (hmacKey : Bytes) (label : Str) : Str := mbEncode (hmac hmacKey label)

/-- `"_:" + hmac_label(hmac_key, c14n[len("_:"):])`. -/
def blinded (hmac : Hmac) (hmacKey : Bytes) (c14n : Str) : Str :=
  lit "_:" ++ hmacLabel hmac hmacKey (c14n.drop 2)

/-- `_canonicalize(nquads_text)`. -/
def canonicalize (P : Pyld) (nquads : Str) : Result (List Str × List (Str × Str)) := do
  let text ← pyld (P.canonical nquads)
  return (canonicalLines text, P.existing nquads)

/-- `_Transform`. -/
structure Transform where
  relabeled : List Str
  skolemToHmac : List (Str × Str)
  skolemizedCompact : Dict

/-- `_transform(document, hmac_key, loader)`. -/
def transform (P : Pyld) (hmac : Hmac) (hmacKey : Bytes) (document : Dict) : Result Transform := do
  let expanded ← imported (P.expand document)
  let skolemized := (skolemizeList expanded 0).1
  let compacted ← imported (P.compact skolemized (document.get "@context"))
  let nquads ← pyld (P.toRdfExpanded skolemized)
  let (lines, idMap) ← canonicalize P (deskolemizeNquads 0 nquads)
  return { relabeled := relabel lines (idMap.map fun e => (e.2, blinded hmac hmacKey e.2))
           skolemToHmac := idMap.map fun e => (e.1, blinded hmac hmacKey e.2)
           skolemizedCompact := compacted }

/-! ## Selections -/

/-- `select_json_ld(pointers, document) or {}`. -/
def selectionOf (pointers : List Str) (document : Dict) : Result Dict := do
  let selection ← selectJsonLd pointers document
  return (selection.bind Json.obj?).getD []

/-- `_selection_lines(selected, skolem_to_hmac, loader)`. -/
def selectionLines (P : Pyld) (selected : Dict) (skolemToHmac : List (Str × Str)) :
    Result (List Str) := do
  let nquads ← pyld (P.toRdf selected)
  return relabel ((Str.split 10 (deskolemizeNquads 0 nquads)).filter (!·.isEmpty)) skolemToHmac

/-- `mandatory_set`. -/
def mandatorySet (P : Pyld) (mandatory : List Str) (t : Transform) : Result (List Str) :=
  if mandatory.isEmpty then .ok []
  else do
    let selected ← selectionOf mandatory t.skolemizedCompact
    selectionLines P selected t.skolemToHmac

/-! ## Base proofs -/

/-- `_proof_config_hash(proof, context, loader)`. -/
def proofConfigHash (C : Crypto) (L : JsonLd) (proof : Dict) (context : Json) : Result Bytes := do
  let nquads ← pyld (L.normalize (proofConfig proof context))
  let data ← utf8 nquads .proofMalformed "the proof configuration N-Quads"
  return C.sha256 data

/-- The statements of a credential as they are signed. -/
structure BaseStatements where
  proofHash : Bytes
  mandatory : List Str
  nonMandatory : List Str
  mandatoryHash : Bytes

/-- The canonicalization block of `add_base_proof`. -/
def baseStatements (C : Crypto) (P : Pyld) (hmac : Hmac) (credential proof : Dict)
    (mandatory : List Str) (hmacKey : Bytes) : Result BaseStatements := do
  let proofHash ← proofConfigHash C P.toJsonLd proof (credential.get "@context")
  P.validateDocument credential (proofConfig proof (credential.get "@context"))
  let t ← transform P hmac hmacKey credential
  let selected ← mandatorySet P mandatory t
  let mandatoryHash ← sha256Lines C (t.relabeled.filter selected.contains)
  return ⟨proofHash, t.relabeled.filter selected.contains,
    t.relabeled.filter (!selected.contains ·), mandatoryHash⟩

/-- `P256SigningKey.generate(kid="urn:ephemeral")`, with its multikey. -/
structure EphemeralKey where
  publicKey : Bytes
  sign : Bytes → Bytes

/-- The arguments of `add_base_proof`, and what it draws: the HMAC key and the ephemeral key. -/
structure BaseArgs where
  signingKey : SigningKey
  verificationMethod : Str
  mandatoryPointers : List Str
  proofPurpose : Str
  /-- `utc_iso(created, error=ProofMalformed, name="created")`. -/
  created : Result Str
  hmacKey : Bytes
  ephemeral : EphemeralKey

/-- The proof without its value. -/
def baseProof (a : BaseArgs) (created : Str) : Dict :=
  [("type", .str "DataIntegrityProof"), ("cryptosuite", .str cryptosuite), ("created", .str created),
    ("verificationMethod", .str a.verificationMethod), ("proofPurpose", .str a.proofPurpose)]

/-- The signature of one statement by the ephemeral key. -/
def signStatement (ephemeral : EphemeralKey) (line : Str) : Result Bytes := do
  let data ← utf8 (line ++ [10]) .proofMalformed "a non-mandatory statement"
  return ephemeral.sign data

/-- `EcdsaSdProofSuite.add_base_proof(credential, …)`. -/
def addBaseProof (C : Crypto) (P : Pyld) (hmac : Hmac) (credential : Dict) (a : BaseArgs) :
    Result Dict := do
  raiseIf (a.signingKey.alg != lit "ES256") ⟨.unsupportedCryptosuite,
    "ecdsa-sd-2023 requires an ES256 (P-256) key, got %", [.str a.signingKey.alg]⟩
  raiseIf (!credential.has "@context")
    ⟨.proofMalformed, "credential has no @context to canonicalize against", []⟩
  raiseIf (credential.has "proof") ⟨.proofMalformed, "credential already carries a proof", []⟩
  let created ← a.created
  let proof := baseProof a created
  let st ← canonicalizing
    (baseStatements C P hmac credential proof a.mandatoryPointers a.hmacKey)
  let signatures ← collect (signStatement a.ephemeral) st.nonMandatory
  let baseSignature ← a.signingKey.sign (st.proofHash ++ a.ephemeral.publicKey ++ st.mandatoryHash)
  let proofValue ← encodeBaseProof
    ⟨baseSignature, a.ephemeral.publicKey, a.hmacKey, signatures, a.mandatoryPointers⟩
  return credential.set "proof" (.obj (proof.set "proofValue" (.str proofValue)))

/-! ## Derived proofs -/

mutual

/-- `_deskolemize_document(node)`. -/
def deskolemizeDocument : Json → Json
  | .arr l => .arr (deskolemizeList l)
  | .obj m => .obj (deskolemizeMembers m)
  | v => v

def deskolemizeList : List Json → List Json
  | [] => []
  | v :: t => deskolemizeDocument v :: deskolemizeList t

def deskolemizeMembers : List (Str × Json) → List (Str × Json)
  | [] => []
  | (k, .str s) :: t =>
    (k, .str (if (k == lit "@id" || k == lit "id") && s.startsWith skolemPrefix then
      lit "_:" ++ s.drop skolemPrefix.length else s)) :: deskolemizeMembers t
  | (k, v) :: t => (k, deskolemizeDocument v) :: deskolemizeMembers t

end

/-- What `_reveal_view` returns. -/
structure RevealView where
  relabeled : List Str
  labelMap : List (Str × Str)
  mandatoryIdx : List Nat

/-- The indexes of the lines that are among the given ones. -/
def indexesIn (lines : List Str) (selected : List Str) : List Nat :=
  (lines.zipIdx.filter fun p => selected.contains p.1).map Prod.snd

/-- An entry of `relabel_map` in `_reveal_view`. -/
def chainLabel (skolemToHmac : List (Str × Str)) (entry : Str × Str) : Result (Str × Str) := do
  let label ← orRaise (skolemToHmac.lookup entry.1) ⟨.keyError, "%", [.str entry.1]⟩
  return (entry.2, label)

/-- `_reveal_view(reveal, skolem_to_hmac, combined_selection, mandatory_set, loader)`. -/
def revealView (P : Pyld) (reveal : Dict) (skolemToHmac : List (Str × Str))
    (mandatorySet : List Str) : Result RevealView := do
  let nquads ← pyld (P.toRdf reveal)
  let (lines, idMap) ← canonicalize P nquads
  let relabelMap ← collect (chainLabel skolemToHmac) idMap
  let relabeled := relabel lines relabelMap
  return { relabeled
           labelMap := relabelMap.map fun e => (e.1.drop 2, e.2.drop 2)
           mandatoryIdx := indexesIn relabeled mandatorySet }

/-- What the canonicalization block of `derive_proof` prepares: of the signatures of a statement the
first counts. -/
structure Disclosure where
  reveal : Dict
  view : RevealView
  sigByLine : List (Str × Bytes)

/-- The canonicalization block of `derive_proof`. -/
def disclosure (P : Pyld) (hmac : Hmac) (unsecured : Dict) (base : BaseProof) (combined : List Str) :
    Result Disclosure := do
  let t ← transform P hmac base.hmacKey unsecured
  let mandatory ← mandatorySet P base.mandatoryPointers t
  let combinedSelection ← selectionOf combined t.skolemizedCompact
  let reveal := deskolemizeMembers combinedSelection
  let view ← revealView P reveal t.skolemToHmac mandatory
  return ⟨reveal, view,
    ((t.relabeled.filter (!mandatory.contains ·)).zip base.signatures).reverse⟩

/-- A text. -/
def text? : Cbor → Option Str
  | .text s => some s
  | _ => none

/-- The parts of a base proof, when they are of the types that `encode_base_proof` writes. -/
def BaseParts.proof? (p : BaseParts) : Option BaseProof := do
  let baseSignature ← bytes? p.baseSignature
  let publicKey ← bytes? p.publicKey
  let hmacKey ← bytes? p.hmacKey
  let signatures ← arrayOf bytes? p.signatures
  let mandatoryPointers ← arrayOf text? p.mandatoryPointers
  return ⟨baseSignature, publicKey, hmacKey, signatures, mandatoryPointers⟩

/-- `mandatory + [p for p in selective_pointers if p not in mandatory]`. -/
def combinedPointers (mandatory selective : List Str) : List Str :=
  mandatory ++ selective.filter (!mandatory.contains ·)

/-- The signature of a disclosed statement. -/
def signatureOf (sigByLine : List (Str × Bytes)) (entry : Str × Nat) : Result Bytes :=
  orRaise (sigByLine.lookup entry.1)
    ⟨.ecdsaSdError, "a disclosed statement has no matching base signature", []⟩

/-- `EcdsaSdProofSuite.derive_proof(secured, selective_pointers, …)`; a base proof with parts of other
types ends in a `TypeError` here. -/
def deriveProof (P : Pyld) (hmac : Hmac) (intOther : Str → Option Int) (secured : Dict)
    (selective : List Str) : Result Dict := do
  let proof ← orRaise (secured.get "proof").obj?
    ⟨.unsupportedCryptosuite, "not an ecdsa-sd-2023 base proof", []⟩
  raiseIf (!Json.pyEq (Dict.get proof "cryptosuite") (.str cryptosuite))
    ⟨.unsupportedCryptosuite, "not an ecdsa-sd-2023 base proof", []⟩
  let proofValue ← orRaise (Dict.get? proof "proofValue") ⟨.keyError, "'proofValue'", []⟩
  let proofValue ← orRaise proofValue.str? ⟨.attributeError, "startswith", []⟩
  let parts ← decodeBaseProof proofValue
  let base ← orRaise parts.proof? ⟨.typeError, "a part of the base proof", []⟩
  let d ← canonicalizing (disclosure P hmac (secured.erase "proof") base
    (combinedPointers base.mandatoryPointers selective))
  let signatures ← collect (signatureOf d.sigByLine)
    (d.view.relabeled.zipIdx.filter fun e => !d.view.mandatoryIdx.contains e.2)
  let proofValue ← encodeDerivedProof intOther
    ⟨base.baseSignature, base.publicKey, signatures, d.view.labelMap,
      d.view.mandatoryIdx.map Int.ofNat⟩
  return d.reveal.set "proof"
    (.obj (Dict.set (Dict.erase proof "proofValue") "proofValue" (.str proofValue)))

end OpenVC.EcdsaSd
