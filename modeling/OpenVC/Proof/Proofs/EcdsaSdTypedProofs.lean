import OpenVC.Did.Proofs.DidKeyProofs
import OpenVC.Proof.Proofs.ValidateDocumentProofs
import OpenVC.Proofs.CoseTypedProofs
import OpenVC.Proofs.VerifyManyProofs

/-!
# Typed failure of `ecdsa-sd-2023` verification

Every stage of `EcdsaSdProofSuite.verify` raises an `OpenvcError`, but for one: the ephemeral key of
the proof value is decoded outside any `try`, and the curve library answers bytes that are no point
with a bare `ValueError`. The issuer signs those bytes, so that it alone decides whether a verifier
gets there.
-/

namespace OpenVC

open Python

variable {C : Crypto} {I : Interpreter} {L : JsonLd} {resolver : Option Did.DidResolver}

theorem isa_openvcError {cls family : ErrorClass}
    (hfamily : family = .proofError ∨ family = .didResolutionError)
    (h : cls.isa family = true) : cls.isa .openvcError = true := by
  rcases hfamily with rfl | rfl
  all_goals cases cls
  all_goals first
    | rfl
    | cases h

/-! ## The key of a verification method -/

/-- A resolver keeps to the errors of the library. -/
def TypedResolver (resolver : Option Did.DidResolver) : Prop :=
  ∀ r did, resolver = some r → Typed .openvcError (r.resolve did)

theorem typed_resolvedDocument (hres : TypedResolver resolver) (did : Str) :
    Typed .openvcError (resolvedDocument resolver did) := by
  unfold resolvedDocument
  split
  · exact raisesOnly_ok
  · rename_i r
    split
    · refine (typed_reraise rfl).mpr (raisesOnly_tryExcept.mpr ?_)
      refine (hres r did rfl).mono fun e he => ?_
      split
      · exact raisesOnly_ok
      · exact .inr he
    · exact raisesOnly_ok

theorem typed_offlineDocument (verificationMethod did : Str) :
    Typed .openvcError (offlineDocument C verificationMethod did) := by
  refine (typed_raiseIf rfl).bind fun _ _ => ?_
  refine ((typed_reraise rfl).mpr ?_).bind fun _ _ => raisesOnly_ok
  exact (Did.DidKey.typed_resolve did).mono fun e he => .inl he

theorem typed_refuseMethod (verificationMethod purpose : Str) (found : Nat) :
    Typed .openvcError (refuseMethod verificationMethod purpose found) := by
  unfold refuseMethod
  split
  · exact typed_raise rfl
  · split
    · exact typed_raise rfl
    · exact typed_raise rfl

theorem typed_documentKey {doc : Did.Resolved} (hdoc : doc ≠ .none)
    (verificationMethod purpose : Str) :
    Typed .openvcError (documentKey doc verificationMethod purpose) := by
  cases doc with
  | none => exact absurd rfl hdoc
  | document doc =>
    simp only [documentKey]
    split
    · exact raisesOnly_ok
    · exact typed_refuseMethod _ _ _
  | other doc =>
    simp only [documentKey]
    split
    · exact raisesOnly_ok
    · exact typed_refuseMethod _ _ _

theorem typed_resolveVerificationKey (hres : TypedResolver resolver) (vm purpose : Json) :
    Typed .openvcError (resolveVerificationKey C vm purpose resolver) := by
  refine (typed_orRaise rfl).bind fun method _ => ?_
  refine (typed_raiseIf rfl).bind fun _ _ => ?_
  refine RaisesOnly.bind ?_ fun doc hdoc => ?_
  · refine (typed_resolvedDocument hres _).bind fun found _ => ?_
    split
    · exact typed_offlineDocument _ _
    · exact raisesOnly_ok
  · refine typed_documentKey ?_ _ _
    rintro rfl
    obtain ⟨found, -, hfound⟩ := bind_eq_ok.mp hdoc
    split at hfound
    · obtain ⟨_, -, hfound⟩ := bind_eq_ok.mp hfound
      obtain ⟨_, -, hfound⟩ := bind_eq_ok.mp hfound
      cases hfound
    · rename_i hne
      cases hfound
      exact hne rfl

theorem typed_diKey (hres : TypedResolver resolver) (publicKeyJwk : Option Dict) (proof : Dict) :
    Typed .openvcError (diKey C publicKeyJwk proof resolver) := by
  unfold diKey
  split
  · exact raisesOnly_ok
  · exact typed_resolveVerificationKey hres _ _

/-! ## The checks after the signatures -/

theorem typed_utf8 {cls error : ErrorClass} (h : error.isa cls = true) (text : Str)
    (what : String) : Typed cls (utf8 text error what) := typed_orRaise h

theorem typed_checkWindowAt (document proof : Dict) (now : Option DateTime) (leewayS : Int)
    (checkTemporal : Bool) :
    Typed .openvcError (checkWindowAt I document proof now leewayS checkTemporal) :=
  (typed_utcInstant rfl _).bind fun _ _ => typed_checkValidityWindow _

namespace EcdsaSd

/-! ## The parts of a derived proof -/

variable {derived proof jwk : Dict} {publicKeyJwk : Option Dict} {parsed : DerivedProof}
  {policy : DiPolicy} {leeway : Int}

theorem typed_readProof (derived : Dict) : Typed .openvcError (readProof derived) := by
  refine (typed_raiseIf rfl).bind fun _ _ => ?_
  refine (typed_orRaise rfl).bind fun proof _ => ?_
  refine (typed_raiseIf rfl).bind fun _ _ => ?_
  exact (typed_orRaise rfl).bind fun _ _ => raisesOnly_ok

/-- The backstop around `decode_derived_proof` leaves `ProofError`s alone and types the rest. -/
theorem typed_readDerivedProof (proofValue : Str) :
    Typed .openvcError (readDerivedProof proofValue) := by
  refine raisesOnly_tryExcept.mpr fun e _ => ?_
  change if _ then _ else _
  by_cases hcls : e.cls.isa .proofError = true
  · rw [if_neg (by simpa using hcls)]
    exact isa_openvcError (.inl rfl) hcls
  · rw [if_pos (by simpa using hcls)]
    exact typed_raise rfl

theorem typed_processed (x : Except JsonLdError Str) : Typed .openvcError (processed x) := by
  rcases x with (_ | text | text) | text
  · exact typed_raise rfl
  · exact typed_raise rfl
  · exact typed_raise rfl
  · exact raisesOnly_ok

theorem typed_statements (derived proof : Dict) (parsed : DerivedProof) :
    Typed .openvcError (statements C L derived proof parsed) := by
  refine (typed_processed _).bind fun nquads _ => ?_
  refine (typed_processed _).bind fun text _ => ?_
  refine (typed_processed _).bind fun config _ => ?_
  exact (typed_utf8 rfl _ _).bind fun _ _ => raisesOnly_ok

theorem typed_sha256Lines (lines : List Str) : Typed .openvcError (sha256Lines C lines) :=
  (typed_utf8 rfl _ _).bind fun _ _ => raisesOnly_ok

theorem typed_verifySignature (alg : Str) (jwk : Dict) (input signature : Bytes) :
    Typed .openvcError (verifySignature C alg jwk input signature) := by
  refine invalidKey_verifySignature.mono fun e he => ?_
  rw [IsInvalidKey] at he
  rw [he]
  rfl

theorem typed_checkStatement (ephemeral : Dict) (entry : Str × Bytes) :
    Typed .openvcError (checkStatement C ephemeral entry) := by
  refine (typed_utf8 rfl _ _).bind fun data _ => ?_
  refine (typed_verifySignature _ _ _ _).bind fun ok _ => ?_
  exact typed_raiseIf rfl

/-! ## The ephemeral key -/

/-- Bytes of the shape of a P-256 multikey that are no point of the curve. -/
def IsOffCurve (C : Crypto) (multikey : Bytes) : Prop :=
  p256MultikeyStart.isPrefixOf multikey = true ∧ multikey.length = 35 ∧
    C.ecDecodePoint .p256 (multikey.drop 2) = none

theorem typed_p256MultikeyToJwk_iff (multikey : Bytes) :
    Typed .openvcError (p256MultikeyToJwk C multikey) ↔ ¬ IsOffCurve C multikey := by
  constructor
  · rintro h ⟨hstarts, hlen, hpoint⟩
    have h := (raisesOnly_bind.mp h).2 () (raiseIf_eq_ok.mpr (by simp [hstarts, hlen]))
    have h := (raisesOnly_bind.mp h).1
    rw [hpoint] at h
    cases h _ rfl
  · intro h
    refine (typed_raiseIf rfl).bind fun _ hshape => ?_
    refine RaisesOnly.bind ?_ fun _ _ => raisesOnly_ok
    refine raisesOnly_orRaise.mpr fun hpoint => absurd ?_ h
    have hshape := raiseIf_eq_ok.mp hshape
    rw [Bool.or_eq_false_iff] at hshape
    exact ⟨by simpa using hshape.1, by simpa using hshape.2, hpoint⟩

/-- The signatures are checked in the family unless the issuer signed an ephemeral key that is no
point of the curve. -/
theorem typed_checkSignatures_iff (toVerify : Bytes) (nonMandatory : List Str) :
    Typed .openvcError (checkSignatures C jwk toVerify parsed nonMandatory) ↔
      ¬ (verifySignature C "ES256" jwk toVerify parsed.baseSignature = .ok true ∧
        IsOffCurve C parsed.publicKey) := by
  constructor
  · rintro h ⟨hbase, hoff⟩
    have h := (raisesOnly_bind.mp h).2 true hbase
    have h := (raisesOnly_bind.mp h).2 () (raiseIf_eq_ok.mpr rfl)
    exact (typed_p256MultikeyToJwk_iff _).mp (raisesOnly_bind.mp h).1 hoff
  · intro h
    refine (typed_verifySignature _ _ _ _).bind fun ok hbase => ?_
    refine (typed_raiseIf rfl).bind fun _ hok => ?_
    obtain rfl : ok = true := by simpa using raiseIf_eq_ok.mp hok
    refine ((typed_p256MultikeyToJwk_iff _).mpr fun hoff => h ⟨hbase, hoff⟩).bind fun key _ => ?_
    refine (typed_raiseIf rfl).bind fun _ _ => ?_
    exact RaisesOnly.each fun entry _ => typed_checkStatement key entry

/-! ## The suite -/

/-- A derived document whose issuer signed an ephemeral key that is no point of the curve. -/
inductive SignedOffCurve (C : Crypto) (L : JsonLd) (derived : Dict) (publicKeyJwk : Option Dict)
    (resolver : Option Did.DidResolver) : Prop
  | intro (proof : Dict) (proofValue : Str) (parsed : DerivedProof) (st : Statements)
      (mandatoryHash : Bytes) (jwk : Dict) (hproof : readProof derived = .ok (proof, proofValue))
      (hparsed : readDerivedProof proofValue = .ok parsed)
      (hst : statements C L derived proof parsed = .ok st)
      (hhash : sha256Lines C st.mandatory = .ok mandatoryHash)
      (hjwk : diKey C publicKeyJwk proof resolver = .ok jwk)
      (hbase : verifySignature C "ES256" jwk (st.proofHash ++ parsed.publicKey ++ mandatoryHash)
        parsed.baseSignature = .ok true)
      (hoff : IsOffCurve C parsed.publicKey)

/-- `verify` returns or raises an `OpenvcError`, unless the issuer signed an ephemeral key that is no
point of the curve. -/
theorem verify_typed_iff (hL : L.KeepsNumbers) (hres : TypedResolver resolver) :
    Typed .openvcError (verify I C L leeway derived publicKeyJwk resolver policy) ↔
      ¬ SignedOffCurve C L derived publicKeyJwk resolver := by
  constructor
  · rintro h ⟨proof, proofValue, parsed, st, mandatoryHash, jwk, hproof, hparsed, hst, hhash, hjwk,
      hbase, hoff⟩
    have h := (raisesOnly_bind.mp h).2 (proof, proofValue) hproof
    have h := (raisesOnly_bind.mp h).2 parsed hparsed
    have h := (raisesOnly_bind.mp h).2 st hst
    have h := (raisesOnly_bind.mp h).2 mandatoryHash hhash
    have h := (raisesOnly_bind.mp h).2 jwk hjwk
    exact (typed_checkSignatures_iff _ _).mp (raisesOnly_bind.mp h).1 ⟨hbase, hoff⟩
  · intro h
    refine (typed_readProof derived).bind fun (proof, proofValue) hproof => ?_
    refine (typed_readDerivedProof proofValue).bind fun parsed hparsed => ?_
    refine (typed_statements derived proof parsed).bind fun st hst => ?_
    refine (typed_sha256Lines st.mandatory).bind fun mandatoryHash hhash => ?_
    refine (typed_diKey hres publicKeyJwk proof).bind fun jwk hjwk => ?_
    refine RaisesOnly.bind ?_ fun _ _ => ?_
    · refine (typed_checkSignatures_iff _ _).mpr fun ⟨hbase, hoff⟩ => h ?_
      exact ⟨proof, proofValue, parsed, st, mandatoryHash, jwk, hproof, hparsed, hst, hhash, hjwk,
        hbase, hoff⟩
    have hvalidate := ContextValidation.typed_validateDocument hL (derived.erase "proof")
      (proofConfig proof (derived.get "@context"))
    refine (hvalidate.mono fun e he => isa_openvcError (.inl rfl) he).bind fun _ _ => ?_
    refine RaisesOnly.bind (typed_raiseIf rfl) fun _ _ => ?_
    exact (typed_checkWindowAt _ _ _ _ _).bind fun _ _ => raisesOnly_ok

/-! ## Batches -/

open Pipeline VerifyMany

variable {H : Host} {S : Callables H} {P : Policy} {pre post : List Json} {c : Json} {doc : Dict}

/-- The items before an exception that is no `OpenvcError` do not keep it from ending the batch. -/
theorem eval_verifyItems_error {e : Err} {item : Json × Nat} {before after : List (Json × Nat)}
    (hbefore : ∀ i ∈ before, HasVerdict (Pipeline.verifyCredential S.sources P none i.1))
    (he : Pipeline.verifyCredential S.sources P none item.1 = .error e)
    (hcls : e.cls.isa .openvcError = false) (out : List BatchResult) :
    (Calling.forEach (verifyItem S.given P) out (before ++ item :: after)).eval S.fn = .error e := by
  induction before generalizing out with
  | nil =>
    have hitem : (verifyItem S.given P out item).eval S.fn = .error e := by
      simp only [verifyItem, Calling.eval_bind, Calling.eval_handle,
        eval_verifyCredential (matches_sources S), he, batchResult, hcls]
      rfl
    rw [List.nil_append, Calling.forEach, Calling.eval_bind, hitem]
    rfl
  | cons b before ih =>
    rw [List.forall_mem_cons] at hbefore
    rw [List.cons_append, Calling.forEach, Calling.eval_bind,
      eval_verifyItem S P out b hbefore.1]
    exact ih hbefore.2 _

/-- A document of the `ecdsa-sd-2023` format whose verification is not typed ends the batch it is
in. -/
theorem verifyMany_aborts (clock : Nat → Rat) (pre : List Json)
    (hpre : ∀ c ∈ pre, HasVerdict (Pipeline.verifyCredential S.sources P none c))
    (hdeep : rejectDeepCredential c = .ok ())
    (hformat : detectFormat c = .ok (.dataIntegrity .ecdsaSd doc))
    (hsuite : ¬ Typed .openvcError (verify H.I H.crypto H.jsonLd P.leewayS doc none
      (some S.resolver) P.diPolicy)) :
    ∃ e, (verifyMany clock S P (pre ++ c :: post)).1 = .error e ∧
      e.cls.isa .openvcError = false := by
  have hverdict : ¬ HasVerdict (Pipeline.verifyCredential S.sources P none c) := by
    intro h
    have h := (raisesOnly_bind.mp h).2 () hdeep
    have h := (raisesOnly_bind.mp h).2 _ hformat
    exact hsuite (raisesOnly_bind.mp h).1
  unfold HasVerdict at hverdict
  push Not at hverdict
  obtain ⟨e, he, hcls⟩ := hverdict
  have hcls : e.cls.isa .openvcError = false := by simpa using hcls
  refine ⟨e, ?_, hcls⟩
  rw [verifyMany_eq]
  simp only [verifyItems, List.zipIdx_append, List.zipIdx_cons]
  refine eval_verifyItems_error (fun i hi => hpre i.1 ?_) he hcls []
  exact List.fst_mem_of_mem_zipIdx hi

/-! ## An ephemeral key off the curve -/

/-- The issuer of the derived document, a `did:key`. -/
def offCurveIssuer : Str := "did:key:zDnaeai6g5o889MbvfipympakgQP3QGM1sgueVwMF9fxyabj5"

/-- Its verification method. -/
def offCurveMethod : Str :=
  "did:key:zDnaeai6g5o889MbvfipympakgQP3QGM1sgueVwMF9fxyabj5#zDnaeai6g5o889MbvfipympakgQP3QGM1sgueVwMF9fxyabj5"

/-- Its key. -/
def offCurvePoint : Nat × Nat :=
  (0x98b6c9aa1795786878d5f972a4c36fe2627d9a7e05b7b38216d8d6e62f3747d8,
    0xca9e5f23a6cabc6d1fe16220243b458adf0bdf6435a6b5f3db6117c693c0d2e0)

/-- What it signed: the hash of the proof configuration, the ephemeral key with the abscissa 1, and
the hash of the statements. -/
def offCurveMessage : Bytes :=
  Codec.intToFixed 0x397ea53e7aea77310c863d023d4b219b1cd8475ed60aacd5a4be2200ab911801 32 ++
    ([0x80, 0x24, 2] ++ Codec.intToFixed 1 32) ++
    Codec.intToFixed 0xbd3a49d9893a0a083530469f783790c794feec1319d3d4d00306f77a458a230e 32

/-- The curve on the key and the signature of the issuer; no point of it has the abscissa 1. -/
def offCurveCrypto : Crypto :=
  { Crypto.ofTable [] with
    ecDecodePoint := fun curve data =>
      if curve = .p256 ∧ data = 2 :: Codec.intToFixed offCurvePoint.1 32 then some offCurvePoint
      else none
    ecOnCurve := fun curve x y => curve == .p256 && (x, y) == offCurvePoint
    ecdsaVerify := fun curve point message signature =>
      curve == .p256 && point == offCurvePoint && message == offCurveMessage && signature ==
        (0x1daafe70185088b569a25f6a0b07a13b2e3bb0dffdacc9dca345d762d4160df1,
          0x8f890dc3606e556545cec0c83a9abe72d26671c9a869ffd6079a4418813d6cf4) }

/-- The proof of the derived document. -/
def offCurveProof : Dict :=
  [("type", .str "DataIntegrityProof"), ("cryptosuite", .str "ecdsa-sd-2023"),
    ("verificationMethod", .str offCurveMethod), ("proofPurpose", .str "assertionMethod"),
    ("proofValue", .str "u2V0BhVhAHar-cBhQiLVpol9qCwehOy47sN_9rMnco0XXYtQWDfGPiQ3DYG5VZUXOwMg6mr5y0mZxyahp_9YHmkQYgT1s9FgjgCQCAAAAAAAAAAAAAAAAAAAAAAAAAAAAAAAAAAAAAAAAAAGAoIMAAQI")]

/-- The derived document: all its statements are mandatory. -/
def offCurveDerived : Dict :=
  [("@context", .arr [.str "https://www.w3.org/ns/credentials/v2"]), ("id", .str "urn:c"),
    ("type", .arr [.str "VerifiableCredential"]), ("issuer", .str offCurveIssuer),
    ("credentialSubject", .obj [("id", .str "urn:s")]), ("proof", .obj offCurveProof)]

/-- Its statements. -/
def offCurveStatements : Str :=
  lit "<urn:c> <http://www.w3.org/1999/02/22-rdf-syntax-ns#type> <https://www.w3.org/2018/credentials#VerifiableCredential> .\n" ++
  lit "<urn:c> <https://www.w3.org/2018/credentials#credentialSubject> <urn:s> .\n" ++
  lit "<urn:c> <https://www.w3.org/2018/credentials#issuer> <" ++ offCurveIssuer ++ lit "> .\n"

/-- The statements of its proof configuration. -/
def offCurveConfig : Str :=
  lit "_:c14n0 <http://www.w3.org/1999/02/22-rdf-syntax-ns#type> <https://w3id.org/security#DataIntegrityProof> .\n" ++
  lit "_:c14n0 <https://w3id.org/security#cryptosuite> \"ecdsa-sd-2023\"^^<https://w3id.org/security#cryptosuiteString> .\n" ++
  lit "_:c14n0 <https://w3id.org/security#proofPurpose> <https://w3id.org/security#assertionMethod> .\n" ++
  lit "_:c14n0 <https://w3id.org/security#verificationMethod> <" ++ offCurveMethod ++ lit "> .\n"

/-- What its statements are made from. -/
def offCurveExpanded : List Json :=
  [.obj [("@id", .str "urn:c"),
    ("@type", .arr [.str "https://www.w3.org/2018/credentials#VerifiableCredential"]),
    ("https://www.w3.org/2018/credentials#credentialSubject", .arr [.obj [("@id", .str "urn:s")]]),
    ("https://www.w3.org/2018/credentials#issuer", .arr [.obj [("@id", .str offCurveIssuer)]])]]

/-- The host of the verifier, whose JSON-LD processor is asked for these documents only. -/
def offCurveHost : Host where
  I := .atSecond 1800000000 []
  crypto := offCurveCrypto
  pyJwt := cardPyJwt 1800000000
  zlib := ⟨fun _ => none, fun _ => none⟩
  x509 := ⟨Unit, fun _ => .error [], fun _ _ _ _ => .error [], fun _ => .ok none, fun _ => .other⟩
  jsonLd := ⟨fun _ => .ok offCurveConfig, fun _ => .ok offCurveStatements, .ok,
    fun _ => .ok offCurveExpanded, fun _ _ => .ok (offCurveDerived.erase "proof"), []⟩
  schemas := none

/-- A caller with the resolver of `did:key` alone. -/
def offCurveCallables : Callables offCurveHost where
  resolver := ⟨none, fun did => (Did.DidKey.resolve offCurveCrypto did).map .document⟩
  statusList := none
  statusListToken := none
  credentialSchema := none
  jwtVcIssuerFetch := none
  x5cTrustAnchors := none

set_option maxRecDepth 4000 in
theorem not_typed_offCurve :
    ¬ Typed .openvcError (verify offCurveHost.I offCurveHost.crypto offCurveHost.jsonLd 60
      offCurveDerived none (some offCurveCallables.resolver) {}) := by
  have hraised : raised (verify offCurveHost.I offCurveHost.crypto offCurveHost.jsonLd 60
      offCurveDerived none (some offCurveCallables.resolver) {}) = some .valueError := by
    change raised (verify (.atSecond 1800000000 []) offCurveCrypto
      ⟨fun _ => .ok offCurveConfig, fun _ => .ok offCurveStatements, .ok,
        fun _ => .ok offCurveExpanded, fun _ _ => .ok (offCurveDerived.erase "proof"), []⟩ 60 offCurveDerived none
      (some ⟨none, fun did => (Did.DidKey.resolve offCurveCrypto did).map .document⟩) {}) = _
    unfold offCurveDerived offCurveProof offCurveStatements offCurveConfig offCurveIssuer
      offCurveMethod
    repeat rw [lit_ofList]
    decide +kernel
  exact not_typed_of_raised hraised rfl

/-- The document's verification raises no `OpenvcError`, and a batch with it has no result. -/
theorem verify_offCurve :
    ¬ Typed .openvcError (verify offCurveHost.I offCurveHost.crypto offCurveHost.jsonLd 60
        offCurveDerived none (some offCurveCallables.resolver) {}) ∧
      ∃ e, (verifyMany (fun _ => 0) offCurveCallables {} [.obj offCurveDerived]).1 = .error e ∧
        e.cls.isa .openvcError = false := by
  refine ⟨not_typed_offCurve, ?_⟩
  exact verifyMany_aborts (fun _ => 0) [] nofun rfl rfl not_typed_offCurve

theorem keepsNumbers_offCurve : offCurveHost.jsonLd.KeepsNumbers := by
  intro document expanded h _ v hv
  cases h
  obtain rfl := List.mem_singleton.mp hv
  rfl

/-- The same at a document of the suite, over the resolver of `did:key`. -/
theorem verify_typed_iff_offCurve :
    Typed .openvcError (verify offCurveHost.I offCurveHost.crypto offCurveHost.jsonLd 60
        offCurveDerived none (some offCurveCallables.resolver) {}) ↔
      ¬ SignedOffCurve offCurveHost.crypto offCurveHost.jsonLd offCurveDerived none
        (some offCurveCallables.resolver) := by
  refine verify_typed_iff keepsNumbers_offCurve fun r did hr => ?_
  obtain rfl := Option.some.inj hr
  exact raisesOnly_map.mpr ((Did.DidKey.typed_resolve did).mono fun e he => isa_openvcError (.inr rfl) he)

end EcdsaSd

end OpenVC
