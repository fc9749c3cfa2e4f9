import OpenVC.Proof.Proofs.VerifyCommonProofs
import OpenVC.Proof.VcJwt

/-!
# What a run of the VC-JWT suite establishes

PyJWT decides about the classic algorithms. `PyJwt.Follows` states its documented behaviour: the
verdicts on the signature and on each registered claim do not depend on `verify_exp`, which only
says whether the verdict on `exp` counts.
-/

namespace OpenVC

open Python

/-- The verdicts of PyJWT on a token: its signature, that `iss` is there, and the registered
claims; and the claims of its payload. -/
structure JwtVerdicts (Key : Type) where
  payload : Str → Option Dict
  signature : DecodeCall Key → Bool
  iss : DecodeCall Key → Bool
  exp : DecodeCall Key → Bool
  nbf : DecodeCall Key → Bool
  iat : DecodeCall Key → Bool
  aud : DecodeCall Key → Bool

/-- Every verdict but the one on `exp` clears the token. -/
def JwtVerdicts.clears {Key : Type} (V : JwtVerdicts Key) (call : DecodeCall Key) : Bool :=
  V.signature call && V.iss call && V.nbf call && V.iat call && V.aud call

/-- `decode` returns the payload of the tokens its verdicts clear; `verify_exp=False` drops the
verdict on `exp` only, and a token condemned by that verdict alone is an `ExpiredSignatureError`. -/
structure PyJwt.Follows (J : PyJwt) (V : JwtVerdicts J.Key) : Prop where
  ok_iff : ∀ call verifyExp claims, J.decode call verifyExp = .ok claims ↔
    V.payload call.token = some claims ∧ V.clears call = true ∧
      (verifyExp = true → V.exp call = true)
  expired : ∀ call claims, V.payload call.token = some claims → V.clears call = true →
    V.exp call = false → ∃ text, J.decode call true = .error (.expiredSignature text)

/-- A decoder with the given verdicts. -/
def PyJwt.ofVerdicts {Key : Type} (V : JwtVerdicts Key) (fromJwk : Str → Dict → Except Str Key) :
    PyJwt where
  Key := Key
  fromJwk := fromJwk
  secp256k1Key _ _ := .error []
  decode call verifyExp :=
    match V.payload call.token with
    | none => .error (.other "Invalid payload string")
    | some claims =>
      if !V.clears call then .error (.invalidSignature "Signature verification failed")
      else if verifyExp && !V.exp call then .error (.expiredSignature "Signature has expired")
      else .ok claims

theorem PyJwt.ofVerdicts_follows {Key : Type} (V : JwtVerdicts Key)
    (fromJwk : Str → Dict → Except Str Key) : (PyJwt.ofVerdicts V fromJwk).Follows V where
  ok_iff call verifyExp claims := by
    simp only [PyJwt.ofVerdicts]
    cases V.payload call.token <;> cases V.clears call <;> cases verifyExp <;> cases V.exp call <;>
      simp
  expired call claims hp hc he := by
    simp only [PyJwt.ofVerdicts, hp, he]
    rw [show V.clears call = true from hc]
    exact ⟨_, rfl⟩

/-- `decode` returns the claims the payload of the token encodes. -/
def PyJwt.ReturnsPayload (J : PyJwt) : Prop :=
  ∀ call verifyExp claims payload, J.decode call verifyExp = .ok claims →
    VcJwt.peekClaims call.token = .ok payload → claims = payload

namespace VcJwt

variable {I : Interpreter} {C : Crypto} {J : PyJwt} {suite : Suite} {token : Str} {jwk : Json}
  {policy : Policy} {checkTemporal : Bool} {r : Verified}

/-- What a run of `verify` that returned `r` computed on its way, in the order of the source. -/
structure Run (I : Interpreter) (C : Crypto) (J : PyJwt) (suite : Suite) (token : Str) (jwk : Json)
    (policy : Policy) (checkTemporal : Bool) (r : Verified) where
  header : Dict
  alg : Str
  payload : Dict
  jwtExpired : Bool
  bodyExpired : Bool
  expectedAudience : checkExpectedAudience policy.audience = .ok ()
  readHeader : readHeader token = .ok header
  permitted : permittedAlg suite.algs header = some alg
  noCrit : rejectUnknownCrit header = .ok ()
  notSdJwtTyp : rejectSdJwtTyp I header = .ok ()
  readPayload : peekClaims token = .ok payload
  noMarker : rejectSdJwtPayload payload = .ok ()
  shape : checkNumericDates payload ["exp", "nbf", "iat"] "token" = .ok ()
  verified : verifyClaims I C J suite token alg jwk policy.audience checkTemporal =
    .ok (r.claims, jwtExpired)
  audience : checkJwtAudience r.claims policy.audience "token" true = .ok ()
  credential : (r.claims.get "vc").obj? = some r.credential
  window : checkValidityWindow I r.credential [] suite.leeway checkTemporal = .ok bodyExpired
  reconciled : reconcile r.claims r.credential = .ok (r.issuer, r.subject)
  types : checkTypes r.credential policy.expectedTypes = .ok ()
  expired : r.expired = (jwtExpired || bodyExpired)

theorem verify_eq_ok : verify I C J suite token jwk policy checkTemporal = .ok r ↔
    Nonempty (Run I C J suite token jwk policy checkTemporal r) := by
  simp only [verify, bind_eq_ok, orRaise_eq_ok, pure_eq_ok]
  constructor
  · rintro ⟨⟨⟩, haud, header, hheader, alg, halg, ⟨⟩, hcrit, ⟨⟩, htyp, payload, hpayload, ⟨⟩, hmark,
      ⟨⟩, hshape, ⟨claims, je⟩, hverified, ⟨⟩, haudience, credential, hcred, be, hwin,
      ⟨issuer, subject⟩, hrec, ⟨⟩, htypes, rfl⟩
    exact ⟨{ header, alg, payload, jwtExpired := je, bodyExpired := be, expectedAudience := haud,
             readHeader := hheader, permitted := halg, noCrit := hcrit, notSdJwtTyp := htyp,
             readPayload := hpayload, noMarker := hmark, shape := hshape, verified := hverified,
             audience := haudience, credential := hcred, window := hwin, reconciled := hrec,
             types := htypes, expired := rfl }⟩
  · rintro ⟨run⟩
    obtain ⟨credential, issuer, subject, claims, expired⟩ := r
    refine ⟨(), run.expectedAudience, run.header, run.readHeader, run.alg, run.permitted, (),
      run.noCrit, (), run.notSdJwtTyp, run.payload, run.readPayload, (), run.noMarker, (), run.shape,
      (claims, run.jwtExpired), run.verified, (), run.audience, credential, run.credential,
      run.bodyExpired, run.window, (issuer, subject), run.reconciled, (), run.types, ?_⟩
    rw [Verified.mk.injEq]
    exact ⟨rfl, rfl, rfl, rfl, run.expired.symm⟩

theorem checkJwtClaims_eq_ok {claims : Dict} {b : Bool} :
    checkJwtClaims I suite claims checkTemporal = .ok b ↔
      checkStringClaims claims = .ok () ∧
      JwtDates claims suite.leeway "token" (.float I.time) ∧ (checkTemporal = true → b = false) ∧
      b = expPassed claims suite.leeway (.float I.time) := by
  simp only [checkJwtClaims, bind_eq_ok, checkJwtTemporal_eq_ok]
  constructor
  · rintro ⟨⟨⟩, hs, -, h⟩; exact ⟨hs, h⟩
  · rintro ⟨hs, h⟩; exact ⟨(), hs, suite.leeway_ok, h⟩

/-- The ML-DSA lane: a verified signature, and the temporal rules of the other JOSE suites. -/
theorem verifyMldsa_eq_ok {alg : Str} {claims : Dict} {b : Bool} :
    verifyMldsa I C suite token alg jwk checkTemporal = .ok (claims, b) ↔
      mldsaClaims C token alg jwk = .ok claims ∧ checkStringClaims claims = .ok () ∧
      JwtDates claims suite.leeway "token" (.float I.time) ∧ (checkTemporal = true → b = false) ∧
      b = expPassed claims suite.leeway (.float I.time) := by
  simp only [verifyMldsa, bind_eq_ok, pure_eq_ok, checkJwtClaims_eq_ok, Prod.mk.injEq]
  constructor
  · rintro ⟨_, hc, _, h, rfl, rfl⟩; exact ⟨hc, h⟩
  · rintro ⟨hc, h⟩; exact ⟨_, hc, _, h, rfl, rfl⟩

/-- The classic lane: PyJWT clears the token but for its expiry, which an enforced run refuses. -/
theorem decodeClassic_eq_ok {V : JwtVerdicts J.Key} (hJ : J.Follows V) {call : DecodeCall J.Key}
    {claims : Dict} {b : Bool} :
    decodeClassic J call checkTemporal = .ok (claims, b) ↔
      V.payload call.token = some claims ∧ V.clears call = true ∧ (checkTemporal = true → b = false) ∧
      b = !V.exp call := by
  rw [decodeClassic]
  constructor
  · intro h
    split at h
    · rename_i claims' hd
      cases h
      obtain ⟨hp, hc, he⟩ := (hJ.ok_iff _ _ _).mp hd
      exact ⟨hp, hc, fun _ => rfl, by rw [he rfl]; rfl⟩
    · rename_i text hd
      split at h
      · cases h
      · rename_i ht
        split at h
        · rename_i claims' hd'
          cases h
          obtain ⟨hp, hc, -⟩ := (hJ.ok_iff _ _ _).mp hd'
          refine ⟨hp, hc, fun h => absurd h ht, ?_⟩
          cases he : V.exp call with
          | false => rfl
          | true =>
            have := (hJ.ok_iff call true claims).mpr ⟨hp, hc, fun _ => he⟩
            rw [hd] at this
            cases this
        · cases h
    · cases h
  · rintro ⟨hp, hc, ht, rfl⟩
    cases he : V.exp call with
    | true =>
      rw [(hJ.ok_iff call true claims).mpr ⟨hp, hc, fun _ => he⟩]
      rfl
    | false =>
      obtain ⟨text, hd⟩ := hJ.expired call claims hp hc he
      have hct : checkTemporal = false := by
        cases hct : checkTemporal with
        | false => rfl
        | true =>
          have := ht hct
          rw [he] at this
          cases this
      have hd' := (hJ.ok_iff call false claims).mpr ⟨hp, hc, fun h => absurd h Bool.false_ne_true⟩
      simp only [hd, hct, hd', Bool.false_eq_true, if_false, Bool.not_false]

/-! ## The payload -/

theorem split_eq_ok {segments : Segments} (h : split token = .ok segments) :
    threeSegments token = some segments := by
  simp only [split, bind_eq_ok, raiseIf_eq_ok, orRaise_eq_ok] at h
  exact h.choose_spec.2

theorem readHeader_eq_ok {header : Dict} (h : readHeader token = .ok header) :
    ∃ segments, threeSegments token = some segments ∧
      loadSegment segments.header = .ok (.obj header) := by
  simp only [readHeader, bind_eq_ok, recast_eq_ok, orRaise_eq_ok, Json.obj?_eq_some] at h
  obtain ⟨segments, hs, v, hv, rfl⟩ := h
  exact ⟨segments, split_eq_ok hs, hv⟩

theorem peekClaims_eq_ok {claims : Dict} (h : peekClaims token = .ok claims) :
    ∃ segments, threeSegments token = some segments ∧
      loadSegment segments.payload = .ok (.obj claims) := by
  simp only [peekClaims, bind_eq_ok, recast_eq_ok, orRaise_eq_ok, Json.obj?_eq_some] at h
  obtain ⟨segments, hs, v, hv, rfl⟩ := h
  exact ⟨segments, split_eq_ok hs, hv⟩

theorem mldsaClaims_eq_peekClaims {alg : Str} {claims payload : Dict}
    (h : mldsaClaims C token alg jwk = .ok claims) (hp : peekClaims token = .ok payload) :
    claims = payload := by
  obtain ⟨segments, hs, hload⟩ := peekClaims_eq_ok hp
  simp only [mldsaClaims, bind_eq_ok, recast_eq_ok, orRaise_eq_ok, Json.obj?_eq_some] at h
  obtain ⟨segments', hs', _, -, _, -, data, hdata, _, -, v, hv, rfl⟩ := h
  rw [hs] at hs'
  cases hs'
  simp only [loadSegment, bind_eq_ok, orRaise_eq_ok] at hload
  obtain ⟨data', hdata', hload⟩ := hload
  rw [hdata] at hdata'
  cases hdata'
  rw [hv] at hload
  cases hload
  rfl

theorem Run.claims_eq (hJ : J.ReturnsPayload)
    (run : Run I C J suite token jwk policy checkTemporal r) : r.claims = run.payload := by
  have h := run.verified
  rw [verifyClaims] at h
  split at h
  · simp only [verifyMldsa, bind_eq_ok, pure_eq_ok, Prod.mk.injEq] at h
    obtain ⟨claims, hc, _, -, rfl, -⟩ := h
    exact mldsaClaims_eq_peekClaims hc run.readPayload
  · obtain ⟨key, -, h⟩ := bind_eq_ok.mp h
    rw [decodeClassic] at h
    split at h
    · rename_i claims hd
      rw [← (Prod.mk.inj (Except.ok.inj h)).1]
      exact hJ _ _ _ _ hd run.readPayload
    · split at h
      · cases h
      · split at h
        · rename_i claims hd
          rw [← (Prod.mk.inj (Except.ok.inj h)).1]
          exact hJ _ _ _ _ hd run.readPayload
        · cases h
    · cases h

/-- `peek_issuer` reads the payload that `peek_claims` reads. -/
theorem peekIssuer_eq_ok {iss : Str} {kid : Json} (h : peekIssuer token = .ok (iss, kid)) :
    ∃ payload, peekClaims token = .ok payload ∧ namedIssuer payload = .str iss ∧ iss ≠ [] := by
  simp only [peekIssuer, peekSegments, bind_eq_ok, recast_eq_ok, orRaise_eq_ok, raiseIf_eq_ok,
    pure_eq_ok, Json.obj?_eq_some, Prod.mk.injEq, Option.filter_eq_some_iff,
    Json.str?_eq_some] at h
  obtain ⟨segments, hs, ⟨_, _⟩, ⟨header, -, payload, hp, rfl, rfl⟩, _, -, payload', rfl, iss',
    ⟨hiss, hne⟩, ⟨⟩, -, rfl, -⟩ := h
  refine ⟨payload', ?_, hiss, by simpa using hne⟩
  simp only [peekClaims, bind_eq_ok, recast_eq_ok, orRaise_eq_ok, Json.obj?_eq_some]
  exact ⟨segments, hs, _, hp, rfl⟩

/-- The identifier of a `vc.issuer` is one of those that `iss` is compared with. -/
theorem mem_issuerIdentifiers {issuer : Json} {iss : Str} (h : identifier issuer = .str iss) :
    .str iss ∈ issuerIdentifiers issuer := by
  cases issuer with
  | obj m =>
    rw [issuerIdentifiers, List.mem_filterMap]
    exact ⟨lit "id", List.mem_cons_self, Dict.get?_of_get h nofun⟩
  | _ =>
    rw [← h]
    exact List.mem_singleton_self _

/-- A `vc.issuer` that passed the comparison with `iss` names nobody else. -/
theorem eq_of_not_issuerConflicts {iss iss' : Str} {vc : Dict} (h : issuerConflicts iss' vc = false)
    (hi : identifier (vc.get "issuer") = .str iss) : iss = iss' := by
  have hnull : vc.get "issuer" ≠ .null := by
    intro e
    rw [e] at hi
    cases hi
  rw [issuerConflicts, Dict.get?_of_get rfl hnull] at h
  have := List.any_eq_false.mp h _ (mem_issuerIdentifiers hi)
  simpa [Json.pyEq] using this

/-- The issuer that was peeked at is the verified `iss`: where an empty `iss` let `vc.issuer` be read
instead, the two conflict. -/
theorem Run.iss_eq (hJ : J.ReturnsPayload)
    (run : Run I C J suite token jwk policy checkTemporal r) {iss : Str} {kid : Json}
    (h : peekIssuer token = .ok (iss, kid)) : r.claims.get "iss" = .str iss := by
  obtain ⟨payload, hpeek, hnamed, hne⟩ := peekIssuer_eq_ok h
  have hclaims : r.claims = payload := by
    rw [run.claims_eq hJ]
    exact Except.ok.inj (run.readPayload.symm.trans hpeek)
  have hcred := run.credential
  have hrec := run.reconciled
  simp only [reconcile, bind_eq_ok, orRaise_eq_ok, raiseIf_eq_ok, Json.str?_eq_some] at hrec
  obtain ⟨iss', hiss', ⟨⟩, hconflict, -⟩ := hrec
  rw [hclaims, Json.obj?_eq_some] at hcred
  rw [hclaims] at hiss' ⊢
  rw [namedIssuer, hiss'] at hnamed
  split at hnamed
  · rw [hiss']
    exact hnamed
  · rename_i hfalsy
    rw [vcIssuer, hcred] at hnamed
    have heq := eq_of_not_issuerConflicts hconflict hnamed
    rw [← heq] at hfalsy
    exact absurd (by simpa [Json.truthy] using hne) hfalsy

end VcJwt

/-! ## A token and its decoder -/

/-- The signing input of a VC-JWT that expires. -/
def cardSigningInput : Str :=
  lit "eyJhbGciOiJFZERTQSJ9.eyJpc3MiOiJpIiwiZXhwIjoxOTAwMDAwMDAwLCJ2YyI6eyJpZCI6ImMifX0"

/-- That VC-JWT. -/
def cardToken : Str :=
  cardSigningInput ++ List.flatMap lit
    [".ZaNcKNbYdQnEo1AHja0zM9KVIwEs9v7Uyh8zHwFxLBYx4cZDGp42EOm-3mnmIEXfmvY-",
     "bE-nlJWYXfo_cn1zCA"]

/-- The issuer's public key. -/
def cardX : Str := lit "A6EHv_POEL4dcN0Y50vAmWfk1jCbpQ1fHdyGZBJVMbg"

/-- The issuer's public key as a JWK. -/
def cardJwk : Json := .obj [("kty", .str "OKP"), ("crv", .str "Ed25519"), ("x", .str cardX)]

/-- Whether an integer date claim, when it is there, satisfies `ok`. -/
def dateClaim (token name : Str) (ok : Int → Bool) : Bool :=
  match (VcJwt.peekClaims token).toOption.bind (·.get? name) with
  | none => true
  | some (.int n) => ok n
  | some _ => false

/-- The verdicts of PyJWT at second `now`; a signature is valid for the tokens of a table, each under
the key with the given `x`. -/
def signedVerdicts (now : Int) (signed : List (Str × Str)) : JwtVerdicts Dict where
  payload token := (VcJwt.peekClaims token).toOption
  signature call := signed.any fun p =>
    call.token == p.1 && (call.key.get "x").str? == some p.2
  iss call := ((VcJwt.peekClaims call.token).toOption.any (·.has "iss"))
  exp call := dateClaim call.token "exp" fun exp => now - call.leeway < exp
  nbf call := dateClaim call.token "nbf" fun nbf => nbf ≤ now + call.leeway
  iat call := dateClaim call.token "iat" fun iat => iat ≤ now + call.leeway
  aud call := call.audience.isNone

/-- PyJWT at second `now`, with the signatures of a table. -/
def signedPyJwt (now : Int) (signed : List (Str × Str)) : PyJwt :=
  .ofVerdicts (signedVerdicts now signed) fun _ jwk => .ok jwk

theorem signedPyJwt_returnsPayload (now : Int) (signed : List (Str × Str)) :
    (signedPyJwt now signed).ReturnsPayload := by
  intro call verifyExp claims payload h hp
  have hpay := (((PyJwt.ofVerdicts_follows (signedVerdicts now signed) _).ok_iff _ _ _).mp h).1
  have hpeek : (VcJwt.peekClaims call.token).toOption = some claims := hpay
  rw [hp] at hpeek
  exact (Option.some.inj hpeek).symm

/-- The verdicts where `cardToken` is the one signed token. -/
def cardVerdicts (now : Int) : JwtVerdicts Dict := signedVerdicts now [(cardToken, cardX)]

/-- PyJWT at second `now`. -/
def cardPyJwt (now : Int) : PyJwt := signedPyJwt now [(cardToken, cardX)]

end OpenVC
