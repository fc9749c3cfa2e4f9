import OpenVC.Logic.Waiver
import OpenVC.Proof.Proofs.SdJwtProofs
import OpenVC.Proof.Proofs.VcJwtProofs

/-!
# The expiry waiver

`check_temporal=False` is to switch off the expiry verdict and nothing else. For both JOSE suites the
results of `verify` are specified without the flag: `Unwaived` lists what every accepted token
satisfies, the expiry among it only as the value of `expired`, and an enforced run returns exactly
the results whose `expired` is false.
-/

namespace OpenVC

open Python

namespace SdJwt

variable {I : Interpreter} {C : Crypto} {suite : Suite} {presentation : Str} {jwk : Dict}
  {policy : Policy} {checkTemporal : Bool} {r : Verified}

/-- What a presentation verified as `r` satisfies whatever the waiver. -/
structure Unwaived (I : Interpreter) (C : Crypto) (suite : Suite) (presentation : Str) (jwk : Dict)
    (policy : Policy) (r : Verified) where
  parts : Parts
  jws : Jws
  hashName : Str
  placed : List (Option Str × Bool)
  notAfter : Option DateTime
  maxAge : nonNegativeSeconds policy.kbMaxAgeS "kb_max_age_s" .sdJwtError = .ok policy.kbMaxAgeS
  split : split presentation = .ok parts
  signature : openIssuerJwt C suite parts.issuerJwt jwk = .ok (jws, r.typ)
  issuer : issAndHash C jws = .ok (r.issuer, hashName)
  bodyDates : JwtDates jws.payload suite.leeway "token" (.float I.time)
  processed : processPayload C hashName parts jws.payload = .ok (r.claims, placed)
  notRefused : refuseDisclosures placed r.vcdm = .ok ()
  w3c : checkW3c r.typ r.vcdm r.claims = .ok ()
  hasVct : (r.typ == some issuerTyp && (text? (r.claims.get "vct")).isNone) = false
  claimDates : JwtDates r.claims suite.leeway "token" (.float I.time)
  audience : checkJwtAudience r.claims policy.audience "issuer JWT" false = .ok ()
  notBefore : r.vcdm = true → NotBefore I r.claims suite.leeway
  readableEnd : r.vcdm = true → bound I r.claims ["validUntil", "expirationDate"] = .ok notAfter
  consistent : r.vcdm = true →
    ∃ s, VcJwt.reconcile (r.claims.set "iss" (.str r.issuer)) r.claims = .ok s
  expectedVct : (policy.expectedVct.any fun e => !Json.pyEq (r.claims.get "vct") (.str e)) = false
  akaVcts : checkAkaVcts r.claims = .ok ()
  keyBinding : verifyKeyBinding I C suite parts (jws.payload.get "cnf") hashName policy
    policy.requireKeyBinding (kbInstant I policy.now) = .ok r.keyBound
  vct : r.vct = (r.claims.get "vct").str?
  confirmation : r.confirmation = jws.payload.get "cnf"
  vcdm : r.vcdm = declaresVcdm r.claims
  expired : r.expired = ((r.vcdm && windowPassed I suite.leeway notAfter) ||
    expPassed r.claims suite.leeway (.float I.time) ||
    expPassed jws.payload suite.leeway (.float I.time))

theorem Run.unwaived (run : Run I C suite presentation jwk policy checkTemporal r) :
    Nonempty (Unwaived I C suite presentation jwk policy r) ∧
      (checkTemporal = true → r.expired = false) := by
  obtain ⟨hiss, hbody, hkb⟩ := checkEnvelope_eq_ok.mp run.checkedEnvelope
  obtain ⟨hbd, hbt, hbe⟩ := checkTemporalClaims_eq_ok.mp hbody
  obtain ⟨hcd, hct, hce⟩ := checkTemporalClaims_eq_ok.mp run.temporal
  obtain ⟨hbind, -⟩ := binding_eq_ok.mp ⟨hkb, run.binding⟩
  have hissuer := run.issuer
  have hexpired := run.expired
  obtain ⟨hv, hw⟩ | ⟨hv, hnb, hwt, ⟨ts, hts, hw⟩, hrec⟩ := checkVcdm_eq_ok.mp run.window
  · refine ⟨⟨{ run with
        hashName := run.envelope.hashName, notAfter := none, signature := run.signed,
        issuer := hissuer ▸ hiss, bodyDates := hbd, claimDates := hcd
        notBefore := fun h => ?_, readableEnd := fun h => ?_, consistent := fun h => ?_
        keyBinding := hbind, expired := ?_ }⟩, fun ht => ?_⟩
    · rw [hv] at h; cases h
    · rw [hv] at h; cases h
    · rw [hv] at h; cases h
    · rw [hexpired, hw, hv, hbe, hce]
      rfl
    · rw [hexpired, hw, hct ht, hbt ht]
      rfl
  · refine ⟨⟨{ run with
        hashName := run.envelope.hashName, notAfter := ts, signature := run.signed,
        issuer := hissuer ▸ hiss, bodyDates := hbd, claimDates := hcd
        notBefore := fun _ => hnb, readableEnd := fun _ => hts, consistent := fun _ => hissuer ▸ hrec
        keyBinding := hbind, expired := ?_ }⟩, fun ht => ?_⟩
    · rw [hexpired, hw, hv, hbe, hce]
      rfl
    · rw [hexpired, hwt ht, hct ht, hbt ht]
      rfl

theorem Unwaived.run (u : Unwaived I C suite presentation jwk policy r)
    (ht : checkTemporal = true → r.expired = false) :
    Nonempty (Run I C suite presentation jwk policy checkTemporal r) := by
  have hexpired := u.expired
  -- an enforced run needs each of the three verdicts to be false
  have hall : checkTemporal = true →
      ((r.vcdm && windowPassed I suite.leeway u.notAfter) = false ∧
        expPassed r.claims suite.leeway (.float I.time) = false) ∧
        expPassed u.jws.payload suite.leeway (.float I.time) = false := by
    intro h
    have := ht h
    rw [hexpired, Bool.or_eq_false_iff, Bool.or_eq_false_iff] at this
    exact this
  let envelope : Envelope := ⟨r.issuer, u.hashName, policy.requireKeyBinding && r.keyBound,
    expPassed u.jws.payload suite.leeway (.float I.time)⟩
  have henv := (@binding_eq_ok I C suite policy u.parts u.jws (kbInstant I policy.now) envelope
    r.keyBound).mpr ⟨u.keyBinding, rfl⟩
  refine ⟨{ u with
    envelope
    processedExpired := expPassed r.claims suite.leeway (.float I.time)
    windowExpired := r.vcdm && windowPassed I suite.leeway u.notAfter
    signed := u.signature, checkedEnvelope := ?_, temporal := ?_, window := ?_
    binding := henv.2, issuer := rfl }⟩
  · exact checkEnvelope_eq_ok.mpr ⟨u.issuer,
      checkTemporalClaims_eq_ok.mpr ⟨u.bodyDates, fun h => (hall h).2, rfl⟩, henv.1⟩
  · exact checkTemporalClaims_eq_ok.mpr ⟨u.claimDates, fun h => (hall h).1.2, rfl⟩
  · rw [checkVcdm_eq_ok]
    cases hv : r.vcdm with
    | false => exact Or.inl ⟨rfl, rfl⟩
    | true =>
      refine Or.inr ⟨rfl, u.notBefore hv, fun h => ?_, ⟨u.notAfter, u.readableEnd hv, rfl⟩,
        u.consistent hv⟩
      have := (hall h).1.1
      rwa [hv] at this

/-- The results of `verify`, specified without the waiver. -/
theorem verify_spec : verify I C suite presentation jwk policy checkTemporal = .ok r ↔
    Nonempty (Unwaived I C suite presentation jwk policy r) ∧
      (checkTemporal = true → r.expired = false) := by
  rw [verify_eq_ok]
  exact ⟨fun ⟨run⟩ => run.unwaived, fun ⟨⟨u⟩, ht⟩ => u.run ht⟩

end SdJwt

namespace VcJwt

variable {I : Interpreter} {C : Crypto} {J : PyJwt} {V : JwtVerdicts J.Key} {suite : Suite} {token : Str}
  {jwk : Json} {policy : Policy} {checkTemporal : Bool} {r : Verified}

/-- The claims of a token signed with an ML-DSA algorithm, or cleared by PyJWT under the key; `b` is
the verdict on `exp`. -/
def Signed (I : Interpreter) (C : Crypto) {J : PyJwt} (V : JwtVerdicts J.Key) (suite : Suite)
    (token alg : Str) (jwk : Json) (audience : Option Str) (claims : Dict) (b : Bool) : Prop :=
  if alg ∈ allowedAlgsPq then
    mldsaClaims C token alg jwk = .ok claims ∧ checkStringClaims claims = .ok () ∧
      JwtDates claims suite.leeway "token" (.float I.time) ∧
      b = expPassed claims suite.leeway (.float I.time)
  else ∃ key, jwkToKey J jwk alg = .ok key ∧ V.payload token = some claims ∧
    V.clears ⟨token, key, alg, suite.leeway, audience⟩ = true ∧
    b = !V.exp ⟨token, key, alg, suite.leeway, audience⟩

theorem verifyClaims_eq_ok (hJ : J.Follows V) {alg : Str} {audience : Option Str} {claims : Dict}
    {b : Bool} :
    verifyClaims I C J suite token alg jwk audience checkTemporal = .ok (claims, b) ↔
      Signed I C V suite token alg jwk audience claims b ∧ (checkTemporal = true → b = false) := by
  rw [verifyClaims, Signed]
  split
  · rw [verifyMldsa_eq_ok]
    constructor
    · rintro ⟨hc, hs, hd, ht, he⟩; exact ⟨⟨hc, hs, hd, he⟩, ht⟩
    · rintro ⟨⟨hc, hs, hd, he⟩, ht⟩; exact ⟨hc, hs, hd, ht, he⟩
  · simp only [bind_eq_ok, decodeClassic_eq_ok hJ]
    constructor
    · rintro ⟨key, hk, hp, hc, ht, he⟩; exact ⟨⟨key, hk, hp, hc, he⟩, ht⟩
    · rintro ⟨⟨key, hk, hp, hc, he⟩, ht⟩; exact ⟨key, hk, hp, hc, ht, he⟩

/-- What a token verified as `r` satisfies whatever the waiver. -/
structure Unwaived (I : Interpreter) (C : Crypto) {J : PyJwt} (V : JwtVerdicts J.Key) (suite : Suite)
    (token : Str) (jwk : Json) (policy : Policy) (r : Verified) where
  header : Dict
  alg : Str
  payload : Dict
  jwtExpired : Bool
  notAfter : Option DateTime
  expectedAudience : checkExpectedAudience policy.audience = .ok ()
  readHeader : readHeader token = .ok header
  permitted : permittedAlg suite.algs header = some alg
  noCrit : rejectUnknownCrit header = .ok ()
  notSdJwtTyp : rejectSdJwtTyp I header = .ok ()
  readPayload : peekClaims token = .ok payload
  noMarker : rejectSdJwtPayload payload = .ok ()
  shape : checkNumericDates payload ["exp", "nbf", "iat"] "token" = .ok ()
  signature : Signed I C V suite token alg jwk policy.audience r.claims jwtExpired
  audience : checkJwtAudience r.claims policy.audience "token" true = .ok ()
  credential : (r.claims.get "vc").obj? = some r.credential
  notBefore : NotBefore I r.credential suite.leeway
  readableEnd : bound I r.credential ["validUntil", "expirationDate"] = .ok notAfter
  reconciled : reconcile r.claims r.credential = .ok (r.issuer, r.subject)
  types : checkTypes r.credential policy.expectedTypes = .ok ()
  expired : r.expired = (jwtExpired || windowPassed I suite.leeway notAfter)

/-- The results of `verify`, specified without the waiver. -/
theorem verify_spec (hJ : J.Follows V) :
    verify I C J suite token jwk policy checkTemporal = .ok r ↔
      Nonempty (Unwaived I C V suite token jwk policy r) ∧
        (checkTemporal = true → r.expired = false) := by
  rw [verify_eq_ok]
  constructor
  · rintro ⟨run⟩
    obtain ⟨hs, ht⟩ := (verifyClaims_eq_ok hJ).mp run.verified
    obtain ⟨-, hnb, hwt, ts, hts, hb⟩ := checkValidityWindow_eq_ok.mp run.window
    refine ⟨⟨{ run with
      notAfter := ts, signature := hs, notBefore := hnb, readableEnd := hts
      expired := by rw [run.expired, hb] }⟩, fun h => ?_⟩
    rw [run.expired, ht h, hwt h]
    rfl
  · rintro ⟨⟨u⟩, ht⟩
    have hall : checkTemporal = true →
        u.jwtExpired = false ∧ windowPassed I suite.leeway u.notAfter = false := by
      intro h
      have := ht h
      rwa [u.expired, Bool.or_eq_false_iff] at this
    exact ⟨{ u with
      bodyExpired := windowPassed I suite.leeway u.notAfter
      verified := (verifyClaims_eq_ok hJ).mpr ⟨u.signature, fun h => (hall h).1⟩
      window := checkValidityWindow_eq_ok.mpr ⟨suite.leeway_ok, u.notBefore, fun h => (hall h).2,
        u.notAfter, u.readableEnd, rfl⟩ }⟩

end VcJwt

/-- The waiver is exact on both JOSE suites. An enforced run accepts what the waived run accepts as
not expired, with the same result; what the waived run accepts as expired or refuses, it refuses. And
the waived run is waived of nothing but the expiry: what it returns meets every other condition, with
the verdict it was spared as the value of `expired`. -/
theorem expiryWaiver_exact {I : Interpreter} {C : Crypto} {J : PyJwt} {V : JwtVerdicts J.Key}
    (hJ : J.Follows V) :
    (∀ suite presentation jwk policy,
      (∀ r, SdJwt.verify I C suite presentation jwk policy true = .ok r ↔
        SdJwt.verify I C suite presentation jwk policy false = .ok r ∧ r.expired = false) ∧
      (∀ r, SdJwt.verify I C suite presentation jwk policy false = .ok r → r.expired = true →
        ∃ e, SdJwt.verify I C suite presentation jwk policy true = .error e) ∧
      (∀ e, SdJwt.verify I C suite presentation jwk policy false = .error e →
        ∃ e', SdJwt.verify I C suite presentation jwk policy true = .error e') ∧
      (∀ r, SdJwt.verify I C suite presentation jwk policy false = .ok r ↔
        Nonempty (SdJwt.Unwaived I C suite presentation jwk policy r))) ∧
    (∀ suite token jwk policy,
      (∀ r, VcJwt.verify I C J suite token jwk policy true = .ok r ↔
        VcJwt.verify I C J suite token jwk policy false = .ok r ∧ r.expired = false) ∧
      (∀ r, VcJwt.verify I C J suite token jwk policy false = .ok r → r.expired = true →
        ∃ e, VcJwt.verify I C J suite token jwk policy true = .error e) ∧
      (∀ e, VcJwt.verify I C J suite token jwk policy false = .error e →
        ∃ e', VcJwt.verify I C J suite token jwk policy true = .error e') ∧
      (∀ r, VcJwt.verify I C J suite token jwk policy false = .ok r ↔
        Nonempty (VcJwt.Unwaived I C V suite token jwk policy r))) := by
  refine ⟨fun suite presentation jwk policy => ?_, fun suite token jwk policy => ?_⟩
  · have hw : Waivable (SdJwt.verify I C suite presentation jwk policy) (·.expired) :=
      Waivable.of_spec fun _ _ => SdJwt.verify_spec
    refine ⟨hw, fun r => hw.refuses, fun e => hw.error_of_error, fun r => ?_⟩
    rw [SdJwt.verify_spec]
    exact and_iff_left fun h => absurd h Bool.false_ne_true
  · have hw : Waivable (VcJwt.verify I C J suite token jwk policy) (·.expired) :=
      Waivable.of_spec fun _ _ => VcJwt.verify_spec hJ
    refine ⟨hw, fun r => hw.refuses, fun e => hw.error_of_error, fun r => ?_⟩
    rw [VcJwt.verify_spec hJ]
    exact and_iff_left fun h => absurd h Bool.false_ne_true

/-- A hundred seconds after they expire, both credentials are accepted under the waiver, as expired,
and refused without it. -/
theorem expiryWaiver_exact_expired :
    (∃ r e, SdJwt.verify (.atSecond 1900000100 []) SdJwt.annCrypto SdJwt.defaultSuite
        (SdJwt.annIssuerJwt ++ [126]) SdJwt.annJwk {} false = .ok r ∧ r.expired = true ∧
      SdJwt.verify (.atSecond 1900000100 []) SdJwt.annCrypto SdJwt.defaultSuite
        (SdJwt.annIssuerJwt ++ [126]) SdJwt.annJwk {} true = .error e) ∧
    ∃ r e, VcJwt.verify (.atSecond 1900000100 []) SdJwt.annCrypto (cardPyJwt 1900000100)
        ⟨60, by decide, false, false⟩ cardToken cardJwk {} false = .ok r ∧ r.expired = true ∧
      VcJwt.verify (.atSecond 1900000100 []) SdJwt.annCrypto (cardPyJwt 1900000100)
        ⟨60, by decide, false, false⟩ cardToken cardJwk {} true = .error e := by
  have hexact := @expiryWaiver_exact (.atSecond 1900000100 []) SdJwt.annCrypto
    (cardPyJwt 1900000100) (cardVerdicts 1900000100) (PyJwt.ofVerdicts_follows _ _)
  constructor
  · obtain ⟨r, hr, he⟩ := exists_ok_of_map
      (x := SdJwt.verify (.atSecond 1900000100 []) SdJwt.annCrypto SdJwt.defaultSuite
        (SdJwt.annIssuerJwt ++ [126]) SdJwt.annJwk {} false)
      (f := fun r => r.expired) (c := true) (by decide +kernel)
    obtain ⟨e, hte⟩ := (hexact.1 _ _ _ _).2.1 r hr he
    exact ⟨r, e, hr, he, hte⟩
  · obtain ⟨r, hr, he⟩ := exists_ok_of_map
      (x := VcJwt.verify (.atSecond 1900000100 []) SdJwt.annCrypto (cardPyJwt 1900000100)
        ⟨60, by decide, false, false⟩ cardToken cardJwk {} false)
      (f := fun r => r.expired) (c := true) (by decide +kernel)
    obtain ⟨e, hte⟩ := (hexact.2 _ _ _ _).2.1 r hr he
    exact ⟨r, e, hr, he, hte⟩

end OpenVC
