import OpenVC.Proof.Proofs.KeyBindingProofs
import OpenVC.Proof.VpJwt
import OpenVC.Proofs.IssuerBindingProofs

/-!
# Holder authentication of a VP-JWT

A presentation that is accepted was signed for the caller's audience and challenge, by the key
resolved for the holder that is reported or by the caller's own. Every embedded credential went
through the pipeline with the presentation's audience and nonce in the place of the policy's.
-/

namespace OpenVC.VpJwt

open Python Pipeline

variable {H : Host} {leeway : Int} {resolver : Did.DidResolver} {sources : Nat → Sources H}
  {policy : Policy} {expected : Expectation} {vpJwt : Str} {out : Verified}

/-! ## An accepted presentation -/

/-- The key that verified a presentation: the pinned one, or the one resolved for the holder. -/
def KeyOf (H : Host) (resolver : Did.DidResolver) (pinned : Option Dict) (holder : Str) (kid : Json)
    (jwk : Dict) : Prop :=
  match pinned with
  | some key => jwk = key
  | none => resolveJoseKey (holderSources H resolver) holder kid = .ok jwk

/-- An `aud` names a verifier: it is the verifier, or a list that has it. -/
inductive Names (audience : Str) : Json → Prop
  | string : Names audience (.str audience)
  | list {l : List Json} (h : .str audience ∈ l) : Names audience (.arr l)

theorem names_of_audIncludes {aud : Json} {audience : Str} (h : audIncludes aud audience = true) :
    Names audience aud := by
  unfold audIncludes at h
  rw [Bool.or_eq_true, Json.pyEq_str_right] at h
  rcases h with rfl | h
  · exact .string
  · split at h
    · obtain ⟨v, hv, heq⟩ := List.any_eq_true.mp h
      rw [Json.pyEq_str] at heq
      exact .list (heq ▸ hv)
    · cases h

/-- What `verify` established about a presentation it accepted. -/
structure Run (H : Host) (resolver : Did.DidResolver) (sources : Nat → Sources H) (policy : Policy)
    (expected : Expectation) (vpJwt : Str) (out : Verified) where
  jws : SdJwt.Jws
  jwk : Dict
  alg : Str
  credentials : List Json
  parsed : parseCompact vpJwt = .ok jws
  permitted : VcJwt.permittedAlg allowedAlgs jws.header = some alg
  signed : verifySignature H.crypto alg jwk jws.signingInput jws.signature = .ok true
  key : KeyOf H resolver expected.holderKeyJwk out.holder (jws.header.get "kid") jwk
  audience : audIncludes (jws.payload.get "aud") expected.audience = true
  nonce : jws.payload.get "nonce" = .str expected.nonce
  claims : out.claims = jws.payload
  vp : jws.payload.get "vp" = .obj out.vp
  holder_ne : out.holder ≠ []
  expectedHolder : ∀ h, expected.expectedHolder = some h → out.holder = h
  authenticated : expected.requireHolderBinding = true → expected.holderKeyJwk.isSome = true →
    expected.expectedHolder.isSome = true
  listed : entries out.vp = .ok credentials
  verified : List.Forall₂ (fun e r =>
    verifyCredential (batchResolvers resolver (sources e.2)) policy
      (some (expected.audience, expected.nonce)) e.1 = .ok r) credentials.zipIdx out.credentials
  subjects : expected.requireHolderBinding = true →
    ∀ r ∈ out.credentials, namesHolder out.holder r = true

/-- The holder whose key is resolved is the holder that the claims name. -/
theorem keyOf_of_holderKey {jws : SdJwt.Jws} {pinned : Option Dict} {jwk vp : Dict} {holder : Str}
    (hvp : jws.payload.get "vp" = .obj vp)
    (hholder : (orElse (jws.payload.get "iss") (vp.get "holder")).str?.filter (!·.isEmpty) =
      some holder) (h : holderKey H resolver pinned jws = .ok jwk) :
    KeyOf H resolver pinned holder (jws.header.get "kid") jwk := by
  cases pinned with
  | some key => exact (Except.ok.inj h).symm
  | none =>
    simp only [holderKey, resolveHolderKey, holderAndKid, bind_eq_ok, orRaise_eq_ok, raiseIf_eq_ok,
      reraise_eq_ok, pure_eq_ok] at h
    obtain ⟨⟨resolved, kid⟩, ⟨⟨⟩, -, named, hnamed, heq⟩, hkey⟩ := h
    obtain ⟨rfl, rfl⟩ := Prod.mk.inj heq
    have hvpHolder : vpHolder jws.payload = vp.get "holder" := by rw [vpHolder, hvp]
    rw [hvpHolder, hholder] at hnamed
    obtain rfl : holder = named := Option.some.inj hnamed
    exact hkey

theorem readHolder_eq_ok {claims vp : Dict} {expectedHolder : Option Str} {holder : Str}
    (h : readHolder claims vp expectedHolder = .ok holder) :
    (orElse (claims.get "iss") (vp.get "holder")).str?.filter (!·.isEmpty) = some holder ∧
      holder ≠ [] ∧ ∀ e, expectedHolder = some e → holder = e := by
  simp only [readHolder, bind_eq_ok, orRaise_eq_ok, raiseIf_eq_ok, pure_eq_ok] at h
  obtain ⟨named, hnamed, ⟨⟩, -, ⟨⟩, hexpected, rfl⟩ := h
  refine ⟨hnamed, ?_, ?_⟩
  · simpa using (Option.filter_eq_some_iff.mp hnamed).2
  · rintro e rfl
    simp only [Option.any_some, bne_eq_false_iff_eq] at hexpected
    exact hexpected.symm

theorem verifyCompact_eq_ok {C : Crypto} {token : Str} {jwk : Dict} {jws : SdJwt.Jws}
    (h : verifyCompact C token jwk = .ok jws) :
    parseCompact token = .ok jws ∧ ∃ alg, VcJwt.permittedAlg allowedAlgs jws.header = some alg ∧
      verifySignature C alg jwk jws.signingInput jws.signature = .ok true := by
  simp only [verifyCompact, bind_eq_ok, orRaise_eq_ok, reraise_eq_ok, raiseIf_eq_ok, pure_eq_ok] at h
  obtain ⟨parsed, hparse, alg, halg, ⟨⟩, -, ok, hsig, ⟨⟩, hok, rfl⟩ := h
  obtain rfl : ok = true := by simpa using hok
  exact ⟨hparse, alg, halg, hsig⟩

theorem run_of_verify (h : verify H leeway resolver sources policy expected vpJwt = .ok out) :
    Nonempty (Run H resolver sources policy expected vpJwt out) := by
  simp only [verify, bind_eq_ok, orRaise_eq_ok, raiseIf_eq_ok] at h
  obtain ⟨⟨⟩, -, peeked, hpeek, jwk, hkey, jws, hjws, ⟨⟩, hbinding, vp, hvp, holder, hholder, ⟨⟩,
    hauth, credentials, hentries, results, hresults, h⟩ := h
  obtain ⟨hparse, alg, halg, hsig⟩ := verifyCompact_eq_ok hjws
  -- the token that was inspected is the one that was verified
  simp only [inspect, bind_eq_ok, pure_eq_ok] at hpeek
  obtain ⟨peeked', hparse', -, -, ⟨⟩, -, ⟨⟩, -, ⟨⟩, -, rfl⟩ := hpeek
  obtain rfl : peeked' = jws := Except.ok.inj (hparse'.symm.trans hparse)
  have hvp := Json.obj?_eq_some.mp hvp
  obtain ⟨hnamed, hne, hexpected⟩ := readHolder_eq_ok hholder
  simp only [checkBinding, bind_eq_ok, raiseIf_eq_ok] at hbinding
  obtain ⟨-, -, ⟨⟩, haud, hnonce⟩ := hbinding
  have hout : out = ⟨holder, results, peeked'.payload, vp⟩ ∧
      (expected.requireHolderBinding = true → checkSubjects holder results = .ok ()) := by
    split at h
    · obtain ⟨⟨⟩, hsubjects, h⟩ := bind_eq_ok.mp h
      exact ⟨(pure_eq_ok.mp h).symm, fun _ => hsubjects⟩
    · rename_i hb
      exact ⟨(pure_eq_ok.mp h).symm, fun h => absurd h hb⟩
  obtain ⟨rfl, hsubjects⟩ := hout
  refine ⟨⟨peeked', jwk, alg, credentials, hparse, halg, hsig, keyOf_of_holderKey hvp hnamed hkey,
    by simpa using haud, Json.pyEq_str_right.mp (by simpa using hnonce), rfl, hvp, hne, hexpected,
    fun hb hp => ?_, hentries, collect_eq_ok.mp hresults, fun hb r hr => ?_⟩⟩
  · rw [hb, hp, Bool.true_and, Bool.true_and, Option.isNone_eq_false_iff] at hauth
    exact hauth
  · have hr := each_eq_ok.mp (hsubjects hb) r hr
    simpa [raiseIf_eq_ok] using hr

/-! ## Nested credentials -/

/-- The KB-JWT of an SD-JWT passed the check against an audience and a nonce. -/
def KbChecked (H : Host) (policy : Policy) (audience nonce sdJwt : Str) : Prop :=
  ∃ parts jws iss hashName, SdJwt.split sdJwt = .ok parts ∧
    SdJwt.decodeJws parts.issuerJwt = .ok jws ∧
    SdJwt.issAndHash H.crypto jws = .ok (iss, hashName) ∧
    ∃ b : SdJwt.Bound H.crypto policy.sdJwtSuite parts (jws.payload.get "cnf") hashName
        (policy.sdJwtPolicy (some audience, some nonce)) (SdJwt.kbInstant H.I policy.now),
      b.kb.payload.get "aud" = .str audience ∧ b.kb.payload.get "nonce" = .str nonce

/-- A result that claims a key binding comes from an SD-JWT whose KB-JWT is bound here. -/
def BoundHere (H : Host) (policy : Policy) (audience nonce : Str) (d : Detected)
    (r : VerificationResult) : Prop :=
  r.keyBound = some true → ∃ sdJwt, d = .sdJwtVc sdJwt ∧ KbChecked H policy audience nonce sdJwt

variable {S : Sources H} {audience nonce : Str} {r : VerificationResult}

theorem verifySdJwt_boundHere {verifyInner : Option Schema.VerifyInner} {sdJwt : Str}
    (h : verifySdJwt S policy verifyInner (some (audience, nonce)) sdJwt = .ok r) :
    BoundHere H policy audience nonce (.sdJwtVc sdJwt) r := by
  simp only [verifySdJwt, kbExpectations, bind_eq_ok, pure_eq_ok] at h
  obtain ⟨⟨iss, kid⟩, -, jwk, -, binding, ⟨⟨⟩, -, rfl⟩, verified, hverify, ⟨⟩, -, status, -, schema,
    -, rfl⟩ := h
  intro hb
  obtain ⟨run⟩ := SdJwt.verify_eq_ok.mp hverify
  obtain ⟨b⟩ := run.bound (Option.some.inj hb)
  obtain ⟨hjws, -⟩ := SdJwt.openIssuerJwt_eq_ok run.signed
  exact ⟨sdJwt, rfl, run.parts, run.jws, run.envelope.iss, run.envelope.hashName, run.split, hjws,
    (SdJwt.checkEnvelope_eq_ok.mp run.checkedEnvelope).1, b, b.audience audience rfl,
    b.nonce nonce rfl⟩

/-- The binding of the presentation is handed down through envelopes. -/
theorem verifyAt_boundHere {verifyInner : Nat → Option Schema.VerifyInner} {left : Nat}
    {credential : Json}
    (h : verifyAt S policy verifyInner (some (audience, nonce)) left credential = .ok r) :
    ∃ d, Opens credential d ∧ BoundHere H policy audience nonce d r := by
  induction left generalizing credential with
  | zero =>
    unfold verifyAt at h
    obtain ⟨⟨⟩, -, h⟩ := bind_eq_ok.mp h
    obtain ⟨d, hd, h⟩ := bind_eq_ok.mp h
    refine ⟨d, .here hd, ?_⟩
    cases d with
    | sdJwtVc sdJwt => exact verifySdJwt_boundHere h
    | vcJwt token => exact verifyVcJwt_boundHere h
    | dataIntegrity suite doc => exact verifyDataIntegrity_boundHere h
    | enveloped doc => cases h
  | succ left ih =>
    unfold verifyAt at h
    obtain ⟨⟨⟩, -, h⟩ := bind_eq_ok.mp h
    obtain ⟨d, hd, h⟩ := bind_eq_ok.mp h
    cases d with
    | sdJwtVc sdJwt => exact ⟨_, .here hd, verifySdJwt_boundHere h⟩
    | vcJwt token => exact ⟨_, .here hd, verifyVcJwt_boundHere h⟩
    | dataIntegrity suite doc => exact ⟨_, .here hd, verifyDataIntegrity_boundHere h⟩
    | enveloped doc =>
      obtain ⟨inner, hu, h⟩ := bind_eq_ok.mp h
      obtain ⟨d, hopens, hbound⟩ := ih h
      exact ⟨d, .envelope hd hu hopens, hbound⟩
where
  verifyVcJwt_boundHere {verifyInner : Option Schema.VerifyInner} {token : Str} {d : Detected}
      (h : verifyVcJwt S policy verifyInner token = .ok r) :
      BoundHere H policy audience nonce d r := by
    simp only [verifyVcJwt, bind_eq_ok, pure_eq_ok] at h
    obtain ⟨-, -, -, -, -, -, -, -, -, -, -, -, rfl⟩ := h
    intro hb
    cases hb
  verifyDataIntegrity_boundHere {verifyInner : Option Schema.VerifyInner} {suite : DiSuite}
      {doc : Dict} {d : Detected}
      (h : verifyDataIntegrity S policy verifyInner suite doc = .ok r) :
      BoundHere H policy audience nonce d r := by
    simp only [verifyDataIntegrity, bind_eq_ok, pure_eq_ok] at h
    obtain ⟨-, -, -, -, -, -, -, -, -, -, rfl⟩ := h
    intro hb
    cases hb

/-! ## Authentication of the holder -/

/-- What an accepted presentation guarantees. -/
structure Authenticated (H : Host) (resolver : Did.DidResolver) (sources : Nat → Sources H)
    (policy : Policy) (expected : Expectation) (vpJwt : Str) (out : Verified) : Prop where
  /-- The reported holder is the one whose resolved key verified the signature, or the caller's. -/
  signed : ∃ jws jwk alg, parseCompact vpJwt = .ok jws ∧
    VcJwt.permittedAlg allowedAlgs jws.header = some alg ∧
    verifySignature H.crypto alg jwk jws.signingInput jws.signature = .ok true ∧
    jws.payload = out.claims ∧
    (expected.holderKeyJwk = none →
      resolveJoseKey (holderSources H resolver) out.holder (jws.header.get "kid") = .ok jwk) ∧
    ∀ key, expected.holderKeyJwk = some key → jwk = key
  holder : ∀ h, expected.expectedHolder = some h → out.holder = h
  audience : Names expected.audience (out.claims.get "aud")
  nonce : out.claims.get "nonce" = .str expected.nonce
  /-- One result for each embedded credential, in order, from a verification of it. -/
  results : ∃ credentials, out.claims.get "vp" = .obj out.vp ∧ entries out.vp = .ok credentials ∧
    List.Forall₂ (fun e r =>
      verifyCredential (batchResolvers resolver (sources e.2)) policy
        (some (expected.audience, expected.nonce)) e.1 = .ok r ∧
      ∃ d, Opens e.1 d ∧ BoundHere H policy expected.audience expected.nonce d r)
      credentials.zipIdx out.credentials
  /-- With holder binding, every subject is the holder, whose identity is authenticated. -/
  bound : expected.requireHolderBinding = true →
    (expected.holderKeyJwk = none ∨ expected.expectedHolder = some out.holder) ∧
    ∀ r ∈ out.credentials, r.subject = .str out.holder ∧ out.holder ≠ []

/-- If a VP-JWT is accepted, its holder is authenticated, it is bound to the caller's audience and
nonce, and so is every nested credential that is reported as key bound. -/
theorem verify_authenticates (H : Host) (leeway : Int) (resolver : Did.DidResolver)
    (sources : Nat → Sources H) (policy : Policy) (expected : Expectation) (vpJwt : Str)
    (out : Verified) (h : verify H leeway resolver sources policy expected vpJwt = .ok out) :
    Authenticated H resolver sources policy expected vpJwt out := by
  obtain ⟨run⟩ := run_of_verify h
  have hclaims := run.claims
  refine ⟨⟨run.jws, run.jwk, run.alg, run.parsed, run.permitted, run.signed, hclaims.symm, ?_, ?_⟩,
    run.expectedHolder, ?_, ?_, ⟨run.credentials, hclaims ▸ run.vp, run.listed, ?_⟩, fun hb => ⟨?_, ?_⟩⟩
  · intro hnone
    have hkey := run.key
    rw [hnone] at hkey
    exact hkey
  · intro key hkey
    have hrun := run.key
    rw [hkey] at hrun
    exact hrun
  · exact hclaims ▸ names_of_audIncludes run.audience
  · exact hclaims ▸ run.nonce
  · exact run.verified.imp fun e r hr => ⟨hr, verifyAt_boundHere hr⟩
  · cases hpinned : expected.holderKeyJwk with
    | none => exact .inl rfl
    | some key =>
      have hsome := run.authenticated hb (by rw [hpinned]; rfl)
      obtain ⟨holder, hholder⟩ := Option.isSome_iff_exists.mp hsome
      rw [run.expectedHolder holder hholder]
      exact .inr hholder
  · intro r hr
    have hnames := run.subjects hb r hr
    rw [namesHolder, Bool.and_eq_true] at hnames
    exact ⟨Json.pyEq_str_right.mp hnames.2, run.holder_ne⟩

/-- The signing input of a presentation of the bound credential by `ann`. -/
def annSigningInput : Str :=
  List.flatMap lit
    ["eyJhbGciOiJFZERTQSIsImtpZCI6ImFubiNrIn0.eyJpc3MiOiJhbm4iLCJhdWQi",
     "OlsicnAiXSwibm9uY2UiOiJuLTEiLCJ2cCI6eyJ2ZXJpZmlhYmxlQ3JlZGVudGlh",
     "bCI6ImV5SmhiR2NpT2lKRlpFUlRRU0lzSW5SNWNDSTZJbVJqSzNOa0xXcDNkQ0o5",
     "LmV5SnBjM01pT2lKcElpd2lkbU4wSWpvaWRpSXNJbU51WmlJNmV5SnFkMnNpT25z",
     "aWEzUjVJam9pVDB0UUlpd2lZM0oySWpvaVJXUXlOVFV4T1NJc0luZ2lPaUkyYTNC",
     "eldTMUxZMVZuY1MwNVZrSTNSWGszUmkxYVZraGtjVFl0ZG01MVUxRm9OM0ZoVWxK",
     "SE1HbDNJbjE5TENKZmMyUWlPbHNpVDBWdWJqWnFWREpIYlc5NVVUVkNWVlZVT0U5",
     "UWRGazVTalJxUTNsa1NVbFhNVmRNVmsxcmNtWjRSU0pkZlEuYzVwY0FPSVFZdjlH",
     "N0xORWxBY2swQ25ISk1scEZMb24zWlliay1ZZkw4aVd1RGlxeTBXYldJSXNvLU1E",
     "MWxuaGhiYUFRdlhzSDcxbmVDNzNNelNmRFF-V3lKeklpd2ljM1ZpSWl3aVlXNXVJ",
     "bDB-ZXlKMGVYQWlPaUpyWWl0cWQzUWlMQ0poYkdjaU9pSkZaRVJUUVNKOS5leUpw",
     "WVhRaU9qRTRNREF3TURBd01EQXNJbUYxWkNJNkluSndJaXdpYm05dVkyVWlPaUp1",
     "TFRFaUxDSnpaRjlvWVhOb0lqb2lRVzluWWtWUFIybzNVMU5CTlVWVmRHTnFaR1l4",
     "TTA5emQzRnRWVmhNWTBKclpuSm9aVGt6U2t4b01DSjkuNGFmajQtS1lXdWlhblVi",
     "aWNmQmZVOWl0TGlvdEF6ZWFLcjBCSktMWnRVQnR5dm41cDF4TllZYUo1a1IxQ3No",
     "SnVreE92SDAzNHpoN0dRSzBaaVEzQVEifX0"]

/-- That presentation. -/
def annVpJwt : Str :=
  annSigningInput ++ List.flatMap lit
    [".8JGcb7aZWjrvFDllqrNGiYKfsIKvZRQemRuDABojFh_3s-bvF1UW59CFWecShU6Hn8cdO",
     "eoDiuNsxrIOYGDwCQ"]

/-- A host where the issuer signed the credential and the holder its KB-JWT and the presentation. -/
def annHost : Host :=
  { cardHost 1800000001 with
    crypto := Crypto.ofTexts
      [(0x03a107bff3ce10be1d70dd18e74bc09967e4d6309ba50d5f1ddc8664125531b8,
        SdJwt.boundSigningInput,
        (0x739a5c00e21062ff46ecb344940724d029c724c96914ba27dd961b93e61f2fc8,
         0x96b838aacb459b58822ca3e303d659e185b68042f5ec1fbd67782ef733349f0d)),
       (0xea4a6c63e29c520abef5507b132ec5f9954776aebebe7b92421eea691446d22c, SdJwt.kbSigningInput,
        (0xe1a7e3e3e2985ae89a9d46e271f05f53d8ad2e2a2d03379a2abd0124a2d9b540,
         0x6dcaf9f9a75c4d618689e644750ac849ba4c4ebc7d37e3387b1902b466243701)),
       (0xea4a6c63e29c520abef5507b132ec5f9954776aebebe7b92421eea691446d22c, annSigningInput,
        (0xf0919c6fb6995a3aef143965aab34689829fb082af65141e991b83001a23161f,
         0xf7b3e6ef175516e7d08559e712854e879fc71d39ea038ae36cc6b20e6060f009))] }

/-- A resolver that knows the issuer and the holder. -/
def annResolver : Did.DidResolver where
  supports := none
  resolve did :=
    if did = lit "ann" then .ok (.document ⟨"ann", [⟨"ann#k", "JsonWebKey2020", "ann",
      [("kty", .str "OKP"), ("crv", .str "Ed25519"),
       ("x", .str (lit "6kpsY-KcUgq-9VB7Ey7F-ZVHdq6-vnuSQh7qaRRG0iw"))]⟩],
      [], []⟩)
    else cardResolver.resolve did

/-- The embedded credential of the presentation. -/
def annCredential : Str := SdJwt.boundCredential ++ 126 :: SdJwt.kbJwt

/-- The presentation is accepted for its audience and nonce, with its one credential bound to the
holder. -/
theorem verify_authenticates_ann :
    ∃ out, verify annHost 60 annResolver
        (fun _ => ⟨annResolver, none, none, none, none, none⟩) {}
        ⟨"rp", "n-1", none, none, true⟩ annVpJwt = .ok out ∧
      (out.holder = lit "ann" ∧ out.credentials.map (·.keyBound) = [some true]) ∧
      Authenticated annHost annResolver (fun _ => ⟨annResolver, none, none, none, none, none⟩) {}
        ⟨"rp", "n-1", none, none, true⟩ annVpJwt out := by
  -- the token is opened and its credentials listed
  obtain ⟨opened, hopened, hc⟩ := exists_ok_of_map
    (x := do
      let peeked ← inspect annHost.I annVpJwt
      let jwk ← holderKey annHost annResolver none peeked
      let jws ← verifyCompact annHost.crypto annVpJwt jwk
      checkBinding annHost.I jws.payload 60 "rp" "n-1"
      let vp ← orRaise (jws.payload.get "vp").obj?
        ⟨.claimsInvalid, "VP-JWT has no `vp` object", []⟩
      let holder ← readHolder jws.payload vp none
      let listed ← entries vp
      return (holder, listed))
    (f := fun opened => (opened.1, opened.2.map Json.str?))
    (c := (lit "ann", [some annCredential])) (by
      unfold annVpJwt annHost annSigningInput annCredential SdJwt.boundCredential SdJwt.kbJwt
        SdJwt.boundSigningInput SdJwt.kbSigningInput
      simp only [List.flatMap_cons, List.flatMap_nil]
      repeat rw [lit_ofList]
      decide +kernel)
  simp only [bind_eq_ok, orRaise_eq_ok, pure_eq_ok] at hopened
  obtain ⟨peeked, hpeek, jwk, hkey, jws, hjws, ⟨⟩, hbinding, vp, hvp, holder, hholder, listed,
    hlisted, rfl⟩ := hopened
  obtain ⟨rfl, hlist⟩ := Prod.mk.inj hc
  obtain ⟨credential, rfl, hcredential⟩ := List.map_eq_singleton_iff.mp hlist
  obtain rfl := Json.str?_eq_some.mp hcredential
  obtain ⟨r, hr, hres⟩ := exists_ok_of_map
    (x := verifyCredential (batchResolvers annResolver
        (⟨annResolver, none, none, none, none, none⟩ : Sources annHost)) {}
      (some ("rp", "n-1")) (.str annCredential))
    (f := fun r => (r.keyBound, namesHolder "ann" r)) (c := (some true, true)) (by
      unfold annHost annCredential SdJwt.boundCredential SdJwt.kbJwt SdJwt.boundSigningInput
        SdJwt.kbSigningInput
      simp only [List.flatMap_cons, List.flatMap_nil]
      repeat rw [lit_ofList]
      decide +kernel)
  obtain ⟨hbound, hnamed⟩ := Prod.mk.inj hres
  have h : verify annHost 60 annResolver
      (fun _ => ⟨annResolver, none, none, none, none, none⟩) {}
      ⟨"rp", "n-1", none, none, true⟩ annVpJwt = .ok ⟨lit "ann", [r], jws.payload, vp⟩ := by
    simp only [verify, bind_eq_ok, orRaise_eq_ok, raiseIf_eq_ok]
    refine ⟨(), rfl, peeked, hpeek, jwk, hkey, jws, hjws, (), hbinding, vp, hvp, _, hholder, (),
      rfl, _, hlisted, [r], collect_eq_ok.mpr (.cons hr .nil), ?_⟩
    rw [if_true]
    refine bind_eq_ok.mpr ⟨(), each_eq_ok.mpr ?_, rfl⟩
    simpa [raiseIf_eq_ok] using hnamed
  exact ⟨_, h, ⟨rfl, by rw [List.map_singleton, hbound]⟩, verify_authenticates _ _ _ _ _ _ _ _ h⟩

end OpenVC.VpJwt
