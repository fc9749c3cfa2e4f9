import OpenVC.Proof.Proofs.VerifyCommonProofs
import OpenVC.Proof.SdJwt

/-!
# What a holder can change in an SD-JWT

A holder picks the disclosures. `withhold` is the payload with none of them: what the issuer wrote
in the clear. `_unpack` records every disclosure it places under the top-level claim it lands in, so
a claim that is not on the record reads as the issuer wrote it, whatever was disclosed elsewhere.
-/

namespace OpenVC.SdJwt

open Python

/-! ## The payload with every disclosure withheld -/

mutual

/-- A value without its digests. -/
def withhold : Json → Json
  | .obj m => .obj (withholdMembers m [])
  | .arr l => .arr (withholdElements l)
  | v => v

/-- The members of an object, appended to `acc`, without `_sd`. -/
def withholdMembers : List (Str × Json) → Dict → Dict
  | [], acc => acc
  | (key, value) :: members, acc =>
    if key = lit "_sd" then withholdMembers members acc
    else withholdMembers members (acc.set key (withhold value))

/-- The elements of an array without the digests among them. -/
def withholdElements : List Json → List Json
  | [] => []
  | element :: elements =>
    if (elementDigest element).isSome then withholdElements elements
    else withhold element :: withholdElements elements

end

/-! ## Below a top-level claim -/

/-- `descend` records under the claim `t` every disclosure it places below it, and where it places
none the node is as the issuer wrote it. -/
def Recorded (descend : Descend) : Prop :=
  ∀ t node st node' st', descend (some t) node st = .ok (node', st') →
    ∃ k, st'.placed = st.placed ++ List.replicate k (some t, true) ∧ (k = 0 → node' = withhold node)

variable {descend : Descend} {disclosures : ByDigest} {t : Str} {st st' : Unpacking}

/-- Records of two stretches of a run are the record of both. -/
theorem placed_trans {p₁ p₂ p₃ : List (Option Str × Bool)} {k₁ k₂ : Nat} {x : Option Str × Bool}
    (h₁ : p₂ = p₁ ++ List.replicate k₁ x) (h₂ : p₃ = p₂ ++ List.replicate k₂ x) :
    p₃ = p₁ ++ List.replicate (k₁ + k₂) x := by
  rw [h₂, h₁, List.append_assoc, List.replicate_append_replicate]

theorem unpackMembers_recorded (hd : Recorded descend) {members result result' : Dict}
    (h : unpackMembers descend (some t) members result st = .ok (result', st')) :
    ∃ k, st'.placed = st.placed ++ List.replicate k (some t, true) ∧
      (k = 0 → result' = withholdMembers members result) := by
  induction members generalizing result st with
  | nil =>
    cases h
    exact ⟨0, by simp, fun _ => rfl⟩
  | cons m members ih =>
    obtain ⟨key, value⟩ := m
    rw [unpackMembers] at h
    rw [withholdMembers]
    split at h
    · rename_i hsd
      rw [if_pos hsd]
      exact ih h
    · rename_i hsd
      rw [if_neg hsd]
      split at h
      · cases h
      · obtain ⟨⟨value', st₁⟩, h₁, h₂⟩ := bind_eq_ok.mp h
        obtain ⟨k₁, hp₁, hv⟩ := hd t value st value' st₁ h₁
        obtain ⟨k₂, hp₂, hr⟩ := ih h₂
        refine ⟨k₁ + k₂, placed_trans hp₁ hp₂, fun hk => ?_⟩
        rw [hr (by omega), hv (by omega)]

theorem unpackDigests_recorded (hd : Recorded descend) {digests : List Str} {result result' : Dict}
    (h : unpackDigests disclosures descend (some t) digests result st = .ok (result', st')) :
    ∃ k, st'.placed = st.placed ++ List.replicate k (some t, true) ∧ (k = 0 → result' = result) := by
  induction digests generalizing result st with
  | nil =>
    cases h
    exact ⟨0, by simp, fun _ => rfl⟩
  | cons digest digests ih =>
    rw [unpackDigests] at h
    split at h
    · cases h
    · split at h
      · have hrest := ih h
        exact hrest
      · obtain ⟨⟨name, value⟩, -, h⟩ := bind_eq_ok.mp h
        obtain ⟨⟨value', st₁⟩, h₁, h₂⟩ := bind_eq_ok.mp h
        obtain ⟨k₁, hp₁, -⟩ := hd t value _ value' st₁ h₁
        obtain ⟨k₂, hp₂, -⟩ := ih h₂
        have hp : st'.placed = st.placed ++ List.replicate (1 + k₁ + k₂) (some t, true) :=
          placed_trans (placed_trans rfl hp₁) hp₂
        exact ⟨1 + k₁ + k₂, hp, by omega⟩

theorem unpackElement_recorded (hd : Recorded descend) {element : Json} {out : List Json}
    (h : unpackElement disclosures descend (some t) element st = .ok (out, st')) :
    ∃ k, st'.placed = st.placed ++ List.replicate k (some t, true) ∧
      (k = 0 → out = if (elementDigest element).isSome then [] else [withhold element]) := by
  rw [unpackElement] at h
  cases he : elementDigest element with
  | none =>
    rw [he] at h
    obtain ⟨⟨value, st₁⟩, h₁, h₂⟩ := bind_eq_ok.mp h
    cases h₂
    obtain ⟨k, hp, hv⟩ := hd t element st value st' h₁
    exact ⟨k, hp, fun hk => by simp [hv hk]⟩
  | some digest =>
    simp only [he, unpackElementDigest, bind_eq_ok, orRaise_eq_ok, raiseIf_eq_ok] at h
    obtain ⟨digest, -, ⟨⟩, -, h⟩ := h
    split at h
    · cases h
      exact ⟨0, by simp, fun _ => by simp⟩
    · obtain ⟨value, -, h⟩ := bind_eq_ok.mp h
      obtain ⟨⟨value', st₁⟩, h₁, h₂⟩ := bind_eq_ok.mp h
      cases h₂
      obtain ⟨k₁, hp₁, -⟩ := hd t value _ value' st₁ h₁
      exact ⟨1 + k₁, placed_trans rfl hp₁, by omega⟩

theorem unpackElements_recorded (hd : Recorded descend) {elements out : List Json}
    (h : unpackElements disclosures descend (some t) elements st = .ok (out, st')) :
    ∃ k, st'.placed = st.placed ++ List.replicate k (some t, true) ∧
      (k = 0 → out = withholdElements elements) := by
  induction elements generalizing st out with
  | nil =>
    cases h
    exact ⟨0, by simp, fun _ => rfl⟩
  | cons element elements ih =>
    rw [unpackElements] at h
    obtain ⟨⟨front, st₁⟩, h₁, h⟩ := bind_eq_ok.mp h
    obtain ⟨⟨rest, st₂⟩, h₂, h⟩ := bind_eq_ok.mp h
    cases h
    obtain ⟨k₁, hp₁, hf⟩ := unpackElement_recorded hd h₁
    obtain ⟨k₂, hp₂, hr⟩ := ih h₂
    refine ⟨k₁ + k₂, placed_trans hp₁ hp₂, fun hk => ?_⟩
    rw [hf (by omega), hr (by omega), withholdElements]
    split <;> rfl

theorem unpack_recorded (disclosures : ByDigest) (levels : Nat) :
    Recorded (unpack disclosures levels) := by
  induction levels with
  | zero =>
    intro t node st node' st' h
    cases h
  | succ levels ih =>
    intro t node st node' st' h
    cases node with
    | obj members =>
      rw [unpack] at h
      obtain ⟨⟨result, st₁⟩, h₁, h⟩ := bind_eq_ok.mp h
      obtain ⟨digests, -, h⟩ := bind_eq_ok.mp h
      obtain ⟨⟨result', st₂⟩, h₂, h⟩ := bind_eq_ok.mp h
      cases h
      obtain ⟨k₁, hp₁, hr₁⟩ := unpackMembers_recorded ih h₁
      obtain ⟨k₂, hp₂, hr₂⟩ := unpackDigests_recorded ih h₂
      refine ⟨k₁ + k₂, placed_trans hp₁ hp₂, fun hk => ?_⟩
      rw [withhold, hr₂ (by omega), hr₁ (by omega)]
    | arr elements =>
      rw [unpack] at h
      obtain ⟨⟨out, st₁⟩, h₁, h⟩ := bind_eq_ok.mp h
      cases h
      obtain ⟨k, hp, hr⟩ := unpackElements_recorded ih h₁
      exact ⟨k, hp, fun hk => by rw [withhold, hr hk]⟩
    | null | bool | int | float | str =>
      cases h
      exact ⟨0, by simp, fun _ => rfl⟩

/-! ## At the root -/

/-- Nothing was disclosed as the top-level claim `name` or below it. -/
def Untouched (placed : List (Option Str × Bool)) (name : Str) : Prop :=
  ∀ nested, (some name, nested) ∉ placed

theorem Untouched.of_append {p q : List (Option Str × Bool)} {name : Str}
    (h : Untouched (p ++ q) name) : Untouched p name :=
  fun nested hm => h nested (List.mem_append_left _ hm)

theorem unpackMembers_root (hd : Recorded descend) {members result result' : Dict}
    (h : unpackMembers descend none members result st = .ok (result', st')) :
    (∃ new, st'.placed = st.placed ++ new) ∧
      ∀ name acc, Untouched st'.placed name → result.get? name = Dict.get? acc name →
        result'.get? name = (withholdMembers members acc).get? name := by
  induction members generalizing result st with
  | nil =>
    cases h
    exact ⟨⟨[], by simp⟩, fun _ _ _ hacc => hacc⟩
  | cons m members ih =>
    obtain ⟨key, value⟩ := m
    rw [unpackMembers] at h
    split at h
    · rename_i hsd
      obtain ⟨hnew, hget⟩ := ih h
      refine ⟨hnew, fun name acc hu hacc => ?_⟩
      rw [withholdMembers, if_pos hsd]
      exact hget name acc hu hacc
    · rename_i hsd
      split at h
      · cases h
      · obtain ⟨⟨value', st₁⟩, h₁, h₂⟩ := bind_eq_ok.mp h
        obtain ⟨k, hp, hv⟩ := hd key value st value' st₁ h₁
        obtain ⟨⟨new, hnew⟩, hget⟩ := ih h₂
        refine ⟨⟨List.replicate k (some key, true) ++ new, by rw [hnew, hp, List.append_assoc]⟩, ?_⟩
        intro name acc hu hacc
        rw [withholdMembers, if_neg hsd]
        refine hget name _ hu ?_
        rw [Dict.get?_set, Dict.get?_set]
        by_cases hk : key = name
        · -- nothing is on the record below this claim, so its value is the issuer's
          have hk0 : k = 0 := by
            by_contra hne
            have hmem : (some key, true) ∈ st₁.placed := by
              rw [hp]
              exact List.mem_append_right _ (List.mem_replicate.mpr ⟨hne, rfl⟩)
            exact hu true (hk ▸ hnew ▸ List.mem_append_left _ hmem)
          rw [if_pos hk, if_pos hk, hv hk0]
        · rw [if_neg hk, if_neg hk, hacc]

theorem unpackDigests_root (hd : Recorded descend) {digests : List Str} {result result' : Dict}
    (h : unpackDigests disclosures descend none digests result st = .ok (result', st')) :
    (∃ new, st'.placed = st.placed ++ new) ∧
      ∀ name, Untouched st'.placed name → result'.get? name = result.get? name := by
  induction digests generalizing result st with
  | nil =>
    cases h
    exact ⟨⟨[], by simp⟩, fun _ _ => rfl⟩
  | cons digest digests ih =>
    rw [unpackDigests] at h
    split at h
    · cases h
    · split at h
      · have hrest := ih h
        exact hrest
      · obtain ⟨⟨disclosed, value⟩, -, h⟩ := bind_eq_ok.mp h
        obtain ⟨⟨value', st₁⟩, h₁, h₂⟩ := bind_eq_ok.mp h
        obtain ⟨k, hp, -⟩ := hd disclosed value _ value' st₁ h₁
        obtain ⟨⟨new, hnew⟩, hget⟩ := ih h₂
        have hall : st'.placed = st.placed ++
            ((some disclosed, false) :: List.replicate k (some disclosed, true) ++ new) := by
          rw [hnew, hp]
          simp [placement]
        refine ⟨⟨_, hall⟩, fun name hu => ?_⟩
        rw [hget name hu, Dict.get?_set, if_neg]
        rintro rfl
        exact hu false (by rw [hall]; simp)

/-- A top-level claim that is not on the record reads as the issuer wrote it. -/
theorem unpack_untouched {levels : Nat} {members : Dict} {node' : Json}
    (h : unpack disclosures (levels + 1) none (.obj members) st = .ok (node', st')) :
    ∃ result, node' = .obj result ∧ ∀ name, Untouched st'.placed name →
      Dict.get? result name = (withholdMembers members []).get? name := by
  rw [unpack] at h
  obtain ⟨⟨result, st₁⟩, h₁, h⟩ := bind_eq_ok.mp h
  obtain ⟨digests, -, h⟩ := bind_eq_ok.mp h
  obtain ⟨⟨result', st₂⟩, h₂, h⟩ := bind_eq_ok.mp h
  cases h
  have hd := unpack_recorded disclosures levels
  obtain ⟨⟨new, hnew⟩, hdig⟩ := unpackDigests_root hd h₂
  refine ⟨result', rfl, fun name hu => ?_⟩
  rw [hdig name hu]
  exact (unpackMembers_root hd h₁).2 name [] (Untouched.of_append (hnew ▸ hu)) rfl

/-! ## A verified presentation -/

variable {I : Interpreter} {C : Crypto} {suite : Suite} {presentation : Str} {jwk : Dict}
  {policy : Policy} {checkTemporal : Bool} {r : Verified}

/-- What a run of `verify` that returned `r` computed on its way, in the order of the source. -/
structure Run (I : Interpreter) (C : Crypto) (suite : Suite) (presentation : Str) (jwk : Dict)
    (policy : Policy) (checkTemporal : Bool) (r : Verified) where
  parts : Parts
  jws : Jws
  envelope : Envelope
  placed : List (Option Str × Bool)
  processedExpired : Bool
  windowExpired : Bool
  maxAge : nonNegativeSeconds policy.kbMaxAgeS "kb_max_age_s" .sdJwtError = .ok policy.kbMaxAgeS
  split : split presentation = .ok parts
  signed : openIssuerJwt C suite parts.issuerJwt jwk = .ok (jws, r.typ)
  checkedEnvelope : checkEnvelope I C suite parts jws policy checkTemporal
    (kbInstant I policy.now) = .ok envelope
  processed : processPayload C envelope.hashName parts jws.payload = .ok (r.claims, placed)
  notRefused : refuseDisclosures placed r.vcdm = .ok ()
  w3c : checkW3c r.typ r.vcdm r.claims = .ok ()
  hasVct : (r.typ == some issuerTyp && (text? (r.claims.get "vct")).isNone) = false
  temporal : checkTemporalClaims I suite r.claims checkTemporal = .ok processedExpired
  audience : checkJwtAudience r.claims policy.audience "issuer JWT" false = .ok ()
  window : checkVcdm I suite r.vcdm envelope.iss r.claims checkTemporal = .ok windowExpired
  expectedVct : (policy.expectedVct.any fun e => !Json.pyEq (r.claims.get "vct") (.str e)) = false
  akaVcts : checkAkaVcts r.claims = .ok ()
  binding : optionalBinding I C suite parts jws policy envelope (kbInstant I policy.now) =
    .ok r.keyBound
  issuer : r.issuer = envelope.iss
  vct : r.vct = (r.claims.get "vct").str?
  confirmation : r.confirmation = jws.payload.get "cnf"
  expired : r.expired = (windowExpired || processedExpired || envelope.expired)
  vcdm : r.vcdm = declaresVcdm r.claims

theorem nonNegativeSeconds_eq_ok {value n : Int} {name : Str} {error : ErrorClass} :
    nonNegativeSeconds value name error = .ok n ↔ 0 ≤ value ∧ n = value := by
  simp only [nonNegativeSeconds, bind_eq_ok, raiseIf_eq_ok, pure_eq_ok]
  constructor
  · rintro ⟨_, h, rfl⟩; exact ⟨by simpa using h, rfl⟩
  · rintro ⟨h, rfl⟩; exact ⟨(), by simpa using h, rfl⟩

theorem verify_eq_ok : verify I C suite presentation jwk policy checkTemporal = .ok r ↔
    Nonempty (Run I C suite presentation jwk policy checkTemporal r) := by
  simp only [verify, bind_eq_ok, raiseIf_eq_ok, pure_eq_ok]
  constructor
  · rintro ⟨age, hage, parts, hsplit, ⟨jws, typ⟩, hsigned, envelope, henv, ⟨unpacked, placed⟩,
      hproc, ⟨⟩, hrefuse, ⟨⟩, hw3c, ⟨⟩, hvct, pe, htemp, ⟨⟩, haud, we, hwin, ⟨⟩, hexp, ⟨⟩, haka,
      kb, hkb, rfl⟩
    have hage' := nonNegativeSeconds_eq_ok.mp hage
    exact ⟨{ parts, jws, envelope, placed, processedExpired := pe, windowExpired := we,
             maxAge := nonNegativeSeconds_eq_ok.mpr ⟨hage'.1, rfl⟩, split := hsplit,
             signed := hsigned, checkedEnvelope := henv, processed := hproc, notRefused := hrefuse,
             w3c := hw3c, hasVct := hvct, temporal := htemp, audience := haud, window := hwin,
             expectedVct := hexp, akaVcts := haka, binding := hkb, issuer := rfl, vct := rfl,
             confirmation := rfl, expired := rfl, vcdm := rfl }⟩
  · rintro ⟨run⟩
    obtain ⟨claims, issuer, vct, keyBound, confirmation, expired, vcdm, typ⟩ := r
    have hv : vcdm = declaresVcdm claims := run.vcdm
    subst hv
    refine ⟨_, run.maxAge, run.parts, run.split, (run.jws, typ), run.signed, run.envelope,
      run.checkedEnvelope, (claims, run.placed), run.processed, (), run.notRefused, (), run.w3c, (),
      run.hasVct, run.processedExpired, run.temporal, (), run.audience, run.windowExpired,
      run.window, (), run.expectedVct, (), run.akaVcts, keyBound, run.binding, ?_⟩
    rw [Verified.mk.injEq]
    exact ⟨rfl, run.issuer.symm, run.vct.symm, rfl, run.confirmation.symm, run.expired.symm, rfl, rfl⟩

/-- The processed payload of an accepted presentation, at the claims nothing was disclosed in. -/
theorem processPayload_untouched {hashName : Str} {parts : Parts} {claims unpacked : Dict}
    {placed : List (Option Str × Bool)}
    (h : processPayload C hashName parts claims = .ok (unpacked, placed)) {name : Str}
    (hu : Untouched placed name) :
    unpacked.get? name = ((withholdMembers claims []).erase "_sd_alg").get? name := by
  simp only [processPayload, bind_eq_ok, raiseIf_eq_ok, orRaise_eq_ok, pure_eq_ok,
    Json.obj?_eq_some, Prod.mk.injEq] at h
  obtain ⟨byDigest, -, ⟨node, st⟩, hunpack, ⟨⟩, -, result, hnode, rfl, rfl⟩ := h
  obtain ⟨result', rfl, hget⟩ := unpack_untouched hunpack
  cases hnode
  rw [Dict.get?_erase, Dict.get?_erase, hget name hu]

/-- The names no presentation may disclose: the profile's, and on a VCDM payload the validity
window. -/
def Protected (vcdm : Bool) (name : Str) : Prop :=
  name ∈ sdJwtVcNonDisclosable ∨ name ∈ openvcNonDisclosable ∨
    vcdm = true ∧ name ∈ vcdmValidityClaims

theorem disclosureRefusal_isSome {name : Str} {vcdm : Bool} (h : Protected vcdm name) :
    (disclosureRefusal (some name) vcdm).isSome = true := by
  rw [disclosureRefusal]
  split
  · rfl
  · rename_i h₁
    split
    · rfl
    · rename_i h₂
      rcases h with h | h | ⟨hv, h⟩
      · exact absurd h h₁
      · exact absurd h h₂
      · rw [hv]
        have : vcdmValidityClaims.contains name = true := by simpa using h
        rw [this]
        rfl

theorem untouched_of_protected {placed : List (Option Str × Bool)} {vcdm : Bool} {name : Str}
    (h : refuseDisclosures placed vcdm = .ok ()) (hp : Protected vcdm name) :
    Untouched placed name := by
  intro nested hm
  have hr := raiseIf_eq_ok.mp (each_eq_ok.mp h _ hm)
  rw [disclosureRefusal_isSome hp] at hr
  cases hr

/-- In an accepted presentation a protected claim reads as the issuer wrote it. -/
theorem Run.get?_protected (run : Run I C suite presentation jwk policy checkTemporal r) {name : Str}
    (hp : Protected r.vcdm name) :
    r.claims.get? name = ((withholdMembers run.jws.payload []).erase "_sd_alg").get? name :=
  processPayload_untouched run.processed (untouched_of_protected run.notRefused hp)

/-- The issuer JWT of a presentation is the text before its first `~`. -/
theorem issuerJwt_of_split {issuerJwt tail : Str} {parts : Parts} (hj : 126 ∉ issuerJwt)
    (h : split (issuerJwt ++ 126 :: tail) = .ok parts) : parts.issuerJwt = issuerJwt := by
  have hne : ∀ x ∈ issuerJwt, (x == 126) = false := by
    intro x hx
    rw [beq_eq_false_iff_ne]
    exact fun e => hj (e ▸ hx)
  have hsplit : Str.split 126 (issuerJwt ++ 126 :: tail) = issuerJwt :: Str.split 126 tail :=
    List.splitOn_append_cons_of_forall_mem_beq_eq_false hne 126 rfl tail
  rw [split, hsplit] at h
  split at h
  · rename_i jwt part ps heq
    cases h
    exact (List.cons.inj heq).1.symm
  · cases h

/-- The envelope of a presentation: the issuer and the hash from the issuer JWT, its expiry, and the
holder binding when it is required. -/
theorem checkEnvelope_eq_ok {parts : Parts} {jws : Jws} {current : Json} {envelope : Envelope} :
    checkEnvelope I C suite parts jws policy checkTemporal current = .ok envelope ↔
      issAndHash C jws = .ok (envelope.iss, envelope.hashName) ∧
      checkTemporalClaims I suite jws.payload checkTemporal = .ok envelope.expired ∧
      (if policy.requireKeyBinding then verifyKeyBinding I C suite parts (jws.payload.get "cnf")
        envelope.hashName policy true current else .ok false) = .ok envelope.keyBound := by
  rw [checkEnvelope]
  split
  · simp only [bind_eq_ok, pure_eq_ok]
    constructor
    · rintro ⟨⟨iss, hashName⟩, hiss, kb, hkb, expired, hexp, rfl⟩
      exact ⟨hiss, hexp, hkb⟩
    · rintro ⟨hiss, hexp, hkb⟩
      exact ⟨_, hiss, _, hkb, _, hexp, rfl⟩
  · simp only [bind_eq_ok, pure_eq_ok]
    constructor
    · rintro ⟨expired, hexp, ⟨iss, hashName⟩, hiss, rfl⟩
      exact ⟨hiss, hexp, rfl⟩
    · rintro ⟨hiss, hexp, hkb⟩
      refine ⟨_, hexp, _, hiss, ?_⟩
      rw [Except.ok.inj hkb]

/-- The holder binding of a presentation, required or not, is one run of `_verify_key_binding`. -/
theorem binding_eq_ok {parts : Parts} {jws : Jws} {current : Json} {envelope : Envelope} {b : Bool} :
    ((if policy.requireKeyBinding then verifyKeyBinding I C suite parts (jws.payload.get "cnf")
        envelope.hashName policy true current else .ok false) = .ok envelope.keyBound ∧
      optionalBinding I C suite parts jws policy envelope current = .ok b) ↔
    verifyKeyBinding I C suite parts (jws.payload.get "cnf") envelope.hashName policy
        policy.requireKeyBinding current = .ok b ∧
      envelope.keyBound = (policy.requireKeyBinding && b) := by
  rw [optionalBinding]
  cases hr : policy.requireKeyBinding with
  | true =>
    simp only [if_true, Bool.true_and, Except.ok.injEq]
    constructor
    · rintro ⟨h, rfl⟩; exact ⟨h, rfl⟩
    · rintro ⟨h, rfl⟩; exact ⟨h, rfl⟩
  | false =>
    simp only [Bool.false_eq_true, if_false, Bool.false_and, Except.ok.injEq]
    constructor
    · rintro ⟨h, hb⟩; exact ⟨hb, h.symm⟩
    · rintro ⟨hb, h⟩; exact ⟨h.symm, hb⟩

theorem checkTemporalClaims_eq_ok {claims : Dict} {b : Bool} :
    checkTemporalClaims I suite claims checkTemporal = .ok b ↔
      JwtDates claims suite.leeway "token" (.float I.time) ∧ (checkTemporal = true → b = false) ∧
      b = expPassed claims suite.leeway (.float I.time) := by
  rw [checkTemporalClaims, checkJwtTemporal_eq_ok]
  exact ⟨fun h => h.2, fun h => ⟨suite.leeway_ok, h⟩⟩

/-- The window and the consistency of a VCDM payload. -/
theorem checkVcdm_eq_ok {vcdm : Bool} {iss : Str} {claims : Dict} {b : Bool} :
    checkVcdm I suite vcdm iss claims checkTemporal = .ok b ↔
      (vcdm = false ∧ b = false) ∨ (vcdm = true ∧ NotBefore I claims suite.leeway ∧
        (checkTemporal = true → b = false) ∧
        (∃ ts, bound I claims ["validUntil", "expirationDate"] = .ok ts ∧
          b = windowPassed I suite.leeway ts) ∧
        ∃ s, VcJwt.reconcile (claims.set "iss" (.str iss)) claims = .ok s) := by
  rw [checkVcdm]
  cases vcdm with
  | false => simp [eq_comm]
  | true =>
    simp only [if_true, bind_eq_ok, pure_eq_ok, checkValidityWindow_eq_ok, Bool.true_eq_false,
      false_and, false_or, true_and]
    constructor
    · rintro ⟨b', ⟨-, hb, ht, hts⟩, s, hs, rfl⟩
      exact ⟨hb, ht, hts, s, hs⟩
    · rintro ⟨hb, ht, hts, s, hs⟩
      exact ⟨b, ⟨suite.leeway_ok, hb, ht, hts⟩, s, hs, rfl⟩

theorem expPassed_congr {claims claims' : Dict} (h : claims.get? "exp" = claims'.get? "exp")
    (leeway : Int) (current : Json) :
    expPassed claims leeway current = expPassed claims' leeway current := by
  simp only [expPassed, Dict.has, Dict.get, h]

/-- The window verdict depends on the two claims that end the window. -/
theorem windowExpired_congr {vcdm : Bool} {iss iss' : Str} {claims claims' : Dict} {b b' : Bool}
    (hc : vcdm = true → ∀ name ∈ vcdmValidityClaims, claims.get? name = claims'.get? name)
    (h : checkVcdm I suite vcdm iss claims checkTemporal = .ok b)
    (h' : checkVcdm I suite vcdm iss' claims' checkTemporal = .ok b') : b = b' := by
  cases vcdm with
  | false =>
    cases h
    cases h'
    rfl
  | true =>
    obtain ⟨hv, -⟩ | ⟨-, -, -, ⟨ts, hts, rfl⟩, -⟩ := checkVcdm_eq_ok.mp h
    · cases hv
    obtain ⟨hv, -⟩ | ⟨-, -, -, ⟨ts', hts', rfl⟩, -⟩ := checkVcdm_eq_ok.mp h'
    · cases hv
    have hb : bound I claims ["validUntil", "expirationDate"] =
        bound I claims' ["validUntil", "expirationDate"] := by
      apply bound_congr
      intro name hn
      apply hc rfl
      simp only [List.mem_cons, List.not_mem_nil, or_false] at hn
      rcases hn with rfl | rfl <;> simp [vcdmValidityClaims]
    rw [hb, hts'] at hts
    cases hts
    rfl

/-- A holder cannot change what a verifier relies on: two accepted presentations of one issuer JWT,
with whatever disclosures and KB-JWTs, agree on the issuer, the type, the confirmation key and the
expiry, and on every claim that must not be disclosable with all that is below it. -/
theorem verify_holder_independent {issuerJwt tail₁ tail₂ : Str} {r₁ r₂ : Verified}
    (hj : 126 ∉ issuerJwt)
    (h₁ : verify I C suite (issuerJwt ++ 126 :: tail₁) jwk policy checkTemporal = .ok r₁)
    (h₂ : verify I C suite (issuerJwt ++ 126 :: tail₂) jwk policy checkTemporal = .ok r₂) :
    r₁.issuer = r₂.issuer ∧ r₁.vct = r₂.vct ∧ r₁.typ = r₂.typ ∧ r₁.vcdm = r₂.vcdm ∧
      r₁.confirmation = r₂.confirmation ∧ r₁.expired = r₂.expired ∧
      (∀ name ∈ sdJwtVcNonDisclosable ++ openvcNonDisclosable,
        r₁.claims.get? name = r₂.claims.get? name) ∧
      (r₁.vcdm = true → ∀ name ∈ vcdmValidityClaims,
        r₁.claims.get? name = r₂.claims.get? name) := by
  obtain ⟨run₁⟩ := verify_eq_ok.mp h₁
  obtain ⟨run₂⟩ := verify_eq_ok.mp h₂
  -- the signed half of the two runs is the same
  have hsigned : (run₁.jws, r₁.typ) = (run₂.jws, r₂.typ) := by
    have s₁ := issuerJwt_of_split hj run₁.split ▸ run₁.signed
    have s₂ := issuerJwt_of_split hj run₂.split ▸ run₂.signed
    exact Except.ok.inj (s₁.symm.trans s₂)
  obtain ⟨hjws, htyp⟩ := Prod.mk.inj hsigned
  obtain ⟨hiss₁, hexp₁, -⟩ := checkEnvelope_eq_ok.mp run₁.checkedEnvelope
  obtain ⟨hiss₂, hexp₂, -⟩ := checkEnvelope_eq_ok.mp run₂.checkedEnvelope
  have hiss : run₁.envelope.iss = run₂.envelope.iss := by
    rw [hjws, hiss₂] at hiss₁
    exact (Prod.mk.inj (Except.ok.inj hiss₁)).1.symm
  have henv : run₁.envelope.expired = run₂.envelope.expired := by
    rw [hjws, hexp₂] at hexp₁
    exact (Except.ok.inj hexp₁).symm
  -- the protected claims of the two results are the issuer's
  have hclaim : ∀ name, Protected r₁.vcdm name → Protected r₂.vcdm name →
      r₁.claims.get? name = r₂.claims.get? name := by
    intro name hp₁ hp₂
    rw [run₁.get?_protected hp₁, run₂.get?_protected hp₂, hjws]
  have hfixed : ∀ name ∈ sdJwtVcNonDisclosable ++ openvcNonDisclosable,
      r₁.claims.get? name = r₂.claims.get? name := by
    intro name hn
    rcases List.mem_append.mp hn with hn | hn
    · exact hclaim name (Or.inl hn) (Or.inl hn)
    · exact hclaim name (Or.inr (Or.inl hn)) (Or.inr (Or.inl hn))
  have hvcdm : r₁.vcdm = r₂.vcdm := by
    rw [run₁.vcdm, run₂.vcdm, declaresVcdm, declaresVcdm, Dict.get, Dict.get,
      hfixed "@context" (by decide)]
  have hwindow : r₁.vcdm = true → ∀ name ∈ vcdmValidityClaims,
      r₁.claims.get? name = r₂.claims.get? name := by
    intro hv name hn
    exact hclaim name (Or.inr (Or.inr ⟨hv, hn⟩)) (Or.inr (Or.inr ⟨hvcdm ▸ hv, hn⟩))
  have hvct : r₁.vct = r₂.vct := by
    rw [run₁.vct, run₂.vct, Dict.get, Dict.get, hfixed "vct" (by decide)]
  have hprocessed : run₁.processedExpired = run₂.processedExpired := by
    rw [(checkTemporalClaims_eq_ok.mp run₁.temporal).2.2,
      (checkTemporalClaims_eq_ok.mp run₂.temporal).2.2]
    exact expPassed_congr (hfixed "exp" (by decide)) _ _
  have hwin : run₁.windowExpired = run₂.windowExpired :=
    windowExpired_congr hwindow run₁.window (hvcdm ▸ run₂.window)
  refine ⟨?_, hvct, htyp, hvcdm, ?_, ?_, hfixed, hwindow⟩
  · rw [run₁.issuer, run₂.issuer, hiss]
  · rw [run₁.confirmation, run₂.confirmation, hjws]
  · rw [run₁.expired, run₂.expired, hwin, hprocessed, henv]

/-- The signing input of an issuer JWT with a disclosable claim and a disclosable array element. -/
def annSigningInput : Str :=
  List.flatMap lit
    ["eyJhbGciOiJFZERTQSIsInR5cCI6ImRjK3NkLWp3dCJ9.eyJpc3MiOiJpIiwidmN",
     "0IjoidiIsImV4cCI6MTkwMDAwMDAwMCwic3RhdHVzIjp7InMiOjF9LCJfc2QiOls",
     "iT0VubjZqVDJHbW95UTVCVVVUOE9QdFk5SjRqQ3lkSUlXMVdMVk1rcmZ4RSJdLCJ",
     "hIjpbeyIuLi4iOiJ2WXFaLTJ2T1Q2a2l0WkkwZjR4TnNXUFNIc0J5aFVqa0xKVUd",
     "4TjlIMW44In1dfQ"]

/-- That issuer JWT. -/
def annIssuerJwt : Str :=
  annSigningInput ++ List.flatMap lit
    [".ZDZctxygyS-oksTOzZBfd2im6Ny7Z1uQ99qpyP7vsTqY8b6A5_qyaHiRvYIpAMNeGOnky",
     "pACjPDivvYy2ZdsAA"]

/-- The disclosure of the claim. -/
def annClaim : Str := "WyJzIiwic3ViIiwiYW5uIl0"

/-- The disclosure of the array element. -/
def annElement : Str := "WyJ0IiwieCJd"

/-- The issuer's public key. -/
def annJwk : Dict :=
  [("x", .str (lit "A6EHv_POEL4dcN0Y50vAmWfk1jCbpQ1fHdyGZBJVMbg"))]

/-- The issuer's signature. -/
def annCrypto : Crypto :=
  Crypto.ofTexts
    [(0x03a107bff3ce10be1d70dd18e74bc09967e4d6309ba50d5f1ddc8664125531b8, annSigningInput,
      (0x64365cb71ca0c92fa892c4cecd905f7768a6e8dcbb675b90f7daa9c8feefb13a,
       0x98f1be80e7fab2687891bd822900c35e18e9e4ca90028cf0e2bef632d9976c00))]

/-- A suite with the default leeway. -/
def defaultSuite : Suite := ⟨60, leeway_minute, false⟩

/-- The holder discloses the claim to one verifier and the array element to another; both read the
same status. -/
theorem verify_holder_independent_ann :
    ∃ r₁ r₂,
      verify (.atSecond 1800000000 []) annCrypto defaultSuite
        (annIssuerJwt ++ 126 :: (annClaim ++ [126])) annJwk {} true = .ok r₁ ∧
      verify (.atSecond 1800000000 []) annCrypto defaultSuite
        (annIssuerJwt ++ 126 :: (annElement ++ [126])) annJwk {} true = .ok r₂ ∧
      r₁.claims.has "sub" = true ∧ r₂.claims.has "sub" = false ∧
      r₁.claims.get? "status" = r₂.claims.get? "status" := by
  obtain ⟨r₁, h₁, hs₁⟩ := exists_ok_of_map
    (x := verify (.atSecond 1800000000 []) annCrypto defaultSuite
      (annIssuerJwt ++ 126 :: (annClaim ++ [126])) annJwk {} true)
    (f := fun r => r.claims.has "sub") (c := true) (by decide +kernel)
  obtain ⟨r₂, h₂, hs₂⟩ := exists_ok_of_map
    (x := verify (.atSecond 1800000000 []) annCrypto defaultSuite
      (annIssuerJwt ++ 126 :: (annElement ++ [126])) annJwk {} true)
    (f := fun r => r.claims.has "sub") (c := false) (by decide +kernel)
  have hj : 126 ∉ annIssuerJwt := by decide +kernel
  exact ⟨r₁, r₂, h₁, h₂, hs₁, hs₂,
    (verify_holder_independent hj h₁ h₂).2.2.2.2.2.2.1 "status" (by decide)⟩

end OpenVC.SdJwt
