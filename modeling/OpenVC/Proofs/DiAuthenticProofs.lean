import OpenVC.Proofs.DiIssueProofs
import OpenVC.Proofs.JcsReadProofs

/-!
# Whose documents a JCS suite accepts

Under a key that signs for issuance alone, and as long as the hashed texts do not collide, an
accepted document is one that was issued, for the purpose, the challenge and the domain that the
verifier expects.
-/

namespace OpenVC

open Python Jcs Json

variable {C : Crypto} {s : JcsSuite}

/-- A document that the suite issued. -/
structure JcsIssue (C : Crypto) (s : JcsSuite) where
  I : Interpreter
  credential : Dict
  issuance : DiIssuance
  secured : Dict
  issued : s.addProof I C credential issuance = .ok secured

namespace JcsIssue

/-- The configuration of the proof. -/
def config (e : JcsIssue C s) (created : Str) : Dict :=
  proofConfig (e.issuance.proof s.cryptosuite created) (e.credential.get "@context")

/-- What was signed to issue the document. -/
def Signs (e : JcsIssue C s) (profile : AlgProfile) (created : Str) (data : Bytes) : Prop :=
  signingProfile s.allowed s.cryptosuite e.issuance.signingKey.alg = .ok profile ∧
    utcIso e.I e.issuance.created .proofMalformed "created" = .ok created ∧
    jcsHashData C e.credential (e.config created) profile.hash = .ok data ∧
    ∃ signature, e.issuance.signingKey.sign data = .ok signature ∧
      e.secured = e.credential.set "proof"
        (.obj (e.issuance.signedProof s.cryptosuite created signature))

theorem exists_signs (e : JcsIssue C s) : ∃ profile created data, e.Signs profile created data := by
  obtain ⟨I, credential, a, secured, hadd⟩ := e
  simp only [JcsSuite.addProof, bind_eq_ok, pure_eq_ok] at hadd
  obtain ⟨p, hp, ⟨⟩, hcheck, created, hcreated, data, hdata, signature, hsign, hsecured⟩ := hadd
  have hmem := EcdsaSd.not_mem_keys_of_has (Pipeline.checkUnsecured_eq_ok hcheck)
  rw [Dict.erase_of_not_mem hmem] at hdata
  exact ⟨p, created, data, hp, hcreated, hdata, signature, hsign, hsecured.symm⟩

end JcsIssue

/-- What verifies under the key was signed to issue a document of the log. -/
def Unforged (C : Crypto) (jwk : Dict) (profile : AlgProfile) (log : List (JcsIssue C s)) : Prop :=
  ∀ data signature, verifySignature C profile.alg jwk data signature = .ok true →
    ∃ e ∈ log, ∃ created, e.Signs profile created data

/-- The canonical texts of two objects do not collide. -/
def NoCollision (C : Crypto) (hash : DiHash) (m m' : Dict) : Prop :=
  ∀ b b', canonicalize (.obj m) = .ok b → canonicalize (.obj m') = .ok b' →
    C.digest hash b = C.digest hash b' → b = b'

/-! ## The hashes -/

/-- Equal hashes are those of the same configuration and the same document. -/
theorem same_of_jcsHashData {unsecured config unsecured' config' : Dict} {hash : DiHash}
    {data : Bytes} (hlen : ∀ b b', (C.digest hash b).length = (C.digest hash b').length)
    (hconfig : NoCollision C hash config config')
    (hdocument : NoCollision C hash unsecured unsecured')
    (hsafe : Safe (.obj config) ∧ Safe (.obj unsecured))
    (hsafe' : Safe (.obj config') ∧ Safe (.obj unsecured'))
    (h : jcsHashData C unsecured config hash = .ok data)
    (h' : jcsHashData C unsecured' config' hash = .ok data) :
    Same (.obj config) (.obj config') ∧ Same (.obj unsecured) (.obj unsecured') := by
  simp only [jcsHashData, reraise_eq_ok, bind_eq_ok, pure_eq_ok] at h h'
  obtain ⟨c, hc, d, hd, rfl⟩ := h
  obtain ⟨c', hc', d', hd', heq⟩ := h'
  obtain ⟨hceq, hdeq⟩ := List.append_inj heq (hlen c' c)
  obtain rfl := hconfig c c' hc hc' hceq.symm
  obtain rfl := hdocument d d' hd hd' hdeq.symm
  have hsame : ∀ {m m' : Dict} {b : Bytes}, Safe (.obj m) → Safe (.obj m') →
      canonicalize (.obj m) = .ok b → canonicalize (.obj m') = .ok b → Same (.obj m) (.obj m') := by
    intro m m' b hm hm' hb hb'
    have hread := loadsBytes_canonicalize hm hb
    rw [loadsBytes_canonicalize hm' hb', Option.some.injEq] at hread
    exact same_of_ordered_eq _ _ hm hm' hread.symm
  exact ⟨hsame hsafe.1 hsafe'.1 hc hc', hsame hsafe.2 hsafe'.2 hd hd'⟩

/-! ## Safe values -/

theorem safe_obj_iff {m : Dict} : Safe (.obj m) ↔ m.keys.Nodup ∧ ∀ p ∈ m, Safe p.2 := by
  rw [Safe, safeMembers_iff]
  rfl

theorem safe_erase {m : Dict} (h : Safe (.obj m)) (k : Str) : Safe (.obj (m.erase k)) := by
  rw [safe_obj_iff] at h ⊢
  refine ⟨Dict.nodup_keys_erase h.1, ?_⟩
  intro p hp
  exact h.2 p (List.mem_filter.mp hp).1

theorem safe_get {m : Dict} (h : Safe (.obj m)) (k : Str) : Safe (m.get k) := by
  rw [Dict.get]
  cases hk : m.get? k with
  | none => trivial
  | some v => exact (safe_obj_iff.mp h).2 _ (Dict.mem_of_get?_eq_some hk)

theorem safe_set {m : Dict} (h : Safe (.obj m)) (k : Str) {v : Json} (hv : Safe v) :
    Safe (.obj (m.set k v)) := by
  rw [safe_obj_iff] at h ⊢
  have hnodup := Dict.nodup_keys_set (k := k) (v := v) h.1
  refine ⟨hnodup, ?_⟩
  intro p hp
  have hget := Dict.get?_of_mem hnodup hp
  rw [Dict.get?_set] at hget
  split at hget
  · cases hget
    exact hv
  · exact h.2 _ (Dict.mem_of_get?_eq_some hget)

theorem safe_proofConfig {proof : Dict} {context : Json} (h : Safe (.obj proof))
    (hcontext : Safe context) : Safe (.obj (proofConfig proof context)) :=
  safe_set (safe_erase h _) _ hcontext

theorem DiIssuance.safe_proof (a : DiIssuance) (suite created : Str) :
    Safe (.obj (a.proof suite created)) := by
  rw [safe_obj_iff, proof]
  constructor
  · exact nodup_keys_proof.2
  · have hmember : ∀ (name : Str) (value : Option Str), ∀ p ∈ memberIf name value, Safe p.2 := by
      intro name value p hp
      cases value with
      | none => cases hp
      | some v =>
        rw [List.mem_singleton.mp hp]
        trivial
    intro p hp
    rw [List.mem_append, List.mem_append] at hp
    rcases hp with (hp | hp) | hp
    · simp only [options, List.mem_cons, List.not_mem_nil, or_false] at hp
      rcases hp with rfl | rfl | rfl | rfl | rfl <;> trivial
    · exact hmember _ _ p hp
    · exact hmember _ _ p hp

/-! ## What was issued -/

/-- A string member of the accepted proof is the same member of the issued one. -/
theorem get?_of_same_config {proof proof' : Dict} {context context' : Json} {k : Str} {v : Json}
    (h : Same (.obj (proofConfig proof context)) (.obj (proofConfig proof' context')))
    (hvalue : k ≠ lit "proofValue") (hcontext : k ≠ lit "@context") (hk : proof.get? k = some v) :
    ∃ w, proof'.get? k = some w ∧ Same v w := by
  have hread : ∀ (p : Dict) (c : Json), (proofConfig p c).get? k = p.get? k := by
    intro p c
    rw [proofConfig, Dict.get?_set, if_neg (Ne.symm hcontext), Dict.get?_erase, if_neg hvalue]
  have hmem : (k, v) ∈ proofConfig proof context :=
    Dict.mem_of_get?_eq_some ((hread proof context).trans hk)
  obtain ⟨w, hw, hsame⟩ := sameMembers_iff.mp h.2 _ hmem
  exact ⟨w, (hread proof' context').symm.trans hw, hsame⟩

theorem prepareDiProof_config {secured : Dict} {suite : Str} {p : DiProof}
    (h : prepareDiProof secured suite = .ok p) :
    p.config = proofConfig p.proof (secured.get "@context") := by
  simp only [prepareDiProof, bind_eq_ok, orRaise_eq_ok, raiseIf_eq_ok, pure_eq_ok] at h
  obtain ⟨⟨⟩, -, proof, -, ⟨⟩, -, ⟨⟩, -, _, -, _, -, rfl⟩ := h
  rfl

theorem eq_str_of_pyEq {v : Json} {e : Str} (h : Json.pyEq v (.str e) = true) : v = .str e := by
  cases v with
  | str t =>
    rw [Json.pyEq, beq_iff_eq] at h
    rw [h]
  | _ => simp [Json.pyEq, Json.num?] at h

theorem domainIncludes_cases {v : Json} {e : Str} (h : domainIncludes v e = true) :
    v = .str e ∨ ∃ l, v = .arr l := by
  cases v with
  | arr l => exact .inr ⟨l, rfl⟩
  | str t => exact .inl (eq_str_of_pyEq (by simpa [domainIncludes] using h))
  | _ => simp [domainIncludes, Json.pyEq, Json.num?] at h

/-- The members of an issued proof are the arguments of `add_proof`. -/
theorem DiIssuance.get?_proof (a : DiIssuance) (suite created : Str) :
    (a.proof suite created).get? "proofPurpose" = some (.str a.proofPurpose) ∧
      (a.proof suite created).get? "challenge" = a.challenge.map Json.str ∧
      (a.proof suite created).get? "domain" = a.domain.map Json.str := by
  rw [proof, memberIf.eq_def, memberIf.eq_def]
  refine ⟨rfl, ?_, ?_⟩
  · cases a.challenge <;> cases a.domain <;> rfl
  · cases a.challenge <;> cases a.domain <;> rfl

/-- The policy that the accepted proof meets, the issued one meets. -/
theorem meets_of_same_config {a : DiIssuance} {suite created : Str} {proof : Dict}
    {context context' : Json} {policy : DiPolicy}
    (h : Same (.obj (proofConfig proof context))
      (.obj (proofConfig (a.proof suite created) context')))
    (hpurpose : checkProofPurpose proof policy.expectedProofPurpose = .ok ())
    (hbinding : checkPresentationBinding proof policy.expectedChallenge policy.expectedDomain =
      .ok ()) : a.Meets policy := by
  obtain ⟨hp, hc, hd⟩ := a.get?_proof suite created
  -- a string member of the accepted proof is the argument of that name
  have hstring : ∀ (k e : Str), k ≠ lit "proofValue" → k ≠ lit "@context" →
      proof.get k = .str e → (a.proof suite created).get? k = some (.str e) := by
    intro k e hvalue hcontext hk
    obtain ⟨w, hw, hsame⟩ :=
      get?_of_same_config h hvalue hcontext (Dict.get?_of_get hk (by simp))
    cases w with
    | str t => rw [hw, show e = t from hsame]
    | _ => exact hsame.elim
  simp only [checkPresentationBinding, bind_eq_ok, raiseIf_eq_ok] at hbinding
  obtain ⟨⟨⟩, hchallenge, hdomain⟩ := hbinding
  rw [checkProofPurpose, raiseIf_eq_ok] at hpurpose
  constructor
  · intro e he
    rw [he, Option.any_some, Bool.not_eq_false'] at hpurpose
    have hk := hstring "proofPurpose" e (by decide) (by decide) (eq_str_of_pyEq hpurpose)
    rw [hp] at hk
    cases hk
    rfl
  · intro e he
    rw [he, Option.any_some, Bool.not_eq_false'] at hchallenge
    have hk := hstring "challenge" e (by decide) (by decide) (eq_str_of_pyEq hchallenge)
    rw [hc, Option.map_eq_some_iff] at hk
    obtain ⟨c, hc', heq⟩ := hk
    rw [hc', Json.str.inj heq]
  · intro e he
    rw [he, Option.any_some, Bool.not_eq_false'] at hdomain
    rcases domainIncludes_cases hdomain with hk | ⟨l, hl⟩
    · have hk := hstring "domain" e (by decide) (by decide) hk
      rw [hd, Option.map_eq_some_iff] at hk
      obtain ⟨d, hd', heq⟩ := hk
      rw [hd', Json.str.inj heq]
    · -- no issued domain is a list
      obtain ⟨w, hw, hsame⟩ :=
        get?_of_same_config h (by decide) (by decide) (Dict.get?_of_get hl (by simp))
      rw [hd, Option.map_eq_some_iff] at hw
      obtain ⟨d, -, rfl⟩ := hw
      exact hsame.elim

/-- Under a key that signs for issuance alone, an accepted document is an issued one, and it was
issued for what the verifier expects. -/
theorem JcsSuite.verify_authentic {I : Interpreter} {leeway : Int} {secured jwk : Dict}
    {key : Option Dict} {resolver : Option Did.DidResolver} {policy : DiPolicy}
    {verified : VerifiedDi} {profile : AlgProfile} {log : List (JcsIssue C s)}
    (h : s.verify I C leeway secured key resolver policy = .ok verified)
    (hkey : diKey C key verified.proof resolver = .ok jwk)
    (hprofile : matchAlg jwk s.allowed s.cryptosuite = .ok profile)
    (hunforged : Unforged C jwk profile log)
    (hsafe : Safe (.obj secured)) (hlog : ∀ e ∈ log, Safe (.obj e.credential))
    (hlen : ∀ b b', (C.digest profile.hash b).length = (C.digest profile.hash b').length)
    (hfree : ∀ e ∈ log, ∀ created data, e.Signs profile created data →
      NoCollision C profile.hash (proofConfig verified.proof (secured.get "@context"))
          (e.config created) ∧
        NoCollision C profile.hash (secured.erase "proof") e.credential) :
    ∃ e ∈ log, Same (.obj (secured.erase "proof")) (.obj e.credential) ∧
      e.issuance.Meets policy := by
  simp only [JcsSuite.verify, bind_eq_ok, pure_eq_ok] at h
  obtain ⟨p, hp, jwk', hjwk, profile', hprofile', data, hdata, ⟨⟩, hsig, expired, hpolicy, rfl⟩ := h
  have hproof : secured.get "proof" = .obj p.proof := prepareDiProof_proof hp
  change diKey C key p.proof resolver = .ok jwk at hkey
  rw [hkey] at hjwk
  cases hjwk
  rw [hprofile] at hprofile'
  cases hprofile'
  simp only [checkDiSignature, bind_eq_ok, reraise_eq_ok, raiseIf_eq_ok] at hsig
  obtain ⟨ok, hok, hverifies⟩ := hsig
  rw [Bool.not_eq_false'] at hverifies
  subst hverifies
  obtain ⟨e, he, created, hsigns⟩ := hunforged data p.signature hok
  obtain ⟨hconfig, hdocument⟩ := hfree e he created data hsigns
  have hissued := safe_get (hlog e he) "@context"
  have hsafeproof : Safe (.obj p.proof) := hproof ▸ safe_get hsafe "proof"
  rw [prepareDiProof_config hp] at hdata
  obtain ⟨hsameconfig, hsamedocument⟩ := same_of_jcsHashData hlen hconfig hdocument
    ⟨safe_proofConfig hsafeproof (safe_get hsafe _), safe_erase hsafe _⟩
    ⟨safe_proofConfig (e.issuance.safe_proof _ _) hissued, hlog e he⟩ hdata hsigns.2.2.1
  obtain ⟨hpurpose, hbinding⟩ := Pipeline.checkDiPolicy_eq_ok hpolicy
  exact ⟨e, he, hsamedocument, meets_of_same_config hsameconfig hpurpose hbinding⟩

/-! ## The note -/

theorem noCollision_self {hash : DiHash} (m : Dict) : NoCollision C hash m m := by
  intro b b' hb hb' _
  rw [hb] at hb'
  exact Except.ok.inj hb'

theorem safe_note : Safe (.obj Pipeline.note) := ⟨by decide, trivial, trivial, trivial⟩

/-- A verifier that expects the challenge of the note. -/
def notePolicy : DiPolicy := { expectedChallenge := some (lit "c") }

theorem noteIssuance_meets : Pipeline.noteIssuance.Meets notePolicy where
  purpose e h := by
    cases h
    rfl
  challenge e h := by
    cases h
    rfl
  domain e h := by cases h

theorem noteData_of_verifySignature {data signature : Bytes}
    (h : verifySignature Pipeline.noteHost.crypto "EdDSA" Pipeline.noteJwk data signature =
      .ok true) : data = Pipeline.halves Pipeline.noteData := by
  rw [verifySignature, if_pos (by decide)] at h
  simp only [bind_eq_ok, orRaise_eq_ok, raiseIf_eq_ok, pure_eq_ok] at h
  obtain ⟨raw, -, ⟨⟩, -, hok⟩ := h
  have hrow : (raw == _ && data == Pipeline.halves Pipeline.noteData && signature == _ || false) =
      true := hok
  simp only [Bool.or_false, Bool.and_eq_true, beq_iff_eq] at hrow
  exact hrow.1.2

theorem bound_eq_none {I : Interpreter} {document : Dict} {keys : List Str}
    (h : ∀ k ∈ keys, document.get k = .null) : bound I document keys = .ok none := by
  induction keys with
  | nil => rfl
  | cons k keys ih =>
    rw [bound, h k List.mem_cons_self, isBlank, if_pos rfl]
    exact ih fun k' hk' => h k' (List.mem_cons_of_mem _ hk')

/-- The proof that `add_proof` writes never expires. -/
theorem DiIssuance.get_expires (a : DiIssuance) (suite created : Str) (signature : Bytes) :
    ∀ k ∈ [lit "expires", lit "expirationDate"],
      Dict.get (a.signedProof suite created signature) k = .null := by
  intro k hk
  rw [signedProof_eq, proof, memberIf.eq_def, memberIf.eq_def]
  simp only [List.mem_cons, List.not_mem_nil, or_false] at hk
  rcases hk with rfl | rfl <;> cases a.challenge <;> cases a.domain <;> rfl

theorem checkWindowAt_note {I : Interpreter} {proof : Dict}
    (h : ∀ k ∈ [lit "expires", lit "expirationDate"], proof.get k = .null) :
    checkWindowAt I Pipeline.note proof none 0 true = .ok false := by
  have hbefore : ∀ k ∈ [lit "validFrom", lit "issuanceDate"], Pipeline.note.get k = .null := by
    intro k hk
    simp only [List.mem_cons, List.not_mem_nil, or_false] at hk
    rcases hk with rfl | rfl <;> rfl
  have hafter : ∀ k ∈ [lit "validUntil", lit "expirationDate"], Pipeline.note.get k = .null := by
    intro k hk
    simp only [List.mem_cons, List.not_mem_nil, or_false] at hk
    rcases hk with rfl | rfl <;> rfl
  simp only [checkWindowAt, utcInstant, checkValidityWindow, leewaySeconds, bind_eq_ok, pure_eq_ok,
    raiseIf_eq_ok]
  exact ⟨I.utcNow, rfl, 0, ⟨(), rfl, rfl⟩, none, bound_eq_none hbefore, (), rfl, none,
    bound_eq_none hafter, (), rfl, none, bound_eq_none h, (), rfl, rfl⟩

/-- The documents of the log are those whose texts are compared with the note's. -/
theorem noCollision_note {e : JcsIssue Pipeline.noteHost.crypto eddsaJcsSuite}
    (hcredential : e.credential = Pipeline.note) {created : Str} {signature : Bytes}
    (hcreated : utcIso e.I e.issuance.created .proofMalformed "created" = .ok created)
    (hsecured : e.secured = e.credential.set "proof"
      (.obj (e.issuance.signedProof eddsaJcsSuite.cryptosuite created signature)))
    {created' : Str} {data : Bytes} (h : e.Signs eddsaProfile created' data) :
    NoCollision Pipeline.noteHost.crypto eddsaProfile.hash
        (proofConfig (e.issuance.signedProof eddsaJcsSuite.cryptosuite created signature)
          (e.secured.get "@context")) (e.config created') ∧
      NoCollision Pipeline.noteHost.crypto eddsaProfile.hash (e.secured.erase "proof")
        e.credential := by
  obtain ⟨-, hcreated', -⟩ := h
  rw [hcreated] at hcreated'
  cases hcreated'
  have hmem : lit "proof" ∉ e.credential.keys := by
    rw [hcredential]
    decide
  have hcontext : e.secured.get "@context" = e.credential.get "@context" := by
    rw [hsecured, Dict.get, Dict.get?_set, if_neg (by decide)]
    rfl
  rw [hcontext, DiIssuance.proofConfig_signedProof, hsecured, EcdsaSd.erase_set hmem]
  exact ⟨noCollision_self _, noCollision_self _⟩

/-- The note is accepted, and it is the note that was issued. -/
theorem JcsSuite.verify_authentic_note :
    ∃ (e : JcsIssue Pipeline.noteHost.crypto eddsaJcsSuite) (verified : VerifiedDi),
      e.credential = Pipeline.note ∧
      eddsaJcsSuite.verify Pipeline.noteHost.I Pipeline.noteHost.crypto 0 e.secured
        (some Pipeline.noteJwk) none notePolicy = .ok verified ∧
      ∃ e' ∈ [e], Same (.obj (e.secured.erase "proof")) (.obj e'.credential) ∧
        e'.issuance.Meets notePolicy := by
  obtain ⟨secured, hissued⟩ := returned_iff.mp Pipeline.note_issued
  obtain ⟨e, hcredential, hissuance, hsecured⟩ :
      ∃ e : JcsIssue Pipeline.noteHost.crypto eddsaJcsSuite, e.credential = Pipeline.note ∧
        e.issuance = Pipeline.noteIssuance ∧ e.secured = secured :=
    ⟨⟨Pipeline.noteHost.I, Pipeline.note, Pipeline.noteIssuance, secured, hissued⟩, rfl, rfl, rfl⟩
  subst hsecured
  obtain ⟨profile, created, data, hsigns⟩ := e.exists_signs
  obtain ⟨hp, hcreated, -, signature, hsign, heq⟩ := id hsigns
  have hkeysigns : SignsFor Pipeline.noteHost.crypto e.issuance.signingKey Pipeline.noteJwk
      eddsaProfile := by
    rw [hissuance]
    exact Pipeline.noteKey_signsFor
  obtain ⟨rfl, hmatch⟩ := hkeysigns.matchAlg_eq (.inl rfl) hp
  have hdecides : Pipeline.PolicyDecides Pipeline.noteHost .eddsaJcs Pipeline.noteJwk Pipeline.note
      Pipeline.noteIssuance e.secured :=
    Pipeline.policyDecides_jcs (.inl rfl) (fun _ _ _ _ _ => rfl) hissued
      Pipeline.noteKey_signsFor (by decide +kernel)
  obtain ⟨proof, hproof, -, hverify⟩ := hdecides
  have hsigned : proof = e.issuance.signedProof eddsaJcsSuite.cryptosuite created signature := by
    rw [heq, Pipeline.get_proof_secured] at hproof
    exact (Json.obj.inj hproof).symm
  subst hsigned
  have hwindow : checkWindowAt Pipeline.noteHost.I Pipeline.note
      (e.issuance.signedProof eddsaJcsSuite.cryptosuite created signature) none 0 true =
        .ok false :=
    checkWindowAt_note (e.issuance.get_expires _ _ _)
  have haccepted := (hverify 0 (some Pipeline.noteJwk) none notePolicy _ rfl).mpr
    ⟨noteIssuance_meets, false, hwindow, rfl⟩
  have hunforged : Unforged Pipeline.noteHost.crypto Pipeline.noteJwk eddsaProfile [e] := by
    intro data' signature' h
    refine ⟨e, List.mem_singleton_self e, created, ?_⟩
    rw [hissuance] at hsign
    rw [noteData_of_verifySignature h, ← (Pipeline.noteKey_sign hsign).1]
    exact hsigns
  have hsafecredential : ∀ e' ∈ [e], Safe (.obj e'.credential) := by
    intro e' he'
    rw [List.mem_singleton.mp he', hcredential]
    exact safe_note
  have hsafe : Safe (.obj e.secured) := by
    rw [heq, hcredential]
    exact safe_set safe_note _ (safe_set (DiIssuance.safe_proof _ _ _) _ trivial)
  have hlen : ∀ b b', (Pipeline.noteHost.crypto.digest eddsaProfile.hash b).length =
      (Pipeline.noteHost.crypto.digest eddsaProfile.hash b').length := by
    intro b b'
    exact (Hashlib.sha256_length b).trans (Hashlib.sha256_length b').symm
  refine ⟨e, _, hcredential, haccepted, JcsSuite.verify_authentic haccepted rfl hmatch hunforged
    hsafe hsafecredential hlen ?_⟩
  intro e' he' created' data' hsigns'
  obtain rfl := List.mem_singleton.mp he'
  exact noCollision_note hcredential hcreated heq hsigns'

end OpenVC
