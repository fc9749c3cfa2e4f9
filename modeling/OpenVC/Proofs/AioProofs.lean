import OpenVC.Aio
import OpenVC.Proofs.IssuerBindingProofs
import Mathlib.Data.Option.Basic

/-!
# The two pipelines agree

Every async function agrees with its blocking twin on resolvers that give the same answers. The
twins differ in the texts of some errors, and on the Data Integrity lane in the order of the checks:
the async one resolves the proof's DID first, so it can fail earlier, but not where the other returns.
-/

namespace OpenVC

open Python Coroutine

/-- An async callable and a blocking one that give the same answer to every call. The blocking one
may then not tell its calls apart: it is deterministic. -/
def SameAnswers {α : Type} (a : Str → Awaitable α) (s : Nat → Str → Result α) : Prop :=
  ∀ n url, (a url).run = s n url

/-- A `verify_inner` closure and its async twin. -/
def SameVerdicts (a : Schema.AsyncVerifyInner) (s : Schema.VerifyInner) : Prop :=
  ∀ raw, Agree (a raw).run (s raw)

/-! ## Status -/

section Status

open Status

variable {Z : Zlib} {policy : VerificationPolicy}

theorem checkCredentialStatusAsync_agree {a : AsyncResolver} {s : Resolver} (h : SameAnswers a s)
    (credential : Dict) :
    Agree (checkCredentialStatusAsync Z credential a).run (checkCredentialStatus Z credential s) := by
  simp only [checkCredentialStatusAsync, run_bind, run_liftM, run_pure]
  refine Agree.bind_left _ fun entries => Agree.bind ?_ fun results => Agree.refl _
  refine Agree.forEach (fun results n entry => ?_) [] 0 entries
  simp only [checkEntryAsync, run_bind, run_liftM, run_pure, h n]
  exact Agree.refl _

theorem checkTokenStatusAsync_agree {a : AsyncResolver} {s : Resolver} (h : SameAnswers a s)
    (ref : TokenStatusRef) :
    Agree (checkTokenStatusAsync Z ref a).run (checkTokenStatus Z ref s) := by
  simp only [checkTokenStatusAsync, run_bind, run_liftM, h 0]
  exact Agree.refl _

theorem bindStatusIssuerAsync_same {a : AsyncResolver} {s : Resolver} (h : SameAnswers a s)
    (issuer field : Str) :
    SameAnswers (bindStatusIssuerAsync a issuer policy field)
      (bindStatusIssuer s issuer policy field) := by
  intro n url
  simp only [bindStatusIssuerAsync, run_bind, run_liftM, run_pure, h n]
  rfl

/-- The resolvers of a status gate and their async counterparts. -/
structure SameResolvers (a : AsyncResolvers) (s : Resolvers) : Prop where
  statusList : Option.Rel SameAnswers a.statusList s.statusList
  statusListToken : Option.Rel SameAnswers a.statusListToken s.statusListToken

theorem rel_map {α β : Type} {R : α → β → Prop} {f : α → α} {g : β → β} {a : Option α}
    {b : Option β} (h : Option.Rel R a b) (hfg : ∀ a b, R a b → R (f a) (g b)) :
    Option.Rel R (a.map f) (b.map g) := by
  cases h with
  | none => exact .none
  | some h => exact .some (hfg _ _ h)

/-- Binding the issuer raises for both or for neither, and keeps the resolvers alike. -/
theorem boundResolversAsync_same {a : AsyncResolvers} {s : Resolvers} (h : SameResolvers a s)
    (issuer : Option Str) :
    (∃ a' s', boundResolversAsync policy a issuer = .ok a' ∧ boundResolvers policy s issuer = .ok s' ∧
      SameResolvers a' s') ∨
    ∃ e, boundResolversAsync policy a issuer = .error e ∧ boundResolvers policy s issuer = .error e := by
  unfold boundResolversAsync boundResolvers
  by_cases hb : policy.requireStatusIssuerBinding = true
  · rw [if_pos hb, if_pos hb]
    cases issuer.filter (!·.isEmpty) with
    | none => exact .inr ⟨_, rfl, rfl⟩
    | some issuer =>
      refine .inl ⟨_, _, rfl, rfl, ?_, ?_⟩
      · exact rel_map h.statusList fun _ _ h => bindStatusIssuerAsync_same h issuer _
      · exact rel_map h.statusListToken fun _ _ h => bindStatusIssuerAsync_same h issuer _
  · rw [if_neg hb, if_neg hb]
    exact .inl ⟨a, s, rfl, rfl, h⟩

theorem checkW3cStatusAsync_agree {a : Option AsyncResolver} {s : Option Resolver}
    (h : Option.Rel SameAnswers a s) (source : Dict) :
    Agree (checkW3cStatusAsync Z source policy a).run (checkW3cStatus Z source policy s) := by
  simp only [checkW3cStatusAsync, run_bind, run_liftM]
  refine Agree.bind_left _ fun entries => ?_
  by_cases he : entries.isEmpty = true
  · simp only [if_pos he, run_bind, run_liftM, run_pure]
    exact Agree.refl _
  · rw [if_neg he, if_neg he]
    cases h with
    | none =>
      simp only [checkW3cEntriesAsync, run_bind, run_liftM, run_pure]
      exact Agree.refl _
    | some h =>
      simp only [checkW3cEntriesAsync, run_bind, run_liftM, run_pure]
      exact (checkCredentialStatusAsync_agree h source).bind fun _ => Agree.refl _

theorem checkIetfStatusAsync_agree {a : Option AsyncResolver} {s : Option Resolver}
    (h : Option.Rel SameAnswers a s) (source : Option Dict) :
    Agree (checkIetfStatusAsync Z source policy a).run (checkIetfStatus Z source policy s) := by
  cases source with
  | none => exact Agree.refl _
  | some source =>
    simp only [checkIetfStatusAsync, checkIetfSourceAsync, run_bind, run_liftM]
    refine Agree.bind_left _ fun ref => ?_
    cases ref with
    | none =>
      simp only [run_bind, run_liftM, run_pure]
      exact Agree.refl _
    | some ref =>
      cases h with
      | none =>
        simp only [checkIetfRefAsync, run_bind, run_liftM, run_pure]
        exact Agree.refl _
      | some h =>
        simp only [checkIetfRefAsync, run_bind, run_liftM, run_pure]
        exact (checkTokenStatusAsync_agree h ref).bind fun _ => Agree.refl _

theorem checkStatusAsync_agree {a : AsyncResolvers} {s : Resolvers} (h : SameResolvers a s)
    (w3cSource : Dict) (ietfSource : Option Dict) (issuer : Option Str) :
    Agree (checkStatusAsync Z w3cSource ietfSource policy a issuer).run
      (checkStatus Z w3cSource ietfSource policy s issuer) := by
  simp only [checkStatusAsync, checkStatus, run_bind, run_liftM, run_pure]
  rcases boundResolversAsync_same h issuer with ⟨a', s', ha, hs, h'⟩ | ⟨e, ha, hs⟩
  · rw [ha, hs]
    refine (checkW3cStatusAsync_agree h'.statusList w3cSource).bind fun w3c => ?_
    exact (checkIetfStatusAsync_agree h'.statusListToken ietfSource).bind fun _ => Agree.refl _
  · rw [ha, hs]
    exact Agree.refl _

end Status

/-! ## Schemas -/

namespace Schema

variable {C : Crypto}

/-- A `try` that only rewrites exceptions keeps the agreement of its bodies. -/
theorem reraise_agree {α : Type} {x y : Result α} (h : Agree x y) (handled : Err → Bool)
    (cls : ErrorClass) (lead : String) (args : List Json) :
    Agree (reraise x handled cls lead args) (reraise y handled cls lead args) := by
  intro a
  rw [reraise_eq_ok, reraise_eq_ok]
  exact h a

theorem readSchemaAsync_agree {a : Option AsyncVerifyInner} {s : Option VerifyInner}
    (h : Option.Rel SameVerdicts a s) (type : SchemaType) (data : Bytes) (ref : SchemaRef) :
    Agree (readSchemaAsync type data ref a).run (readSchema type data ref s) := by
  cases type with
  | json => exact Agree.refl _
  | jsonCredential =>
    simp only [readSchemaAsync, schemaFromCredentialAsync, readSchema, schemaFromCredential, run_bind,
      run_liftM, run_handle]
    cases h with
    | none => exact Agree.refl _
    | some h => exact (reraise_agree (h data) _ _ _ _).bind fun _ => Agree.refl _

theorem resolveSchemaAsync_agree {a : AsyncSchemaResolver} {s : SchemaResolver}
    (h : SameAnswers a s) {ai : Option AsyncVerifyInner} {si : Option VerifyInner}
    (hi : Option.Rel SameVerdicts ai si) (n : Nat) (ref : SchemaRef) :
    Agree (resolveSchemaAsync C ref a ai).run (resolveSchema C n ref s si) := by
  simp only [resolveSchemaAsync, resolveSchema, run_bind, run_liftM, run_handle, h n]
  refine Agree.bind_left _ fun type => Agree.bind_left _ fun raw => Agree.bind_left _ fun data => ?_
  exact readSchemaAsync_agree hi type data ref

theorem validateCredentialSchemaAsync_agree {P : Processor} {a : AsyncSchemaResolver}
    {s : SchemaResolver} (h : SameAnswers a s) {ai : Option AsyncVerifyInner}
    {si : Option VerifyInner} (hi : Option.Rel SameVerdicts ai si) (credential : Dict) :
    Agree (validateCredentialSchemaAsync C P credential a ai).run
      (validateCredentialSchema C P credential s si) := by
  simp only [validateCredentialSchemaAsync, validateCredentialSchema, run_bind, run_liftM, run_pure]
  refine Agree.bind_left _ fun refs => Agree.bind ?_ fun applied => Agree.refl _
  refine Agree.forEach (fun applied n ref => ?_) [] 0 refs
  simp only [applySchemaAsync, applySchema, run_bind, run_liftM, run_pure]
  exact (resolveSchemaAsync_agree h hi n ref).bind fun _ => Agree.refl _

end Schema

/-! ## Keys -/

/-- Async sources that give the same answers as blocking ones. -/
structure Counterpart {H : Host} (A : AsyncSources H) (S : Sources H) : Prop where
  handles : ∀ did, A.resolver.handles did = S.resolver.handles did
  resolve : ∀ did, (A.resolver.resolve did).run = S.resolver.resolve did
  status : SameResolvers A.status S.status
  credentialSchema : Option.Rel SameAnswers A.credentialSchema S.credentialSchema
  jwtVcIssuerFetch : Option.Rel SameAnswers A.jwtVcIssuerFetch S.jwtVcIssuerFetch
  x5cTrustAnchors : A.x5cTrustAnchors = S.x5cTrustAnchors

namespace Pipeline

variable {H : Host} {A : AsyncSources H} {S : Sources H}

theorem resolveKeyAsync_run {fetch : AsyncFetch} {f : Fetch} (h : SameAnswers fetch f)
    (iss : Str) (kid : Json) :
    (JwtVcIssuer.resolveKeyAsync H.I fetch iss kid).run = JwtVcIssuer.resolveKey H.I f iss kid := by
  have hjwks : ∀ jwks, (JwtVcIssuer.fetchJwksAsync fetch jwks).run = JwtVcIssuer.fetchJwks f jwks := by
    intro jwks
    cases jwks with
    | inline jwks => rfl
    | uri uri => exact h 1 uri
  simp only [JwtVcIssuer.resolveKeyAsync, JwtVcIssuer.resolveKey, run_bind, run_liftM, h 0, hjwks]

theorem resolveJoseKeyAsync_agree (h : Counterpart A S) (iss : Str) (kid : Json) :
    Agree (resolveJoseKeyAsync A iss kid).run (resolveJoseKey S iss kid) := by
  unfold resolveJoseKeyAsync resolveJoseKey
  by_cases hiss : iss.startsWith "https://" = true
  · rw [if_pos hiss, if_pos hiss]
    simp only [resolveHttpsKeyAsync, resolveHttpsKey, run_bind, run_liftM, run_handle]
    have hfetch := h.jwtVcIssuerFetch
    generalize A.jwtVcIssuerFetch = a at hfetch
    generalize S.jwtVcIssuerFetch = s at hfetch
    cases hfetch with
    -- the texts of the two refusals differ
    | none => exact Agree.of_error rfl (by rintro a ⟨⟩)
    | some hf =>
      refine Agree.of_eq ?_
      exact congrArg (reraise · lookupFailed .keyResolutionFailed _ _) (resolveKeyAsync_run hf iss kid)
  · rw [if_neg hiss, if_neg hiss]
    simp only [resolveDidKeyAsync, resolveDidKey, run_bind, run_liftM, run_handle, h.resolve]
    exact Agree.refl _

theorem resolveJoseKeyWithX5cAsync_agree (h : Counterpart A S) (token iss : Str) (kid : Json)
    (sdJwt : Bool) (now : Option DateTime) :
    Agree (resolveJoseKeyWithX5cAsync A token iss kid sdJwt now).run
      (resolveJoseKeyWithX5c S token iss kid sdJwt now) := by
  unfold resolveJoseKeyWithX5cAsync resolveJoseKeyWithX5c
  rw [h.x5cTrustAnchors]
  cases S.x5cTrustAnchors with
  | none => exact resolveJoseKeyAsync_agree h iss kid
  | some anchors =>
    simp only [run_bind, run_liftM]
    refine Agree.bind_left _ fun jws => ?_
    by_cases hx : (jws.header.get "x5c").truthy = true
    · rw [if_pos hx, if_pos hx]
      exact Agree.refl _
    · rw [if_neg hx, if_neg hx]
      exact resolveJoseKeyAsync_agree h iss kid

theorem checkSchemaAsync_agree {a : Option Schema.AsyncSchemaResolver}
    {s : Option Schema.SchemaResolver} (h : Option.Rel SameAnswers a s)
    {ai : Option Schema.AsyncVerifyInner} {si : Option Schema.VerifyInner}
    (hi : Option.Rel SameVerdicts ai si) (credential : Dict) (policy : Policy) :
    Agree (checkSchemaAsync H credential policy a ai).run (checkSchema H credential policy s si) := by
  unfold checkSchemaAsync checkSchema
  by_cases hc : (!(credential.get "credentialSchema").truthy) = true
  · rw [if_pos hc, if_pos hc]
    exact Agree.refl _
  · rw [if_neg hc, if_neg hc]
    cases h with
    | none =>
      simp only [run_bind, run_liftM, run_pure]
      exact Agree.refl _
    | some h =>
      simp only [run_bind, run_pure]
      exact (Schema.validateCredentialSchemaAsync_agree h hi credential).bind fun _ => Agree.refl _

/-! ## Data Integrity -/

section DataIntegrity

variable {suite : DiSuite} {leeway : Int} {doc : Dict} {policy : DiPolicy}
  {r r' : Option Did.DidResolver} {verified : VerifiedDi}

/-- A run of a suite depends on the resolver only through the document of the proof's DID. -/
theorem verifyDiSuite_congr (h : verifyDiSuite H suite leeway doc none r policy = .ok verified)
    (hdoc : ∀ vm, proofMethod doc = .str vm → vm ≠ [] →
      resolvedDocument r (Str.beforeFirst 35 vm) = resolvedDocument r' (Str.beforeFirst 35 vm)) :
    verifyDiSuite H suite leeway doc none r' policy = .ok verified := by
  obtain ⟨hproof, jwk, -, hkey, hrun⟩ := verifyDiSuite_usesKey h
  refine hrun none r' ?_
  have hmethod : proofMethod doc = verified.proof.get "verificationMethod" := by
    rw [proofMethod, hproof]
  simp only [diKey, resolveVerificationKey, bind_eq_ok, orRaise_eq_ok, raiseIf_eq_ok,
    didDocument] at hkey ⊢
  obtain ⟨vm, hvm, ⟨⟩, hpurpose, doc', ⟨found, hfound, hdoc'⟩, hjwk⟩ := hkey
  obtain ⟨hstr, hne⟩ := Option.filter_eq_some_iff.mp hvm
  have hvm' : proofMethod doc = .str vm := hmethod.trans (Json.str?_eq_some.mp hstr)
  rw [hdoc vm hvm' (by simpa using hne)] at hfound
  exact ⟨vm, hvm, (), hpurpose, doc', ⟨found, hfound, hdoc'⟩, hjwk⟩

/-- Where the lookup of a DID gives a one-shot resolver, that one stands in for the resolver. -/
theorem resolvedDocument_oneShot {did : Str} {resolver : Did.DidResolver}
    {found : Option Did.DidResolver} (hh : resolver.handles did = true)
    (h : oneShot did (resolver.resolve did) = .ok found) :
    resolvedDocument found did = resolvedDocument (some resolver) did := by
  rw [oneShot, reraise_eq_ok, tryExcept_eq_ok] at h
  simp only [resolvedDocument, hh, if_true]
  rcases h with hr | ⟨e, he, hu, hf⟩
  · cases hres : resolver.resolve did with
    | error e => rw [hres] at hr; cases hr
    | ok d =>
      rw [hres] at hr
      cases hr
      simp [oneShotResolver, Did.DidResolver.handles, tryExcept, reraise]
  · cases hf
    cases hres : resolver.resolve did with
    | ok d => rw [hres] at he; cases he
    | error e' =>
      rw [hres] at he
      cases he
      simp [hu, tryExcept, reraise]

/-- A document that the blocking lookup gave is one that the async lookup does not fail on. -/
theorem oneShot_returns {did : Str} {resolver : Did.DidResolver} {d : Did.Resolved}
    (hh : resolver.handles did = true) (h : resolvedDocument (some resolver) did = .ok d) :
    ∃ found, oneShot did (resolver.resolve did) = .ok found := by
  simp only [resolvedDocument, hh, if_true, reraise_eq_ok, tryExcept_eq_ok] at h
  rcases h with hr | ⟨e, he, hu, -⟩
  · refine ⟨some (oneShotResolver did d), ?_⟩
    rw [oneShot, reraise_eq_ok, tryExcept_eq_ok, hr]
    exact .inl rfl
  · refine ⟨none, ?_⟩
    rw [oneShot, reraise_eq_ok, tryExcept_eq_ok, he]
    exact .inr ⟨e, rfl, hu, rfl⟩

theorem verifyDiSuite_agree (hdoc : ∀ vm, proofMethod doc = .str vm → vm ≠ [] →
      resolvedDocument r (Str.beforeFirst 35 vm) = resolvedDocument r' (Str.beforeFirst 35 vm)) :
    Agree (verifyDiSuite H suite leeway doc none r policy)
      (verifyDiSuite H suite leeway doc none r' policy) := by
  intro verified
  constructor
  · intro h
    exact verifyDiSuite_congr h hdoc
  · intro h
    exact verifyDiSuite_congr h fun vm hvm hne => (hdoc vm hvm hne).symm

theorem verifyDiSuite_resolvedDocument {vm : Str} (hvm : proofMethod doc = .str vm)
    (h : verifyDiSuite H suite leeway doc none r policy = .ok verified) :
    ∃ d, resolvedDocument r (Str.beforeFirst 35 vm) = .ok d := by
  obtain ⟨hproof, jwk, -, hkey, -⟩ := verifyDiSuite_usesKey h
  obtain ⟨method, doc', hmethod, hdoc', -⟩ := resolveVerificationKey_eq_ok hkey
  have hsame : vm = method := by
    rw [proofMethod, hproof] at hvm
    exact Json.str.inj (hvm.symm.trans hmethod)
  obtain ⟨found, hfound, -⟩ := bind_eq_ok.mp hdoc'
  exact ⟨found, hsame ▸ hfound⟩

/-- The suite on the pre-resolved document agrees with the suite on the resolver. -/
theorem verifyPreresolved_agree (h : Counterpart A S) :
    Agree ((preresolvedDiResolver doc A.resolver).run >>= fun r =>
        verifyDiSuite H suite leeway doc none r policy)
      (verifyDiSuite H suite leeway doc none (some S.resolver) policy) := by
  unfold preresolvedDiResolver
  cases hvm : (proofMethod doc).str?.filter (!·.isEmpty) with
  | none =>
    refine verifyDiSuite_agree fun vm hm hne => ?_
    rw [hm] at hvm
    cases vm with
    | nil => exact absurd rfl hne
    | cons c vm => cases hvm
  | some vm =>
    have hm : proofMethod doc = .str vm :=
      Json.str?_eq_some.mp (Option.filter_eq_some_iff.mp hvm).1
    -- the document has one method, so one DID is looked up
    have hone : ∀ vm', proofMethod doc = .str vm' → vm' = vm := fun vm' hm' =>
      Json.str.inj (hm'.symm.trans hm)
    dsimp only
    by_cases hh : S.resolver.handles (Str.beforeFirst 35 vm) = true
    · rw [if_pos ((h.handles _).trans hh), run_handle, h.resolve]
      cases hfound : oneShot (Str.beforeFirst 35 vm) (S.resolver.resolve (Str.beforeFirst 35 vm)) with
      | ok found =>
        refine verifyDiSuite_agree fun vm' hm' _ => ?_
        rw [hone vm' hm']
        exact resolvedDocument_oneShot hh hfound
      | error e =>
        refine Agree.of_error rfl fun verified hv => ?_
        obtain ⟨d, hd⟩ := verifyDiSuite_resolvedDocument hm hv
        obtain ⟨found, hf⟩ := oneShot_returns hh hd
        rw [hf] at hfound
        cases hfound
    · rw [if_neg (by rw [h.handles]; exact hh)]
      refine verifyDiSuite_agree fun vm' hm' _ => ?_
      rw [hone vm' hm']
      simp only [resolvedDocument, hh]
      rfl

end DataIntegrity

/-! ## The handlers -/

section Handlers

variable {policy : Policy} {ai : Option Schema.AsyncVerifyInner} {si : Option Schema.VerifyInner}

theorem verifyVcJwtAsync_agree (h : Counterpart A S) (hi : Option.Rel SameVerdicts ai si)
    (token : Str) :
    Agree (verifyVcJwtAsync A policy ai token).run (verifyVcJwt S policy si token) := by
  simp only [verifyVcJwtAsync, verifyVcJwt, run_bind, run_liftM, run_pure]
  refine Agree.bind_left _ fun p => ?_
  obtain ⟨iss, kid⟩ := p
  refine (resolveJoseKeyWithX5cAsync_agree h token iss kid false policy.now).bind fun jwk => ?_
  refine Agree.bind_left _ fun verified => Agree.bind_left _ fun _ => ?_
  refine (checkStatusAsync_agree h.status _ _ _).bind fun status => ?_
  exact (checkSchemaAsync_agree h.credentialSchema hi _ policy).bind fun _ => Agree.refl _

theorem verifySdJwtAsync_agree (h : Counterpart A S) (hi : Option.Rel SameVerdicts ai si)
    (sdJwt : Str) :
    Agree (verifySdJwtAsync A policy ai sdJwt).run (verifySdJwt S policy si none sdJwt) := by
  simp only [verifySdJwtAsync, verifySdJwt, run_bind, run_liftM, run_pure]
  refine Agree.bind_left _ fun p => ?_
  obtain ⟨iss, kid⟩ := p
  refine (resolveJoseKeyWithX5cAsync_agree h sdJwt iss kid true policy.now).bind fun jwk => ?_
  refine Agree.bind_left _ fun verified => Agree.bind_left _ fun _ => ?_
  refine (checkStatusAsync_agree h.status _ _ _).bind fun status => ?_
  exact (checkSchemaAsync_agree h.credentialSchema hi _ policy).bind fun _ => Agree.refl _

theorem verifyDataIntegrityAsync_agree (h : Counterpart A S) (hi : Option.Rel SameVerdicts ai si)
    (suite : DiSuite) (doc : Dict) :
    Agree (verifyDataIntegrityAsync A policy ai suite doc).run
      (verifyDataIntegrity S policy si suite doc) := by
  simp only [verifyDataIntegrityAsync, verifyDataIntegrity, run_bind, run_liftM, run_pure]
  rw [← bind_assoc]
  refine (verifyPreresolved_agree h).bind fun verified => ?_
  refine Agree.bind_left _ fun issuer => Agree.bind_left _ fun _ => ?_
  refine (checkStatusAsync_agree h.status _ _ _).bind fun status => ?_
  exact (checkSchemaAsync_agree h.credentialSchema hi _ policy).bind fun _ => Agree.refl _

end Handlers

/-! ## The pipeline -/

/-- One pass over a credential and the envelopes around it. -/
theorem verifyAtAsync_agree (h : Counterpart A S) (policy : Policy)
    {ai : Nat → Option Schema.AsyncVerifyInner} {si : Nat → Option Schema.VerifyInner}
    (hi : ∀ left, Option.Rel SameVerdicts (ai left) (si left)) (left : Nat) (credential : Json) :
    Agree (verifyAtAsync A policy ai left credential).run
      (verifyAt S policy si none left credential) := by
  induction left generalizing credential with
  | zero =>
    unfold verifyAtAsync verifyAt
    simp only [run_bind, run_liftM]
    refine Agree.bind_left _ fun _ => Agree.bind_left _ fun detected => ?_
    cases detected with
    | vcJwt token => exact verifyVcJwtAsync_agree h (hi 0) token
    | sdJwtVc sdJwt => exact verifySdJwtAsync_agree h (hi 0) sdJwt
    | dataIntegrity suite doc => exact verifyDataIntegrityAsync_agree h (hi 0) suite doc
    | enveloped doc => exact Agree.refl _
  | succ left ih =>
    unfold verifyAtAsync verifyAt
    simp only [run_bind, run_liftM]
    refine Agree.bind_left _ fun _ => Agree.bind_left _ fun detected => ?_
    cases detected with
    | vcJwt token => exact verifyVcJwtAsync_agree h (hi (left + 1)) token
    | sdJwtVc sdJwt => exact verifySdJwtAsync_agree h (hi (left + 1)) sdJwt
    | dataIntegrity suite doc => exact verifyDataIntegrityAsync_agree h (hi (left + 1)) suite doc
    | enveloped doc =>
      simp only [verifyByFormatAsync, verifyByFormat, run_bind, run_liftM]
      exact Agree.bind_left _ fun inner => ih inner

theorem schemaVerifierAsync_same (h : Counterpart A S) (policy : Policy) (left : Nat) :
    SameVerdicts (schemaVerifierAsync A policy left) (schemaVerifier S policy left) := by
  intro raw
  have hinner : Counterpart { A with credentialSchema := none } { S with credentialSchema := none } :=
    ⟨h.handles, h.resolve, h.status, .none, h.jwtVcIssuerFetch, h.x5cTrustAnchors⟩
  simp only [schemaVerifierAsync, schemaVerifier, run_bind, run_liftM, run_pure]
  refine Agree.bind_left _ fun credential => ?_
  refine (verifyAtAsync_agree hinner (schemaInnerPolicy policy) (fun _ => .none) _ _).bind
    fun _ => Agree.refl _

/-- On resolvers that give the same answers, the two pipelines return for the same credentials, and
then the same result. -/
theorem verifyCredentialAsync_eq (H : Host) (A : AsyncSources H) (S : Sources H)
    (h : Counterpart A S) (policy : Policy) (credential : Json) (result : VerificationResult) :
    (verifyCredentialAsync A policy credential).run = .ok result ↔
      verifyCredential S policy none credential = .ok result := by
  have hi : ∀ left, Option.Rel SameVerdicts (some (schemaVerifierAsync A policy left))
      (some (schemaVerifier S policy left)) := fun left =>
    .some (schemaVerifierAsync_same h policy left)
  exact verifyAtAsync_agree h policy hi maxEnvelopes credential result

/-- The sources of the card, with a resolver that waits once for each document. -/
def cardAsyncSources (now : Int) : AsyncSources (cardHost now) where
  resolver := ⟨cardResolver.supports, fun did => .suspend (.done (cardResolver.resolve did))⟩
  statusList := none
  statusListToken := none
  credentialSchema := none
  jwtVcIssuerFetch := none
  x5cTrustAnchors := none

theorem cardAsyncSources_counterpart (now : Int) :
    Counterpart (cardAsyncSources now) (cardSources now) :=
  ⟨fun _ => rfl, fun _ => rfl, ⟨.none, .none⟩, .none, .none, rfl⟩

/-- The card is accepted by the async pipeline as it is by the blocking one. -/
theorem verifyCredentialAsync_eq_card :
    ∃ r, (verifyCredentialAsync (cardAsyncSources 1800000000) {} (.str cardToken)).run = .ok r ∧
      r.issuer = lit "i" := by
  obtain ⟨r, hr, hi⟩ := exists_ok_of_map
    (x := verifyCredential (cardSources 1800000000) {} none (.str cardToken))
    (f := fun r => r.issuer) (c := lit "i") (by decide +kernel)
  exact ⟨r, (verifyCredentialAsync_eq (cardHost 1800000000) _ _
    (cardAsyncSources_counterpart 1800000000) {} (.str cardToken) r).mpr hr, hi⟩

end Pipeline

end OpenVC
