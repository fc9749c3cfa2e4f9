import OpenVC.Proofs.CacheProofs
import OpenVC.Proofs.IssuerBindingProofs
import OpenVC.VerifyMany

/-!
# Batch verification is the pointwise map

The pipeline over lookups evaluates to the pipeline over the callables that answer them. A cache
holds only what its callable answers, so a lookup that goes through it is answered as the callable
answers it, whatever was cached, evicted or refused before.
-/

namespace OpenVC.VerifyMany

open Python Pipeline Calling

variable {H : Host} {G : Given H} {T : Sources H} {fn : (q : Lookup) → Result q.Answer}
  {policy : Policy}

/-! ## The lookups of the pipeline -/

/-- The sources of a call answer as `fn` does, and are those that are given. -/
structure Matches (fn : (q : Lookup) → Result q.Answer) (G : Given H) (T : Sources H) : Prop where
  resolve : ∀ did, T.resolver.resolve did = fn ⟨.resolver, did⟩
  handles : ∀ did, T.resolver.handles did = G.handles did
  statusList : T.statusList =
    if G.statusList then some fun _ url => fn ⟨.statusList, url⟩ else none
  statusListToken : T.statusListToken =
    if G.statusListToken then some fun _ uri => fn ⟨.statusListToken, uri⟩ else none
  credentialSchema : T.credentialSchema =
    if G.credentialSchema then some fun _ url => fn ⟨.credentialSchema, url⟩ else none
  jwtVcIssuerFetch : T.jwtVcIssuerFetch =
    if G.jwtVcIssuerFetch then some fun _ url => fn ⟨.jwtVcIssuerFetch, url⟩ else none
  anchors : T.x5cTrustAnchors = G.x5cTrustAnchors

@[simp] theorem eval_lookupDid (did : Str) : (lookupDid did).eval fn = fn ⟨.resolver, did⟩ := rfl

@[simp] theorem eval_lookupSchema (url : Str) :
    (lookupSchema url).eval fn = fn ⟨.credentialSchema, url⟩ := rfl

@[simp] theorem eval_lookupIssuer (url : Str) :
    (lookupIssuer url).eval fn = fn ⟨.jwtVcIssuerFetch, url⟩ := rfl

/-- A status lookup answers as a resolver does. -/
def Looks (fn : (q : Lookup) → Result q.Answer) (l : StatusLookup) (r : Resolver) : Prop :=
  ∀ n url, (l url).eval fn = r n url

theorem eval_checkCredentialStatus {Z : Zlib} {l : StatusLookup} {r : Resolver} (h : Looks fn l r)
    (credential : Dict) :
    (checkCredentialStatus Z credential l).eval fn =
      Status.checkCredentialStatus Z credential r := by
  have hentry : ∀ results n entry,
      (checkEntry Z l results entry).eval fn = Status.checkEntry Z r results n entry := by
    intro results n entry
    simp only [checkEntry, Status.checkEntry, eval_bind, eval_liftM, eval_pure, h n]
  simp only [checkCredentialStatus, Status.checkCredentialStatus, eval_bind, eval_liftM, eval_pure,
    eval_forEach hentry [] 0]

theorem eval_checkTokenStatus {Z : Zlib} {l : StatusLookup} {r : Resolver} (h : Looks fn l r)
    (ref : Status.TokenStatusRef) :
    (checkTokenStatus Z ref l).eval fn = Status.checkTokenStatus Z ref r := by
  simp only [checkTokenStatus, Status.checkTokenStatus, eval_bind, eval_liftM, h 0]

theorem looks_bindStatusIssuer {l : StatusLookup} {r : Resolver} (h : Looks fn l r) (issuer : Str)
    (policy : VerificationPolicy) (field : Str) :
    Looks fn (bindStatusIssuer l issuer policy field)
      (OpenVC.bindStatusIssuer r issuer policy field) := by
  intro n url
  simp only [bindStatusIssuer, OpenVC.bindStatusIssuer, eval_bind, eval_liftM, eval_pure, h n]

theorem rel_bindStatusIssuer {l : Option StatusLookup} {r : Option Resolver}
    (h : Option.Rel (Looks fn) l r) (issuer : Str) (policy : VerificationPolicy) (field : Str) :
    Option.Rel (Looks fn) (l.map (bindStatusIssuer · issuer policy field))
      (r.map (OpenVC.bindStatusIssuer · issuer policy field)) := by
  cases h with
  | some h => exact .some (looks_bindStatusIssuer h issuer policy field)
  | none => exact .none

/-- Status lookups that answer as resolvers do, each present iff the other is. -/
structure LooksBoth (fn : (q : Lookup) → Result q.Answer) (l : StatusLookups) (r : Resolvers) :
    Prop where
  statusList : Option.Rel (Looks fn) l.statusList r.statusList
  statusListToken : Option.Rel (Looks fn) l.statusListToken r.statusListToken

theorem looksBoth_status (h : Matches fn G T) : LooksBoth fn G.status T.status := by
  constructor
  · rw [Given.status, Sources.status, h.statusList]
    cases G.statusList with
    | true => exact .some fun _ _ => rfl
    | false => exact .none
  · rw [Given.status, Sources.status, h.statusListToken]
    cases G.statusListToken with
    | true => exact .some fun _ _ => rfl
    | false => exact .none

/-- The issuer binding is put around lookups and resolvers alike. -/
theorem boundResolvers_looksBoth {l : StatusLookups} {r : Resolvers} (h : LooksBoth fn l r)
    (policy : VerificationPolicy) (issuer : Option Str) :
    (∃ e, boundResolvers policy l issuer = .error e ∧
      OpenVC.boundResolvers policy r issuer = .error e) ∨
    ∃ l' r', boundResolvers policy l issuer = .ok l' ∧
      OpenVC.boundResolvers policy r issuer = .ok r' ∧ LooksBoth fn l' r' := by
  unfold boundResolvers OpenVC.boundResolvers
  split
  · cases issuer.filter (!·.isEmpty) with
    | none => exact .inl ⟨_, rfl, rfl⟩
    | some issuer =>
      exact .inr ⟨_, _, rfl, rfl, rel_bindStatusIssuer h.statusList issuer policy "issuer",
        rel_bindStatusIssuer h.statusListToken issuer policy "iss"⟩
  · exact .inr ⟨l, r, rfl, rfl, h⟩

theorem eval_checkW3cStatus {Z : Zlib} {l : Option StatusLookup} {r : Option Resolver}
    (h : Option.Rel (Looks fn) l r) (source : Dict) (policy : VerificationPolicy) :
    (checkW3cStatus Z source policy l).eval fn = OpenVC.checkW3cStatus Z source policy r := by
  simp only [checkW3cStatus, OpenVC.checkW3cStatus, eval_bind, eval_liftM]
  congr 1
  funext entries
  split
  · simp only [eval_bind, eval_liftM, eval_pure]
  · cases h with
    | none => simp only [checkW3cEntries, OpenVC.checkW3cEntries, eval_bind, eval_liftM, eval_pure]
    | some h =>
      simp only [checkW3cEntries, OpenVC.checkW3cEntries, eval_bind, eval_liftM, eval_pure,
        eval_checkCredentialStatus h]

theorem eval_checkIetfStatus {Z : Zlib} {l : Option StatusLookup} {r : Option Resolver}
    (h : Option.Rel (Looks fn) l r) (source : Option Dict) (policy : VerificationPolicy) :
    (checkIetfStatus Z source policy l).eval fn = OpenVC.checkIetfStatus Z source policy r := by
  cases source with
  | none => rfl
  | some source =>
    simp only [checkIetfStatus, OpenVC.checkIetfStatus, checkIetfSource, OpenVC.checkIetfSource,
      eval_bind, eval_liftM]
    congr 1
    funext ref
    cases ref with
    | none => simp only [eval_bind, eval_liftM, eval_pure]
    | some ref =>
      cases h with
      | none => simp only [checkIetfRef, OpenVC.checkIetfRef, eval_bind, eval_liftM, eval_pure]
      | some h =>
        simp only [checkIetfRef, OpenVC.checkIetfRef, eval_bind, eval_liftM, eval_pure,
          eval_checkTokenStatus h]

theorem eval_checkStatus (h : Matches fn G T) (Z : Zlib) (w3c : Dict) (ietf : Option Dict)
    (policy : VerificationPolicy) (issuer : Option Str) :
    (checkStatus Z w3c ietf policy G.status issuer).eval fn =
      OpenVC.checkStatus Z w3c ietf policy T.status issuer := by
  simp only [checkStatus, OpenVC.checkStatus, eval_bind, eval_liftM, eval_pure]
  rcases boundResolvers_looksBoth (looksBoth_status h) policy issuer with
    ⟨e, hl, hr⟩ | ⟨l, r, hl, hr, hlooks⟩
  · rw [hl, hr]
    rfl
  · rw [hl, hr]
    change (eval fn (checkW3cStatus Z w3c policy l.statusList) >>= fun w3c =>
      eval fn (checkIetfStatus Z ietf policy l.statusListToken) >>= fun ietf => _) =
      (OpenVC.checkW3cStatus Z w3c policy r.statusList >>= fun w3c =>
        OpenVC.checkIetfStatus Z ietf policy r.statusListToken >>= fun ietf => _)
    rw [eval_checkW3cStatus hlooks.statusList, eval_checkIetfStatus hlooks.statusListToken]

/-! ## Keys -/

theorem eval_resolveIssuerKey (I : Interpreter) (iss : Str) (kid : Json) :
    (resolveIssuerKey I iss kid).eval fn =
      JwtVcIssuer.resolveKey I (fun _ url => fn ⟨.jwtVcIssuerFetch, url⟩) iss kid := by
  have hfetch : ∀ jwks, (fetchJwks jwks).eval fn =
      JwtVcIssuer.fetchJwks (fun _ url => fn ⟨.jwtVcIssuerFetch, url⟩) jwks := by
    intro jwks
    cases jwks <;> rfl
  simp only [resolveIssuerKey, JwtVcIssuer.resolveKey, eval_bind, eval_liftM, hfetch,
    eval_lookupIssuer]

theorem eval_resolveJoseKey (h : Matches fn G T) (iss : Str) (kid : Json) :
    (resolveJoseKey G iss kid).eval fn = Pipeline.resolveJoseKey T iss kid := by
  unfold resolveJoseKey Pipeline.resolveJoseKey
  split
  · simp only [resolveHttpsKey, Pipeline.resolveHttpsKey, eval_bind, eval_liftM, eval_handle,
      eval_resolveIssuerKey, h.jwtVcIssuerFetch]
    cases G.jwtVcIssuerFetch with
    | false => rfl
    | true => rfl
  · simp only [resolveDidKey, Pipeline.resolveDidKey, eval_bind, eval_liftM, eval_handle, h.resolve,
      eval_lookupDid]

theorem eval_resolveJoseKeyWithX5c (h : Matches fn G T) (token iss : Str) (kid : Json)
    (sdJwt : Bool) (now : Option DateTime) :
    (resolveJoseKeyWithX5c G token iss kid sdJwt now).eval fn =
      Pipeline.resolveJoseKeyWithX5c T token iss kid sdJwt now := by
  unfold resolveJoseKeyWithX5c Pipeline.resolveJoseKeyWithX5c
  rw [h.anchors]
  cases G.x5cTrustAnchors with
  | none => exact eval_resolveJoseKey h iss kid
  | some anchors =>
    simp only [eval_bind, eval_liftM]
    congr 1
    funext jws
    split
    · rfl
    · exact eval_resolveJoseKey h iss kid

theorem eval_resolveVerificationKey (h : Matches fn G T) (proof : Dict) :
    (resolveVerificationKey G proof).eval fn = diKey H.crypto none proof (some T.resolver) := by
  have hresolved : ∀ did, (resolvedDocument G did).eval fn =
      OpenVC.resolvedDocument (some T.resolver) did := by
    intro did
    simp only [resolvedDocument, OpenVC.resolvedDocument, h.handles, h.resolve]
    split <;> rfl
  have hdocument : ∀ vm did, (didDocument G vm did).eval fn =
      OpenVC.didDocument H.crypto (some T.resolver) vm did := by
    intro vm did
    simp only [didDocument, OpenVC.didDocument, eval_bind, hresolved]
    congr 1
    funext doc
    cases doc <;> rfl
  simp only [resolveVerificationKey, diKey, OpenVC.resolveVerificationKey, eval_bind, eval_liftM,
    hdocument]

/-! ## Schemas -/

/-- A verifier of schema-defining credentials evaluates to another. -/
def SameVerifier (fn : (q : Lookup) → Result q.Answer) (l : VerifyInner) (r : Schema.VerifyInner) :
    Prop := ∀ raw, (l raw).eval fn = r raw

variable {l : Option VerifyInner} {r : Option Schema.VerifyInner}

theorem eval_resolveSchema (h : Option.Rel (SameVerifier fn) l r) (C : Crypto) (n : Nat)
    (ref : Schema.SchemaRef) :
    (resolveSchema C ref l).eval fn =
      Schema.resolveSchema C n ref (fun _ url => fn ⟨.credentialSchema, url⟩) r := by
  have hcredential : ∀ data, (schemaFromCredential data ref l).eval fn =
      Schema.schemaFromCredential data ref r := by
    intro data
    cases h with
    | none => rfl
    | some h =>
      simp only [schemaFromCredential, Schema.schemaFromCredential, Schema.requireInnerVerifier,
        eval_bind, eval_liftM, eval_handle]
      change reraise ((_ : VerifyInner) data |>.eval fn) _ _ _ _ >>= _ = reraise _ _ _ _ _ >>= _
      rw [h data]
  have hread : ∀ type data, (readSchema type data ref l).eval fn =
      Schema.readSchema type data ref r := by
    intro type data
    cases type with
    | json => rfl
    | jsonCredential => exact hcredential data
  simp only [resolveSchema, Schema.resolveSchema, eval_bind, eval_liftM, eval_handle, hread,
    eval_lookupSchema]

theorem eval_checkSchema (hm : Matches fn G T) (h : Option.Rel (SameVerifier fn) l r)
    (credential : Dict) (policy : Policy) :
    (checkSchema G credential policy l).eval fn =
      Pipeline.checkSchema H credential policy T.credentialSchema r := by
  have happly : ∀ applied n ref, (applySchema H.crypto H.schemas credential l applied ref).eval fn =
      Schema.applySchema H.crypto H.schemas credential (fun _ url => fn ⟨.credentialSchema, url⟩) r
        applied n ref := by
    intro applied n ref
    simp only [applySchema, Schema.applySchema, eval_bind, eval_liftM, eval_pure,
      eval_resolveSchema h H.crypto n ref]
  unfold checkSchema Pipeline.checkSchema
  rw [hm.credentialSchema]
  split
  · rfl
  · cases G.credentialSchema with
    | false =>
      simp only [Bool.false_eq_true, if_false, eval_bind, eval_liftM, eval_pure]
    | true =>
      simp only [if_true, validateCredentialSchema, Schema.validateCredentialSchema, eval_bind,
        eval_liftM, eval_pure, eval_forEach happly [] 0]

/-! ## The handlers -/

theorem eval_verifyDiSuite (h : Matches fn G T) (suite : DiSuite) (leeway : Int) (doc : Dict)
    (policy : DiPolicy) :
    (verifyDiSuite G suite leeway doc policy).eval fn =
      Pipeline.verifyDiSuite H suite leeway doc none (some T.resolver) policy := by
  have hkey := eval_resolveVerificationKey h
  cases suite with
  | eddsaRdfc =>
    simp only [verifyDiSuite, Pipeline.verifyDiSuite, verifyEddsaRdfc, DataIntegrity.verify,
      eval_bind, eval_liftM, eval_pure, hkey]
  | ecdsaSd =>
    simp only [verifyDiSuite, Pipeline.verifyDiSuite, verifyEcdsaSd, EcdsaSd.verify, eval_bind,
      eval_liftM, eval_pure, hkey]
  | eddsaJcs =>
    simp only [verifyDiSuite, Pipeline.verifyDiSuite, verifyJcs, JcsSuite.verify, eval_bind,
      eval_liftM, eval_pure, hkey]
  | ecdsaJcs =>
    simp only [verifyDiSuite, Pipeline.verifyDiSuite, verifyJcs, JcsSuite.verify, eval_bind,
      eval_liftM, eval_pure, hkey]
  | ecdsaRdfc =>
    simp only [verifyDiSuite, Pipeline.verifyDiSuite, verifyEcdsaRdfc, EcdsaRdfc.verify, eval_bind,
      eval_liftM, eval_pure, hkey]

theorem eval_verifyByFormat (hm : Matches fn G T) (h : Option.Rel (SameVerifier fn) l r)
    {unwrap : Dict → Looking VerificationResult} {unwrap' : Dict → Result VerificationResult}
    (hu : ∀ doc, (unwrap doc).eval fn = unwrap' doc) (policy : Policy) (detected : Detected) :
    (verifyByFormat G policy l unwrap detected).eval fn =
      Pipeline.verifyByFormat T policy r none unwrap' detected := by
  cases detected with
  | enveloped doc => exact hu doc
  | vcJwt token =>
    simp only [verifyByFormat, Pipeline.verifyByFormat, verifyVcJwt, Pipeline.verifyVcJwt, eval_bind,
      eval_liftM, eval_pure, eval_resolveJoseKeyWithX5c hm, eval_checkStatus hm,
      eval_checkSchema hm h]
  | sdJwtVc sdJwt =>
    simp only [verifyByFormat, Pipeline.verifyByFormat, verifySdJwt, Pipeline.verifySdJwt, eval_bind,
      eval_liftM, eval_pure, eval_resolveJoseKeyWithX5c hm, eval_checkStatus hm,
      eval_checkSchema hm h]
  | dataIntegrity suite doc =>
    simp only [verifyByFormat, Pipeline.verifyByFormat, verifyDataIntegrity,
      Pipeline.verifyDataIntegrity, eval_bind, eval_liftM, eval_pure, eval_verifyDiSuite hm,
      eval_checkStatus hm, eval_checkSchema hm h]

theorem eval_verifyAt (hm : Matches fn G T) {l : Nat → Option VerifyInner}
    {r : Nat → Option Schema.VerifyInner} (h : ∀ n, Option.Rel (SameVerifier fn) (l n) (r n))
    (policy : Policy) (left : Nat) (credential : Json) :
    (verifyAt G policy l left credential).eval fn =
      Pipeline.verifyAt T policy r none left credential := by
  induction left generalizing credential with
  | zero =>
    unfold verifyAt Pipeline.verifyAt
    simp only [eval_bind, eval_liftM]
    congr 1
    funext _
    congr 1
    funext detected
    exact eval_verifyByFormat hm (h 0) (fun doc => rfl) policy detected
  | succ left ih =>
    unfold verifyAt Pipeline.verifyAt
    simp only [eval_bind, eval_liftM]
    congr 1
    funext _
    congr 1
    funext detected
    refine eval_verifyByFormat hm (h (left + 1)) (fun doc => ?_) policy detected
    simp only [eval_bind, eval_liftM, ih]

/-- The verification of one credential, over lookups, is `verify_credential`. -/
theorem eval_verifyCredential (hm : Matches fn G T) (policy : Policy) (credential : Json) :
    (verifyCredential G policy credential).eval fn =
      Pipeline.verifyCredential T policy none credential := by
  have hinner : Matches fn { G with credentialSchema := false } { T with credentialSchema := none } :=
    { resolve := hm.resolve
      handles := hm.handles
      statusList := hm.statusList
      statusListToken := hm.statusListToken
      credentialSchema := rfl
      jwtVcIssuerFetch := hm.jwtVcIssuerFetch
      anchors := hm.anchors }
  refine eval_verifyAt hm (fun left => .some fun data => ?_) policy maxEnvelopes credential
  simp only [schemaVerifier, Pipeline.schemaVerifier, eval_bind, eval_liftM, eval_pure,
    eval_verifyAt hinner (fun _ => .none)]


/-! ## The caches -/

/-- Every cached value is what its callable answers. -/
def Sound (fn : (q : Lookup) → Result q.Answer) (s : Batch) : Prop :=
  ∀ k, ∀ e ∈ (s.caches k).data, fn ⟨k, e.1⟩ = .ok e.2.2

/-- A `get` forgets at most, and a value it returns was stored. -/
theorem get_mem {V : Type} (c : TtlCache V) (now : PyFloat) (key : Str) :
    (∀ e ∈ (c.get now key).2.data, e ∈ c.data) ∧
      ∀ v, (c.get now key).1 = some v → ∃ expires, (key, expires, v) ∈ c.data := by
  unfold TtlCache.get
  split
  · exact ⟨fun e he => he, nofun⟩
  · rename_i expires value hfind
    split
    · exact ⟨fun e he => List.mem_of_mem_filter he, nofun⟩
    · refine ⟨fun e he => he, fun v hv => ⟨expires, ?_⟩⟩
      obtain rfl : value = v := Option.some.inj hv
      exact TtlCache.mem_of_find hfind

/-- A `set` adds the entry of its key and forgets at most. -/
theorem mem_set {V : Type} {c : TtlCache V} {now : PyFloat} {key : Str} {value : V}
    {e : Str × PyFloat × V} (he : e ∈ (c.set now key value).data) :
    e ∈ c.data ∨ e = (key, PyFloat.add now c.ttlS, value) := by
  rcases List.mem_append.mp he with he | he
  · have hroom := List.mem_of_mem_filter he
    unfold TtlCache.makeRoom at hroom
    split at hroom
    · exact .inl (List.mem_of_mem_tail hroom)
    · exact .inl hroom
  · exact .inr (List.mem_singleton.mp he)

@[simp] theorem caches_withCache_self (s : Batch) (k : Callable) (cache : TtlCache k.Answer) :
    (s.withCache k cache).caches k = cache := by
  simp [Batch.withCache]

theorem caches_withCache_of_ne {k k' : Callable} (hk : k' ≠ k) (s : Batch)
    (cache : TtlCache k.Answer) : (s.withCache k cache).caches k' = s.caches k' := by
  simp [Batch.withCache, hk]

theorem sound_withCache {s : Batch} {k : Callable} {cache : TtlCache k.Answer} (h : Sound fn s)
    (hc : ∀ e ∈ cache.data, fn ⟨k, e.1⟩ = .ok e.2.2) : Sound fn (s.withCache k cache) := by
  intro k' e he
  by_cases hk : k' = k
  · subst hk
    rw [caches_withCache_self] at he
    exact hc e he
  · rw [caches_withCache_of_ne hk] at he
    exact h k' e he

theorem answers_cachedResolve (clock : Nat → Rat) (fn : (q : Lookup) → Result q.Answer) :
    Answers (Batch.cachedResolve clock fn) fn (Sound fn) := by
  intro q s hs
  obtain ⟨hmem, hvalue⟩ := get_mem (s.caches q.callable) (.fin (clock s.readings)) q.key
  have hget : Sound fn (s.get clock q).2 :=
    sound_withCache hs fun e he => hs q.callable e (hmem e he)
  unfold Batch.cachedResolve
  dsimp only
  split
  · rename_i value hhit
    obtain ⟨expires, he⟩ := hvalue value (Option.filter_eq_some_iff.mp hhit).1
    exact ⟨(hs q.callable _ he).symm, hget⟩
  · unfold Batch.miss
    dsimp only
    split
    · rename_i e hfn
      exact ⟨hfn.symm, hget⟩
    · rename_i value hfn
      refine ⟨hfn.symm, sound_withCache hget fun e he => ?_⟩
      rcases mem_set he with he | rfl
      · exact hget q.callable e he
      · exact hfn

theorem sound_batchResolvers (fn : (q : Lookup) → Result q.Answer) : Sound fn batchResolvers :=
  fun _ _ he => absurd he List.not_mem_nil

/-! ## The pointwise map -/

theorem map_eq_ite {β : Type} (o : Option (Str → Result β)) :
    (o.map fun resolve (_ : Nat) url => resolve url) =
      if o.isSome then some fun _ url => (o.map (· url)).getD (.error notCallable) else none := by
  cases o <;> rfl

theorem matches_sources (S : Callables H) : Matches S.fn S.given S.sources where
  resolve _ := rfl
  handles _ := rfl
  statusList := map_eq_ite S.statusList
  statusListToken := map_eq_ite S.statusListToken
  credentialSchema := map_eq_ite S.credentialSchema
  jwtVcIssuerFetch := map_eq_ite S.jwtVcIssuerFetch
  anchors := rfl

/-- The outcome of a batch is that of its items over the callables, and the caches are left as the
lookups of the items leave them. -/
theorem verifyMany_eq (clock : Nat → Rat) (S : Callables H) (policy : Policy)
    (credentials : List Json) :
    verifyMany clock S policy credentials =
      ((verifyItems S.given policy credentials).eval S.fn,
        Calling.after (Batch.cachedResolve clock S.fn) batchResolvers
          ((verifyItems S.given policy credentials).calls S.fn)) :=
  runWith_eq (answers_cachedResolve clock S.fn) _ (sound_batchResolvers S.fn)

/-- A verification ends with a verdict: it returns, or raises an `OpenvcError`. -/
def HasVerdict (r : Result VerificationResult) : Prop :=
  ∀ e, r = .error e → e.cls.isa .openvcError = true

/-- The verdict of an item on its own. -/
def verdict (index : Nat) : Result VerificationResult → BatchResult
  | .ok result => { index, result := some result }
  | .error e => { index, error := some e }

theorem batchResult_eq {r : Result VerificationResult} (h : HasVerdict r) (index : Nat) :
    batchResult index r = .ok (verdict index r) := by
  cases r with
  | ok result => rfl
  | error e => simp only [batchResult, h e rfl, if_true, verdict]

theorem eval_verifyItem (S : Callables H) (policy : Policy) (out : List BatchResult)
    (item : Json × Nat) (h : HasVerdict (Pipeline.verifyCredential S.sources policy none item.1)) :
    (verifyItem S.given policy out item).eval S.fn =
      .ok (out ++ [verdict item.2 (Pipeline.verifyCredential S.sources policy none item.1)]) := by
  simp only [verifyItem, eval_bind, eval_handle, eval_pure,
    eval_verifyCredential (matches_sources S), batchResult_eq h]
  rfl

theorem eval_verifyItems (S : Callables H) (policy : Policy) (items : List (Json × Nat))
    (out : List BatchResult)
    (h : ∀ item ∈ items, HasVerdict (Pipeline.verifyCredential S.sources policy none item.1)) :
    (forEach (verifyItem S.given policy) out items).eval S.fn =
      .ok (out ++ items.map fun item =>
        verdict item.2 (Pipeline.verifyCredential S.sources policy none item.1)) := by
  induction items generalizing out with
  | nil => simp [forEach, pure]
  | cons item items ih =>
    rw [forEach, eval_bind, eval_verifyItem S policy out item (h item List.mem_cons_self)]
    change (forEach (verifyItem S.given policy) _ items).eval S.fn = _
    rw [ih _ fun item hi => h item (List.mem_cons_of_mem _ hi), List.append_assoc]
    rfl

/-- A batch gives each credential, in its place, the verdict that `verify_credential` gives it
alone. -/
theorem verifyMany_pointwise (H : Host) (clock : Nat → Rat) (S : Callables H) (policy : Policy)
    (credentials : List Json)
    (h : ∀ c ∈ credentials, HasVerdict (Pipeline.verifyCredential S.sources policy none c)) :
    (verifyMany clock S policy credentials).1 = .ok (credentials.zipIdx.map fun item =>
      verdict item.2 (Pipeline.verifyCredential S.sources policy none item.1)) := by
  rw [verifyMany_eq]
  refine eval_verifyItems S policy credentials.zipIdx [] fun item hi => h item.1 ?_
  exact List.fst_mem_of_mem_zipIdx hi

/-- The callables of a call with the resolver of the card alone. -/
def cardCallables : Callables (cardHost 1800000000) where
  resolver := cardResolver
  statusList := none
  statusListToken := none
  credentialSchema := none
  jwtVcIssuerFetch := none
  x5cTrustAnchors := none

/-- The card is accepted, a text that is no credential is refused, and the card is accepted again. -/
theorem verifyMany_pointwise_card :
    (verifyMany (fun _ => 0) cardCallables {} [.str cardToken, .str "x", .str cardToken]).1 =
      .ok ([(.str cardToken, 0), (.str "x", 1), (.str cardToken, 2)].map fun item =>
        verdict item.2
          (Pipeline.verifyCredential cardCallables.sources {} none item.1)) := by
  have hcard : HasVerdict (Pipeline.verifyCredential cardCallables.sources {} none
      (.str cardToken)) := by
    obtain ⟨r, hr⟩ := returned_iff.mp (show returned (Pipeline.verifyCredential
      cardCallables.sources {} none (.str cardToken)) = true by decide +kernel)
    rw [hr]
    exact nofun
  refine verifyMany_pointwise (cardHost 1800000000) _ cardCallables {} _ fun c hc => ?_
  simp only [List.mem_cons, List.not_mem_nil, or_false] at hc
  rcases hc with rfl | rfl | rfl
  · exact hcard
  · intro e he
    cases he
    rfl
  · exact hcard

end OpenVC.VerifyMany
