import OpenVC.Proofs.IssuerBindingProofs
import OpenVC.Proofs.VerifyProofs
import OpenVC.Resolvers

/-!
# The issuer binding of a status list holds end to end

The binding compares a field of the list's body. The default resolvers return a body whose issuer, if
it names one, is the identifier the signature key was obtained for.
-/

namespace OpenVC

open Python Pipeline Status

namespace Resolvers

variable {H : Host} {D : ListResolver H} {n : Nat} {url signer : Str}

/-- The list that is fetched at a URL passes the pipeline, its key obtained for `signer`. -/
def SignedList (D : ListResolver H) (n : Nat) (url signer : Str) : Prop :=
  ∃ raw r d, D.fetch n url = .ok raw ∧
    verifyCredential D.sources D.policy none (asCredential raw) = .ok r ∧ r.issuer = signer ∧
    Opens (asCredential raw) d ∧ IssuerBound D.sources D.policy none r d

/-- The status list token that is fetched at a URL names `signer` as its `iss` and is verified with a
key obtained for it. -/
def SignedToken (D : ListResolver H) (n : Nat) (url signer : Str) : Prop :=
  ∃ raw jws jwk, D.fetch n url = .ok raw ∧
    VpJwt.verifyCompact H.crypto raw.strip jwk = .ok jws ∧ jws.payload.get "iss" = .str signer ∧
    resolveJoseKey D.sources signer (jws.header.get "kid") = .ok jwk ∧
    ObtainedFor D.sources raw.strip signer (jws.header.get "kid") D.policy.now jwk

theorem SignedList.unique {a b : Str} (ha : SignedList D n url a) (hb : SignedList D n url b) :
    a = b := by
  obtain ⟨raw, r, -, hraw, hr, rfl, -⟩ := ha
  obtain ⟨raw', r', -, hraw', hr', rfl, -⟩ := hb
  obtain rfl := Except.ok.inj (hraw.symm.trans hraw')
  obtain rfl := Except.ok.inj (hr.symm.trans hr')
  rfl

theorem verifyCompact_parse {C : Crypto} {token : Str} {jwk : Dict} {jws : SdJwt.Jws}
    (h : VpJwt.verifyCompact C token jwk = .ok jws) : parseCompact token = .ok jws := by
  simp only [VpJwt.verifyCompact, bind_eq_ok, pure_eq_ok] at h
  obtain ⟨jws', hparse, _, -, ⟨⟩, -, _, -, ⟨⟩, -, rfl⟩ := h
  exact hparse

theorem SignedToken.unique {a b : Str} (ha : SignedToken D n url a) (hb : SignedToken D n url b) :
    a = b := by
  obtain ⟨raw, jws, _, hraw, hjws, hiss, -⟩ := ha
  obtain ⟨raw', jws', _, hraw', hjws', hiss', -⟩ := hb
  obtain rfl := Except.ok.inj (hraw.symm.trans hraw')
  have hsame := (verifyCompact_parse hjws).symm.trans (verifyCompact_parse hjws')
  obtain rfl := Except.ok.inj hsame
  exact Json.str.inj (hiss.symm.trans hiss')

theorem get_of_get? {m : Dict} {key : Str} {v : Json} (h : m.get? key = some v) : m.get key = v := by
  rw [Dict.get, h]
  rfl

theorem namesIssuer_authenticatedList {r : VerificationResult} {list : Dict} {si : Str}
    (h : authenticatedList r = .ok list) (hnames : NamesIssuer (.obj list) "issuer" si) :
    si = r.issuer := by
  obtain ⟨m, hm, hnames⟩ := hnames
  obtain rfl := Json.obj.inj hm
  unfold authenticatedList at h
  split at h
  · rename_i hnone
    obtain rfl := Except.ok.inj h
    split at hnames
    · rw [Dict.get, hnone] at hnames
      simp at hnames
    · rw [Dict.get, Dict.get?_set, if_pos rfl] at hnames
      simpa [eq_comm] using hnames
  · rename_i issuer hissuer
    simp only [bind_eq_ok, raiseIf_eq_ok, pure_eq_ok, List.any_eq_false, Bool.not_eq_true,
      Bool.not_eq_false'] at h
    obtain ⟨⟨⟩, hall, rfl⟩ := h
    have hsigner : ∀ name ∈ issuerIdentifiers issuer, name = .str r.issuer :=
      fun name hname => Json.pyEq_str_right.mp (hall name hname)
    -- the field of the body as it was signed
    have hplain : ∀ {v : Json}, issuer = v → (v = .str si ∨ ∃ o, v = .obj o ∧
        Dict.get o "id" = .str si) → si = r.issuer := by
      rintro v rfl (hv | ⟨o, hv, hid⟩)
      · exact Json.str.inj (hsigner (.str si) (by rw [hv]; exact List.mem_cons_self))
      · refine Json.str.inj (hsigner (.str si) ?_)
        rw [hv, issuerIdentifiers, List.mem_filterMap]
        refine ⟨"id", List.mem_cons_self, ?_⟩
        cases hget : Dict.get? o "id" with
        | none =>
          rw [Dict.get, hget] at hid
          cases hid
        | some w =>
          rw [Dict.get, hget] at hid
          exact congrArg some hid
    unfold fillIssuer at hnames
    split at hnames
    · split at hnames
      · rw [Dict.get, Dict.get?_set, if_pos rfl, Option.getD_some] at hnames
        rcases hnames with hnames | ⟨o, ho, hid⟩
        · cases hnames
        · obtain rfl := Json.obj.inj ho
          rw [Dict.get, Dict.get?_set, if_pos rfl, Option.getD_some] at hid
          exact (Json.str.inj hid).symm
      · rw [get_of_get? hissuer] at hnames
        exact hplain rfl hnames
    · rw [get_of_get? hissuer] at hnames
      exact hplain rfl hnames

theorem defaultStatusListResolver_signed (hJ : H.pyJwt.ReturnsPayload) {list : Json} {si : Str}
    (h : defaultStatusListResolver D n url = .ok list) (hnames : NamesIssuer list "issuer" si) :
    SignedList D n url si := by
  simp only [defaultStatusListResolver, bind_eq_ok, pure_eq_ok] at h
  obtain ⟨raw, hraw, ⟨⟩, -, r, hr, m, hm, rfl⟩ := h
  obtain ⟨d, hopens, hbound⟩ := verifyCredential_issuerBound H hJ D.sources D.policy none _ r hr
  exact ⟨raw, r, d, hraw, hr, (namesIssuer_authenticatedList hm hnames).symm, hopens, hbound⟩

/-- The claims a default resolver returns are signed by the `iss` they name. -/
theorem defaultStatusListTokenResolver_signed {list : Json} {si : Str}
    (h : defaultStatusListTokenResolver D n url = .ok list) (hnames : NamesIssuer list "iss" si) :
    SignedToken D n url si := by
  simp only [defaultStatusListTokenResolver, verifyStatusListToken, bind_eq_ok, pure_eq_ok,
    orRaise_eq_ok, Option.filter_eq_some_iff, Json.str?_eq_some] at h
  obtain ⟨raw, hraw, jws, hjws, iss, ⟨hiss, -⟩, ⟨⟩, -, jwk, hjwk, claims,
    ⟨_, -, jws', hverify, ⟨⟩, -, ⟨⟩, -, ⟨⟩, -, _, -, rfl⟩, rfl⟩ := h
  obtain rfl := Except.ok.inj (hjws.symm.trans (verifyCompact_parse hverify))
  have hsi : si = iss := by
    obtain ⟨m, hm, hnames⟩ := hnames
    obtain rfl := Json.obj.inj hm
    rw [hiss] at hnames
    rcases hnames with hnames | ⟨o, ho, -⟩
    · exact (Json.str.inj hnames).symm
    · cases ho
  subst hsi
  exact ⟨raw, jws, jwk, hraw, hverify, hiss, hjwk, obtainedFor_of_resolveJoseKey hjwk⟩

/-! ## The gate -/

/-- The credential's issuer, or an allow-listed delegate. -/
def Allowed (policy : VerificationPolicy) (credentialIssuer : Option Str) (signer : Str) : Prop :=
  credentialIssuer = some signer ∨
    ∃ allowed, policy.statusIssuerAllowlist = some allowed ∧ signer ∈ allowed

/-- Every list that the gate consults is signed, and by nobody but the credential's issuer or a
delegate: `signed` says who signed what is fetched at a URL. -/
def BoundTo (policy : VerificationPolicy) (credentialIssuer : Option Str)
    (signed : Nat → Str → Str → Prop) (n : Nat) (url : Str) : Prop :=
  (∃ signer, signed n url signer) ∧
    ∀ signer, signed n url signer → Allowed policy credentialIssuer signer

variable {policy : VerificationPolicy} {credentialIssuer : Option Str} {Z : Zlib}

/-- A resolver whose lists are signed by the issuer they name, behind the binding. -/
theorem boundTo_of_consulted {signed : Nat → Str → Str → Prop} {resolver : Resolver} {field : Str}
    (hbinding : policy.requireStatusIssuerBinding = true)
    (hunique : ∀ n url a b, signed n url a → signed n url b → a = b)
    (hsigned : ∀ n url list si, resolver n url = .ok list → NamesIssuer list field si →
      signed n url si) {list : Json}
    (h : Consulted policy credentialIssuer (some resolver) field n url list) :
    BoundTo policy credentialIssuer signed n url := by
  obtain ⟨⟨resolve, hresolve, hlist⟩, htrusted⟩ := h
  obtain rfl := Option.some.inj hresolve
  obtain ⟨si, -, hnames, hallowed⟩ := htrusted hbinding
  have hsi := hsigned n url list si hlist hnames
  refine ⟨⟨si, hsi⟩, fun signer hsigner => ?_⟩
  rw [hunique n url signer si hsigner hsi]
  exact hallowed

/-- With the binding the gate has a resolver for each that it is given. -/
theorem boundResolvers_isSome {resolvers bound : Resolvers}
    (h : boundResolvers policy resolvers credentialIssuer = .ok bound) :
    bound.statusList.isSome = resolvers.statusList.isSome ∧
      bound.statusListToken.isSome = resolvers.statusListToken.isSome := by
  unfold boundResolvers at h
  split at h
  · simp only [bind_eq_ok, pure_eq_ok] at h
    obtain ⟨issuer, -, rfl⟩ := h
    exact ⟨Option.isSome_map, Option.isSome_map⟩
  · obtain rfl := Except.ok.inj h
    exact ⟨rfl, rfl⟩

/-- The W3C half resolves the list of every entry. -/
theorem checkW3cStatus_resolves {w3cSource : Dict} {resolve : Resolver} {entries : List Entry}
    {w3c : Option StatusResult} (hentries : parseStatusEntries w3cSource = .ok entries)
    (h : checkW3cStatus Z w3cSource policy (some resolve) = .ok w3c) {n : Nat} {entry : Entry}
    (hn : entries[n]? = some entry) : ∃ list, resolve n entry.statusListCredential = .ok list := by
  simp only [checkW3cStatus, hentries, bind_eq_ok, Except.ok.injEq] at h
  obtain ⟨_, rfl, h⟩ := h
  split at h
  · rename_i hempty
    rw [List.isEmpty_iff.mp hempty] at hn
    simp at hn
  · simp only [checkW3cEntries, checkCredentialStatus, hentries, bind_eq_ok, Except.ok.injEq] at h
    obtain ⟨_, ⟨_, rfl, results, hresults, -⟩, -⟩ := h
    obtain ⟨list, -, hlist, -⟩ := checkEntries_eq_ok hresults n entry hn
    exact ⟨list, hlist⟩

/-- The IETF half resolves the token of a reference. -/
theorem checkIetfStatus_resolves {claims : Dict} {resolve : Resolver} {ref : TokenStatusRef}
    {ietf : Option TokenStatusResult} (href : parseTokenStatusRef claims = .ok (some ref))
    (h : checkIetfStatus Z (some claims) policy (some resolve) = .ok ietf) :
    ∃ list, resolve 0 ref.uri = .ok list := by
  simp only [checkIetfStatus, checkIetfSource, href, bind_eq_ok, Except.ok.injEq] at h
  obtain ⟨_, rfl, h⟩ := h
  simp only [checkIetfRef, checkTokenStatus, bind_eq_ok] at h
  obtain ⟨_, ⟨list, hlist, -⟩, -⟩ := h
  exact ⟨list, hlist⟩

/-- Whatever lists are served, if the gate returns under the issuer binding then every W3C list and
every status list token it consulted was verified with a key obtained for the credential's issuer or
for an allow-listed delegate, and for nobody else. -/
theorem checkStatus_signerBound (H : Host) (hJ : H.pyJwt.ReturnsPayload) (Z : Zlib)
    (lists tokens : Option (ListResolver H)) (w3cSource : Dict) (ietfSource : Option Dict)
    (policy : VerificationPolicy) (credentialIssuer : Option Str) (out : Option StatusOutcome)
    (hbinding : policy.requireStatusIssuerBinding = true)
    (h : checkStatus Z w3cSource ietfSource policy ⟨lists.map defaultStatusListResolver,
      tokens.map defaultStatusListTokenResolver⟩ credentialIssuer = .ok out) :
    (∀ D entries, lists = some D → parseStatusEntries w3cSource = .ok entries →
      ∀ n entry, entries[n]? = some entry →
        BoundTo policy credentialIssuer (SignedList D) n entry.statusListCredential) ∧
    (∀ D claims ref, tokens = some D → ietfSource = some claims →
      parseTokenStatusRef claims = .ok (some ref) →
        BoundTo policy credentialIssuer (SignedToken D) 0 ref.uri) := by
  simp only [checkStatus, bind_eq_ok] at h
  obtain ⟨bound, hbound, w3c, hw3c, ietf, hietf, -⟩ := h
  obtain ⟨hlist, htoken⟩ := boundResolvers_eq_ok hbound
  obtain ⟨hsome, hsomeToken⟩ := boundResolvers_isSome hbound
  constructor
  · rintro D entries rfl hentries n entry hn
    obtain ⟨resolve, hresolve⟩ := Option.isSome_iff_exists.mp hsome
    rw [hresolve] at hw3c
    obtain ⟨list, hread⟩ := checkW3cStatus_resolves hentries hw3c hn
    exact boundTo_of_consulted hbinding (fun _ _ _ _ => SignedList.unique)
      (fun _ _ _ _ => defaultStatusListResolver_signed hJ) (hlist resolve n _ list hresolve hread)
  · rintro D claims ref rfl rfl href
    obtain ⟨resolve, hresolve⟩ := Option.isSome_iff_exists.mp hsomeToken
    rw [hresolve] at hietf
    obtain ⟨list, hread⟩ := checkIetfStatus_resolves href hietf
    exact boundTo_of_consulted hbinding (fun _ _ _ _ => SignedToken.unique)
      (fun _ _ _ _ => defaultStatusListTokenResolver_signed)
      (htoken resolve 0 _ list hresolve hread)

/-- A status list that the issuer of the card signed, as a VC-JWT that names it in `iss` alone. -/
def listToken : Str := List.flatMap lit
  ["eyJhbGciOiJFZERTQSJ9.eyJpc3MiOiJpIiwidmMiOnsiY3JlZGVudGlhbFN1Ymp",
   "lY3QiOnsiZW5jb2RlZExpc3QiOiJ1SDRzSUFBQUFBQUFDQTFOZ0FBQmRObDNVQWd",
   "BQUFBIn19fQ.njMC_uOktCjQnatjPwMazR2CZvpzfjOuqIOw4mn4_eabd0BAj0t6",
   "bXqZbY3v7ESVhLWLtPJqMbsLrxPKKCRiCQ"]

/-- The host of the card, where that list is signed. -/
def listHost : Host :=
  { cardHost 1800000000 with pyJwt := signedPyJwt 1800000000 [(listToken, cardX)] }

/-- The default resolver of a verifier that knows the issuer of the card. -/
def listResolver : ListResolver listHost where
  resolver := cardResolver
  jwtVcIssuerFetch := none
  leewayS := 60
  leeway_ok := leeway_minute
  fetch _ _ := .ok listToken
  expectedIssuer := none

/-- A credential whose status is bit 5 of that list. -/
def listedCredential : Dict :=
  [("credentialStatus", .obj [("type", .str "BitstringStatusListEntry"),
    ("statusListCredential", .str "https://i/1"), ("statusListIndex", .str "5")])]

theorem checkStatus_signerBound_listed :
    BoundTo bindingPolicy (some "i") (SignedList listResolver) 0 "https://i/1" := by
  have hgate : returned (checkStatus exampleZlib listedCredential none bindingPolicy
      ⟨(some listResolver).map defaultStatusListResolver,
        (none : Option (ListResolver listHost)).map defaultStatusListTokenResolver⟩
      (some "i")) = true := by decide +kernel
  have hentries : (parseStatusEntries listedCredential).toOption.map
      (·.map Entry.statusListCredential) = some [lit "https://i/1"] := by decide +kernel
  obtain ⟨out, hout⟩ := returned_iff.mp hgate
  obtain ⟨entries, hparse, hlist⟩ := exists_ok_of_map hentries
  obtain ⟨entry, rest, rfl, heq, -⟩ := List.map_eq_cons_iff.mp hlist
  rw [← heq]
  exact (checkStatus_signerBound listHost (signedPyJwt_returnsPayload 1800000000 _) exampleZlib
    (some listResolver) none listedCredential none bindingPolicy (some "i") out rfl hout).1
      listResolver _ rfl hparse 0 entry rfl

end Resolvers

end OpenVC
