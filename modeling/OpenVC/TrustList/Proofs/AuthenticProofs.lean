import OpenVC.TrustList.Lote
import OpenVC.TrustList.Parse
import OpenVC.TrustList.Proofs.LoteProofs
import OpenVC.TrustList.Proofs.WalkProofs

/-!
# Anchors come from authenticated, current lists

An anchor of a walk is a service of the root or of a list one hop away, verified under the pinned
certificates or under those of its pointer.
-/

namespace OpenVC

open Python TrustList Calling

/-- A list that has a `NextUpdate` which is an instant, and not before now. -/
def TrustList.Fresh {Cert : Type} (now : Int) (list : TrustedList Cert) : Prop :=
  ∃ next, list.nextUpdate = some next ∧ next.offset.isSome = true ∧ now ≤ next.instant

/-! ## XML -/

namespace Tsl

variable {E : Env} {call : Call E} {now : Int}

/-- A list whose bytes the callback accepted under some certificates. -/
def Vouched (call : Call E) (certs : List (Cert E)) (xml : Bytes) (list : TrustedList (Cert E)) :
    Prop :=
  (∃ verify, call.verifySignature = some verify ∧ verify xml certs = .ok ()) ∧
    parseTrustList E xml call.maxBytes = .ok list

theorem vouched_of_consumeTrustList {certs : List (Cert E)} {xml : Bytes}
    {list : TrustedList (Cert E)}
    (h : consumeTrustList E call.verifySignature certs call.maxBytes xml = .ok list) :
    Vouched call certs xml list := by
  unfold consumeTrustList at h
  obtain ⟨verify, hverify, h⟩ := bind_eq_ok.mp h
  obtain ⟨⟨⟩, hok, hlist⟩ := bind_eq_ok.mp h
  exact ⟨⟨verify, orRaise_eq_ok.mp hverify, reraise_eq_ok.mp hok⟩, hlist⟩

/-- A list that is admitted is closed, or its `NextUpdate` is an instant not before now. -/
theorem admitCurrent_eq_ok {url : Str} {detail : String} {list list' : TrustedList (Cert E)} :
    admitCurrent url detail now list = .ok (.ok list') ↔
      list' = list ∧ (list.nextUpdate = none ∨ Fresh now list) := by
  simp only [admitCurrent, expired, Fresh, bind_eq_ok, pure_eq_ok]
  cases hnext : list.nextUpdate with
  | none =>
    constructor
    · rintro ⟨isExpired, hexpired, hr⟩
      cases hexpired
      cases hr
      exact ⟨rfl, .inl rfl⟩
    · rintro ⟨rfl, -⟩
      exact ⟨false, rfl, rfl⟩
  | some next =>
    simp only [bind_eq_ok, raiseIf_eq_ok, pure_eq_ok, reduceCtorEq, false_or, Option.some.injEq,
      exists_eq_left', Option.isNone_eq_false_iff]
    constructor
    · rintro ⟨isExpired, ⟨⟨⟩, hoffset, rfl⟩, hr⟩
      by_cases hlt : next.instant < now
      · rw [decide_eq_true hlt] at hr
        cases hr
      · rw [decide_eq_false hlt] at hr
        cases hr
        exact ⟨rfl, hoffset, by omega⟩
    · rintro ⟨rfl, hoffset, hle⟩
      have hlt : ¬ next.instant < now := by omega
      exact ⟨false, ⟨(), hoffset, decide_eq_false hlt⟩, rfl⟩

/-- A list that is admitted under certificates. -/
theorem vouched_of_admit {url : Str} {certs : List (Cert E)} {detail : String} {r : Result Bytes}
    {list : TrustedList (Cert E)} (h : judge call now url certs detail r = .ok (.ok list)) :
    ∃ xml, r = .ok xml ∧ Vouched call certs xml list ∧
      (list.nextUpdate = none ∨ Fresh now list) := by
  obtain ⟨xml, consumed, rfl, hconsumed, hcurrent⟩ := admitFetched_eq_ok.mp h
  obtain ⟨rfl, hfresh⟩ := admitCurrent_eq_ok.mp hcurrent
  exact ⟨xml, rfl, vouched_of_consumeTrustList hconsumed, hfresh⟩

/-- A walk fetches the root first. -/
theorem traced_walkLotl {l : List (Fetched Bytes)} {result : Result (TrustAnchorSet (Cert E))}
    (hnow : utcInstant E.interpreter call.now .trustListError = .ok now)
    (h : Traced (walkLotl call) l result) :
    ∃ r rest, l = ⟨call.lotlUrl, r⟩ :: rest ∧
      ((∃ e, admitRoot call now r = .error e ∧ result = .error e) ∨
        ∃ root, admitRoot call now r = .ok root ∧
          Traced (walkPointers call now root) rest result) := by
  rw [walkLotl, hnow] at h
  obtain ⟨r, rest, hl, hrest⟩ := traced_call.mp h
  refine ⟨r, rest, hl, ?_⟩
  change Traced (((admitRoot call now r : Result (Admission (Cert E))) :
    Fetching Bytes (Admission (Cert E))) >>= fun root => walkPointers call now root) rest result
    at hrest
  rcases traced_liftM_bind.mp hrest with ⟨e, he, -, hr⟩ | hroot
  · exact .inl ⟨e, he, hr⟩
  · exact .inr hroot

theorem traced_walkPointers {lotl : TrustedList (Cert E)} {l : List (Fetched Bytes)}
    {result : Result (TrustAnchorSet (Cert E))}
    (h : Traced (walkPointers call now (.ok lotl)) l result) :
    let ps := followed (decisionOn call.select) () lotl.pointers
    (∃ set as, result = .ok set ∧ Walked (admitPointed call now) call.select ps l ⟨[], []⟩ set as) ∨
      ∃ e, result = .error e ∧ Aborted (admitPointed call now) ps l e :=
  traced_walk_set h

/-- The root, accepted under the certificates the caller pins, and each list that adds an anchor to
the result, accepted under those of its pointer, have a `NextUpdate` that reads as a `datetime`. -/
def AllDated (call : Call E) (l : List (Fetched Bytes)) : Prop :=
  ∀ xml root rest, l = ⟨call.lotlUrl, .ok xml⟩ :: rest →
    Vouched call call.lotlSignerCerts xml root →
    ∀ p xml' list,
      (p, ⟨p.location, .ok xml'⟩) ∈ (followed (decisionOn call.select) () root.pointers).zip rest →
      Vouched call p.signerCerts xml' list → selected call.select list ≠ [] →
      root.nextUpdate ≠ none ∧ list.nextUpdate ≠ none

/-- What a walk that returns anchors has seen. -/
def Authentic (call : Call E) (now : Int) (l : List (Fetched Bytes))
    (set : TrustAnchorSet (Cert E)) : Prop :=
  ∀ a ∈ set.anchors, ∃ xml root rest, l = ⟨call.lotlUrl, .ok xml⟩ :: rest ∧
    Vouched call call.lotlSignerCerts xml root ∧ Fresh now root ∧
    ∃ p ∈ root.pointers, ∃ xml' list, ⟨p.location, .ok xml'⟩ ∈ rest ∧
      Vouched call p.signerCerts xml' list ∧ Fresh now list ∧ a ∈ list.services ∧
      call.select.all (·.keeps a) = true

/-- The lists of a walk are authenticated; when they are dated, they are current. -/
theorem walkLotl_authentic (hnow : utcInstant E.interpreter call.now .trustListError = .ok now)
    {l : List (Fetched Bytes)} {set : TrustAnchorSet (Cert E)}
    (h : Traced (walkLotl call) l (.ok set)) (hdated : AllDated call l) :
    Authentic call now l set := by
  intro a ha
  obtain ⟨r, rest, rfl, ⟨e, -, he⟩ | ⟨root, hroot, hrest⟩⟩ := traced_walkLotl hnow h
  · cases he
  · cases root with
    | error problem =>
      obtain ⟨-, hset⟩ := traced_pure.mp hrest
      cases hset
      cases ha
    | ok root =>
      obtain ⟨xml, rfl, hvouched, hfresh⟩ := vouched_of_admit hroot
      rcases traced_walkPointers hrest with ⟨set', as, hset, hw⟩ | ⟨e, he, -⟩
      · cases hset
        rw [hw.anchors, List.nil_append] at ha
        obtain ⟨admission, hmem, ha⟩ := List.mem_flatMap.mp ha
        cases admission with
        | error problem => cases ha
        | ok list =>
          obtain ⟨p, r, hpair, hadmit⟩ := hw.visits.exists_of_mem hmem
          obtain ⟨hp, hr⟩ := List.of_mem_zip hpair
          obtain ⟨xml', rfl, hvouched', hfresh'⟩ := vouched_of_admit hadmit
          obtain ⟨hroot, hlist⟩ := hdated xml root rest rfl hvouched p xml' list hpair hvouched'
            (List.ne_nil_of_mem ha)
          obtain ⟨hservice, hkeeps⟩ := List.mem_filter.mp ha
          exact ⟨xml, root, rest, rfl, hvouched, hfresh.resolve_left hroot, p,
            followed_subset () _ hp, xml', list, hr, hvouched', hfresh'.resolve_left hlist, hservice,
            hkeeps⟩
      · cases he

end Tsl

/-! ## JSON -/

namespace Lote

variable {E : Env} {call : WalkCall E} {now : Int}

/-- A list that was consumed: its signer authenticated under some certificates, its signature
verified, and, under a profile, the profile's gate passed. -/
structure Vouched (call : WalkCall E) (now : Int) (certs : List (Cert E)) (token : Token)
    (list : TrustedList (Cert E)) (jws : SdJwt.Jws) (alg : Str) (chain : X5c.Chain E.x509.toX509) :
    Prop where
  read : readToken token call.maxBytes = .ok jws
  permitted : (jws.header.get "alg").str?.filter allowedAlgs.contains = some alg
  x5c : signerChain E jws.header = .ok chain
  signer : authenticateSigner E chain certs (some ⟨now, some 0⟩) = .ok ()
  signature : checkLoteSignature E alg chain.1 jws = .ok ()
  parsed : parseLoteObject E (.obj jws.payload) = .ok list
  gate : ∀ profile, call.profile = some profile → ∃ lote,
    jws.payload.get "LoTE" = .obj lote ∧ checkProfile E list lote profile = .ok ()

theorem vouched_of_consumeLote {certs : List (Cert E)} {token : Token}
    {list : TrustedList (Cert E)} (h : consumeLote E (call.consumption now certs) token = .ok list) :
    ∃ jws alg chain, Vouched call now certs token list jws alg chain := by
  simp only [consumeLote, bind_eq_ok, orRaise_eq_ok, pure_eq_ok] at h
  obtain ⟨jws, hjws, alg, halg, ⟨⟩, -, chain, hchain, ⟨⟩, hsigner, ⟨⟩, hsignature, list', hlist, ⟨⟩, -,
    ⟨⟩, hgate, rfl⟩ := h
  refine ⟨jws, alg, chain, hjws, halg, hchain, hsigner, hsignature, hlist, fun profile hprofile => ?_⟩
  obtain ⟨lote, scheme, hparsed⟩ := parsed_of_parseLoteObject hlist
  have hcall : (call.consumption now certs).profile = some profile := hprofile
  rw [hparsed.loteObj, hcall] at hgate
  exact ⟨lote, hparsed.loteObj, hgate⟩

/-- A list that is admitted has a `NextUpdate` that is not before now. -/
theorem admitCurrent_eq_ok {url : Str} {list list' : TrustedList (Cert E)} :
    admitCurrent url now list = .ok (.ok list') ↔ list' = list ∧ Fresh now list := by
  unfold admitCurrent Fresh
  cases hnext : list.nextUpdate with
  | none => simp
  | some next =>
    simp only [bind_eq_ok, raiseIf_eq_ok, pure_eq_ok, Option.some.injEq, exists_eq_left',
      Option.isNone_eq_false_iff]
    constructor
    · rintro ⟨⟨⟩, hoffset, hr⟩
      split at hr
      · cases hr
      · rename_i hlt
        cases hr
        exact ⟨rfl, hoffset, by omega⟩
    · rintro ⟨rfl, hoffset, hle⟩
      have hlt : ¬ next.instant < now := by omega
      rw [if_neg hlt]
      exact ⟨(), hoffset, rfl⟩

theorem vouched_of_admit {url : Str} {certs : List (Cert E)} {r : Result Token}
    {list : TrustedList (Cert E)} (h : judge call now url certs r = .ok (.ok list)) :
    ∃ token, r = .ok token ∧ (∃ jws alg chain, Vouched call now certs token list jws alg chain) ∧
      Fresh now list := by
  obtain ⟨token, consumed, rfl, hconsumed, hcurrent⟩ := admitFetched_eq_ok.mp h
  obtain ⟨rfl, hfresh⟩ := admitCurrent_eq_ok.mp hcurrent
  exact ⟨token, rfl, vouched_of_consumeLote hconsumed, hfresh⟩

/-- A walk fetches the root first. -/
theorem traced_walkLote {l : List (Fetched Token)} {result : Result (TrustAnchorSet (Cert E))}
    (hnow : utcInstant E.interpreter call.now .trustListError = .ok now)
    (h : Traced (walkLote call) l result) :
    ∃ r rest, l = ⟨call.loteUrl, r⟩ :: rest ∧
      ((∃ e, judge call now call.loteUrl call.loteSignerCerts r = .error e ∧ result = .error e) ∨
        ∃ root, judge call now call.loteUrl call.loteSignerCerts r = .ok root ∧
          Traced (walkPointers call now root) rest result) := by
  rw [walkLote, hnow] at h
  obtain ⟨r, rest, hl, hrest⟩ := traced_call.mp h
  refine ⟨r, rest, hl, ?_⟩
  change Traced (((judge call now call.loteUrl call.loteSignerCerts r : Result (Admission (Cert E))) :
    Fetching Token (Admission (Cert E))) >>= fun root => walkPointers call now root) rest result
    at hrest
  rcases traced_liftM_bind.mp hrest with ⟨e, he, -, hr⟩ | hroot
  · exact .inl ⟨e, he, hr⟩
  · exact .inr hroot

theorem traced_walkPointers {root : TrustedList (Cert E)} {l : List (Fetched Token)}
    {result : Result (TrustAnchorSet (Cert E))}
    (h : Traced (walkPointers call now (.ok root)) l result) :
    let ps := followed (decisionOn call) ⟨[call.loteUrl], 1⟩ root.pointers
    (∃ set as, result = .ok set ∧ Walked (admitPointed call now) call.selection ps l
      ⟨selected call.selection root, []⟩ set as) ∨
      ∃ e, result = .error e ∧ Aborted (admitPointed call now) ps l e :=
  traced_walk_set h

/-- Where an anchor of a walk is listed. -/
def ListedIn (call : WalkCall E) (a : TrustServiceAnchor (Cert E)) (list : TrustedList (Cert E)) :
    Prop :=
  a ∈ list.services ∧ call.selection.all (·.keeps a) = true

/-- What a walk that returns anchors has seen. -/
def Authentic (call : WalkCall E) (now : Int) (l : List (Fetched Token))
    (set : TrustAnchorSet (Cert E)) : Prop :=
  ∀ a ∈ set.anchors, ∃ token root rest, l = ⟨call.loteUrl, .ok token⟩ :: rest ∧
    (∃ jws alg chain, Vouched call now call.loteSignerCerts token root jws alg chain) ∧
    Fresh now root ∧ (ListedIn call a root ∨
      ∃ p ∈ root.pointers, ∃ token' list, ⟨p.location, .ok token'⟩ ∈ rest ∧
        (∃ jws alg chain, Vouched call now p.signerCerts token' list jws alg chain) ∧
        Fresh now list ∧ ListedIn call a list)

theorem walkLote_authentic (hnow : utcInstant E.interpreter call.now .trustListError = .ok now)
    {l : List (Fetched Token)} {set : TrustAnchorSet (Cert E)}
    (h : Traced (walkLote call) l (.ok set)) : Authentic call now l set := by
  intro a ha
  obtain ⟨r, rest, rfl, ⟨e, -, he⟩ | ⟨root, hroot, hrest⟩⟩ := traced_walkLote hnow h
  · cases he
  · cases root with
    | error problem =>
      obtain ⟨-, hset⟩ := traced_pure.mp hrest
      cases hset
      cases ha
    | ok root =>
      obtain ⟨token, rfl, hvouched, hfresh⟩ := vouched_of_admit hroot
      refine ⟨token, root, rest, rfl, hvouched, hfresh, ?_⟩
      rcases traced_walkPointers hrest with ⟨set', as, hset, hw⟩ | ⟨e, he, -⟩
      · cases hset
        rw [hw.anchors, List.mem_append] at ha
        rcases ha with ha | ha
        · exact .inl (List.mem_filter.mp ha)
        · obtain ⟨admission, hmem, ha⟩ := List.mem_flatMap.mp ha
          cases admission with
          | error problem => cases ha
          | ok list =>
            obtain ⟨p, r, hpair, hadmit⟩ := hw.visits.exists_of_mem hmem
            obtain ⟨hp, hr⟩ := List.of_mem_zip hpair
            obtain ⟨token', rfl, hvouched', hfresh'⟩ := vouched_of_admit hadmit
            exact .inr ⟨p, followed_subset _ _ hp, token', list, hr, hvouched', hfresh',
              List.mem_filter.mp ha⟩
      · cases he

end Lote

/-- An anchor of a walk, in either encoding, is a service of an authenticated and current list, one
hop from an authenticated and current root or of the root itself; in XML, where the root and every list
that adds an anchor have a `NextUpdate` that can be read. -/
theorem walks_authentic (now : Int) :
    (∀ (E : Tsl.Env) (call : Tsl.Call E) (l : List (Fetched Bytes))
      (set : TrustAnchorSet (Tsl.Cert E)),
      utcInstant E.interpreter call.now .trustListError = .ok now →
      Traced (Tsl.walkLotl call) l (.ok set) → Tsl.AllDated call l →
      Tsl.Authentic call now l set) ∧
    ∀ (E : Lote.Env) (call : Lote.WalkCall E) (l : List (Fetched Lote.Token))
      (set : TrustAnchorSet (Lote.Cert E)),
      utcInstant E.interpreter call.now .trustListError = .ok now →
      Traced (Lote.walkLote call) l (.ok set) → Lote.Authentic call now l set := by
  constructor
  · intro E call l set hnow h hdated
    exact Tsl.walkLotl_authentic hnow h hdated
  · intro E call l set hnow h
    exact Lote.walkLote_authentic hnow h

/-! ## Lists with a `NextUpdate` -/

namespace Tsl

/-- A document and the events `expat` makes of it. -/
abbrev Document := Bytes × List XmlEvent

/-- The content of an element: text. -/
def characters (text : String) : Document :=
  ((lit text).map UInt8.ofNat, [.characterData (lit text)])

/-- Content after content. -/
def Document.append (a b : Document) : Document := (a.1 ++ b.1, a.2 ++ b.2)

/-- An element of the namespace of trusted lists. -/
def element (name attrs : String) (content : Document) : Document :=
  ((60 :: (lit name ++ (lit attrs ++ [62]))).map UInt8.ofNat ++
      (content.1 ++ ((60 :: 47 :: (lit name ++ [62])).map UInt8.ofNat)),
    .startElement (lit "http://uri.etsi.org/02231/v2#" ++ 1 :: lit name) [] ::
      (content.2 ++ [.endElement]))

/-- A list with a scheme and providers. -/
def listDocument (scheme providers : Document) : Document :=
  element "TrustServiceStatusList" " xmlns='http://uri.etsi.org/02231/v2#'"
    ((element "SchemeInformation" "" scheme).append providers)

/-- A `NextUpdate`. -/
def nextUpdateElement (text : String) : Document :=
  element "NextUpdate" "" (element "dateTime" "" (characters text))

/-- A pointer to the list at `t`. -/
def pointerElement : Document :=
  element "PointersToOtherTSL" ""
    (element "OtherTSLPointer" "" (element "TSLLocation" "" (characters "t")))

/-- A provider with one service and its certificate. -/
def providerElement : Document :=
  element "TrustServiceProviderList" "" (element "TrustServiceProvider" ""
    (element "TSPServices" "" (element "TSPService" "" (element "ServiceInformation" ""
      (element "ServiceDigitalIdentity" "" (element "X509Certificate" ""
        (Lote.operatorBase64.map UInt8.ofNat, [.characterData Lote.operatorBase64])))))))

/-- The host in January 2027, where `expat` reads some documents; their one certificate loads. -/
def listEnv (documents : List Document) : Env where
  interpreter := .atSecond 1800000000
    [(lit "2027-02-01T00:00:00+00:00", ⟨1801440000000000, some 0⟩),
      (lit "2027-02-01T00:00:00", ⟨1801440000000000, none⟩)]
  x509 := { Lote.operatorX509.toX509 with loadDer := fun _ => .ok () }
  expat xml := match documents.find? fun d => d.1 == xml with
    | some d => ⟨d.2, none⟩
    | none => ⟨[], some (.inl "no element found")⟩
  intOf _ := none

/-- A call whose callback accepts every list. -/
def acceptingCall (documents : List Document) : Call (listEnv documents) where
  lotlUrl := "r"
  lotlSignerCerts := []
  verifySignature := some fun _ _ => .ok ()
  select := none

/-- A server with a root at `r` and another list everywhere else. -/
def servesPair (root list : Document) (url : Str) : Result Bytes :=
  .ok (if url = lit "r" then root.1 else list.1)

/-- A current list of lists. -/
def datedRoot : Document :=
  listDocument ((nextUpdateElement "2027-02-01T00:00:00Z").append pointerElement) ([], [])

/-- A current list with one anchor. -/
def datedList : Document := listDocument (nextUpdateElement "2027-02-01T00:00:00Z") providerElement

/-- The documents of a server with both. -/
def dated : List Document := [datedRoot, datedList]

theorem dated_walked : ∃ set,
    (walkLotl (acceptingCall dated)).eval (servesPair datedRoot datedList) = .ok set ∧
      set.anchors.length = 1 :=
  exists_ok_of_map (by decide +kernel)

theorem dated_allDated {l : List (Fetched Bytes)}
    (hserved : ∀ f ∈ l, f.2 = servesPair datedRoot datedList f.1) :
    AllDated (acceptingCall dated) l := by
  have hall : ∀ d ∈ dated, (parseTrustList (listEnv dated) d.1
      (acceptingCall dated).maxBytes).toOption.all (·.nextUpdate.isSome) = true := by decide +kernel
  have hdated : ∀ {url : Str} {xml : Bytes} {list : TrustedList (Cert (listEnv dated))},
      ⟨url, .ok xml⟩ ∈ l → parseTrustList (listEnv dated) xml (acceptingCall dated).maxBytes =
        .ok list → list.nextUpdate ≠ none := by
    intro url xml list hmem hlist
    have hd : ∃ d ∈ dated, d.1 = xml := by
      have hxml := hserved _ hmem
      rw [servesPair] at hxml
      split at hxml <;> cases hxml
      · exact ⟨datedRoot, by simp [dated], rfl⟩
      · exact ⟨datedList, by simp [dated], rfl⟩
    obtain ⟨d, hd, rfl⟩ := hd
    have hsome := hall d hd
    rw [hlist] at hsome
    exact Option.isSome_iff_ne_none.mp hsome
  rintro xml root rest rfl ⟨-, hroot⟩ p xml' list hmem ⟨-, hlist⟩ -
  exact ⟨hdated List.mem_cons_self hroot,
    hdated (List.mem_cons_of_mem _ (List.of_mem_zip hmem).2) hlist⟩

end Tsl

namespace Lote

section Signed

variable {list signature : Bytes}

/-- A walk from `r` that pins the operator's certificate. -/
def signedCall (list signature : Bytes) : WalkCall (signedEnv list signature) where
  loteUrl := "r"
  loteSignerCerts := [()]

/-- The root that the payload of a list makes, where its content passes. -/
def rootOf (list signature : Bytes) (payload : Dict) :
    Result (TrustedList (Cert (signedEnv list signature))) := do
  let parsed ← parseLoteObject (signedEnv list signature) (.obj payload)
  let scheme := (Dict.get ((payload.get "LoTE").obj?.getD []) "ListAndSchemeInformation").obj?.getD []
  checkSignerDn (signedEnv list signature) () scheme parsed.territory
  let root ← admitCurrent "r" 1800000000000000 parsed
  orRaise root.toOption ⟨.trustListError, "not current", []⟩

/-- The root of a walk is what the operator signed, where its content passes. -/
theorem judge_signed {α : Type} {f : TrustedList (Cert (signedEnv list signature)) → α} {c : α}
    (heval : (loadsBytes list).toOption.map (fun v => v.obj?.map fun payload =>
      (rootOf list signature payload).toOption.map f) = some (some (some c)))
    (hsize : list.length ≤ 65536) (hsignature : signature.length = 64) : ∃ root,
      judge (signedCall list signature) 1800000000000000 "r" [()]
        (.ok (.str (compactText listHeader list signature))) = .ok (.ok root) ∧ f root = c := by
  obtain ⟨v, hpayload, hmap⟩ := exists_ok_of_map heval
  obtain ⟨payload, hobj, hcontent⟩ := Option.map_eq_some_iff.mp hmap
  obtain ⟨root, hsome, hf⟩ := Option.map_eq_some_iff.mp hcontent
  have hroot := eq_ok_of_toOption hsome
  obtain rfl := Json.obj?_eq_some.mp hobj
  simp only [rootOf, bind_eq_ok, orRaise_eq_ok] at hroot
  obtain ⟨parsed, hparsed, ⟨⟩, hdn, admission, hcurrent, hroot⟩ := hroot
  obtain ⟨-, -, -, hconsume⟩ := consumeLote_signed
    ((signedCall list signature).consumption 1800000000000000 [()]) 1800000000000000 hpayload hsize
    hsignature rfl rfl rfl (by decide) hparsed hdn rfl
  obtain rfl : admission = .ok root := eq_ok_of_toOption hroot
  exact ⟨root, (admitFetched_of_ok hconsume).trans hcurrent, hf⟩

end Signed

/-- A list with one anchor. -/
def listedList : Bytes := listText [] operatorIdentity

/-- The operator's signature of that list. -/
def listedSignature : Bytes :=
  Codec.intToFixed 0x60468e0813da02a91f356cabf3bd7bf6e0c551fa56808f401292109cb916203e 32 ++
    Codec.intToFixed 0xc6be4b6dbd545f460f2addd8979094792c68659c7dca7d8905cec34f37dc5808 32

/-- A walk whose root is that list. -/
def listedCall : WalkCall (signedEnv listedList listedSignature) :=
  signedCall listedList listedSignature

/-- The token that carries it. -/
def listedToken : Token := .str (compactText listHeader listedList listedSignature)

theorem listed_judged : ∃ root,
    judge listedCall 1800000000000000 "r" [()] (.ok listedToken) = .ok (.ok root) ∧
      (root.services.length, root.pointers.length) = (1, 0) := by
  refine judge_signed ?_ ?_ (by decide +kernel)
  · conv in loadsBytes _ =>
      unfold listedList listText operatorIdentity operatorBase64
      simp only [List.flatMap_cons, List.flatMap_nil]
      repeat rw [lit_ofList]
    decide +kernel
  · unfold listedList listText operatorIdentity operatorBase64
    simp only [List.flatMap_cons, List.flatMap_nil]
    repeat rw [lit_ofList]
    decide +kernel

theorem listed_walked : ∃ l set, Traced (walkLote listedCall) l (.ok set) ∧
    set.anchors.length = 1 := by
  obtain ⟨root, hroot, hcounts⟩ := listed_judged
  obtain ⟨hservices, hpointers⟩ := Prod.mk.inj hcounts
  obtain ⟨l, h, hserved⟩ := exists_traced_served (fun _ => .ok listedToken) (walkLote listedCall)
  have hnow : utcInstant (signedEnv listedList listedSignature).interpreter listedCall.now
      .trustListError = .ok 1800000000000000 := rfl
  obtain ⟨r, rest, rfl, hwalk⟩ := traced_walkLote hnow h
  obtain rfl : r = .ok listedToken := hserved _ List.mem_cons_self
  rcases hwalk with ⟨e, he, -⟩ | ⟨admission, hadmission, hrest⟩
  · exact absurd (hroot.symm.trans he) (by simp)
  obtain rfl : admission = .ok root := Except.ok.inj (hadmission.symm.trans hroot)
  have hnone : followed (decisionOn listedCall) ⟨[listedCall.loteUrl], 1⟩ root.pointers = [] := by
    rw [List.eq_nil_of_length_eq_zero hpointers]
    rfl
  rcases traced_walkPointers hrest with ⟨set, as, hset, hwalked⟩ | ⟨e, -, p, hp, -⟩
  · rw [hnone] at hwalked
    obtain rfl : as = [] := by
      have hvisits := hwalked.visits
      cases hvisits
      rfl
    refine ⟨_, set, hset ▸ h, ?_⟩
    rw [hwalked.anchors, List.flatMap_nil, List.append_nil]
    have hall : selected listedCall.selection root = root.services :=
      List.filter_eq_self.mpr fun _ _ => rfl
    rw [hall, hservices]
  · rw [hnone] at hp
    cases hp

end Lote

/-- A walk over two dated lists, and one whose root has an anchor of its own. -/
theorem walks_authentic_served :
    (∃ l set, Tsl.AllDated (Tsl.acceptingCall Tsl.dated) l ∧
      Traced (Tsl.walkLotl (Tsl.acceptingCall Tsl.dated)) l (.ok set) ∧ set.anchors.length = 1 ∧
      Tsl.Authentic (Tsl.acceptingCall Tsl.dated) 1800000000000000 l set) ∧
    ∃ l set, Traced (Lote.walkLote Lote.listedCall) l (.ok set) ∧ set.anchors.length = 1 ∧
      Lote.Authentic Lote.listedCall 1800000000000000 l set := by
  obtain ⟨hxml, hjson⟩ := walks_authentic 1800000000000000
  constructor
  · obtain ⟨set, hset, hlength⟩ := Tsl.dated_walked
    obtain ⟨l, htraced, hserved⟩ := exists_traced_served
      (Tsl.servesPair Tsl.datedRoot Tsl.datedList) (Tsl.walkLotl (Tsl.acceptingCall Tsl.dated))
    rw [hset] at htraced
    have hdated := Tsl.dated_allDated hserved
    exact ⟨l, set, hdated, htraced, hlength, hxml _ _ l set rfl htraced hdated⟩
  · obtain ⟨l, set, htraced, hlength⟩ := Lote.listed_walked
    exact ⟨l, set, htraced, hlength, hjson _ _ l set rfl htraced⟩

/-! ## A list without a `NextUpdate` -/

namespace Tsl

/-- A list of lists without a `NextUpdate`. -/
def undatedRoot : Document := listDocument pointerElement ([], [])

/-- The list it points to, without one either. -/
def undatedList : Document := listDocument ([], []) providerElement

/-- The documents of that server. -/
def undated : List Document := [undatedRoot, undatedList]

theorem undatedRoot_parsed : ∃ root,
    parseTrustList (listEnv undated) undatedRoot.1 (acceptingCall undated).maxBytes = .ok root ∧
      root.nextUpdate.isNone = true :=
  exists_ok_of_map (by decide +kernel)

theorem undated_walked : ∃ set,
    (walkLotl (acceptingCall undated)).eval (servesPair undatedRoot undatedList) = .ok set ∧
      set.anchors.length = 1 :=
  exists_ok_of_map (by decide +kernel)

/-- A walk whose lists have no `NextUpdate` returns an anchor. -/
theorem undated_not_authentic :
    utcInstant (listEnv undated).interpreter none .trustListError = .ok 1800000000000000 ∧
    ∃ l set, Traced (walkLotl (acceptingCall undated)) l (.ok set) ∧
      ¬ Authentic (acceptingCall undated) 1800000000000000 l set := by
  obtain ⟨root, hroot, hnone⟩ := undatedRoot_parsed
  obtain ⟨set, hset, hlength⟩ := undated_walked
  have htraced := traced_eval (servesPair undatedRoot undatedList) (walkLotl (acceptingCall undated))
  rw [hset] at htraced
  refine ⟨rfl, _, set, htraced, fun hauthentic => ?_⟩
  obtain ⟨a, ha⟩ := List.exists_mem_of_length_pos (by omega : 0 < set.anchors.length)
  obtain ⟨xml, root', rest, hl, ⟨-, hparsed⟩, ⟨next, hnext, -⟩, -⟩ := hauthentic a ha
  have hmem : (⟨lit "r", .ok xml⟩ : Fetched Bytes) ∈ _ := hl ▸ List.mem_cons_self
  obtain ⟨url, -, hserved⟩ := List.mem_map.mp hmem
  cases hserved
  rw [if_pos rfl, hroot] at hparsed
  cases hparsed
  rw [hnext] at hnone
  cases hnone

end Tsl

end OpenVC
