import OpenVC.TrustList.Proofs.AuthenticProofs
import OpenVC.TrustList.Proofs.LoteTypedProofs

/-!
# A bad list is isolated

A list that a walk follows contributes the anchors that its own bytes give it, whatever the other
lists hold, and one that is refused is a problem at its location. The walk returns, as long as no
list raises what the `except` clauses do not catch.
-/

namespace OpenVC

open Python TrustList Calling

namespace TrustList

variable {Cert R : Type} {judge : TslPointer Cert → Result R → Result (Admission Cert)}
  {select : Option Select}

/-- The anchors of the list of one pointer, from the outcome of its fetch. -/
def contributed (judge : TslPointer Cert → Result R → Result (Admission Cert))
    (select : Option Select) (p : TslPointer Cert) (r : Result R) : List (TrustServiceAnchor Cert) :=
  match judge p r with
  | .ok a => anchorsOf select a
  | .error _ => []

/-- The anchors of the lists of some pointers, in their order. -/
def contributions (judge : TslPointer Cert → Result R → Result (Admission Cert))
    (select : Option Select) (ps : List (TslPointer Cert)) (l : List (Fetched R)) :
    List (TrustServiceAnchor Cert) :=
  (List.zipWith (fun p f => contributed judge select p f.2) ps l).flatten

theorem Visits.contributions_eq {ps : List (TslPointer Cert)} {l : List (Fetched R)}
    {as : List (Admission Cert)} (h : Visits judge ps l as) :
    as.flatMap (anchorsOf select) = contributions judge select ps l := by
  induction h with
  | nil => rfl
  | cons ha _ ih =>
    rw [List.flatMap_cons, ih, contributions, contributions, List.zipWith_cons_cons,
      List.flatten_cons, contributed, ha]

theorem Visits.locations {ps : List (TslPointer Cert)} {l : List (Fetched R)}
    {as : List (Admission Cert)} (h : Visits judge ps l as) :
    l.map (·.1) = ps.map (·.location) := by
  induction h with
  | nil => rfl
  | cons _ _ ih => rw [List.map_cons, List.map_cons, ih]

theorem Visits.exists_of_mem_zip {ps : List (TslPointer Cert)} {l : List (Fetched R)}
    {as : List (Admission Cert)} (h : Visits judge ps l as) {p : TslPointer Cert} {f : Fetched R}
    (hmem : (p, f) ∈ ps.zip l) : ∃ a ∈ as, judge p f.2 = .ok a := by
  induction h with
  | nil => cases hmem
  | cons ha _ ih =>
    rcases List.mem_cons.mp hmem with heq | hmem
    · cases heq
      exact ⟨_, List.mem_cons_self, ha⟩
    · obtain ⟨a, ha, hadmit⟩ := ih hmem
      exact ⟨a, List.mem_cons_of_mem _ ha, hadmit⟩

/-- The list of a pointer cannot be used: it was not fetched, not consumed, or is stale. -/
inductive Unusable (consume : R → Result (TrustedList Cert)) (stale : TrustedList Cert → Prop) :
    Result R → Prop
  | unfetched (e : Err) : Unusable consume stale (.error e)
  | refused {served : R} {e : Err} (h : consume served = .error e) :
      Unusable consume stale (.ok served)
  | stale {served : R} {list : TrustedList Cert} (h : consume served = .ok list) (hs : stale list) :
      Unusable consume stale (.ok served)

/-- A list that cannot be used is a problem at its URL. -/
theorem problem_of_unusable {url : Str} {stage : Err → Str} {consume : R → Result (TrustedList Cert)}
    {current : TrustedList Cert → Result (Admission Cert)} {stale : TrustedList Cert → Prop}
    (hstale : ∀ list a, stale list → current list = .ok a →
      ∃ problem, a = .error problem ∧ problem.location = url)
    {r : Result R} (h : Unusable consume stale r) {a : Admission Cert}
    (ha : admitFetched url stage consume current r = .ok a) :
    ∃ problem, a = .error problem ∧ problem.location = url := by
  cases h with
  | unfetched e =>
    cases ha
    exact ⟨_, rfl, rfl⟩
  | refused h =>
    simp only [admitFetched, h] at ha
    split at ha
    · cases ha
      exact ⟨_, rfl, rfl⟩
    · cases ha
  | stale h hs =>
    simp only [admitFetched, h] at ha
    exact hstale _ a hs ha

/-- What the lists of some pointers do to a walk that goes over them. -/
structure Isolated (judge : TslPointer Cert → Result R → Result (Admission Cert))
    (unusable : TslPointer Cert → Result R → Prop) (select : Option Select)
    (ps : List (TslPointer Cert)) (l : List (Fetched R)) (before : List (TrustServiceAnchor Cert))
    (set : TrustAnchorSet Cert) : Prop where
  fetches : l.map (·.1) = ps.map (·.location)
  anchors : set.anchors = before ++ contributions judge select ps l
  problems : ∀ p f, (p, f) ∈ ps.zip l → unusable p f.2 →
    contributed judge select p f.2 = [] ∧ ∃ problem ∈ set.problems, problem.location = p.location

theorem isolated_of_walked {unusable : TslPointer Cert → Result R → Prop}
    (hunusable : ∀ p r a, unusable p r → judge p r = .ok a →
      ∃ problem, a = .error problem ∧ problem.location = p.location)
    {ps : List (TslPointer Cert)} {l : List (Fetched R)} {as : List (Admission Cert)}
    {set set' : TrustAnchorSet Cert} (h : Walked judge select ps l set set' as) :
    Isolated judge unusable select ps l set.anchors set' where
  fetches := h.visits.locations
  anchors := by rw [h.anchors, h.visits.contributions_eq]
  problems p f hmem hbad := by
    obtain ⟨a, ha, hadmit⟩ := h.visits.exists_of_mem_zip hmem
    obtain ⟨problem, rfl, hlocation⟩ := hunusable p f.2 a hbad hadmit
    refine ⟨?_, problem, h.problems problem ha, hlocation⟩
    rw [contributed, hadmit]
    rfl

/-- Two walks that differ in the outcome of one fetch: the other lists contribute the same anchors, in
the same order. -/
def OthersKept (judge : TslPointer Cert → Result R → Result (Admission Cert))
    (select : Option Select) (before : List (TrustServiceAnchor Cert)) (l₁ l₂ : List (Fetched R))
    (r r' : Result R) (set set' : TrustAnchorSet Cert) : Prop :=
  ∃ ps₁ p ps₂, ps₁.length = l₁.length ∧
    set.anchors = before ++ contributions judge select ps₁ l₁ ++ contributed judge select p r ++
      contributions judge select ps₂ l₂ ∧
    set'.anchors = before ++ contributions judge select ps₁ l₁ ++ contributed judge select p r' ++
      contributions judge select ps₂ l₂

theorem Isolated.othersKept {unusable : TslPointer Cert → Result R → Prop}
    {ps : List (TslPointer Cert)} {l₁ l₂ : List (Fetched R)} {url : Str} {r r' : Result R}
    {before : List (TrustServiceAnchor Cert)} {set set' : TrustAnchorSet Cert}
    (h : Isolated judge unusable select ps (l₁ ++ ⟨url, r⟩ :: l₂) before set)
    (h' : Isolated judge unusable select ps (l₁ ++ ⟨url, r'⟩ :: l₂) before set') :
    OthersKept judge select before l₁ l₂ r r' set set' := by
  have hlength := congrArg List.length h.fetches
  rw [List.length_map, List.length_map, List.length_append, List.length_cons] at hlength
  obtain ⟨ps₁, rest, rfl, hlen⟩ : ∃ ps₁ rest, ps = ps₁ ++ rest ∧ ps₁.length = l₁.length :=
    ⟨ps.take l₁.length, ps.drop l₁.length, (List.take_append_drop _ _).symm,
      List.length_take_of_le (by omega)⟩
  cases rest with
  | nil =>
    rw [List.append_nil] at hlength
    omega
  | cons p ps₂ =>
    have hsplit : ∀ r, contributions judge select (ps₁ ++ p :: ps₂) (l₁ ++ ⟨url, r⟩ :: l₂) =
        contributions judge select ps₁ l₁ ++ (contributed judge select p r ++
          contributions judge select ps₂ l₂) := by
      intro r
      rw [contributions, List.zipWith_append hlen, List.zipWith_cons_cons, List.flatten_append,
        List.flatten_cons]
      rfl
    refine ⟨ps₁, p, ps₂, hlen, ?_, ?_⟩
    · rw [h.anchors, hsplit, List.append_assoc, List.append_assoc]
    · rw [h'.anchors, hsplit, List.append_assoc, List.append_assoc]

end TrustList

/-! ## XML -/

namespace Tsl

section Parse

variable {E : Env}

/-- `expat` finds a root element in what it reads to the end. -/
def FindsRoot (E : Env) : Prop :=
  ∀ xml builder, (E.expat xml).failure = none →
    enumerateLoop TreeBuilder.handle {} 0 (E.expat xml).events = .ok builder →
    builder.root.isSome = true

theorem typed_handle (b : TreeBuilder) (i : Nat) (event : XmlEvent) :
    Typed .trustListError (b.handle i event) := by
  cases event with
  | doctype => exact typed_raise rfl
  | startElement name attrs => exact (typed_raiseIf rfl).bind fun _ _ => raisesOnly_pure
  | endElement => exact raisesOnly_ok
  | characterData data => exact raisesOnly_ok

/-- The parse raises `TrustListError` only, but for an exception of `expat` that is no
`ExpatError`. -/
theorem typed_parseTrustList (hroot : FindsRoot E) {xml : Bytes} (maxBytes : Int)
    (hexpat : ∀ e, (E.expat xml).failure ≠ some (.inr e)) :
    Typed .trustListError (parseTrustList E xml maxBytes) := by
  refine RaisesOnly.bind ?_ fun root _ => (typed_raiseIf rfl).bind fun _ _ => raisesOnly_pure
  refine (typed_raiseIf rfl).bind fun _ _ => ?_
  refine RaisesOnly.bind ?_ fun builder hbuilder => ?_
  · exact RaisesOnly.enumerateLoop (fun b i event _ => typed_handle b i event) _ _
  · refine RaisesOnly.bind ?_ fun _ hended => raisesOnly_orRaise.mpr fun hnone => ?_
    · unfold expatOutcome
      split
      · exact raisesOnly_ok
      · exact typed_raise rfl
      · rename_i e he
        exact absurd he (hexpat e)
    · have hfailure : (E.expat xml).failure = none := by
        unfold expatOutcome at hended
        split at hended
        · assumption
        · cases hended
        · cases hended
      have hsome := hroot xml builder hfailure hbuilder
      rw [hnone] at hsome
      cases hsome

end Parse

section Walk

variable {E : Env} {call : Call E} {now : Int}

/-- The callback accepts the bytes under the certificates. -/
def Authenticates (call : Call E) (certs : List (Cert E)) (xml : Bytes) : Prop :=
  ∃ verify, call.verifySignature = some verify ∧ verify xml certs = .ok ()

/-- `expat` raises no exception but `ExpatError` on the bytes, and the `NextUpdate` that is read from
them, if any, has a time zone. -/
structure Regular (E : Env) (maxBytes : Int) (xml : Bytes) : Prop where
  expat : ∀ e, (E.expat xml).failure ≠ some (.inr e)
  zoned : ∀ list next, parseTrustList E xml maxBytes = .ok list → list.nextUpdate = some next →
    next.offset.isSome = true

/-- Each list that was served for a followed pointer and is authenticated under its certificates is
regular. -/
def AllRegular (call : Call E) (root : TrustedList (Cert E)) (l : List (Fetched Bytes)) : Prop :=
  ∀ p ∈ followed (decisionOn call.select) () root.pointers, ∀ xml, ⟨p.location, .ok xml⟩ ∈ l →
    Authenticates call p.signerCerts xml → Regular E call.maxBytes xml

/-- A `NextUpdate` in the past. -/
def Stale {Cert : Type} (now : Int) (list : TrustedList Cert) : Prop :=
  ∃ next, list.nextUpdate = some next ∧ next.instant < now

/-- The list of a pointer cannot be fetched, authenticated or parsed, or is stale. -/
abbrev Bad (call : Call E) (now : Int) (p : TslPointer (Cert E)) : Result Bytes → Prop :=
  Unusable (consumeTrustList E call.verifySignature p.signerCerts call.maxBytes) (Stale now)

theorem problem_of_stale {url : Str} {detail : String} {list : TrustedList (Cert E)}
    {a : Admission (Cert E)} (hs : Stale now list) (h : admitCurrent url detail now list = .ok a) :
    ∃ problem, a = .error problem ∧ problem.location = url := by
  obtain ⟨next, hnext, hlt⟩ := hs
  unfold admitCurrent expired at h
  rw [hnext] at h
  obtain ⟨isExpired, hexpired, h⟩ := bind_eq_ok.mp h
  obtain ⟨⟨⟩, -, hexpired⟩ := bind_eq_ok.mp hexpired
  rw [decide_eq_true hlt] at hexpired
  cases hexpired
  cases h
  exact ⟨_, rfl, rfl⟩

/-- A regular list raises nothing that ends the walk. -/
theorem admitPointed_ne_error (hroot : FindsRoot E) {p : TslPointer (Cert E)} {r : Result Bytes}
    (hregular : ∀ xml, r = .ok xml → Authenticates call p.signerCerts xml →
      Regular E call.maxBytes xml) (e : Err) : admitPointed call now p r ≠ .error e := by
  intro h
  obtain ⟨xml, rfl, ⟨hconsume, hcls⟩ | ⟨list, hlist, hcurrent⟩⟩ := admitFetched_eq_error.mp h
  · have htyped : Typed .trustListError
        (consumeTrustList E call.verifySignature p.signerCerts call.maxBytes xml) := by
      refine (typed_orRaise rfl).bind fun verify hverify => ?_
      refine RaisesOnly.bind ?_ fun _ hok => ?_
      · refine (typed_reraise rfl).mpr fun e _ => ?_
        cases hisa : e.cls.isa .trustListError with
        | true => exact .inr hisa
        | false => exact .inl (by simp [hisa])
      · have hauth : Authenticates call p.signerCerts xml :=
          ⟨verify, orRaise_eq_ok.mp hverify, reraise_eq_ok.mp hok⟩
        exact typed_parseTrustList hroot _ (hregular xml rfl hauth).expat
    rw [htyped e hconsume] at hcls
    cases hcls
  · obtain ⟨hauth, hparsed⟩ := vouched_of_consumeTrustList hlist
    have hzoned := (hregular xml rfl hauth).zoned list
    have hexpired : ∃ isExpired, expired list now = .ok isExpired := by
      unfold expired
      cases hnext : list.nextUpdate with
      | none => exact ⟨false, rfl⟩
      | some next =>
        have hoffset := Option.isNone_eq_false_iff.mpr (hzoned next hparsed hnext)
        exact ⟨_, bind_eq_ok.mpr ⟨(), raiseIf_eq_ok.mpr hoffset, rfl⟩⟩
    obtain ⟨isExpired, hexpired⟩ := hexpired
    unfold admitCurrent at hcurrent
    rw [hexpired] at hcurrent
    cases hcurrent

/-- A walk whose root is admitted and that returns went over the pointers it follows. -/
theorem isolated_of_traced (hnow : utcInstant E.interpreter call.now .trustListError = .ok now)
    {r : Result Bytes} {rest : List (Fetched Bytes)} {root : TrustedList (Cert E)}
    {result : Result (TrustAnchorSet (Cert E))} (hroot : admitRoot call now r = .ok (.ok root))
    (h : Traced (walkLotl call) (⟨call.lotlUrl, r⟩ :: rest) result) :
    let ps := followed (decisionOn call.select) () root.pointers
    (∃ set, result = .ok set ∧
      Isolated (admitPointed call now) (Bad call now) call.select ps rest [] set) ∨
      ∃ e, result = .error e ∧ Aborted (admitPointed call now) ps rest e := by
  obtain ⟨r', rest', hl, hcase⟩ := traced_walkLotl hnow h
  cases hl
  rcases hcase with ⟨e, he, -⟩ | ⟨root', hroot', hrest⟩
  · rw [hroot] at he
    cases he
  · rw [hroot] at hroot'
    cases hroot'
    rcases traced_walkPointers hrest with ⟨set, as, hset, hw⟩ | haborted
    · refine .inl ⟨set, hset, isolated_of_walked (fun p r a hbad ha => ?_) hw⟩
      exact problem_of_unusable (fun list a hs hc => problem_of_stale hs hc) hbad ha
    · exact .inr haborted

theorem walkLotl_isolated (hnow : utcInstant E.interpreter call.now .trustListError = .ok now)
    (hfinds : FindsRoot E) {r : Result Bytes} {rest : List (Fetched Bytes)}
    {root : TrustedList (Cert E)} {result : Result (TrustAnchorSet (Cert E))}
    (hroot : admitRoot call now r = .ok (.ok root))
    (h : Traced (walkLotl call) (⟨call.lotlUrl, r⟩ :: rest) result)
    (hregular : AllRegular call root rest) :
    ∃ set, result = .ok set ∧ Isolated (admitPointed call now) (Bad call now) call.select
      (followed (decisionOn call.select) () root.pointers) rest [] set := by
  rcases isolated_of_traced hnow hroot h with hset | ⟨e, -, p, hp, r', hr', he⟩
  · exact hset
  · refine absurd he (admitPointed_ne_error hfinds (fun xml hxml hauth => ?_) e)
    exact hregular p hp xml (hxml ▸ hr') hauth

end Walk

end Tsl

/-! ## JSON -/

namespace Lote

variable {E : Env} {call : WalkCall E} {now : Int}

/-- The signing certificate of each list that was served for a followed pointer and is authenticated
under its certificates can be read. -/
def AllReadable (call : WalkCall E) (now : Int) (root : TrustedList (Cert E))
    (l : List (Fetched Token)) : Prop :=
  ∀ p ∈ followed (decisionOn call) ⟨[call.loteUrl], 1⟩ root.pointers, ∀ token,
    ⟨p.location, .ok token⟩ ∈ l → ∀ jws chain, readToken token call.maxBytes = .ok jws →
      signerChain E jws.header = .ok chain →
      authenticateSigner E chain p.signerCerts (some ⟨now, some 0⟩) = .ok () → Readable E chain.1

/-- A list that is closed, or whose `NextUpdate` is in the past. -/
def Stale {Cert : Type} (now : Int) (list : TrustedList Cert) : Prop :=
  list.nextUpdate = none ∨ Tsl.Stale now list

/-- The list of a pointer cannot be fetched, authenticated or parsed, or is stale. -/
abbrev Bad (call : WalkCall E) (now : Int) (p : TslPointer (Cert E)) : Result Token → Prop :=
  Unusable (consumeLote E (call.consumption now p.signerCerts)) (Stale now)

theorem problem_of_stale {url : Str} {list : TrustedList (Cert E)} {a : Admission (Cert E)}
    (hs : Stale now list) (h : admitCurrent url now list = .ok a) :
    ∃ problem, a = .error problem ∧ problem.location = url := by
  unfold admitCurrent at h
  rcases hs with hnext | ⟨next, hnext, hlt⟩
  · rw [hnext] at h
    cases h
    exact ⟨_, rfl, rfl⟩
  · rw [hnext] at h
    obtain ⟨⟨⟩, -, h⟩ := bind_eq_ok.mp h
    rw [if_pos hlt] at h
    cases h
    exact ⟨_, rfl, rfl⟩

/-- The strict parse reads a `NextUpdate` in UTC. -/
theorem zoned_of_consumeLote {certs : List (Cert E)} {token : Token} {list : TrustedList (Cert E)}
    (h : consumeLote E (call.consumption now certs) token = .ok list) {next : DateTime}
    (hnext : list.nextUpdate = some next) : next.offset.isNone = false := by
  obtain ⟨jws, alg, chain, hvouched⟩ := vouched_of_consumeLote h
  obtain ⟨lote, scheme, hparsed⟩ := parsed_of_parseLoteObject hvouched.parsed
  rcases hparsed.next with ⟨-, hnone⟩ | ⟨d, -, hsome⟩
  · rw [hnext] at hnone
    cases hnone
  · rw [hnext] at hsome
    cases hsome
    rfl

/-- A list whose signer can be read raises nothing that ends the walk. -/
theorem admitPointed_ne_error (hfits : ∀ profile, call.profile = some profile → WindowFits profile)
    {p : TslPointer (Cert E)} {r : Result Token}
    (hreadable : ∀ token, r = .ok token → ∀ jws chain, readToken token call.maxBytes = .ok jws →
      signerChain E jws.header = .ok chain →
      authenticateSigner E chain p.signerCerts (some ⟨now, some 0⟩) = .ok () → Readable E chain.1)
    (e : Err) : admitPointed call now p r ≠ .error e := by
  intro h
  obtain ⟨token, rfl, ⟨hconsume, hcls⟩ | ⟨list, hlist, hcurrent⟩⟩ := admitFetched_eq_error.mp h
  · have htyped : Typed .trustListError
        (consumeLote E (call.consumption now p.signerCerts) token) :=
      typed_consumeLote hfits (hreadable token rfl)
    rw [htyped e hconsume] at hcls
    cases hcls
  · unfold admitCurrent at hcurrent
    cases hnext : list.nextUpdate with
    | none =>
      rw [hnext] at hcurrent
      cases hcurrent
    | some next =>
      rw [hnext] at hcurrent
      dsimp only at hcurrent
      rw [zoned_of_consumeLote hlist hnext] at hcurrent
      cases hcurrent

/-- A walk whose root is admitted goes over the pointers it follows, or a list ends it. -/
theorem isolated_of_traced (hnow : utcInstant E.interpreter call.now .trustListError = .ok now)
    {r : Result Token} {rest : List (Fetched Token)} {root : TrustedList (Cert E)}
    {result : Result (TrustAnchorSet (Cert E))}
    (hroot : judge call now call.loteUrl call.loteSignerCerts r = .ok (.ok root))
    (h : Traced (walkLote call) (⟨call.loteUrl, r⟩ :: rest) result) :
    let ps := followed (decisionOn call) ⟨[call.loteUrl], 1⟩ root.pointers
    (∃ set, result = .ok set ∧ Isolated (admitPointed call now) (Bad call now) call.selection ps rest
      (selected call.selection root) set) ∨
      ∃ e, result = .error e ∧ Aborted (admitPointed call now) ps rest e := by
  obtain ⟨r', rest', hl, hcase⟩ := traced_walkLote hnow h
  cases hl
  rcases hcase with ⟨e, he, -⟩ | ⟨root', hroot', hrest⟩
  · rw [hroot] at he
    cases he
  · rw [hroot] at hroot'
    cases hroot'
    rcases traced_walkPointers hrest with ⟨set, as, hset, hw⟩ | haborted
    · refine .inl ⟨set, hset, isolated_of_walked (fun p r a hbad ha => ?_) hw⟩
      exact problem_of_unusable (fun list a hs hc => problem_of_stale hs hc) hbad ha
    · exact .inr haborted

theorem walkLote_isolated (hnow : utcInstant E.interpreter call.now .trustListError = .ok now)
    (hfits : ∀ profile, call.profile = some profile → WindowFits profile)
    {r : Result Token} {rest : List (Fetched Token)} {root : TrustedList (Cert E)}
    {result : Result (TrustAnchorSet (Cert E))}
    (hroot : judge call now call.loteUrl call.loteSignerCerts r = .ok (.ok root))
    (h : Traced (walkLote call) (⟨call.loteUrl, r⟩ :: rest) result)
    (hreadable : AllReadable call now root rest) :
    ∃ set, result = .ok set ∧ Isolated (admitPointed call now) (Bad call now) call.selection
      (followed (decisionOn call) ⟨[call.loteUrl], 1⟩ root.pointers) rest
      (selected call.selection root) set := by
  rcases isolated_of_traced hnow hroot h with hset | ⟨e, -, p, hp, r', hr', he⟩
  · exact hset
  · refine absurd he (admitPointed_ne_error hfits (fun token htoken => ?_) e)
    exact hreadable p hp token (htoken ▸ hr')

end Lote

/-- Under an authenticated and current root a walk returns, a list that cannot be used contributes no
anchor and is a problem at its location, and another outcome of one fetch leaves what the other lists
contribute: in XML, where every authenticated list is regular; in JSON, where the certificate that
signs an authenticated list can be read. -/
theorem walks_isolated (now : Int) :
    (∀ (E : Tsl.Env) (call : Tsl.Call E) (r : Result Bytes)
      (root : TrustedList (Tsl.Cert E)), Tsl.FindsRoot E →
      utcInstant E.interpreter call.now .trustListError = .ok now →
      Tsl.admitRoot call now r = .ok (.ok root) →
      (∀ rest result, Traced (Tsl.walkLotl call) (⟨call.lotlUrl, r⟩ :: rest) result →
        Tsl.AllRegular call root rest → ∃ set, result = .ok set ∧
          Isolated (Tsl.admitPointed call now) (Tsl.Bad call now) call.select
            (followed (Tsl.decisionOn call.select) () root.pointers) rest [] set) ∧
      ∀ l₁ l₂ url x y set set',
        Traced (Tsl.walkLotl call) (⟨call.lotlUrl, r⟩ :: (l₁ ++ ⟨url, x⟩ :: l₂)) (.ok set) →
        Traced (Tsl.walkLotl call) (⟨call.lotlUrl, r⟩ :: (l₁ ++ ⟨url, y⟩ :: l₂)) (.ok set') →
        OthersKept (Tsl.admitPointed call now) call.select [] l₁ l₂ x y set set') ∧
    ∀ (E : Lote.Env) (call : Lote.WalkCall E) (r : Result Lote.Token)
      (root : TrustedList (Lote.Cert E)),
      (∀ profile, call.profile = some profile → Lote.WindowFits profile) →
      utcInstant E.interpreter call.now .trustListError = .ok now →
      Lote.judge call now call.loteUrl call.loteSignerCerts r = .ok (.ok root) →
      (∀ rest result, Traced (Lote.walkLote call) (⟨call.loteUrl, r⟩ :: rest) result →
        Lote.AllReadable call now root rest → ∃ set, result = .ok set ∧
          Isolated (Lote.admitPointed call now) (Lote.Bad call now) call.selection
            (followed (Lote.decisionOn call) ⟨[call.loteUrl], 1⟩ root.pointers) rest
            (selected call.selection root) set) ∧
      ∀ l₁ l₂ url x y set set',
        Traced (Lote.walkLote call) (⟨call.loteUrl, r⟩ :: (l₁ ++ ⟨url, x⟩ :: l₂)) (.ok set) →
        Traced (Lote.walkLote call) (⟨call.loteUrl, r⟩ :: (l₁ ++ ⟨url, y⟩ :: l₂)) (.ok set') →
        OthersKept (Lote.admitPointed call now) call.selection (selected call.selection root) l₁ l₂ x
          y set set' := by
  constructor
  · intro E call r root hfinds hnow hroot
    refine ⟨fun rest result h hregular => Tsl.walkLotl_isolated hnow hfinds hroot h hregular, ?_⟩
    intro l₁ l₂ url x y set set' h h'
    obtain ⟨s, hs, hiso⟩ | ⟨e, he, -⟩ := Tsl.isolated_of_traced hnow hroot h
    · obtain ⟨s', hs', hiso'⟩ | ⟨e, he, -⟩ := Tsl.isolated_of_traced hnow hroot h'
      · cases hs
        cases hs'
        exact hiso.othersKept hiso'
      · cases he
    · cases he
  · intro E call r root hfits hnow hroot
    refine ⟨fun rest result h hreadable => Lote.walkLote_isolated hnow hfits hroot h hreadable, ?_⟩
    intro l₁ l₂ url x y set set' h h'
    obtain ⟨s, hs, hiso⟩ | ⟨e, he, -⟩ := Lote.isolated_of_traced hnow hroot h
    · obtain ⟨s', hs', hiso'⟩ | ⟨e, he, -⟩ := Lote.isolated_of_traced hnow hroot h'
      · cases hs
        cases hs'
        exact hiso.othersKept hiso'
      · cases he
    · cases he

/-! ## Walks over two lists -/

namespace TrustList

section Apart

variable {Cert R : Type} {judge : TslPointer Cert → Result R → Result (Admission Cert)}
  {unusable : TslPointer Cert → Result R → Prop} {select : Option Select}
  {ps : List (TslPointer Cert)} {before : List (TrustServiceAnchor Cert)}

/-- A server with a root at `r` and one list everywhere else, where `u` may be down. -/
def serves (first served : R) (down : Bool) (url : Str) : Result R :=
  if url = lit "r" then .ok first
  else if down = true ∧ url = lit "u" then .error ⟨.exception, "unreachable", []⟩ else .ok served

theorem serves_root {first served : R} {down : Bool} :
    serves first served down (lit "r") = .ok first := if_pos rfl

/-- A walk over the lists at `t` and `u`, and one where `u` is down. -/
def Apart (judge : TslPointer Cert → Result R → Result (Admission Cert))
    (unusable : TslPointer Cert → Result R → Prop) (select : Option Select)
    (ps : List (TslPointer Cert)) (before : List (TrustServiceAnchor Cert)) (first served : R) :
    Prop :=
  ∃ set set', Isolated judge unusable select ps [⟨lit "t", .ok served⟩, ⟨lit "u", .ok served⟩] before
      set ∧
    OthersKept judge select before [⟨lit "t", .ok served⟩] [] (.ok served)
      (serves first served true (lit "u")) set set'

theorem apart_of_walks {first served : R}
    {Runs : List (Fetched R) → Result (TrustAnchorSet Cert) → Prop}
    (hlocations : ps.map (·.location) = [lit "t", lit "u"])
    (hserved : ∀ down, ∃ rest result, Runs rest result ∧
      ∀ f ∈ rest, f.2 = serves first served down f.1)
    (hwalked : ∀ rest result, Runs rest result →
      (∀ f ∈ rest, ∀ x, f.2 = .ok x → x = first ∨ x = served) →
      ∃ set, result = .ok set ∧ Isolated judge unusable select ps rest before set)
    (hothers : ∀ l₁ l₂ url x y set set', Runs (l₁ ++ ⟨url, x⟩ :: l₂) (.ok set) →
      Runs (l₁ ++ ⟨url, y⟩ :: l₂) (.ok set') → OthersKept judge select before l₁ l₂ x y set set') :
    Apart judge unusable select ps before first served := by
  have hruns : ∀ down, ∃ set, Runs [⟨lit "t", .ok served⟩,
      ⟨lit "u", serves first served down (lit "u")⟩] (.ok set) ∧ Isolated judge unusable select ps
        [⟨lit "t", .ok served⟩, ⟨lit "u", serves first served down (lit "u")⟩] before set := by
    intro down
    obtain ⟨rest, result, hrun, hrest⟩ := hserved down
    obtain ⟨set, hset, hisolated⟩ := hwalked rest _ hrun fun f hf x hx => by
      rw [hrest f hf, serves] at hx
      split at hx
      · cases hx
        exact .inl rfl
      · split at hx
        · cases hx
        · cases hx
          exact .inr rfl
    have heq : rest = [⟨lit "t", serves first served down (lit "t")⟩,
        ⟨lit "u", serves first served down (lit "u")⟩] := by
      have hmap : rest = (rest.map (·.1)).map fun url => ⟨url, serves first served down url⟩ := by
        rw [List.map_map]
        refine (List.map_id rest).symm.trans (List.map_congr_left fun f hf => ?_)
        rw [id, Function.comp_apply, ← hrest f hf]
      rw [hmap, hisolated.fetches, hlocations]
      rfl
    have ht : serves first served down (lit "t") = .ok served := by
      have hr : lit "t" ≠ lit "r" := by decide
      have hu : lit "t" ≠ lit "u" := by decide
      rw [serves, if_neg hr, if_neg fun h => hu h.2]
    rw [heq, ht] at hrun hisolated
    exact ⟨set, hset ▸ hrun, hisolated⟩
  obtain ⟨set, hrun, hisolated⟩ := hruns false
  obtain ⟨set', hrun', -⟩ := hruns true
  have hup : serves first served false (lit "u") = .ok served := by
    have hr : lit "u" ≠ lit "r" := by decide
    rw [serves, if_neg hr, if_neg (by simp)]
  rw [hup] at hrun hisolated
  exact ⟨set, set', hisolated, hothers [_] [] (lit "u") _ _ set set' hrun hrun'⟩

end Apart

end TrustList

namespace Tsl

section Served

variable {E : Env} {call : Call E} {now : Int}

/-- The walk asks a server for the root first. -/
theorem served_walkLotl (hnow : utcInstant E.interpreter call.now .trustListError = .ok now)
    {serve : Str → Result Bytes} {r : Result Bytes} (hr : serve call.lotlUrl = r) : ∃ rest result,
      Traced (walkLotl call) (⟨call.lotlUrl, r⟩ :: rest) result ∧ ∀ f ∈ rest, f.2 = serve f.1 := by
  obtain ⟨l, h, hserved⟩ := exists_traced_served serve (walkLotl call)
  obtain ⟨r', rest, rfl, -⟩ := traced_walkLotl hnow h
  obtain rfl : r' = r := (hserved _ List.mem_cons_self).trans hr
  exact ⟨rest, _, h, fun f hf => hserved f (List.mem_cons_of_mem _ hf)⟩

end Served

/-- A pointer to the list at a URL. -/
def pointerTo (url : String) : Document :=
  element "OtherTSLPointer" "" (element "TSLLocation" "" (characters url))

/-- A current list of two lists. -/
def pairRoot : Document :=
  listDocument ((nextUpdateElement "2027-02-01T00:00:00Z").append
    (element "PointersToOtherTSL" "" ((pointerTo "t").append (pointerTo "u")))) ([], [])

/-- The documents of a server with both. -/
def pair : List Document := [pairRoot, datedList]

theorem mem_of_expat {documents : List Document} {xml : Bytes}
    (h : ((listEnv documents).expat xml).failure = none) :
    ∃ d ∈ documents, d.1 = xml ∧ (listEnv documents).expat xml = ⟨d.2, none⟩ := by
  simp only [listEnv] at h ⊢
  cases hfind : documents.find? fun d => d.1 == xml with
  | none =>
    rw [hfind] at h
    cases h
  | some d => exact ⟨d, List.mem_of_find?_eq_some hfind, by simpa using List.find?_some hfind, rfl⟩

theorem pair_findsRoot : FindsRoot (listEnv pair) := by
  have hall : ∀ d ∈ pair, (enumerateLoop TreeBuilder.handle {} 0 d.2).toOption.all
      (·.root.isSome) = true := by decide +kernel
  intro xml builder hnone hbuilder
  obtain ⟨d, hd, -, hrun⟩ := mem_of_expat hnone
  rw [hrun] at hbuilder
  have := hall d hd
  rw [hbuilder] at this
  exact this

theorem pairRoot_admitted : ∃ root,
    admitRoot (acceptingCall pair) 1800000000000000 (.ok pairRoot.1) = .ok (.ok root) ∧
      (followed (decisionOn (acceptingCall pair).select) () root.pointers).map (·.location) =
        [lit "t", lit "u"] := by
  obtain ⟨admission, hadmission, hlocations⟩ := exists_ok_of_map
    (x := admitRoot (acceptingCall pair) 1800000000000000 (.ok pairRoot.1))
    (f := fun a : Admission Unit => a.toOption.map fun root =>
      (followed (decisionOn (acceptingCall pair).select) () root.pointers).map (·.location))
    (c := some [lit "t", lit "u"]) (by decide +kernel)
  obtain ⟨root, hroot, hlocations⟩ := Option.map_eq_some_iff.mp hlocations
  obtain rfl : admission = .ok root := by
    cases admission with
    | error problem => cases hroot
    | ok root' =>
      cases hroot
      rfl
  exact ⟨root, hadmission, Option.some.inj hlocations⟩

/-- Each document is read without an exception, and its `NextUpdate` has a time zone. -/
theorem pair_regular {d : Document} (hd : d ∈ pair) :
    Regular (listEnv pair) (acceptingCall pair).maxBytes d.1 where
  expat e := by
    have hfind : ∀ d ∈ pair, (pair.find? fun d' => d'.1 == d.1).isSome = true := by decide +kernel
    obtain ⟨d', hd'⟩ := Option.isSome_iff_exists.mp (hfind d hd)
    simp only [listEnv, hd']
    exact fun h => Option.some_ne_none _ h.symm
  zoned list next hlist hnext := by
    have hzoned : ∀ d ∈ pair, (parseTrustList (listEnv pair) d.1
        (acceptingCall pair).maxBytes).toOption.all
          (fun list => list.nextUpdate.all (·.offset.isSome)) = true := by decide +kernel
    have := hzoned d hd
    rw [hlist] at this
    change list.nextUpdate.all (·.offset.isSome) = true at this
    rw [hnext] at this
    exact this

end Tsl

namespace Lote

section Served

variable {E : Env} {call : WalkCall E} {now : Int}

/-- The walk asks a server for the root first. -/
theorem served_walkLote (hnow : utcInstant E.interpreter call.now .trustListError = .ok now)
    {serve : Str → Result Token} {r : Result Token} (hr : serve call.loteUrl = r) : ∃ rest result,
      Traced (walkLote call) (⟨call.loteUrl, r⟩ :: rest) result ∧ ∀ f ∈ rest, f.2 = serve f.1 := by
  obtain ⟨l, h, hserved⟩ := exists_traced_served serve (walkLote call)
  obtain ⟨r', rest, rfl, -⟩ := traced_walkLote hnow h
  obtain rfl : r' = r := (hserved _ List.mem_cons_self).trans hr
  exact ⟨rest, _, h, fun f hf => hserved f (List.mem_cons_of_mem _ hf)⟩

end Served

/-- A pointer to the list at a location, under the identity of its signer. -/
def pointerText (location identity : Str) : Str :=
  lit "\x7b\"LoTELocation\":\"" ++ location ++ lit "\",\"ServiceDigitalIdentities\":[" ++ identity ++
    List.flatMap lit
    ["],\"LoTEQualifiers\":[\x7b\"LoTEType\":\"L\",\"SchemeOperatorName\":[\x7b\"lang\":\"en\",",
     "\"value\":\"O\"\x7d],\"MimeType\":\"m\"\x7d]\x7d"]

/-- A list with one anchor and two pointers: to a list at `t` under the operator's certificate, and to
one at `u` under none. -/
def pointingList : Bytes :=
  listText (lit ",\"PointersToOtherLoTE\":[" ++ pointerText "t" operatorIdentity ++ lit "," ++
    pointerText "u" "\x7b\x7d" ++ lit "]") operatorIdentity

/-- The operator's signature of that list. -/
def pointingSignature : Bytes :=
  Codec.intToFixed 0x246f00ec8fa663a36b09c9853f94e386c378a91422ec686e8b78f9660745903e 32 ++
    Codec.intToFixed 0xdc224f4d253c08208194336ed5b3666289b7991a37e9134d1841dc7562a11705 32

/-- The token that carries it. -/
def pointingToken : Token := .str (compactText listHeader pointingList pointingSignature)

/-- A walk whose root is that list. -/
def pointingCall : WalkCall (signedEnv pointingList pointingSignature) :=
  signedCall pointingList pointingSignature

theorem pointing_judged : ∃ root,
    judge pointingCall 1800000000000000 "r" [()] (.ok pointingToken) = .ok (.ok root) ∧
      (followed (decisionOn pointingCall) ⟨["r"], 1⟩ root.pointers).map (·.location) =
        [lit "t", lit "u"] := by
  refine judge_signed ?_ ?_ (by decide +kernel)
  · conv in loadsBytes _ =>
      unfold pointingList pointerText listText operatorIdentity operatorBase64
      simp only [List.flatMap_cons, List.flatMap_nil]
      repeat rw [lit_ofList]
    decide +kernel
  · unfold pointingList pointerText listText operatorIdentity operatorBase64
    simp only [List.flatMap_cons, List.flatMap_nil]
    repeat rw [lit_ofList]
    decide +kernel

theorem pointing_readable (leaf : Cert (signedEnv pointingList pointingSignature)) :
    Readable (signedEnv pointingList pointingSignature) leaf where
  key _ h := by cases h
  organization _ h := by cases h
  country _ h := by cases h

end Lote

/-- A walk of a list of lists over the lists at `t` and `u`, and a walk of a list of entities over two
lists, with `u` up and with `u` down. -/
theorem walks_isolated_pair :
    (∃ root, Tsl.admitRoot (Tsl.acceptingCall Tsl.pair) 1800000000000000 (.ok Tsl.pairRoot.1) =
        .ok (.ok root) ∧
      Apart (Tsl.admitPointed (Tsl.acceptingCall Tsl.pair) 1800000000000000)
        (Tsl.Bad (Tsl.acceptingCall Tsl.pair) 1800000000000000) none
        (followed (Tsl.decisionOn none) () root.pointers) [] Tsl.pairRoot.1 Tsl.datedList.1) ∧
    ∃ root, Lote.judge Lote.pointingCall 1800000000000000 "r" [()] (.ok Lote.pointingToken) =
        .ok (.ok root) ∧
      Apart (Lote.admitPointed Lote.pointingCall 1800000000000000)
        (Lote.Bad Lote.pointingCall 1800000000000000) none
        (followed (Lote.decisionOn Lote.pointingCall) ⟨["r"], 1⟩ root.pointers) (selected none root)
        Lote.pointingToken Lote.pointingToken := by
  obtain ⟨hxml, hjson⟩ := walks_isolated 1800000000000000
  constructor
  · obtain ⟨root, hroot, hlocations⟩ := Tsl.pairRoot_admitted
    obtain ⟨hwalked, hothers⟩ :=
      hxml _ (Tsl.acceptingCall Tsl.pair) _ root Tsl.pair_findsRoot rfl hroot
    refine ⟨root, hroot, apart_of_walks hlocations (fun down => Tsl.served_walkLotl rfl serves_root)
      (fun rest result hrun hserved => hwalked rest result hrun ?_) hothers⟩
    intro p _ xml hmem _
    rcases hserved _ hmem xml rfl with rfl | rfl
    · exact Tsl.pair_regular (by simp [Tsl.pair])
    · exact Tsl.pair_regular (by simp [Tsl.pair])
  · obtain ⟨root, hroot, hlocations⟩ := Lote.pointing_judged
    obtain ⟨hwalked, hothers⟩ :=
      hjson _ Lote.pointingCall _ root (fun _ h => absurd h.symm (Option.some_ne_none _)) rfl hroot
    exact ⟨root, hroot, apart_of_walks hlocations (fun down => Lote.served_walkLote rfl serves_root)
      (fun rest result hrun _ => hwalked rest result hrun
        fun _ _ _ _ _ chain _ _ _ => Lote.pointing_readable chain.1) hothers⟩

/-! ## A `NextUpdate` without a time zone -/

namespace Tsl

/-- The list it points to: its `NextUpdate` has no time zone. -/
def naiveList : Document := listDocument (nextUpdateElement "2027-02-01T00:00:00") ([], [])

/-- The documents of a server with both. -/
def naive : List Document := [datedRoot, naiveList]

theorem datedRoot_admitted : ∃ admission,
    admitRoot (acceptingCall naive) 1800000000000000 (.ok datedRoot.1) = .ok admission ∧
      admission.isOk = true :=
  exists_ok_of_map (by decide +kernel)

/-- The walk of a current root raises `TypeError` on a list that the callback accepts. -/
theorem naive_not_isolated :
    utcInstant (listEnv naive).interpreter none .trustListError = .ok 1800000000000000 ∧
    (∃ root, admitRoot (acceptingCall naive) 1800000000000000 (.ok datedRoot.1) = .ok (.ok root)) ∧
    Authenticates (acceptingCall naive) [] naiveList.1 ∧
    raised ((walkLotl (acceptingCall naive)).eval (servesPair datedRoot naiveList)) =
      some .typeError := by
  refine ⟨rfl, ?_, ⟨_, rfl, rfl⟩, by decide +kernel⟩
  obtain ⟨admission, hadmission, hok⟩ := datedRoot_admitted
  cases admission with
  | error problem => cases hok
  | ok root => exact ⟨root, hadmission⟩

end Tsl

end OpenVC
