import OpenVC.Transport.Proofs.HttpProofs

/-!
# What a registry read does on the network

Where each request of a read goes and on what it goes out, how the addresses rotate, and how long a
read sleeps: whatever the callables do.
-/

namespace OpenVC.Ebsi.Http

open Python Calling

variable {σ : Type} {H : HttpClient σ} {url : Str} {R : HttpClient.Reader} {l : List Event}

/-! ## The requests of a read -/

/-- Whether a call sends a request or sleeps. -/
def isAct : Query → Bool
  | .stream _ => true
  | .sleep _ => true
  | _ => false

/-- Whether a call asks the resolver. -/
def isLookup : Query → Bool
  | .resolve _ _ => true
  | _ => false

/-- Whether a call sends a request. -/
def isStream : Query → Bool
  | .stream _ => true
  | _ => false

/-- The calls since the last request or sleep. -/
def since (pre : List Event) : List Event := (pre.reverse.takeWhile (!isAct ·.1)).reverse

theorem since_append (pre : List Event) (h : ∀ c ∈ l, isAct c.1 = false) :
    since (pre ++ l) = since pre ++ l := by
  unfold since
  rw [List.reverse_append, List.takeWhile_append_of_pos, List.reverse_append, List.reverse_reverse]
  intro c hc
  rw [h c (List.mem_reverse.mp hc)]
  rfl

theorem since_concat (pre : List Event) {c : Event} (h : isAct c.1 = true) :
    since (pre ++ [c]) = [] := by
  unfold since
  rw [List.reverse_append, List.reverse_singleton, List.singleton_append,
    List.takeWhile_cons_of_neg (by simp [h]), List.reverse_nil]

/-- The request goes to an address of the host, with the host's name for TLS and in `Host`, and the
rest of the URL after its authority. The host was looked up just before, and every answer is
public. -/
def Pinned (H : HttpClient σ) (url : Str) (parts : Url.SplitResult) (pre : List Event)
    (request : Request) : Prop :=
  ∃ answers text address front tail,
    Answered H parts.hostname 443 answers ((since pre).filter (isLookup ·.1)) ∧
    (∀ answer ∈ answers, ∃ text address, answer = some text ∧ Reachable H.ipaddress text address) ∧
    some text ∈ answers ∧ Reachable H.ipaddress text address ∧ url = front ++ parts.netloc ++ tail ∧
    (∀ c, tail.head? = some c → Url.endsNetloc c = true) ∧
    request.url = lit "https://" ++ HttpClient.bracketed address ++ lit ":443" ++ tail ∧
    request.sniHostname = some parts.hostname ∧
    (lit "Host", HttpClient.bracketed parts.hostname) ∈ request.headers

/-- What lets a request out after `pre`: an admitted URL, and the address guard if there is one. -/
def Sent (H : HttpClient σ) (url : Str) (pre : List Event) (request : Request) : Prop :=
  ∃ parts, Admitted H url parts ∧
    if H.guarded then Pinned H url parts pre request
    else request.url = url ∧ request.sniHostname = none

/-- What holds of each call of the loop. -/
def Allowed (H : HttpClient σ) (url : Str) (R : HttpClient.Reader) (pre : List Event) (c : Event) :
    Prop :=
  (∀ request, c.1 = .stream request → Sent H url pre request ∧ Fresh H R (since pre)) ∧
    ∀ s, c.1 = .sleep s → Rested H.retry s ∧ InBudget R.until_ pre s

theorem allowed_of_not_act {pre : List Event} {c : Event} (h : isAct c.1 = false) :
    Allowed H url R pre c := by
  refine ⟨fun request hc => ?_, fun s hc => ?_⟩
  · rw [hc] at h
    cases h
  · rw [hc] at h
    cases h

theorem IsGate.not_act {q : Query} (h : IsGate q) : isAct q = false := by
  rcases h with rfl | rfl
  · rfl
  · rfl

theorem IsGate.not_lookup {q : Query} (h : IsGate q) : isLookup q = false := by
  rcases h with rfl | rfl
  · rfl
  · rfl

/-- No lookup is left from before. -/
def Quiet (pre : List Event) : Prop := ∀ c ∈ since pre, isLookup c.1 = false

theorem Fresh.mono {m : List Event} (h : Fresh H R l) (hsub : ∀ c ∈ l, c ∈ m) : Fresh H R m := by
  refine ⟨fun expires hexpires => ?_, fun stop hstop => ?_⟩
  · obtain ⟨t, hmem, ht⟩ := h.1 expires hexpires
    exact ⟨t, hsub _ hmem, ht⟩
  · obtain ⟨now, hmem, hnow⟩ := h.2 stop hstop
    exact ⟨now, hsub _ hmem, hnow⟩

theorem Tried.allowed {parts : Url.SplitResult} (hadm : Admitted H url parts)
    {tried tried' : List Str} {outcome : Except Failure (Reply × Bytes × Option Str)}
    {pre m : List Event} (h : Tried H url R tried m outcome tried') (hquiet : Quiet pre)
    (hgate : Gated H url R l (.ok ())) : EachCall (Allowed H url R) (pre ++ l) m := by
  have hprepared : ∀ {m' : List Event} {r : Except Failure (Request × List Str)},
      Traced (H.prepare url tried R.headers) m' r → ∀ c ∈ m', isAct c.1 = false := by
    intro m' r hm c hc
    rcases hadm.traced_prepare hm with ⟨-, rfl, -⟩ | ⟨-, hcalls, -⟩
    · cases hc
    · rw [hcalls c hc]
      rfl
  rcases h.cases with ⟨e, hprepare, -, -⟩ | ⟨request, m', x, hprepare, rfl, -⟩
  · exact eachCall_of_forall fun c hc pre => allowed_of_not_act (hprepared hprepare c hc)
  refine eachCall_append.mpr ⟨?_, ⟨⟨?_, by rintro s ⟨⟩⟩, trivial⟩⟩
  · exact eachCall_of_forall fun c hc pre => allowed_of_not_act (hprepared hprepare c hc)
  rintro _ ⟨⟩
  have hsince : since (pre ++ l ++ m') = since pre ++ l ++ m' := by
    rw [since_append _ (hprepared hprepare), since_append _ fun c hc => (hgate.calls c hc).not_act]
  refine ⟨⟨parts, hadm, ?_⟩, ?_⟩
  · rcases hadm.traced_prepare hprepare with ⟨hplain, rfl, hr⟩ | ⟨hguarded, hcalls, hr⟩
    · rw [hplain]
      cases hr
      exact ⟨rfl, rfl⟩
    rw [if_pos hguarded]
    obtain ⟨answers, addresses, stop, hanswered, hchecked, ⟨front, hfront⟩, htail, rfl, -⟩ :=
      hr request tried' rfl
    obtain ⟨text, htext, hreach⟩ :=
      hchecked.reachable.2 _ (rotate_mem (hchecked.ne_nil hanswered.ne_nil) tried)
    have hlookups : (since (pre ++ l ++ m')).filter (isLookup ·.1) = m' := by
      rw [hsince, List.filter_append, List.filter_append, List.filter_eq_nil_iff.mpr,
        List.filter_eq_nil_iff.mpr, List.filter_eq_self.mpr, List.nil_append, List.nil_append]
      · intro c hc
        rw [hcalls c hc]
        rfl
      · intro c hc
        rw [(hgate.calls c hc).not_lookup]
        exact Bool.false_ne_true
      · intro c hc
        rw [hquiet c hc]
        exact Bool.false_ne_true
    refine ⟨answers, text, _, front, url.drop stop, ?_, fun answer hmem => ?_, htext, hreach,
      hfront, htail, ?_, rfl, ?_⟩
    · rw [hlookups]
      exact hanswered
    · obtain ⟨t, address, ht, hta, -⟩ := hchecked.reachable.1 answer hmem
      exact ⟨t, address, ht, hta⟩
    · have hport : lit ":" ++ Str.ofNat 443 = lit ":443" := by decide
      rw [← hport, ← List.append_assoc]
      rfl
    · exact List.mem_append_right _ List.mem_cons_self
  · rw [hsince]
    exact hgate.fresh.mono fun c hc => List.mem_append_left _ (List.mem_append_right _ hc)

theorem Slept.allowed {left : Nat} {asked : Option PyFloat} {r : Except Failure Unit}
    (h : Slept H R left asked l r) (pre : List Event) : EachCall (Allowed H url R) pre l := by
  obtain ⟨m, hm, hcases⟩ := h.cases
  have hquiet : ∀ c ∈ m, isAct c.1 = false := by
    intro c hc
    rcases hm c hc with ⟨x, hx⟩ | hx
    · rw [hx]
      rfl
    · rw [hx]
      rfl
  rcases hcases with ⟨rfl, -⟩ | ⟨s, x, rfl, -, hrested, hbudget⟩
  · exact eachCall_of_forall fun c hc pre => allowed_of_not_act (hquiet c hc)
  refine eachCall_append.mpr ⟨?_, ⟨⟨by rintro s ⟨⟩, ?_⟩, trivial⟩⟩
  · exact eachCall_of_forall fun c hc pre => allowed_of_not_act (hquiet c hc)
  · rintro _ ⟨⟩
    exact ⟨hrested, hbudget.append pre⟩

theorem Slept.quiet {left : Nat} {asked : Option PyFloat} (h : Slept H R left asked l (.ok ()))
    (hleft : 0 < left) (hmore : left < H.retry.attempts) (pre : List Event) :
    Quiet (pre ++ l) := by
  obtain ⟨m, -, ⟨-, hnone⟩ | ⟨s, x, rfl, -, -, -⟩⟩ := h.cases
  · rcases hnone with rfl | hle | ⟨e, he⟩
    · exact absurd hleft (lt_irrefl 0)
    · exact absurd hmore (not_lt.mpr hle)
    · cases he
  · intro c hc
    rw [← List.append_assoc, since_concat _ rfl] at hc
    cases hc

theorem Run.allowed {parts : Url.SplitResult} (hadm : Admitted H url parts) {made left : Nat}
    {tried : List Str} {last : Option Failure} {r : Except Failure (Reply × Bytes)}
    (h : Run H url R made left tried last l r) (hleft : left ≤ H.retry.attempts) {pre : List Event}
    (hquiet : Quiet pre) : EachCall (Allowed H url R) pre l := by
  have hgates : ∀ {m : List Event} {x : Except Failure Unit} {pre : List Event},
      Gated H url R m x → EachCall (Allowed H url R) pre m := fun hgate =>
    eachCall_of_forall fun c hc _ => allowed_of_not_act (hgate.calls c hc).not_act
  induction h generalizing pre with
  | exhausted tried last => trivial
  | refused hgate => exact hgates hgate
  | stopped hgate htry hverdict =>
    exact eachCall_append.mpr ⟨hgates hgate, htry.allowed hadm hquiet hgate⟩
  | awoken hgate htry hverdict hsleep =>
    exact eachCall_append.mpr ⟨hgates hgate, eachCall_append.mpr
      ⟨htry.allowed hadm hquiet hgate, hsleep.allowed _⟩⟩
  | @retried left _ _ _ l m n k _ _ _ _ hgate htry hverdict hsleep hrest ih =>
    refine eachCall_append.mpr ⟨hgates hgate, eachCall_append.mpr
      ⟨htry.allowed hadm hquiet hgate, eachCall_append.mpr ⟨hsleep.allowed _, ?_⟩⟩⟩
    cases left with
    | zero =>
      cases hrest
      trivial
    | succ left =>
      exact ih (by omega) (hsleep.quiet (Nat.succ_pos left) (by omega) _)

/-- A read: `get_json`, `probe` or `get_bytes`, with the budget it is given. -/
inductive Read (H : HttpClient σ) (url : Str) : Json → List Event → Prop where
  | json {l : List Event} {r : Except Failure Json} (h : Traced (H.getJson url) l r) :
      Read H url .null l
  | probe {maxBytes : Int} {l : List Event} {r : Except Failure (Int × Bytes)}
      (h : Traced (H.probe url maxBytes) l r) : Read H url .null l
  | bytes {maxBytes etag deadlineS : Json} {l : List Event}
      {r : Except Failure HttpClient.BytesResponse}
      (h : Traced (H.getBytes url maxBytes etag deadlineS) l r) : Read H url deadlineS l

/-- A call of a read besides its request loop. -/
def IsAside (q : Query) : Prop := isAct q = false ∧ isLookup q = false

/-- Whether a call reads the monotonic clock. -/
def isMonotonic : Query → Bool
  | .monotonic => true
  | _ => false

/-- The end of the budget: the first reading of the monotonic clock and the budget that is given. -/
def Budget (deadlineS : Json) (l : List Event) (until_ : Option PyFloat) : Prop :=
  (deadlineS = .null ∧ until_ = none) ∨ ∃ now seconds,
    l.find? (isMonotonic ·.1) = some ⟨.monotonic, .ok now⟩ ∧
    HttpClient.checkedDeadline deadlineS = .ok seconds ∧ until_ = some (PyFloat.add now seconds)

theorem Budget.append {deadlineS : Json} {until_ : Option PyFloat} (h : Budget deadlineS l until_)
    (m : List Event) : Budget deadlineS (l ++ m) until_ := by
  rcases h with hnone | ⟨now, seconds, hfind, hrest⟩
  · exact .inl hnone
  · exact .inr ⟨now, seconds, by rw [List.find?_append, hfind, Option.some_or], hrest⟩

theorem Budget.prepend {deadlineS : Json} {until_ : Option PyFloat} (h : Budget deadlineS l until_)
    {m : List Event} (hm : ∀ c ∈ m, isMonotonic c.1 = false) : Budget deadlineS (m ++ l) until_ := by
  rcases h with hnone | ⟨now, seconds, hfind, hrest⟩
  · exact .inl hnone
  refine .inr ⟨now, seconds, ?_, hrest⟩
  rw [List.find?_append, List.find?_eq_none.mpr, Option.none_or, hfind]
  intro c hc
  rw [hm c hc]
  exact Bool.false_ne_true

/-- A read does not reach its request loop, or its calls are those of the loop between others. -/
def Looped (H : HttpClient σ) (url : Str) (deadlineS : Json) (l : List Event) : Prop :=
  (∀ c ∈ l, IsAside c.1) ∨ ∃ pre m post R r, l = pre ++ (m ++ post) ∧ (∀ c ∈ pre, IsAside c.1) ∧
    (∀ c ∈ post, IsAside c.1) ∧ Traced (H.request url R) m r ∧ Budget deadlineS pre R.until_

theorem aside_checkValid {r : Except Failure Unit} (h : Traced H.checkValid l r) :
    ∀ c ∈ l, IsAside c.1 ∧ isMonotonic c.1 = false := by
  rcases traced_checkValid h with ⟨-, rfl, -⟩ | ⟨x, expires, rfl, -⟩
  · exact List.forall_mem_nil _
  · simp [IsAside, isAct, isLookup, isMonotonic]

theorem looped_getJson {r : Except Failure Json} (h : Traced (H.getJson url) l r) :
    Looped H url .null l := by
  rcases traced_bind.mp h with ⟨e, hcheck, -⟩ | ⟨⟨⟩, l₁, l₂, hcheck, hguarded, rfl⟩
  · exact .inl fun c hc => (aside_checkValid hcheck c hc).1
  rcases traced_liftM_bind.mp hguarded with ⟨e, -, rfl, -⟩ | ⟨⟨⟩, -, hget⟩
  · rw [List.append_nil]
    exact .inl fun c hc => (aside_checkValid hcheck c hc).1
  have hpre : ∀ x : Except Failure (Option Json), ∀ c ∈ l₁ ++ [⟨.cacheGet url, x⟩],
      IsAside c.1 := fun x => List.forall_mem_append.mpr
    ⟨fun c hc => (aside_checkValid hcheck c hc).1, by simp [IsAside, isAct, isLookup]⟩
  rcases traced_ask_bind.mp hget with ⟨e, rfl, -⟩ | ⟨cached, l₃, hcached, rfl⟩
  · exact .inl (hpre _)
  cases cached with
  | some data =>
    obtain ⟨rfl, -⟩ := traced_pure.mp hcached
    exact .inl (hpre _)
  | none =>
    have happend : ∀ m : List Event, l₁ ++ ⟨.cacheGet url, .ok none⟩ :: m =
        l₁ ++ [⟨.cacheGet url, .ok none⟩] ++ m := fun m => by
      rw [List.append_assoc, List.singleton_append]
    refine .inr ?_
    rcases traced_bind.mp hcached with ⟨e, hrequest, -⟩ | ⟨answer, l₄, l₅, hrequest, hread, rfl⟩
    · exact ⟨_, l₃, [], H.jsonReader, _, by rw [happend, List.append_nil], hpre _,
        List.forall_mem_nil _, hrequest, .inl ⟨rfl, rfl⟩⟩
    refine ⟨_, l₄, l₅, H.jsonReader, _, happend _, hpre _, ?_, hrequest, .inl ⟨rfl, rfl⟩⟩
    rcases traced_liftM_bind.mp hread with ⟨e, -, rfl, -⟩ | ⟨data, -, hset⟩
    · exact List.forall_mem_nil _
    rcases traced_ask_bind.mp hset with ⟨e, rfl, -⟩ | ⟨⟨⟩, l₆, hdone, rfl⟩
    · simp [IsAside, isAct, isLookup]
    · obtain ⟨rfl, -⟩ := traced_pure.mp hdone
      simp [IsAside, isAct, isLookup]

theorem looped_probe {maxBytes : Int} {r : Except Failure (Int × Bytes)}
    (h : Traced (H.probe url maxBytes) l r) : Looped H url .null l := by
  rcases traced_bind.mp h with ⟨e, hcheck, -⟩ | ⟨⟨⟩, l₁, l₂, hcheck, hbounded, rfl⟩
  · exact .inl fun c hc => (aside_checkValid hcheck c hc).1
  rcases traced_liftM_bind.mp hbounded with ⟨e, -, rfl, -⟩ | ⟨⟨⟩, -, hprobe⟩
  · rw [List.append_nil]
    exact .inl fun c hc => (aside_checkValid hcheck c hc).1
  refine .inr ⟨l₁, l₂, [], H.probeReader maxBytes, ?_⟩
  rcases traced_bind.mp hprobe with ⟨e, hrequest, -⟩ | ⟨answer, l₃, l₄, hrequest, hdone, rfl⟩
  · exact ⟨_, by rw [List.append_nil], fun c hc => (aside_checkValid hcheck c hc).1,
      List.forall_mem_nil _, hrequest, .inl ⟨rfl, rfl⟩⟩
  · obtain ⟨rfl, -⟩ := traced_pure.mp hdone
    rw [List.append_nil l₃]
    exact ⟨_, by rw [List.append_nil], fun c hc => (aside_checkValid hcheck c hc).1,
      List.forall_mem_nil _, hrequest, .inl ⟨rfl, rfl⟩⟩

theorem traced_budget {deadlineS : Json} {r : Except Failure (Option PyFloat)}
    (h : Traced (HttpClient.budget deadlineS) l r) :
    (∀ c ∈ l, IsAside c.1) ∧ ∀ until_, r = .ok until_ → Budget deadlineS l until_ := by
  unfold HttpClient.budget at h
  split at h
  · obtain ⟨rfl, rfl⟩ := traced_pure.mp h
    exact ⟨List.forall_mem_nil _, fun until_ hu => .inl ⟨rfl, (Except.ok.inj hu).symm⟩⟩
  rcases traced_ask_bind.mp h with ⟨e, rfl, rfl⟩ | ⟨now, l₁, hchecked, rfl⟩
  · exact ⟨by simp [IsAside, isAct, isLookup], by rintro _ ⟨⟩⟩
  rcases traced_liftM_bind.mp hchecked with ⟨e, -, rfl, rfl⟩ | ⟨seconds, hseconds, hdone⟩
  · exact ⟨by simp [IsAside, isAct, isLookup], by rintro _ ⟨⟩⟩
  obtain ⟨rfl, rfl⟩ := traced_pure.mp hdone
  exact ⟨by simp [IsAside, isAct, isLookup], fun until_ hu =>
    .inr ⟨now, seconds, rfl, hseconds, (Except.ok.inj hu).symm⟩⟩

theorem looped_getBytes {maxBytes etag deadlineS : Json}
    {r : Except Failure HttpClient.BytesResponse}
    (h : Traced (H.getBytes url maxBytes etag deadlineS) l r) : Looped H url deadlineS l := by
  rcases traced_bind.mp h with ⟨e, hcheck, -⟩ | ⟨⟨⟩, l₁, l₂, hcheck, hcap, rfl⟩
  · exact .inl fun c hc => (aside_checkValid hcheck c hc).1
  rcases traced_liftM_bind.mp hcap with ⟨e, -, rfl, -⟩ | ⟨cap, -, hsent⟩
  · rw [List.append_nil]
    exact .inl fun c hc => (aside_checkValid hcheck c hc).1
  rcases traced_liftM_bind.mp hsent with ⟨e, -, rfl, -⟩ | ⟨sent, -, hbudgeted⟩
  · rw [List.append_nil]
    exact .inl fun c hc => (aside_checkValid hcheck c hc).1
  rcases traced_bind.mp hbudgeted with ⟨e, hb, -⟩ | ⟨until_, l₃, l₄, hb, hget, rfl⟩
  · exact .inl (List.forall_mem_append.mpr
      ⟨fun c hc => (aside_checkValid hcheck c hc).1, (traced_budget hb).1⟩)
  have hpre : ∀ c ∈ l₁ ++ l₃, IsAside c.1 := List.forall_mem_append.mpr
    ⟨fun c hc => (aside_checkValid hcheck c hc).1, (traced_budget hb).1⟩
  have hbudget : Budget deadlineS (l₁ ++ l₃) until_ := ((traced_budget hb).2 until_ rfl).prepend
    fun c hc => (aside_checkValid hcheck c hc).2
  refine .inr ⟨l₁ ++ l₃, l₄, [], HttpClient.bytesReader cap sent until_, ?_⟩
  rcases traced_bind.mp hget with ⟨e, hrequest, -⟩ | ⟨answer, l₅, l₆, hrequest, hdone, rfl⟩
  · exact ⟨_, by rw [List.append_nil, List.append_assoc], hpre, List.forall_mem_nil _, hrequest,
      hbudget⟩
  · obtain ⟨rfl, -⟩ := traced_pure.mp hdone
    rw [List.append_nil l₅]
    exact ⟨_, by rw [List.append_nil, List.append_assoc], hpre, List.forall_mem_nil _, hrequest,
      hbudget⟩

theorem Read.looped {deadlineS : Json} (h : Read H url deadlineS l) : Looped H url deadlineS l := by
  cases h with
  | json h => exact looped_getJson h
  | probe h => exact looped_probe h
  | bytes h => exact looped_getBytes h

/-- A request is refused before any call, or runs its loop on an admitted URL. -/
theorem traced_request {r : Except Failure (Reply × Bytes)} (h : Traced (H.request url R) l r) :
    l = [] ∨ ∃ parts made, Admitted H url parts ∧ made ≤ H.retry.attempts ∧
      Run H url R made made [] none l r := by
  rcases traced_liftM_bind.mp h with ⟨e, -, rfl, -⟩ | ⟨⟨⟩, hguard, hloop⟩
  · exact .inl rfl
  obtain ⟨parts, hadm⟩ := exists_admitted hguard
  refine .inr ⟨parts, _, hadm, ?_, run_of_traced hloop⟩
  split
  · exact Nat.sub_le _ _
  · exact le_refl _

theorem Quiet.append {pre : List Event} (hquiet : Quiet pre) (h : ∀ c ∈ l, IsAside c.1) :
    Quiet (pre ++ l) := by
  intro c hc
  rw [since_append _ fun c hc => (h c hc).1] at hc
  rcases List.mem_append.mp hc with hmem | hmem
  · exact hquiet c hmem
  · exact (h c hmem).2

theorem quiet_nil : Quiet [] := fun _ hc => absurd hc List.not_mem_nil

/-- Each call of a read is allowed. -/
theorem Read.allowed {deadlineS : Json} (h : Read H url deadlineS l) {pre : List Event}
    (hquiet : Quiet pre) : (∀ c ∈ l, isAct c.1 = false) ∨
      ∃ R, EachCall (Allowed H url R) pre l ∧ Budget deadlineS l R.until_ := by
  have hasides : ∀ {R : HttpClient.Reader} {m pre : List Event}, (∀ c ∈ m, IsAside c.1) →
      EachCall (Allowed H url R) pre m := fun hm =>
    eachCall_of_forall fun c hc _ => allowed_of_not_act (hm c hc).1
  rcases h.looped with hnone | ⟨before, m, post, R, r, rfl, hbefore, hpost, hrequest, hbudget⟩
  · exact .inl fun c hc => (hnone c hc).1
  refine .inr ⟨R, eachCall_append.mpr ⟨hasides hbefore, eachCall_append.mpr
    ⟨?_, hasides hpost⟩⟩, hbudget.append _⟩
  rcases traced_request hrequest with rfl | ⟨parts, made, hadm, hmade, hrun⟩
  · trivial
  · exact hrun.allowed hadm hmade (hquiet.append hbefore)

/-! ## The number of requests and of sleeps -/

/-- Whether a call sleeps. -/
def isSleep : Query → Bool
  | .sleep _ => true
  | _ => false

theorem isAct_eq (q : Query) : isAct q = (isStream q || isSleep q) := by
  cases q <;> rfl

theorem countP_of_not_act {p : Query → Bool} (hp : ∀ q, p q = true → isAct q = true)
    (h : ∀ c ∈ l, isAct c.1 = false) : l.countP (p ·.1) = 0 := by
  refine List.countP_eq_zero.mpr fun c hc htrue => ?_
  have := hp c.1 htrue
  rw [h c hc] at this
  cases this

theorem isStream_act (q : Query) (h : isStream q = true) : isAct q = true := by
  rw [isAct_eq, h, Bool.true_or]

theorem isSleep_act (q : Query) (h : isSleep q = true) : isAct q = true := by
  rw [isAct_eq, h, Bool.or_true]

theorem Tried.counts {parts : Url.SplitResult} (hadm : Admitted H url parts)
    {tried tried' : List Str} {outcome : Except Failure (Reply × Bytes × Option Str)}
    (h : Tried H url R tried l outcome tried') :
    l.countP (isStream ·.1) ≤ 1 ∧ l.countP (isSleep ·.1) = 0 := by
  have hprepared : ∀ {m : List Event} {r : Except Failure (Request × List Str)},
      Traced (H.prepare url tried R.headers) m r → ∀ c ∈ m, isAct c.1 = false := by
    intro m r hm c hc
    rcases hadm.traced_prepare hm with ⟨-, rfl, -⟩ | ⟨-, hcalls, -⟩
    · cases hc
    · rw [hcalls c hc]
      rfl
  rcases h.cases with ⟨e, hprepare, -, -⟩ | ⟨request, m, x, hprepare, rfl, -⟩
  · rw [countP_of_not_act isStream_act (hprepared hprepare),
      countP_of_not_act isSleep_act (hprepared hprepare)]
    exact ⟨Nat.zero_le 1, rfl⟩
  · rw [List.countP_append, List.countP_append, countP_of_not_act isStream_act (hprepared hprepare),
      countP_of_not_act isSleep_act (hprepared hprepare)]
    exact ⟨le_refl 1, rfl⟩

theorem Slept.counts {left : Nat} {asked : Option PyFloat} {r : Except Failure Unit}
    (h : Slept H R left asked l r) :
    l.countP (isStream ·.1) = 0 ∧ l.countP (isSleep ·.1) ≤ min left 1 := by
  obtain ⟨m, hm, hcases⟩ := h.cases
  have hquiet : ∀ c ∈ m, isAct c.1 = false := by
    intro c hc
    rcases hm c hc with ⟨x, hx⟩ | hx
    · rw [hx]
      rfl
    · rw [hx]
      rfl
  rcases hcases with ⟨rfl, -⟩ | ⟨s, x, rfl, hleft, -, -⟩
  · rw [countP_of_not_act isStream_act hquiet, countP_of_not_act isSleep_act hquiet]
    exact ⟨rfl, Nat.zero_le _⟩
  · rw [List.countP_append, List.countP_append, countP_of_not_act isStream_act hquiet,
      countP_of_not_act isSleep_act hquiet]
    refine ⟨rfl, ?_⟩
    change 0 + 1 ≤ min left 1
    omega

theorem Run.counts {parts : Url.SplitResult} (hadm : Admitted H url parts) {made left : Nat}
    {tried : List Str} {last : Option Failure} {r : Except Failure (Reply × Bytes)}
    (h : Run H url R made left tried last l r) :
    l.countP (isStream ·.1) ≤ left ∧ l.countP (isSleep ·.1) ≤ left - 1 := by
  have hgates : ∀ {m : List Event} {x : Except Failure Unit}, Gated H url R m x →
      m.countP (isStream ·.1) = 0 ∧ m.countP (isSleep ·.1) = 0 := fun hgate =>
    ⟨countP_of_not_act isStream_act fun c hc => (hgate.calls c hc).not_act,
      countP_of_not_act isSleep_act fun c hc => (hgate.calls c hc).not_act⟩
  induction h with
  | exhausted tried last => exact ⟨Nat.zero_le _, Nat.zero_le _⟩
  | refused hgate =>
    rw [(hgates hgate).1, (hgates hgate).2]
    exact ⟨Nat.zero_le _, Nat.zero_le _⟩
  | stopped hgate htry hverdict =>
    have := htry.counts hadm
    rw [List.countP_append, List.countP_append, (hgates hgate).1, (hgates hgate).2]
    omega
  | awoken hgate htry hverdict hsleep =>
    have := htry.counts hadm
    have := hsleep.counts
    simp only [List.countP_append, (hgates hgate).1, (hgates hgate).2]
    omega
  | retried hgate htry hverdict hsleep hrest ih =>
    have := htry.counts hadm
    have := hsleep.counts
    simp only [List.countP_append, (hgates hgate).1, (hgates hgate).2]
    omega

theorem Read.counts {deadlineS : Json} (h : Read H url deadlineS l) :
    l.countP (isStream ·.1) ≤ H.retry.attempts ∧
      l.countP (isSleep ·.1) ≤ H.retry.attempts - 1 := by
  have hasides : ∀ {m : List Event}, (∀ c ∈ m, IsAside c.1) →
      m.countP (isStream ·.1) = 0 ∧ m.countP (isSleep ·.1) = 0 := fun hm =>
    ⟨countP_of_not_act isStream_act fun c hc => (hm c hc).1,
      countP_of_not_act isSleep_act fun c hc => (hm c hc).1⟩
  rcases h.looped with hnone | ⟨pre, m, post, R, r, rfl, hpre, hpost, hrequest, -⟩
  · rw [(hasides hnone).1, (hasides hnone).2]
    exact ⟨Nat.zero_le _, Nat.zero_le _⟩
  simp only [List.countP_append, (hasides hpre).1, (hasides hpre).2, (hasides hpost).1,
    (hasides hpost).2]
  rcases traced_request hrequest with rfl | ⟨parts, made, hadm, hmade, hrun⟩
  · exact ⟨Nat.zero_le _, Nat.zero_le _⟩
  · have := hrun.counts hadm
    omega

/-! ## The rotation of the addresses -/

section Rotation

variable {A : List Str}

/-- The addresses that have been tried after `n` requests. -/
def turns (A : List Str) : Nat → List Str
  | 0 => []
  | n + 1 => A.take (n % A.length + 1)

theorem rotate_take (hA : A.Nodup) {k : Nat} (hk : k < A.length) :
    HttpClient.rotate A (A.take k) = (A[k], A.take (k + 1)) := by
  have hfresh : A.filter (!(A.take k).contains ·) = A[k] :: A.drop (k + 1) := by
    have hdisjoint := List.disjoint_take_drop hA (le_refl k)
    conv_lhs => rw [← List.take_append_drop k A]
    rw [List.filter_append, List.filter_eq_nil_iff.mpr, List.filter_eq_self.mpr, List.nil_append]
    · exact (List.getElem_cons_drop hk).symm
    · intro a ha
      rw [List.take_append_drop, Bool.not_eq_true']
      exact eq_false_of_ne_true fun hmem => hdisjoint (List.contains_iff_mem.mp hmem) ha
    · intro a ha
      rw [List.take_append_drop, List.contains_iff_mem.mpr ha]
      exact Bool.false_ne_true
  rw [HttpClient.rotate, hfresh, List.take_add_one, List.getElem?_eq_getElem hk]
  rfl

theorem rotate_all (A : List Str) : HttpClient.rotate A A = (A.headD [], [A.headD []]) := by
  have hfresh : A.filter (!A.contains ·) = [] := by
    refine List.filter_eq_nil_iff.mpr fun a ha => ?_
    rw [List.contains_iff_mem.mpr ha]
    exact Bool.false_ne_true
  rw [HttpClient.rotate, hfresh]

theorem rotate_turns (hA : A.Nodup) (hne : A ≠ []) (n : Nat) :
    A[n % A.length]? = some (HttpClient.rotate A (turns A n)).1 ∧
      (HttpClient.rotate A (turns A n)).2 = turns A (n + 1) := by
  have hpos : 0 < A.length := List.length_pos_iff.mpr hne
  have hlt := Nat.mod_lt n hpos
  cases n with
  | zero =>
    have := rotate_take hA hpos
    rw [List.take_zero] at this
    rw [turns, this, Nat.zero_mod, List.getElem?_eq_getElem hpos, turns, Nat.zero_mod]
    exact ⟨rfl, rfl⟩
  | succ n =>
    have hmod : (n + 1) % A.length = (n % A.length + 1) % A.length := by
      rw [Nat.mod_add_mod]
    have hn := Nat.mod_lt n hpos
    rcases Nat.lt_or_ge (n % A.length + 1) A.length with hmore | hfull
    · rw [turns, rotate_take hA hmore, turns, hmod, Nat.mod_eq_of_lt hmore,
        List.getElem?_eq_getElem hmore]
      exact ⟨rfl, rfl⟩
    · have heq : n % A.length + 1 = A.length := by omega
      rw [turns, turns, hmod, heq, Nat.mod_self, List.take_length, rotate_all]
      cases A with
      | nil => exact absurd rfl hne
      | cons a A => exact ⟨rfl, rfl⟩

/-- The request of a call that sends one. -/
def requestOf (c : Event) : Option Request :=
  match c.1 with
  | .stream request => some request
  | _ => none

/-- The requests of a trace, in order. -/
def requests (l : List Event) : List Request := l.filterMap requestOf

theorem requests_append (l m : List Event) : requests (l ++ m) = requests l ++ requests m :=
  List.filterMap_append

theorem requests_eq_nil (h : ∀ c ∈ l, isStream c.1 = false) : requests l = [] := by
  refine List.filterMap_eq_nil_iff.mpr fun c hc => ?_
  obtain ⟨q, x⟩ := c
  cases q with
  | stream request => cases h _ hc
  | _ => rfl

theorem requests_of_not_act (h : ∀ c ∈ l, isAct c.1 = false) : requests l = [] := by
  refine requests_eq_nil fun c hc => ?_
  have := h c hc
  rw [isAct_eq, Bool.or_eq_false_iff] at this
  exact this.1

/-- The request goes to the address. -/
def GoesTo (address : Str) (request : Request) : Prop :=
  ∃ tail, request.url = lit "https://" ++ HttpClient.bracketed address ++ lit ":443" ++ tail

/-- The requests go to the addresses in turn, from the one of number `n`. -/
def InTurn (A : List Str) (n : Nat) (sent : List Request) : Prop :=
  ∀ i request, sent[i]? = some request →
    ∃ address, A[(n + i) % A.length]? = some address ∧ GoesTo address request

theorem InTurn.cons {n : Nat} {request : Request} {sent : List Request} {address : Str}
    (hget : A[n % A.length]? = some address) (hgoes : GoesTo address request)
    (h : InTurn A (n + 1) sent) : InTurn A n (request :: sent) := by
  intro i request' hi
  cases i with
  | zero =>
    cases hi
    exact ⟨address, hget, hgoes⟩
  | succ i =>
    obtain ⟨address', hget', hgoes'⟩ := h i request' hi
    refine ⟨address', ?_, hgoes'⟩
    rw [← hget', Nat.add_right_comm n 1 i]
    rfl

/-- The resolver always gives the same answers for the host, or it is an IP literal. -/
def Steady (H : HttpClient σ) (host : Str) (answers : List (Option Str)) (l : List Event) : Prop :=
  (∀ x, ⟨.resolve host 443, x⟩ ∈ l → x = .ok answers) ∧
    ((H.ipaddress host).isSome → answers = [some host])

theorem Steady.mono {host : Str} {answers : List (Option Str)} {m : List Event}
    (h : Steady H host answers l) (hsub : ∀ c ∈ m, c ∈ l) : Steady H host answers m :=
  ⟨fun x hx => h.1 x (hsub _ hx), h.2⟩

theorem Tried.inTurn {parts : Url.SplitResult} (hadm : Admitted H url parts)
    (hguarded : H.guarded = true) {answers : List (Option Str)}
    (hchecked : Checked H parts.hostname answers A) {n : Nat} {tried' : List Str}
    {outcome : Except Failure (Reply × Bytes × Option Str)}
    (h : Tried H url R (turns A n) l outcome tried') (hsteady : Steady H parts.hostname answers l) :
    (requests l = [] ∧ tried' = turns A n) ∨ ∃ request address, requests l = [request] ∧
      tried' = turns A (n + 1) ∧ A[n % A.length]? = some address ∧ GoesTo address request := by
  have hprepared : ∀ {m : List Event} {r : Except Failure (Request × List Str)},
      Traced (H.prepare url (turns A n) R.headers) m r → requests m = [] := by
    intro m r hm
    rcases hadm.traced_prepare hm with ⟨-, rfl, -⟩ | ⟨-, hcalls, -⟩
    · rfl
    · refine requests_eq_nil fun c hc => ?_
      rw [hcalls c hc]
      rfl
  rcases h.cases with ⟨e, hprepare, -, rfl⟩ | ⟨request, m, x, hprepare, rfl, -⟩
  · exact .inl ⟨hprepared hprepare, rfl⟩
  rcases hadm.traced_prepare hprepare with ⟨hplain, -⟩ | ⟨-, -, hr⟩
  · rw [hguarded] at hplain
    cases hplain
  obtain ⟨answers', addresses, stop, hanswered, hchecked', -, -, hrequest, rfl⟩ :=
    hr request tried' rfl
  have hsame : answers' = answers := by
    rcases hanswered with ⟨-, hliteral, rfl⟩ | ⟨rfl, -⟩
    · exact (hsteady.2 hliteral).symm
    · exact Except.ok.inj (hsteady.1 _ (List.mem_append_left _ List.mem_cons_self))
  subst hsame
  have hsameA : addresses = A := by
    obtain ⟨checked, hcollect, rfl⟩ := hchecked
    obtain ⟨checked', hcollect', rfl⟩ := hchecked'
    rw [hcollect] at hcollect'
    cases hcollect'
    rfl
  subst hsameA
  obtain ⟨hget, hnext⟩ :=
    rotate_turns hchecked.nodup (hchecked.ne_nil hanswered.ne_nil) n
  refine .inr ⟨request, _, ?_, hnext, hget, url.drop stop, ?_⟩
  · rw [requests_append, hprepared hprepare]
    rfl
  · have hport : lit ":" ++ Str.ofNat 443 = lit ":443" := by decide
    rw [hrequest, ← hport, ← List.append_assoc]
    rfl

theorem Slept.requests {left : Nat} {asked : Option PyFloat} {r : Except Failure Unit}
    (h : Slept H R left asked l r) : Http.requests l = [] := by
  refine requests_eq_nil fun c hc => ?_
  have := List.countP_eq_zero.mp h.counts.1 c hc
  exact eq_false_of_ne_true this

theorem Run.inTurn {parts : Url.SplitResult} (hadm : Admitted H url parts)
    (hguarded : H.guarded = true) {answers : List (Option Str)}
    (hchecked : Checked H parts.hostname answers A) {made left : Nat} {tried : List Str}
    {last : Option Failure} {r : Except Failure (Reply × Bytes)}
    (h : Run H url R made left tried last l r) {n : Nat} (htried : tried = turns A n)
    (hsteady : Steady H parts.hostname answers l) : InTurn A n (requests l) := by
  have hnil : ∀ n, InTurn A n [] := by
    rintro n i request ⟨⟩
  have hgates : ∀ {m : List Event} {x : Except Failure Unit}, Gated H url R m x →
      requests m = [] := fun hgate =>
    requests_of_not_act fun c hc => (hgate.calls c hc).not_act
  induction h generalizing n with
  | exhausted tried last => exact hnil n
  | refused hgate =>
    rw [hgates hgate]
    exact hnil n
  | stopped hgate htry hverdict =>
    subst htried
    have hone := htry.inTurn hadm hguarded hchecked (hsteady.mono fun c hc =>
      List.mem_append_right _ hc)
    rw [requests_append, hgates hgate, List.nil_append]
    rcases hone with ⟨hnone, -⟩ | ⟨request, address, hsent, -, hget, hgoes⟩
    · rw [hnone]
      exact hnil n
    · rw [hsent]
      exact .cons hget hgoes (hnil _)
  | awoken hgate htry hverdict hsleep =>
    subst htried
    have hone := htry.inTurn hadm hguarded hchecked (hsteady.mono fun c hc =>
      List.mem_append_right _ (List.mem_append_left _ hc))
    rw [requests_append, requests_append, hgates hgate, hsleep.requests, List.nil_append,
      List.append_nil]
    rcases hone with ⟨hnone, -⟩ | ⟨request, address, hsent, -, hget, hgoes⟩
    · rw [hnone]
      exact hnil n
    · rw [hsent]
      exact .cons hget hgoes (hnil _)
  | retried hgate htry hverdict hsleep hrest ih =>
    subst htried
    have hone := htry.inTurn hadm hguarded hchecked (hsteady.mono fun c hc =>
      List.mem_append_right _ (List.mem_append_left _ hc))
    have hlater := hsteady.mono fun c hc => List.mem_append_right _ (List.mem_append_right _
      (List.mem_append_right _ hc))
    rw [requests_append, requests_append, requests_append, hgates hgate, hsleep.requests,
      List.nil_append, List.nil_append]
    rcases hone with ⟨hnone, hsame⟩ | ⟨request, address, hsent, hnext, hget, hgoes⟩
    · rw [hnone]
      exact ih hsame hlater
    · rw [hsent]
      exact .cons hget hgoes (ih hnext hlater)

end Rotation

/-! ## The main results -/

/-- A library that knows two public addresses. -/
def sampleHosts (text : Str) : Option IpAddress :=
  if text = lit "93.184.216.34" ∨ text = lit "93.184.216.35" then
    some
      { text, isV6 := false, scopeId := none, isPrivate := false, isLoopback := false
        isLinkLocal := false, isReserved := false, isMulticast := false, isUnspecified := false
        isGlobal := true, isSiteLocal := false }
  else none

/-- A guarded client of one host, with three attempts and a list that ends at second 1. -/
def sampleClient : HttpClient Unit where
  interpreter := .atSecond 0 []
  zlib := ⟨fun _ => (), fun _ _ _ => none, fun _ => false, fun _ => []⟩
  rawDeflate := ()
  ipaddress := sampleHosts
  parseHttpDate := fun _ => none
  allowed := ["a.io"]
  timeoutS := .fin 10
  maxBytes := 1024
  retry := { backoffBaseS := .fin 0 }
  guarded := true
  validUntil := some 1

/-- The answers of the resolver. -/
def sampleAnswers : List (Option Str) := [some "93.184.216.34", some "93.184.216.35"]

/-- The host resolves to two addresses and neither is reached. -/
def sampleAnswer : (q : Query) → Except Failure q.Answer
  | .clock => .ok (.instant 0)
  | .monotonic => .ok (.fin 0)
  | .uniform _ => .ok (.fin 0)
  | .sleep _ => .ok ()
  | .resolve _ _ => .ok sampleAnswers
  | .stream _ => .error (foreign "TransportError" [])
  | .cacheGet _ => .ok none
  | .cacheSet _ _ => .ok ()

/-- The trace of `get_bytes` with a budget of one second. -/
def sampleTrace : List Event :=
  ((sampleClient.getBytes (lit "https://a.io/x") .null .null (.int 1)).calls sampleAnswer).map
    fun q => ⟨q, sampleAnswer q⟩

theorem sampleTrace_read : Read sampleClient (lit "https://a.io/x") (.int 1) sampleTrace :=
  .bytes (traced_eval sampleAnswer _)

theorem sampleTrace_requests : (requests sampleTrace).map (·.url) =
    [lit "https://93.184.216.34:443/x", lit "https://93.184.216.35:443/x",
      lit "https://93.184.216.34:443/x"] := by decide +kernel

theorem sampleTrace_split : ∃ pre request x post,
    sampleTrace = pre ++ ⟨.stream request, x⟩ :: post := by
  obtain ⟨request, hrequest⟩ : ∃ request, request ∈ requests sampleTrace := by
    refine List.exists_mem_of_ne_nil _ fun hnil => ?_
    have := sampleTrace_requests
    rw [hnil] at this
    cases this
  obtain ⟨⟨q, x⟩, hmem, hq⟩ := List.mem_filterMap.mp hrequest
  cases q with
  | stream request' =>
    cases hq
    obtain ⟨pre, post, hsplit⟩ := List.append_of_mem hmem
    exact ⟨pre, request, x, post, hsplit⟩
  | _ => cases hq

/-- Whatever the callables of a read do, each of its requests goes to an admitted URL, with an
address guard to a public address of its host that a lookup just before it gave, and before the end
of the list's life; and there are not more of them than the policy's attempts. -/
theorem read_confined {deadlineS : Json} (h : Read H url deadlineS l) :
    (∀ pre request x post, l = pre ++ ⟨.stream request, x⟩ :: post →
      Sent H url pre request ∧ ∀ expires, H.validUntil = some expires →
        ∃ t, ⟨.clock, .ok (.instant t)⟩ ∈ since pre ∧ t < expires) ∧
    l.countP (isStream ·.1) ≤ H.retry.attempts := by
  refine ⟨fun pre request x post hl => ?_, h.counts.1⟩
  rcases h.allowed quiet_nil with hnone | ⟨R, hallowed, -⟩
  · have := hnone ⟨.stream request, x⟩ (hl ▸ List.mem_append_right _ List.mem_cons_self)
    cases this
  · rw [hl] at hallowed
    obtain ⟨hsent, hfresh⟩ := hallowed.at.1 request rfl
    exact ⟨hsent, hfresh.1⟩

theorem read_confined_sample : ∃ pre request, Sent sampleClient (lit "https://a.io/x") pre request ∧
    sampleTrace.countP (isStream ·.1) ≤ 3 := by
  obtain ⟨hsent, hcount⟩ := read_confined sampleTrace_read
  obtain ⟨pre, request, x, post, hsplit⟩ := sampleTrace_split
  exact ⟨pre, request, (hsent pre request x post hsplit).1, hcount⟩

/-- Whatever the callables of a read do, each of its sleeps is one that `time.sleep` takes, within
the policy and the budget, no request goes out after the budget, and there are fewer sleeps than
attempts. -/
theorem read_timed {deadlineS : Json} (h : Read H url deadlineS l)
    (hact : ∃ c ∈ l, isAct c.1 = true) : ∃ until_, Budget deadlineS l until_ ∧
    (∀ pre request x post, l = pre ++ ⟨.stream request, x⟩ :: post → ∀ stop, until_ = some stop →
      ∃ now, ⟨.monotonic, .ok now⟩ ∈ since pre ∧
        PyFloat.le (PyFloat.sub stop now) (.fin 0) = false) ∧
    (∀ pre s x post, l = pre ++ ⟨.sleep s, x⟩ :: post →
      Rested H.retry s ∧ InBudget until_ pre s) ∧
    l.countP (isSleep ·.1) ≤ H.retry.attempts - 1 := by
  rcases h.allowed quiet_nil with hnone | ⟨R, hallowed, hbudget⟩
  · obtain ⟨c, hc, htrue⟩ := hact
    rw [hnone c hc] at htrue
    cases htrue
  refine ⟨R.until_, hbudget, fun pre request x post hl => ?_, fun pre s x post hl => ?_, h.counts.2⟩
  · rw [hl] at hallowed
    exact (hallowed.at.1 request rfl).2.2
  · rw [hl] at hallowed
    exact hallowed.at.2 s rfl

theorem read_timed_sample : ∃ until_, Budget (.int 1) sampleTrace until_ ∧
    sampleTrace.countP (isSleep ·.1) ≤ 2 := by
  obtain ⟨pre, request, x, post, hsplit⟩ := sampleTrace_split
  obtain ⟨until_, hbudget, -, -, hcount⟩ := read_timed sampleTrace_read
    ⟨⟨.stream request, x⟩, hsplit ▸ List.mem_append_right _ List.mem_cons_self, rfl⟩
  exact ⟨until_, hbudget, hcount⟩

/-- When the resolver always gives the same answers, the requests of a read go to its addresses in
turn: a retry never goes to an address again before all the others have had their turn. -/
theorem read_rotates {A : List Str} {deadlineS : Json} {parts : Url.SplitResult}
    {answers : List (Option Str)} (h : Read H url deadlineS l) (hguarded : H.guarded = true)
    (hsplit : Url.urlsplit H.interpreter.bracketedNetloc url = some parts)
    (hsteady : Steady H parts.hostname answers l)
    (hchecked : Checked H parts.hostname answers A) : A.Nodup ∧ InTurn A 0 (requests l) := by
  refine ⟨hchecked.nodup, ?_⟩
  have hnil : InTurn A 0 [] := by
    rintro i request ⟨⟩
  rcases h.looped with hnone | ⟨pre, m, post, R, r, rfl, hpre, hpost, hrequest, -⟩
  · rw [requests_of_not_act fun c hc => (hnone c hc).1]
    exact hnil
  rw [requests_append, requests_append, requests_of_not_act fun c hc => (hpre c hc).1,
    requests_of_not_act fun c hc => (hpost c hc).1, List.nil_append, List.append_nil]
  rcases traced_request hrequest with rfl | ⟨parts', made, hadm, -, hrun⟩
  · exact hnil
  have hsame := hadm.split
  rw [hsplit] at hsame
  cases hsame
  exact hrun.inTurn hadm hguarded hchecked rfl (hsteady.mono fun c hc =>
    List.mem_append_right _ (List.mem_append_left _ hc))

theorem read_rotates_sample :
    InTurn ["93.184.216.34", "93.184.216.35"] 0 (requests sampleTrace) := by
  have hsplit : Url.urlsplit sampleClient.interpreter.bracketedNetloc (lit "https://a.io/x") =
      some ⟨"https", "a.io", "/x", [], []⟩ := by decide +kernel
  have hsteady : Steady sampleClient "a.io" sampleAnswers sampleTrace := by
    refine ⟨fun x hx => ?_, by decide⟩
    obtain ⟨q, -, hq⟩ := List.mem_map.mp hx
    cases hq
    rfl
  have hchecked : Checked sampleClient "a.io" sampleAnswers ["93.184.216.34", "93.184.216.35"] :=
    ⟨["93.184.216.34", "93.184.216.35"], rfl, rfl⟩
  exact (read_rotates sampleTrace_read rfl hsplit hsteady hchecked).2

end OpenVC.Ebsi.Http
