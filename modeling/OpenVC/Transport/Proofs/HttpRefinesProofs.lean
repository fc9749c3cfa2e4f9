import OpenVC.Transport.Proofs.HttpReadsProofs

/-!
# The HTTP client refines the client of the nodes' proofs

For the client of the verified nodes an attempt of a request is one call. Every run of the HTTP
client is such a run: the lookup and the request of an attempt are its call, and the jitter and the
sleep after it are not seen.
-/

namespace OpenVC.Ebsi.Http

open Python Calling

variable {σ : Type} {H : HttpClient σ} {url : Str} {R : HttpClient.Reader} {l m : List Event}

/-! ## What the abstract client sees -/

/-- A call of the abstract client with its outcome. -/
abbrev Seen := Answer NodeClient.Query NodeClient.Query.Answer NodeClient.Exc

/-- An outcome as the abstract client sees it. -/
def erased {α : Type} (r : Except Failure α) : Except NodeClient.Exc α := r.mapError (·.toExc)

/-- The calls of the clock and the cache, as the abstract client sees them. -/
def seen : Event → Option Seen
  | ⟨.clock, x⟩ => some ⟨.clock, erased x⟩
  | ⟨.cacheGet url, x⟩ => some ⟨.cacheGet url, erased x⟩
  | ⟨.cacheSet url data, x⟩ => some ⟨.cacheSet url data, erased x⟩
  | _ => none

/-- Whether a call of the abstract client is an attempt. -/
def isSend : NodeClient.Query → Bool
  | .send _ => true
  | _ => false

/-- An abstract trace shows a concrete one: besides its attempts it is the calls of the clock and
the cache, and it has an attempt for each request. -/
structure Shows (l : List Event) (l' : List Seen) : Prop where
  calls : l'.filter (!isSend ·.1) = l.filterMap seen
  requests : l.countP (isStream ·.1) ≤ l'.countP (isSend ·.1)

theorem Shows.nil : Shows [] [] := ⟨rfl, le_refl 0⟩

theorem Shows.append {l' m' : List Seen} (hl : Shows l l') (hm : Shows m m') :
    Shows (l ++ m) (l' ++ m') where
  calls := by rw [List.filter_append, List.filterMap_append, hl.calls, hm.calls]
  requests := by
    rw [List.countP_append, List.countP_append]
    exact Nat.add_le_add hl.requests hm.requests

/-- Calls that the abstract client does not see. -/
def Hidden (l : List Event) : Prop := l.filterMap seen = []

theorem hidden_of_forall (h : ∀ c ∈ l, (∃ host port, c.1 = .resolve host port) ∨
    (∃ x, c.1 = .uniform x) ∨ c.1 = .monotonic ∨ isAct c.1 = true) : Hidden l := by
  refine List.filterMap_eq_nil_iff.mpr fun c hc => ?_
  obtain ⟨q, x⟩ := c
  rcases h _ hc with ⟨host, port, rfl⟩ | ⟨y, rfl⟩ | rfl | hact
  · rfl
  · rfl
  · rfl
  · cases q <;> first | rfl | cases hact

theorem checkValid_refines {r : Except Failure Unit} (h : Traced H.checkValid l r) :
    ∃ l', Traced H.toNode.checkValid l' (erased r) ∧ Shows l l' := by
  unfold HttpClient.checkValid at h
  unfold NodeClient.EbsiHttpClient.checkValid
  rw [show H.toNode.validUntil = H.validUntil from rfl]
  cases hexpires : H.validUntil with
  | none =>
    rw [hexpires] at h
    obtain ⟨rfl, rfl⟩ := traced_pure.mp h
    exact ⟨[], .done _, .nil⟩
  | some expires =>
    rw [hexpires] at h
    have hclock : ∀ {l₁ : List Event} {y : Except Failure Int},
        Traced ((ask .clock).handle HttpClient.clockReading) l₁ y →
        ∃ l', Traced NodeClient.readClock l' (erased y) ∧ Shows l₁ l' := by
      intro l₁ y hy
      obtain ⟨x, hx, rfl⟩ := traced_handle.mp hy
      obtain rfl := traced_ask.mp hx
      refine ⟨[⟨.clock, erased x⟩], traced_handle.mpr ⟨_, traced_ask.mpr rfl, ?_⟩, ⟨rfl, le_refl 0⟩⟩
      cases x with
      | error e => rfl
      | ok reading => cases reading <;> rfl
    rcases traced_bind.mp h with ⟨e, hread, rfl⟩ | ⟨now, l₁, l₂, hread, hcheck, rfl⟩
    · obtain ⟨l', htraced, hshows⟩ := hclock hread
      exact ⟨l', traced_bind.mpr (.inl ⟨e.toExc, htraced, rfl⟩), hshows⟩
    · obtain ⟨l', htraced, hshows⟩ := hclock hread
      obtain ⟨rfl, rfl⟩ := traced_done.mp hcheck
      refine ⟨l' ++ [], traced_bind.mpr (.inr ⟨now, l', [], htraced, ?_, rfl⟩),
        hshows.append .nil⟩
      refine traced_done.mpr ⟨rfl, ?_⟩
      unfold raiseIf
      split <;> rfl

/-! ## One attempt -/

/-- The call that an attempt is for the abstract client. -/
def replyOf : Except Failure (Reply × Bytes × Option Str) → Except NodeClient.Exc NodeClient.Reply
  | .error e =>
    if isForeign "InvalidURL" e then .ok .invalidUrl
    else if isForeign "DecodingError" e then .ok .decodingError
    else if isForeign "TransportError" e then
      .ok (.transportError (HttpClient.boundedText (some e)))
    else .error e.toExc
  | .ok (resp, body, _) => .ok (.answer resp.status body)

/-- What the abstract client keeps of the last failure. -/
def lastOf (e : Failure) : Str × Option Int :=
  (HttpClient.boundedText (some e), (HttpClient.asHttpError (some e)).bind (·.status))

/-- What the abstract client returns. -/
def answerOf (r : Except Failure (Reply × Bytes)) : Except NodeClient.Exc (Int × Bytes) :=
  erased (r.map fun answer => (answer.1.status, answer.2))

/-- The abstract loop after an attempt. -/
def afterSend (N : NodeClient.EbsiHttpClient) (url : Str) (probe : Bool) (made left : Nat) :
    Except NodeClient.Exc NodeClient.Reply → NodeClient.Client (Int × Bytes)
  | .ok .invalidUrl =>
    NodeClient.run (NodeClient.fail .httpForbiddenHost "URL rejected by the HTTP client")
  | .ok .decodingError => NodeClient.run (NodeClient.fail .malformedRegistryResponse
      "registry returned a body that does not decode: %" [.str url])
  | .ok (.transportError text) => N.requestLoop url probe made left (some (text, none))
  | .error e =>
    if e.cls.isa .httpAddressResolutionFailed then
      N.requestLoop url probe made left (some (e.text, e.status))
    else NodeClient.run (.error e)
  | .ok (.answer status body) =>
    if status = 200 then NodeClient.run (.ok (status, body))
    else if probe then NodeClient.run (.ok (status, []))
    else if status = 404 then
      NodeClient.run (NodeClient.fail .httpNotFound "not found" [] (some 404))
    else if status ∈ N.retryStatuses then
      N.requestLoop url probe made left (some (lit "transient", some status))
    else NodeClient.run
      (NodeClient.fail .httpError "unexpected status %" [.int status] (some status))

theorem traced_attempt {N : NodeClient.EbsiHttpClient} {probe : Bool} {made left : Nat}
    {last : Option (Str × Option Int)} {l₁ l₂ : List Seen} {r : Except NodeClient.Exc (Int × Bytes)}
    (reply : Except NodeClient.Exc NodeClient.Reply) (hvalid : Traced N.checkValid l₁ (.ok ()))
    (hrest : Traced (afterSend N url probe made left reply) l₂ r) :
    Traced (N.requestLoop url probe made (left + 1) last) (l₁ ++ ⟨.send url, reply⟩ :: l₂) r := by
  refine traced_bind.mpr (.inr ⟨(), l₁, _, hvalid, ?_, rfl⟩)
  refine traced_try_bind.mpr ⟨reply, [⟨.send url, reply⟩], l₂, traced_ask.mpr rfl, ?_, rfl⟩
  cases reply with
  | error e => exact hrest
  | ok reply => cases reply <;> exact hrest

theorem afterSend_stop {made left : Nat} {outcome : Except Failure (Reply × Bytes × Option Str)}
    {r : Except Failure (Reply × Bytes)} (hmodified : R.acceptNotModified = false)
    (h : H.verdict url R outcome = .stop r) :
    afterSend H.toNode url R.probe made left (replyOf outcome) = NodeClient.run (answerOf r) := by
  cases outcome with
  | error e =>
    unfold HttpClient.verdict at h
    unfold replyOf
    dsimp only at h ⊢
    by_cases hurl : isForeign "InvalidURL" e = true
    · rw [if_pos hurl] at h ⊢
      cases h
      rfl
    by_cases hdecoding : isForeign "DecodingError" e = true
    · rw [if_neg hurl, if_pos hdecoding] at h ⊢
      cases h
      rfl
    rw [if_neg hurl, if_neg hdecoding] at h ⊢
    split at h
    · cases h
    · rename_i hother
      cases h
      rw [Bool.or_eq_true, not_or] at hother
      rw [if_neg hother.1, afterSend, if_neg hother.2]
      rfl
  | ok answer =>
    obtain ⟨resp, body, problem⟩ := answer
    unfold HttpClient.verdict HttpClient.verdictOf at h
    unfold replyOf afterSend
    dsimp only at h ⊢
    by_cases hok : resp.status = 200
    · rw [if_pos hok] at h ⊢
      cases h
      rfl
    rw [if_neg hok, if_neg (by simp [hmodified])] at h
    rw [if_neg hok]
    by_cases hprobe : R.probe = true
    · rw [if_pos hprobe] at h ⊢
      cases h
      rfl
    rw [if_neg hprobe] at h ⊢
    by_cases hmissing : resp.status = 404
    · rw [if_pos hmissing] at h ⊢
      cases h
      rfl
    rw [if_neg hmissing] at h ⊢
    split at h
    · cases h
    · rename_i hretry
      cases h
      exact if_neg hretry

/-- A failed lookup is an `HttpError`. -/
theorem httpError_of_unresolved {e : Failure} (h : e.cls.isa .httpAddressResolutionFailed = true) :
    lastOf e = (lit e.text, e.status) := by
  have hhttp : e.cls.isa .httpError = true ∧ e.cls ≠ .exception := by
    revert h
    cases e.cls <;> decide
  have htext : HttpClient.boundedText (some e) = lit e.text := by
    unfold HttpClient.boundedText
    dsimp only
    split
    · rename_i hcls _
      exact absurd hcls hhttp.2
    · rfl
  rw [lastOf, htext, HttpClient.asHttpError, Option.filter_some, if_pos hhttp.1]
  rfl

theorem afterSend_retry {made left : Nat} {outcome : Except Failure (Reply × Bytes × Option Str)}
    {failed : Failure} {asked : Option PyFloat} (hmodified : R.acceptNotModified = false)
    (h : H.verdict url R outcome = .retry failed asked) :
    afterSend H.toNode url R.probe made left (replyOf outcome) =
      H.toNode.requestLoop url R.probe made left (some (lastOf failed)) := by
  cases outcome with
  | error e =>
    unfold HttpClient.verdict at h
    unfold replyOf
    dsimp only at h ⊢
    by_cases hurl : isForeign "InvalidURL" e = true
    · rw [if_pos hurl] at h
      cases h
    by_cases hdecoding : isForeign "DecodingError" e = true
    · rw [if_neg hurl, if_pos hdecoding] at h
      cases h
    rw [if_neg hurl, if_neg hdecoding] at h ⊢
    split at h
    · rename_i hlast
      cases h
      by_cases htransport : isForeign "TransportError" failed = true
      · have hforeign : HttpClient.asHttpError (some failed) = none := by
          unfold HttpClient.asHttpError
          rw [Option.filter_some, if_neg]
          rw [isForeign, Bool.and_eq_true, beq_iff_eq] at htransport
          rw [htransport.1]
          decide
        rw [if_pos htransport, afterSend, lastOf, hforeign]
        rfl
      · rw [Bool.or_eq_true, or_iff_right htransport] at hlast
        rw [if_neg htransport, afterSend, if_pos hlast, httpError_of_unresolved hlast]
    · cases h
  | ok answer =>
    obtain ⟨resp, body, problem⟩ := answer
    unfold HttpClient.verdict HttpClient.verdictOf at h
    unfold replyOf afterSend
    dsimp only at h ⊢
    by_cases hok : resp.status = 200
    · rw [if_pos hok] at h
      cases h
    rw [if_neg hok, if_neg (by simp [hmodified])] at h
    rw [if_neg hok]
    by_cases hprobe : R.probe = true
    · rw [if_pos hprobe] at h
      cases h
    rw [if_neg hprobe] at h ⊢
    by_cases hmissing : resp.status = 404
    · rw [if_pos hmissing] at h
      cases h
    rw [if_neg hmissing] at h ⊢
    split at h
    · rename_i hretry
      cases h
      exact if_pos hretry
    · cases h

/-! ## The loop -/

/-- The jitter and the sleeps return. -/
def Calm (l : List Event) : Prop :=
  ∀ c ∈ l, isSleep c.1 = true ∨ (∃ x, c.1 = .uniform x) → ∃ y, c.2 = .ok y

theorem Calm.mono (h : Calm l) (hsub : ∀ c ∈ m, c ∈ l) : Calm m := fun c hc => h c (hsub c hc)

/-- Without a budget nothing but the jitter and the sleep can keep a retry from being made. -/
theorem Slept.returns {left : Nat} {asked : Option PyFloat} {r : Except Failure Unit}
    (h : Slept H R left asked l r) (hbudget : R.until_ = none) (hcalm : Calm l)
    (hattempts : H.retry.attempts ≤ 1024) : r = .ok () := by
  unfold Slept HttpClient.sleepBeforeRetry at h
  split at h
  · exact (traced_pure.mp h).2
  rename_i hmore
  have hbackoff : ∀ {l₁ : List Event} {x : Except Failure PyFloat},
      Traced (H.retry.backoff (H.retry.attempts - (left + 1))) l₁ x → Calm l₁ → ∃ y, x = .ok y := by
    intro l₁ x hb hcalm
    rcases traced_liftM_bind.mp hb with ⟨e, hscaled, -⟩ | ⟨scaled, -, hb⟩
    · have hlarge : ¬ 1024 ≤ H.retry.attempts - (left + 1) := by omega
      unfold PyFloat.timesPow2 at hscaled
      rw [if_neg hlarge] at hscaled
      split at hscaled
      · cases hscaled
      · cases hscaled
    rcases traced_ask_bind.mp hb with ⟨e, rfl, -⟩ | ⟨jitter, l₂, hdone, rfl⟩
    · obtain ⟨y, hy⟩ := hcalm _ List.mem_cons_self (.inr ⟨_, rfl⟩)
      cases hy
    · exact ⟨_, (traced_pure.mp hdone).2⟩
  rcases traced_bind.mp h with ⟨e, hb, -⟩ | ⟨backoff, l₁, l₂, hb, hrest, rfl⟩
  · obtain ⟨y, hy⟩ := hbackoff hb hcalm
    cases hy
  rw [hbudget] at hrest
  obtain rfl := traced_ask.mp hrest
  obtain ⟨y, hy⟩ := hcalm _ (List.mem_append_right _ List.mem_cons_self) (.inl rfl)
  cases y
  exact hy

theorem Slept.hidden {left : Nat} {asked : Option PyFloat} {r : Except Failure Unit}
    (h : Slept H R left asked l r) : Hidden l := by
  obtain ⟨m, hm, hcases⟩ := h.cases
  refine hidden_of_forall fun c hc => ?_
  rcases hcases with ⟨rfl, -⟩ | ⟨s, x, rfl, -⟩
  · rcases hm c hc with huniform | hmonotonic
    · exact .inr (.inl huniform)
    · exact .inr (.inr (.inl hmonotonic))
  · rcases List.mem_append.mp hc with hmem | hmem
    · rcases hm c hmem with huniform | hmonotonic
      · exact .inr (.inl huniform)
      · exact .inr (.inr (.inl hmonotonic))
    · rw [List.mem_singleton.mp hmem]
      exact .inr (.inr (.inr rfl))

theorem Tried.hidden {parts : Url.SplitResult} (hadm : Admitted H url parts)
    {tried tried' : List Str} {outcome : Except Failure (Reply × Bytes × Option Str)}
    (h : Tried H url R tried l outcome tried') : Hidden l := by
  have hprepared : ∀ {m : List Event} {r : Except Failure (Request × List Str)},
      Traced (H.prepare url tried R.headers) m r →
      ∀ c ∈ m, ∃ host port, c.1 = .resolve host port := by
    intro m r hm c hc
    rcases hadm.traced_prepare hm with ⟨-, rfl, -⟩ | ⟨-, hcalls, -⟩
    · cases hc
    · exact ⟨_, _, hcalls c hc⟩
  refine hidden_of_forall fun c hc => ?_
  rcases h.cases with ⟨e, hprepare, -, -⟩ | ⟨request, m, x, hprepare, rfl, -⟩
  · exact .inl (hprepared hprepare c hc)
  · rcases List.mem_append.mp hc with hmem | hmem
    · exact .inl (hprepared hprepare c hmem)
    · rw [List.mem_singleton.mp hmem]
      exact .inr (.inr (.inr rfl))

/-- An attempt is shown as its call. -/
theorem Tried.shows {parts : Url.SplitResult} (hadm : Admitted H url parts)
    {tried tried' : List Str} {outcome : Except Failure (Reply × Bytes × Option Str)}
    (h : Tried H url R tried l outcome tried')
    (reply : Except NodeClient.Exc NodeClient.Reply) : Shows l [⟨.send url, reply⟩] where
  calls := (h.hidden hadm).symm
  requests := (h.counts hadm).1

theorem Slept.shows {left : Nat} {asked : Option PyFloat} {r : Except Failure Unit}
    (h : Slept H R left asked l r) : Shows l [] where
  calls := h.hidden.symm
  requests := by
    rw [h.counts.1]
    exact Nat.zero_le _

theorem gated_refines {r : Except Failure Unit} (h : Gated H url R l r)
    (hbudget : R.until_ = none) :
    ∃ l', Traced H.toNode.checkValid l' (erased r) ∧ Shows l l' := by
  unfold Gated at h
  rw [hbudget] at h
  rcases traced_bind.mp h with ⟨e, hcheck, rfl⟩ | ⟨⟨⟩, l₁, l₂, hcheck, hdone, rfl⟩
  · exact checkValid_refines hcheck
  · obtain ⟨rfl, rfl⟩ := traced_pure.mp hdone
    rw [List.append_nil]
    exact checkValid_refines hcheck

/-- A run of the loop is one of the abstract loop, an attempt for an attempt. -/
theorem Run.refines {parts : Url.SplitResult} (hadm : Admitted H url parts)
    (hbudget : R.until_ = none) (hmodified : R.acceptNotModified = false)
    (hattempts : H.retry.attempts ≤ 1024) {made left : Nat} {tried : List Str}
    {last : Option Failure} {r : Except Failure (Reply × Bytes)}
    (h : Run H url R made left tried last l r) (hcalm : Calm l) :
    ∃ l', Traced (H.toNode.requestLoop url R.probe made left (last.map lastOf)) l' (answerOf r) ∧
      Shows l l' := by
  induction h with
  | exhausted tried last =>
    refine ⟨[], traced_done.mpr ⟨rfl, ?_⟩, .nil⟩
    cases last <;> rfl
  | refused hgate =>
    obtain ⟨l', hvalid, hshows⟩ := gated_refines hgate hbudget
    exact ⟨l', traced_bind.mpr (.inl ⟨_, hvalid, rfl⟩), hshows⟩
  | @stopped left tried tried' last l m outcome r hgate htry hverdict =>
    obtain ⟨l', hvalid, hshows⟩ := gated_refines hgate hbudget
    refine ⟨l' ++ [⟨.send url, replyOf outcome⟩], traced_attempt _ hvalid ?_,
      hshows.append (htry.shows hadm _)⟩
    rw [afterSend_stop hmodified hverdict]
    exact .done _
  | awoken hgate htry hverdict hsleep =>
    have hreturns := hsleep.returns hbudget (hcalm.mono fun c hc =>
      List.mem_append_right _ (List.mem_append_right _ hc)) hattempts
    cases hreturns
  | @retried left tried tried' last l m n k outcome failed asked r hgate htry hverdict hsleep hrest
      ih =>
    obtain ⟨l', hvalid, hshows⟩ := gated_refines hgate hbudget
    obtain ⟨k', hloop, hlater⟩ := ih (hcalm.mono fun c hc =>
      List.mem_append_right _ (List.mem_append_right _ (List.mem_append_right _ hc)))
    refine ⟨l' ++ ⟨.send url, replyOf outcome⟩ :: k', traced_attempt _ hvalid ?_,
      hshows.append ((htry.shows hadm _).append (hsleep.shows.append hlater))⟩
    rw [afterSend_retry hmodified hverdict]
    exact hloop

/-! ## The reads -/

theorem erased_guardHost : erased (H.guardHost url) = H.toNode.guardHost url := by
  unfold HttpClient.guardHost erased
  cases H.toNode.guardHost url <;> rfl

theorem request_refines (hbudget : R.until_ = none) (hmodified : R.acceptNotModified = false)
    (hattempts : H.retry.attempts ≤ 1024) {r : Except Failure (Reply × Bytes)}
    (h : Traced (H.request url R) l r) (hcalm : Calm l) :
    ∃ l', Traced (H.toNode.request url R.probe) l' (answerOf r) ∧ Shows l l' := by
  rcases traced_liftM_bind.mp h with ⟨e, hguard, rfl, rfl⟩ | ⟨⟨⟩, hguard, hloop⟩
  · refine ⟨[], traced_bind.mpr (.inl ⟨e.toExc, traced_done.mpr ⟨rfl, ?_⟩, rfl⟩), .nil⟩
    rw [← erased_guardHost, hguard]
    rfl
  obtain ⟨parts, hadm⟩ := exists_admitted hguard
  obtain ⟨l', htraced, hshows⟩ :=
    (run_of_traced hloop).refines hadm hbudget hmodified hattempts hcalm
  refine ⟨l', traced_bind.mpr (.inr ⟨(), [], l', traced_done.mpr ⟨rfl, ?_⟩, htraced, rfl⟩), hshows⟩
  rw [← erased_guardHost, hguard]
  rfl

theorem fetchJson_refines (hattempts : H.retry.attempts ≤ 1024) {r : Except Failure Json}
    (h : Traced (H.fetchJson url) l r) (hcalm : Calm l) :
    ∃ l', Traced (H.toNode.fetchJson url) l' (erased r) ∧ Shows l l' := by
  rcases traced_bind.mp h with ⟨e, hrequest, rfl⟩ | ⟨answer, l₁, l₂, hrequest, hread, rfl⟩
  · obtain ⟨l', htraced, hshows⟩ := request_refines rfl rfl hattempts hrequest hcalm
    exact ⟨l', traced_bind.mpr (.inl ⟨e.toExc, htraced, rfl⟩), hshows⟩
  obtain ⟨l', htraced, hshows⟩ := request_refines rfl rfl hattempts hrequest
    (hcalm.mono fun c hc => List.mem_append_left _ hc)
  have hobject : erased (HttpClient.readObject url answer.2) =
      NodeClient.EbsiHttpClient.readObject url answer.2 := by
    unfold HttpClient.readObject erased
    cases NodeClient.EbsiHttpClient.readObject url answer.2 <;> rfl
  have hrest : ∀ {m' : List Seen} {x : Except NodeClient.Exc Json},
      Traced (NodeClient.run (NodeClient.EbsiHttpClient.readObject url answer.2) >>= fun data =>
        NodeClient.ask (.cacheSet url data) >>= fun _ => pure data) m' x →
      Traced (H.toNode.fetchJson url) (l' ++ m') x := fun hm =>
    traced_bind.mpr (.inr ⟨_, l', _, htraced, hm, rfl⟩)
  rcases traced_liftM_bind.mp hread with ⟨e, herror, rfl, rfl⟩ | ⟨data, hdata, hset⟩
  · refine ⟨l' ++ [], hrest (traced_bind.mpr (.inl ⟨e.toExc, traced_done.mpr ⟨rfl, ?_⟩, rfl⟩)),
      hshows.append .nil⟩
    rw [← hobject, herror]
    rfl
  have hstore : Traced (NodeClient.run (NodeClient.EbsiHttpClient.readObject url answer.2)) []
      (.ok data) := by
    rw [← hobject, hdata]
    exact .done _
  rcases traced_ask_bind.mp hset with ⟨e, rfl, rfl⟩ | ⟨⟨⟩, l₃, hdone, rfl⟩
  · exact ⟨l' ++ [⟨.cacheSet url data, .error e.toExc⟩],
      hrest (traced_bind.mpr (.inr ⟨data, [], _, hstore,
        traced_ask_bind.mpr (.inl ⟨e.toExc, rfl, rfl⟩), rfl⟩)),
      hshows.append ⟨rfl, le_refl 0⟩⟩
  · obtain ⟨rfl, rfl⟩ := traced_pure.mp hdone
    exact ⟨l' ++ [⟨.cacheSet url data, .ok ()⟩],
      hrest (traced_bind.mpr (.inr ⟨data, [], _, hstore,
        traced_ask_bind.mpr (.inr ⟨(), [], .done _, rfl⟩), rfl⟩)),
      hshows.append ⟨rfl, le_refl 0⟩⟩

/-- The abstract read after the cache was asked. -/
def afterCacheGet (N : NodeClient.EbsiHttpClient) (url : Str) :
    Option Json → NodeClient.Client Json
  | some data => NodeClient.run (.ok data)
  | none => N.fetchJson url

theorem traced_cacheGet {N : NodeClient.EbsiHttpClient} {cached : Option Json} {l₁ l₂ : List Seen}
    {r : Except NodeClient.Exc Json} (hvalid : Traced N.checkValid l₁ (.ok ()))
    (hguard : N.guardHost url = .ok ()) (hrest : Traced (afterCacheGet N url cached) l₂ r) :
    Traced (N.getJson url) (l₁ ++ ⟨.cacheGet url, .ok cached⟩ :: l₂) r := by
  have hpassed : Traced (NodeClient.run (N.guardHost url)) [] (.ok ()) := by
    rw [hguard]
    exact .done _
  refine traced_bind.mpr (.inr ⟨(), l₁, _, hvalid, traced_bind.mpr (.inr ⟨(), [], _, hpassed,
    traced_ask_bind.mpr (.inr ⟨cached, l₂, ?_, rfl⟩), rfl⟩), rfl⟩)
  cases cached with
  | some data => exact hrest
  | none => exact hrest

theorem getJson_refines (hattempts : H.retry.attempts ≤ 1024) {r : Except Failure Json}
    (h : Traced (H.getJson url) l r) (hcalm : Calm l) :
    ∃ l', Traced (H.toNode.getJson url) l' (erased r) ∧ Shows l l' := by
  rcases traced_bind.mp h with ⟨e, hcheck, rfl⟩ | ⟨⟨⟩, l₁, l₂, hcheck, hguarded, rfl⟩
  · obtain ⟨l', hvalid, hshows⟩ := checkValid_refines hcheck
    exact ⟨l', traced_bind.mpr (.inl ⟨e.toExc, hvalid, rfl⟩), hshows⟩
  obtain ⟨l', hvalid, hshows⟩ := checkValid_refines hcheck
  rcases traced_liftM_bind.mp hguarded with ⟨e, hguard, rfl, rfl⟩ | ⟨⟨⟩, hguard, hget⟩
  · refine ⟨l' ++ [], traced_bind.mpr (.inr ⟨(), l', [], hvalid, traced_bind.mpr
      (.inl ⟨e.toExc, traced_done.mpr ⟨rfl, ?_⟩, rfl⟩), rfl⟩), hshows.append .nil⟩
    rw [← erased_guardHost, hguard]
    rfl
  have hpassed : H.toNode.guardHost url = .ok () := by
    rw [← erased_guardHost, hguard]
    rfl
  rcases traced_ask_bind.mp hget with ⟨e, rfl, rfl⟩ | ⟨cached, l₃, hcached, rfl⟩
  · refine ⟨l' ++ [⟨.cacheGet url, .error e.toExc⟩], traced_bind.mpr (.inr ⟨(), l', _, hvalid,
      traced_bind.mpr (.inr ⟨(), [], _, ?_, traced_ask_bind.mpr (.inl ⟨e.toExc, rfl, rfl⟩), rfl⟩),
      rfl⟩), hshows.append ⟨rfl, le_refl 0⟩⟩
    exact traced_done.mpr ⟨rfl, hpassed.symm⟩
  have hafter : ∃ l'', Traced (afterCacheGet H.toNode url cached) l'' (erased r) ∧
      Shows l₃ l'' := by
    cases cached with
    | some data =>
      obtain ⟨rfl, rfl⟩ := traced_pure.mp hcached
      exact ⟨[], .done _, .nil⟩
    | none => exact fetchJson_refines hattempts hcached (hcalm.mono fun c hc =>
        List.mem_append_right _ (List.mem_cons_of_mem _ hc))
  obtain ⟨l'', htraced, hlater⟩ := hafter
  have hhead : Shows [⟨.cacheGet url, .ok cached⟩] [⟨.cacheGet url, .ok cached⟩] :=
    ⟨rfl, le_refl 0⟩
  exact ⟨_, traced_cacheGet hvalid hpassed htraced, hshows.append (hhead.append hlater)⟩

theorem probe_refines (hattempts : H.retry.attempts ≤ 1024) {maxBytes : Int} (hbytes : 0 ≤ maxBytes)
    {r : Except Failure (Int × Bytes)} (h : Traced (H.probe url maxBytes) l r) (hcalm : Calm l) :
    ∃ l', Traced (H.toNode.probe url) l' (erased r) ∧ Shows l l' := by
  rcases traced_bind.mp h with ⟨e, hcheck, rfl⟩ | ⟨⟨⟩, l₁, l₂, hcheck, hbounded, rfl⟩
  · obtain ⟨l', hvalid, hshows⟩ := checkValid_refines hcheck
    exact ⟨l', traced_bind.mpr (.inl ⟨e.toExc, hvalid, rfl⟩), hshows⟩
  obtain ⟨l', hvalid, hshows⟩ := checkValid_refines hcheck
  rcases traced_liftM_bind.mp hbounded with ⟨e, hnegative, -⟩ | ⟨⟨⟩, -, hprobe⟩
  · rw [raiseIf, if_neg (by simpa using hbytes)] at hnegative
    cases hnegative
  have hcalm₂ : Calm l₂ := hcalm.mono fun c hc => List.mem_append_right _ hc
  rcases traced_bind.mp hprobe with ⟨e, hrequest, rfl⟩ | ⟨answer, l₃, l₄, hrequest, hdone, rfl⟩
  · obtain ⟨l'', htraced, hlater⟩ := request_refines rfl rfl hattempts hrequest hcalm₂
    exact ⟨l' ++ l'', traced_bind.mpr (.inr ⟨(), l', l'', hvalid, htraced, rfl⟩),
      hshows.append hlater⟩
  · obtain ⟨rfl, rfl⟩ := traced_pure.mp hdone
    rw [List.append_nil] at hcalm₂ ⊢
    obtain ⟨l'', htraced, hlater⟩ := request_refines rfl rfl hattempts hrequest hcalm₂
    exact ⟨l' ++ l'', traced_bind.mpr (.inr ⟨(), l', l'', hvalid, htraced, rfl⟩),
      hshows.append hlater⟩

/-- A read of the HTTP client is one of the abstract client: it returns or raises the same, makes
the same calls of the clock and the cache in the same order, and hides no request. -/
theorem httpClient_refines (hattempts : H.retry.attempts ≤ 1024) (hcalm : Calm l) :
    (∀ r, Traced (H.getJson url) l r →
      ∃ l', Traced (H.toNode.getJson url) l' (erased r) ∧ Shows l l') ∧
    ∀ maxBytes r, 0 ≤ maxBytes → Traced (H.probe url maxBytes) l r →
      ∃ l', Traced (H.toNode.probe url) l' (erased r) ∧ Shows l l' :=
  ⟨fun _ h => getJson_refines hattempts h hcalm,
    fun _ _ hbytes h => probe_refines hattempts hbytes h hcalm⟩

/-- The trace of `get_json` on the sample answers. -/
def sampleJsonTrace : List Event :=
  ((sampleClient.getJson (lit "https://a.io/x")).calls sampleAnswer).map
    fun q => ⟨q, sampleAnswer q⟩

theorem httpClient_refines_sample : ∃ l',
    Traced (sampleClient.toNode.getJson (lit "https://a.io/x")) l'
      (erased ((sampleClient.getJson (lit "https://a.io/x")).eval sampleAnswer)) ∧
    Shows sampleJsonTrace l' := by
  have hcalm : Calm sampleJsonTrace := by
    intro c hc hkind
    obtain ⟨q, -, rfl⟩ := List.mem_map.mp hc
    cases q with
    | sleep s => exact ⟨(), rfl⟩
    | uniform x => exact ⟨.fin 0, rfl⟩
    | _ =>
      rcases hkind with hsleep | ⟨x, hx⟩
      · cases hsleep
      · cases hx
  exact (httpClient_refines (by decide) hcalm).1 _ (traced_eval sampleAnswer _)

end OpenVC.Ebsi.Http
