import OpenVC.Ebsi.Proofs.NodeRequestsProofs
import OpenVC.Ebsi.Proofs.OriginProofs

/-!
# One walk, one node

Whatever the clock, the policy, the transport, the caches and the walk do: the value that `run`
returns was computed by one attempt, all of it on one listed node that did not fail; a refusal or an
expiry ends the run; and nothing is requested or served once the list has expired.
-/

namespace OpenVC.Ebsi.NodeClient

open Python Calling

/-! ## Sessions -/

/-- The session saw an expired list, a bad configuration or a URL that is refused. -/
def SawTerminal (seen : List Seen) : Prop :=
  ∃ url e, (⟨.getJson url, .error e⟩ : Seen) ∈ seen ∧ isTerminal e = true

/-- The session saw a failure of its node. -/
def SawFailure (seen : List Seen) : Prop :=
  ∃ url e, (⟨.getJson url, .error e⟩ : Seen) ∈ seen ∧ (classify e).isSome = true

/-- What a session records of one call of the walk. -/
def Session.see (origin : Str) (s : Session) : Seen → Session
  | ⟨.getJson _, r⟩ => s.after origin r
  | ⟨.outside _, _⟩ => s

/-- What a session has recorded after the calls of a walk. -/
def Session.record (origin : Str) (s : Session) (seen : List Seen) : Session :=
  seen.foldl (Session.see origin) s

theorem isTerminal_isa {e : Exc} (h : isTerminal e = true) : e.cls.isa .ebsiError = true := by
  have key : ∀ c : ErrorClass, (c.isa .nodeListExpired || c.isa .nodeClientConfigError ||
      (c.isa .httpForbiddenHost && !c.isa .httpForbiddenAddress)) = true →
      c.isa .ebsiError = true := by
    intro c
    cases c <;> decide
  exact key e.cls h

theorem classify_isa {e : Exc} (h : (classify e).isSome = true) :
    e.cls.isa .ebsiError = true := by
  have key : ∀ c : ErrorClass, c.isa .httpForbiddenAddress = true ∨
      c.isa .httpTransientExhausted = true ∨ c = .httpError → c.isa .ebsiError = true := by
    intro c
    cases c <;> decide
  rw [classify, Option.isSome_map, List.find?_isSome] at h
  obtain ⟨row, hrow, hmatch⟩ := h
  refine key e.cls ?_
  simp only [failover, List.mem_cons, List.not_mem_nil, or_false] at hrow
  rcases hrow with rfl | rfl | rfl | rfl | rfl | rfl | rfl <;>
    simp only [inStatus, isPlainHttpError, Bool.and_eq_true, beq_iff_eq] at hmatch
  · exact .inl hmatch
  · exact .inr (.inl hmatch.1)
  · exact .inr (.inl hmatch)
  · exact .inr (.inr hmatch.1)
  · exact .inr (.inr hmatch.1)
  · exact .inr (.inr hmatch.1.1)
  · exact .inr (.inr hmatch.1)

section Sessions

variable {origin : Str} {s : Session} {e : Exc} {seen : List Seen}

theorem note_terminal (h : s.terminal.isSome = true ∨ isTerminal e = true) :
    (s.note origin e).terminal.isSome = true := by
  unfold Session.note
  split
  · cases hs : s.terminal with
    | none => rfl
    | some t => rfl
  · rename_i hnot
    exact h.resolve_right hnot

theorem note_failure (h : s.failure.isSome = true ∨ (classify e).isSome = true) :
    (s.note origin e).failure.isSome = true ∨ isTerminal e = true := by
  unfold Session.note
  split
  · rename_i hterminal
    exact .inr hterminal
  · refine .inl ?_
    cases hs : s.failure with
    | some f => rfl
    | none =>
      rw [hs] at h
      have hsome := h.resolve_left (by decide)
      change (failureOf origin e).isSome = true
      rw [failureOf, Option.isSome_map]
      exact hsome

theorem see_terminal (c : Seen) (h : s.terminal.isSome = true) :
    (s.see origin c).terminal.isSome = true := by
  obtain ⟨q, r⟩ := c
  cases q with
  | outside request => exact h
  | getJson url =>
    cases r with
    | ok data => exact h
    | error e =>
      change (if e.cls.isa .ebsiError = true then s.note origin e else s).terminal.isSome = true
      split
      · exact note_terminal (.inl h)
      · exact h

theorem see_failure (c : Seen) (h : s.failure.isSome = true ∨ s.terminal.isSome = true) :
    (s.see origin c).failure.isSome = true ∨ (s.see origin c).terminal.isSome = true := by
  rcases h with h | h
  · obtain ⟨q, r⟩ := c
    cases q with
    | outside request => exact .inl h
    | getJson url =>
      cases r with
      | ok data => exact .inl h
      | error e =>
        change (if e.cls.isa .ebsiError = true then s.note origin e else s).failure.isSome = true ∨
          (if e.cls.isa .ebsiError = true then s.note origin e else s).terminal.isSome = true
        split
        · exact (note_failure (.inl h)).imp_right fun ht => note_terminal (.inr ht)
        · exact .inl h
  · exact .inr (see_terminal c h)

theorem record_terminal (h : s.terminal.isSome = true ∨ SawTerminal seen) :
    (s.record origin seen).terminal.isSome = true := by
  induction seen generalizing s with
  | nil => exact h.resolve_right fun ⟨_, _, hmem, _⟩ => List.not_mem_nil hmem
  | cons c seen ih =>
    refine ih ?_
    rcases h with h | ⟨url, e, hmem, hterminal⟩
    · exact .inl (see_terminal c h)
    · rcases List.mem_cons.mp hmem with rfl | hmem
      · refine .inl ?_
        change (if e.cls.isa .ebsiError = true then s.note origin e else s).terminal.isSome = true
        rw [if_pos (isTerminal_isa hterminal)]
        exact note_terminal (.inr hterminal)
      · exact .inr ⟨url, e, hmem, hterminal⟩

/-- A failure of the node stays recorded, unless a terminal error is. -/
theorem record_failure
    (h : (s.failure.isSome = true ∨ s.terminal.isSome = true) ∨ SawFailure seen) :
    (s.record origin seen).failure.isSome = true ∨
      (s.record origin seen).terminal.isSome = true := by
  induction seen generalizing s with
  | nil => exact h.resolve_right fun ⟨_, _, hmem, _⟩ => List.not_mem_nil hmem
  | cons c seen ih =>
    refine ih ?_
    rcases h with h | ⟨url, e, hmem, hfailure⟩
    · exact .inl (see_failure c h)
    · rcases List.mem_cons.mp hmem with rfl | hmem
      · refine .inl ?_
        change (if e.cls.isa .ebsiError = true then s.note origin e else s).failure.isSome = true ∨
          (if e.cls.isa .ebsiError = true then s.note origin e else s).terminal.isSome = true
        rw [if_pos (classify_isa hfailure)]
        exact (note_failure (.inr hfailure)).imp_right fun ht => note_terminal (.inr ht)
      · exact .inr ⟨url, e, hmem, hfailure⟩

theorem note_failure_eq_some {failure : NodeFailure}
    (h : (s.note origin e).failure = some failure) :
    s.failure = some failure ∨ failureOf origin e = some failure := by
  unfold Session.note at h
  split at h
  · exact .inl h
  · change (s.failure <|> failureOf origin e) = some failure at h
    cases hs : s.failure with
    | some f =>
      rw [hs] at h
      exact .inl h
    | none =>
      rw [hs] at h
      exact .inr h

/-- The failure that a session records is one that the walk saw. -/
theorem record_failure_eq_some {failure : NodeFailure}
    (h : (s.record origin seen).failure = some failure) :
    s.failure = some failure ∨
      ∃ url e, (⟨.getJson url, .error e⟩ : Seen) ∈ seen ∧ failureOf origin e = some failure := by
  induction seen generalizing s with
  | nil => exact .inl h
  | cons c seen ih =>
    rcases ih h with hstep | ⟨url, e, hmem, heq⟩
    · obtain ⟨q, r⟩ := c
      cases q with
      | outside request => exact .inl hstep
      | getJson url =>
        cases r with
        | ok data => exact .inl hstep
        | error e =>
          change (if e.cls.isa .ebsiError = true then s.note origin e else s).failure =
            some failure at hstep
          split at hstep
          · exact (note_failure_eq_some hstep).imp_right fun heq =>
              ⟨url, e, List.mem_cons_self, heq⟩
          · exact .inl hstep
    · exact .inr ⟨url, e, List.mem_cons_of_mem _ hmem, heq⟩

end Sessions

theorem settle_eq_ok {α : Type} {s : Session} {outcome : Except Exc α}
    {settled : Except NodeFailure α} (h : settle s outcome = .ok settled) : s.terminal = none := by
  unfold settle at h
  cases hs : s.terminal with
  | none => rfl
  | some t =>
    rw [hs] at h
    cases outcome with
    | ok value => cases h
    | error e =>
      dsimp only at h
      split at h
      · cases h
      · cases h

theorem settle_eq_value {α : Type} {s : Session} {outcome : Except Exc α} {value : α}
    (h : settle s outcome = .ok (.ok value)) : outcome = .ok value ∧ s.failure = none := by
  have hterminal := settle_eq_ok h
  unfold settle at h
  rw [hterminal] at h
  cases outcome with
  | ok v =>
    cases hs : s.failure with
    | none =>
      rw [hs] at h
      cases h
      exact ⟨rfl, rfl⟩
    | some f =>
      rw [hs] at h
      cases h
  | error e =>
    dsimp only at h
    split_ifs at h
    · split at h
      · cases h
      · cases h

theorem settle_eq_failure {α : Type} {s : Session} {outcome : Except Exc α} {failure : NodeFailure}
    (h : settle s outcome = .ok (.error failure)) : s.failure = some failure := by
  have hterminal := settle_eq_ok h
  unfold settle at h
  rw [hterminal] at h
  cases hs : s.failure with
  | none =>
    rw [hs] at h
    cases outcome with
    | ok value => cases h
    | error e =>
      dsimp only at h
      split_ifs at h
  | some f =>
    rw [hs] at h
    cases outcome with
    | ok value =>
      cases h
      rfl
    | error e =>
      dsimp only at h
      split_ifs at h
      cases h
      rfl

/-- The calls of an attempt of a walk on the session of an origin: what the client did for each call
of the walk, and what the walk saw. -/
inductive Drives (H : EbsiHttpClient) (pin : Str) {α : Type} :
    Walk α → List Call → List Seen → Except Exc α → Prop where
  | done (outcome : Except Exc α) : Drives H pin (.done outcome) [] [] outcome
  | getJson {url : Json} {rest : Except Exc Json → Walk α} {r : Except Exc Json}
      {l l' : List Call} {seen : List Seen} {outcome : Except Exc α}
      (h : Traced (H.sessionGet pin url) l r) (hrest : Drives H pin (rest r) l' seen outcome) :
      Drives H pin (.call (.getJson url) rest) (l ++ l') (⟨.getJson url, r⟩ :: seen) outcome
  | outside {request : Json} {rest : Except Exc Json → Walk α} {r : Except Exc Json}
      {l : List Call} {seen : List Seen} {outcome : Except Exc α}
      (hrest : Drives H pin (rest r) l seen outcome) :
      Drives H pin (.call (.outside request) rest) (⟨.outside request, r⟩ :: l)
        (⟨.outside request, r⟩ :: seen) outcome

/-- The calls of a session: in time, and on its origin. -/
structure Pinned (H : EbsiHttpClient) (expires : Int) (pin : Str) (l : List Call) : Prop where
  timely : Timely expires l
  on_pin : ∀ c ∈ l, ∀ url, Call.url? c = some url → onOrigin H.interpreter url pin = true

section Drive

variable {H : EbsiHttpClient} {expires : Int} {pin : Str} {l m : List Call}

theorem Pinned.nil : Pinned H expires pin [] :=
  ⟨.nil, fun _ hc => (List.not_mem_nil hc).elim⟩

theorem Pinned.append (h : Pinned H expires pin l) (h' : Pinned H expires pin m) :
    Pinned H expires pin (l ++ m) := by
  refine ⟨h.timely.append h'.timely, fun c hc => ?_⟩
  rcases List.mem_append.mp hc with hc | hc
  · exact h.on_pin c hc
  · exact h'.on_pin c hc

theorem Pinned.single {c : Call} (hserves : Call.serves c = false) (hurl : Call.url? c = none) :
    Pinned H expires pin [c] := by
  refine ⟨.of_not_serves hserves, fun c' hc' url hu => ?_⟩
  rw [List.mem_singleton.mp hc', hurl] at hu
  cases hu

variable (hvalid : H.validUntil = some expires)

include hvalid

theorem pinned_sessionGet {url : Json} {r : Except Exc Json}
    (h : Traced (H.sessionGet pin url) l r) : Pinned H expires pin l := by
  rcases EbsiHttpClient.traced_checkValid_bind hvalid h with
    ⟨x, e, rfl, -⟩ | ⟨t, l₁, ht, rfl, hpin⟩
  · exact .single rfl rfl
  refine (Pinned.single (c := ⟨.clock, .ok (.instant t)⟩) rfl rfl).append (m := l₁) ?_
  rcases traced_run_bind.mp hpin with ⟨e, -, rfl, -⟩ | ⟨text, htext, hget⟩
  · exact .nil
  have hon : onOrigin H.interpreter text pin = true := by
    simp only [EbsiHttpClient.checkPin, bind_eq_ok, orRaise_eq_ok, raiseIf_eq_ok, pure_eq_ok,
      Bool.not_eq_false'] at htext
    obtain ⟨_, -, ⟨⟩, hon, rfl⟩ := htext
    exact hon
  have hreads := EbsiHttpClient.reads_getJson hvalid hget
  refine ⟨hreads.timely, fun c hc u hu => ?_⟩
  rw [hreads.on_url c hc u hu]
  exact hon

theorem Drives.pinned {α : Type} {walk : Walk α} {seen : List Seen} {outcome : Except Exc α}
    (h : Drives H pin walk l seen outcome) : Pinned H expires pin l := by
  induction h with
  | done outcome => exact .nil
  | getJson h _ ih => exact (pinned_sessionGet hvalid h).append ih
  | @outside request rest r l seen outcome _ ih =>
    exact (Pinned.single (c := ⟨.outside request, r⟩) rfl rfl).append ih

omit hvalid in
/-- A driven walk is an attempt, and the session records what the walk saw. -/
theorem exists_drives {α : Type} {origin : Str} {walk : Walk α} {s : Session}
    {r : Except Exc (Except Exc α × Session)} (h : Traced (H.drive origin pin walk s) l r) :
    ∃ outcome seen, Drives H pin walk l seen outcome ∧
      r = .ok (outcome, s.record origin seen) := by
  induction walk generalizing s l with
  | done outcome =>
    obtain ⟨rfl, rfl⟩ := traced_run.mp h
    exact ⟨outcome, [], .done outcome, rfl⟩
  | call q rest ih =>
    cases q with
    | getJson url =>
      obtain ⟨x, l₁, l₂, hget, hrest, rfl⟩ := traced_try_bind.mp h
      obtain ⟨outcome, seen, hdrives, rfl⟩ := ih x hrest
      exact ⟨outcome, ⟨.getJson url, x⟩ :: seen, .getJson hget hdrives, rfl⟩
    | outside request =>
      obtain ⟨x, l₁, l₂, hask, hrest, rfl⟩ := traced_try_bind.mp h
      obtain rfl := traced_ask.mp hask
      obtain ⟨outcome, seen, hdrives, rfl⟩ := ih x hrest
      exact ⟨outcome, ⟨.outside request, x⟩ :: seen, .outside hdrives, rfl⟩

end Drive

/-! ## Candidates -/

/-- An attempt of a walk: the calls it made, what the walk saw of its session and its outcome. -/
structure Attempt (α : Type) where
  calls : List Call
  seen : List Seen
  outcome : Except Exc α

/-- A candidate that `run` came to: what was called for it before, in and after the attempt. -/
structure Visit (α : Type) where
  origin : Str
  before : List Call
  attempt : Option (Attempt α)
  after : List Call

/-- What a candidate was called for. -/
def Visit.calls {α : Type} (v : Visit α) : List Call :=
  v.before ++ (v.attempt.elim [] Attempt.calls ++ v.after)

/-- A candidate costs a request. -/
def Visit.costs {α : Type} (v : Visit α) : Bool := v.calls.any Call.sends

/-- The session of the attempt saw a terminal error. -/
def Visit.Steered {α : Type} (v : Visit α) : Prop := ∃ a, v.attempt = some a ∧ SawTerminal a.seen

/-- The attempt returned a value, and its session saw no failure and no terminal error. -/
def Visit.Returned {α : Type} (v : Visit α) (value : α) : Prop :=
  ∃ a, v.attempt = some a ∧ a.outcome = .ok value ∧ ¬ SawFailure a.seen ∧ ¬ SawTerminal a.seen

/-- The attempt failed on the node: its session saw the failure, and no terminal error. -/
def Visit.Failed {α : Type} (v : Visit α) (failure : NodeFailure) : Prop :=
  ∃ a, v.attempt = some a ∧ ¬ SawTerminal a.seen ∧
    ∃ url e, (⟨.getJson url, .error e⟩ : Seen) ∈ a.seen ∧ failureOf v.origin e = some failure

/-- What is called for a candidate before the walk, with its health: the verdict is looked up, and
without one the node is probed and its verdict is recorded. The health is `none` where this does not
come to a verdict, or where no more requests are allowed. -/
inductive Examined (origin : Str) : List Call → Option Verdict → Prop where
  | unread (e : Exc) : Examined origin [⟨.healthGet origin, .error e⟩] none
  | known (verdict : Verdict) :
      Examined origin [⟨.healthGet origin, .ok (some verdict)⟩] (some verdict)
  | spent {health : Option Verdict} (h : ∀ failure, health ≠ some (some failure)) :
      Examined origin [⟨.healthGet origin, .ok health⟩] none
  | unprobed {l : List Call} {e : Exc} (h : Asks (origin ++ alivePath) l (.error e)) :
      Examined origin (⟨.healthGet origin, .ok none⟩ :: l) none
  | unrecorded {l : List Call} {x : Except Exc (Int × Bytes)} (verdict : Verdict) (e : Exc)
      (h : Asks (origin ++ alivePath) l x) :
      Examined origin
        (⟨.healthGet origin, .ok none⟩ :: (l ++ [⟨.healthSet origin verdict, .error e⟩])) none
  | probed {l : List Call} {x : Except Exc (Int × Bytes)} {verdict : Verdict}
      (h : Asks (origin ++ alivePath) l x)
      (hverdict : verdict = none ↔ ∃ body, x = .ok (200, body) ∧ alive body = true) :
      Examined origin
        (⟨.healthGet origin, .ok none⟩ :: (l ++ [⟨.healthSet origin verdict, .ok ()⟩]))
        (some verdict)

/-- The node of a candidate failed, which is known or recorded: it is unhealthy and was not
attempted, or the attempt failed on it. -/
def Visit.FailsOver {α : Type} (v : Visit α) : Prop :=
  ∃ failure, Examined v.origin v.before (some (some failure)) ∧ v.attempt = none ∨
    v.Failed failure ∧ v.after = [⟨.healthSet v.origin (some failure), .ok ()⟩]

/-- What holds of every candidate: its health is found out first, one that is known to be unhealthy
costs no request, an attempt is made on a healthy node only and is a run of the walk all of whose
fetches are on that node, and what follows it is that its failure is recorded. -/
structure Visit.Valid {α : Type} (C : EbsiNodeClient) (walk : Walk α) (v : Visit α) : Prop where
  timely : Timely C.expires v.calls
  examined : ∃ health, Examined v.origin v.before health ∧
    (v.attempt.isSome = true → health = some none)
  fresh : ∀ failure, v.before.head? = some ⟨.healthGet v.origin, .ok (some (some failure))⟩ →
    v.costs = false
  attempt : ∀ a, v.attempt = some a → ∃ pin, Ebsi.origin C.interpreter v.origin = .ok pin ∧
    Drives C.http pin walk a.calls a.seen a.outcome ∧
    ∀ c ∈ a.calls, ∀ url, Call.url? c = some url → Ebsi.origin C.interpreter url = .ok pin
  after : v.after = [] ∨
    ∃ failure r, v.Failed failure ∧ v.after = [⟨.healthSet v.origin (some failure), r⟩]

/-- What a part of the loop did, over the candidates that were left and the requests allowed. -/
structure Visited {α : Type} (C : EbsiNodeClient) (walk : Walk α) (candidates : List Str)
    (allowed : Nat) (visits : List (Visit α)) (result : Except Exc α) : Prop where
  origins : visits.map Visit.origin <+: candidates
  valid : ∀ v ∈ visits, v.Valid C walk
  cost : visits.countP Visit.costs ≤ allowed
  failover : ∀ pre v post, visits = pre ++ v :: post → post ≠ [] → v.FailsOver
  steered : ∀ pre v post, visits = pre ++ v :: post → v.Steered →
    post = [] ∧ ∃ e, result = .error e
  value : ∀ value, result = .ok value → ∃ pre v, visits = pre ++ [v] ∧ v.Returned value

section Visited

variable {α : Type} {C : EbsiNodeClient} {walk : Walk α} {rest : List Str} {allowed : Nat}
  {result : Except Exc α} {v : Visit α}

theorem Visit.FailsOver.not_steered (h : v.FailsOver) : ¬ v.Steered := by
  rintro ⟨a, ha, hseen⟩
  obtain ⟨failure, ⟨-, hnone⟩ | ⟨⟨a', ha', hnot, -⟩, -⟩⟩ := h
  · rw [hnone] at ha
    cases ha
  · rw [ha'] at ha
    cases ha
    exact hnot hseen

theorem Visited.nil {candidates : List Str} {e : Exc} :
    Visited C walk candidates allowed [] (.error e) where
  origins := List.nil_prefix
  valid v hv := (List.not_mem_nil hv).elim
  cost := Nat.zero_le _
  failover pre v post h := by cases pre <;> cases h
  steered pre v post h := by cases pre <;> cases h
  value _ h := by cases h

/-- The loop ends with a candidate. -/
theorem Visited.last (hvalid : v.Valid C walk) (hcost : v.costs = false ∨ 1 ≤ allowed)
    (hsteered : v.Steered → ∃ e, result = .error e)
    (hvalue : ∀ value, result = .ok value → v.Returned value) :
    Visited C walk (v.origin :: rest) allowed [v] result where
  origins := by
    rw [List.map_singleton]
    exact List.prefix_append [v.origin] rest
  valid v' hv' := by
    rw [List.mem_singleton.mp hv']
    exact hvalid
  cost := by
    rw [List.countP_singleton]
    rcases hcost with hcost | hcost
    · rw [hcost]
      exact Nat.zero_le _
    · split <;> omega
  failover pre v' post h hpost := by
    cases pre with
    | nil =>
      cases h
      exact absurd rfl hpost
    | cons v'' pre => cases pre <;> cases h
  steered pre v' post h hv' := by
    cases pre with
    | nil =>
      cases h
      exact ⟨rfl, hsteered hv'⟩
    | cons v'' pre => cases pre <;> cases h
  value value h := ⟨[], v, rfl, hvalue value h⟩

/-- The loop goes on after a candidate. -/
theorem Visited.cons {visits : List (Visit α)} {left : Nat} (hvalid : v.Valid C walk)
    (hcost : v.costs = false ∧ left ≤ allowed ∨ left + 1 ≤ allowed) (hfails : v.FailsOver)
    (h : Visited C walk rest left visits result) :
    Visited C walk (v.origin :: rest) allowed (v :: visits) result where
  origins := by
    rw [List.map_cons, List.cons_prefix_cons]
    exact ⟨rfl, h.origins⟩
  valid := List.forall_mem_cons.mpr ⟨hvalid, h.valid⟩
  cost := by
    have hrest := h.cost
    rw [List.countP_cons]
    rcases hcost with ⟨hfree, hle⟩ | hle
    · rw [hfree, if_neg Bool.false_ne_true]
      omega
    · split <;> omega
  failover pre v' post heq hpost := by
    cases pre with
    | nil =>
      cases heq
      exact hfails
    | cons v'' pre =>
      cases heq
      exact h.failover pre v' post rfl hpost
  steered pre v' post heq hv' := by
    cases pre with
    | nil =>
      cases heq
      exact absurd hv' hfails.not_steered
    | cons v'' pre =>
      cases heq
      exact h.steered pre v' post rfl hv'
  value value hresult := by
    obtain ⟨pre, v', rfl, hv'⟩ := h.value value hresult
    exact ⟨v :: pre, v', rfl, hv'⟩

end Visited

section Run

variable {α : Type} {C : EbsiNodeClient} {walk : Walk α} {origin : Str} {l : List Call}

/-- A probe finds the node healthy by a 200 that says so. -/
theorem probed_eq_ok {x : Except Exc (Int × Bytes)} {verdict : Verdict}
    (h : EbsiNodeClient.probed origin x = .ok verdict) :
    verdict = none ↔ ∃ body, x = .ok (200, body) ∧ alive body = true := by
  cases x with
  | error e =>
    unfold EbsiNodeClient.probed at h
    dsimp only at h
    split_ifs at h
    cases h
    exact ⟨nofun, fun ⟨_, hx, _⟩ => by cases hx⟩
  | ok answer =>
    obtain ⟨status, body⟩ := answer
    change Except.ok (if status = 200 ∧ alive body = true then none
      else some ⟨origin, .unhealthy, some status⟩) = .ok verdict at h
    rw [← Except.ok.inj h]
    constructor
    · intro hnone
      by_cases hstatus : status = 200 ∧ alive body = true
      · obtain ⟨rfl, hbody⟩ := hstatus
        exact ⟨body, rfl, hbody⟩
      · rw [if_neg hstatus] at hnone
        cases hnone
    · rintro ⟨body', heq, hbody⟩
      cases heq
      exact if_pos ⟨rfl, hbody⟩

theorem timely_probeUnknown {verdict : Option Verdict} {r : Except Exc Verdict}
    (h : Traced (C.probeUnknown origin verdict) l r) : Timely C.expires l := by
  cases verdict with
  | some verdict =>
    rw [(traced_run.mp h).1]
    exact .nil
  | none =>
    have hprobe : ∀ {l : List Call} {r : Except Exc Verdict}, Traced (C.probe origin) l r →
        Timely C.expires l := by
      intro l r h
      obtain ⟨x, hx, -⟩ := traced_handle.mp h
      exact (EbsiHttpClient.reads_probe (H := C.http) rfl hx).timely
    rcases traced_bind.mp h with ⟨e, hl, -⟩ | ⟨health, l₁, l₂, hl, hset, rfl⟩
    · exact hprobe hl
    · refine (hprobe hl).append ?_
      rcases traced_ask_bind.mp hset with ⟨e, rfl, -⟩ | ⟨⟨⟩, l', hpure, rfl⟩
      · exact .of_not_serves rfl
      · obtain ⟨rfl, -⟩ := traced_pure.mp hpure
        exact .of_not_serves rfl

/-- What a candidate without a fresh failure is asked for comes to its health. -/
theorem examined_probeUnknown {verdict : Option Verdict} {r : Except Exc Verdict}
    (hverdict : ∀ failure, verdict ≠ some (some failure))
    (h : Traced (C.probeUnknown origin verdict) l r) :
    Examined origin (⟨.healthGet origin, .ok verdict⟩ :: l) r.toOption := by
  cases verdict with
  | some verdict =>
    cases verdict with
    | some failure => exact absurd rfl (hverdict failure)
    | none =>
      obtain ⟨rfl, rfl⟩ := traced_run.mp h
      exact .known none
  | none =>
    rcases traced_bind.mp h with ⟨e, hprobe, rfl⟩ | ⟨health, l₁, l₂, hprobe, hset, rfl⟩
    · obtain ⟨x, hx, heq⟩ := traced_handle.mp hprobe
      have hasks := EbsiHttpClient.asks_probe (H := C.http) rfl hx
      cases x with
      | error e' => exact .unprobed hasks
      | ok answer => cases heq
    · obtain ⟨x, hx, heq⟩ := traced_handle.mp hprobe
      have hasks := EbsiHttpClient.asks_probe (H := C.http) rfl hx
      rcases traced_ask_bind.mp hset with ⟨e, rfl, rfl⟩ | ⟨⟨⟩, l', hpure, rfl⟩
      · exact .unrecorded health e hasks
      · obtain ⟨rfl, rfl⟩ := traced_pure.mp hpure
        exact .probed hasks (probed_eq_ok heq.symm)

/-- An attempt on a node: the constructor of the session raised, or the walk was driven and its
outcome settled. -/
theorem traced_attemptOn {r : Except Exc (Except NodeFailure α)}
    (h : Traced (C.attemptOn walk origin) l r) :
    (l = [] ∧ ∃ e, r = .error e) ∨ ∃ pin seen outcome, Ebsi.origin C.interpreter origin = .ok pin ∧
      Drives C.http pin walk l seen outcome ∧ (SawTerminal seen → ∃ e, r = .error e) ∧
      (∀ value, r = .ok (.ok value) →
        outcome = .ok value ∧ ¬ SawFailure seen ∧ ¬ SawTerminal seen) ∧
      ∀ failure, r = .ok (.error failure) → ∃ url e, (⟨.getJson url, .error e⟩ : Seen) ∈ seen ∧
        failureOf origin e = some failure := by
  rcases traced_run_bind.mp h with ⟨e, -, rfl, rfl⟩ | ⟨pin, hpin, hdrive⟩
  · exact .inl ⟨rfl, e, rfl⟩
  have horigin : Ebsi.origin C.interpreter origin = .ok pin := by
    unfold EbsiNodeClient.pinOf at hpin
    split at hpin
    · rename_i pin' hpin'
      rw [hpin', Except.ok.inj hpin]
    · cases hpin
  rcases traced_bind.mp hdrive with ⟨e, hwalk, -⟩ | ⟨⟨outcome, session⟩, l₁, l₂, hwalk, hend, rfl⟩
  · obtain ⟨_, _, -, heq⟩ := exists_drives hwalk
    cases heq
  obtain ⟨outcome', seen, hdrives, heq⟩ := exists_drives hwalk
  cases heq
  obtain ⟨rfl, rfl⟩ := traced_run.mp hend
  rw [List.append_nil]
  refine .inr ⟨pin, seen, outcome, horigin, hdrives, fun hseen => ?_, fun value hvalue => ?_,
    fun failure hfailure => ?_⟩
  · have hterminal : (Session.record origin {} seen).terminal.isSome = true :=
      record_terminal (.inr hseen)
    cases hsettle : settle (Session.record origin {} seen) outcome with
    | error e => exact ⟨e, rfl⟩
    | ok settled =>
      rw [settle_eq_ok hsettle] at hterminal
      cases hterminal
  · obtain ⟨houtcome, hfailure⟩ := settle_eq_value hvalue
    have hterminal := settle_eq_ok hvalue
    have hnot : ¬ SawTerminal seen := by
      intro hseen
      have hsome : (Session.record origin {} seen).terminal.isSome = true :=
        record_terminal (.inr hseen)
      rw [hterminal] at hsome
      cases hsome
    refine ⟨houtcome, fun hseen => ?_, hnot⟩
    have hsome : (Session.record origin {} seen).failure.isSome = true ∨
        (Session.record origin {} seen).terminal.isSome = true := record_failure (.inr hseen)
    rw [hterminal, hfailure] at hsome
    rcases hsome with hsome | hsome <;> cases hsome
  · rcases record_failure_eq_some (settle_eq_failure hfailure) with hnone | hsaw
    · cases hnone
    · exact hsaw

/-- What the policy's output comes to: the origins it names, in order, listed and none twice. -/
theorem ordered_eq_ok {items : Except Exc (List (Option Str))} {order : List Str}
    (h : C.ordered items = .ok order) :
    (∃ named, items = .ok named ∧ order.map some <+: named) ∧ order.Nodup ∧
      ∀ o ∈ order, o ∈ C.origins := by
  cases items with
  | error e => cases h
  | ok items =>
    obtain ⟨⟨⟩, -, h⟩ := bind_eq_ok.mp h
    have hall : order.map some = items.take (C.origins.length + 1) ∧ order.Nodup ∧
        ∀ o ∈ order, o ∈ C.origins := by
      refine enumerateLoop_preserves
        (fun done seen => seen.map some = done ∧ seen.Nodup ∧ ∀ o ∈ seen, o ∈ C.origins)
        ⟨rfl, List.nodup_nil, fun _ ho => (List.not_mem_nil ho).elim⟩ h
        fun done seen item seen' hseen hstep => ?_
      obtain ⟨rfl, hnodup, hlisted⟩ := hseen
      simp only [EbsiNodeClient.orderItem, bind_eq_ok, orRaise_eq_ok, raiseIf_eq_ok, pure_eq_ok,
        Option.filter_eq_some_iff, List.contains_iff_mem] at hstep
      obtain ⟨o, ⟨rfl, hmem⟩, ⟨⟩, hnew, rfl⟩ := hstep
      have hnot : o ∉ seen := by
        intro ho
        rw [List.contains_iff_mem.mpr ho] at hnew
        cases hnew
      refine ⟨List.map_append, List.nodup_append.mpr ⟨hnodup, List.nodup_singleton o, ?_⟩,
        fun o' ho' => ?_⟩
      · intro a ha b hb
        rw [List.mem_singleton.mp hb]
        rintro rfl
        exact hnot ha
      · rcases List.mem_append.mp ho' with ho' | ho'
        · exact hlisted o' ho'
        · rw [List.mem_singleton.mp ho']
          exact hmem
    refine ⟨⟨items, rfl, ?_⟩, hall.2⟩
    rw [hall.1]
    exact List.take_prefix _ items

/-- A failure that is known is what is found out. -/
theorem Examined.known_failure {before : List Call} {health : Option Verdict}
    {failure : NodeFailure} (h : Examined origin before health)
    (hhead : before.head? = some ⟨.healthGet origin, .ok (some (some failure))⟩) :
    before = [⟨.healthGet origin, .ok (some (some failure))⟩] ∧
      health = some (some failure) := by
  cases h with
  | unread e => cases hhead
  | known verdict =>
    cases hhead
    exact ⟨rfl, rfl⟩
  | spent hnot =>
    cases hhead
    exact absurd rfl (hnot failure)
  | unprobed _ => cases hhead
  | unrecorded _ _ _ => cases hhead
  | probed _ _ => cases hhead

/-- A candidate that the walk was not run on. -/
theorem valid_unattempted {before : List Call} {health : Option Verdict}
    (hl : Timely C.expires before) (hexamined : Examined origin before health) :
    Visit.Valid C walk ⟨origin, before, none, []⟩ where
  timely := by
    change Timely C.expires (before ++ ([] ++ []))
    rwa [List.append_nil, List.append_nil]
  examined := ⟨health, hexamined, nofun⟩
  fresh failure h := by
    rw [(hexamined.known_failure h).1]
    rfl
  attempt _ h := by cases h
  after := .inl rfl

/-- A candidate that the walk was run on. -/
theorem valid_attempted {before : List Call} {pin : Str} {a : Attempt α} {after : List Call}
    (hl : Timely C.expires before) (hexamined : Examined origin before (some none))
    (horigin : Ebsi.origin C.interpreter origin = .ok pin)
    (hdrives : Drives C.http pin walk a.calls a.seen a.outcome)
    (hafter : after = [] ∨ ∃ failure r, (⟨origin, before, some a, after⟩ : Visit α).Failed failure ∧
      after = [⟨.healthSet origin (some failure), r⟩]) :
    Visit.Valid C walk ⟨origin, before, some a, after⟩ where
  timely := by
    have htimely : Timely C.expires after := by
      rcases hafter with rfl | ⟨failure, r, -, rfl⟩
      · exact .nil
      · exact .of_not_serves rfl
    exact hl.append ((hdrives.pinned rfl).timely.append htimely)
  examined := ⟨_, hexamined, fun _ => rfl⟩
  fresh failure h := by cases (hexamined.known_failure h).2
  attempt a' ha' := by
    cases ha'
    have hpinned : Pinned C.http C.expires pin a.calls := hdrives.pinned rfl
    exact ⟨pin, horigin, hdrives, fun c hc url hu => onOrigin_iff.mp (hpinned.on_pin c hc url hu)⟩
  after := hafter

section Candidates

variable {rest : List Str} {spent : Nat} {result : Except Exc α} {before : List Call}

/-- The loop ends with a candidate that the walk was not run on. -/
theorem exists_visited_last {health : Option Verdict} {e : Exc} (hl : Timely C.expires before)
    (hexamined : Examined origin before health)
    (hcost : before.any Call.sends = false ∨ spent < C.maxNodes) :
    ∃ visits : List (Visit α), before = visits.flatMap Visit.calls ∧
      Visited C walk (origin :: rest) (C.maxNodes - spent) visits (.error e) := by
  refine ⟨[⟨origin, before, none, []⟩], ?_,
    .last (valid_unattempted hl hexamined) ?_ (fun _ => ⟨e, rfl⟩) fun _ hvalue => by cases hvalue⟩
  · simp [Visit.calls]
  · rcases hcost with hfree | hlt
    · left
      simpa [Visit.costs, Visit.calls] using hfree
    · right
      omega

/-- The loop goes on after an unhealthy candidate. -/
theorem exists_visited_skip {failure : NodeFailure} {l' : List Call} {spent' : Nat}
    (hl : Timely C.expires before) (hexamined : Examined origin before (some (some failure)))
    (hcost : before.any Call.sends = false ∧ spent' = spent ∨
      spent < C.maxNodes ∧ spent' = spent + 1)
    (hrest : ∃ visits, l' = visits.flatMap Visit.calls ∧
      Visited C walk rest (C.maxNodes - spent') visits result) :
    ∃ visits, before ++ l' = visits.flatMap Visit.calls ∧
      Visited C walk (origin :: rest) (C.maxNodes - spent) visits result := by
  obtain ⟨visits, rfl, hvisited⟩ := hrest
  refine ⟨⟨origin, before, none, []⟩ :: visits, ?_,
    .cons (valid_unattempted hl hexamined) ?_ ⟨failure, .inl ⟨hexamined, rfl⟩⟩ hvisited⟩
  · simp [Visit.calls]
  · rcases hcost with ⟨hfree, rfl⟩ | ⟨hlt, rfl⟩
    · left
      refine ⟨?_, Nat.le_refl _⟩
      simpa [Visit.costs, Visit.calls] using hfree
    · right
      omega

/-- What the loop does with a healthy candidate. -/
theorem exists_visited_attempted {failures : List NodeFailure} {l' : List Call}
    (hexamined : Examined origin before (some none)) (hspent : spent < C.maxNodes)
    (hl : Timely C.expires before)
    (ih : ∀ {l failures spent}, Traced (C.candidates walk rest failures spent) l result →
      ∃ visits, l = visits.flatMap Visit.calls ∧
        Visited C walk rest (C.maxNodes - spent) visits result)
    (h : Traced (do
      let settled ← C.attemptOn walk origin
      match settled with
      | .ok value => return value
      | .error failure => do
        ask (.healthSet origin (some failure))
        C.candidates walk rest (failures ++ [failure]) (spent + 1)) l' result) :
    ∃ visits, before ++ l' = visits.flatMap Visit.calls ∧
      Visited C walk (origin :: rest) (C.maxNodes - spent) visits result := by
  rcases traced_bind.mp h with ⟨e, hwalk, rfl⟩ | ⟨settled, l₃, l₄, hwalk, hend, rfl⟩
  · rcases traced_attemptOn hwalk with ⟨rfl, -⟩ | ⟨pin, seen, outcome, hpin, hdrives, -, -⟩
    · rw [List.append_nil]
      exact exists_visited_last hl hexamined (.inr hspent)
    · refine ⟨[⟨origin, before, some ⟨l', seen, outcome⟩, []⟩], ?_,
        .last (valid_attempted hl hexamined hpin hdrives (.inl rfl)) (.inr (by omega))
          (fun _ => ⟨e, rfl⟩) fun _ heq => by cases heq⟩
      simp [Visit.calls]
  · rcases traced_attemptOn hwalk with
      ⟨-, e, heq⟩ | ⟨pin, seen, outcome, hpin, hdrives, hsteered, hvalue, hfailure⟩
    · cases heq
    have hnot : ¬ SawTerminal seen := by
      intro hseen
      obtain ⟨e, heq⟩ := hsteered hseen
      cases heq
    cases settled with
    | ok value =>
      obtain ⟨rfl, rfl⟩ := traced_pure.mp hend
      refine ⟨[⟨origin, before, some ⟨l₃, seen, outcome⟩, []⟩], ?_,
        .last (valid_attempted hl hexamined hpin hdrives (.inl rfl)) (.inr (by omega))
          (fun ⟨a, ha, hseen⟩ => ?_) fun value' heq => ?_⟩
      · simp [Visit.calls]
      · cases ha
        exact absurd hseen hnot
      · cases heq
        exact ⟨_, rfl, hvalue value rfl⟩
    | error failure =>
      have hfailed : ∀ after, (⟨origin, before, some ⟨l₃, seen, outcome⟩, after⟩ : Visit α).Failed
          failure := fun _ => ⟨_, rfl, hnot, hfailure failure rfl⟩
      have hvalid : ∀ r, Visit.Valid C walk ⟨origin, before, some ⟨l₃, seen, outcome⟩,
          [⟨.healthSet origin (some failure), r⟩]⟩ := fun r =>
        valid_attempted hl hexamined hpin hdrives (.inr ⟨failure, r, hfailed _, rfl⟩)
      rcases traced_ask_bind.mp hend with ⟨e, rfl, rfl⟩ | ⟨⟨⟩, l₅, hnext, rfl⟩
      · refine ⟨[⟨origin, before, some ⟨l₃, seen, outcome⟩,
          [⟨.healthSet origin (some failure), .error e⟩]⟩], ?_,
          .last (hvalid _) (.inr (by omega)) (fun _ => ⟨e, rfl⟩) fun _ heq => by cases heq⟩
        simp [Visit.calls]
      · obtain ⟨visits, rfl, hvisited⟩ := ih hnext
        refine ⟨⟨origin, before, some ⟨l₃, seen, outcome⟩,
          [⟨.healthSet origin (some failure), .ok ()⟩]⟩ :: visits, ?_,
          .cons (hvalid _) (.inr (by omega)) ⟨failure, .inr ⟨hfailed _, rfl⟩⟩ hvisited⟩
        simp [Visit.calls]

/-- An iteration of the loop over the candidates, for one whose verdict is not a failure. -/
def unlessUnhealthy (C : EbsiNodeClient) (walk : Walk α) (rest : List Str)
    (failures : List NodeFailure) (spent : Nat) (o : Str) (verdict : Option Verdict) : Client α :=
  if C.maxNodes ≤ spent then run (noHealthyNode failures) else do
    let health ← C.probeUnknown o verdict
    match health with
    | some failure => C.candidates walk rest (failures ++ [failure]) (spent + 1)
    | none => do
      let settled ← C.attemptOn walk o
      match settled with
      | .ok value => return value
      | .error failure => do
        ask (.healthSet o (some failure))
        C.candidates walk rest (failures ++ [failure]) (spent + 1)

/-- The loop over the candidates, one case for each of its exits. -/
theorem exists_visited {candidates : List Str} {failures : List NodeFailure}
    (h : Traced (C.candidates walk candidates failures spent) l result) :
    ∃ visits, l = visits.flatMap Visit.calls ∧
      Visited C walk candidates (C.maxNodes - spent) visits result := by
  induction candidates generalizing failures spent l with
  | nil =>
    obtain ⟨rfl, rfl⟩ := traced_run.mp h
    exact ⟨[], rfl, .nil⟩
  | cons o rest ih =>
    -- a candidate that is not known to be unhealthy
    have hgo : ∀ {verdict l'}, (∀ failure, verdict ≠ some (some failure)) →
        Traced (unlessUnhealthy C walk rest failures spent o verdict) l' result →
        ∃ visits, ⟨.healthGet o, .ok verdict⟩ :: l' = visits.flatMap Visit.calls ∧
          Visited C walk (o :: rest) (C.maxNodes - spent) visits result := by
      intro verdict l' hverdict hl
      unfold unlessUnhealthy at hl
      split at hl
      · obtain ⟨rfl, rfl⟩ := traced_run.mp hl
        exact exists_visited_last (.of_not_serves rfl) (.spent hverdict) (.inl rfl)
      rename_i hspent
      rw [not_le] at hspent
      rcases traced_bind.mp hl with ⟨e, hprobe, rfl⟩ | ⟨health, l₁, l₂, hprobe, hrest, rfl⟩
      · exact exists_visited_last (.cons rfl (timely_probeUnknown hprobe))
          (examined_probeUnknown hverdict hprobe) (.inr hspent)
      have htimely := Timely.cons (c := ⟨.healthGet o, .ok verdict⟩) rfl
        (timely_probeUnknown hprobe)
      have hexamined := examined_probeUnknown hverdict hprobe
      cases health with
      | some failure =>
        exact exists_visited_skip htimely hexamined (.inr ⟨hspent, rfl⟩) (ih hrest)
      | none => exact exists_visited_attempted hexamined hspent htimely ih hrest
    rw [EbsiNodeClient.candidates] at h
    rcases traced_ask_bind.mp h with ⟨e, rfl, rfl⟩ | ⟨verdict, l', hrest, rfl⟩
    · exact exists_visited_last (.of_not_serves rfl) (.unread e) (.inl rfl)
    rcases verdict with _ | _ | failure
    · exact hgo (fun _ heq => by cases heq) hrest
    · exact hgo (fun _ heq => by cases heq) hrest
    · exact exists_visited_skip (.of_not_serves rfl) (.known (some failure)) (.inl ⟨rfl, rfl⟩)
        (ih hrest)

end Candidates

end Run

/-! ## The run -/

/-- An instant that the clock was read at. -/
def Call.instant? : Call → Option Int
  | ⟨.clock, .ok (.instant t)⟩ => some t
  | _ => none

theorem mem_of_latest {l : List Call} {t t' : Int} (h : l.foldl Call.reading (some t) = some t') :
    t' = t ∨ t' ∈ l.filterMap Call.instant? := by
  have key : ∀ (l : List Call) (x : Option Int), l.foldl Call.reading x = some t' →
      x = some t' ∨ t' ∈ l.filterMap Call.instant? := by
    intro l
    induction l with
    | nil => exact fun x h => .inl h
    | cons c l ih =>
      intro x h
      have hsub : t' ∈ l.filterMap Call.instant? → t' ∈ (c :: l).filterMap Call.instant? := by
        rw [List.filterMap_cons]
        split
        · exact id
        · exact List.mem_cons_of_mem _
      rcases ih _ h with hread | hmem
      · obtain ⟨q, r⟩ := c
        cases q with
        | clock =>
          rcases r with e | t | _
          · cases hread
          · refine .inr ?_
            obtain rfl : t = t' := Option.some.inj hread
            exact List.mem_cons_self
          · cases hread
        | _ => exact .inl hread
      · exact .inr (hsub hmem)
  rcases key l (some t) h with heq | hmem
  · exact .inl (Option.some.inj heq).symm
  · exact .inr hmem

/-- Once a clock that does not go back has read `expires`, nothing is requested or served. -/
theorem Timely.expired {expires t : Int} {l pre post : List Call} (h : Timely expires l)
    (hmono : (l.filterMap Call.instant?).Pairwise (· ≤ ·))
    (hl : l = pre ++ ⟨.clock, .ok (.instant t)⟩ :: post) (ht : expires ≤ t) :
    ∀ c ∈ post, Call.serves c = false := by
  intro c hc
  by_contra hserves
  rw [Bool.not_eq_false] at hserves
  obtain ⟨p₁, p₂, rfl⟩ := List.append_of_mem hc
  obtain ⟨t', hlatest, hlt⟩ := h (pre ++ ⟨.clock, .ok (.instant t)⟩ :: p₁) c p₂
    (by rw [hl, List.append_assoc, List.cons_append]) hserves
  rw [latest, List.foldl_append, List.foldl_cons] at hlatest
  have hle : t ≤ t' := by
    rcases mem_of_latest hlatest with rfl | hmem
    · exact le_refl _
    · rw [hl, List.filterMap_append, List.pairwise_append] at hmono
      have hcons := hmono.2.1
      change (t :: (p₁ ++ c :: p₂).filterMap Call.instant?).Pairwise (· ≤ ·) at hcons
      rw [List.filterMap_append] at hcons
      exact (List.pairwise_cons.mp hcons).1 t' (List.mem_append_left _ hmem)
  omega

/-- What is called before the candidates: the clock and the policy, which names the candidates. -/
inductive Began {α : Type} (C : EbsiNodeClient) : List Call → List (Visit α) → Prop where
  | expired (reading : Except Exc Reading) : Began C [⟨.clock, reading⟩] []
  | refused (t : Int) (named : Except Exc (List (Option Str))) :
      Began C [⟨.clock, .ok (.instant t)⟩, ⟨.policy C.origins, named⟩] []
  | ordered {named : List (Option Str)} {visits : List (Visit α)} (t : Int)
      (h : visits.map (fun v => some v.origin) <+: named) :
      Began C [⟨.clock, .ok (.instant t)⟩, ⟨.policy C.origins, .ok named⟩] visits

/-- What holds of a call of `run`: it looks at the clock and asks the policy, then comes to the
candidates in the order that the policy names, all listed, each once, of which at most `max_nodes`
cost a request; it goes on after a candidate only when its node failed, and never after one whose
session saw a terminal error; a value comes from the last candidate's attempt; and requests are sent,
and cached responses served, only before the list expires. -/
structure OneNode {α : Type} (C : EbsiNodeClient) (walk : Walk α) (l : List Call)
    (result : Except Exc α) (head : List Call) (visits : List (Visit α)) : Prop where
  calls : l = head ++ visits.flatMap Visit.calls
  began : Began C head visits
  once : (visits.map Visit.origin).Nodup
  listed : ∀ v ∈ visits, v.origin ∈ C.origins
  valid : ∀ v ∈ visits, v.Valid C walk
  cost : visits.countP Visit.costs ≤ C.maxNodes
  failover : ∀ pre v post, visits = pre ++ v :: post → post ≠ [] → v.FailsOver
  steered : ∀ pre v post, visits = pre ++ v :: post → v.Steered →
    post = [] ∧ ∃ e, result = .error e
  value : ∀ value, result = .ok value → ∃ pre v, visits = pre ++ [v] ∧ v.Returned value
  timely : Timely C.expires l
  expired : (l.filterMap Call.instant?).Pairwise (· ≤ ·) → ∀ pre t post,
    l = pre ++ ⟨.clock, .ok (.instant t)⟩ :: post → C.expires ≤ t →
      ∀ c ∈ post, Call.serves c = false

section OneNode

variable {α : Type} {C : EbsiNodeClient} {walk : Walk α} {result : Except Exc α} {head : List Call}
  {visits : List (Visit α)}

theorem Began.timely (h : Began C head visits) : Timely C.expires head := by
  cases h with
  | expired reading => exact .of_not_serves rfl
  | refused t named => exact .cons rfl (.of_not_serves rfl)
  | ordered t h => exact .cons rfl (.of_not_serves rfl)

/-- The candidates that were visited after the clock and the policy. -/
theorem OneNode.of_visited {order : List Str} (hbegan : Began C head visits)
    (horder : order.Nodup ∧ ∀ o ∈ order, o ∈ C.origins)
    (h : Visited C walk order C.maxNodes visits result) :
    OneNode C walk (head ++ visits.flatMap Visit.calls) result head visits := by
  have htimely : Timely C.expires (visits.flatMap Visit.calls) := by
    have hvalid := h.valid
    clear h hbegan
    induction visits with
    | nil => exact .nil
    | cons v visits ih =>
      rw [List.forall_mem_cons] at hvalid
      rw [List.flatMap_cons]
      exact hvalid.1.timely.append (ih hvalid.2)
  exact {
    calls := rfl
    began := hbegan
    once := horder.1.sublist h.origins.sublist
    listed := fun v hv => horder.2 _ (h.origins.subset (List.mem_map_of_mem hv))
    valid := h.valid
    cost := h.cost
    failover := h.failover
    steered := h.steered
    value := h.value
    timely := hbegan.timely.append htimely
    expired := fun hmono pre t post => (hbegan.timely.append htimely).expired hmono }

theorem OneNode.of_raised {e : Exc} (hbegan : Began (α := α) C head []) :
    OneNode C walk head (.error e) head [] := by
  have hnone : Visited C walk [] C.maxNodes [] (.error e : Except Exc α) := .nil
  have hone := OneNode.of_visited hbegan
    ⟨List.nodup_nil, fun _ ho => (List.not_mem_nil ho).elim⟩ hnone
  rwa [List.flatMap_nil, List.append_nil] at hone

end OneNode

/-- A walk runs on one node, whatever the calls of a run return or raise. -/
theorem run_oneNode {α : Type} {C : EbsiNodeClient} {walk : Walk α} {l : List Call}
    {result : Except Exc α} (h : Traced (C.run walk) l result) :
    ∃ head visits, OneNode C walk l result head visits := by
  rcases EbsiHttpClient.traced_checkValid_bind (H := C.http) rfl h with
    ⟨x, e, rfl, rfl⟩ | ⟨t, l₁, -, rfl, hrest⟩
  · exact ⟨_, [], .of_raised (.expired x)⟩
  have horder : ∀ {l : List Call} {r : Except Exc (List Str)}, Traced C.order l r →
      ∃ x, l = [⟨.policy C.origins, x⟩] ∧ r = C.ordered x := by
    intro l r h
    obtain ⟨x, hx, rfl⟩ := traced_handle.mp h
    exact ⟨x, traced_ask.mp hx, rfl⟩
  rcases traced_bind.mp hrest with ⟨e, hpolicy, rfl⟩ | ⟨order, l₂, l₃, hpolicy, hloop, rfl⟩
  · obtain ⟨y, rfl, -⟩ := horder hpolicy
    exact ⟨_, [], .of_raised (.refused t y)⟩
  · obtain ⟨y, rfl, heq⟩ := horder hpolicy
    obtain ⟨⟨named, rfl, hnamed⟩, hlisted⟩ := ordered_eq_ok heq.symm
    obtain ⟨visits, rfl, hvisited⟩ := exists_visited hloop
    refine ⟨_, visits, .of_visited (.ordered t ?_) hlisted hvisited⟩
    have hprefix := (hvisited.origins.map some).trans hnamed
    rwa [List.map_map] at hprefix

/-- A client of two nodes. -/
def twoNodes : EbsiNodeClient where
  interpreter := .atSecond 0 []
  expires := 10
  origins := ["https://a.eu", "https://b.eu"]
  maxNodes := 2
  attempts := 1
  retryStatuses := [503]

/-- A walk that reads one document. -/
def readOne : Walk Nat :=
  .call (.getJson (.str "https://b.eu/x")) fun document => .done (document.map fun _ => 7)

/-- The first node is unhealthy, the second answers. -/
def firstDown : (q : Query) → Except Exc q.Answer
  | .clock => .ok (.instant 0)
  | .send url =>
    .ok (if url = lit "https://a.eu/v1/alive" then .answer 503 []
      else .answer 200 ((lit "\x7b\"health_global\":1\x7d").map UInt8.ofNat))
  | .cacheGet _ => .ok none
  | .cacheSet _ _ => .ok ()
  | .healthGet _ => .ok none
  | .healthSet _ _ => .ok ()
  | .policy origins => .ok (origins.map some)
  | .outside _ => .ok .null

theorem run_oneNode_firstDown : (twoNodes.run readOne).eval firstDown = .ok 7 ∧
    ∃ head visits, OneNode twoNodes readOne
      (((twoNodes.run readOne).calls firstDown).map fun q => ⟨q, firstDown q⟩) (.ok 7) head
      visits := by
  have hvalue : (twoNodes.run readOne).eval firstDown = .ok 7 :=
    eq_ok_of_toOption (by decide +kernel)
  have htraced := traced_eval firstDown (twoNodes.run readOne)
  rw [hvalue] at htraced
  exact ⟨hvalue, run_oneNode htraced⟩

end OpenVC.Ebsi.NodeClient
