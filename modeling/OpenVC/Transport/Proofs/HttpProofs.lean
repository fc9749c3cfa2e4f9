import OpenVC.Transport.Http
import OpenVC.Ebsi.Proofs.NodeRequestsProofs
import OpenVC.Ebsi.Proofs.OriginProofs
import OpenVC.Proofs.FetchProofs

/-!
# The attempts of a registry read

A run of the request loop is a sequence of attempts, each behind the expiry gate and the budget,
with a sleep between two of them.
-/

namespace OpenVC.Ebsi.Http

open Python Calling

/-- A call of the client with its outcome. -/
abbrev Event := Answer Query Query.Answer Failure

variable {σ : Type} {H : HttpClient σ} {url : Str} {R : HttpClient.Reader} {l : List Event}

/-! ## The runs of the loop -/

/-- The gates before an attempt: the end of the list's life and the budget. -/
def Gated (H : HttpClient σ) (url : Str) (R : HttpClient.Reader) (l : List Event)
    (r : Except Failure Unit) : Prop :=
  Traced (H.checkValid >>= fun _ => HttpClient.checkBudget url R.until_) l r

/-- The `try` of an attempt, with its outcome and the addresses tried after it. -/
def Tried (H : HttpClient σ) (url : Str) (R : HttpClient.Reader) (tried : List Str)
    (l : List Event) (outcome : Except Failure (Reply × Bytes × Option Str)) (tried' : List Str) :
    Prop :=
  Traced (H.tryOnce url R tried) l (.ok (outcome, tried'))

/-- The sleep after an attempt, `left` of which are left. -/
def Slept (H : HttpClient σ) (R : HttpClient.Reader) (left : Nat) (asked : Option PyFloat)
    (l : List Event) (r : Except Failure Unit) : Prop :=
  Traced (H.sleepBeforeRetry (H.retry.attempts - (left + 1)) asked R.until_) l r

/-- A run of the loop. -/
inductive Run (H : HttpClient σ) (url : Str) (R : HttpClient.Reader) (made : Nat) :
    Nat → List Str → Option Failure → List Event → Except Failure (Reply × Bytes) → Prop where
  | exhausted (tried : List Str) (last : Option Failure) :
      Run H url R made 0 tried last [] (.error (HttpClient.exhausted url made last))
  | refused {left : Nat} {tried : List Str} {last : Option Failure} {l : List Event} {e : Failure}
      (hgate : Gated H url R l (.error e)) : Run H url R made (left + 1) tried last l (.error e)
  | stopped {left : Nat} {tried tried' : List Str} {last : Option Failure} {l m : List Event}
      {outcome : Except Failure (Reply × Bytes × Option Str)}
      {r : Except Failure (Reply × Bytes)} (hgate : Gated H url R l (.ok ()))
      (htry : Tried H url R tried m outcome tried')
      (hverdict : H.verdict url R outcome = .stop r) :
      Run H url R made (left + 1) tried last (l ++ m) r
  | awoken {left : Nat} {tried tried' : List Str} {last : Option Failure} {l m n : List Event}
      {outcome : Except Failure (Reply × Bytes × Option Str)} {failed e : Failure}
      {asked : Option PyFloat} (hgate : Gated H url R l (.ok ()))
      (htry : Tried H url R tried m outcome tried')
      (hverdict : H.verdict url R outcome = .retry failed asked)
      (hsleep : Slept H R left asked n (.error e)) :
      Run H url R made (left + 1) tried last (l ++ (m ++ n)) (.error e)
  | retried {left : Nat} {tried tried' : List Str} {last : Option Failure} {l m n k : List Event}
      {outcome : Except Failure (Reply × Bytes × Option Str)} {failed : Failure}
      {asked : Option PyFloat} {r : Except Failure (Reply × Bytes)}
      (hgate : Gated H url R l (.ok ())) (htry : Tried H url R tried m outcome tried')
      (hverdict : H.verdict url R outcome = .retry failed asked)
      (hsleep : Slept H R left asked n (.ok ()))
      (hrest : Run H url R made left tried' (some failed) k r) :
      Run H url R made (left + 1) tried last (l ++ (m ++ (n ++ k))) r

theorem tryOnce_returns {tried : List Str}
    {x : Except Failure (Except Failure (Reply × Bytes × Option Str) × List Str)}
    (h : Traced (H.tryOnce url R tried) l x) : ∃ outcome tried', x = .ok (outcome, tried') := by
  obtain ⟨prepared, l₁, l₂, -, hrest, rfl⟩ := traced_try_bind.mp h
  cases prepared with
  | error e =>
    obtain ⟨rfl, rfl⟩ := traced_pure.mp hrest
    exact ⟨_, _, rfl⟩
  | ok p =>
    obtain ⟨opened, l₃, l₄, -, hdone, rfl⟩ := traced_try_bind.mp hrest
    obtain ⟨rfl, rfl⟩ := traced_pure.mp hdone
    exact ⟨_, _, rfl⟩

theorem run_of_traced {made left : Nat} {tried : List Str} {last : Option Failure}
    {r : Except Failure (Reply × Bytes)}
    (h : Traced (H.requestLoop url R made left tried last) l r) :
    Run H url R made left tried last l r := by
  induction left generalizing tried last l r with
  | zero =>
    obtain ⟨rfl, rfl⟩ := traced_done.mp h
    exact .exhausted tried last
  | succ left ih =>
    -- the two checks before an attempt are one step of the run
    rw [HttpClient.requestLoop, ← bind_assoc] at h
    rcases traced_bind.mp h with ⟨e, hgate, rfl⟩ | ⟨⟨⟩, l₁, l₂, hgate, htry, rfl⟩
    · exact .refused hgate
    rcases traced_bind.mp htry with ⟨e, hraise, rfl⟩ | ⟨⟨outcome, tried'⟩, l₃, l₄, hone, hrest, rfl⟩
    · obtain ⟨_, _, hx⟩ := tryOnce_returns hraise
      cases hx
    dsimp only at hrest
    cases hverdict : H.verdict url R outcome with
    | stop result =>
      rw [hverdict] at hrest
      obtain ⟨rfl, rfl⟩ := traced_done.mp hrest
      rw [List.append_nil]
      exact .stopped hgate hone hverdict
    | retry failed asked =>
      rw [hverdict] at hrest
      rcases traced_bind.mp hrest with ⟨e, hsleep, rfl⟩ | ⟨⟨⟩, l₅, l₆, hsleep, hloop, rfl⟩
      · exact .awoken hgate hone hverdict hsleep
      · exact .retried hgate hone hverdict hsleep (ih hloop)

/-! ## The parts of an attempt -/

theorem traced_checkValid {r : Except Failure Unit} (h : Traced H.checkValid l r) :
    (H.validUntil = none ∧ l = [] ∧ r = .ok ()) ∨
      ∃ x expires, l = [⟨.clock, x⟩] ∧ H.validUntil = some expires ∧
        ∀ u, r = .ok u → ∃ t, x = .ok (.instant t) ∧ t < expires := by
  unfold HttpClient.checkValid at h
  split at h
  · rename_i hnone
    obtain ⟨rfl, rfl⟩ := traced_pure.mp h
    exact .inl ⟨hnone, rfl, rfl⟩
  rename_i expires hexpires
  refine .inr ?_
  rcases traced_bind.mp h with ⟨e, hread, rfl⟩ | ⟨now, l₁, l₂, hread, hcheck, rfl⟩
  · obtain ⟨x, hx, -⟩ := traced_handle.mp hread
    exact ⟨x, expires, traced_ask.mp hx, hexpires, by rintro _ ⟨⟩⟩
  obtain ⟨x, hx, hnow⟩ := traced_handle.mp hread
  obtain ⟨rfl, rfl⟩ := traced_done.mp hcheck
  refine ⟨x, expires, by rw [traced_ask.mp hx, List.append_nil], hexpires, fun u hu => ?_⟩
  have hlt := raiseIf_eq_ok.mp hu
  rw [decide_eq_false_iff_not, not_le] at hlt
  cases x with
  | error e => cases hnow
  | ok reading =>
    cases reading with
    | instant t =>
      cases hnow
      exact ⟨_, rfl, hlt⟩
    | other => cases hnow

theorem traced_checkBudget {until_ : Option PyFloat} {r : Except Failure Unit}
    (h : Traced (HttpClient.checkBudget url until_) l r) :
    (until_ = none ∧ l = [] ∧ r = .ok ()) ∨
      ∃ x stop, l = [⟨.monotonic, x⟩] ∧ until_ = some stop ∧
        ∀ u, r = .ok u → ∃ now, x = .ok now ∧
          PyFloat.le (PyFloat.sub stop now) (.fin 0) = false := by
  cases until_ with
  | none =>
    obtain ⟨rfl, rfl⟩ := traced_pure.mp h
    exact .inl ⟨rfl, rfl, rfl⟩
  | some stop =>
    refine .inr ?_
    rcases traced_ask_bind.mp h with ⟨e, rfl, rfl⟩ | ⟨now, l', hcheck, rfl⟩
    · exact ⟨_, stop, rfl, rfl, by rintro _ ⟨⟩⟩
    · obtain ⟨rfl, rfl⟩ := traced_done.mp hcheck
      refine ⟨_, stop, rfl, rfl, fun u hu => ⟨now, rfl, raiseIf_eq_ok.mp hu⟩⟩

/-- The call of a gate. -/
def IsGate (q : Query) : Prop := q = .clock ∨ q = .monotonic

theorem Gated.calls {r : Except Failure Unit} (h : Gated H url R l r) : ∀ c ∈ l, IsGate c.1 := by
  rcases traced_bind.mp h with ⟨e, hvalid, rfl⟩ | ⟨⟨⟩, l₁, l₂, hvalid, hbudget, rfl⟩
  · rcases traced_checkValid hvalid with ⟨-, rfl, -⟩ | ⟨x, expires, rfl, -⟩
    · exact List.forall_mem_nil _
    · simp [IsGate]
  · have hclock : ∀ c ∈ l₁, IsGate c.1 := by
      rcases traced_checkValid hvalid with ⟨-, rfl, -⟩ | ⟨x, expires, rfl, -⟩
      · exact List.forall_mem_nil _
      · simp [IsGate]
    have hmonotonic : ∀ c ∈ l₂, IsGate c.1 := by
      rcases traced_checkBudget hbudget with ⟨-, rfl, -⟩ | ⟨x, stop, rfl, -⟩
      · exact List.forall_mem_nil _
      · simp [IsGate]
    exact List.forall_mem_append.mpr ⟨hclock, hmonotonic⟩

/-- What an attempt may go ahead on: a reading of the wall clock before the end of the list's life,
and then one of the monotonic clock before the end of the budget. -/
def Fresh (H : HttpClient σ) (R : HttpClient.Reader) (l : List Event) : Prop :=
  (∀ expires, H.validUntil = some expires → ∃ t, ⟨.clock, .ok (.instant t)⟩ ∈ l ∧ t < expires) ∧
    ∀ stop, R.until_ = some stop → ∃ now, ⟨.monotonic, .ok now⟩ ∈ l ∧
      PyFloat.le (PyFloat.sub stop now) (.fin 0) = false

theorem Gated.fresh (h : Gated H url R l (.ok ())) : Fresh H R l := by
  rcases traced_bind.mp h with ⟨e, -, hr⟩ | ⟨⟨⟩, l₁, l₂, hvalid, hbudget, rfl⟩
  · cases hr
  refine ⟨fun expires hexpires => ?_, fun stop hstop => ?_⟩
  · rcases traced_checkValid hvalid with ⟨hnone, -⟩ | ⟨x, expires', rfl, hsome, hread⟩
    · rw [hnone] at hexpires
      cases hexpires
    · rw [hsome] at hexpires
      cases hexpires
      obtain ⟨t, rfl, ht⟩ := hread () rfl
      exact ⟨t, List.mem_append_left _ List.mem_cons_self, ht⟩
  · rcases traced_checkBudget hbudget with ⟨hnone, -⟩ | ⟨x, stop', rfl, hsome, hread⟩
    · rw [hnone] at hstop
      cases hstop
    · rw [hsome] at hstop
      cases hstop
      obtain ⟨now, rfl, hnow⟩ := hread () rfl
      exact ⟨now, List.mem_append_right _ List.mem_cons_self, hnow⟩

/-- An attempt ends before its request, or is over with the answer to it. -/
theorem Tried.cases {tried tried' : List Str}
    {outcome : Except Failure (Reply × Bytes × Option Str)}
    (h : Tried H url R tried l outcome tried') :
    (∃ e, Traced (H.prepare url tried R.headers) l (.error e) ∧ outcome = .error e ∧
      tried' = tried) ∨
    ∃ request l' x, Traced (H.prepare url tried R.headers) l' (.ok (request, tried')) ∧
      l = l' ++ [⟨.stream request, x⟩] ∧ outcome = x.bind (H.readAnswer url R) := by
  obtain ⟨prepared, l₁, l₂, hprepare, hrest, rfl⟩ := traced_try_bind.mp h
  cases prepared with
  | error e =>
    obtain ⟨rfl, heq⟩ := traced_pure.mp hrest
    cases heq
    rw [List.append_nil]
    exact .inl ⟨e, hprepare, rfl, rfl⟩
  | ok p =>
    obtain ⟨opened, l₃, l₄, hask, hdone, rfl⟩ := traced_try_bind.mp hrest
    obtain ⟨rfl, heq⟩ := traced_pure.mp hdone
    cases heq
    obtain rfl := traced_ask.mp hask
    exact .inr ⟨p.1, l₁, opened, hprepare, rfl, rfl⟩

/-! ## The sleep -/

section Sleep

open PyFloat

/-- `x` does not exceed `bound`. -/
def AtMost (bound x : PyFloat) : Prop := lt bound x = false

theorem lt_trans {x y z : PyFloat} (hxy : lt x y = true) (hyz : lt y z = true) : lt x z = true := by
  cases x <;> cases y <;> simp only [lt, Bool.false_eq_true] at hxy <;>
    cases z <;> simp only [lt, Bool.false_eq_true, decide_eq_true_eq] at hyz hxy ⊢
  exact hxy.trans hyz

theorem atMost_pyMin_right (x y : PyFloat) : AtMost y (pyMin x y) := by
  unfold AtMost pyMin
  split
  · cases y <;> simp [lt]
  · rename_i hnot
    simpa using hnot

theorem AtMost.pyMin {bound x : PyFloat} (h : AtMost bound x) (y : PyFloat) :
    AtMost bound (pyMin x y) := by
  unfold PyFloat.pyMin
  split
  · rename_i hyx
    by_contra hlt
    have : lt bound x = true := lt_trans (by simpa [AtMost] using hlt) hyx
    rw [h] at this
    cases this
  · exact h

theorem AtMost.pyMax {bound x y : PyFloat} (hx : AtMost bound x) (hy : AtMost bound y) :
    AtMost bound (pyMax x y) := by
  unfold PyFloat.pyMax
  split
  · exact hy
  · exact hx

/-- A sleep that `time.sleep` takes: a number of seconds that is not negative, of a day at most, and
not longer than the ceiling of the policy. -/
def Rested (p : RetryPolicy) (s : PyFloat) : Prop :=
  ∃ q : Rat, s = .fin q ∧ 0 ≤ q ∧ q ≤ 86400 ∧ ∀ c, p.ceiling = .fin c → 0 ≤ c → q ≤ c

theorem rested {p : RetryPolicy} {delay : PyFloat} (hday : AtMost maxDeadlineS delay)
    (hceiling : AtMost p.ceiling delay) : Rested p (pyMax (.fin 0) delay) := by
  unfold PyFloat.pyMax
  split
  · rename_i hpos
    cases delay with
    | nan => cases hpos
    | negInf => cases hpos
    | posInf => cases hday
    | fin q =>
      refine ⟨q, rfl, ?_, ?_, fun c hc _ => ?_⟩
      · simp only [lt, decide_eq_true_eq] at hpos
        exact le_of_lt hpos
      · simpa [AtMost, maxDeadlineS, lt] using hday
      · rw [hc] at hceiling
        simpa [AtMost, lt] using hceiling
  · exact ⟨0, rfl, le_refl 0, by norm_num, fun c _ hc => hc⟩

/-- The sleep is not longer than what is left of the budget at the clock's reading before it. -/
def InBudget (until_ : Option PyFloat) (pre : List Event) (s : PyFloat) : Prop :=
  ∀ stop, until_ = some stop → ∃ now, pre.getLast? = some ⟨.monotonic, .ok now⟩ ∧
    AtMost (pyMax (.fin 0) (sub stop now)) s

theorem InBudget.append {until_ : Option PyFloat} {m : List Event} {s : PyFloat}
    (h : InBudget until_ m s) (pre : List Event) : InBudget until_ (pre ++ m) s := by
  intro stop hstop
  obtain ⟨now, hlast, hmost⟩ := h stop hstop
  exact ⟨now, List.mem_getLast?_append_of_mem_getLast? hlast, hmost⟩

/-- The calls of a sleep: none, or the jitter, the clock when there is a budget, and one sleep. -/
theorem Slept.cases {left : Nat} {asked : Option PyFloat} {r : Except Failure Unit}
    (h : Slept H R left asked l r) :
    ∃ m, (∀ c ∈ m, (∃ x, c.1 = .uniform x) ∨ c.1 = .monotonic) ∧
      (l = m ∧ (left = 0 ∨ H.retry.attempts ≤ left ∨ ∃ e, r = .error e) ∨
        ∃ s x, l = m ++ [⟨.sleep s, x⟩] ∧ 0 < left ∧ Rested H.retry s ∧ InBudget R.until_ m s) := by
  unfold Slept HttpClient.sleepBeforeRetry at h
  split at h
  · rename_i hlast
    obtain ⟨rfl, rfl⟩ := traced_pure.mp h
    exact ⟨[], List.forall_mem_nil _, .inl ⟨rfl, by omega⟩⟩
  rename_i hmore
  have hbackoff : ∀ {l₁ : List Event} {x : Except Failure PyFloat},
      Traced (H.retry.backoff (H.retry.attempts - (left + 1))) l₁ x →
      ∀ c ∈ l₁, (∃ x, c.1 = .uniform x) ∨ c.1 = .monotonic := by
    intro l₁ x hb
    rcases traced_liftM_bind.mp hb with ⟨e, -, rfl, -⟩ | ⟨scaled, -, hb⟩
    · exact List.forall_mem_nil _
    rcases traced_ask_bind.mp hb with ⟨e, rfl, -⟩ | ⟨jitter, l₂, hdone, rfl⟩
    · simp
    · obtain ⟨rfl, -⟩ := traced_pure.mp hdone
      simp
  rcases traced_bind.mp h with ⟨e, hb, rfl⟩ | ⟨backoff, l₁, l₂, hb, hrest, rfl⟩
  · exact ⟨l, hbackoff hb, .inl ⟨rfl, .inr (.inr ⟨e, rfl⟩)⟩⟩
  have hleft : 0 < left := by omega
  change Traced (HttpClient.clamp (pyMin (pyMin ((asked.map (pyMax backoff)).getD backoff)
    H.retry.ceiling) maxDeadlineS) R.until_ >>= fun delay =>
      ask (.sleep (pyMax (.fin 0) delay))) l₂ r at hrest
  generalize hdelay : pyMin (pyMin ((asked.map (pyMax backoff)).getD backoff)
    H.retry.ceiling) maxDeadlineS = delay at hrest
  have hday : AtMost maxDeadlineS delay := hdelay ▸ atMost_pyMin_right _ _
  have hceiling : AtMost H.retry.ceiling delay := hdelay ▸ (atMost_pyMin_right _ _).pyMin _
  cases hu : R.until_ with
  | none =>
    rw [hu] at hrest
    have hsleep : Traced (ask (.sleep (pyMax (.fin 0) delay))) l₂ r := hrest
    obtain rfl := traced_ask.mp hsleep
    exact ⟨l₁, hbackoff hb, .inr ⟨_, r, rfl, hleft, rested hday hceiling, by rintro _ ⟨⟩⟩⟩
  | some stop =>
    rw [hu] at hrest
    have hclamp : Traced (ask .monotonic >>= fun now => ask (.sleep (pyMax (.fin 0)
        (pyMin delay (pyMax (.fin 0) (sub stop now)))))) l₂ r := by
      rw [HttpClient.clamp, bind_assoc] at hrest
      exact hrest
    rcases traced_ask_bind.mp hclamp with ⟨e, rfl, rfl⟩ | ⟨now, l₃, hsleep, rfl⟩
    · refine ⟨l₁ ++ [⟨.monotonic, .error e⟩], ?_, .inl ⟨rfl, .inr (.inr ⟨e, rfl⟩)⟩⟩
      exact List.forall_mem_append.mpr ⟨hbackoff hb, by simp⟩
    obtain rfl := traced_ask.mp hsleep
    refine ⟨l₁ ++ [⟨.monotonic, .ok now⟩], ?_,
      .inr ⟨_, r, (List.append_assoc _ [_] [_]).symm, hleft, ?_, ?_⟩⟩
    · exact List.forall_mem_append.mpr ⟨hbackoff hb, by simp⟩
    · exact rested (hday.pyMin _) (hceiling.pyMin _)
    · rintro _ ⟨⟩
      refine ⟨now, by simp, AtMost.pyMax ?_ (atMost_pyMin_right _ _)⟩
      unfold AtMost PyFloat.pyMax
      split
      · rename_i hpos
        by_contra hlt
        rw [Bool.not_eq_false] at hlt
        have := lt_trans hpos hlt
        simp [lt] at this
      · simp [lt]

end Sleep

/-! ## The address of a request -/

/-- An address that the guard lets through, as the library writes it. -/
def Reachable (P : IpLibrary) (answer address : Str) : Prop :=
  ∃ ip, P answer = some ip ∧ Fetch.isForbidden ip = false ∧ ip.scopeId = none ∧ ip.text = address

theorem checkedAddress_eq_ok {host address : Str} {answer : Option Str}
    (h : H.checkedAddress host answer = .ok address) :
    ∃ text, answer = some text ∧ Reachable H.ipaddress text address := by
  unfold HttpClient.checkedAddress at h
  cases answer with
  | none => cases h
  | some text =>
    rw [Option.bind_some] at h
    split at h
    · rename_i ip hip
      split at h
      · rename_i hok
        cases h
        simp only [Bool.and_eq_true, Option.isNone_iff_eq_none, Bool.not_eq_true'] at hok
        exact ⟨text, rfl, ip, hip, hok.2, hok.1, rfl⟩
      · cases h
    · cases h

/-- The answers that the guard checks: those of one lookup, or the host itself when it is an IP
literal. -/
def Answered (H : HttpClient σ) (host : Str) (port : Nat) (answers : List (Option Str))
    (l : List Event) : Prop :=
  (l = [] ∧ (H.ipaddress host).isSome ∧ answers = [some host]) ∨
    l = [⟨.resolve host port, .ok answers⟩] ∧ answers ≠ []

theorem traced_lookup {host : Str} {port : Nat} {r : Except Failure (List (Option Str))}
    (h : Traced (H.lookup host port) l r) : (∀ c ∈ l, c.1 = .resolve host port) ∧
      ∀ answers, r = .ok answers → Answered H host port answers l := by
  unfold HttpClient.lookup at h
  split at h
  · rename_i hliteral
    obtain ⟨rfl, rfl⟩ := traced_pure.mp h
    refine ⟨List.forall_mem_nil _, fun answers ha => .inl ⟨rfl, hliteral, ?_⟩⟩
    exact (Except.ok.inj ha).symm
  rcases traced_bind.mp h with ⟨e, hask, rfl⟩ | ⟨answers, l₁, l₂, hask, hrest, rfl⟩
  · obtain ⟨y, hy, -⟩ := traced_handle.mp hask
    rw [traced_ask.mp hy]
    exact ⟨by simp, by rintro _ ⟨⟩⟩
  obtain ⟨y, hy, hok⟩ := traced_handle.mp hask
  obtain rfl := traced_ask.mp hy
  have hyok : y = .ok answers := by
    cases y with
    | ok a => exact hok.symm
    | error e =>
      change Except.ok answers = if _ then _ else _ at hok
      split at hok <;> cases hok
  subst hyok
  rcases traced_liftM_bind.mp hrest with ⟨e, -, rfl, rfl⟩ | ⟨⟨⟩, hsome, hdone⟩
  · exact ⟨by simp, by rintro _ ⟨⟩⟩
  · obtain ⟨rfl, rfl⟩ := traced_pure.mp hdone
    refine ⟨by simp, fun answers' ha => .inr ?_⟩
    cases ha
    exact ⟨rfl, List.isEmpty_eq_false_iff.mp (raiseIf_eq_ok.mp hsome)⟩

/-- The addresses that the guard makes of the answers. -/
def Checked (H : HttpClient σ) (host : Str) (answers : List (Option Str)) (addresses : List Str) :
    Prop :=
  ∃ checked, collect (H.checkedAddress host) answers = .ok checked ∧ addresses = checked.eraseDups

theorem traced_addresses {host : Str} {port : Nat} {r : Except Failure (List Str)}
    (h : Traced (H.addresses host port) l r) : (∀ c ∈ l, c.1 = .resolve host port) ∧
      ∀ addresses, r = .ok addresses → ∃ answers, Answered H host port answers l ∧
        Checked H host answers addresses := by
  rcases traced_bind.mp h with ⟨e, hask, rfl⟩ | ⟨answers, l₁, l₂, hask, hrest, rfl⟩
  · exact ⟨(traced_lookup hask).1, by rintro _ ⟨⟩⟩
  obtain ⟨hcalls, hok⟩ := traced_lookup hask
  rcases traced_liftM_bind.mp hrest with ⟨e, -, rfl, rfl⟩ | ⟨checked, hchecked, hdone⟩
  · rw [List.append_nil]
    exact ⟨hcalls, by rintro _ ⟨⟩⟩
  obtain ⟨rfl, rfl⟩ := traced_pure.mp hdone
  rw [List.append_nil]
  refine ⟨hcalls, fun addresses ha => ⟨answers, hok answers rfl, checked, hchecked, ?_⟩⟩
  exact (Except.ok.inj ha).symm

theorem Answered.ne_nil {host : Str} {port : Nat} {answers : List (Option Str)}
    (h : Answered H host port answers l) : answers ≠ [] := by
  rcases h with ⟨-, -, rfl⟩ | ⟨-, hne⟩
  · exact List.cons_ne_nil _ _
  · exact hne

/-- Every answer is public, and the addresses are those of the answers. -/
theorem Checked.reachable {host : Str} {answers : List (Option Str)} {addresses : List Str}
    (h : Checked H host answers addresses) :
    (∀ answer ∈ answers, ∃ text address, answer = some text ∧
      Reachable H.ipaddress text address ∧ address ∈ addresses) ∧
    ∀ address ∈ addresses, ∃ text, some text ∈ answers ∧ Reachable H.ipaddress text address := by
  obtain ⟨checked, hchecked, rfl⟩ := h
  have hall := collect_eq_ok.mp hchecked
  refine ⟨fun answer hmem => ?_, fun address hmem => ?_⟩
  · obtain ⟨address, haddress, hok⟩ := exists_of_mem_left hall hmem
    obtain ⟨text, rfl, hreach⟩ := checkedAddress_eq_ok hok
    exact ⟨text, address, rfl, hreach, List.mem_eraseDups.mpr haddress⟩
  · obtain ⟨answer, hanswer, hok⟩ := exists_of_mem_right hall (List.mem_eraseDups.mp hmem)
    obtain ⟨text, rfl, hreach⟩ := checkedAddress_eq_ok hok
    exact ⟨text, hanswer, hreach⟩

theorem Checked.ne_nil {host : Str} {answers : List (Option Str)} {addresses : List Str}
    (h : Checked H host answers addresses) (hne : answers ≠ []) : addresses ≠ [] := by
  obtain ⟨answer, hmem⟩ := List.exists_mem_of_ne_nil _ hne
  obtain ⟨text, address, -, -, haddress⟩ := h.reachable.1 answer hmem
  exact List.ne_nil_of_mem haddress

theorem nodup_eraseDups (l : List Str) : l.eraseDups.Nodup := by
  induction hn : l.length using Nat.strong_induction_on generalizing l with
  | _ n ih =>
    cases l with
    | nil => exact List.nodup_nil
    | cons a l =>
      rw [List.eraseDups_cons, List.nodup_cons, List.mem_eraseDups, List.mem_filter]
      refine ⟨fun h => ?_, ih _ ?_ _ rfl⟩
      · simp at h
      · have := List.length_filter_le (fun b => !b == a) l
        rw [List.length_cons] at hn
        omega

theorem Checked.nodup {host : Str} {answers : List (Option Str)} {addresses : List Str}
    (h : Checked H host answers addresses) : addresses.Nodup := by
  obtain ⟨checked, -, rfl⟩ := h
  exact nodup_eraseDups checked

/-- A URL that the host guard admits: https, an allow-listed host, port 443, no user information. -/
structure Admitted (H : HttpClient σ) (url : Str) (parts : Url.SplitResult) : Prop where
  visible : ∀ c ∈ url, isVisibleAscii c = true
  split : Url.urlsplit H.interpreter.bracketedNetloc url = some parts
  https : parts.scheme = lit "https"
  allowed : parts.hostname.asciiLower ∈ H.allowed
  named : parts.hostname ≠ []
  port : parts.port = some none ∨ parts.port = some (some 443)
  noUserinfo : 64 ∉ parts.netloc

theorem exists_admitted (h : H.guardHost url = .ok ()) : ∃ parts, Admitted H url parts := by
  have hguard : H.toNode.guardHost url = .ok () := by
    unfold HttpClient.guardHost at h
    cases hg : H.toNode.guardHost url with
    | ok u => rfl
    | error e =>
      rw [hg] at h
      cases h
  obtain ⟨o, horigin, hguard⟩ : ∃ o, readOrigin H.interpreter url = .ok o ∧
      H.toNode.guardOrigin url o = .ok () := by
    unfold NodeClient.EbsiHttpClient.guardHost at hguard
    split at hguard
    · rename_i o horigin
      exact ⟨o, horigin, hguard⟩
    · cases hguard
    · cases hguard
  simp only [NodeClient.EbsiHttpClient.guardOrigin, bind_eq_ok, raiseIf_eq_ok,
    Bool.or_eq_false_iff, Bool.not_eq_false', List.contains_iff_mem, bne_eq_false_iff_eq] at hguard
  obtain ⟨⟨⟩, hscheme, ⟨⟩, ⟨hempty, hallowed⟩, ⟨⟩, hport, huser⟩ := hguard
  obtain ⟨parts, hsplit, hhost, hports⟩ : ∃ parts,
      Url.urlsplit H.interpreter.bracketedNetloc url = some parts ∧
      o.host = parts.hostname.asciiLower ∧ (parts.port = some none ∨ parts.port = some o.port) := by
    unfold readOrigin at horigin
    split at horigin
    · cases horigin
    split at horigin
    · cases horigin
    · rename_i parts hparts
      split at horigin
      · cases horigin
      · rename_i hnone
        cases horigin
        exact ⟨parts, hparts, rfl, .inl hnone⟩
      · rename_i port hsome
        cases horigin
        exact ⟨parts, hparts, rfl, .inr hsome⟩
  refine ⟨parts, List.all_eq_true.mp (readOrigin_eq_ok horigin).1, hsplit, ?_, hhost ▸ hallowed, ?_,
    ?_, ?_⟩
  · rw [← hscheme, (readOrigin_eq_ok horigin).2, (Url.urlsplit_eq_some hsplit).1]
  · rintro hnil
    rw [hhost, hnil] at hempty
    cases hempty
  · rwa [hport] at hports
  · intro hmem
    have : NodeClient.carriesUserinfo H.interpreter url = true := by
      unfold NodeClient.carriesUserinfo
      rw [hsplit]
      exact List.contains_iff_mem.mpr hmem
    rw [show H.toNode.interpreter = H.interpreter from rfl, this] at huser
    cases huser

theorem cleaned_of_visible (h : ∀ c ∈ url, isVisibleAscii c = true) : Url.cleaned url = url := by
  have hvisible : ∀ c ∈ url, 33 ≤ c := by
    intro c hc
    have := h c hc
    simp only [isVisibleAscii, Bool.and_eq_true, decide_eq_true_eq] at this
    exact this.1
  unfold Url.cleaned
  have hdrop : url.dropWhile (· ≤ 32) = url := by
    cases url with
    | nil => rfl
    | cons c t =>
      have := hvisible c List.mem_cons_self
      exact List.dropWhile_cons_of_neg (by simp; omega)
  rw [hdrop, List.filter_eq_self]
  intro c hc
  have := hvisible c hc
  simp
  omega

theorem authorityStart_append {name : Str} (h : 47 ∉ name) (t : Str) :
    HttpClient.authorityStart (name ++ 58 :: 47 :: 47 :: t) = some (name.length + 3) := by
  induction name with
  | nil => rfl
  | cons c name ih =>
    rw [List.mem_cons, not_or] at h
    have hstep : ∀ rest : Str, HttpClient.authorityStart (c :: rest) =
        (HttpClient.authorityStart rest).map (· + 1) := by
      intro rest
      rw [HttpClient.authorityStart]
      rintro t' rfl
      exact absurd rfl h.1
    rw [List.cons_append, hstep, ih h.2, Option.map_some, List.length_cons]

/-- The text of an admitted URL: its authority starts after the first two slashes, and what follows
it cannot add to it. -/
theorem Admitted.text {parts : Url.SplitResult} (h : Admitted H url parts) :
    ∃ start, HttpClient.authorityStart url = some start ∧
      url.drop start = parts.netloc ++ url.drop (start + parts.netloc.length) ∧
      ∀ c, (url.drop (start + parts.netloc.length)).head? = some c → Url.endsNetloc c = true := by
  obtain ⟨hscheme, hnetloc, -⟩ := Url.urlsplit_eq_some h.split
  have hhas : Url.hasScheme url = true := by
    by_contra hnot
    rw [Url.splitScheme, if_neg hnot, h.https] at hscheme
    cases hscheme
  rw [Url.splitScheme, if_pos hhas] at hnetloc
  obtain ⟨htext, hname⟩ := Url.hasScheme_eq_true hhas
  have hslash : 47 ∉ Str.beforeFirst 58 url := by
    intro hmem
    have hlower : 47 ∈ Str.asciiLower (Str.beforeFirst 58 url) := List.mem_map.mpr ⟨47, hmem, rfl⟩
    exact absurd (List.all_eq_true.mp hname.chars 47 hlower) (by decide)
  have hauthority : Str.startsWith (Str.partition 58 url).2.2 "//" = true := by
    by_contra hnot
    rw [Url.splitNetloc, if_neg hnot] at hnetloc
    refine h.named ?_
    simp [Url.SplitResult.hostname, Url.SplitResult.hostAndPort, Url.SplitResult.hostinfo, hnetloc,
      Str.partition, Str.beforeFirst, Str.asciiLower]
  obtain ⟨more, hmore⟩ : ∃ more, (Str.partition 58 url).2.2 = 47 :: 47 :: more := by
    obtain ⟨more, hmore⟩ := List.isPrefixOf_iff_prefix.mp hauthority
    exact ⟨more, hmore.symm⟩
  rw [hmore] at htext
  have hdrop : url.drop ((Str.beforeFirst 58 url).length + 3) = more := by
    have happend : url = (Str.beforeFirst 58 url ++ [58, 47, 47]) ++ more := by
      rw [List.append_assoc]
      exact htext
    calc url.drop ((Str.beforeFirst 58 url).length + 3)
        = List.drop ((Str.beforeFirst 58 url).length + 3)
            ((Str.beforeFirst 58 url ++ [58, 47, 47]) ++ more) := congrArg (List.drop _) happend
      _ = more := List.drop_left' List.length_append
  have hsplit : more = parts.netloc ++ (Url.splitNetloc (Str.partition 58 url).2.2).2 := by
    rw [hnetloc, Url.splitNetloc, if_pos hauthority, hmore]
    exact List.takeWhile_append_dropWhile.symm
  have htail : url.drop ((Str.beforeFirst 58 url).length + 3 + parts.netloc.length) =
      (Url.splitNetloc (Str.partition 58 url).2.2).2 := by
    rw [← List.drop_drop, hdrop, hsplit, List.drop_left]
  refine ⟨(Str.beforeFirst 58 url).length + 3, ?_, ?_, ?_⟩
  · conv_lhs => rw [htext]
    exact authorityStart_append hslash more
  · rw [hdrop, htail, ← hsplit]
  · intro c hc
    rw [htail] at hc
    rcases Url.splitNetloc_rest hauthority with hnil | ⟨d, t, hcons, hends⟩
    · rw [hnil] at hc
      cases hc
    · rw [hcons] at hc
      cases hc
      exact hends

theorem Admitted.readAuthority {parts : Url.SplitResult} (hadm : Admitted H url parts) {host : Str}
    {port stop : Nat} (h : H.readAuthority url = .ok (host, port, stop)) :
    host = parts.hostname ∧ port = 443 ∧
      (∃ front, url = front ++ parts.netloc ++ url.drop stop) ∧
      ∀ c, (url.drop stop).head? = some c → Url.endsNetloc c = true := by
  obtain ⟨start, hstart, htext, htail⟩ := hadm.text
  obtain ⟨parsed, hparsed, path, rfl⟩ : ∃ parsed,
      Url.urlparse H.interpreter.bracketedNetloc url = some parsed ∧
      ∃ path, parsed = { parts with path } := by
    unfold Url.urlparse
    rw [cleaned_of_visible hadm.visible, hadm.split, Option.map_some]
    refine ⟨_, rfl, ?_⟩
    split
    · exact ⟨_, rfl⟩
    · exact ⟨parts.path, rfl⟩
  have h443 : ∀ p, parts.port = some p → p.getD 443 = 443 := by
    intro p hp
    rcases hadm.port with hnone | hsome
    · rw [hnone] at hp
      cases hp
      rfl
    · rw [hsome] at hp
      cases hp
      rfl
  unfold HttpClient.readAuthority at h
  rw [hparsed] at h
  dsimp only at h
  split at h
  · cases h
  rename_i p hp
  rw [hstart] at h
  dsimp only at h
  split at h
  · cases h
  cases h
  refine ⟨rfl, h443 p hp, ⟨url.take start, ?_⟩, htail⟩
  rw [List.append_assoc, ← htext]
  exact (List.take_append_drop start url).symm

theorem rotate_mem {addresses : List Str} (h : addresses ≠ []) (tried : List Str) :
    (HttpClient.rotate addresses tried).1 ∈ addresses := by
  unfold HttpClient.rotate
  split
  · rename_i address rest hfresh
    have hmem : address ∈ addresses.filter (!tried.contains ·) := by
      rw [hfresh]
      exact List.mem_cons_self
    exact (List.mem_filter.mp hmem).1
  · rw [List.headD_eq_head?_getD, List.head?_eq_some_head h, Option.getD_some]
    exact List.head_mem h

theorem Admitted.traced_prepare {parts : Url.SplitResult} (hadm : Admitted H url parts)
    {tried : List Str} {headers : List (Str × Str)} {r : Except Failure (Request × List Str)}
    (h : Traced (H.prepare url tried headers) l r) :
    (H.guarded = false ∧ l = [] ∧ r = .ok (⟨url, headers, none⟩, tried)) ∨
      H.guarded = true ∧ (∀ c ∈ l, c.1 = .resolve parts.hostname 443) ∧
      ∀ request tried', r = .ok (request, tried') → ∃ answers addresses stop,
        Answered H parts.hostname 443 answers l ∧ Checked H parts.hostname answers addresses ∧
        (∃ front, url = front ++ parts.netloc ++ url.drop stop) ∧
        (∀ c, (url.drop stop).head? = some c → Url.endsNetloc c = true) ∧
        request = HttpClient.pinned url parts.hostname 443 stop headers
          (HttpClient.rotate addresses tried).1 ∧
        tried' = (HttpClient.rotate addresses tried).2 := by
  unfold HttpClient.prepare at h
  split at h
  · rename_i hguarded
    refine .inr ⟨hguarded, ?_⟩
    rcases traced_liftM_bind.mp h with ⟨e, -, rfl, rfl⟩ | ⟨⟨host, port, stop⟩, hread, h⟩
    · exact ⟨List.forall_mem_nil _, by rintro _ _ ⟨⟩⟩
    obtain ⟨rfl, rfl, hfront, htail⟩ := hadm.readAuthority hread
    rcases traced_bind.mp h with ⟨e, hask, rfl⟩ | ⟨addresses, l₁, l₂, hask, hdone, rfl⟩
    · obtain ⟨x, hx, -⟩ := traced_handle.mp hask
      exact ⟨(traced_addresses hx).1, by rintro _ _ ⟨⟩⟩
    obtain ⟨x, hx, hok⟩ := traced_handle.mp hask
    obtain ⟨rfl, rfl⟩ := traced_pure.mp hdone
    rw [List.append_nil]
    refine ⟨(traced_addresses hx).1, fun request tried' hr => ?_⟩
    cases hr
    cases x with
    | error e => cases hok
    | ok found =>
      cases hok
      obtain ⟨answers, hanswered, hchecked⟩ := (traced_addresses hx).2 _ rfl
      exact ⟨answers, _, stop, hanswered, hchecked, hfront, htail, rfl, rfl⟩
  · rename_i hguarded
    obtain ⟨rfl, rfl⟩ := traced_pure.mp h
    exact .inl ⟨eq_false_of_ne_true hguarded, rfl, rfl⟩

end OpenVC.Ebsi.Http
