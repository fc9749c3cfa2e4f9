import OpenVC.Fetch

/-!
# What a guarded fetch does on the network

Whatever the resolver, the network and the clock do, a fetch looks its host up at most once, connects
at most once, and only to an address of that answer, all of whose addresses are public.
-/

namespace OpenVC.Fetch

open Python Calling

variable {I : Interpreter} {P : IpLibrary}

/-- The calls of a fetch with their outcomes, in order. -/
abbrev Trace := List (Answer Query Query.Answer Exc)

/-- An address that passes the guard. -/
def Public (P : IpLibrary) (addr : Str) : Prop := ∃ ip, P addr = some ip ∧ isForbidden ip = false

/-- An exception that a call of the trace raised. -/
def Raised (l : Trace) (e : Exc) : Prop := ∃ q, ⟨q, .error e⟩ ∈ l

/-- What the handler around a call names. -/
def Query.handles : Query → Exc → Bool
  | getaddrinfo _ _ => isUnresolved
  | _ => isTransport

/-- An exception that a call of the trace raised and that no handler names. -/
def Unhandled (l : Trace) (e : Exc) : Prop := ∃ q, ⟨q, .error e⟩ ∈ l ∧ q.handles e = false

/-- The octets that were read. -/
def octets : Trace → Bytes
  | [] => []
  | ⟨.read1 _, .ok b⟩ :: l => b ++ octets l
  | _ :: l => octets l

/-- A read returns at most the octets it was asked for. -/
def Fits : Answer Query Query.Answer Exc → Prop
  | ⟨.read1 n, .ok b⟩ => b.length ≤ n
  | _ => True

/-- A call of the loop that reads the body. -/
def IsRead (q : Query) : Prop := q = .monotonic ∨ ∃ n, n ≤ 65536 ∧ q = .read1 n

/-- Each read comes right after a reading of the clock that is not past the deadline. -/
def Clocked (deadline : PyFloat) (l : Trace) : Prop :=
  ∀ pre n r post, l = pre ++ ⟨.read1 n, r⟩ :: post →
    ∃ before t, pre = before ++ [⟨.monotonic, .ok t⟩] ∧ PyFloat.lt deadline t = false

/-- The calls of a body: the clock is read, and each read of the body comes right after a reading
that is not past the timeout from the first one. -/
def Timed (timeout : PyFloat) (l : Trace) : Prop :=
  ∀ pre n r post, l = pre ++ ⟨.read1 n, r⟩ :: post → ∃ started before t,
    pre = ⟨.monotonic, .ok started⟩ :: (before ++ [⟨.monotonic, .ok t⟩]) ∧
      PyFloat.lt (PyFloat.add started timeout) t = false

section Clocked

variable {deadline timeout : PyFloat} {l : Trace}

theorem Clocked.of_unread (h : ∀ c ∈ l, c.1 = .monotonic) : Clocked deadline l := by
  rintro pre n r post rfl
  cases h ⟨.read1 n, r⟩ (List.mem_append_right _ List.mem_cons_self)

/-- A read of a round, then the rest of the loop. -/
theorem Clocked.round {t : PyFloat} {n : Nat} {r : Except Exc Bytes}
    (ht : PyFloat.lt deadline t = false) (h : Clocked deadline l) :
    Clocked deadline (⟨.monotonic, .ok t⟩ :: ⟨.read1 n, r⟩ :: l) := by
  intro pre n' r' post heq
  rcases pre with _ | ⟨c, _ | ⟨c', pre⟩⟩
  · cases heq
  · cases heq
    exact ⟨[], t, rfl, ht⟩
  · cases heq
    obtain ⟨before, t', rfl, ht'⟩ := h pre n' r' post rfl
    exact ⟨_ :: _ :: before, t', rfl, ht'⟩

theorem Timed.nil : Timed timeout [] := by
  intro pre n r post heq
  cases pre <;> cases heq

theorem Clocked.timed {started : PyFloat} (h : Clocked (PyFloat.add started timeout) l) :
    Timed timeout (⟨.monotonic, .ok started⟩ :: l) := by
  intro pre n r post heq
  cases pre with
  | nil => cases heq
  | cons c pre =>
    cases heq
    obtain ⟨before, t, rfl, ht⟩ := h pre n r post rfl
    exact ⟨started, before, t, rfl, ht⟩

end Clocked

/-! ## The guard -/

theorem checkAddress_eq_ok {host addr : Str} {u : Unit} :
    checkAddress P host addr = .ok u ↔ Public P addr := by
  simp only [checkAddress, ipIsForbidden, Public, bind_eq_ok, raiseIf_eq_ok]
  cases P addr with
  | none => simp
  | some ip => simp

theorem checkAddress_error {host addr : Str} {e : Exc} (h : checkAddress P host addr = .error e) :
    e.cls.isa .didResolutionError = true ∨ P addr = none := by
  unfold checkAddress ipIsForbidden at h
  cases hip : P addr with
  | none => exact .inr rfl
  | some ip =>
    rw [hip] at h
    change raiseIf (isForbidden ip) _ = .error e at h
    unfold raiseIf at h
    split at h
    · cases h
      exact .inl rfl
    · cases h

/-- What the handler of a `try` raises is of its own class, or was not handled. -/
theorem orFail_error {α : Type} {handled : Exc → Bool} {cls : String → List Json → Exc}
    {lead : String} {args : List Json} {r : Except Exc α} {e : Exc}
    (h : orFail handled cls lead args r = .error e) :
    (∃ text args, e = cls text args) ∨ r = .error e ∧ handled e = false := by
  cases r with
  | ok a => cases h
  | error e' =>
    simp only [orFail] at h
    split at h
    · cases h
      exact .inl ⟨_, _, rfl⟩
    · rename_i hnot
      cases h
      exact .inr ⟨rfl, by simpa using hnot⟩

theorem orFail_eq_ok {α : Type} {handled : Exc → Bool} {cls : String → List Json → Exc}
    {lead : String} {args : List Json} {r : Except Exc α} {a : α} :
    orFail handled cls lead args r = .ok a ↔ r = .ok a := by
  cases r <;> simp [orFail]

/-- A loop that raised did so in one of its iterations. -/
theorem exists_of_each_error {α : Type} {f : α → Except Exc Unit} {l : List α} {e : Exc}
    (h : each f l = .error e) : ∃ a ∈ l, f a = .error e := by
  induction l with
  | nil => cases h
  | cons a l ih =>
    unfold each at h
    cases ha : f a with
    | error e' =>
      rw [ha] at h
      cases h
      exact ⟨a, List.mem_cons_self, ha⟩
    | ok u =>
      rw [ha] at h
      obtain ⟨b, hb, hraise⟩ := ih h
      exact ⟨b, List.mem_cons_of_mem _ hb, hraise⟩

/-! ## The body -/

/-- What the loop that reads a body of at most `remaining` octets does. -/
structure Reading (deadline : PyFloat) (late : Exc) (remaining : Nat) (l : Trace)
    (result : Except Exc Bytes) : Prop where
  calls : ∀ c ∈ l, IsRead c.1
  clocked : Clocked deadline l
  bounded : (∀ c ∈ l, Fits c) → (octets l).length ≤ remaining
  body : ∀ b, result = .ok b → b = octets l
  /-- A body that is not cut off at the bound ends where the server ended it. -/
  complete : ∀ b, result = .ok b → b.length < remaining → ∃ n, l.getLast? = some ⟨.read1 n, .ok []⟩
  inTime : ∀ b, result = .ok b → ∀ t, ⟨.monotonic, .ok t⟩ ∈ l → PyFloat.lt deadline t = false
  raised : ∀ e, result = .error e → e = late ∨ Raised l e

variable {deadline : PyFloat} {late : Exc} {l : Trace}

theorem Raised.cons {c : Answer Query Query.Answer Exc} {e : Exc} (h : Raised l e) :
    Raised (c :: l) e := by
  obtain ⟨q, hq⟩ := h
  exact ⟨q, List.mem_cons_of_mem _ hq⟩

theorem raised_head {q : Query} {e : Exc} : Raised (⟨q, .error e⟩ :: l) e :=
  ⟨q, List.mem_cons_self⟩

theorem Reading.done (n : Nat) (h : n = 0) : Reading deadline late n [] (.ok []) where
  calls _ hc := (List.not_mem_nil hc).elim
  clocked := .of_unread fun _ hc => (List.not_mem_nil hc).elim
  bounded _ := Nat.zero_le _
  body _ h := (Except.ok.inj h).symm
  complete _ _ hlt := by omega
  inTime _ _ _ ht := (List.not_mem_nil ht).elim
  raised _ h := by cases h

/-- The clock or the read of a round fails. -/
theorem Reading.stopped {e : Exc} (n : Nat) (hl : ∀ c ∈ l, IsRead c.1)
    (hclocked : Clocked deadline l) (hb : octets l = []) (he : e = late ∨ Raised l e) :
    Reading deadline late n l (.error e) where
  calls := hl
  clocked := hclocked
  bounded _ := by rw [hb]; exact Nat.zero_le _
  body _ h := by cases h
  complete _ h := by cases h
  inTime _ h := by cases h
  raised _ h := Except.error.inj h ▸ he

/-- A round that reads something, then the rest of the loop. -/
theorem Reading.round {t : PyFloat} {chunk : Bytes} {n : Nat} (result : Except Exc Bytes)
    (ht : PyFloat.lt deadline t = false)
    (h : Reading deadline late (n - chunk.length) l result) :
    Reading deadline late n
      (⟨.monotonic, .ok t⟩ :: ⟨.read1 (min n 65536), .ok chunk⟩ :: l)
      (result.map (chunk ++ ·)) := by
  refine ⟨?_, .round ht h.clocked, ?_, ?_, ?_, ?_, ?_⟩
  · intro c hc
    rcases List.mem_cons.mp hc with rfl | hc
    · exact .inl rfl
    rcases List.mem_cons.mp hc with rfl | hc
    · exact .inr ⟨_, Nat.min_le_right _ _, rfl⟩
    · exact h.calls c hc
  · intro hfit
    have hchunk : chunk.length ≤ min n 65536 := hfit ⟨.read1 (min n 65536), .ok chunk⟩ (by simp)
    have hrest := h.bounded fun c hc => hfit c (by simp [hc])
    change (chunk ++ octets l).length ≤ n
    rw [List.length_append]
    omega
  · intro b hb
    cases result with
    | error e => cases hb
    | ok rest =>
      cases hb
      change chunk ++ rest = chunk ++ octets l
      rw [← h.body rest rfl]
  · intro b hb hlt
    cases result with
    | error e => cases hb
    | ok rest =>
      cases hb
      rw [List.length_append] at hlt
      obtain ⟨m, hm⟩ := h.complete rest rfl (by omega)
      refine ⟨m, ?_⟩
      rw [List.getLast?_cons, List.getLast?_cons, hm]
      rfl
  · intro b hb t' ht'
    cases result with
    | error e => cases hb
    | ok rest =>
      rcases List.mem_cons.mp ht' with heq | ht'
      · cases heq
        exact ht
      rcases List.mem_cons.mp ht' with heq | ht'
      · cases heq
      · exact h.inTime rest rfl t' ht'
  · intro e he
    cases result with
    | ok rest => cases he
    | error e' =>
      cases he
      rcases h.raised e rfl with hlate | hraised
      · exact .inl hlate
      · exact .inr hraised.cons.cons

theorem traced_readLoop {rounds remaining : Nat} {result : Except Exc Bytes}
    (hrounds : remaining ≤ rounds) (h : Traced (readLoop deadline late rounds remaining) l result) :
    Reading deadline late remaining l result := by
  induction rounds generalizing remaining l result with
  | zero =>
    obtain ⟨rfl, rfl⟩ := traced_pure.mp h
    exact .done _ (by omega)
  | succ rounds ih =>
    unfold readLoop at h
    split at h
    · rename_i hzero
      obtain ⟨rfl, rfl⟩ := traced_pure.mp h
      exact .done _ hzero
    rename_i hne
    rcases traced_ask_bind.mp h with ⟨e, rfl, rfl⟩ | ⟨t, l₁, hguard, rfl⟩
    · exact .stopped _ (by simp [IsRead]) (.of_unread (by simp)) rfl (.inr raised_head)
    rcases traced_liftM_bind.mp hguard with ⟨e, hlate, rfl, rfl⟩ | ⟨⟨⟩, hlate, hread⟩
    · refine .stopped _ (by simp [IsRead]) (.of_unread (by simp)) rfl (.inl ?_)
      unfold raiseIf at hlate
      split at hlate
      · cases hlate
        rfl
      · cases hlate
    rw [raiseIf_eq_ok] at hlate
    rcases traced_ask_bind.mp hread with ⟨e, rfl, rfl⟩ | ⟨chunk, l₂, htail, rfl⟩
    · refine .stopped _ ?_ (.round hlate (.of_unread (by simp))) rfl (.inr raised_head.cons)
      intro c hc
      rcases List.mem_cons.mp hc with rfl | hc
      · exact .inl rfl
      · rw [List.mem_singleton.mp hc]
        exact .inr ⟨_, Nat.min_le_right _ _, rfl⟩
    split at htail
    · -- the server has ended the body
      rename_i hempty
      obtain ⟨rfl, rfl⟩ := traced_pure.mp htail
      obtain rfl : chunk = [] := List.isEmpty_iff.mp hempty
      refine ⟨?_, .round hlate (.of_unread (by simp)), fun _ => Nat.zero_le _,
        fun b hb => (Except.ok.inj hb).symm, fun _ _ _ => ⟨_, rfl⟩, fun b _ t' ht' => ?_,
        by rintro _ ⟨⟩⟩
      · intro c hc
        rcases List.mem_cons.mp hc with rfl | hc
        · exact .inl rfl
        · rw [List.mem_singleton.mp hc]
          exact .inr ⟨_, Nat.min_le_right _ _, rfl⟩
      · rcases List.mem_cons.mp ht' with heq | ht'
        · cases heq
          exact hlate
        · cases List.mem_singleton.mp ht'
    · rename_i hchunk
      have hpos : 0 < chunk.length := by
        rw [List.length_pos_iff]
        exact fun hnil => hchunk (by simp [hnil])
      rcases traced_bind.mp htail with ⟨e, hrest, rfl⟩ | ⟨rest, l₃, l₄, hrest, hdone, rfl⟩
      · exact Reading.round (.error e) hlate (ih (by omega) hrest)
      · obtain ⟨rfl, rfl⟩ := traced_pure.mp hdone
        rw [List.append_nil]
        exact Reading.round (.ok rest) hlate (ih (by omega) hrest)

/-! ## The connection -/

/-- An exception of the fetch itself. -/
def Typed (e : Exc) : Prop := e.cls.isa .didResolutionError = true

/-- What is done after the request: `r` is the outcome of the request, `l` the calls after it. -/
structure Exchange (timeout : PyFloat) (maxBytes : Int) (r : Except Exc Int) (l : Trace)
    (result : Except Exc (Int × Bytes)) : Prop where
  calls : ∀ c ∈ l, IsRead c.1
  timed : Timed timeout l
  bounded : (∀ c ∈ l, Fits c) → (octets l).length ≤ (maxBytes + 1).toNat
  status : ∀ a, result = .ok a → r = .ok a.1
  body : ∀ a, result = .ok a → a.2 = octets l
  complete : ∀ a, result = .ok a → (a.2.length : Int) ≤ maxBytes →
    ∃ n, l.getLast? = some ⟨.read1 n, .ok []⟩
  inTime : ∀ a, result = .ok a → ∃ started reads, l = ⟨.monotonic, .ok started⟩ :: reads ∧
    Clocked (PyFloat.add started timeout) reads ∧
    ∀ t, ⟨.monotonic, .ok t⟩ ∈ reads → PyFloat.lt (PyFloat.add started timeout) t = false

/-- The exchange fails. -/
theorem Exchange.failed {timeout : PyFloat} {maxBytes : Int} {r : Except Exc Int} {e : Exc}
    (hcalls : ∀ c ∈ l, IsRead c.1) (htimed : Timed timeout l)
    (hbounded : (∀ c ∈ l, Fits c) → (octets l).length ≤ (maxBytes + 1).toNat) :
    Exchange timeout maxBytes r l (.error e) where
  calls := hcalls
  timed := htimed
  bounded := hbounded
  status _ h := by cases h
  body _ h := by cases h
  complete _ h := by cases h
  inTime _ h := by cases h

variable {hostname ip target : Str} {port : Nat} {timeout : PyFloat} {maxBytes : Int}

theorem Reading.bounded_cons {started : PyFloat} {n : Nat} {result : Except Exc Bytes}
    (h : Reading deadline late n l result) (hfit : ∀ c ∈ ⟨.monotonic, .ok started⟩ :: l, Fits c) :
    (octets (⟨.monotonic, .ok started⟩ :: l)).length ≤ n :=
  h.bounded fun c hc => hfit c (List.mem_cons_of_mem _ hc)

theorem traced_exchange {result : Except Exc (Int × Bytes)}
    (h : Traced (exchange hostname ip port target timeout maxBytes) l result) :
    ∃ r l', l = ⟨.get ip port hostname target, r⟩ :: l' ∧ Exchange timeout maxBytes r l' result ∧
      ∀ e, result = .error e → Typed e ∨ Raised l e := by
  rcases traced_ask_bind.mp h with ⟨e, rfl, rfl⟩ | ⟨status, l₁, hclock, rfl⟩
  · refine ⟨.error e, [], rfl, .failed (by simp) .nil fun _ => Nat.zero_le _, fun e' he => ?_⟩
    cases he
    exact .inr raised_head
  refine ⟨.ok status, l₁, rfl, ?_⟩
  rcases traced_ask_bind.mp hclock with ⟨e, rfl, rfl⟩ | ⟨started, l₂, hread, rfl⟩
  · refine ⟨.failed (by simp [IsRead]) ?_ fun _ => Nat.zero_le _, fun e' he => ?_⟩
    · intro pre n r post heq
      rcases pre with _ | ⟨c, _ | ⟨c', pre⟩⟩ <;> cases heq
    · cases he
      exact .inr raised_head.cons
  rcases traced_bind.mp hread with ⟨e, hloop, rfl⟩ | ⟨body, l₃, l₄, hloop, hdone, rfl⟩
  · have hreading := traced_readLoop le_rfl hloop
    refine ⟨.failed ?_ hreading.clocked.timed hreading.bounded_cons, fun e' he => ?_⟩
    · exact List.forall_mem_cons.mpr ⟨.inl rfl, hreading.calls⟩
    · cases he
      rcases hreading.raised e rfl with rfl | hraised
      · exact .inl rfl
      · exact .inr hraised.cons.cons
  · obtain ⟨rfl, rfl⟩ := traced_pure.mp hdone
    rw [List.append_nil]
    have hreading := traced_readLoop le_rfl hloop
    refine ⟨⟨?_, hreading.clocked.timed, hreading.bounded_cons, ?_, ?_, ?_, ?_⟩, by rintro _ ⟨⟩⟩
    · exact List.forall_mem_cons.mpr ⟨.inl rfl, hreading.calls⟩
    · intro a ha
      cases ha
      rfl
    · intro a ha
      cases ha
      exact hreading.body body rfl
    · intro a ha hle
      cases ha
      obtain ⟨n, hn⟩ := hreading.complete body rfl (by simp only at hle; omega)
      exact ⟨n, by rw [List.getLast?_cons, hn]; rfl⟩
    · intro a ha
      exact ⟨started, l₃, rfl, hreading.clocked, hreading.inTime body rfl⟩

theorem traced_httpsGet {result : Except Exc (Int × Bytes)}
    (h : Traced (httpsGet hostname ip port target timeout maxBytes) l result) :
    ∃ r l', l = ⟨.get ip port hostname target, r⟩ :: l' ∧ Exchange timeout maxBytes r l' result ∧
      ∀ e, result = .error e → Typed e ∨ Unhandled l e := by
  obtain ⟨x, hx, rfl⟩ := traced_handle.mp h
  obtain ⟨r, l', rfl, hexchange, htyped⟩ := traced_exchange hx
  refine ⟨r, l', rfl, ?_, fun e he => ?_⟩
  · cases x with
    | ok a => exact hexchange
    | error e => exact .failed hexchange.calls hexchange.timed hexchange.bounded
  · rcases orFail_error he with ⟨text, args, rfl⟩ | ⟨hx, hnot⟩
    · exact .inl rfl
    rcases htyped e hx with hown | ⟨q, hq⟩
    · exact .inl hown
    · refine .inr ⟨q, hq, ?_⟩
      rcases List.mem_cons.mp hq with heq | hmem
      · cases heq
        exact hnot
      · rcases hexchange.calls _ hmem with rfl | ⟨n, -, rfl⟩
        · exact hnot
        · exact hnot

/-! ## The lookup -/

theorem traced_resolvePublicIps {host : Str} {result : Except Exc (List Str)}
    (h : Traced (resolvePublicIps P host port) l result) :
    ∃ r, l = [⟨.getaddrinfo host port, r⟩] ∧
      (∀ ips, result = .ok ips → r = .ok ips ∧ ips ≠ [] ∧ ∀ a ∈ ips, Public P a) ∧
      ∀ e, result = .error e →
        Typed e ∨ Unhandled l e ∨ ∃ ips, r = .ok ips ∧ ∃ a ∈ ips, P a = none := by
  rcases traced_bind.mp h with ⟨e, hask, rfl⟩ | ⟨ips, l₁, l₂, hask, hrest, rfl⟩
  · obtain ⟨r, hr, he⟩ := traced_handle.mp hask
    obtain rfl := traced_ask.mp hr
    refine ⟨r, rfl, by rintro _ ⟨⟩, fun e' he' => ?_⟩
    cases he'
    rcases orFail_error he.symm with ⟨text, args, rfl⟩ | ⟨rfl, hnot⟩
    · exact .inl rfl
    · exact .inr (.inl ⟨_, List.mem_cons_self, hnot⟩)
  obtain ⟨r, hr, hok⟩ := traced_handle.mp hask
  obtain rfl := traced_ask.mp hr
  obtain rfl := orFail_eq_ok.mp hok.symm
  rcases traced_liftM_bind.mp hrest with ⟨e, hempty, rfl, rfl⟩ | ⟨⟨⟩, hempty, heach⟩
  · refine ⟨.ok ips, by rw [List.append_nil], by rintro _ ⟨⟩, fun e' he' => ?_⟩
    cases he'
    unfold raiseIf at hempty
    split at hempty
    · cases hempty
      exact .inl rfl
    · cases hempty
  rcases traced_liftM_bind.mp heach with ⟨e, hbad, rfl, rfl⟩ | ⟨⟨⟩, hgood, hdone⟩
  · refine ⟨.ok ips, by rw [List.append_nil], by rintro _ ⟨⟩, fun e' he' => ?_⟩
    cases he'
    obtain ⟨a, ha, hraise⟩ := exists_of_each_error hbad
    rcases checkAddress_error hraise with htyped | hnone
    · exact .inl htyped
    · exact .inr (.inr ⟨ips, rfl, a, ha, hnone⟩)
  · obtain ⟨rfl, rfl⟩ := traced_pure.mp hdone
    refine ⟨.ok ips, by rw [List.append_nil], fun ips' hips => ?_, by rintro _ ⟨⟩⟩
    cases hips
    refine ⟨rfl, ?_, fun a ha => ?_⟩
    · rintro rfl
      cases hempty
    · exact checkAddress_eq_ok.mp (each_eq_ok.mp hgood a ha)

/-! ## The fetch -/

/-- The host, the port and the target that a URL names, when a fetch accepts it. -/
structure Names (I : Interpreter) (url hostname : Str) (port : Nat) (target : Str) : Prop where
  ascii : url.isAscii = true
  parsed : ∃ parts p, Url.urlparse I.bracketedNetloc url = some parts ∧
    parts.scheme = lit "https" ∧ parts.hostname = hostname ∧ parts.port = some p ∧
    port = (if p.getD 0 = 0 then 443 else p.getD 0) ∧ target = targetOf parts
  nonempty : hostname ≠ []
  length_le : hostname.length ≤ 253
  printable : ∀ c ∈ hostname, isControl c = false

theorem checkUrl_eq_ok {url : Str} {parts : Url.SplitResult} {port : Nat}
    (h : checkUrl I url = .ok (parts, port)) :
    Names I url parts.hostname port (targetOf parts) := by
  simp only [checkUrl, bind_eq_ok, raiseIf_eq_ok, orRaise_eq_ok, pure_eq_ok] at h
  obtain ⟨⟨⟩, hascii, ⟨parts', port'⟩, hparse, ⟨⟩, hscheme, ⟨⟩, hhost, ⟨⟩, hlen, ⟨⟩, hctl, heq⟩ := h
  cases heq
  unfold parseUrl at hparse
  cases hurl : Url.urlparse I.bracketedNetloc url with
  | none =>
    rw [hurl] at hparse
    cases hparse
  | some q =>
    rw [hurl] at hparse
    dsimp only at hparse
    cases hport : q.port with
    | none =>
      rw [hport] at hparse
      cases hparse
    | some p =>
      rw [hport] at hparse
      cases hparse
      refine ⟨by simpa using hascii, ⟨_, p, hurl, by simpa using hscheme, rfl, hport, rfl, rfl⟩,
        ?_, ?_, ?_⟩
      · exact fun hnil => by simp [hnil] at hhost
      · simpa using hlen
      · intro c hc
        simpa using List.any_eq_false.mp hctl c hc

/-- What a fetch does on the network: nothing more than one lookup, unless every address of the
answer is public, and then one connection to the first of them, of which it reads while the clock is
not past the timeout. -/
inductive Dialogue (P : IpLibrary) (timeout : PyFloat) (hostname : Str) (port : Nat)
    (target : Str) : Trace → Prop where
  | looked (r : Except Exc (List Str)) :
      Dialogue P timeout hostname port target [⟨.getaddrinfo hostname port, r⟩]
  | connected {ips : List Str} {ip : Str} {r : Except Exc Int} {reads : Trace}
      (hips : ips.head? = some ip) (hpublic : ∀ a ∈ ips, Public P a)
      (hreads : ∀ c ∈ reads, IsRead c.1) (htimed : Timed timeout reads) :
      Dialogue P timeout hostname port target
        (⟨.getaddrinfo hostname port, .ok ips⟩ :: ⟨.get ip port hostname target, r⟩ :: reads)

/-- The body that a fetch returns: the whole of a 200 answer, in time and within the bound. -/
structure Received (timeout : PyFloat) (maxBytes : Int) (l : Trace) (raw : Bytes) : Prop where
  answered : ∃ lookup ip port hostname target started reads,
    l = lookup :: ⟨.get ip port hostname target, .ok 200⟩ :: ⟨.monotonic, .ok started⟩ :: reads ∧
    Clocked (PyFloat.add started timeout) reads ∧
    ∀ t, ⟨.monotonic, .ok t⟩ ∈ reads → PyFloat.lt (PyFloat.add started timeout) t = false
  body : raw = octets l
  length_le : (raw.length : Int) ≤ maxBytes
  complete : ∃ n, l.getLast? = some ⟨.read1 n, .ok []⟩

theorem checkAnswer_eq_ok {url : Str} {answer : Int × Bytes} {raw : Bytes}
    (h : checkAnswer url maxBytes answer = .ok raw) :
    answer = (200, raw) ∧ (raw.length : Int) ≤ maxBytes := by
  simp only [checkAnswer, bind_eq_ok, raiseIf_eq_ok, pure_eq_ok] at h
  obtain ⟨⟨⟩, -, ⟨⟩, hstatus, ⟨⟩, hlen, rfl⟩ := h
  refine ⟨Prod.ext ?_ rfl, by simpa using hlen⟩
  simpa using hstatus

theorem typed_raiseIf_bind {α : Type} {c : Bool} {e e' : Exc} {f : Unit → Except Exc α}
    (hc : Typed e) (hf : ∀ u, f u = .error e' → Typed e') (h : (raiseIf c e >>= f) = .error e') :
    Typed e' := by
  cases c with
  | true =>
    obtain rfl : e = e' := Except.error.inj h
    exact hc
  | false => exact hf () h

theorem checkAnswer_error {url : Str} {answer : Int × Bytes} {e : Exc}
    (h : checkAnswer url maxBytes answer = .error e) : Typed e := by
  refine typed_raiseIf_bind (by exact rfl) (fun _ h => ?_) h
  refine typed_raiseIf_bind (by exact rfl) (fun _ h => ?_) h
  refine typed_raiseIf_bind (by exact rfl) (fun _ h => ?_) h
  cases h

theorem checkUrl_error {url : Str} {e : Exc} (h : checkUrl I url = .error e) : Typed e := by
  refine typed_raiseIf_bind (by exact rfl) (fun _ h => ?_) h
  cases hparse : parseUrl I url with
  | none =>
    rw [hparse] at h
    cases h
    rfl
  | some p =>
    rw [hparse] at h
    refine typed_raiseIf_bind (by exact rfl) (fun _ h => ?_) h
    refine typed_raiseIf_bind (by exact rfl) (fun _ h => ?_) h
    refine typed_raiseIf_bind (by exact rfl) (fun _ h => ?_) h
    refine typed_raiseIf_bind (by exact rfl) (fun _ h => ?_) h
    cases h

/-- An answer that is not a list of IP addresses. -/
def Garbled (P : IpLibrary) (l : Trace) : Prop :=
  ∃ host port ips, ⟨.getaddrinfo host port, .ok ips⟩ ∈ l ∧ ∃ a ∈ ips, P a = none

/-- Whatever its calls return or raise, a fetch looks up the host that the URL names, at most once, and
connects at most once: to the first address of that answer, when all of them are public. -/
theorem traced_httpsFetchGuarded {timeoutS : PyFloat} {maxBytes : Int} {url : Str} {l : Trace}
    {result : Except Exc Bytes} (h : Traced (httpsFetchGuarded I P timeoutS maxBytes url) l result) :
    (l = [] ∨ ∃ hostname port target, Names I url hostname port target ∧
      Dialogue P timeoutS hostname port target l) ∧
    (∀ raw, result = .ok raw → Received timeoutS maxBytes l raw) ∧
    ((∀ c ∈ l, Fits c) → (octets l).length ≤ (maxBytes + 1).toNat) ∧
    ∀ e, result = .error e → Typed e ∨ Unhandled l e ∨ Garbled P l := by
  rcases traced_liftM_bind.mp h with ⟨e, hcheck, rfl, rfl⟩ | ⟨⟨parts, port⟩, hcheck, hlookup⟩
  · refine ⟨.inl rfl, by rintro _ ⟨⟩, fun _ => Nat.zero_le _, fun e' he => .inl ?_⟩
    cases he
    exact checkUrl_error hcheck
  have hnames := checkUrl_eq_ok hcheck
  rcases traced_bind.mp hlookup with ⟨e, hresolve, rfl⟩ | ⟨ips, l₁, l₂, hresolve, hget, rfl⟩
  · obtain ⟨r, rfl, -, htyped⟩ := traced_resolvePublicIps hresolve
    refine ⟨.inr ⟨_, _, _, hnames, .looked r⟩, by rintro _ ⟨⟩, fun _ => Nat.zero_le _, fun e' he => ?_⟩
    cases he
    rcases htyped e rfl with hown | hraised | ⟨ips, rfl, hbad⟩
    · exact .inl hown
    · exact .inr (.inl hraised)
    · exact .inr (.inr ⟨_, _, ips, List.mem_cons_self, hbad⟩)
  obtain ⟨r, rfl, hok, -⟩ := traced_resolvePublicIps hresolve
  obtain ⟨rfl, hne, hpublic⟩ := hok ips rfl
  have hhead : ips.head? = some (ips.headD []) := by
    cases ips with
    | nil => exact absurd rfl hne
    | cons ip ips => rfl
  rcases traced_bind.mp hget with ⟨e, hexchange, rfl⟩ | ⟨answer, l₃, l₄, hexchange, hrest, rfl⟩
  · obtain ⟨r, reads, rfl, hdone, htyped⟩ := traced_httpsGet hexchange
    refine ⟨.inr ⟨_, _, _, hnames, .connected hhead hpublic hdone.calls hdone.timed⟩, by rintro _ ⟨⟩,
      fun hfit => hdone.bounded fun c hc => hfit c (by simp [hc]), fun e' he => ?_⟩
    cases he
    rcases htyped e rfl with hown | ⟨q, hq, hnot⟩
    · exact .inl hown
    · exact .inr (.inl ⟨q, List.mem_append_right _ hq, hnot⟩)
  obtain ⟨rfl, rfl⟩ := traced_done.mp hrest
  rw [List.append_nil]
  obtain ⟨r, reads, rfl, hdone, -⟩ := traced_httpsGet hexchange
  refine ⟨.inr ⟨_, _, _, hnames, .connected hhead hpublic hdone.calls hdone.timed⟩, fun raw hraw => ?_,
    fun hfit => hdone.bounded fun c hc => hfit c (by simp [hc]), fun e he => .inl ?_⟩
  · obtain ⟨rfl, hle⟩ := checkAnswer_eq_ok hraw
    obtain rfl := hdone.status _ rfl
    obtain ⟨started, later, rfl, htime⟩ := hdone.inTime _ rfl
    obtain ⟨n, hn⟩ := hdone.complete _ rfl hle
    refine ⟨⟨_, _, _, _, _, started, later, rfl, htime⟩, hdone.body _ rfl, hle, n, ?_⟩
    rw [List.singleton_append, List.getLast?_cons, List.getLast?_cons, hn]
    rfl
  · exact checkAnswer_error he

/-! ## A server that answers -/

/-- The calls that read a body in chunks, with `n` octets left. -/
def served (t : PyFloat) : Nat → List Bytes → Trace
  | n, [] => [⟨.monotonic, .ok t⟩, ⟨.read1 (min n 65536), .ok []⟩]
  | n, chunk :: chunks => ⟨.monotonic, .ok t⟩ :: ⟨.read1 (min n 65536), .ok chunk⟩ ::
      served t (n - chunk.length) chunks

theorem traced_readLoop_served {t : PyFloat} (ht : PyFloat.lt deadline t = false)
    {chunks : List Bytes} {rounds n : Nat} (hrounds : n ≤ rounds) (hne : ∀ c ∈ chunks, c ≠ [])
    (hlt : chunks.flatten.length < n) :
    Traced (readLoop deadline late rounds n) (served t n chunks) (.ok chunks.flatten) := by
  have hlate : raiseIf (PyFloat.lt deadline t) late = .ok () := raiseIf_eq_ok.mpr ht
  induction chunks generalizing rounds n with
  | nil =>
    obtain ⟨rounds, rfl⟩ := Nat.exists_eq_add_one.mpr (show 0 < rounds by omega)
    have hn : n ≠ 0 := by omega
    unfold readLoop
    rw [if_neg hn]
    refine traced_ask_bind.mpr (.inr ⟨t, _, ?_, rfl⟩)
    refine traced_liftM_bind.mpr (.inr ⟨(), hlate, ?_⟩)
    exact traced_ask_bind.mpr (.inr ⟨[], [], .done _, rfl⟩)
  | cons chunk chunks ih =>
    rw [List.forall_mem_cons] at hne
    rw [List.flatten_cons, List.length_append] at hlt
    have hpos : 0 < chunk.length := List.length_pos_iff.mpr hne.1
    obtain ⟨rounds, rfl⟩ := Nat.exists_eq_add_one.mpr (show 0 < rounds by omega)
    have hn : n ≠ 0 := by omega
    have hchunk : ¬ chunk.isEmpty = true := fun h => hne.1 (List.isEmpty_iff.mp h)
    unfold readLoop
    rw [if_neg hn]
    refine traced_ask_bind.mpr (.inr ⟨t, _, ?_, rfl⟩)
    refine traced_liftM_bind.mpr (.inr ⟨(), hlate, ?_⟩)
    refine traced_ask_bind.mpr (.inr ⟨chunk, _, ?_, rfl⟩)
    rw [if_neg hchunk]
    refine traced_bind.mpr (.inr ⟨chunks.flatten, _, [], ?_, .done _, (List.append_nil _).symm⟩)
    exact ih (by omega) hne.2 (by omega)

/-- A body within the bound that a public address serves in time is what the fetch returns. -/
theorem traced_served (timeoutS t : PyFloat) (maxBytes : Int) {url : Str} {parts : Url.SplitResult}
    {ips : List Str} (chunks : List Bytes) (hurl : checkUrl I url = .ok (parts, port)) (hips : ips ≠ [])
    (hpublic : ∀ a ∈ ips, Public P a) (ht : PyFloat.lt (PyFloat.add t timeoutS) t = false)
    (hne : ∀ c ∈ chunks, c ≠ []) (hle : (chunks.flatten.length : Int) ≤ maxBytes) :
    Traced (httpsFetchGuarded I P timeoutS maxBytes url)
      (⟨.getaddrinfo parts.hostname port, .ok ips⟩ ::
        ⟨.get (ips.headD []) port parts.hostname (targetOf parts), .ok 200⟩ ::
        ⟨.monotonic, .ok t⟩ :: served t (maxBytes + 1).toNat chunks)
      (.ok chunks.flatten) := by
  refine traced_liftM_bind.mpr (.inr ⟨_, hurl, ?_⟩)
  refine traced_bind.mpr (.inr ⟨ips, [_], _, ?_, ?_, rfl⟩)
  · refine traced_bind.mpr (.inr ⟨ips, [_], [], traced_handle.mpr ⟨.ok ips, ?_, rfl⟩, ?_, rfl⟩)
    · exact traced_ask.mpr rfl
    · have hempty : raiseIf ips.isEmpty
          (refuse "host % did not resolve" [.str parts.hostname]) = .ok () := by
        rw [raiseIf_eq_ok, List.isEmpty_eq_false_iff]
        exact hips
      refine traced_liftM_bind.mpr (.inr ⟨(), hempty, ?_⟩)
      refine traced_liftM_bind.mpr (.inr ⟨(), ?_, .done _⟩)
      exact each_eq_ok.mpr fun a ha => checkAddress_eq_ok.mpr (hpublic a ha)
  refine traced_bind.mpr (.inr ⟨(200, chunks.flatten), _, [], ?_, ?_, (List.append_nil _).symm⟩)
  · refine traced_handle.mpr ⟨.ok (200, chunks.flatten), ?_, rfl⟩
    refine traced_ask_bind.mpr (.inr ⟨200, _, ?_, rfl⟩)
    refine traced_ask_bind.mpr (.inr ⟨t, _, ?_, rfl⟩)
    refine traced_bind.mpr (.inr ⟨chunks.flatten, _, [], ?_, .done _, (List.append_nil _).symm⟩)
    exact traced_readLoop_served ht le_rfl hne (by omega)
  · have hanswer : checkAnswer url maxBytes (200, chunks.flatten) = .ok chunks.flatten := by
      unfold checkAnswer
      refine bind_eq_ok.mpr ⟨(), raiseIf_eq_ok.mpr rfl, ?_⟩
      refine bind_eq_ok.mpr ⟨(), raiseIf_eq_ok.mpr rfl, ?_⟩
      exact bind_eq_ok.mpr ⟨(), raiseIf_eq_ok.mpr (by simpa using hle), rfl⟩
    rw [hanswer]
    exact .done _

theorem typed_readObject {raw : Bytes} {e : Exc} (h : readObject raw = .error e) : Typed e := by
  unfold readObject at h
  split at h
  · cases h
    rfl
  · cases h
  · cases h
    rfl

theorem readObject_eq_ok {raw : Bytes} {data : Dict} (h : readObject raw = .ok data) :
    loadsBytes raw = .ok (.obj data) := by
  unfold readObject at h
  split at h
  · cases h
  · rename_i data' hdata
    cases h
    exact hdata
  · cases h

/-- A library that knows one address, a public one. -/
def sampleLibrary (text : Str) : Option IpAddress :=
  if text = lit "93.184.216.34" then
    some
      { text, isV6 := false, scopeId := none, isPrivate := false, isLoopback := false
        isLinkLocal := false, isReserved := false, isMulticast := false, isUnspecified := false
        isGlobal := true, isSiteLocal := false }
  else none

theorem sampleLibrary_public : ∀ a ∈ [lit "93.184.216.34"], Public sampleLibrary a := by
  intro a ha
  rw [List.mem_singleton.mp ha]
  exact ⟨_, rfl, rfl⟩

/-- The JSON object without members. -/
def sampleBody : Bytes := [123, 125]

end OpenVC.Fetch
