import OpenVC.Ebsi.NodeClient
import OpenVC.Python.Calling

/-!
# The requests of the client

What one request or probe calls for: its own URL only, and only after a reading of the clock before
the end of the list's life.
-/

namespace OpenVC.Ebsi.NodeClient

open Python Calling

/-! ## Traces -/

/-- A call with its outcome. -/
abbrev Call := Answer Query Query.Answer Exc

/-- A call of a walk with its outcome. -/
abbrev Seen := Answer WalkCall (fun _ => Json) Exc

section Traces

variable {α β : Type} {l : List Call}

theorem traced_run {x r : Except Exc α} : Traced (run x) l r ↔ l = [] ∧ r = x := traced_done

theorem traced_run_bind {x : Except Exc α} {f : α → Client β} {r : Except Exc β} :
    Traced (run x >>= f) l r ↔
      (∃ e, x = .error e ∧ l = [] ∧ r = .error e) ∨ ∃ a, x = .ok a ∧ Traced (f a) l r :=
  traced_liftM_bind

end Traces

/-! ## Requests, cached responses and the clock -/

/-- A request is sent. -/
def Call.sends : Call → Bool
  | ⟨.send _, _⟩ => true
  | _ => false

/-- A request is sent or a cached response is served. -/
def Call.serves : Call → Bool
  | ⟨.send _, _⟩ => true
  | ⟨.cacheGet _, .ok (some _)⟩ => true
  | _ => false

/-- The URL that is requested or looked up in the cache. -/
def Call.url? : Call → Option Str
  | ⟨.send url, _⟩ => some url
  | ⟨.cacheGet url, _⟩ => some url
  | _ => none

/-- The latest reading of the clock, after a call. -/
def Call.reading (latest : Option Int) : Call → Option Int
  | ⟨.clock, .ok (.instant t)⟩ => some t
  | ⟨.clock, _⟩ => none
  | _ => latest

/-- The latest reading of the clock. -/
def latest (l : List Call) : Option Int := l.foldl Call.reading none

/-- Requests are sent and cached responses served only while the clock reads before `expires`. -/
def Timely (expires : Int) (l : List Call) : Prop :=
  ∀ pre c post, l = pre ++ c :: post → Call.serves c = true → ∃ t, latest pre = some t ∧ t < expires

section Timely

variable {expires : Int} {l l' : List Call}

theorem foldl_reading {t : Int} (h : latest l = some t) (x : Option Int) :
    l.foldl Call.reading x = some t := by
  have key : ∀ (l : List Call) (x y : Option Int), l.foldl Call.reading x = l.foldl Call.reading y ∨
      (l.foldl Call.reading x = x ∧ l.foldl Call.reading y = y) := by
    intro l
    induction l with
    | nil => exact fun x y => .inr ⟨rfl, rfl⟩
    | cons c l ih =>
      intro x y
      obtain ⟨q, r⟩ := c
      cases q with
      | clock =>
        cases r with
        | error e => exact .inl rfl
        | ok a =>
          cases a with
          | instant t => exact .inl rfl
          | other => exact .inl rfl
      | _ => exact ih x y
  rcases key l none x with heq | ⟨hnone, -⟩
  · rw [← heq]
    exact h
  · rw [latest, hnone] at h
    cases h

theorem Timely.nil : Timely expires [] := by
  intro pre c post h
  cases pre <;> cases h

theorem Timely.append (h : Timely expires l) (h' : Timely expires l') :
    Timely expires (l ++ l') := by
  intro pre c post heq hc
  rcases List.append_eq_append_iff.mp heq with ⟨mid, rfl, hl'⟩ | ⟨mid, hl, hpost⟩
  · obtain ⟨t, ht, hlt⟩ := h' mid c post hl' hc
    refine ⟨t, ?_, hlt⟩
    rw [latest, List.foldl_append]
    exact foldl_reading ht _
  · cases mid with
    | nil =>
      rw [List.append_nil] at hl
      obtain ⟨t, ht, -⟩ := h' [] c post hpost.symm hc
      cases ht
    | cons c' mid =>
      cases hpost
      exact h pre c mid hl hc

theorem Timely.of_not_serves {c : Call} (h : Call.serves c = false) : Timely expires [c] := by
  intro pre c' post heq hc
  cases pre with
  | nil =>
    cases heq
    rw [h] at hc
    cases hc
  | cons c₁ pre =>
    cases pre <;> cases heq

theorem Timely.cons {c : Call} (hc : Call.serves c = false) (h : Timely expires l) :
    Timely expires (c :: l) := (Timely.of_not_serves hc).append h

theorem Timely.pair {t : Int} (h : t < expires) (c : Call) :
    Timely expires [⟨.clock, .ok (.instant t)⟩, c] := by
  intro pre c' post heq hc
  cases pre with
  | nil =>
    cases heq
    cases hc
  | cons c₁ pre =>
    cases pre with
    | nil =>
      cases heq
      exact ⟨t, rfl, h⟩
    | cons c₂ pre => cases pre <;> cases heq

end Timely

/-- The calls of a read of one URL. -/
structure Reads (expires : Int) (url : Str) (l : List Call) : Prop where
  timely : Timely expires l
  on_url : ∀ c ∈ l, ∀ u, Call.url? c = some u → u = url

section Reads

variable {expires : Int} {url : Str} {l m : List Call}

theorem Reads.nil : Reads expires url [] := 
  ⟨.nil, fun _ hc => (List.not_mem_nil hc).elim⟩

theorem Reads.append (h : Reads expires url l) (h' : Reads expires url m) :
    Reads expires url (l ++ m) := by
  refine ⟨h.timely.append h'.timely, fun c hc => ?_⟩
  rcases List.mem_append.mp hc with hc | hc
  · exact h.on_url c hc
  · exact h'.on_url c hc

theorem Reads.reading {r : Except Exc Reading} : Reads expires url [⟨.clock, r⟩] := by
  refine ⟨.of_not_serves rfl, fun c hc u hu => ?_⟩
  rw [List.mem_singleton.mp hc] at hu
  cases hu

theorem Reads.pair {t : Int} (h : t < expires) {c : Call} (hc : Call.url? c = some url) :
    Reads expires url [⟨.clock, .ok (.instant t)⟩, c] := by
  refine ⟨.pair h c, fun c' hc' u hu => ?_⟩
  rcases List.mem_cons.mp hc' with rfl | hc'
  · cases hu
  · rw [List.mem_singleton.mp hc', hc] at hu
    exact (Option.some.inj hu).symm

end Reads

/-- The calls of a request of one URL, with what it comes to: the clock is read and the URL is
requested, and an answer is that of the last of these calls. -/
inductive Asks (url : Str) : List Call → Except Exc (Int × Bytes) → Prop where
  | nil {e : Exc} : Asks url [] (.error e)
  | answered (status : Int) (body : Bytes) :
      Asks url [⟨.send url, .ok (.answer status body)⟩] (.ok (status, body))
  | refused (status : Int) (body : Bytes) (h : status ≠ 200) :
      Asks url [⟨.send url, .ok (.answer status body)⟩] (.ok (status, []))
  | reading (r : Except Exc Reading) {l : List Call} {x : Except Exc (Int × Bytes)}
      (h : Asks url l x) : Asks url (⟨.clock, r⟩ :: l) x
  | send (r : Except Exc Reply) {l : List Call} {x : Except Exc (Int × Bytes)}
      (h : Asks url l x) : Asks url (⟨.send url, r⟩ :: l) x

namespace EbsiHttpClient

variable {H : EbsiHttpClient} {expires : Int} (hvalid : H.validUntil = some expires)
  {url : Str} {l : List Call}

include hvalid

/-- The lifetime gate reads the clock once, and lets nothing pass from `expires` on. -/
theorem traced_checkValid {r : Except Exc Unit} (h : Traced H.checkValid l r) :
    ∃ x, l = [⟨.clock, x⟩] ∧ (r = .ok () → ∃ t, x = .ok (.instant t) ∧ t < expires) := by
  unfold checkValid at h
  rw [hvalid] at h
  dsimp only at h
  rcases traced_bind.mp h with ⟨e, hnow, rfl⟩ | ⟨now, l₁, l₂, hnow, hrest, rfl⟩
  · obtain ⟨x, hx, -⟩ := traced_handle.mp hnow
    exact ⟨x, traced_ask.mp hx, nofun⟩
  · obtain ⟨x, hx, hreading⟩ := traced_handle.mp hnow
    obtain ⟨rfl, rfl⟩ := traced_run.mp hrest
    refine ⟨x, by rw [List.append_nil]; exact traced_ask.mp hx, fun hok => ?_⟩
    rw [raiseIf_eq_ok, decide_eq_false_iff_not, not_le] at hok
    cases x with
    | error e => cases hreading
    | ok reading =>
      cases reading with
      | other => cases hreading
      | instant t =>
        obtain rfl : now = t := Except.ok.inj hreading
        exact ⟨now, rfl, hok⟩

/-- A block that begins with the lifetime gate. -/
theorem traced_checkValid_bind {α : Type} {f : Unit → Client α} {r : Except Exc α}
    (h : Traced (H.checkValid >>= f) l r) :
    (∃ x e, l = [⟨.clock, x⟩] ∧ r = .error e) ∨
      ∃ t l', t < expires ∧ l = ⟨.clock, .ok (.instant t)⟩ :: l' ∧ Traced (f ()) l' r := by
  rcases traced_bind.mp h with ⟨e, hgate, rfl⟩ | ⟨⟨⟩, l₁, l₂, hgate, hrest, rfl⟩
  · obtain ⟨x, rfl, -⟩ := traced_checkValid hvalid hgate
    exact .inl ⟨x, e, rfl, rfl⟩
  · obtain ⟨x, rfl, hok⟩ := traced_checkValid hvalid hgate
    obtain ⟨t, rfl, ht⟩ := hok rfl
    exact .inr ⟨t, l₂, ht, rfl, hrest⟩

theorem reads_requestLoop {probe : Bool} {made left : Nat} {last : Option (Str × Option Int)}
    {r : Except Exc (Int × Bytes)} (h : Traced (H.requestLoop url probe made left last) l r) :
    Reads expires url l := by
  induction left generalizing last l with
  | zero =>
    obtain ⟨rfl, -⟩ := traced_run.mp h
    exact .nil
  | succ left ih =>
    rw [requestLoop] at h
    rcases traced_checkValid_bind hvalid h with ⟨x, e, rfl, -⟩ | ⟨t, l₁, ht, rfl, hbody⟩
    · exact .reading
    obtain ⟨reply, l₂, l₃, hsend, hrest, rfl⟩ := traced_try_bind.mp hbody
    obtain rfl := traced_ask.mp hsend
    refine (Reads.pair ht rfl).append (m := l₃) ?_
    -- what follows the request makes no call or is the rest of the loop
    rcases reply with e | ⟨status, body⟩ | _ | _ | text
    · dsimp only at hrest
      split at hrest
      · exact ih hrest
      · rw [(traced_run.mp hrest).1]
        exact .nil
    · dsimp only at hrest
      split_ifs at hrest
      · rw [(traced_run.mp hrest).1]
        exact .nil
      · rw [(traced_run.mp hrest).1]
        exact .nil
      · rw [(traced_run.mp hrest).1]
        exact .nil
      · exact ih hrest
      · rw [(traced_run.mp hrest).1]
        exact .nil
    · rw [(traced_run.mp hrest).1]
      exact .nil
    · rw [(traced_run.mp hrest).1]
      exact .nil
    · exact ih hrest

theorem reads_request {probe : Bool} {r : Except Exc (Int × Bytes)}
    (h : Traced (H.request url probe) l r) : Reads expires url l := by
  rcases traced_run_bind.mp h with ⟨e, -, rfl, -⟩ | ⟨⟨⟩, -, hrest⟩
  · exact .nil
  · exact reads_requestLoop hvalid hrest

theorem reads_fetchJson {r : Except Exc Json} (h : Traced (H.fetchJson url) l r) :
    Reads expires url l := by
  have hset : ∀ data x, Reads expires url [⟨.cacheSet url data, x⟩] := by
    intro data x
    refine ⟨.of_not_serves rfl, fun c hc u hu => ?_⟩
    rw [List.mem_singleton.mp hc] at hu
    cases hu
  rcases traced_bind.mp h with ⟨e, hrequest, -⟩ | ⟨answer, l₁, l₂, hrequest, hrest, rfl⟩
  · exact reads_request hvalid hrequest
  · refine (reads_request hvalid hrequest).append ?_
    rcases traced_run_bind.mp hrest with ⟨e, -, rfl, -⟩ | ⟨data, -, hcache⟩
    · exact .nil
    · rcases traced_ask_bind.mp hcache with ⟨e, rfl, -⟩ | ⟨⟨⟩, l', hpure, rfl⟩
      · exact hset data _
      · obtain ⟨rfl, -⟩ := traced_pure.mp hpure
        exact hset data _

theorem reads_getJson {r : Except Exc Json} (h : Traced (H.getJson url) l r) :
    Reads expires url l := by
  rcases traced_checkValid_bind hvalid h with ⟨x, e, rfl, -⟩ | ⟨t, l₁, ht, rfl, hguard⟩
  · exact .reading
  rcases traced_run_bind.mp hguard with ⟨e, -, rfl, -⟩ | ⟨⟨⟩, -, hcache⟩
  · exact .reading
  rcases traced_ask_bind.mp hcache with ⟨e, rfl, -⟩ | ⟨cached, l₂, hrest, rfl⟩
  · exact .pair ht rfl
  refine (Reads.pair ht rfl).append (m := l₂) ?_
  cases cached with
  | some data =>
    rw [(traced_run.mp hrest).1]
    exact .nil
  | none => exact reads_fetchJson hvalid hrest

theorem reads_probe {r : Except Exc (Int × Bytes)} (h : Traced (H.probe url) l r) :
    Reads expires url l := by
  rcases traced_checkValid_bind hvalid h with ⟨x, e, rfl, -⟩ | ⟨t, l₁, ht, rfl, hrequest⟩
  · exact .reading
  · exact Reads.reading.append (m := l₁) (reads_request hvalid hrequest)

theorem asks_requestLoop {probe : Bool} {made left : Nat} {last : Option (Str × Option Int)}
    {r : Except Exc (Int × Bytes)} (h : Traced (H.requestLoop url probe made left last) l r) :
    Asks url l r := by
  induction left generalizing last l with
  | zero =>
    obtain ⟨rfl, rfl⟩ := traced_run.mp h
    exact .nil
  | succ left ih =>
    rw [requestLoop] at h
    rcases traced_checkValid_bind hvalid h with ⟨x, e, rfl, rfl⟩ | ⟨t, l₁, ht, rfl, hbody⟩
    · exact .reading x .nil
    obtain ⟨reply, l₂, l₃, hsend, hrest, rfl⟩ := traced_try_bind.mp hbody
    obtain rfl := traced_ask.mp hsend
    refine .reading (.ok (.instant t)) ?_
    -- an answer of the request is that of its last attempt
    have hraised : ∀ {e : Exc}, Traced (run (.error e)) l₃ r →
        Asks url ([⟨.send url, reply⟩] ++ l₃) r := by
      intro e hrun
      obtain ⟨rfl, rfl⟩ := traced_run.mp hrun
      exact .send reply .nil
    rcases reply with e | ⟨status, body⟩ | _ | _ | text
    · dsimp only at hrest
      split at hrest
      · exact .send _ (ih hrest)
      · exact hraised hrest
    · dsimp only at hrest
      split_ifs at hrest with hstatus hprobe
      · obtain ⟨rfl, rfl⟩ := traced_run.mp hrest
        exact .answered status body
      · obtain ⟨rfl, rfl⟩ := traced_run.mp hrest
        exact .refused status body hstatus
      · exact hraised hrest
      · exact .send _ (ih hrest)
      · exact hraised hrest
    · exact hraised hrest
    · exact hraised hrest
    · exact .send _ (ih hrest)

theorem asks_probe {r : Except Exc (Int × Bytes)} (h : Traced (H.probe url) l r) :
    Asks url l r := by
  rcases traced_checkValid_bind hvalid h with ⟨x, e, rfl, rfl⟩ | ⟨t, l₁, ht, rfl, hrequest⟩
  · exact .reading x .nil
  refine .reading (.ok (.instant t)) ?_
  rcases traced_run_bind.mp hrequest with ⟨e, -, rfl, rfl⟩ | ⟨⟨⟩, -, hloop⟩
  · exact .nil
  · exact asks_requestLoop hvalid hloop

end EbsiHttpClient

end OpenVC.Ebsi.NodeClient
