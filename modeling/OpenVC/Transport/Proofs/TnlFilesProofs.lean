import OpenVC.Ebsi.Proofs.HttpBodyProofs
import OpenVC.Transport.Proofs.HttpReadsProofs

/-!
# The documents of the Trusted Nodes List

What `get_tnl_files` returns and what it does on the network: all four documents in order, each
within its cap, or none; and requests to their URLs only, within the shared budget.
-/

namespace OpenVC.Ebsi.Http

open Python Calling

variable {σ : Type} {H : HttpClient σ} {url : Str} {R : HttpClient.Reader} {l m : List Event}

/-! ## The size of a body -/

theorem length_takeChunk {cap : Int} {wire : Nat} {decoder d : Option σ} {body chunk b : Bytes}
    {Z : Decompressor σ} (hwire : decoder = none → body.length = wire)
    (hcap : ((wire + chunk.length : Nat) : Int) ≤ cap)
    (h : takeChunk Z url cap decoder body chunk = .ok (d, b)) :
    (b.length : Int) ≤ cap ∧ (d = none → b.length = wire + chunk.length) := by
  cases decoder with
  | none =>
    simp only [takeChunk, bind_eq_ok, extend_eq_ok, pure_eq_ok, Prod.mk.injEq] at h
    obtain ⟨_, ⟨-, rfl⟩, rfl, rfl⟩ := h
    have := hwire rfl
    rw [List.length_append]
    omega
  | some decoder =>
    simp only [takeChunk, inflate, bind_eq_ok, raiseIf_eq_ok, orRaise_eq_ok, pure_eq_ok,
      extend_eq_ok, decide_eq_false_iff_not, not_lt, Prod.mk.injEq] at h
    obtain ⟨⟨e, _⟩, ⟨⟨⟩, -, ⟨piece, d'⟩, -, ⟨⟩, hroom, _, ⟨-, rfl⟩, ⟨⟩, -, rfl, rfl⟩, rfl, rfl⟩ := h
    refine ⟨?_, by rintro ⟨⟩⟩
    dsimp only at hroom ⊢
    rw [List.length_append]
    omega

theorem length_readChunks {cap : Int} {deadline : PyFloat} {chunks : List Chunk} {wire : Nat}
    {decoder d : Option σ} {body b : Bytes} {Z : Decompressor σ}
    (hwire : decoder = none → body.length = wire) (hbody : (body.length : Int) ≤ max cap 0)
    (h : readChunks Z url cap deadline decoder wire body chunks = .ok (d, b)) :
    (b.length : Int) ≤ max cap 0 := by
  induction chunks generalizing decoder wire body with
  | nil =>
    cases h
    exact hbody
  | cons c chunks ih =>
    simp only [readChunks, bind_eq_ok, raiseIf_eq_ok, decide_eq_false_iff_not, not_lt] at h
    obtain ⟨⟨⟩, -, ⟨⟩, hcap, ⟨d', b'⟩, htake, hrest⟩ := h
    obtain ⟨hsize, hnone⟩ := length_takeChunk hwire hcap htake
    exact ih hnone (hsize.trans (le_max_left _ _)) hrest

theorem length_readBody {cap : Int} {until_ : Option PyFloat} {resp : Reply} {body : Bytes}
    (h : H.readBody url cap until_ resp = .ok body) : (body.length : Int) ≤ max cap 0 := by
  have hread : readVerbatim H.interpreter H.zlib H.timeoutS resp.toResponse url cap until_
      resp.started = .ok body := by
    unfold HttpClient.readBody at h
    cases hread : readVerbatim H.interpreter H.zlib H.timeoutS resp.toResponse url cap until_
        resp.started with
    | error e =>
      rw [hread] at h
      cases h
    | ok b =>
      rw [hread] at h
      cases h
      rfl
  simp only [readVerbatim, bind_eq_ok, pure_eq_ok] at hread
  obtain ⟨decoder, -, -, -, ⟨d, b'⟩, hchunks, -, -, -, -, rfl⟩ := hread
  have hstart : usedDecoder resp.toResponse decoder = none → ([] : Bytes).length = 0 := fun _ => rfl
  exact length_readChunks hstart (le_max_right _ _) hchunks

/-! ## The answer that a read ends on -/

/-- What a read makes of the answer that it ends on. -/
def Ends (H : HttpClient σ) (url : Str) (R : HttpClient.Reader) (resp : Reply) (body : Bytes) :
    Prop :=
  (resp.status = 200 ∧ H.readBody url R.cap R.until_ resp = .ok body) ∨
    (resp.status ≠ 200 ∧ body = [] ∧
      (resp.status = 304 ∧ R.acceptNotModified = true ∨ R.probe = true))

theorem readAnswer_eq_ok {resp : Reply} {answer : Reply × Bytes × Option Str}
    (h : H.readAnswer url R resp = .ok answer) : answer.1 = resp ∧
      (resp.status = 200 → H.readBody url R.cap R.until_ resp = .ok answer.2.1) := by
  unfold HttpClient.readAnswer at h
  split at h
  · obtain ⟨body, hbody, hanswer⟩ := bind_eq_ok.mp h
    cases hanswer
    exact ⟨rfl, fun _ => hbody⟩
  rename_i hstatus
  split at h
  · obtain ⟨problem, -, hanswer⟩ := bind_eq_ok.mp h
    cases hanswer
    exact ⟨rfl, fun hok => absurd hok hstatus⟩
  · cases h
    exact ⟨rfl, fun hok => absurd hok hstatus⟩

theorem ends_of_verdict {opened : Except Failure Reply} {resp : Reply} {body : Bytes}
    (h : H.verdict url R (opened.bind (H.readAnswer url R)) = .stop (.ok (resp, body))) :
    opened = .ok resp ∧ Ends H url R resp body := by
  cases hout : opened.bind (H.readAnswer url R) with
  | error e =>
    rw [hout] at h
    unfold HttpClient.verdict at h
    dsimp only at h
    split at h
    · cases h
    split at h
    · cases h
    split at h
    · cases h
    · cases h
  | ok answer =>
    obtain ⟨opened', hopened, hread⟩ := bind_eq_ok.mp hout
    obtain ⟨hsame, hbody⟩ := readAnswer_eq_ok hread
    obtain ⟨_, read, problem⟩ := answer
    obtain rfl := hsame
    rw [hout] at h
    unfold HttpClient.verdict HttpClient.verdictOf at h
    dsimp only at h
    split at h
    · rename_i hok
      cases h
      exact ⟨hopened, .inl ⟨hok, hbody hok⟩⟩
    rename_i hstatus
    split at h
    · rename_i hmodified
      cases h
      exact ⟨hopened, .inr ⟨hstatus, rfl, .inl hmodified⟩⟩
    split at h
    · rename_i hprobe
      cases h
      exact ⟨hopened, .inr ⟨hstatus, rfl, .inr hprobe⟩⟩
    split at h
    · cases h
    split at h
    · cases h
    · cases h

/-- The request of an attempt carries the headers of its reader, besides those of the connection. -/
theorem carries_of_prepare {parts : Url.SplitResult} (hadm : Admitted H url parts)
    {tried tried' : List Str} {headers : List (Str × Str)} {request : Request}
    (h : Traced (H.prepare url tried headers) l (.ok (request, tried'))) {header : Str × Str}
    (hmem : header ∈ headers) (hhost : header.1 ≠ lit "Host")
    (hconnection : header.1 ≠ lit "Connection") : header ∈ request.headers := by
  rcases hadm.traced_prepare h with ⟨-, -, hr⟩ | ⟨-, -, hr⟩
  · cases hr
    exact hmem
  · obtain ⟨_, _, _, -, -, -, -, rfl, -⟩ := hr _ _ rfl
    refine List.mem_append_left _ (List.mem_filter.mpr ⟨hmem, ?_⟩)
    rw [Bool.and_eq_true, bne_iff_ne, bne_iff_ne]
    exact ⟨hhost, hconnection⟩

/-- A run that returns ends with the request whose answer it returns. -/
theorem Run.ends {made left : Nat} {tried : List Str} {last : Option Failure}
    {r : Except Failure (Reply × Bytes)} (h : Run H url R made left tried last l r)
    {resp : Reply} {body : Bytes} (hr : r = .ok (resp, body)) :
    (∃ front request, l = front ++ [⟨.stream request, .ok resp⟩] ∧
      ∃ before tried tried', Traced (H.prepare url tried R.headers) before (.ok (request, tried'))) ∧
    Ends H url R resp body := by
  induction h with
  | exhausted tried last => cases hr
  | refused hgate => cases hr
  | awoken hgate htry hverdict hsleep => cases hr
  | @stopped left tried tried' last l m outcome r hgate htry hverdict =>
    subst hr
    rcases htry.cases with ⟨e, -, rfl, -⟩ | ⟨request, m', x, hprepare, rfl, rfl⟩
    · have hends : (.error e : Except Failure Reply) = .ok resp ∧ Ends H url R resp body :=
        ends_of_verdict hverdict
      cases hends.1
    · obtain ⟨rfl, hends⟩ := ends_of_verdict hverdict
      exact ⟨⟨l ++ m', request, (List.append_assoc _ _ _).symm, m', tried, tried', hprepare⟩, hends⟩
  | @retried left tried tried' last l m n k outcome failed asked r hgate htry hverdict hsleep hrest
      ih =>
    obtain ⟨⟨front, request, rfl, hprepare⟩, hends⟩ := ih hr
    refine ⟨⟨l ++ (m ++ (n ++ front)), request, ?_, hprepare⟩, hends⟩
    simp only [List.append_assoc]

/-- What `get_bytes` returns is what its last request was answered: the body of a 200, or nothing
for a 304 to a validator that was sent. -/
theorem traced_getBytes_ok {maxBytes etag deadlineS : Json} {response : HttpClient.BytesResponse}
    (h : Traced (H.getBytes url maxBytes etag deadlineS) l (.ok response)) :
    ∃ front request resp cap sent until_, l = front ++ [⟨.stream request, .ok resp⟩] ∧
      H.bytesCap maxBytes = .ok cap ∧ HttpClient.optional HttpClient.checkedEtag etag = .ok sent ∧
      Budget deadlineS l until_ ∧
      ((resp.status = 200 ∧ ∃ body, H.readBody url cap until_ resp = .ok body ∧
        response = ⟨some body, HttpClient.plausibleEtag resp.etag⟩) ∨
      (resp.status = 304 ∧ ∃ tag, sent = some tag ∧
        (lit "If-None-Match", tag) ∈ request.headers ∧ response = ⟨none, some tag⟩)) := by
  rcases traced_bind.mp h with ⟨e, -, hr⟩ | ⟨⟨⟩, l₁, l₂, hcheck, hgo, rfl⟩
  · cases hr
  rcases traced_liftM_bind.mp hgo with ⟨e, -, -, hr⟩ | ⟨cap, hcap, hgo₁⟩
  · cases hr
  rcases traced_liftM_bind.mp hgo₁ with ⟨e, -, -, hr⟩ | ⟨sent, hsent, hgo₂⟩
  · cases hr
  rcases traced_bind.mp hgo₂ with ⟨e, -, hr⟩ | ⟨until_, l₃, l₄, hbudget, hgo₃, rfl⟩
  · cases hr
  rcases traced_bind.mp hgo₃ with ⟨e, -, hr⟩ | ⟨⟨resp, body⟩, l₅, l₆, hrequest, hdone, rfl⟩
  · cases hr
  obtain ⟨rfl, hresponse⟩ := traced_pure.mp hdone
  rcases traced_liftM_bind.mp hrequest with ⟨e, -, -, hr⟩ | ⟨⟨⟩, hguard, hloop⟩
  · cases hr
  obtain ⟨parts, hadm⟩ := exists_admitted hguard
  obtain ⟨⟨front, request, rfl, _, _, _, hprepare⟩, hends⟩ := (run_of_traced hloop).ends rfl
  refine ⟨l₁ ++ (l₃ ++ front), request, resp, cap, sent, until_,
    by simp only [List.append_assoc, List.append_nil], hcap, hsent,
    (((traced_budget hbudget).2 until_ rfl).append _).prepend ?_, ?_⟩
  · exact fun c hc => (aside_checkValid hcheck c hc).2
  rcases hends with ⟨hok, hread⟩ | ⟨-, -, ⟨hmodified, haccept⟩ | hprobe⟩
  · refine .inl ⟨hok, body, hread, ?_⟩
    dsimp only at hresponse
    rw [if_neg (by omega)] at hresponse
    exact Except.ok.inj hresponse
  · obtain ⟨tag, rfl⟩ := Option.isSome_iff_exists.mp haccept
    refine .inr ⟨hmodified, tag, rfl, ?_, ?_⟩
    · have hname : lit "If-None-Match" ≠ lit "Host" ∧ lit "If-None-Match" ≠ lit "Connection" := by
        decide
      refine carries_of_prepare hadm hprepare ?_ hname.1 hname.2
      exact List.mem_append_right _ List.mem_cons_self
    · dsimp only at hresponse
      rw [if_pos hmodified] at hresponse
      exact Except.ok.inj hresponse
  · cases hprobe

/-! ## One document -/

/-- What is done for one document, and what comes of it. -/
structure DocumentFetch where
  file : Str × Int
  calls : List Event
  outcome : Except Failure HttpClient.BytesResponse

/-- The budget of a document: at its first reading of the clock something is left of the shared
budget, which ends at `stop`, and that much is its own from its next reading on. -/
def DocumentFetch.EndsBy (f : DocumentFetch) (stop until_ : PyFloat) : Prop :=
  ∃ now opened rest, f.calls = ⟨.monotonic, .ok now⟩ :: rest ∧
    PyFloat.le (PyFloat.sub stop now) (.fin 0) = false ∧
    rest.find? (isMonotonic ·.1) = some ⟨.monotonic, .ok opened⟩ ∧
    until_ = PyFloat.add opened (PyFloat.sub stop now)

/-- What an answer hands over: the body of a 200 within the cap, or, for a 304 to the validator that
the caller supplied and the request carried, that validator. -/
def HandsOver (H : HttpClient σ) (etags : Dict) (file : Str × Int) (until_ : PyFloat)
    (request : Request) (resp : Reply) (response : HttpClient.BytesResponse) : Prop :=
  (resp.status = 200 ∧ ∃ body,
    H.readBody (HttpClient.tnlUrl file.1) (min file.2 H.maxBytes) (some until_) resp = .ok body ∧
    (body.length : Int) ≤ file.2 ∧
    response = ⟨some body, HttpClient.plausibleEtag resp.etag⟩) ∨
  (resp.status = 304 ∧ ∃ tag, (file.1, .str tag) ∈ etags ∧ HttpClient.isEtag tag = true ∧
    (lit "If-None-Match", tag) ∈ request.headers ∧ response = ⟨none, some tag⟩)

/-- What holds of a document: each of its requests is for its URL and goes out right after a reading
of the clock within its budget, and what is handed over is what the last of them was answered. -/
structure DocumentFetch.Valid (H : HttpClient σ) (etags : Dict) (stop : PyFloat)
    (f : DocumentFetch) : Prop where
  requests : ∀ pre request x post, f.calls = pre ++ ⟨.stream request, x⟩ :: post →
    Sent H (HttpClient.tnlUrl f.file.1) pre request ∧ ∃ until_ now, f.EndsBy stop until_ ∧
      ⟨.monotonic, .ok now⟩ ∈ since pre ∧ PyFloat.le (PyFloat.sub until_ now) (.fin 0) = false
  answered : ∀ response, f.outcome = .ok response → ∃ front request resp until_,
    f.calls = front ++ [⟨.stream request, .ok resp⟩] ∧ f.EndsBy stop until_ ∧
      HandsOver H etags f.file until_ request resp response

theorem aside_monotonic (x : Except Failure PyFloat) :
    ∀ c ∈ ([⟨.monotonic, x⟩] : List Event), IsAside c.1 := by
  simp [IsAside, isAct, isLookup]

theorem bytesCap_int {n cap : Int} (h : H.bytesCap (.int n) = .ok cap) : cap = min n H.maxBytes := by
  unfold HttpClient.bytesCap HttpClient.checkedCap at h
  dsimp only at h
  split at h
  · cases h
  · exact (Except.ok.inj h).symm

theorem lookup_of_optional {sent : Option Str} {tag : Str}
    (h : HttpClient.optional HttpClient.checkedEtag ((sent.map Json.str).getD .null) =
      .ok (some tag)) : sent = some tag := by
  cases sent with
  | none => cases h
  | some text =>
    change (HttpClient.checkedEtag (.str text)).map some = .ok (some tag) at h
    unfold HttpClient.checkedEtag at h
    dsimp only at h
    split at h
    · cases h
      rfl
    · cases h

theorem mem_of_suppliedEtags {etags : Dict} {supplied : List (Str × Str)}
    (h : HttpClient.suppliedEtags etags = .ok supplied) {name tag : Str}
    (hlookup : supplied.lookup name = some tag) :
    (name, .str tag) ∈ etags ∧ HttpClient.isEtag tag = true := by
  obtain ⟨before, after, rfl, -⟩ := List.lookup_eq_some_iff.mp hlookup
  obtain ⟨⟨key, value⟩, hmem, hentry⟩ := exists_of_mem_right (collect_eq_ok.mp h)
    (List.mem_append_right before List.mem_cons_self)
  simp only [bind_eq_ok, raiseIf_eq_ok, pure_eq_ok, Prod.mk.injEq] at hentry
  obtain ⟨⟨⟩, -, text, htext, rfl, rfl⟩ := hentry
  unfold HttpClient.checkedEtag at htext
  split at htext
  · split at htext
    · rename_i hetag
      cases htext
      exact ⟨hmem, hetag⟩
    · cases htext
  · cases htext

/-- The budget that a document hands to `get_bytes`. -/
theorem Budget.float {seconds : PyFloat} {until_ : Option PyFloat}
    (h : Budget (.float seconds) l until_) : ∃ opened,
      l.find? (isMonotonic ·.1) = some ⟨.monotonic, .ok opened⟩ ∧
      until_ = some (PyFloat.add opened seconds) := by
  rcases h with ⟨hnull, -⟩ | ⟨opened, seconds', hfind, hchecked, rfl⟩
  · cases hnull
  simp only [HttpClient.checkedDeadline, bind_eq_ok, orRaise_eq_ok, raiseIf_eq_ok,
    pure_eq_ok] at hchecked
  obtain ⟨_, -, ⟨⟩, -, rfl⟩ := hchecked
  exact ⟨opened, hfind, rfl⟩

/-- The calls of one document. -/
theorem traced_fetchFile {etags : Dict} {supplied : List (Str × Str)} {stop : PyFloat}
    {file : Str × Int} (hsupplied : HttpClient.suppliedEtags etags = .ok supplied)
    (hcap : 0 ≤ file.2) {r : Except Failure HttpClient.BytesResponse}
    (h : Traced (H.fetchFile supplied stop file) l r) :
    DocumentFetch.Valid H etags stop ⟨file, l, r⟩ := by
  -- before anything is requested
  have hclock : ∀ (x : Except Failure PyFloat) (e : Failure),
      DocumentFetch.Valid H etags stop ⟨file, [⟨.monotonic, x⟩], .error e⟩ := by
    refine fun x e => ⟨fun pre request y post hl => ?_, by rintro _ ⟨⟩⟩
    rcases pre with _ | ⟨c, _ | ⟨c', pre⟩⟩ <;> cases hl
  rcases traced_ask_bind.mp h with ⟨e, rfl, rfl⟩ | ⟨now, m, hbudget, rfl⟩
  · exact hclock _ e
  rcases traced_liftM_bind.mp hbudget with ⟨e, -, rfl, rfl⟩ | ⟨⟨⟩, hleft, hget⟩
  · exact hclock _ e
  have hends : ∀ {until_}, Budget (.float (PyFloat.sub stop now)) m until_ →
      ∃ end_, until_ = some end_ ∧
        (⟨file, ⟨.monotonic, .ok now⟩ :: m, r⟩ : DocumentFetch).EndsBy stop end_ := by
    intro until_ hbudget
    obtain ⟨opened, hfind, rfl⟩ := hbudget.float
    exact ⟨_, rfl, now, opened, m, rfl, raiseIf_eq_ok.mp hleft, hfind, rfl⟩
  refine ⟨fun pre request x post hl => ?_, fun response hr => ?_⟩
  · cases pre with
    | nil => cases hl
    | cons c pre =>
      injection hl with hc hm
      subst hc
      have hquiet : Quiet [⟨.monotonic, .ok now⟩] := quiet_nil.append (aside_monotonic _)
      rcases (Read.bytes hget).allowed hquiet with hnone | ⟨R, hallowed, hbudget⟩
      · have hact := hnone ⟨.stream request, x⟩ (hm ▸ List.mem_append_right _ List.mem_cons_self)
        cases hact
      · obtain ⟨until_, hR, hby⟩ := hends hbudget
        rw [hm] at hallowed
        obtain ⟨hsent, -, hfresh⟩ := hallowed.at.1 request rfl
        obtain ⟨now', hnow', hin⟩ := hfresh until_ hR
        exact ⟨hsent, until_, now', hby, hnow', hin⟩
  · change r = .ok response at hr
    subst hr
    obtain ⟨front, request, resp, cap, sent, until_, rfl, hmin, hsent, hbudget, hanswer⟩ :=
      traced_getBytes_ok hget
    obtain ⟨end_, rfl, hby⟩ := hends hbudget
    obtain rfl := bytesCap_int hmin
    refine ⟨⟨.monotonic, .ok now⟩ :: front, request, resp, end_, rfl, hby, ?_⟩
    rcases hanswer with ⟨hok, body, hread, hresponse⟩ | ⟨hmodified, tag, rfl, hheader, hresponse⟩
    · have hlength := length_readBody hread
      refine .inl ⟨hok, body, hread, ?_, hresponse⟩
      change (body.length : Int) ≤ file.2
      omega
    · obtain ⟨hmem, hetag⟩ := mem_of_suppliedEtags hsupplied (lookup_of_optional hsent)
      exact .inr ⟨hmodified, tag, hmem, hetag, hheader, hresponse⟩

/-! ## The loop over the files -/

/-- The exception names the document. -/
def Names (name : Str) (e : Failure) : Prop :=
  ∃ text args, e.text = "%: " ++ text ∧ e.args = .str name :: args

/-- How the documents end: all are handed over in their order, or one fails, which the exception
names, and none is. -/
inductive Ended : List (Str × Int) → List DocumentFetch →
    Except Failure (List (Str × HttpClient.BytesResponse)) → Prop where
  | done : Ended [] [] (.ok [])
  | failed {files : List (Str × Int)} {f : DocumentFetch} {e e' : Failure}
      (houtcome : f.outcome = .error e') (hnames : e.cls.isa .ebsiError = true → Names f.file.1 e) :
      Ended (f.file :: files) [f] (.error e)
  | handed {files : List (Str × Int)} {f : DocumentFetch} {fetches : List DocumentFetch}
      {response : HttpClient.BytesResponse}
      {r : Except Failure (List (Str × HttpClient.BytesResponse))}
      (houtcome : f.outcome = .ok response) (h : Ended files fetches r) :
      Ended (f.file :: files) (f :: fetches) (r.map ((f.file.1, response) :: ·))

theorem names_of_nameFile {file : Str × Int} {r : Except Failure HttpClient.BytesResponse}
    {e : Failure} (h : HttpClient.nameFile file.1 r = .error e) (he : e.cls.isa .ebsiError = true) :
    Names file.1 e := by
  cases r with
  | ok response => cases h
  | error e' =>
    unfold HttpClient.nameFile at h
    dsimp only at h
    split at h
    · cases h
      exact ⟨_, _, rfl, rfl⟩
    · rename_i hnot
      cases h
      exact absurd he hnot

theorem traced_fetchFiles {etags : Dict} {supplied : List (Str × Str)} {stop : PyFloat}
    {files : List (Str × Int)} (hsupplied : HttpClient.suppliedEtags etags = .ok supplied)
    (hcaps : ∀ file ∈ files, 0 ≤ file.2)
    {r : Except Failure (List (Str × HttpClient.BytesResponse))}
    (h : Traced (H.fetchFiles supplied stop files) l r) :
    ∃ fetches, l = fetches.flatMap DocumentFetch.calls ∧
      (∀ f ∈ fetches, f.Valid H etags stop) ∧ Ended files fetches r := by
  induction files generalizing l r with
  | nil =>
    obtain ⟨rfl, rfl⟩ := traced_pure.mp h
    exact ⟨[], rfl, List.forall_mem_nil _, .done⟩
  | cons file files ih =>
    rw [List.forall_mem_cons] at hcaps
    rcases traced_bind.mp h with ⟨e, hone, rfl⟩ | ⟨response, l₁, l₂, hone, hrest, rfl⟩
    · obtain ⟨x, hx, hnamed⟩ := traced_handle.mp hone
      have hvalid := traced_fetchFile hsupplied hcaps.1 hx
      cases x with
      | ok response => cases hnamed
      | error e' =>
        refine ⟨[⟨file, l, .error e'⟩], by simp, List.forall_mem_singleton.mpr hvalid, ?_⟩
        exact .failed (f := ⟨file, l, .error e'⟩) rfl (names_of_nameFile hnamed.symm)
    obtain ⟨x, hx, hok⟩ := traced_handle.mp hone
    have hvalid := traced_fetchFile hsupplied hcaps.1 hx
    obtain rfl : x = .ok response := by
      cases x with
      | ok response' => exact hok.symm
      | error e => cases hok
    have hgoes : ∀ {m : List Event} {y : Except Failure (List (Str × HttpClient.BytesResponse))},
        Traced (H.fetchFiles supplied stop files) m y → ∃ fetches,
          l₁ ++ m = fetches.flatMap DocumentFetch.calls ∧
          (∀ f ∈ fetches, f.Valid H etags stop) ∧
          Ended (file :: files) fetches (y.map ((file.1, response) :: ·)) := by
      intro m y hm
      obtain ⟨fetches, rfl, hall, hended⟩ := ih hcaps.2 hm
      exact ⟨⟨file, l₁, .ok response⟩ :: fetches, rfl, List.forall_mem_cons.mpr ⟨hvalid, hall⟩,
        .handed (f := ⟨file, l₁, .ok response⟩) rfl hended⟩
    rcases traced_bind.mp hrest with ⟨e, hfail, rfl⟩ | ⟨rest, l₃, l₄, hgo, hdone, rfl⟩
    · exact hgoes hfail
    · obtain ⟨rfl, rfl⟩ := traced_pure.mp hdone
      rw [List.append_nil]
      exact hgoes hgo

theorem Ended.prefix {files : List (Str × Int)} {fetches : List DocumentFetch}
    {r : Except Failure (List (Str × HttpClient.BytesResponse))} (h : Ended files fetches r) :
    fetches.map DocumentFetch.file <+: files := by
  induction h with
  | done => exact List.prefix_rfl
  | failed _ _ => exact List.prefix_cons_inj _ |>.mpr List.nil_prefix
  | handed _ _ ih => exact List.prefix_cons_inj _ |>.mpr ih

/-- The documents that are returned are all of them, with what was handed over for each. -/
theorem Ended.returned {files : List (Str × Int)} {fetches : List DocumentFetch}
    {r : Except Failure (List (Str × HttpClient.BytesResponse))} (h : Ended files fetches r)
    {entries : List (Str × HttpClient.BytesResponse)} (hr : r = .ok entries) :
    fetches.map DocumentFetch.file = files ∧ List.Forall₂
      (fun f entry => entry.1 = f.file.1 ∧ f.outcome = .ok entry.2) fetches entries := by
  induction h generalizing entries with
  | done =>
    cases hr
    exact ⟨rfl, .nil⟩
  | failed _ _ => cases hr
  | @handed files f fetches response r houtcome _ ih =>
    cases r with
    | error e => cases hr
    | ok rest =>
      cases hr
      obtain ⟨hfiles, hall⟩ := ih rfl
      exact ⟨congrArg (f.file :: ·) hfiles, .cons ⟨rfl, houtcome⟩ hall⟩

/-- A run that fails does so at its last document, which the exception names. -/
theorem Ended.raised {files : List (Str × Int)} {fetches : List DocumentFetch}
    {r : Except Failure (List (Str × HttpClient.BytesResponse))} (h : Ended files fetches r)
    {e : Failure} (hr : r = .error e) : ∃ done f e', fetches = done ++ [f] ∧
      (∀ d ∈ done, ∃ response, d.outcome = .ok response) ∧ f.outcome = .error e' ∧
      (e.cls.isa .ebsiError = true → Names f.file.1 e) := by
  induction h with
  | done => cases hr
  | @failed files f e₁ e' houtcome hnames =>
    cases hr
    exact ⟨[], f, e', rfl, List.forall_mem_nil _, houtcome, hnames⟩
  | @handed files f fetches response r houtcome _ ih =>
    cases r with
    | ok rest => cases hr
    | error e₁ =>
      cases hr
      obtain ⟨done, last, e', rfl, hdone, hlast, hnames⟩ := ih rfl
      exact ⟨f :: done, last, e', rfl, List.forall_mem_cons.mpr ⟨⟨response, houtcome⟩, hdone⟩,
        hlast, hnames⟩

/-- `get_tnl_files` is refused before any document, or fetches its documents in order, with a client
that allows their host alone: each request is for the document at hand and goes out within what the
shared budget leaves it; all four are returned, each as the answer to its last request hands it over,
or none; and an exception names the document it came from. -/
theorem getTnlFiles_sound {etags : Dict} {deadlineS : Json}
    {r : Except Failure (List (Str × HttpClient.BytesResponse))}
    (h : Traced (H.getTnlFiles etags deadlineS) l r) :
    ((l = [] ∨ ∃ x, l = [⟨.monotonic, x⟩]) ∧ ∃ e, r = .error e) ∨
    ∃ start seconds fetches, l = ⟨.monotonic, .ok start⟩ :: fetches.flatMap DocumentFetch.calls ∧
      HttpClient.checkedDeadline deadlineS = .ok seconds ∧
      (∀ host ∈ H.allowed, host = HttpClient.tnlHost) ∧
      fetches.map DocumentFetch.file <+: HttpClient.tnlFiles ∧
      (∀ f ∈ fetches, f.Valid H etags (PyFloat.add start seconds)) ∧
      (∀ files, r = .ok files → fetches.map DocumentFetch.file = HttpClient.tnlFiles ∧
        List.Forall₂ (fun f entry => entry.1 = f.file.1 ∧ f.outcome = .ok entry.2) fetches files) ∧
      ∀ e, r = .error e → ∃ done f e', fetches = done ++ [f] ∧
        (∀ d ∈ done, ∃ response, d.outcome = .ok response) ∧ f.outcome = .error e' ∧
        (e.cls.isa .ebsiError = true → Names f.file.1 e) := by
  rcases traced_liftM_bind.mp h with ⟨e, -, rfl, rfl⟩ | ⟨⟨⟩, halone, hetags⟩
  · exact .inl ⟨.inl rfl, e, rfl⟩
  rcases traced_liftM_bind.mp hetags with ⟨e, -, rfl, rfl⟩ | ⟨supplied, hsupplied, hclock⟩
  · exact .inl ⟨.inl rfl, e, rfl⟩
  rcases traced_ask_bind.mp hclock with ⟨e, rfl, rfl⟩ | ⟨start, m, hdeadline, rfl⟩
  · exact .inl ⟨.inr ⟨_, rfl⟩, e, rfl⟩
  rcases traced_liftM_bind.mp hdeadline with ⟨e, -, rfl, rfl⟩ | ⟨seconds, hseconds, hloop⟩
  · exact .inl ⟨.inr ⟨_, rfl⟩, e, rfl⟩
  have hhosts : ∀ host ∈ H.allowed, host = HttpClient.tnlHost := by
    have hpassed := raiseIf_eq_ok.mp halone
    rw [Bool.not_eq_false', Bool.and_eq_true] at hpassed
    intro host hhost
    exact beq_iff_eq.mp (List.all_eq_true.mp hpassed.2 host hhost)
  have hcaps : ∀ file ∈ HttpClient.tnlFiles, 0 ≤ file.2 := by decide
  obtain ⟨fetches, rfl, hvalid, hended⟩ := traced_fetchFiles hsupplied hcaps hloop
  exact .inr ⟨start, seconds, fetches, rfl, hseconds, hhosts, hended.prefix, hvalid,
    fun files hr => hended.returned hr, fun e hr => hended.raised hr⟩

/-- A client of the host of the list, without an address guard. -/
def tnlClient : HttpClient Unit :=
  { sampleClient with allowed := [HttpClient.tnlHost], guarded := false, validUntil := none }

/-- Each document is the empty JSON object. -/
def tnlAnswer : (q : Query) → Except Failure q.Answer
  | .stream _ => .ok
      { contentEncoding := none, contentLength := none, isStreamConsumed := false
        chunks := [⟨.fin 0, [123, 125]⟩], status := 200, contentType := none, etag := none
        retryAfter := none, started := .fin 0 }
  | q => sampleAnswer q

theorem getTnlFiles_sound_sample : ∃ files fetches,
    (tnlClient.getTnlFiles [] (.int 30)).eval tnlAnswer = .ok files ∧
    fetches.map DocumentFetch.file = HttpClient.tnlFiles ∧ List.Forall₂
      (fun f entry => entry.1 = f.file.1 ∧ f.outcome = .ok entry.2) fetches files := by
  obtain ⟨files, hfiles⟩ : ∃ files,
      (tnlClient.getTnlFiles [] (.int 30)).eval tnlAnswer = .ok files :=
    returned_iff.mp (by decide +kernel)
  rcases getTnlFiles_sound (traced_eval tnlAnswer (tnlClient.getTnlFiles [] (.int 30))) with
    ⟨-, e, he⟩ | ⟨start, seconds, fetches, -, -, -, -, -, hreturned, -⟩
  · rw [hfiles] at he
    cases he
  · exact ⟨files, fetches, hfiles, hreturned files hfiles⟩

end OpenVC.Ebsi.Http
