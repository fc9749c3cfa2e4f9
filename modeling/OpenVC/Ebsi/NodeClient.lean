import OpenVC.Ebsi.Versioning
import OpenVC.JsonInput
import OpenVC.Python.Calling

/-!
# The client of the verified nodes (`openvc_ebsi.node_client`)

A walk runs on one node from start to end, and runs again on the next node when that node fails. The
clock, the policy, the transport and the two caches are callables, as is what a walk does besides
its session; the requests and the cache are those of `openvc_ebsi.http`.
-/

namespace OpenVC.Ebsi.NodeClient

open Python Did

/-! ## Failures and their classification -/

/-- `NodeFailureKind`. -/
inductive FailureKind where
  | unreachable
  | unavailable
  | forbidden
  | redirect
  | limits
  | unhealthy
  deriving DecidableEq

/-- The text of a kind. -/
def FailureKind.text : FailureKind → Str
  | unreachable => "unreachable"
  | unavailable => "unavailable"
  | forbidden => "forbidden"
  | redirect => "redirect"
  | limits => "limits"
  | unhealthy => "unhealthy"

/-- A `NodeFailure`. -/
structure NodeFailure where
  origin : Str
  kind : FailureKind
  status : Option Int

/-- An exception with its `status`, and with the `failures` of a `NoHealthyNode`. -/
structure Exc extends Err where
  status : Option Int := none
  failures : List NodeFailure := []

/-- `raise cls(text, status=status)`. -/
def fail {α : Type} (cls : ErrorClass) (text : String) (args : List Json := [])
    (status : Option Int := none) : Except Exc α := .error { cls, text, args, status }

/-- `_is_plain_http_error(exc)`. -/
def isPlainHttpError (e : Exc) : Bool := e.cls == .httpError

/-- `_in_status(low, high)`. -/
def inStatus (low high : Int) (e : Exc) : Bool :=
  isPlainHttpError e && decide (low ≤ e.status.getD 0) && decide (e.status.getD 0 < high)

/-- `_FAILOVER`. -/
def failover : List ((Exc → Bool) × FailureKind) :=
  [(fun e => e.cls.isa .httpForbiddenAddress, .unreachable),
    (fun e => e.cls.isa .httpTransientExhausted && e.status == none, .unreachable),
    (fun e => e.cls.isa .httpTransientExhausted, .unavailable),
    (fun e => isPlainHttpError e && (e.status == some 429 || decide (500 ≤ e.status.getD 0)),
      .unavailable),
    (fun e => isPlainHttpError e && e.status == some 403, .forbidden),
    (inStatus 300 400, .redirect),
    (fun e => isPlainHttpError e && (e.status == none || e.status == some 200), .limits)]

/-- `classify(exc)`. -/
def classify (e : Exc) : Option FailureKind := (failover.find? (·.1 e)).map (·.2)

/-- `_is_terminal(exc)`. -/
def isTerminal (e : Exc) : Bool :=
  e.cls.isa .nodeListExpired || e.cls.isa .nodeClientConfigError ||
    (e.cls.isa .httpForbiddenHost && !e.cls.isa .httpForbiddenAddress)

/-- `_failure_of(origin, exc)`. -/
def failureOf (origin : Str) (e : Exc) : Option NodeFailure :=
  (classify e).map fun kind => ⟨origin, kind, e.status⟩

/-- The kinds of the failures with their counts, in the order of their first occurrence. -/
def countKinds (kinds : List FailureKind) : List (FailureKind × Nat) :=
  kinds.foldl (fun counts kind =>
    if counts.any (·.1 = kind) then
      counts.map fun c => if c.1 = kind then (kind, c.2 + 1) else c
    else counts ++ [(kind, 1)]) []

/-- The detail of the message of a `NoHealthyNode`. -/
def failureDetail (failures : List NodeFailure) : Str :=
  let counted := (countKinds (failures.map (·.kind))).map fun c =>
    Str.ofNat c.2 ++ lit " " ++ c.1.text
  if counted.isEmpty then lit "none examined" else (lit ", ").intercalate counted

/-- `raise NoHealthyNode(failures)`. -/
def noHealthyNode {α : Type} (failures : List NodeFailure) : Except Exc α :=
  .error { cls := .noHealthyNode, text := "no healthy node among % examined (%)",
           args := [.int failures.length, .str (failureDetail failures)], failures }

/-! ## The callables -/

/-- What the injected wall clock returns: an instant, or something that is not one. -/
inductive Reading where
  | instant (t : Int)
  | other

/-- What one attempt of a request leads to: an answer, with the body of a 200, or an exception of
`httpx` that the request loop catches. -/
inductive Reply where
  | answer (status : Int) (body : Bytes)
  | invalidUrl
  | decodingError
  | transportError (text : Str)

/-- A memoised health verdict: the failure of an unhealthy node. -/
abbrev Verdict := Option NodeFailure

/-- The calls that the client makes. `send` is one attempt of a request: it opens the stream and
reads the body. `outside` is what a walk does besides its session. -/
inductive Query where
  | clock
  | send (url : Str)
  | cacheGet (url : Str)
  | cacheSet (url : Str) (data : Json)
  | healthGet (origin : Str)
  | healthSet (origin : Str) (verdict : Verdict)
  | policy (origins : List Str)
  | outside (request : Json)

/-- What a call returns. An item of the policy's output that is not a `str` is `none`. -/
@[reducible] def Query.Answer : Query → Type
  | clock => Reading
  | send _ => Reply
  | cacheGet _ => Option Json
  | cacheSet _ _ => Unit
  | healthGet _ => Option Verdict
  | healthSet _ _ => Unit
  | policy _ => List (Option Str)
  | outside _ => Json

/-- Code of the client. -/
abbrev Client (α : Type) := Calling Query Query.Answer Exc α

/-- A call. -/
def ask (q : Query) : Client q.Answer := Calling.ask q

/-- Code that makes no call. -/
def run {α : Type} (x : Except Exc α) : Client α := Calling.done x

/-- Code in a `try`, with its outcome. -/
def attempt {α : Type} (c : Client α) : Client (Except Exc α) := Calling.handle c .ok

/-! ## The requests of `openvc_ebsi.http` -/

/-- What `EbsiHttpClient` is configured with. -/
structure EbsiHttpClient where
  interpreter : Interpreter
  allowed : List Str
  attempts : Nat
  retryStatuses : List Int
  validUntil : Option Int

/-- `carries_userinfo(url)`. -/
def carriesUserinfo (I : Interpreter) (url : Str) : Bool :=
  (Url.urlsplit I.bracketedNetloc url).any (·.netloc.contains 64)

/-- What `read_clock` makes of a reading. -/
def clockReading : Except Exc Reading → Except Exc Int
  | .ok (.instant t) => .ok t
  | .ok .other => fail .nodeClientConfigError "the clock's reading must be a datetime, not %"
  | .error _ => fail .nodeClientConfigError "the clock raised %"

/-- `read_clock(clock)`. -/
def readClock : Client Int := Calling.handle (ask .clock) clockReading

namespace EbsiHttpClient

variable (H : EbsiHttpClient)

/-- `_check_valid()`. -/
def checkValid : Client Unit :=
  match H.validUntil with
  | none => run (.ok ())
  | some expires => do
    let now ← readClock
    run (raiseIf (expires ≤ now)
      { cls := .nodeListExpired,
        text := "the node list expired at %: build a new client from a freshly verified list",
        args := [.int expires] })

/-- The checks of `_guard_host` on an origin that was read. -/
def guardOrigin (url : Str) (o : Origin) : Except Exc Unit := do
  raiseIf (o.scheme != lit "https")
    { cls := .httpForbiddenHost, text := "non-https URL rejected: %", args := [.str url] }
  raiseIf (o.host.isEmpty || !H.allowed.contains o.host)
    { cls := .httpForbiddenHost, text := "host not in allow-list: %", args := [.str o.host] }
  raiseIf (o.port != some 443)
    { cls := .httpForbiddenHost, text := "port % not allowed: https port 443 only",
      args := [.int (o.port.getD 0)] }
  raiseIf (carriesUserinfo H.interpreter url)
    { cls := .httpForbiddenHost, text := "URL rejected: carries userinfo" }

/-- `_guard_host(url)`. -/
def guardHost (url : Str) : Except Exc Unit :=
  match readOrigin H.interpreter url with
  | .ok o => H.guardOrigin url o
  | .error .notVisibleAscii => fail .httpForbiddenHost "URL rejected: not visible ASCII"
  | .error .doesNotParse => fail .httpForbiddenHost "URL rejected: does not parse"

/-- What is raised after the last attempt: `last` is the text and the status of the last one. -/
def exhausted (made : Nat) (last : Option (Str × Option Int)) : Except Exc (Int × Bytes) :=
  fail .httpTransientExhausted "gave up after % attempts: %"
    [.int made, .str ((last.map (·.1)).getD (lit "None"))] (last.bind (·.2))

/-- The loop of `_request`, with the attempts that are left. -/
def requestLoop (url : Str) (probe : Bool) (made : Nat) :
    Nat → Option (Str × Option Int) → Client (Int × Bytes)
  | 0, last => run (exhausted made last)
  | left + 1, _ => do
    H.checkValid
    let reply ← attempt (ask (.send url))
    match reply with
    | .ok .invalidUrl => run (fail .httpForbiddenHost "URL rejected by the HTTP client")
    | .ok .decodingError => run (fail .malformedRegistryResponse
        "registry returned a body that does not decode: %" [.str url])
    | .ok (.transportError text) => requestLoop url probe made left (some (text, none))
    | .error e =>
      if e.cls.isa .httpAddressResolutionFailed then
        requestLoop url probe made left (some (e.text, e.status))
      else run (.error e)
    | .ok (.answer status body) =>
      if status = 200 then run (.ok (status, body))
      else if probe then run (.ok (status, []))
      else if status = 404 then run (fail .httpNotFound "not found" [] (some 404))
      else if status ∈ H.retryStatuses then
        requestLoop url probe made left (some (lit "transient", some status))
      else run (fail .httpError "unexpected status %" [.int status] (some status))

/-- `_request(url, …)` as `get_json` and `probe` call it: a probe makes the last attempt only. -/
def request (url : Str) (probe : Bool) : Client (Int × Bytes) := do
  run (H.guardHost url)
  let made := if probe then H.attempts - (H.attempts - 1) else H.attempts
  H.requestLoop url probe made made none

/-- What `get_json` makes of a body. -/
def readObject (url : Str) (body : Bytes) : Except Exc Json :=
  match loadsBytes body with
  | .error _ => fail .malformedRegistryResponse
      "registry returned a 200 with a non-JSON body: %" [.str url]
  | .ok (.obj data) => .ok (.obj data)
  | .ok _ => fail .malformedRegistryResponse
      "registry returned a 200 that is not a JSON object: %" [.str url]

/-- `get_json(url)` past the cache. -/
def fetchJson (url : Str) : Client Json := do
  let answer ← H.request url false
  let data ← run (readObject url answer.2)
  ask (.cacheSet url data)
  return data

/-- `get_json(url)`. -/
def getJson (url : Str) : Client Json := do
  H.checkValid
  run (H.guardHost url)
  let cached ← ask (.cacheGet url)
  match cached with
  | some data => run (.ok data)
  | none => H.fetchJson url

/-- `probe(url)`. -/
def probe (url : Str) : Client (Int × Bytes) := do
  H.checkValid
  H.request url true

end EbsiHttpClient

/-! ## A session -/

/-- The calls of a walk: those of its session and others. -/
inductive WalkCall where
  | getJson (url : Json)
  | outside (request : Json)

/-- The caller's code. -/
abbrev Walk (α : Type) := Calling WalkCall (fun _ => Json) Exc α

/-- What a `NodeSession` records. -/
structure Session where
  failure : Option NodeFailure := none
  terminal : Option Exc := none

/-- `_note(exc)`. -/
def Session.note (s : Session) (origin : Str) (e : Exc) : Session :=
  if isTerminal e then { s with terminal := s.terminal <|> some e }
  else { s with failure := s.failure <|> failureOf origin e }

/-- `except EbsiError as exc: self._note(exc)`. -/
def Session.after (s : Session) (origin : Str) : Except Exc Json → Session
  | .error e => if e.cls.isa .ebsiError then s.note origin e else s
  | .ok _ => s

namespace EbsiHttpClient

variable (H : EbsiHttpClient)

/-- The checks of a session's `get_json`: the URL is a `str` on the node's own origin. -/
def checkPin (pin : Str) (url : Json) : Except Exc Str := do
  let text ← orRaise url.str?
    { cls := .httpForbiddenHost, text := "URL must be a str, not %", args := [.str (typeName url)] }
  raiseIf (!onOrigin H.interpreter text pin)
    { cls := .httpForbiddenHost, text := "URL is not on this session's node: %",
      args := [.str text] }
  return text

/-- The `try` of a session's `get_json`. -/
def sessionGet (pin : Str) (url : Json) : Client Json := do
  H.checkValid
  let text ← run (H.checkPin pin url)
  H.getJson text

/-- `walk(session)`, with the session of an origin, and what the session recorded. -/
def drive {α : Type} (origin pin : Str) : Walk α → Session → Client (Except Exc α × Session)
  | .done outcome, s => run (.ok (outcome, s))
  | .call (.getJson url) rest, s => do
    let r ← attempt (H.sessionGet pin url)
    drive origin pin (rest r) (s.after origin r)
  | .call (.outside request) rest, s => do
    let r ← attempt (ask (.outside request))
    drive origin pin (rest r) s

end EbsiHttpClient

/-! ## The client -/

/-- An `EbsiNodeClient`. -/
structure EbsiNodeClient where
  interpreter : Interpreter
  expires : Int
  origins : List Str
  maxNodes : Nat
  attempts : Nat
  retryStatuses : List Int

/-- `ALIVE_PATH`. -/
def alivePath : Str := "/v1/alive"

/-- `_alive(body)`. -/
def alive (body : Bytes) : Bool :=
  match loadsBytes body with
  | .ok (.obj data) => (Dict.get? data "health_global" matches some (.int 1))
  | _ => false

/-- What an attempt came to: the value, or the failure of the node. -/
def settle {α : Type} (s : Session) : Except Exc α → Except Exc (Except NodeFailure α)
  | .error e =>
    if e.cls.isa .ebsiError then
      match s.terminal with
      | some terminal => .error terminal
      | none =>
        if isTerminal e then .error e
        else
          match s.failure with
          | some failure => .ok (.error failure)
          | none => .error e
    else .error e
  | .ok value =>
    match s.terminal with
    | some terminal => .error terminal
    | none =>
      match s.failure with
      | some failure => .ok (.error failure)
      | none => .ok (.ok value)

namespace EbsiNodeClient

variable (C : EbsiNodeClient)

/-- `self.http`, as `for_nodes` builds it. -/
def http : EbsiHttpClient where
  interpreter := C.interpreter
  allowed := C.origins.map fun origin => Str.asciiLower (origin.drop 8)
  attempts := C.attempts
  retryStatuses := C.retryStatuses
  validUntil := some C.expires

/-- What `_probe` makes of the reply. -/
def probed (origin : Str) : Except Exc (Int × Bytes) → Except Exc Verdict
  | .error e =>
    if e.cls.isa .nodeListExpired || e.cls.isa .nodeClientConfigError then .error e
    else if e.cls.isa .ebsiError then .ok (some ⟨origin, .unhealthy, e.status⟩)
    else .error e
  | .ok (status, body) =>
    .ok (if status = 200 ∧ alive body = true then none else some ⟨origin, .unhealthy, some status⟩)

/-- `_probe(origin)`. -/
def probe (origin : Str) : Client Verdict :=
  Calling.handle (C.http.probe (origin ++ alivePath)) (probed origin)

/-- The probe of a candidate without a fresh verdict, which is recorded. -/
def probeUnknown (origin : Str) : Option Verdict → Client Verdict
  | some _ => run (.ok none)
  | none => do
    let verdict ← C.probe origin
    ask (.healthSet origin verdict)
    return verdict

/-- The checks of `_order` on one item. -/
def orderItem (seen : List Str) (item : Option Str) : Except Exc (List Str) := do
  let origin ← orRaise (item.filter fun origin => C.origins.contains origin)
    { cls := .nodeClientConfigError,
      text := "the node policy named a node that is not in the list: %",
      args := [(item.map Json.str).getD .null] }
  raiseIf (seen.contains origin)
    { cls := .nodeClientConfigError, text := "the node policy named a node twice: %",
      args := [.str origin] }
  return seen ++ [origin]

/-- The checks of `_order` on what the policy named. -/
def checkOrder (items : List (Option Str)) : Except Exc (List Str) := do
  raiseIf items.isEmpty
    { cls := .nodeClientConfigError, text := "the node policy named no node" }
  enumerateLoop (fun seen _ item => C.orderItem seen item) [] 0 items

/-- What `_order` makes of the policy's output, of which it takes one item more than there are
nodes. -/
def ordered : Except Exc (List (Option Str)) → Except Exc (List Str)
  | .ok items => C.checkOrder (items.take (C.origins.length + 1))
  | .error _ => fail .nodeClientConfigError "the node policy failed: %"

/-- `_order()`. -/
def order : Client (List Str) := Calling.handle (ask (.policy C.origins)) C.ordered

/-- `_origin(origin)`, in the constructor of a session. -/
def pinOf (origin : Str) : Except Exc Str :=
  match Ebsi.origin C.interpreter origin with
  | .ok pin => .ok pin
  | .error e => .error { e with }

/-- The attempt of a walk on one node. -/
def attemptOn {α : Type} (walk : Walk α) (origin : Str) : Client (Except NodeFailure α) := do
  let pin ← run (C.pinOf origin)
  let (outcome, session) ← C.http.drive origin pin walk {}
  run (settle session outcome)

/-- The loop of `run`, over the candidates that are left. -/
def candidates {α : Type} (walk : Walk α) : List Str → List NodeFailure → Nat → Client α
  | [], failures, _ => NodeClient.run (noHealthyNode failures)
  | origin :: rest, failures, spent => do
    let verdict ← ask (.healthGet origin)
    match verdict with
    | some (some failure) => candidates walk rest (failures ++ [failure]) spent
    | verdict =>
      if C.maxNodes ≤ spent then NodeClient.run (noHealthyNode failures)
      else do
        let health ← C.probeUnknown origin verdict
        match health with
        | some failure => candidates walk rest (failures ++ [failure]) (spent + 1)
        | none => do
          let settled ← C.attemptOn walk origin
          match settled with
          | .ok value => return value
          | .error failure => do
            ask (.healthSet origin (some failure))
            candidates walk rest (failures ++ [failure]) (spent + 1)

/-- `run(walk)`. -/
def run {α : Type} (walk : Walk α) : Client α := do
  C.http.checkValid
  let order ← C.order
  C.candidates walk order [] 0

end EbsiNodeClient

end OpenVC.Ebsi.NodeClient
