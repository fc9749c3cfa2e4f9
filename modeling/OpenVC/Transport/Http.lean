import OpenVC.Ebsi.HttpBody
import OpenVC.Ebsi.NodeClient
import OpenVC.Fetch

/-!
# The HTTP client of the registries (`openvc_ebsi.http`)

One request loop is under every read: the expiry gate, the host guard, the opt-in address guard, the
retries and the sleeps between them. `httpx`, the resolver, the clocks and the sleeps are callables.
-/

namespace Python.PyFloat

/-- `min(x, y)`. -/
def pyMin (x y : PyFloat) : PyFloat := if lt y x then y else x

/-- `max(x, y)`. -/
def pyMax (x y : PyFloat) : PyFloat := if lt x y then y else x

/-- `x * 2 ** n` for a `float`; `none` is the `OverflowError` of an `int` that is no double. -/
def timesPow2 (x : PyFloat) (n : Nat) : Option PyFloat :=
  if 1024 ≤ n then none
  else
    match x with
    | .fin q => some (ofRat (q * 2 ^ n))
    | x => some x

/-- `x / 2`. -/
def half : PyFloat → PyFloat
  | .fin q => ofRat (q / 2)
  | x => x

end Python.PyFloat

namespace OpenVC.Ebsi.Http

open Python NodeClient

/-! ## Failures, answers and calls -/

/-- An exception with its `url` and its `problem_type`. -/
structure Failure extends NodeClient.Exc where
  url : Option Str := none
  problemType : Option Str := none

/-- An exception of `httpx` with its message, or of the standard library. -/
def foreign (name : String) (message : Str) : Failure :=
  { cls := .exception, text := name, args := [.str message] }

/-- Whether an exception is the one of this name. -/
def isForeign (name : String) (e : Failure) : Bool := e.cls == .exception && e.text == name

/-- `cls(text, status=status, url=url, problem_type=problemType)`. -/
def failure (cls : ErrorClass) (text : String) (args : List Json) (url : Option Str := none)
    (status : Option Int := none) (problemType : Option Str := none) : Failure :=
  { cls, text, args, status, url, problemType }

/-- A request as `httpx` sends it; without an SNI host name the TLS server name is the URL's host. -/
structure Request where
  url : Str
  headers : List (Str × Str)
  sniHostname : Option Str
  deriving DecidableEq

/-- An answer, with the clock before the loop over its body. -/
structure Reply extends Response where
  status : Int
  contentType : Option Str
  etag : Option Str
  retryAfter : Option Str
  started : PyFloat

/-- The calls of the client. `stream` opens the request and hands over the answer. -/
inductive Query where
  | clock
  | monotonic
  | uniform (high : PyFloat)
  | sleep (seconds : PyFloat)
  | resolve (host : Str) (port : Nat)
  | stream (request : Request)
  | cacheGet (url : Str)
  | cacheSet (url : Str) (data : Json)

/-- What a call returns. An item of the resolver's answer that is not a `str` is `none`. -/
@[reducible] def Query.Answer : Query → Type
  | clock => Reading
  | monotonic => PyFloat
  | uniform _ => PyFloat
  | sleep _ => Unit
  | resolve _ _ => List (Option Str)
  | stream _ => Reply
  | cacheGet _ => Option Json
  | cacheSet _ _ => Unit

/-- Code of the client. -/
abbrev Code (α : Type) := Calling Query Query.Answer Failure α

/-- A call. -/
def ask (q : Query) : Code q.Answer := Calling.ask q

/-- Code in a `try`, with its outcome. -/
def attempt {α : Type} (c : Code α) : Code (Except Failure α) := Calling.handle c .ok

/-! ## The client -/

/-- `RetryPolicy`, with floats. -/
structure RetryPolicy where
  attempts : Nat := 3
  backoffBaseS : PyFloat := .fin (1 / 4)
  backoffMaxS : PyFloat := .fin 5
  retryStatuses : List Int := [429, 500, 502, 503, 504]
  retryAfterMaxS : Option PyFloat := none

/-- `_MAX_DEADLINE_S`. -/
def maxDeadlineS : PyFloat := .fin 86400

/-- The longest that one sleep may be by the policy. -/
def RetryPolicy.ceiling (p : RetryPolicy) : PyFloat := p.retryAfterMaxS.getD p.backoffMaxS

/-- `RetryPolicy.backoff(attempt)`. -/
def RetryPolicy.backoff (p : RetryPolicy) (attempt : Nat) : Code PyFloat := do
  let scaled ← orRaise (PyFloat.timesPow2 p.backoffBaseS attempt) (foreign "OverflowError" [])
  let ceiling := PyFloat.pyMin scaled p.backoffMaxS
  let jitter ← ask (.uniform ceiling.half)
  return PyFloat.add ceiling.half jitter

/-- An `EbsiHttpClient`. What it uses of `zlib`, `ipaddress` and `email.utils` is given with it; a raw
deflate stream has a decompression object of its own. -/
structure HttpClient (σ : Type) where
  interpreter : Interpreter
  zlib : Decompressor σ
  rawDeflate : σ
  ipaddress : IpLibrary
  parseHttpDate : Str → Option DateTime
  allowed : List Str
  timeoutS : PyFloat
  maxBytes : Int
  retry : RetryPolicy
  /-- Whether there is an `address_guard`. -/
  guarded : Bool
  validUntil : Option Int

section Client

variable {σ : Type} (H : HttpClient σ)

/-- The client as the node client sees it. -/
def HttpClient.toNode : EbsiHttpClient where
  interpreter := H.interpreter
  allowed := H.allowed
  attempts := H.retry.attempts
  retryStatuses := H.retry.retryStatuses
  validUntil := H.validUntil

namespace HttpClient

/-! ## The gates -/

/-- What `read_clock` makes of a reading. -/
def clockReading (r : Except Failure Reading) : Except Failure Int :=
  match r with
  | .ok (.instant t) => .ok t
  | .ok .other =>
    .error (failure .nodeClientConfigError "the clock's reading must be a datetime, not %" [])
  | .error _ => .error (failure .nodeClientConfigError "the clock raised %" [])

/-- `_check_valid()`. -/
def checkValid : Code Unit :=
  match H.validUntil with
  | none => pure ()
  | some expires => do
    let now ← (ask .clock).handle clockReading
    raiseIf (expires ≤ now) (failure .nodeListExpired
      "the node list expired at %: build a new client from a freshly verified list" [.int expires])

/-- `_guard_host(url)`. -/
def guardHost (url : Str) : Except Failure Unit :=
  (H.toNode.guardHost url).mapError fun e =>
    { toExc := e, url := if e.text == "URL rejected: carries userinfo" then none else some url }

/-! ## The address guard -/

/-- The refusal of `_checked_address`. -/
def blocked (host : Str) (answer : Option Str) : Failure :=
  failure .httpForbiddenAddress "host % resolves to blocked address %"
    [.str host, .str (answer.getD [])]

/-- `_checked_address(host, answer)`. -/
def checkedAddress (host : Str) (answer : Option Str) : Except Failure Str :=
  match answer.bind H.ipaddress with
  | some ip =>
    if ip.scopeId.isNone && !Fetch.isForbidden ip then .ok ip.text
    else .error (blocked host answer)
  | none => .error (blocked host answer)

/-- What `AddressGuard.addresses` makes of an exception of the resolver. -/
def unresolved (host : Str) : Except Failure (List (Option Str)) →
    Except Failure (List (Option Str))
  | .ok answers => .ok answers
  | .error e =>
    if e.cls.isa .valueError || e.cls.isa .typeError || isForeign "OSError" e then
      .error (failure .httpAddressResolutionFailed "cannot resolve %: %" [.str host, .str e.text])
    else .error e

/-- The answers of a lookup of the host, which is none for an IP literal. -/
def lookup (host : Str) (port : Nat) : Code (List (Option Str)) :=
  if (H.ipaddress host).isSome then pure [some host]
  else do
    let answers ← (ask (.resolve host port)).handle (unresolved host)
    raiseIf answers.isEmpty
      (failure .httpAddressResolutionFailed "% did not resolve" [.str host])
    return answers

/-- `AddressGuard.addresses(host, port)`. -/
def addresses (host : Str) (port : Nat) : Code (List Str) := do
  let answers ← H.lookup host port
  let checked ← collect (H.checkedAddress host) answers
  return checked.eraseDups

/-- `url.find("//") + 2`, when it is found. -/
def authorityStart : Str → Option Nat
  | 47 :: 47 :: _ => some 2
  | [] => none
  | _ :: t => (authorityStart t).map (· + 1)

/-- A host in a URL or a header: an IPv6 address is bracketed. -/
def bracketed (host : Str) : Str :=
  if host.contains 58 then lit "[" ++ host ++ lit "]" else host

/-- The authority of the URL as it is parsed, and where it ends in the text. -/
def readAuthority (url : Str) : Except Failure (Str × Nat × Nat) :=
  match Url.urlparse H.interpreter.bracketedNetloc url with
  | none => .error (failure .httpForbiddenHost "URL rejected: does not parse" [] (some url))
  | some parsed =>
    match parsed.port with
    | none => .error (failure .httpForbiddenHost "URL rejected: does not parse" [] (some url))
    | some port =>
      match authorityStart url with
      | none => .error (failure .httpForbiddenHost "URL rejected: no readable authority" [] (some url))
      | some start =>
        if parsed.hostname.isEmpty || (url.drop start).take parsed.netloc.length != parsed.netloc then
          .error (failure .httpForbiddenHost "URL rejected: no readable authority" [] (some url))
        else .ok (parsed.hostname, port.getD 443, start + parsed.netloc.length)

/-- The request that is pinned to an address. -/
def pinned (url host : Str) (port stop : Nat) (headers : List (Str × Str)) (address : Str) :
    Request where
  url := lit "https://" ++ bracketed address ++ lit ":" ++ Str.ofNat port ++ url.drop stop
  headers := headers.filter (fun h => h.1 != lit "Host" && h.1 != lit "Connection") ++
    [(lit "Host", if port = 443 then bracketed host
        else bracketed host ++ lit ":" ++ Str.ofNat port),
      (lit "Connection", lit "close")]
  sniHostname := some host

/-- The next address of a rotation, and what has been tried with it. -/
def rotate (addresses tried : List Str) : Str × List Str :=
  match addresses.filter (!tried.contains ·) with
  | address :: _ => (address, tried ++ [address])
  | [] => (addresses.headD [], [addresses.headD []])

/-- `exc.url = url` on an `HttpError`. -/
def withUrl (url : Str) : Except Failure (List Str) → Except Failure (List Str)
  | .ok addresses => .ok addresses
  | .error e => .error (if e.cls.isa .httpError then { e with url := some url } else e)

/-- The request of an attempt, and the addresses that have been tried with it. -/
def prepare (url : Str) (tried : List Str) (headers : List (Str × Str)) :
    Code (Request × List Str) :=
  if H.guarded then do
    let (host, port, stop) ← H.readAuthority url
    let addresses ← (H.addresses host port).handle (withUrl url)
    let (address, tried) := rotate addresses tried
    return (pinned url host port stop headers address, tried)
  else pure (⟨url, headers, none⟩, tried)

/-! ## The bodies -/

/-- The status of an exception that the reader of a body raises. -/
def bodyStatus (e : Err) : Option Int :=
  if e.cls.isa .httpError && e.text != "read exceeded its deadline" then some 200 else none

/-- `_read_verbatim(resp, url, cap, until)`. -/
def readBody (url : Str) (cap : Int) (until_ : Option PyFloat) (resp : Reply) :
    Except Failure Bytes :=
  (readVerbatim H.interpreter H.zlib H.timeoutS resp.toResponse url cap until_ resp.started).mapError
    fun e => { toErr := e, status := bodyStatus e, url := some url }

/-- `MAX_ERROR_BODY_BYTES`. -/
def maxErrorBodyBytes : Nat := 16384

/-- The piece that a chunk of an error body decodes to, and the object after it: a `deflate` body
whose first chunk is not a zlib stream is read as a raw one. -/
def inflateError (coding : Str) (first : Bool) (decoder : σ) (room : Nat) (chunk : Bytes) :
    Except Failure (Bytes × σ) :=
  match H.zlib.decompress decoder chunk (room + 1) with
  | some r => .ok r
  | none =>
    if coding ≠ lit "deflate" ∨ first = false then .error (foreign "DecodingError" [])
    else orRaise (H.zlib.decompress H.rawDeflate chunk (room + 1)) (foreign "DecodingError" [])

/-- The loop of `_read_problem_type`: `none` when the response is closed before its end. -/
def errorChunks (coding : Str) (deadline : PyFloat) :
    Option σ → Bool → Nat → Bytes → List Chunk → Except Failure (Option Bytes)
  | _, _, _, body, [] => .ok (some body)
  | decoder, first, wire, body, chunk :: chunks =>
    if maxErrorBodyBytes < wire + chunk.data.length || PyFloat.lt deadline chunk.now then .ok none
    else
      match decoder with
      | none =>
        errorChunks coding deadline none first (wire + chunk.data.length) (body ++ chunk.data) chunks
      | some decoder =>
        if H.zlib.eof decoder then
          errorChunks coding deadline (some decoder) first (wire + chunk.data.length) body chunks
        else
          match H.inflateError coding first decoder (maxErrorBodyBytes - body.length) chunk.data with
          | .error e => .error e
          | .ok (piece, decoder) =>
            if maxErrorBodyBytes - body.length < piece.length then .ok none
            else
              errorChunks coding deadline (some decoder) false (wire + chunk.data.length)
                (body ++ piece) chunks

/-- A character of a problem type. -/
def isProblemChar (c : Nat) : Bool := 0x21 ≤ c && c ≤ 0x7E

/-- `_problem_type(content_type, body)`. -/
def problemType (contentType : Option Str) (body : Bytes) : Option Str :=
  if H.interpreter.lower (Str.strip (Str.beforeFirst 59 (contentType.getD []))) !=
      lit "application/problem+json" then none
  else
    match loadsBytes body with
    | .ok (.obj data) =>
      match Dict.get? data (lit "type") with
      | some (.str value) =>
        if !value.isEmpty && value.length ≤ 256 && value.all isProblemChar then some value else none
      | _ => none
    | _ => none

/-- The end of the iteration: the exception it raises, if any. -/
def endOf (failure : Option Err) : Except Failure Unit :=
  match failure with
  | none => .ok ()
  | some e => .error { toErr := e }

/-- `_read_problem_type(resp)`. -/
def readProblemType (resp : Reply) : Except Failure (Option Str) :=
  match decoderFor H.interpreter H.zlib resp.contentEncoding [] with
  | .error _ => .ok none
  | .ok decoder => do
    let body ← H.errorChunks (codingOf H.interpreter resp.contentEncoding)
      (PyFloat.add resp.started H.timeoutS) (usedDecoder resp.toResponse decoder) true 0 []
      resp.chunks
    match body with
    | none => .ok none
    | some body => do
      endOf resp.failure
      return H.problemType resp.contentType body

/-! ## The sleeps -/

/-- A space or a tab. -/
def isBlank (c : Nat) : Bool := c == 32 || c == 9

/-- `_parse_retry_after(value)`. -/
def parseRetryAfter (value : Option Str) : Option PyFloat :=
  match value with
  | none => none
  | some value =>
    let text := (value.dropWhile isBlank).rdropWhile isBlank
    if text.isEmpty || !Str.isAscii text then none
    else if text.all Str.isDigit then
      if text.length ≤ 9 then some (.fin (Str.toNat text)) else none
    else if 64 < text.length then none
    else (H.parseHttpDate text).map fun instant => PyFloat.pyMax (.fin 0)
      (PyFloat.ofRat (mkRat (instant.orUtc.instant - H.interpreter.utcNow) 1000000))

/-- A sleep is not longer than what is left of the budget. -/
def clamp (delay : PyFloat) : Option PyFloat → Code PyFloat
  | none => pure delay
  | some until_ => do
    let now ← ask .monotonic
    return PyFloat.pyMin delay (PyFloat.pyMax (.fin 0) (PyFloat.sub until_ now))

/-- `_sleep_before_retry(attempt, resp, until=until)`; `asked` is what the answer asks for. -/
def sleepBeforeRetry (attempt : Nat) (asked : Option PyFloat) (until_ : Option PyFloat) :
    Code Unit :=
  if H.retry.attempts ≤ attempt + 1 then pure ()
  else do
    let backoff ← H.retry.backoff attempt
    let delay := (asked.map (PyFloat.pyMax backoff)).getD backoff
    let delay := PyFloat.pyMin (PyFloat.pyMin delay H.retry.ceiling) maxDeadlineS
    let delay ← clamp delay until_
    ask (.sleep (PyFloat.pyMax (.fin 0) delay))

/-! ## The request loop -/

/-- How a reader uses the loop. -/
structure Reader where
  headers : List (Str × Str)
  drainErrorBody : Bool
  cap : Int
  acceptNotModified : Bool := false
  until_ : Option PyFloat := none
  probe : Bool := false

/-- What is read of an answer in the `try` of an attempt. -/
def readAnswer (url : Str) (R : Reader) (resp : Reply) :
    Except Failure (Reply × Bytes × Option Str) :=
  if resp.status = 200 then do
    let body ← H.readBody url R.cap R.until_ resp
    return (resp, body, none)
  else if R.drainErrorBody then do
    let problem ← H.readProblemType resp
    return (resp, [], problem)
  else .ok (resp, [], none)

/-- The `try` of an attempt, and the addresses that have been tried after it. -/
def tryOnce (url : Str) (R : Reader) (tried : List Str) :
    Code (Except Failure (Reply × Bytes × Option Str) × List Str) := do
  let prepared ← attempt (H.prepare url tried R.headers)
  match prepared with
  | .error e => pure (.error e, tried)
  | .ok (request, tried) => do
    let opened ← attempt (ask (.stream request))
    return (opened.bind (H.readAnswer url R), tried)

/-- `bounded_text(last_exc)`. -/
def boundedText : Option Failure → Str
  | none => lit "None"
  | some e =>
    match e.cls, e.args with
    | .exception, .str message :: _ => message
    | _, _ => e.text

/-- The exception when it is an `HttpError`. -/
def asHttpError (last : Option Failure) : Option Failure := last.filter (·.cls.isa .httpError)

/-- What is raised after the last attempt. -/
def exhausted (url : Str) (made : Nat) (last : Option Failure) : Failure :=
  failure .httpTransientExhausted "gave up after % attempts: %"
    [.int made, .str (boundedText last)] (some url) ((asHttpError last).bind (·.status))
    ((asHttpError last).bind (·.problemType))

/-- The budget is checked before an attempt. -/
def checkBudget (url : Str) : Option PyFloat → Code Unit
  | none => pure ()
  | some until_ => do
    let now ← ask .monotonic
    raiseIf (PyFloat.le (PyFloat.sub until_ now) (.fin 0))
      (failure .httpError "deadline exceeded" [] (some url))

/-- What an attempt leads to: the outcome of the request, or the next attempt. -/
inductive Verdict where
  | stop (result : Except Failure (Reply × Bytes))
  | retry (last : Failure) (asked : Option PyFloat)

/-- What an answer leads to. -/
def verdictOf (url : Str) (R : Reader) (resp : Reply) (body : Bytes) (problem : Option Str) :
    Verdict :=
  if resp.status = 200 then .stop (.ok (resp, body))
  else if resp.status = 304 ∧ R.acceptNotModified = true then .stop (.ok (resp, []))
  else if R.probe then .stop (.ok (resp, []))
  else if resp.status = 404 then
    .stop (.error (failure .httpNotFound "not found" [] (some url) (some 404) problem))
  else if resp.status ∈ H.retry.retryStatuses then
    .retry (failure .httpError "transient" [] (some url) (some resp.status) problem)
      (H.parseRetryAfter resp.retryAfter)
  else .stop (.error (failure .httpError "unexpected status %" [.int resp.status] (some url)
    (some resp.status) problem))

/-- The handlers of an attempt. -/
def verdict (url : Str) (R : Reader) : Except Failure (Reply × Bytes × Option Str) → Verdict
  | .error e =>
    if isForeign "InvalidURL" e then
      .stop (.error (failure .httpForbiddenHost "URL rejected by the HTTP client" [] (some url)))
    else if isForeign "DecodingError" e then
      .stop (.error (failure .malformedRegistryResponse
        "registry returned a body that does not decode: %" [.str url]))
    else if isForeign "TransportError" e || e.cls.isa .httpAddressResolutionFailed then
      .retry e none
    else .stop (.error e)
  | .ok (resp, body, problem) => H.verdictOf url R resp body problem

/-- The loop of `_request`: `left` attempts are left of the `made` that are made at most. -/
def requestLoop (url : Str) (R : Reader) (made : Nat) :
    Nat → List Str → Option Failure → Code (Reply × Bytes)
  | 0, _, last => Calling.done (.error (exhausted url made last))
  | left + 1, tried, _ => do
    H.checkValid
    checkBudget url R.until_
    let (outcome, tried) ← H.tryOnce url R tried
    match H.verdict url R outcome with
    | .stop result => Calling.done result
    | .retry last asked => do
      H.sleepBeforeRetry (H.retry.attempts - (left + 1)) asked R.until_
      requestLoop url R made left tried (some last)

/-- `_request(url, …)`: a probe makes the last attempt only. -/
def request (url : Str) (R : Reader) : Code (Reply × Bytes) := do
  H.guardHost url
  let made := if R.probe then H.retry.attempts - (H.retry.attempts - 1) else H.retry.attempts
  H.requestLoop url R made made [] none

/-! ## The readers -/

/-- How `get_json` reads. -/
def jsonReader : Reader := { headers := [], drainErrorBody := true, cap := H.maxBytes }

/-- What `get_json` makes of a body. -/
def readObject (url : Str) (body : Bytes) : Except Failure Json :=
  (EbsiHttpClient.readObject url body).mapError fun e => { toExc := e }

/-- `get_json(url)` past the cache. -/
def fetchJson (url : Str) : Code Json := do
  let answer ← H.request url H.jsonReader
  let data ← readObject url answer.2
  ask (.cacheSet url data)
  return data

/-- `get_json(url)`. -/
def getJson (url : Str) : Code Json := do
  H.checkValid
  H.guardHost url
  let cached ← ask (.cacheGet url)
  match cached with
  | some data => pure data
  | none => H.fetchJson url

/-- How `probe` reads. -/
def probeReader (cap : Int) : Reader :=
  { headers := [(lit "Accept-Encoding", lit "identity")], drainErrorBody := false
    cap := min cap H.maxBytes, probe := true }

/-- `probe(url, max_bytes=maxBytes)`. -/
def probe (url : Str) (maxBytes : Int) : Code (Int × Bytes) := do
  H.checkValid
  raiseIf (maxBytes < 0)
    (failure .httpError "max_bytes must be a non-negative int, not %" [.int maxBytes])
  let answer ← H.request url (H.probeReader maxBytes)
  return (answer.1.status, answer.2)

/-! ## The bytes path -/

/-- A `BytesResponse`; without a body the answer was 304. -/
structure BytesResponse where
  body : Option Bytes
  etag : Option Str

/-- Whether `_ETAG_VALUE` matches the whole text, which is not the wildcard. -/
def isEtag (text : Str) : Bool :=
  text != lit "*" && !text.isEmpty && text.length ≤ 256 && text.all isProblemChar

/-- `_plausible_etag(value)`. -/
def plausibleEtag (value : Option Str) : Option Str := value.filter isEtag

/-- `_checked_etag(value)`. -/
def checkedEtag : Json → Except Failure Str
  | .str text =>
    if isEtag text then .ok text
    else .error (failure .httpError "etag is not a usable validator: %" [.str text])
  | value => .error (failure .httpError "etag must be a str, not %" [value])

/-- `_checked_cap(value)`. -/
def checkedCap (value : Json) : Except Failure Int :=
  match value with
  | .int n =>
    if n < 0 then
      .error (failure .httpError "max_bytes must be a non-negative int, not %" [value])
    else .ok n
  | value => .error (failure .httpError "max_bytes must be a non-negative int, not %" [value])

/-- The number that a budget is given as. -/
def seconds? : Json → Option PyFloat
  | .int n => some (.fin n)
  | .float f => some f
  | _ => none

/-- `_checked_deadline(value)`. -/
def checkedDeadline (value : Json) : Except Failure PyFloat := do
  let seconds ← orRaise (seconds? value)
    (failure .httpError "deadline_s must be a number of seconds above 0 and at most %, not %" [value])
  raiseIf (!(PyFloat.lt (.fin 0) seconds && PyFloat.le seconds maxDeadlineS))
    (failure .httpError "deadline_s must be a number of seconds above 0 and at most %, not %" [value])
  return value.toFloat

/-- The cap of `get_bytes`. -/
def bytesCap (maxBytes : Json) : Except Failure Int :=
  match maxBytes with
  | .null => .ok H.maxBytes
  | value => (checkedCap value).map (min · H.maxBytes)

/-- An optional argument; `None` is `null`. -/
def optional {α : Type} (read : Json → Except Failure α) : Json → Except Failure (Option α)
  | .null => .ok none
  | value => (read value).map some

/-- The end of the budget of `get_bytes`. -/
def budget (deadlineS : Json) : Code (Option PyFloat) :=
  match deadlineS with
  | .null => pure none
  | value => do
    let now ← ask .monotonic
    let seconds ← checkedDeadline value
    return some (PyFloat.add now seconds)

/-- How `get_bytes` reads. -/
def bytesReader (cap : Int) (sent : Option Str) (until_ : Option PyFloat) : Reader :=
  { headers := [(lit "Accept", lit "*/*"), (lit "Accept-Encoding", lit "identity")] ++
      (sent.map (lit "If-None-Match", ·)).toList
    drainErrorBody := false, cap, acceptNotModified := sent.isSome, until_ }

/-- `get_bytes(url, max_bytes=maxBytes, etag=etag, deadline_s=deadlineS)`. -/
def getBytes (url : Str) (maxBytes etag deadlineS : Json) : Code BytesResponse := do
  H.checkValid
  let cap ← H.bytesCap maxBytes
  let sent ← optional checkedEtag etag
  let until_ ← budget deadlineS
  let answer ← H.request url (bytesReader cap sent until_)
  return if answer.1.status = 304 then ⟨none, sent⟩
    else ⟨some answer.2, plausibleEtag answer.1.etag⟩

/-! ## The documents of the Trusted Nodes List -/

/-- `TNL_HOST`. -/
def tnlHost : Str := "tnl.ebsi.eu"

/-- `TNL_FILES` with `TNL_MAX_BYTES`. -/
def tnlFiles : List (Str × Int) :=
  [("trusted-keys.json", 65536), ("trusted-keys.json.sig", 4096), ("tnl.json", 65536),
    ("tnl.json.sig", 4096)]

/-- The URL of a document. -/
def tnlUrl (name : Str) : Str := lit "https://" ++ tnlHost ++ lit "/" ++ name

/-- The validators of the copies that the caller holds. -/
def suppliedEtags (etags : Dict) : Except Failure (List (Str × Str)) :=
  collect (fun entry => do
    raiseIf (!(tnlFiles.map Prod.fst).contains entry.1)
      (failure .httpError "etags names a file that is not fetched: %" [.str entry.1])
    let text ← checkedEtag entry.2
    return (entry.1, text)) etags

/-- `except EbsiError as exc: exc.args = (f"{name}: {exc}", …)`. -/
def nameFile (name : Str) : Except Failure BytesResponse → Except Failure BytesResponse
  | .ok response => .ok response
  | .error e => .error
      (if e.cls.isa .ebsiError then { e with text := "%: " ++ e.text, args := .str name :: e.args }
        else e)

/-- One document, within the shared budget. -/
def fetchFile (supplied : List (Str × Str)) (stop : PyFloat) (file : Str × Int) :
    Code BytesResponse := do
  let now ← ask .monotonic
  raiseIf (PyFloat.le (PyFloat.sub stop now) (.fin 0))
    (failure .httpError "deadline exceeded" [] (some (tnlUrl file.1)))
  H.getBytes (tnlUrl file.1) (.int file.2) (((supplied.lookup file.1).map Json.str).getD .null)
    (.float (PyFloat.sub stop now))

/-- The loop of `get_tnl_files`. -/
def fetchFiles (supplied : List (Str × Str)) (stop : PyFloat) :
    List (Str × Int) → Code (List (Str × BytesResponse))
  | [] => pure []
  | file :: files => do
    let response ← (H.fetchFile supplied stop file).handle (nameFile file.1)
    let rest ← fetchFiles supplied stop files
    return (file.1, response) :: rest

/-- `get_tnl_files(client, etags=etags, deadline_s=deadlineS)`. -/
def getTnlFiles (etags : Dict) (deadlineS : Json) : Code (List (Str × BytesResponse)) := do
  raiseIf (!(H.allowed.contains tnlHost && H.allowed.all (· == tnlHost)))
    (failure .httpForbiddenHost "the client must allow-list % alone" [.str tnlHost])
  let supplied ← suppliedEtags etags
  let now ← ask .monotonic
  let seconds ← checkedDeadline deadlineS
  H.fetchFiles supplied (PyFloat.add now seconds) tnlFiles

end HttpClient

end Client

end OpenVC.Ebsi.Http
