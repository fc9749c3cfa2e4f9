import OpenVC.Did.DidWebvh
import OpenVC.Python.Calling
import OpenVC.Python.Interpreter

/-!
# The guarded https fetch (`openvc.fetch`)

A fetch resolves the host of its URL once, refuses it unless every address of the answer is globally
routable, and opens its one connection to the first address of that answer. The resolver, the
connection and the clock are callables: whoever controls them is the adversary.

The classification of an address follows the IANA registries, which change between versions of
`ipaddress`, and is an argument.
-/

namespace Python

/-! ## `ipaddress` -/

/-- What is read of an `ipaddress` object. -/
structure IpAddress where
  /-- `str(ip)`. -/
  text : Str
  isV6 : Bool
  scopeId : Option Str
  isPrivate : Bool
  isLoopback : Bool
  isLinkLocal : Bool
  isReserved : Bool
  isMulticast : Bool
  isUnspecified : Bool
  isGlobal : Bool
  isSiteLocal : Bool

/-- `ipaddress.ip_address`; `none` is its `ValueError`. -/
abbrev IpLibrary := Str → Option IpAddress

namespace Url

/-- What `urlsplit` reads of an ASCII URL: it drops leading control characters and spaces, and the
tabs and line breaks anywhere. -/
def cleaned (url : Str) : Str :=
  (url.dropWhile (· ≤ 32)).filter fun c => !(c == 9 || c == 10 || c == 13)

/-- The last segment of a path, and the text before it. -/
def lastSegment (path : Str) : Str × Str :=
  ((path.reverse.dropWhile (· != 47)).reverse, (path.reverse.takeWhile (· != 47)).reverse)

/-- The path of `urlparse`: the parameters of the last segment are cut off. -/
def withoutParams (path : Str) : Str :=
  (lastSegment path).1 ++ Str.beforeFirst 59 (lastSegment path).2

/-- The schemes of `uses_params`. -/
def usesParams : List Str :=
  ["", "ftp", "hdl", "prospero", "http", "imap", "https", "shttp", "rtsp", "rtsps", "rtspu", "sip",
    "sips", "mms", "sftp", "tel"]

/-- `urlparse(url)` of an ASCII URL, without the parameters. -/
def urlparse (bracketed : Str → Bool) (url : Str) : Option SplitResult :=
  (urlsplit bracketed (cleaned url)).map fun parts =>
    if usesParams.contains parts.scheme then { parts with path := withoutParams parts.path }
    else parts

end Url

end Python

namespace OpenVC.Fetch

open Python

/-! ## Exceptions and calls -/

/-- An exception; `unsafeUrl` is set in an `UnsafeUrlError`, which is a `DidResolutionError`. The
classes of the standard library that a handler names are `exception`s whose text is their name. -/
structure Exc extends Err where
  unsafeUrl : Bool := false

/-- `raise UnsafeUrlError(text)`. -/
def refuse (text : String) (args : List Json) : Exc :=
  { cls := .didResolutionError, text, args, unsafeUrl := true }

/-- `raise DidResolutionError(text)`. -/
def failed (text : String) (args : List Json) : Exc := { cls := .didResolutionError, text, args }

/-- `socket.gaierror` or `ValueError`. -/
def isUnresolved (e : Exc) : Bool :=
  e.cls.isa .valueError || (e.cls == .exception && e.text == "gaierror")

/-- `OSError`, of which `gaierror` is one, `http.client.HTTPException` or `ValueError`. -/
def isTransport (e : Exc) : Bool :=
  e.cls.isa .valueError ||
    (e.cls == .exception && ["OSError", "gaierror", "HTTPException"].contains e.text)

/-- The calls of a fetch. `get` opens a TCP connection to the address, does the TLS handshake for the
host name, sends the request for the target and reads the head of the answer. -/
inductive Query where
  | getaddrinfo (host : Str) (port : Nat)
  | get (ip : Str) (port : Nat) (hostname target : Str)
  | monotonic
  | read1 (amount : Nat)
  deriving DecidableEq

/-- What a call returns: the addresses, the status, the clock, the octets read. -/
@[reducible] def Query.Answer : Query → Type
  | getaddrinfo _ _ => List Str
  | get _ _ _ _ => Int
  | monotonic => PyFloat
  | read1 _ => Bytes

/-- Code that fetches. -/
abbrev Fetching (α : Type) := Calling Query Query.Answer Exc α

/-- A call. -/
def ask (q : Query) : Fetching q.Answer := Calling.ask q

/-- The handler of `try: … except handled as exc: raise cls(f"{lead}{exc}")`. -/
def orFail {α : Type} (handled : Exc → Bool) (cls : String → List Json → Exc) (lead : String)
    (args : List Json) : Except Exc α → Except Exc α
  | .ok a => .ok a
  | .error e => .error (if handled e then cls (lead ++ e.text) (args ++ e.args) else e)

/-- An exception of a function that makes no call. -/
def Exc.ofErr (e : Err) : Exc := { toErr := e }

/-- Code that makes no call. -/
def pureCode {α : Type} (x : Result α) : Except Exc α := x.mapError Exc.ofErr

/-! ## The address guard -/

/-- `ip_is_forbidden` of an address that was read. -/
def isForbidden (ip : IpAddress) : Bool :=
  ip.isPrivate || ip.isLoopback || ip.isLinkLocal || ip.isReserved || ip.isMulticast ||
    ip.isUnspecified || !ip.isGlobal || (ip.isV6 && ip.isSiteLocal)

/-- `ip_is_forbidden(ip_str)`. -/
def ipIsForbidden (P : IpLibrary) (ipStr : Str) : Except Exc Bool :=
  match P ipStr with
  | some ip => .ok (isForbidden ip)
  | none => .error { cls := .valueError, text := "% does not appear to be an IPv4 or IPv6 address",
                     args := [.str ipStr] }

/-- One iteration of `_resolve_public_ips`. -/
def checkAddress (P : IpLibrary) (host addr : Str) : Except Exc Unit := do
  let forbidden ← ipIsForbidden P addr
  raiseIf forbidden (refuse "host % resolves to blocked address %" [.str host, .str addr])

/-- `_resolve_public_ips(host, port)`. -/
def resolvePublicIps (P : IpLibrary) (host : Str) (port : Nat) : Fetching (List Str) := do
  let ips ← (ask (.getaddrinfo host port)).handle
    (orFail isUnresolved refuse "cannot resolve host %: " [.str host])
  raiseIf ips.isEmpty (refuse "host % did not resolve" [.str host])
  each (checkAddress P host) ips
  return ips

/-! ## The request -/

/-- The loop that reads the body, at most `remaining` octets of it. A round reads at least one, so
as many rounds as octets are enough. -/
def readLoop (deadline : PyFloat) (late : Exc) : Nat → Nat → Fetching Bytes
  | 0, _ => pure []
  | rounds + 1, remaining =>
    if remaining = 0 then pure []
    else do
      let now ← ask .monotonic
      raiseIf (PyFloat.lt deadline now) late
      let chunk ← ask (.read1 (min remaining 65536))
      if chunk.isEmpty then pure []
      else do
        let rest ← readLoop deadline late rounds (remaining - chunk.length)
        return chunk ++ rest

/-- What is done in the `try` of `_https_get`. -/
def exchange (hostname ip : Str) (port : Nat) (target : Str) (timeout : PyFloat) (maxBytes : Int) :
    Fetching (Int × Bytes) := do
  let status ← ask (.get ip port hostname target)
  let started ← ask .monotonic
  let body ← readLoop (PyFloat.add started timeout)
    (failed "read exceeded %s deadline for https://%%"
      [.float timeout, .str hostname, .str target])
    (maxBytes + 1).toNat (maxBytes + 1).toNat
  return (status, body)

/-- `_https_get(hostname, ip, port, target, timeout, max_bytes)`. -/
def httpsGet (hostname ip : Str) (port : Nat) (target : Str) (timeout : PyFloat) (maxBytes : Int) :
    Fetching (Int × Bytes) :=
  (exchange hostname ip port target timeout maxBytes).handle
    (orFail isTransport failed "fetch failed for https://%%: " [.str hostname, .str target])

/-! ## The fetch -/

/-- `_REDIRECT_STATUSES`. -/
def redirectStatuses : List Int := [301, 302, 303, 307, 308]

/-- A control character or a space. -/
def isControl (c : Nat) : Bool := c < 0x21 || c == 0x7F

/-- The parsed URL with its host and port; `none` is the `ValueError`. -/
def parseUrl (I : Interpreter) (url : Str) : Option (Url.SplitResult × Nat) :=
  match Url.urlparse I.bracketedNetloc url with
  | none => none
  | some parts =>
    match parts.port with
    | none => none
    | some port => some (parts, if port.getD 0 = 0 then 443 else port.getD 0)

/-- The checks of `_https_fetch_guarded` before the host is resolved. -/
def checkUrl (I : Interpreter) (url : Str) : Except Exc (Url.SplitResult × Nat) := do
  raiseIf (!url.isAscii) (refuse "URL is not ASCII; send an IDN host as its xn-- A-label" [])
  let (parts, port) ← orRaise (parseUrl I url) (refuse "malformed URL: " [])
  raiseIf (parts.scheme != lit "https")
    (refuse "only https is allowed, got scheme %" [.str parts.scheme])
  raiseIf parts.hostname.isEmpty (refuse "URL has no host" [])
  raiseIf (253 < parts.hostname.length) (refuse "host is longer than 253 characters" [])
  raiseIf (parts.hostname.any isControl)
    (refuse "host % contains control characters or whitespace" [.str parts.hostname])
  return (parts, port)

/-- The target of the request line. -/
def targetOf (parts : Url.SplitResult) : Str :=
  (if parts.path.isEmpty then lit "/" else parts.path) ++
    (if parts.query.isEmpty then [] else lit "?" ++ parts.query)

/-- The checks of `_https_fetch_guarded` on the answer. -/
def checkAnswer (url : Str) (maxBytes : Int) (answer : Int × Bytes) : Except Exc Bytes := do
  raiseIf (redirectStatuses.contains answer.1)
    (refuse "redirect (%) not followed (SSRF guard)" [.int answer.1])
  raiseIf (answer.1 != 200) (failed "unexpected status % for %" [.int answer.1, .str url])
  raiseIf (maxBytes < answer.2.length) (failed "response exceeds % bytes" [.int maxBytes])
  return answer.2

/-- `_https_fetch_guarded(url, timeout_s, max_bytes)`. -/
def httpsFetchGuarded (I : Interpreter) (P : IpLibrary) (timeoutS : PyFloat) (maxBytes : Int)
    (url : Str) : Fetching Bytes := do
  let (parts, port) ← checkUrl I url
  let ips ← resolvePublicIps P parts.hostname port
  let answer ← httpsGet parts.hostname (ips.headD []) port (targetOf parts) timeoutS maxBytes
  checkAnswer url maxBytes answer

/-- What `https_json_fetch` makes of a body. -/
def readObject (raw : Bytes) : Except Exc Dict :=
  match loadsBytes raw with
  | .error e => .error (failed ("response is not JSON: " ++ e.text) e.args)
  | .ok (.obj data) => .ok data
  | .ok _ => .error (failed "response must be a JSON object" [])

/-- `https_json_fetch(url)`. -/
def httpsJsonFetch (I : Interpreter) (P : IpLibrary) (timeoutS : PyFloat) (maxBytes : Int)
    (url : Str) : Fetching Dict := do
  let raw ← httpsFetchGuarded I P timeoutS maxBytes url
  readObject raw

/-- `https_text_fetch(url)`. -/
def httpsTextFetch (I : Interpreter) (P : IpLibrary) (timeoutS : PyFloat) (maxBytes : Int)
    (url : Str) : Fetching Str := do
  let raw ← httpsFetchGuarded I P timeoutS maxBytes url
  orRaise (Codec.decodeUtf8 false raw) (failed "response is not UTF-8 text: " [])

/-! ## The default resolvers -/

/-- `DEFAULT_TIMEOUT_S`. -/
def defaultTimeoutS : PyFloat := .fin 10

/-- `MAX_RESPONSE_BYTES`. -/
def maxResponseBytes : Int := 1048576

/-- `default_did_web_resolver().resolve(did)`. -/
def didWebResolve (I : Interpreter) (P : IpLibrary) (C : Crypto) (did : Str) :
    Fetching Did.DidDocument := do
  let url ← pureCode (Did.didWebUrl did)
  let raw ← httpsJsonFetch I P defaultTimeoutS maxResponseBytes url
  pureCode (Did.validatedDocument C raw did)

/-- `default_did_webvh_resolver().resolve(did)`. -/
def didWebvhResolve (I : Interpreter) (P : IpLibrary) (C : Crypto) (did : Str) :
    Fetching Did.DidDocument := do
  let url ← pureCode (Did.didWebvhUrl did)
  let log ← httpsTextFetch I P defaultTimeoutS maxResponseBytes url
  pureCode (Did.replay C I.fromIsoFormat did log)

end OpenVC.Fetch
