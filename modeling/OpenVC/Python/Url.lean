import OpenVC.Python.Codec

/-!
# `urllib.parse`

`unquote`, and the readers of a URL on visible ASCII text: what `urlsplit` strips or normalises in
other text does not occur there. The check of a bracketed host grew between the versions of the
library and is an argument.
-/

namespace Python.Url

/-- The value of a hexadecimal digit. -/
def hexVal (c : Nat) : Option Nat :=
  if 48 ≤ c && c ≤ 57 then some (c - 48)
  else if 97 ≤ c && c ≤ 102 then some (c - 87)
  else if 65 ≤ c && c ≤ 70 then some (c - 55)
  else none

/-- `unquote_to_bytes(s)` of an ASCII text: a `%` that two hexadecimal digits do not follow stays. -/
def unquoteToBytes : Str → Bytes
  | [] => []
  | 37 :: a :: b :: t =>
    match hexVal a, hexVal b with
    | some x, some y => UInt8.ofNat (16 * x + y) :: unquoteToBytes t
    | _, _ => 37 :: unquoteToBytes (a :: b :: t)
  | c :: t => UInt8.ofNat c :: unquoteToBytes t

/-- `unquote` with the characters of the current ASCII run in `run`, last one first. -/
def unquoteGo (run : Str) : Str → Str
  | [] => Codec.decodeUtf8Replace (unquoteToBytes run.reverse)
  | c :: t =>
    if c < 128 then unquoteGo (c :: run) t
    else Codec.decodeUtf8Replace (unquoteToBytes run.reverse) ++ c :: unquoteGo [] t

/-- `unquote(s)`: each ASCII run is decoded as UTF-8, ill-formed sequences replaced. -/
def unquote (s : Str) : Str := if s.contains 37 then unquoteGo [] s else s

/-! ## `urlsplit` -/

/-- A `SplitResult`. -/
structure SplitResult where
  scheme : Str
  netloc : Str
  path : Str
  query : Str
  fragment : Str
  deriving DecidableEq

/-- A character of a scheme. -/
def isSchemeChar (c : Nat) : Bool :=
  (65 ≤ c && c ≤ 90) || (97 ≤ c && c ≤ 122) || Str.isDigit c || c == 43 || c == 45 || c == 46

/-- Whether a URL begins with a scheme and a colon. -/
def hasScheme (url : Str) : Bool :=
  url.contains 58 && (Str.beforeFirst 58 url).all isSchemeChar &&
    match url with
    | c :: _ => (65 ≤ c && c ≤ 90) || (97 ≤ c && c ≤ 122)
    | [] => false

/-- The scheme of a URL, in lower case, and the text after it. -/
def splitScheme (url : Str) : Str × Str :=
  if hasScheme url then (Str.asciiLower (Str.partition 58 url).1, (Str.partition 58 url).2.2)
  else ([], url)

/-- Whether a character ends the authority. -/
def endsNetloc (c : Nat) : Bool := c == 47 || c == 63 || c == 35

/-- The authority, if there is one, and the text after it. -/
def splitNetloc (rest : Str) : Str × Str :=
  if rest.startsWith "//" then
    ((rest.drop 2).takeWhile (!endsNetloc ·), (rest.drop 2).dropWhile (!endsNetloc ·))
  else ([], rest)

/-- Whether the brackets of an authority are those of an IP literal. -/
def bracketsOk (bracketed : Str → Bool) (netloc : Str) : Bool :=
  if netloc.contains 91 && netloc.contains 93 then bracketed netloc
  else !netloc.contains 91 && !netloc.contains 93

/-- `urlsplit(url)`; `none` is its `ValueError`. -/
def urlsplit (bracketed : Str → Bool) (url : Str) : Option SplitResult :=
  let (scheme, rest) := splitScheme url
  let (netloc, rest) := splitNetloc rest
  let (rest, _, fragment) := Str.partition 35 rest
  let (path, _, query) := Str.partition 63 rest
  if bracketsOk bracketed netloc then some ⟨scheme, netloc, path, query, fragment⟩ else none

/-- The schemes of `uses_netloc`. -/
def usesNetloc : List Str :=
  ["", "ftp", "http", "gopher", "nntp", "telnet", "imap", "wais", "file", "mms", "https", "shttp",
    "snews", "prospero", "rtsp", "rtsps", "rtspu", "rsync", "svn", "svn+ssh", "sftp", "nfs", "git",
    "git+ssh", "ws", "wss", "itms-services"]

/-- The authority and the path as `urlunsplit` writes them. -/
def unsplitHier (parts : SplitResult) : Str :=
  if !parts.netloc.isEmpty then
    lit "//" ++ parts.netloc ++
      (if !parts.path.isEmpty && !parts.path.startsWith "/" then 47 :: parts.path else parts.path)
  else if parts.path.startsWith "//" then lit "//" ++ parts.path
  else if !parts.scheme.isEmpty && usesNetloc.contains parts.scheme &&
      (parts.path.isEmpty || parts.path.startsWith "/") then lit "//" ++ parts.path
  else parts.path

/-- A component with its delimiter, nothing when it is empty. -/
def delimited (before component : Str) : Str :=
  if component.isEmpty then [] else before ++ component

/-- `urlunsplit(parts)`. -/
def urlunsplit (parts : SplitResult) : Str :=
  (if parts.scheme.isEmpty then [] else parts.scheme ++ lit ":") ++ unsplitHier parts ++
    delimited "?" parts.query ++ delimited "#" parts.fragment

namespace SplitResult

/-- `netloc.rpartition("@")[2]`. -/
def hostinfo (parts : SplitResult) : Str :=
  (parts.netloc.reverse.takeWhile (· != 64)).reverse

/-- The host and the text of the port. -/
def hostAndPort (parts : SplitResult) : Str × Str :=
  if parts.hostinfo.contains 91 then
    let (host, _, port) := Str.partition 93 (Str.partition 91 parts.hostinfo).2.2
    (host, (Str.partition 58 port).2.2)
  else ((Str.partition 58 parts.hostinfo).1, (Str.partition 58 parts.hostinfo).2.2)

/-- `parts.hostname or ""`: in lower case but for an IPv6 zone. -/
def hostname (parts : SplitResult) : Str :=
  let host := parts.hostAndPort.1
  Str.asciiLower (Str.beforeFirst 37 host) ++ host.dropWhile (· != 37)

/-- `parts.port`: the outer `none` is its `ValueError`, the inner one an absent port. -/
def port (parts : SplitResult) : Option (Option Nat) :=
  let text := parts.hostAndPort.2
  if text.isEmpty then some none
  else if text.all Str.isDigit && Str.toNat text ≤ 65535 then some (some (Str.toNat text)) else none

end SplitResult

/-- `parse_qsl(qs, keep_blank_values=True)`. -/
def parseQsl (qs : Str) : List (Str × Str) :=
  ((Str.split 38 qs).filter (!·.isEmpty)).map fun field =>
    let (name, _, value) := Str.partition 61 field
    (unquote (Str.replace name "+" " "), unquote (Str.replace value "+" " "))

example : (urlsplit (fun _ => false) "HTTPS://U@Node.EU:8443/v1/x?a=b#c").map
    (fun p => (p.scheme, p.hostname, p.port, p.path, p.query)) =
      some (lit "https", lit "node.eu", some (some 8443), lit "/v1/x", lit "a=b") := by decide

end Python.Url
