import OpenVC.Did.Base
import OpenVC.Python.Url

/-!
# The `did:web` identifier mapping (`openvc.did.did_web`)
-/

namespace OpenVC.Did

open Python

/-- An ASCII letter or digit. -/
def isAlnum (c : Nat) : Bool :=
  Str.isDigit c || (65 ≤ c && c ≤ 90) || (97 ≤ c && c ≤ 122)

/-- `_LABEL.fullmatch`: an RFC 1123 host label. -/
def isLabel (s : Str) : Bool :=
  !s.isEmpty && s.length ≤ 63 && s.all (fun c => isAlnum c || c == 45) &&
    (s.head?.map isAlnum).getD false && (s.getLast?.map isAlnum).getD false

/-- `_PORT.fullmatch`. -/
def isPort (s : Str) : Bool := !s.isEmpty && s.length ≤ 5 && s.all Str.isDigit

/-- A hexadecimal digit. -/
def isHex (c : Nat) : Bool := (Url.hexVal c).isSome

/-- `_NUMERIC_LABEL.fullmatch`: a label that reads as an IPv4 number. -/
def isNumericLabel (s : Str) : Bool :=
  (!s.isEmpty && s.all Str.isDigit) ||
    (match s with
      | 48 :: x :: t => (x == 120 || x == 88) && t.all isHex
      | _ => false)

/-- `host.rpartition(":")` for a host that has a colon. -/
def splitPort (host : Str) : Str × Str :=
  (((host.reverse.dropWhile (· != 58)).drop 1).reverse, (host.reverse.takeWhile (· != 58)).reverse)

/-- `_check_host(host, did)`. -/
def checkHost (host did : Str) : Result Unit := do
  let (name, port) := if host.contains 58 then splitPort host else (host, [])
  raiseIf (host.contains 58 &&
      !(isPort port && 0 < Str.toNat port && Str.toNat port ≤ 65535))
    ⟨.didResolutionError, "did:web % has an invalid port %", [.str did, .str port]⟩
  raiseIf (253 < name.length)
    ⟨.didResolutionError, "did:web % host is longer than 253 characters", [.str did]⟩
  raiseIf (!name.isAscii)
    ⟨.didResolutionError, "did:web % host % is not ASCII; write an IDN as its xn-- A-label",
      [.str did, .str name]⟩
  let labels := Str.split 46 name
  raiseIf (!labels.all isLabel)
    ⟨.didResolutionError, "did:web % host % is not a domain name", [.str did, .str name]⟩
  raiseIf (isNumericLabel (labels.getLastD []))
    ⟨.didResolutionError, "did:web % host % is an IP address, which did:web forbids",
      [.str did, .str name]⟩

/-- `_did_web_url(did)`. -/
def didWebUrl (did : Str) : Result Str := do
  let msi := did.drop (lit "did:web:").length
  raiseIf msi.isEmpty ⟨.didResolutionError, "empty did:web identifier", []⟩
  let parts := Str.split 58 msi
  let host := Url.unquote (parts.headD [])
  checkHost host did
  let segments := (parts.drop 1).map Url.unquote
  return if segments.isEmpty then lit "https://" ++ host ++ lit "/.well-known/did.json"
    else lit "https://" ++ host ++ [47] ++ List.intercalate [47] segments ++ lit "/did.json"

/-- `_validated_document(raw, did)`. -/
def validatedDocument (C : Crypto) (raw : Dict) (did : Str) : Result DidDocument := do
  let doc ← parseDidDocument C (.obj raw)
  raiseIf (doc.id != did)
    ⟨.didResolutionError, "document id % != requested %", [.str doc.id, .str did]⟩
  return doc

end OpenVC.Did
