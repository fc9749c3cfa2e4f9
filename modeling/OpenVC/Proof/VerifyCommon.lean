import OpenVC.JsonInput
import OpenVC.Python.Interpreter

/-!
# Policy checks shared by the proof suites (`openvc.proof._verify_common`)

The checks that do not depend on how a credential was signed: the `crit` header, the validity
window, the NumericDate claims of a JWT and its audience.
-/

namespace OpenVC

open Python

/-- `reject_unknown_crit(header)`. -/
def rejectUnknownCrit (header : Dict) : Result Unit :=
  raiseIf (header.has "crit") ⟨.malformedToken, "JWS 'crit' extensions are not supported", []⟩

/-- `MAX_LEEWAY_S`. -/
def maxLeewayS : Int := 86400

theorem leeway_minute : 0 ≤ (60 : Int) ∧ (60 : Int) ≤ maxLeewayS := by decide

/-- `DEFAULT_KB_MAX_AGE_S`. -/
def defaultKbMaxAgeS : Int := 300

/-- `leeway_seconds(value, name, error)`. -/
def leewaySeconds (value : Int) (name : Str) (error : ErrorClass) : Result Int := do
  raiseIf (!(0 ≤ value && value ≤ maxLeewayS))
    ⟨error, "% must be a whole number of seconds from 0 to %, got %",
      [.str name, .int maxLeewayS, .int value]⟩
  return value

/-- `non_negative_seconds(value, name, error)`. -/
def nonNegativeSeconds (value : Int) (name : Str) (error : ErrorClass) : Result Int := do
  raiseIf (value < 0)
    ⟨error, "% must be a non-negative int (seconds), got %", [.str name, .int value]⟩
  return value

/-- `issuer_identifiers(issuer)`. -/
def issuerIdentifiers : Json → List Json
  | .obj m => ([lit "id", lit "@id"]).filterMap (Dict.get? m)
  | issuer => [issuer]

/-! ## The validity window -/

/-- `_FRACTION.sub(…, text, count=1)`: the first fraction of a second, brought to six digits. -/
def sixDigits (I : Interpreter) : Str → Str
  | [] => []
  | c :: t =>
    if c = 46 ∧ (t.takeWhile I.isDecimal).isEmpty = false then
      46 :: ((t.takeWhile I.isDecimal ++ lit "000000").take 6) ++ t.dropWhile I.isDecimal
    else c :: sixDigits I t

/-- The trailing `Z` of a timestamp as a numeric offset. -/
def numericOffset (text : Str) : Str :=
  if text.endsWith "Z" || text.endsWith "z" then text.dropLast ++ lit "+00:00" else text

/-- `_parse_ts(value)`. -/
def parseTs (I : Interpreter) : Json → Option DateTime
  | .str value =>
    if value.isEmpty then none
    else (I.fromIsoFormat (sixDigits I (numericOffset value.strip))).map DateTime.orUtc
  | _ => none

/-- Whether `_bound` skips the value of a field: it is absent, `null` or a blank string. -/
def isBlank : Json → Bool
  | .null => true
  | .str s => s.strip.isEmpty
  | _ => false

/-- `_bound(document, *keys)`. -/
def bound (I : Interpreter) (document : Dict) : List Str → Result (Option DateTime)
  | [] => .ok none
  | key :: keys =>
    if isBlank (document.get key) then bound I document keys
    else match parseTs I (document.get key) with
      | some ts => .ok (some ts)
      | none => raise .malformedTimestamp "% is not a valid dateTime: %"
          [.str key, document.get key]

/-- Whether the first instant lies more than the leeway after the second, in microseconds. -/
def after (leewayS later earlier : Int) : Bool := leewayS * 1000000 < later - earlier

/-- The instant of a bound, for a comparison or a message. -/
def boundArgs (ts : Option DateTime) : List Json := (ts.map fun d => Json.int d.instant).toList

/-- `check_validity_window(document, proof, now=None, leeway_s, check_temporal)`. -/
def checkValidityWindow (I : Interpreter) (document proof : Dict) (leewayS : Int)
    (checkTemporal : Bool) : Result Bool := do
  let leeway ← leewaySeconds leewayS "leeway_s" .proofError
  let notBefore ← bound I document ["validFrom", "issuanceDate"]
  raiseIf (notBefore.any fun ts => after leeway ts.instant I.utcNow)
    ⟨.credentialNotYetValid, "credential is not valid before %", boundArgs notBefore⟩
  let notAfter ← bound I document ["validUntil", "expirationDate"]
  let expired := notAfter.any fun ts => after leeway I.utcNow ts.instant
  raiseIf (expired && checkTemporal) ⟨.credentialExpired, "credential expired at %",
    boundArgs notAfter⟩
  let proofExpires ← bound I proof ["expires", "expirationDate"]
  let proofExpired := proofExpires.any fun ts => after leeway I.utcNow ts.instant
  raiseIf (proofExpired && checkTemporal) ⟨.credentialExpired, "proof expired at %",
    boundArgs proofExpires⟩
  return expired || proofExpired

/-! ## The claims of a JWT -/

/-- `is_numeric_date(value)`. -/
def isNumericDate : Json → Bool
  | .int n => (PyFloat.ofInt n).isSome
  | .float f => f.isFinite
  | _ => false

/-- `check_numeric_dates(claims, *names, subject)`. -/
def checkNumericDates (claims : Dict) (names : List Str) (subject : Str) : Result Unit :=
  each (fun name => raiseIf (claims.has name && !isNumericDate (claims.get name))
    ⟨.claimsInvalid, "% % must be a finite numeric timestamp", [.str subject, .str name]⟩) names

/-- Whether `current` is at or past the `exp` of the claims by the leeway. -/
def expPassed (claims : Dict) (leeway : Int) (current : Json) : Bool :=
  claims.has "exp" && Json.le (.int leeway) (Json.sub current (claims.get "exp"))

/-- Whether a NumericDate claim lies more than the leeway after `current`. -/
def isFuture (claims : Dict) (name : Str) (leeway : Int) (current : Json) : Bool :=
  claims.has name && Json.lt (.int leeway) (Json.sub (claims.get name) current)

/-- `check_jwt_temporal(claims, leeway_s, subject, now, check_temporal)`. -/
def checkJwtTemporal (I : Interpreter) (claims : Dict) (leewayS : Int) (subject : Str)
    (now : Option Json) (checkTemporal : Bool) : Result Bool := do
  let leeway ← leewaySeconds leewayS "leeway_s" .claimsInvalid
  checkNumericDates claims ["exp", "nbf", "iat"] subject
  let current := now.getD (.float I.time)
  let expired := expPassed claims leeway current
  raiseIf (expired && checkTemporal) ⟨.claimsInvalid, "% has expired", [.str subject]⟩
  raiseIf (isFuture claims "nbf" leeway current)
    ⟨.claimsInvalid, "% is not yet valid", [.str subject]⟩
  raiseIf (isFuture claims "iat" leeway current)
    ⟨.claimsInvalid, "% iat is in the future", [.str subject]⟩
  return expired

/-- `check_expected_audience(audience)`. -/
def checkExpectedAudience (audience : Option Str) : Result Unit :=
  raiseIf (audience = some []) ⟨.claimsInvalid,
    "the expected audience must be a non-empty string or None, not %", [.str []]⟩

/-- The audiences an `aud` claim names, `none` when it is not a string or an array of strings. -/
def audiences : Json → Option (List Str)
  | .str s => some [s]
  | .arr l => if l.all (·.str?.isSome) then some (l.filterMap Json.str?) else none
  | _ => none

/-- The rules on an `aud` claim that is present. -/
def checkAudValue (aud : Json) (audience : Option Str) (subject : Str) : Result Unit := do
  let auds ← orRaise (audiences aud)
    ⟨.claimsInvalid, "% aud must be a string or an array of strings", [.str subject]⟩
  let expected ← orRaise audience ⟨.claimsInvalid,
    "% is restricted to an audience (aud) and no audience was given to verify it against (RFC 7519 §4.1.3)",
    [.str subject]⟩
  raiseIf (!auds.contains expected)
    ⟨.claimsInvalid, "% aud does not include %", [.str subject, .str expected]⟩

/-- `check_jwt_audience(claims, audience, subject, require_present)`. -/
def checkJwtAudience (claims : Dict) (audience : Option Str) (subject : Str)
    (requirePresent : Bool) : Result Unit :=
  if !claims.has "aud" && !requirePresent then .ok ()
  else do
    checkExpectedAudience audience
    if claims.has "aud" then checkAudValue (claims.get "aud") audience subject
    else raiseIf audience.isSome ⟨.claimsInvalid, "% has no aud claim; expected %",
      [.str subject, .str (audience.getD [])]⟩

/-- The first instant of a `datetime`, in microseconds since the epoch. -/
def minInstant : Int := -62135596800000000

/-- The last one. -/
def maxInstant : Int := 253402300799999999

/-- `utc_instant(now, error)`: a pinned instant that has no UTC equivalent is an error. -/
def utcInstant (I : Interpreter) (now : Option DateTime) (error : ErrorClass) : Result Int :=
  match now with
  | none => .ok I.utcNow
  | some now => do
    raiseIf (now.orUtc.instant < minInstant || maxInstant < now.orUtc.instant)
      ⟨error, "now cannot be read as an instant: ", []⟩
    return now.orUtc.instant

/-- `utc_epoch(now)` for a pinned instant: `int(plain.timestamp())`. -/
def utcEpoch (now : DateTime) : Int :=
  (Json.float (PyFloat.ofRat (mkRat now.orUtc.instant 1000000))).trunc

/-- `check_iat_freshness(iat, max_age_s, leeway_s, current, subject)`. -/
def checkIatFreshness (iat : Json) (maxAgeS leewayS : Int) (current : Json) (subject : Str) :
    Result Int := do
  let leeway ← leewaySeconds leewayS "leeway_s" .claimsInvalid
  raiseIf iat.isNull ⟨.claimsInvalid, "% is missing the required iat", [.str subject]⟩
  raiseIf (!isNumericDate iat)
    ⟨.claimsInvalid, "% iat must be a finite numeric timestamp", [.str subject]⟩
  raiseIf (Json.lt (.int (maxAgeS + leeway)) (Json.sub current iat))
    ⟨.claimsInvalid, "% is too old", [.str subject]⟩
  raiseIf (Json.lt (.int leeway) (Json.sub iat current))
    ⟨.claimsInvalid, "% iat is in the future", [.str subject]⟩
  return iat.trunc

end OpenVC
