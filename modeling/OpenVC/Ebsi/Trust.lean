import Mathlib.Data.Finset.Sort
import Mathlib.Data.List.Lex
import OpenVC.Ebsi.Versioning
import OpenVC.Status.StatusList

/-!
# The EBSI trust chain (`openvc_ebsi.trust`)

An issuer is walked up its accreditations until an accreditor is one of the caller's anchors. Role and
accreditor come from the registry record, scope and kind from the token the record carries, identity
from the token once it is verified.
-/

namespace OpenVC.Ebsi

open Python

/-- A `TrustHop`. -/
structure TrustHop where
  subject : Str
  accreditor : Str
  accreditation : Accreditation

/-- A `TrustChain`. -/
structure TrustChain where
  subject : Str
  anchor : Str
  hops : List TrustHop
  scope : Finset Str

/-! ## Picking an accreditation -/

/-- Why an accreditation authorises nothing. -/
inductive Ineligibility where
  | notLive (role : Str)
  | mayNotAccredit (role : Str)
  | wrongKind (types : List Str) (wanted : Str)
  | noTypes
  deriving DecidableEq

/-- `_ROLE_SHOWN_MAX`. -/
def roleShownMax : Nat := 48

/-- `_short_role(role)`: at most 48 characters are shown. -/
def shortRole (role : Str) : String × List Json :=
  if role.length ≤ roleShownMax then ("%", [.str role])
  else ("%... (% chars)", [.str (role.take roleShownMax), .int role.length])

/-- The text of a reason, with its values. -/
def Ineligibility.message : Ineligibility → String × List Json
  | notLive role => ("issuerType " ++ (shortRole role).1 ++
      " is not a live trust role (RootTAO, TAO or TI)", (shortRole role).2)
  | mayNotAccredit role => ("issuerType " ++ (shortRole role).1 ++
      " is not a role that may accredit (RootTAO or TAO)", (shortRole role).2)
  | wrongKind types wanted =>
    ("vc.type % does not name %", [.arr (types.map .str), .str wanted])
  | noTypes =>
    ("accreditedFor names no type (an accreditation authorises only what it lists)", [])

/-- The kind of accreditation a position of the chain needs. -/
def wantedKind (leaf : Bool) : Str := if leaf then accreditationToAttest else accreditationToAccredit

/-- `accreditation_ineligibility(acc, leaf)`. -/
def accreditationIneligibility (acc : Accreditation) (leaf : Bool) : Option Ineligibility :=
  if !acc.hasTrustRole then some (.notLive acc.issuerType)
  else if !leaf && !acc.canAccredit then some (.mayNotAccredit acc.issuerType)
  else if !acc.accreditationTypes.contains (wantedKind leaf) then
    some (.wrongKind acc.accreditationTypes (wantedKind leaf))
  else if acc.credentialTypes.isEmpty then some .noTypes
  else none

/-- Whether an eligible accreditation covers what is needed: some of it at the leaf, all above. -/
def covers (acc : Accreditation) (needed : Finset Str) (leaf : Bool) : Bool :=
  if leaf then decide (acc.credentialTypes.toFinset ∩ needed).Nonempty
  else decide (needed ⊆ acc.credentialTypes.toFinset)

/-- `_pick_accreditation(record, needed, leaf)`. -/
def pickAccreditation (record : IssuerRecord) (needed : Finset Str) (leaf : Bool) :
    Option Accreditation :=
  if record.hasAttributes then
    record.accreditations.find? fun acc =>
      (accreditationIneligibility acc leaf).isNone && covers acc needed leaf
  else none

/-- `ineligible_note(record, leaf)`: the distinct reasons, at most three shown, the rest counted. -/
def ineligibleNote (record : IssuerRecord) (leaf : Bool) : String × List Json :=
  let reasons :=
    (record.accreditations.filterMap fun acc => accreditationIneligibility acc leaf).eraseDups
  if reasons.isEmpty then ("", [])
  else
    ("; set aside: " ++ "; ".intercalate ((reasons.take 3).map (·.message.1)) ++
        (if 3 < reasons.length then " and % more" else ""),
      (reasons.take 3).flatMap (·.message.2) ++
        (if 3 < reasons.length then [.int (reasons.length - 3 : Nat)] else []))

/-! ## Verifying an accreditation -/

/-- The members with the given names that are sent, each with the name it has in messages. -/
def sentMembers (lead : Str) (keys : List Str) (d : Dict) : List (Str × Json) :=
  (keys.filter d.has).map fun key => (lead ++ key, d.get key)

/-- The names of the accredited party that a verified accreditation sends. -/
def subjectNames (subject : Str) (claims credential : Dict) : Result (List (Str × Json)) :=
  match credential.get? "credentialSubject" with
  | none => .ok (sentMembers [] ["sub"] claims)
  | some (.obj cs) =>
    .ok (sentMembers [] ["sub"] claims ++ sentMembers "credentialSubject." ["id", "@id"] cs)
  | some cs => raise .accreditationInvalid
      "accreditation for % has a credentialSubject that is not an object: %" [.str subject, cs]

/-- One of the names must be the accredited DID. -/
def checkName (subject : Str) (name : Str × Json) : Result Unit :=
  raiseIf (name.2.str? != some subject) ⟨.accreditationInvalid,
    "accreditation subject (%) % != accredited DID %", [.str name.1, name.2, .str subject]⟩

/-- `_check_subject_binding(verified, subject)`. -/
def checkSubjectBinding (verified : VcJwt.Verified) (subject : Str) : Result Unit := do
  let names ← subjectNames subject verified.claims verified.credential
  raiseIf names.isEmpty ⟨.accreditationInvalid,
    "accreditation for % names no subject (neither sub nor credentialSubject.id), so it cannot be bound to the accredited DID",
    [.str subject]⟩
  each (checkName subject) names

/-- The arguments of `verify_trust_chain` that stay the same along a walk, and the libraries. The
status-list resolver is known by its calls for each hop. -/
structure Verifier where
  interpreter : Interpreter
  crypto : Crypto
  pyJwt : PyJwt
  zlib : Zlib
  resolver : DidEbsiResolver
  proofSuite : VcJwt.Suite
  resolveStatusList : Option (Nat → Resolver)

namespace Verifier

variable (V : Verifier)

/-- `proof_suite.verify(token, public_key_jwk)`. -/
def verifyToken (token : Str) (jwk : Dict) : Result VcJwt.Verified :=
  VcJwt.verify V.interpreter V.crypto V.pyJwt V.proofSuite token (.obj jwk) {} true

/-- `_verify_accreditation(acc, subject, accreditor, resolver, proof_suite)` at hop `n`. -/
def verifyAccreditation (n : Nat) (acc : Accreditation) (subject accreditor : Str) :
    Result Dict := do
  let token ← orRaise (acc.credentialJwt.filter (!·.isEmpty)) ⟨.accreditationInvalid,
    "no raw accreditation token for %; cannot verify its proof", [.str subject]⟩
  let (iss, kid) ← reraise (VcJwt.peekIssuer token) (·.cls.isa .proofError) .accreditationInvalid
    "accreditation for % is not a readable token: " [.str subject]
  raiseIf (iss != accreditor) ⟨.accreditationInvalid,
    "accreditation issuer % != accreditedBy %", [.str iss, .str accreditor]⟩
  let doc ← reraise (V.resolver.resolve V.crypto n accreditor) (·.cls.isa .didResolutionError)
    .accreditationInvalid "cannot resolve accreditor %: " [.str accreditor]
  let vm ← orRaise (doc.keyByKid kid) ⟨.accreditationInvalid,
    "no verification method % for accreditor %", [kid, .str accreditor]⟩
  let verified ← reraise (V.verifyToken token vm.publicKeyJwk) (·.cls.isa .proofError)
    .accreditationInvalid "accreditation for % failed verification: " [.str subject]
  checkSubjectBinding verified subject
  return verified.credential

/-- The status check of hop `n`, when the caller gave a resolver. -/
def checkAccreditationStatus (n : Nat) (current : Str) (vc : Dict) : Result Unit :=
  match V.resolveStatusList with
  | none => .ok ()
  | some resolve => do
    let status ← reraise (Status.checkCredentialStatus V.zlib vc (resolve n))
      (·.cls.isa .statusListError) .accreditationInvalid
      "the accreditation for % has a credentialStatus that cannot be checked: " [.str current]
    raiseIf status.revoked ⟨.accreditationRevoked,
      "the accreditation for % is revoked via its status list", [.str current]⟩

/-! ## The walk -/

/-- The variables of the loop. -/
structure Walk where
  current : Str
  seen : List Str
  /-- The delegated types, fixed at the leaf. -/
  scope : Option (Finset Str)
  hops : List TrustHop

/-- The registry record of the DID the walk is at. -/
def currentRecord (n : Nat) (current : Str) : Result IssuerRecord :=
  recast (recast (V.resolver.issuerRecord V.interpreter n current) .httpNotFound
      ⟨.noTrustedAnchor, "% is not in the Trusted Issuers Registry", [.str current]⟩)
    .didResolutionError ⟨.noTrustedAnchor, "% is not a did:ebsi identifier", [.str current]⟩

/-- What the walk raises when no accreditation of a record will do. -/
def noAccreditation (record : IssuerRecord) (current : Str) (needed : Finset Str) (leaf : Bool) :
    Err :=
  let note := ineligibleNote record leaf
  if leaf then ⟨.noTrustedAnchor,
    "% has no valid accreditation for the credential's types" ++ note.1, .str current :: note.2⟩
  else ⟨.noTrustedAnchor, "% has no valid accreditation for the delegated types %" ++ note.1,
    .str current :: .arr ((needed.sort (· ≤ ·)).map .str) :: note.2⟩

/-- One iteration up to the appended hop: the hop and the delegated scope. -/
def climb (credentialTypes : List Str) (st : Walk) : Result (TrustHop × Finset Str) := do
  let record ← V.currentRecord st.hops.length st.current
  let needed := st.scope.getD credentialTypes.toFinset
  let acc ← orRaise (pickAccreditation record needed st.scope.isNone)
    (noAccreditation record st.current needed st.scope.isNone)
  let accreditor ← orRaise (acc.tao.filter (!·.isEmpty)) ⟨.accreditationInvalid,
    "accreditation for % names no accreditor (accreditedBy)", [.str st.current]⟩
  let vc ← V.verifyAccreditation st.hops.length acc st.current accreditor
  V.checkAccreditationStatus st.hops.length st.current vc
  return (⟨st.current, accreditor, acc⟩,
    st.scope.getD (acc.credentialTypes.toFinset ∩ credentialTypes.toFinset))

/-- The loop of `verify_trust_chain`, with the iterations left. -/
def walk (subjectDid : Str) (credentialTypes : List Str) (anchors : Finset Str) (maxDepth : Nat) :
    Nat → Walk → Result TrustChain
  | 0, _ => raise .noTrustedAnchor "no trusted anchor within % hops from %"
      [.int maxDepth, .str subjectDid]
  | left + 1, st => do
    let (hop, scope) ← V.climb credentialTypes st
    if hop.accreditor ∈ anchors then
      return ⟨subjectDid, hop.accreditor, st.hops ++ [hop], scope⟩
    else do
      raiseIf (st.seen.contains hop.accreditor) ⟨.trustChainError,
        "accreditation cycle detected at %", [.str hop.accreditor]⟩
      walk subjectDid credentialTypes anchors maxDepth left
        ⟨hop.accreditor, hop.accreditor :: st.seen, some scope, st.hops ++ [hop]⟩

/-- `verify_trust_chain(subject_did, credential_types, anchors, max_depth)`. A negative `max_depth`
iterates as 0 does. -/
def verifyTrustChain (subjectDid : Str) (credentialTypes : List Str) (anchors : Finset Str)
    (maxDepth : Nat) : Result TrustChain :=
  if subjectDid ∈ anchors then .ok ⟨subjectDid, subjectDid, [], credentialTypes.toFinset⟩
  else V.walk subjectDid credentialTypes anchors maxDepth maxDepth ⟨subjectDid, [subjectDid], none, []⟩

end Verifier

end OpenVC.Ebsi
