import OpenVC.Errors
import OpenVC.Proof.ContextValidation

/-!
# The walks over the expanded form (`openvc.proof._context_validation`)

A document is checked in its expanded form: `_check_expanded` refuses what the signed dataset would
drop or move out of its object, `_check_status_in_place` a status entry that is described again
elsewhere.
-/

namespace OpenVC.ContextValidation

open Python

/-! ## Terms of the dataset -/

/-- `_REFUSED_KEYWORDS`. -/
def refusedKeywords : List Str := ["@included", "@reverse", "@index", "@direction"]

/-- `_CREDENTIAL_STATUS`. -/
def credentialStatus : Str := "https://www.w3.org/2018/credentials#credentialStatus"

/-- A text without the line break that `$` allows before the end. -/
def beforeLastBreak (s : Str) : Str := if s.getLast? = some 10 then s.dropLast else s

/-- `[A-Za-z]`. -/
def isAsciiLetter (c : Nat) : Bool := (65 ≤ c && c ≤ 90) || (97 ≤ c && c ≤ 122)

/-- `[A-Za-z0-9+-.]`, where `+-.` is a range. -/
def isSchemeChar (c : Nat) : Bool := isAsciiLetter c || Str.isDigit c || (43 ≤ c && c ≤ 46)

/-- The scheme of an IRI, or the `_` of a blank node. -/
def isScheme : Str → Bool
  | [] => false
  | c :: s => (isAsciiLetter c && s.all isSchemeChar) || (c == 95 && s.isEmpty)

/-- `_RDF_IRI.match(value)`: a scheme, a colon and no white space. -/
def matchesRdfIri (value : Str) : Bool :=
  let (scheme, colon, rest) := value.partition 58
  colon && isScheme scheme && !(beforeLastBreak rest).any Str.isSpace

/-- `_is_node_iri(value)`. -/
def isNodeIri : Json → Bool
  | .str s => matchesRdfIri s
  | _ => false

/-- `_is_predicate(value)`. -/
def isPredicate (value : Str) : Bool := !Str.startsWith value "_:" && matchesRdfIri value

/-! ## `_check_expanded` -/

/-- The values `for x in value` binds; `none` is a `TypeError`. -/
def iterated : Json → Option (List Json)
  | .arr l => some l
  | .str s => some (s.map fun c => .str [c])
  | .obj m => some (m.map fun p => .str p.1)
  | _ => none

/-- `value.get("@type", ())`, iterated. -/
def typesOf (m : Dict) : Option (List Json) :=
  match m.get? "@type" with
  | none => some []
  | some v => iterated v

/-- Whether a node object says anything: `set(value) - {"@id"}`. -/
def describes (m : Dict) : Bool := m.any fun p => p.1 != lit "@id"

/-- The keywords that detach statements from their node. -/
def checkKeywords (what : Str) (m : Dict) : Result Unit :=
  each (fun keyword => raiseIf (m.has keyword)
    ⟨.proofMalformed, "the % uses %, which is not accepted", [.str what, .str keyword]⟩)
    refusedKeywords

/-- The id of a node. -/
def checkNodeId (what : Str) (m : Dict) : Result Unit :=
  raiseIf (m.has "@id" && !isNodeIri (m.get "@id"))
    ⟨.proofMalformed, "the % has a node id the signed dataset drops: %", [.str what, m.get "@id"]⟩

/-- The types of a node. -/
def checkTypes (what : Str) (m : Dict) : Result Unit := do
  let types ← orRaise (typesOf m) ⟨.typeError, "% object is not iterable", [m.get "@type"]⟩
  each (fun t => raiseIf (!isNodeIri t)
    ⟨.proofMalformed, "the % has a type the signed dataset drops: %", [.str what, t]⟩) types

/-- A node that is not the top one does not describe the top one. -/
def checkOwnNode (what : Str) (topId : Json) (top : Bool) (m : Dict) : Result Unit :=
  raiseIf (!top && topId.str?.isSome && Json.pyEq (m.get "@id") topId && describes m)
    ⟨.proofMalformed, "the %'s own node % is described again inside the %",
      [.str what, topId, .str what]⟩

/-- What is checked of one node object besides its members. -/
def checkNode (what : Str) (topId : Json) (top : Bool) (m : Dict) : Result Unit := do
  checkNodeId what m
  checkTypes what m
  checkOwnNode what topId top m

/-- A key that is no keyword is a predicate. -/
def checkKey (what key : Str) : Result Unit :=
  raiseIf (!Str.startsWith key "@" && !isPredicate key)
    ⟨.proofMalformed, "the % has a property the signed dataset drops: %", [.str what, .str key]⟩

/-- The members no walk goes into. -/
def isLeafKey (key : Str) : Bool := key == lit "@id" || key == lit "@type"

/-- `"@value" in value`: a literal is data. -/
def isLiteral (m : Dict) : Bool := m.has "@value"

/-- `"@list" in value`. -/
def isListObject (m : Dict) : Bool := m.has "@list"

mutual

/-- `_check_expanded(value, top_id, what, top)`. -/
def checkExpanded (what : Str) (topId : Json) (top : Bool) : Json → Result Unit
  | .arr l => checkExpandedList what topId l
  | .obj m => do
    checkKeywords what m
    if isLiteral m then .ok ()
    else do
      checkNode what topId top m
      checkExpandedMembers what topId m
  | _ => .ok ()

/-- `_check_expanded`, over the items of an array. -/
def checkExpandedList (what : Str) (topId : Json) : List Json → Result Unit
  | [] => .ok ()
  | v :: t => do
    checkExpanded what topId false v
    checkExpandedList what topId t

/-- `_check_expanded`, over the members of a node. -/
def checkExpandedMembers (what : Str) (topId : Json) : List (Str × Json) → Result Unit
  | [] => .ok ()
  | (k, v) :: t => do
    checkKey what k
    if isLeafKey k then checkExpandedMembers what topId t
    else do
      checkExpanded what topId false v
      checkExpandedMembers what topId t

end

/-! ## `_check_status_in_place` -/

/-- The descriptions of the entries: their ids, each with a canonical form. -/
abbrev Entries := List (Str × Str)

/-- `_canonical(value)` as an outcome. -/
def canonicalOrRaise (v : Json) : Result Str :=
  orRaise (canonical v) ⟨.valueError, "Out of range float values are not JSON compliant", []⟩

/-- `entries.setdefault(node_id, set()).add(_canonical(value))`, for a node with an id. -/
def addEntry (m : Dict) (entries : Entries) : Result Entries :=
  match m.get "@id" with
  | .str nodeId => do
    let text ← canonicalOrRaise (.obj m)
    return (nodeId, text) :: entries
  | _ => .ok entries

mutual

/-- `_collect_status_entries(value, entries)`. -/
def collectStatusEntries : Json → Entries → Result Entries
  | .arr l, entries => collectStatusEntriesList l entries
  | .obj m, entries =>
    if isLiteral m then .ok entries
    else if isListObject m then collectStatusEntriesListed m entries
    else addEntry m entries
  | _, entries => .ok entries

/-- `_collect_status_entries`, over the items of an array. -/
def collectStatusEntriesList : List Json → Entries → Result Entries
  | [], entries => .ok entries
  | v :: t, entries => do
    let entries ← collectStatusEntries v entries
    collectStatusEntriesList t entries

/-- `_collect_status_entries(value["@list"], entries)`. -/
def collectStatusEntriesListed : List (Str × Json) → Entries → Result Entries
  | [], entries => .ok entries
  | (k, v) :: t, entries =>
    if k = "@list" then collectStatusEntries v entries else collectStatusEntriesListed t entries

end

/-- Whether an object describes an entry otherwise than as a copy of it. -/
def isMoved (entries : Entries) (m : Dict) (nodeId : Str) : Result Bool :=
  if entries.any (·.1 == nodeId) && describes m then do
    let text ← canonicalOrRaise (.obj m)
    return !entries.contains (nodeId, text)
  else .ok false

/-- `moved.add(node_id)`, for a node object that is no entry itself. -/
def markMoved (entries : Entries) (inStatus : Bool) (m : Dict) (moved : List Str) :
    Result (List Str) :=
  match inStatus, m.get "@id" with
  | false, .str nodeId => do
    let isMoved ← isMoved entries m nodeId
    return if isMoved then nodeId :: moved else moved
  | _, _ => .ok moved

mutual

/-- `_collect_described_elsewhere(value, entries, moved, top, in_status)`. -/
def collectDescribedElsewhere (entries : Entries) (top inStatus : Bool) :
    Json → List Str → Result (List Str)
  | .arr l, moved => collectDescribedElsewhereList entries inStatus l moved
  | .obj m, moved =>
    if isLiteral m then .ok moved
    else if isListObject m then collectDescribedElsewhereListed entries inStatus m moved
    else do
      let moved ← markMoved entries inStatus m moved
      collectDescribedElsewhereMembers entries top m moved
  | _, moved => .ok moved

/-- `_collect_described_elsewhere`, over the items of an array. -/
def collectDescribedElsewhereList (entries : Entries) (inStatus : Bool) :
    List Json → List Str → Result (List Str)
  | [], moved => .ok moved
  | v :: t, moved => do
    let moved ← collectDescribedElsewhere entries false inStatus v moved
    collectDescribedElsewhereList entries inStatus t moved

/-- `_collect_described_elsewhere(value["@list"], entries, moved, in_status)`. -/
def collectDescribedElsewhereListed (entries : Entries) (inStatus : Bool) :
    List (Str × Json) → List Str → Result (List Str)
  | [], moved => .ok moved
  | (k, v) :: t, moved =>
    if k = "@list" then collectDescribedElsewhere entries false inStatus v moved
    else collectDescribedElsewhereListed entries inStatus t moved

/-- `_collect_described_elsewhere`, over the members of a node. -/
def collectDescribedElsewhereMembers (entries : Entries) (top : Bool) :
    List (Str × Json) → List Str → Result (List Str)
  | [], moved => .ok moved
  | (k, v) :: t, moved =>
    if isLeafKey k then collectDescribedElsewhereMembers entries top t moved
    else do
      let moved ← collectDescribedElsewhere entries false (top && k == credentialStatus) v moved
      collectDescribedElsewhereMembers entries top t moved

end

/-- `min(moved)`. -/
def leastOf (moved : List Str) : Str := (moved.insertionSort fun a b => a ≤ b).headD []

/-- The entries that were collected are described nowhere else. -/
def checkNotMoved (what : Str) (node : Dict) (entries : Entries) : Result Unit := do
  let moved ← collectDescribedElsewhere entries true false (.obj node) []
  raiseIf (!moved.isEmpty) ⟨.proofMalformed,
    "the %'s credentialStatus entry % is described outside credentialStatus, where the status check does not read it",
    [.str what, .str (leastOf moved)]⟩

/-- `_check_status_in_place(node, what)`. -/
def checkStatusInPlace (what : Str) (node : Dict) : Result Unit := do
  let entries ← collectStatusEntries (node.get credentialStatus) []
  if entries.isEmpty then .ok () else checkNotMoved what node entries

end OpenVC.ContextValidation
