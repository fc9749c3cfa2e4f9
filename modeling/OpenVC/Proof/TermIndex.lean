import OpenVC.Proof.StatusInPlace

/-!
# The terms of the served contexts (`openvc.proof._context_validation`)

A key or a type of the compacted form that stands for a defined IRI must be one of its terms. The index
of the terms is a union over all contexts that a loader serves, at the top level and scoped; a dict of
sets is the list of its pairs.
-/

namespace OpenVC.ContextValidation

open Python

/-- The values of a key. -/
def valuesAt {α : Type} (pairs : List (Str × α)) (key : Str) : List α :=
  pairs.filterMap fun p => if p.1 = key then some p.2 else none

/-- `key in pairs`. -/
def defines {α : Type} (pairs : List (Str × α)) (key : Str) : Bool := pairs.any (·.1 == key)

/-- `_MAX_CONTEXT_DEPTH`. -/
def maxContextDepth : Nat := 16

/-- `_POLICY_TERMS`. -/
def policyTerms : List (Str × Str) :=
  let cred (name : Str) := (lit "https://www.w3.org/2018/credentials#" ++ name, name)
  let status (name : Str) := (lit "https://www.w3.org/ns/credentials/status#" ++ name, name)
  let statusList2021 (name : Str) := (lit "https://w3id.org/vc/status-list#" ++ name, name)
  [cred "validFrom", cred "validUntil", cred "issuanceDate", cred "expirationDate",
    cred "credentialStatus", cred "credentialSchema",
    ("https://w3id.org/security#expiration", "expires"), status "BitstringStatusListEntry",
    status "statusPurpose", status "statusListIndex", status "statusListCredential",
    statusList2021 "StatusList2021Entry", statusList2021 "statusPurpose",
    statusList2021 "statusListIndex", statusList2021 "statusListCredential"]

/-! ## The context objects -/

/-- `loader.contexts`: the URLs that the loader serves, with the documents. -/
abbrev Served := List (Str × Dict)

/-- `context if isinstance(context, list) else [context]`. -/
def entriesOf : Json → List Json
  | .arr l => l
  | v => [v]

/-- The context objects that were gathered, and the URLs that were seen. -/
structure Gathered where
  objects : List Dict
  seen : List Str

/-- `@import` of a context object, with the step into another context. -/
def gatherImport (step : Json → Gathered → Result Gathered) (m : Dict) (g : Gathered) :
    Result Gathered :=
  match m.get "@import" with
  | .str url => step (.str url) g
  | _ => .ok g

/-- The scoped `@context` of a term definition. -/
def gatherScoped (step : Json → Gathered → Result Gathered) (g : Gathered) (p : Str × Json) :
    Result Gathered :=
  match p.2 with
  | .obj definition =>
    if !Str.startsWith p.1 "@" && !(Dict.get definition "@context").isNull then
      step (Dict.get definition "@context") g
    else .ok g
  | _ => .ok g

/-- An entry of a context. A URL that the loader does not serve defines no term. -/
def gatherEntry (served : Served) (step : Json → Gathered → Result Gathered) (g : Gathered) :
    Json → Result Gathered
  | .str url =>
    if g.seen.contains url then .ok g
    else match served.lookup url with
      | none => .ok { g with seen := url :: g.seen }
      | some document => step (document.get "@context") { g with seen := url :: g.seen }
  | .obj m => do
    let g ← gatherImport step m { g with objects := g.objects ++ [m] }
    m.foldlM (gatherScoped step) g
  | _ => .ok g

/-- `_gather_contexts(context, loader, objects, seen, depth)`, with the levels that are left. -/
def gatherContexts (served : Served) : Nat → Json → Gathered → Result Gathered
  | 0, _, _ => raise .proofMalformed "the @context nests too deeply" []
  | levels + 1, context, g =>
    (entriesOf context).foldlM (gatherEntry served (gatherContexts served levels)) g

/-- `sorted(served)`. -/
def sortedUrls (served : Served) : List Json :=
  ((served.map Prod.fst).insertionSort fun a b => a ≤ b).map .str

/-! ## The IRIs of a term -/

/-- What a definition names: its `@id`, or itself. -/
def targetOf : Json → Json
  | .obj m => Dict.get m "@id"
  | v => v

/-- `_term_targets(term, definitions, vocabs, depth)`, with the step into another name. -/
def termTargets (definitions : List (Str × Json)) (vocabs : List Str) (step : Str → List Str)
    (term : Str) : List Str :=
  let own := if term.contains 58 then step term else vocabs.map (· ++ term)
  (valuesAt definitions term).flatMap fun definition =>
    match targetOf definition with
    | .str target => if target = term then own else step target
    | .null => own
    | _ => []

/-- `_resolve`, of a name with a colon: an absolute IRI, or a compact one over a term. -/
def resolveCompact (definitions : List (Str × Json)) (targets : Str → List Str)
    (target head suffix : Str) : List Str :=
  if suffix.startsWith "//" then [target]
  else
    let resolved := (if defines definitions head then [] else [target]) ++
      (targets head).map (· ++ suffix)
    if resolved.isEmpty then [target] else resolved

/-- `_resolve(target, definitions, vocabs, depth)`, with the levels that are left. -/
def resolve (definitions : List (Str × Json)) (vocabs : List Str) : Nat → Str → List Str
  | 0, _ => []
  | levels + 1, target =>
    let targets := termTargets definitions vocabs (resolve definitions vocabs levels)
    let (head, colon, suffix) := target.partition 58
    if target.startsWith "@" then []
    else if colon then resolveCompact definitions targets target head suffix
    else if defines definitions target then targets target
    else vocabs.map (· ++ target)

/-! ## The index -/

/-- `_TermIndex`, less the memo of its verdicts. -/
structure TermIndex where
  /-- IRIs with the terms that are defined as them. -/
  spellings : List (Str × Str)
  /-- Terms with the IRIs that they are defined as. -/
  iris : List (Str × Str)
  vocabs : List Str
  /-- What follows a `@vocab` in a defined IRI, with the IRI. -/
  suffixes : List (Str × Str)
  typeKeys : List Str
  /-- The spellings of the VC base context. -/
  base : List (Str × Str)

/-- Whether a member of a context object defines a term: no keyword, not nulled out, no reverse
property. -/
def isDefinition (p : Str × Json) : Bool :=
  !Str.startsWith p.1 "@" && !p.2.isNull && !(p.2.obj?.any (Dict.has · "@reverse"))

/-- The name that a definition gives its term; without an `@id`, the term. -/
def definedName (p : Str × Json) : Option Str :=
  match targetOf p.2 with
  | .null => some p.1
  | target => target.str?

/-- `_index_definitions(objects, inline_vocabs)`. -/
def indexDefinitions (objects : List Dict) (inlineVocabs : List Str) : TermIndex :=
  let definitions := objects.flatMap (·.filter isDefinition)
  let written := inlineVocabs ++ objects.filterMap fun m => (m.get "@vocab").str?
  let vocabs := written.flatMap (resolve definitions written (maxContextDepth + 1))
  let iris := definitions.flatMap fun p =>
    ((definedName p).elim [] (resolve definitions vocabs (maxContextDepth + 1))).map (p.1, ·)
  let aliases := definitions.filter fun p => (targetOf p.2).str? == some (lit "@type")
  { spellings := iris.map Prod.swap
    iris := iris
    vocabs := vocabs
    suffixes := []
    typeKeys := lit "@type" :: aliases.map Prod.fst
    base := [] }

/-- A step of `_inline_vocabs`: the `@vocab` in effect, and at each URL the one where it is last
listed. -/
def inlineVocab (state : Option Str × List (Str × Option Str)) :
    Json → Option Str × List (Str × Option Str)
  | .obj m => ((Dict.get m "@vocab").str?, state.2)
  | .str url => (state.1, (url, state.1) :: state.2.filter (·.1 != url))
  | _ => state

/-- `_inline_vocabs(entries)`. -/
def inlineVocabs (entries : List Json) : List Str :=
  let (current, atUrl) := entries.foldl inlineVocab (none, [])
  (current :: atUrl.map Prod.snd).reduceOption

/-- The suffixes of an IRI that follow one of the vocabularies. -/
def suffixesOf (vocabs : List Str) (iri : Str) : List (Str × Str) :=
  (vocabs.filter fun vocab => !vocab.isEmpty && vocab.isPrefixOf iri &&
    vocab.length < iri.length).map fun vocab => (iri.drop vocab.length, iri)

/-- `_term_index(context, loader)`. -/
def termIndex (served : Served) (context : Json) : Result TermIndex := do
  let entries := entriesOf context
  let base ← gatherContexts served (maxContextDepth + 1) (.arr (entries.take 1)) ⟨[], []⟩
  let all ← gatherContexts served (maxContextDepth + 1) (.arr (sortedUrls served)) base
  let index := indexDefinitions all.objects (inlineVocabs entries)
  let spellings := index.spellings ++ policyTerms
  return { index with
    spellings := spellings
    base := (indexDefinitions base.objects []).spellings
    suffixes := spellings.flatMap fun p => suffixesOf index.vocabs p.1 }

/-- `_trusted_index(loader)`. -/
def trustedIndex (served : Served) : Result TermIndex := do
  let all ← gatherContexts served (maxContextDepth + 1) (.arr (sortedUrls served)) ⟨[], []⟩
  return indexDefinitions all.objects []

/-! ## Spellings -/

/-- `_key_iris(key, index)`. -/
def keyIris (index : TermIndex) (key : Str) : List Str :=
  let (head, colon, suffix) := key.partition 58
  if !colon then valuesAt index.iris key ++ valuesAt index.suffixes key
  else if suffix.startsWith "//" then [key]
  else key :: (valuesAt index.iris head).map (· ++ suffix)

/-- The terms by which an IRI may be spelled; none for one that no context defines. -/
def spellingsOf (index : TermIndex) (iri : Str) : List Str :=
  match policyTerms.lookup iri with
  | some policyTerm => [policyTerm]
  | none =>
    let base := valuesAt index.base iri
    if base.isEmpty then valuesAt index.spellings iri else base

/-- `_is_misspelled(spelling, index)`. -/
def isMisspelled (index : TermIndex) (spelling : Str) : Bool :=
  (keyIris index spelling).any fun iri =>
    !(spellingsOf index iri).isEmpty && !(spellingsOf index iri).contains spelling

/-- The same of a key or a type that is no keyword. -/
def isMisspelledName (index : TermIndex) (name : Str) : Bool :=
  !name.startsWith "@" && isMisspelled index name

/-- `f"{path}/{step}"`. -/
def below (path step : Str) : Str := path ++ 47 :: step

/-- The path of the first misspelled type under a key. -/
def misspelledType (index : TermIndex) (path : Str) : Json → Option Str
  | .arr l => (l.zipIdx.find? fun p => p.1.str?.any (isMisspelledName index)).map fun p =>
      below path (.ofNat p.2)
  | v => if v.str?.any (isMisspelledName index) then some path else none

mutual

/-- `_misspelled_key(value, path, index)`. -/
def misspelledKey (index : TermIndex) (path : Str) : Json → Option Str
  | .arr l => misspelledItem index path 0 l
  | .obj m => if isLiteral m then none else misspelledMember index path m
  | _ => none

/-- `_misspelled_key`, over the items of an array. -/
def misspelledItem (index : TermIndex) (path : Str) (position : Nat) : List Json → Option Str
  | [] => none
  | v :: t =>
    match misspelledKey index (below path (.ofNat position)) v with
    | some found => some found
    | none => misspelledItem index path (position + 1) t

/-- `_misspelled_key`, over the members of an object. -/
def misspelledMember (index : TermIndex) (path : Str) : List (Str × Json) → Option Str
  | [] => none
  | (k, v) :: t =>
    if k = "@context" then misspelledMember index path t
    else if isMisspelledName index k then some (below path k)
    else
      match if index.typeKeys.contains k then misspelledType index (below path k) v else none with
      | some found => some found
      | none =>
        match misspelledKey index (below path k) v with
        | some found => some found
        | none => misspelledMember index path t

end

/-- `set(signed) if isinstance(signed, list) else {signed}`, of `node.get("@type", ())`. -/
def signedTypes (node : Dict) : Result (List Json) := do
  let types := (node.get? "@type").elim [] entriesOf
  raiseIf (types.any fun t => t.arr?.isSome || t.obj?.isSome) ⟨.typeError, "unhashable type", []⟩
  return types

/-- `_hijacked_type(document, node, index)`. -/
def hijackedType (index : TermIndex) (document : Dict) (signed : List Json) : Option Str :=
  let values := index.typeKeys.flatMap fun key => entriesOf (document.get key)
  (values.filterMap Json.str?).find? fun value =>
    defines index.iris value &&
      !(valuesAt index.iris value).any fun iri => signed.any (Json.pyEq (.str iri))

/-- `_trusted_iris(name, index)`. -/
def trustedIris (index : TermIndex) (name : Str) : List Str :=
  let (head, colon, suffix) := name.partition 58
  if name.isEmpty || name.startsWith "@" then []
  else if defines index.iris name then valuesAt index.iris name
  else if !colon then index.vocabs.map (· ++ name)
  else if suffix.startsWith "//" then [name]
  else (if defines index.iris head then [] else [name]) ++
    (valuesAt index.iris head).map (· ++ suffix)

end OpenVC.ContextValidation
