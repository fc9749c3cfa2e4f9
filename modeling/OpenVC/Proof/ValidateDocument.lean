import OpenVC.Proof.TermIndex

/-!
# Validating a signed document (`openvc.proof._context_validation`)

The document and its proof must each be the compacted form of their expansion, spelled by the terms of
the served contexts. `pyld` is a parameter; what it raises there is a `ProofMalformed`.
-/

namespace OpenVC

open Python

/-! ## The JSON-LD processor -/

/-- The exceptions of the JSON-LD processor. -/
inductive JsonLdError where
  /-- `pyld` is not installed. -/
  | unavailable
  /-- A `DocumentLoaderError` caused it. -/
  | loader (text : Str)
  | other (text : Str)

/-- `pyld` over the contexts of one document loader. A document is expanded and compacted after
something of it was canonicalized, so that `pyld` is installed then. -/
structure JsonLd where
  /-- `jsonld.normalize(document, …)` to canonical N-Quads. -/
  normalize : Dict → Except JsonLdError Str
  /-- `jsonld.to_rdf(document, …)` to N-Quads. -/
  toRdf : Dict → Except JsonLdError Str
  /-- `URDNA2015().main(parse_nquads(text))`, to N-Quads again. -/
  canonical : Str → Except JsonLdError Str
  /-- `jsonld.expand(document, …)`, or the text of its exception. -/
  expand : Dict → Except Str (List Json)
  /-- `jsonld.compact(expanded, context, …)`, or the text of its exception. -/
  compact : List Json → Json → Except Str Dict
  /-- `loader.contexts`. -/
  contexts : ContextValidation.Served

/-- What an installed `pyld` gave; its error is no `OpenvcError`. -/
def imported {α : Type} : Except Str α → Result α
  | .ok a => .ok a
  | .error text => raise .exception "%" [.str text]

namespace ContextValidation

/-! ## The context -/

/-- `sorted(VC_BASE_CONTEXTS)`. -/
def vcBaseContexts : List Str :=
  ["https://www.w3.org/2018/credentials/v1", "https://www.w3.org/ns/credentials/v2"]

/-- What the object of an inline context holds, if that is a `@vocab` and nothing else. -/
def onlyVocab : Json → Option Json
  | .obj [(k, v)] => if k = "@vocab" then some v else none
  | _ => none

/-- An entry of the context after the first. -/
def checkEntry : Json → Result Unit
  | .str (_ :: _) => .ok ()
  | entry => do
    let vocab ← orRaise (onlyVocab entry) ⟨.proofMalformed,
      "an inline @context object may only carry @vocab; publish other term definitions as a context URL and pass it via extra_contexts",
      []⟩
    raiseIf (!vocab.str?.any isPredicate)
      ⟨.proofMalformed, "an inline @vocab must be an absolute IRI", []⟩

/-- `_check_context(context)`. -/
def checkContext (context : Json) : Result Unit :=
  match entriesOf context with
  | [] => raise .proofMalformed "@context must be a URL or a non-empty array" []
  | first :: rest => do
    raiseIf (context.str?.isNone && context.arr?.isNone)
      ⟨.proofMalformed, "@context must be a URL or a non-empty array", []⟩
    raiseIf (!first.str?.any vcBaseContexts.contains) ⟨.proofMalformed,
      "the first @context entry must be the VC base context (https://www.w3.org/2018/credentials/v1 or https://www.w3.org/ns/credentials/v2)",
      []⟩
    each checkEntry rest

/-- `_is_presentation(document)`. -/
def isPresentation (document : Dict) : Bool :=
  (entriesOf (document.get "type")).any (Json.pyEq (.str "VerifiablePresentation"))

/-- The document without what is verified for itself. -/
def withoutEmbedded (document : Dict) : Dict :=
  if isPresentation document then document.erase "verifiableCredential" else document

/-! ## The compacted form -/

mutual

/-- `_stub_json_literals(value)`. -/
def stubJsonLiterals : Json → Json
  | .arr l => .arr (stubJsonLiteralsList l)
  | .obj m =>
    if isLiteral m then
      .obj (if Json.pyEq (Dict.get m "@type") (.str "@json") then Dict.set m "@value" (.int 0) else m)
    else .obj (stubJsonLiteralsMembers m)
  | v => v

/-- `_stub_json_literals`, over the items of an array. -/
def stubJsonLiteralsList : List Json → List Json
  | [] => []
  | v :: t => stubJsonLiterals v :: stubJsonLiteralsList t

/-- `_stub_json_literals`, over the members of a node. -/
def stubJsonLiteralsMembers : List (Str × Json) → List (Str × Json)
  | [] => []
  | (k, v) :: t => (k, stubJsonLiterals v) :: stubJsonLiteralsMembers t

end

/-- The first of the differing members, by their names. -/
def leastDifference (path : Str) (differences : List (Str × Str)) : Str :=
  (differences.insertionSort fun a b => a.1 ≤ b.1).head?.elim path Prod.snd

mutual

/-- `_first_difference(ours, theirs, path)`. -/
def firstDifference (path : Str) : Json → Json → Str
  | .obj ours, .obj theirs =>
    leastDifference path (memberDifferences path theirs ours ++
      (theirs.filter fun p => !Dict.has ours p.1).map fun p => (p.1, below path p.1))
  | .arr ours, .arr theirs =>
    if ours.length = theirs.length then itemDifference path 0 ours theirs else path
  | _, _ => path

/-- The difference of two arrays, at the first items that differ. -/
def itemDifference (path : Str) (index : Nat) : List Json → List Json → Str
  | a :: ours, b :: theirs =>
    if a.arr?.isSome != b.arr?.isSome then below path (.ofNat index)
    else if canonical a != canonical b then firstDifference (below path (.ofNat index)) a b
    else itemDifference path (index + 1) ours theirs
  | _, _ => path

/-- The differences of the members of an object. -/
def memberDifferences (path : Str) (theirs : Dict) : List (Str × Json) → List (Str × Str)
  | [] => []
  | (k, v) :: t =>
    match Dict.get? theirs k with
    | none => (k, below path k) :: memberDifferences path theirs t
    | some w =>
      if canonical v != canonical w then
        (k, firstDifference (below path k) v w) :: memberDifferences path theirs t
      else memberDifferences path theirs t

end

/-- The top-level node of an expanded document. -/
def onlyNode : List Json → Option Dict
  | [.obj node] => some node
  | _ => none

/-- What `_check_compacted` compares: the expanded node, where the document is not in compacted form,
and what in that form is spelled otherwise than by its term. -/
structure Comparison where
  node : Dict
  difference : Option Str := none
  misspelled : Option Str := none
  hijacked : Option Str := none

/-- The block of `_check_compacted` that is in a `try`. The terms are looked for without the content of
the `@json` literals. -/
def comparison (L : JsonLd) (what : Str) (document : Dict) : Result Comparison := do
  let expanded ← imported (L.expand document)
  let node ← orRaise (onlyNode expanded)
    ⟨.proofMalformed, "the % must describe exactly one top-level node", [.str what]⟩
  checkExpanded what (node.get "@id") true (.obj node)
  let context ← orRaise (document.get? "@context") ⟨.keyError, "'@context'", []⟩
  let compacted ← imported (L.compact expanded context)
  let theirs ← canonicalOrRaise (.obj compacted)
  let ours ← canonicalOrRaise (.obj document)
  if theirs ≠ ours then
    let place :=
      firstDifference [] (normalize false (.obj document)) (normalize false (.obj compacted))
    return { node, difference := some (place.take 200) }
  else
    let stubbed ← imported (L.compact (stubJsonLiteralsList expanded) context)
    let index ← termIndex L.contexts context
    let signed ← signedTypes node
    return { node
             misspelled := misspelledKey index [] (.obj stubbed)
             hijacked := hijackedType index document signed }

/-- `try: … except ProofError: raise except Exception: raise ProofMalformed(…)`. -/
def validating {α : Type} (what : Str) (x : Result α) : Result α :=
  tryExcept x (!·.cls.isa .proofError) fun e =>
    raise .proofMalformed ("cannot validate the %'s JSON-LD form: " ++ e.text) (.str what :: e.args)

/-- `_check_compacted(document, loader, what, indexes)`; an index is built again for the proof. -/
def checkCompacted (L : JsonLd) (what : Str) (document : Dict) : Result Unit := do
  let c ← validating what (comparison L what document)
  raiseIf c.difference.isSome ⟨.proofMalformed,
    "the % is not in compacted form under its @context (at %): a member spelled as an IRI or keyword, a relative IRI, an array nested in an array, or a term no trusted context defines — whose value the signature does not cover",
    [.str what, .str (if c.difference = some [] then [47] else c.difference.getD [])]⟩
  raiseIf c.misspelled.isSome ⟨.proofMalformed,
    "the % spells a property (or a type) a trusted context defines other than by its term (at %): its value does not match the term's definition (an untyped date, a literal for a node, ...), the context defining the term was left out of the @context (or is one the verifier does not serve), the term is an alias an injected context gives a VC base context IRI or one the policy reads, or the IRI is used where its term is not in scope — the member the policy reads would not carry what was signed",
    [.str what, .str ((c.misspelled.getD []).take 200)]⟩
  raiseIf c.hijacked.isSome ⟨.proofMalformed,
    "the %'s type % is a term a trusted context defines, but here it stands for another IRI (an inline @vocab spells a signed type with that term's name): a reader of `type` would take it for a type the signature does not carry",
    [.str what, .str (c.hijacked.getD [])]⟩
  checkStatusInPlace what c.node

end ContextValidation

open ContextValidation

/-- `validate_document(unsecured, proof_config, loader)`. -/
def JsonLd.validateDocument (L : JsonLd) (unsecured proofConfig : Dict) : Result Unit := do
  checkContext (unsecured.get "@context")
  checkCompacted L "document" (withoutEmbedded unsecured)
  checkCompacted L "proof" proofConfig

/-- `missing_types(document, expected, loader)`. -/
def JsonLd.missingTypes (L : JsonLd) (document : Dict) (expected : List Str) : Result (List Str) := do
  let expanded ← tryExcept (imported (L.expand (withoutEmbedded (document.erase "proof"))))
    (fun _ => true) fun e =>
      raise .proofMalformed ("cannot expand the document's types: " ++ e.text) e.args
  let signed ← (onlyNode expanded).elim (.ok []) signedTypes
  let trusted ← trustedIndex L.contexts
  return expected.filter fun name =>
    !(trustedIris trusted name).any fun iri => signed.any (Json.pyEq (.str iri))

end OpenVC
