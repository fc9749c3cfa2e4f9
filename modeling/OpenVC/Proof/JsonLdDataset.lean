import OpenVC.Proof.Skolemize

/-!
# The dataset of an expanded document

What an expanded JSON-LD document states, for documents whose objects are node objects and value objects:
every member of a node object that is no keyword states its values of that node. A node without an
`@id` is known by its number, in the order in which the objects are met.
-/

namespace OpenVC.EcdsaSd

open Python

/-- A node of a dataset. -/
inductive Node
  | iri (value : Str)
  | blank (label : Str)
  | unnamed (number : Nat)
  deriving DecidableEq

/-- What a statement says of its subject. A value object is kept as it is. -/
inductive Object
  | node (node : Node)
  | value (v : Json)

/-- A statement in a graph of the dataset. -/
structure Quad where
  subject : Node
  predicate : Str
  object : Object
  graph : Option Node

def rdfType : Str := "http://www.w3.org/1999/02/22-rdf-syntax-ns#type"

/-- The node of an `@id`, the object's number being `n`. -/
def nodeOf (id : Json) (n : Nat) : Node :=
  match id with
  | .str s => if s.startsWith "_:" then .blank (s.drop 2) else .iri s
  | _ => .unnamed n

/-- What an item of an array stands for. -/
def objectOf : Json → Nat → Option Object
  | .obj m, n =>
    if Dict.has m "@value" then some (.value (.obj m))
    else some (.node (nodeOf (Dict.get m "@id") (n + unnamed (objectsMembers m))))
  | _, _ => none

def itemsList : List Json → Nat → List Object
  | [], _ => []
  | v :: t, n => (objectOf v n).toList ++ itemsList t (n + unnamed (objects false v))

/-- What the items of a member stand for. -/
def itemsOf : Json → Nat → List Object
  | .arr l, n => itemsList l n
  | v, n => (objectOf v n).toList

/-- What a member of a node object states: its types, or its values unless it is another keyword or no
predicate. -/
def memberStatements (graph : Option Node) (subject : Node) (k : Str) (v : Json) (n : Nat) : List Quad :=
  if k = lit "@type" then
    (stringsOf v).map fun t => ⟨subject, rdfType, .node (nodeOf (.str t) 0), graph⟩
  else if k.startsWith "@" || k.startsWith "_:" then []
  else (itemsOf v n).map fun o => ⟨subject, k, o, graph⟩

mutual

/-- The statements of a document. -/
def quads (graph : Option Node) : Json → Nat → List Quad
  | .arr l, n => quadsList graph l n
  | .obj m, n =>
    if Dict.has m "@value" then []
    else quadsMembers graph (nodeOf (Dict.get m "@id") (n + unnamed (objectsMembers m))) m n
  | _, _ => []

def quadsList (graph : Option Node) : List Json → Nat → List Quad
  | [], _ => []
  | v :: t, n => quads graph v n ++ quadsList graph t (n + unnamed (objects false v))

def quadsMembers (graph : Option Node) (subject : Node) : List (Str × Json) → Nat → List Quad
  | [], _ => []
  | (k, v) :: t, n => memberStatements graph subject k v n ++
      (quads (if k = lit "@graph" then some subject else graph) v n ++
        quadsMembers graph subject t (n + unnamed (objects (k == lit "@reverse") v)))

end

/-- The dataset of a document. -/
def dataset (d : Json) : List Quad := quads none d 0

/-! ## Renaming nodes -/

def Object.map (f : Node → Node) : Object → Object
  | .node n => .node (f n)
  | .value v => .value v

def Quad.map (f : Node → Node) (q : Quad) : Quad where
  subject := f q.subject
  predicate := q.predicate
  object := q.object.map f
  graph := q.graph.map f

def Object.nodes : Object → List Node
  | .node n => [n]
  | .value _ => []

/-- The nodes of a statement. -/
def Quad.nodes (q : Quad) : List Node := q.subject :: (q.object.nodes ++ q.graph.toList)

def Node.isIri : Node → Bool
  | .iri _ => true
  | _ => false

/-- The datasets differ in the names of their blank nodes only. -/
def Isomorphic (g g' : List Quad) : Prop :=
  ∃ f : Node → Node, (∀ s, f (.iri s) = .iri s) ∧ (∀ n, (f n).isIri = n.isIri) ∧
    (∀ q ∈ g, ∀ n ∈ q.nodes, ∀ q' ∈ g, ∀ n' ∈ q'.nodes, f n = f n' → n = n') ∧ g' = g.map (Quad.map f)

/-- A skolem IRI taken back. -/
def Node.deskolemize : Node → Node
  | .iri s => if skolemPrefix.isPrefixOf s && s != skolemPrefix then .blank (s.drop 9) else .iri s
  | n => n

/-! ## N-Quads -/

def Node.text : Node → Str
  | .iri s => 60 :: s ++ [62]
  | .blank label => 95 :: 58 :: label
  | .unnamed _ => []

/-- A value object is written as `literal` has it. -/
def Object.text (literal : Json → Str) : Object → Str
  | .node n => n.text
  | .value v => literal v

def graphPart : Option Node → Str
  | some n => n.text ++ [32]
  | none => []

/-- A statement as a line. -/
def Quad.line (literal : Json → Str) (q : Quad) : Str :=
  q.subject.text ++ (32 :: 60 :: q.predicate ++ (62 :: 32 :: (q.object.text literal ++
    (32 :: (graphPart q.graph ++ [46, 10])))))

/-- What the JSON-LD processor writes of a statement: all of it, or nothing when an IRI in it is a
relative one. -/
def Node.kept (absolute : Str → Bool) : Node → Bool
  | .iri s => absolute s
  | _ => true

def Quad.kept (absolute : Str → Bool) (q : Quad) : Bool :=
  absolute q.predicate && q.nodes.all (Node.kept absolute)

/-- The statements of a document that are written. -/
def writtenStatements (absolute : Str → Bool) (d : Json) : List Quad :=
  (dataset d).filter (Quad.kept absolute)

/-- The JSON-LD processor writes this document of node objects and value objects, when it states
nothing of a blank node, as the lines of its statements. -/
def Writes (toRdf : Json → Str) (literal : Json → Str) (absolute : Str → Bool) (d : Json) : Prop :=
  (∀ o ∈ objects false d, o.kind = .node) →
    (∀ q ∈ writtenStatements absolute d, ∀ n ∈ q.nodes, n.isIri = true) →
    ∃ qs : List Quad, (∀ q, q ∈ qs ↔ q ∈ writtenStatements absolute d) ∧
      toRdf d = qs.flatMap (Quad.line literal)

/-- What may be between the angles of an IRI. -/
def NoAngle (s : Str) : Prop := 60 ∉ s ∧ 62 ∉ s

/-- An IRI that `_deskolemize_nquads` takes for the name of a blank node. -/
def SkolemIri (s : Str) : Prop := ∃ x, x ≠ [] ∧ s = skolemPrefix ++ x

/-- The document is one that N-Quads can tell apart from its skolem IRIs: no type is a blank node, the
labels and the IRIs are such, and no literal has the beginning of a skolem IRI in it. -/
structure Lexical (literal : Json → Str) (absolute : Str → Bool) (d : Json) : Prop where
  ids : ∀ o ∈ objects false d, o.id ≠ .str (lit "_:")
  types : ∀ o ∈ objects false d, ∀ x, 95 :: 58 :: x ∉ o.types
  labels : ∀ q ∈ writtenStatements absolute d, ∀ x, .blank x ∈ q.nodes → x ≠ [] ∧ NoAngle x
  iris : ∀ q ∈ writtenStatements absolute d, ∀ s, .iri s ∈ q.nodes → NoAngle s
  predicates : ∀ q ∈ writtenStatements absolute d, NoAngle q.predicate
  values : ∀ q ∈ writtenStatements absolute d, ∀ v, q.object = .value v →
    ¬ 60 :: skolemPrefix <:+: literal v

/-- No IRI in the document is one that stands for a blank node once the document is skolemized. -/
structure SkolemFree (absolute : Str → Bool) (d : Json) : Prop where
  iris : ∀ q ∈ writtenStatements absolute d, ∀ s, .iri s ∈ q.nodes → ¬ SkolemIri s
  predicates : ∀ q ∈ writtenStatements absolute d, ¬ SkolemIri q.predicate

/-- A node as N-Quads have it: an IRI, or a blank node with a label. -/
def Node.Written : Node → Prop
  | .iri _ => True
  | .blank x => x ≠ [] ∧ NoAngle x
  | .unnamed _ => False

/-- The N-Quads of the skolemized document, with the skolem IRIs taken back, are those of a dataset that
differs from the document's in the names of its blank nodes only. -/
def Recovered (toRdf : Json → Str) (literal : Json → Str) (absolute : Str → Bool) (d : Json) : Prop :=
  ∃ g, Isomorphic (writtenStatements absolute d) g ∧ (∀ q ∈ g, ∀ n ∈ q.nodes, n.Written) ∧
    ∃ qs : List Quad, (∀ q, q ∈ qs ↔ q ∈ g) ∧
      deskolemizeNquads 0 (toRdf (skolemize d 0).1) = qs.flatMap (Quad.line literal)

end OpenVC.EcdsaSd
