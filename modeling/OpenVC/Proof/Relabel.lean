import OpenVC.NQuads
import OpenVC.Proof.EcdsaSd

/-!
# Where the blank-node pattern matches

`_relabel` substitutes by a pattern over whole lines. A line is cut here into its blank nodes and the
stretches between them, and the text of each into what the pattern matches in it and the rest.
-/

namespace OpenVC.EcdsaSd

open Python NQuads

/-! ## The matches in a text -/

/-- A character that the pattern passes over, or what it matches. -/
inductive Segment
  | char (c : Nat)
  | hit (label : Str)
  deriving DecidableEq

def Segment.text : Segment → Str
  | .char c => [c]
  | .hit label => label

/-- The text with its matches, `k` characters of the last one still to skip. -/
def segments : Nat → Str → List Segment
  | _, [] => []
  | k + 1, _ :: t => segments k t
  | 0, a :: t =>
    match labelAt (a :: t) with
    | some label => .hit label :: segments (label.length - 1) t
    | none => .char a :: segments 0 t

/-- The text is a label that the pattern matches as a whole. -/
def IsHit (s : Str) : Prop := labelAt s = some s

/-! ## Label maps -/

/-- A map of blank nodes. -/
abbrev LabelMap := List (BlankNode × BlankNode)

/-- The dict of the map's labels, as `_relabel` gets it. -/
def LabelMap.entries (m : LabelMap) : List (Str × Str) := m.map fun e => (e.1.text, e.2.text)

/-- The name that the map gives a blank node. -/
def LabelMap.node (m : LabelMap) (b : BlankNode) : BlankNode := (List.lookup b m).getD b

/-- `mapping.get(h, h)`. -/
def LabelMap.label (m : LabelMap) (h : Str) : Str := (m.entries.lookup h).getD h

/-! ## The blank nodes of a line, and the rest of it -/

/-- A blank node with the full stop that directly follows it, if one does, or a stretch between blank
nodes. -/
inductive Chunk
  | other (text : Str)
  | node (b : BlankNode) (stop : Bool)

def Chunk.text : Chunk → Str
  | .other t => t
  | .node b stop => b.text ++ if stop then [46] else []

def chunkOf : Term → Chunk
  | .blank b => .node b false
  | t => .other t.text

/-- The end of a line, from its last term on. -/
def endChunks (t : Term) (gap : Gap) (tail : Tail) : List Chunk :=
  match t with
  | .blank b =>
    if gap.value.isEmpty then [.node b true, .other tail.value]
    else [.node b false, .other (gap.value ++ 46 :: tail.value)]
  | t => [.other t.text, .other (gap.value ++ 46 :: tail.value)]

/-- The chunks of a line. -/
def chunks (l : Line) : List Chunk :=
  .other l.lead.value :: chunkOf l.subject ::
    .other (l.gap₁.value ++ (l.predicate.text ++ l.gap₂.value)) ::
    match l.graph with
    | none => endChunks l.object l.gap₃ l.tail
    | some (graph, gap) => chunkOf l.object :: .other l.gap₃.value :: endChunks graph gap l.tail

/-! ## When the pattern finds the blank nodes -/

/-- The map leaves everything alone that the pattern matches in the text. -/
def Untouched (m : LabelMap) (t : Str) : Prop := ∀ h, .hit h ∈ segments 0 t → m.label h = h

/-- Between blank nodes there is nothing that the map changes; a blank node is matched as it is, without
a full stop after it, or the map changes neither it nor what is matched of it. -/
def Chunk.Found (m : LabelMap) : Chunk → Prop
  | .other t => Untouched m t
  | .node b stop => (stop = false ∧ IsHit b.text) ∨
      (m.node b = b ∧ Untouched m (Chunk.node b stop).text)

/-- Of all that the pattern matches in the line, the map changes the blank nodes and nothing else. -/
def Found (m : LabelMap) (l : Line) : Prop := ∀ c ∈ chunks l, c.Found m

end OpenVC.EcdsaSd
