import OpenVC.Python.Text

/-!
# N-Quads

The lines of an N-Quads document: a subject, a predicate, an object and perhaps a graph name, with the
blanks between them, the full stop and what follows it. Each term carries the proof that its text is one
that the grammar allows.
-/

namespace OpenVC.NQuads

open Python

/-! ## Characters -/

def isLetter (c : Nat) : Bool := (65 ≤ c && c ≤ 90) || (97 ≤ c && c ≤ 122)

def isHex (c : Nat) : Bool := Str.isDigit c || (65 ≤ c && c ≤ 70) || (97 ≤ c && c ≤ 102)

/-- `PN_CHARS_BASE`. -/
def isPnCharsBase (c : Nat) : Bool :=
  isLetter c || [(0xC0, 0xD6), (0xD8, 0xF6), (0xF8, 0x2FF), (0x370, 0x37D), (0x37F, 0x1FFF),
    (0x200C, 0x200D), (0x2070, 0x218F), (0x2C00, 0x2FEF), (0x3001, 0xD7FF), (0xF900, 0xFDCF),
    (0xFDF0, 0xFFFD), (0x10000, 0xEFFFF)].any fun r => r.1 ≤ c && c ≤ r.2

/-- `PN_CHARS_U`. -/
def isPnCharsU (c : Nat) : Bool := isPnCharsBase c || c == 95 || c == 58

/-- `PN_CHARS`. -/
def isPnChars (c : Nat) : Bool :=
  isPnCharsU c || c == 45 || Str.isDigit c || c == 0xB7 || (0x300 ≤ c && c ≤ 0x36F) ||
    (0x203F ≤ c && c ≤ 0x2040)

/-- A character inside a blank-node label. -/
def isInner (c : Nat) : Bool := isPnChars c || c == 46

/-- A space or a tab. -/
def isBlank (c : Nat) : Bool := c == 32 || c == 9

/-! ## Texts -/

/-- What follows `_:` in a `BLANK_NODE_LABEL`. -/
def isLabelText : Str → Bool
  | [] => false
  | c :: r => (isPnCharsU c || Str.isDigit c) && r.all isInner && (c :: r).getLast? != some 46

/-- What is between the angles of an `IRIREF`. -/
def isIriText : Str → Bool
  | [] => true
  | 92 :: 117 :: a :: b :: c :: d :: r => [a, b, c, d].all isHex && isIriText r
  | 92 :: 85 :: a :: b :: c :: d :: e :: f :: g :: h :: r =>
    [a, b, c, d, e, f, g, h].all isHex && isIriText r
  | c :: r => !(c ≤ 32 || (lit "<>\"\x7b\x7d|^\x60\\").contains c) && isIriText r

/-- What is between the quotes of a `STRING_LITERAL_QUOTE`. -/
def isQuotedText : Str → Bool
  | [] => true
  | 92 :: 117 :: a :: b :: c :: d :: r => [a, b, c, d].all isHex && isQuotedText r
  | 92 :: 85 :: a :: b :: c :: d :: e :: f :: g :: h :: r =>
    [a, b, c, d, e, f, g, h].all isHex && isQuotedText r
  | 92 :: c :: r => (lit "tbnrf\"'\\").contains c && isQuotedText r
  | c :: r => !(c == 34 || c == 92 || c == 10 || c == 13) && isQuotedText r

/-- What follows `@` in a `LANGTAG`. -/
def isLanguage (s : Str) : Bool :=
  match Str.split 45 s with
  | first :: rest => !first.isEmpty && first.all isLetter &&
      rest.all fun part => !part.isEmpty && part.all fun c => isLetter c || Str.isDigit c
  | [] => false

/-- What may follow the full stop of a line. -/
def isTail (s : Str) : Bool :=
  match s.dropWhile isBlank with
  | [] => true
  | c :: comment => c == 35 && comment.all fun c => !(c == 10 || c == 13)

/-! ## Terms -/

/-- A blank node. -/
@[ext] structure BlankNode where
  label : Str
  ok : isLabelText label = true
  deriving DecidableEq

/-- An IRI, as it is written. -/
@[ext] structure Iri where
  value : Str
  ok : isIriText value = true
  deriving DecidableEq

/-- Blanks between terms. -/
@[ext] structure Gap where
  value : Str
  ok : value.all isBlank = true
  deriving DecidableEq

/-- What follows the full stop. -/
@[ext] structure Tail where
  value : Str
  ok : isTail value = true
  deriving DecidableEq

/-- The language or the datatype of a literal. -/
inductive Tag
  | none
  | language (value : Str) (ok : isLanguage value = true)
  | datatype (iri : Iri)
  deriving DecidableEq

/-- A literal, its escapes as they are written. -/
structure Literal where
  value : Str
  ok : isQuotedText value = true
  tag : Tag
  deriving DecidableEq

/-- A term: the object of a line can be any, the subject and the graph name no literal. -/
inductive Term
  | iri (iri : Iri)
  | blank (node : BlankNode)
  | literal (literal : Literal)
  deriving DecidableEq

def BlankNode.text (b : BlankNode) : Str := 95 :: 58 :: b.label

def Iri.text (i : Iri) : Str := 60 :: i.value ++ [62]

def Tag.text : Tag → Str
  | .none => []
  | .language value _ => 64 :: value
  | .datatype iri => 94 :: 94 :: iri.text

def Literal.text (l : Literal) : Str := 34 :: l.value ++ 34 :: l.tag.text

def Term.text : Term → Str
  | .iri i => i.text
  | .blank b => b.text
  | .literal l => l.text

def Term.isBlank : Term → Bool
  | .blank _ => true
  | _ => false

def Term.isLiteral : Term → Bool
  | .literal _ => true
  | _ => false

/-! ## Lines -/

/-- A line of an N-Quads document. The object and the graph name are apart when both are blank nodes,
which would else be one. -/
@[ext] structure Line where
  lead : Gap
  subject : Term
  gap₁ : Gap
  predicate : Iri
  gap₂ : Gap
  object : Term
  gap₃ : Gap
  graph : Option (Term × Gap)
  tail : Tail
  noLiteral : subject.isLiteral = false ∧ ∀ g ∈ graph, g.1.isLiteral = false
  apart : object.isBlank = true → ∀ g ∈ graph, g.1.isBlank = true → gap₃.value ≠ []

/-- The graph name with the blanks after it. -/
def graphText : Option (Term × Gap) → Str
  | some (t, gap) => t.text ++ gap.value
  | none => []

def Line.text (l : Line) : Str :=
  l.lead.value ++ (l.subject.text ++ (l.gap₁.value ++ (l.predicate.text ++ (l.gap₂.value ++
    (l.object.text ++ (l.gap₃.value ++ (graphText l.graph ++ 46 :: l.tail.value)))))))

/-! ## Renaming blank nodes -/

/-- The term with its blank node renamed. -/
def Term.rename (f : BlankNode → BlankNode) : Term → Term
  | .blank b => .blank (f b)
  | t => t

@[simp] theorem Term.isBlank_rename (f : BlankNode → BlankNode) (t : Term) :
    (t.rename f).isBlank = t.isBlank := by cases t <;> rfl

@[simp] theorem Term.isLiteral_rename (f : BlankNode → BlankNode) (t : Term) :
    (t.rename f).isLiteral = t.isLiteral := by cases t <;> rfl

/-- The line with its blank nodes renamed, and all else as it is. -/
def Line.rename (f : BlankNode → BlankNode) (l : Line) : Line where
  lead := l.lead
  subject := l.subject.rename f
  gap₁ := l.gap₁
  predicate := l.predicate
  gap₂ := l.gap₂
  object := l.object.rename f
  gap₃ := l.gap₃
  graph := l.graph.map fun g => (g.1.rename f, g.2)
  tail := l.tail
  noLiteral := by
    refine ⟨by simpa using l.noLiteral.1, fun g hg => ?_⟩
    obtain ⟨g', hg', rfl⟩ := Option.map_eq_some_iff.mp hg
    simpa using l.noLiteral.2 g' hg'
  apart := by
    intro hobject g hg hblank
    obtain ⟨g', hg', rfl⟩ := Option.map_eq_some_iff.mp hg
    exact l.apart (by simpa using hobject) g' hg' (by simpa using hblank)

/-- The blank nodes of a term. -/
def Term.nodes : Term → List BlankNode
  | .blank b => [b]
  | _ => []

/-- The blank nodes of a line, in subject, object and graph position. -/
def Line.nodes (l : Line) : List BlankNode :=
  l.subject.nodes ++ l.object.nodes ++ l.graph.elim [] fun g => g.1.nodes

end OpenVC.NQuads
