import OpenVC.Python.Numeral
import OpenVC.Python.Json

/-!
# Skolemization (`openvc.proof.ecdsa_sd`)

`_skolemize` names the blank nodes of an expanded document, `_deskolemize_nquads` takes the names back
from its N-Quads. The counter that the source keeps in a list is passed along here.
-/

namespace OpenVC.EcdsaSd

open Python

/-- `_SKOLEM_PREFIX`. -/
def skolemPrefix : Str := "urn:bnid:"

/-- The name of the blank node that gets the number `n`. -/
def skolemName (n : Nat) : Str := skolemPrefix ++ 98 :: Str.ofNat n

/-- An object with its members done, after `_id = out.get("@id")`. -/
def nameObject (out : Dict) (counter : Nat) : Json × Nat :=
  match Dict.get out "@id" with
  | .null => (.obj (Dict.set out "@id" (.str (skolemName counter))), counter + 1)
  | .str s =>
    if s.startsWith "_:" then (.obj (Dict.set out "@id" (.str (skolemPrefix ++ s.drop 2))), counter)
    else (.obj out, counter)
  | _ => (.obj out, counter)

mutual

/-- `_skolemize(node, counter)`, with the counter after it. -/
def skolemize : Json → Nat → Json × Nat
  | .arr l, counter => (.arr (skolemizeList l counter).1, (skolemizeList l counter).2)
  | .obj m, counter =>
    if Dict.has m "@value" then (.obj m, counter)
    else nameObject (skolemizeMembers m counter).1 (skolemizeMembers m counter).2
  | v, counter => (v, counter)

def skolemizeList : List Json → Nat → List Json × Nat
  | [], counter => ([], counter)
  | v :: t, counter =>
    ((skolemize v counter).1 :: (skolemizeList t (skolemize v counter).2).1,
      (skolemizeList t (skolemize v counter).2).2)

def skolemizeMembers : List (Str × Json) → Nat → List (Str × Json) × Nat
  | [], counter => ([], counter)
  | (k, v) :: t, counter =>
    ((k, (skolemize v counter).1) :: (skolemizeMembers t (skolemize v counter).2).1,
      (skolemizeMembers t (skolemize v counter).2).2)

end

/-- What the pattern of `_deskolemize_nquads` captures at the head of a text. -/
def skolemAt (s : Str) : Option Str :=
  if (60 :: skolemPrefix).isPrefixOf s then
    let rest := s.drop (skolemPrefix.length + 1)
    if rest.contains 62 && rest.head? != some 62 then some (rest.takeWhile (· != 62)) else none
  else none

/-- `_deskolemize_nquads(nquads)`, with `k` characters of the last match still to skip. -/
def deskolemizeNquads : Nat → Str → Str
  | _, [] => []
  | k + 1, _ :: t => deskolemizeNquads k t
  | 0, a :: t =>
    match skolemAt (a :: t) with
    | some label => 95 :: 58 :: label ++ deskolemizeNquads (skolemPrefix.length + label.length + 1) t
    | none => a :: deskolemizeNquads 0 t

/-! ## The objects of an expanded document -/

/-- What an object that is no value object is. -/
inductive Kind
  | node
  | list
  | reverse
  deriving DecidableEq

/-- An object as it is met: what it is, its `@id`, `null` when it has none, and its types. -/
structure Seen where
  kind : Kind
  id : Json
  types : List Str

/-- The strings of a member that is one or an array of them. -/
def stringsOf : Json → List Str
  | .str s => [s]
  | .arr l => l.filterMap Json.str?
  | _ => []

/-- An object as it is seen, `reverse` being whether it is the value of `@reverse`. -/
def seen (reverse : Bool) (m : Dict) : Seen where
  kind := if reverse then .reverse else if Dict.has m "@list" then .list else .node
  id := Dict.get m "@id"
  types := stringsOf (Dict.get m "@type")

mutual

/-- The objects of a document other than the value objects, each after those in it. -/
def objects (reverse : Bool) : Json → List Seen
  | .arr l => objectsList l
  | .obj m => if Dict.has m "@value" then [] else objectsMembers m ++ [seen reverse m]
  | _ => []

def objectsList : List Json → List Seen
  | [] => []
  | v :: t => objects false v ++ objectsList t

def objectsMembers : List (Str × Json) → List Seen
  | [] => []
  | (k, v) :: t => objects (k == lit "@reverse") v ++ objectsMembers t

end

/-- The number of objects without an `@id`. -/
def unnamed (os : List Seen) : Nat := os.countP fun o => o.id matches .null

/-- The object is a blank node: a node object without an `@id`, or with a blank-node identifier for it. -/
def Seen.IsBlankNode (o : Seen) : Prop := o.kind = .node ∧ (o.id = .null ∨ ∃ x, o.id = .str (95 :: 58 :: x))

/-- An `@id` is a string, and only node objects have one. -/
def Expanded (d : Json) : Prop :=
  ∀ o ∈ objects false d, (o.id = .null ∨ ∃ s, o.id = .str s) ∧ (o.kind ≠ .node → o.id = .null)

/-- An object of the document, and the same object once the document is skolemized. -/
def Turns (d : Json) (i : Nat) (o o' : Seen) : Prop :=
  (objects false d)[i]? = some o ∧ (objects false (skolemize d 0).1)[i]? = some o'

/-- Skolemization names the nodes that had no name, and no two alike. -/
structure CollisionFree (d : Json) : Prop where
  /-- An `@id` is added to the node objects that had none. -/
  added : ∀ i o o', Turns d i o o' → (o.id = .null ∧ o'.id ≠ .null ↔ o.kind = .node ∧ o.id = .null)
  /-- Blank nodes have the same name exactly when they are the same. -/
  distinct : ∀ i o o', Turns d i o o' → ∀ j p p', Turns d j p p' → o.IsBlankNode → p.IsBlankNode →
    (o'.id = p'.id ↔ i = j ∨ o.id = p.id ∧ o.id ≠ .null)
  /-- A type is the name of a node where it was. -/
  coreference : ∀ i o o', Turns d i o o' → ∀ j p p', Turns d j p p' → ∀ (k : Nat) (t t' : Str),
    o.types[k]? = some t → o'.types[k]? = some t' → (.str t = p.id ↔ .str t' = p'.id)
  /-- A name that is given was not there, as itself or as a blank node. -/
  fresh : ∀ i o o', Turns d i o o' → o'.id ≠ o.id → ∀ p ∈ objects false d, ∀ x,
    o'.id = .str (skolemPrefix ++ x) → p.id ≠ .str (skolemPrefix ++ x) ∧ skolemPrefix ++ x ∉ p.types ∧
      (o.id = .null → p.id ≠ .str (95 :: 58 :: x) ∧ 95 :: 58 :: x ∉ p.types)

/-- No object lacks an `@id` but nodes, and no name in the document is one that skolemization gives to
another node. -/
structure Clear (d : Json) : Prop where
  nodes : ∀ o ∈ objects false d, o.kind = .node
  labels : ∀ o ∈ objects false d, ∀ n < unnamed (objects false d),
    o.id ≠ .str (95 :: 58 :: 98 :: Str.ofNat n) ∧ 95 :: 58 :: 98 :: Str.ofNat n ∉ o.types ∧
      o.id ≠ .str (skolemName n) ∧ skolemName n ∉ o.types
  names : ∀ o ∈ objects false d, ∀ x, o.id = .str (95 :: 58 :: x) → ∀ p ∈ objects false d,
    95 :: 58 :: x ∉ p.types ∧ p.id ≠ .str (skolemPrefix ++ x) ∧ skolemPrefix ++ x ∉ p.types

end OpenVC.EcdsaSd
