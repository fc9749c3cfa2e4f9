import Mathlib.Logic.Relation
import OpenVC.Python.JsonText

/-!
# Context validation (`openvc.proof._context_validation`)

A signed document must be the compacted form of its own expansion. The comparison folds the two spellings
that compaction treats as one, and compares canonical JSON texts.
-/

namespace OpenVC.ContextValidation

open Python

/-! ## The comparison -/

/-- Whether a list starts with an array. -/
def startsWithArray : List Json → Bool
  | .arr _ :: _ => true
  | _ => false

/-- The items of an array in their place: one that is no array stands for the array, as a property
value. -/
def foldArray (element : Bool) (l items : List Json) : Json :=
  match items with
  | [item] => if !element && !startsWithArray l then item else .arr items
  | _ => .arr items

mutual

/-- `_normalize(value, element)`. -/
def normalize (element : Bool) : Json → Json
  | .arr l => foldArray element l (normalizeList l)
  | .obj [(k, v)] => if k = "id" then normalize element v else .obj [(k, normalize false v)]
  | .obj m => .obj (normalizeMembers m)
  | v => v

/-- `normalize`, over the elements of an array. -/
def normalizeList : List Json → List Json
  | [] => []
  | v :: t => normalize true v :: normalizeList t

/-- `normalize`, over the values of the members. -/
def normalizeMembers : List (Str × Json) → List (Str × Json)
  | [] => []
  | (k, v) :: t => (k, normalize false v) :: normalizeMembers t

end

/-- The text of a value in its place: an element of an array, or the value of a property. -/
def canonicalAt (element : Bool) (v : Json) : Option Str := JsonText.sortedText (normalize element v)

/-- `_canonical(value)`, which takes the value as that of a property; `none` is a `ValueError`. -/
def canonical (v : Json) : Option Str := canonicalAt false v

/-! ## Spellings of one value -/

/-- A change of spelling in a value that is an element of an array, or else the value of a property. -/
inductive Respelled : Bool → Json → Json → Prop
  /-- `[x]` as a property value is `x`, which is no array. -/
  | single {x : Json} (h : ∀ l, x ≠ .arr l) : Respelled false (.arr [x]) x
  /-- An object with only an `id` is that id. -/
  | reference (element : Bool) (x : Json) : Respelled element (.obj [(lit "id", x)]) x
  | order (element : Bool) {m m' : List (Str × Json)} (h : m.Perm m') :
    Respelled element (.obj m) (.obj m')
  /-- A change inside an array is one to an element. -/
  | inArray (element : Bool) {x y : Json} (before after : List Json) (h : Respelled true x y) :
    Respelled element (.arr (before ++ x :: after)) (.arr (before ++ y :: after))
  /-- A change inside an object that is more than a reference is one to a property value. -/
  | inObject (element : Bool) {k : Str} {x y : Json} (before after : List (Str × Json))
    (hk : k = "id" → before ++ after ≠ []) (h : Respelled false x y) :
    Respelled element (.obj (before ++ (k, x) :: after)) (.obj (before ++ (k, y) :: after))

/-- Values that differ by changes of spelling. -/
def SaysTheSame (element : Bool) : Json → Json → Prop := Relation.EqvGen (Respelled element)

/-- What a value refers to: itself, or the `id` of an object that has nothing else. -/
def referent : Json → Json
  | .obj [(k, v)] => if k = "id" then referent v else .obj [(k, v)]
  | v => v

/-- A value that is neither an array nor an object. -/
def IsScalar : Json → Prop
  | .arr _ | .obj _ => False
  | _ => True

end OpenVC.ContextValidation
