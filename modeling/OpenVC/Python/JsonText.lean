import Mathlib.Data.List.Lex
import Mathlib.Data.List.Sort
import OpenVC.Python.JsonDumps

/-!
# `json.dumps` with sorted names

The standard library's encoder with its default separators and `sort_keys=True`, `ensure_ascii=False`,
`allow_nan=False`: only the quote, the backslash and the control characters are escaped, the members of
every object stand in the order of their names, and a `NaN` or an infinity is a `ValueError`.
-/

namespace Python.JsonText

open JsonDumps

/-- The order of the members: by their names, code point by code point. -/
def keyLe (p q : Str × Json) : Prop := p.1 ≤ q.1

instance : DecidableRel keyLe := fun p q => inferInstanceAs (Decidable (p.1 ≤ q.1))

mutual

/-- The value with the members of its objects in the order of their names. -/
def sorted : Json → Json
  | .arr l => .arr (sortedList l)
  | .obj m => .obj ((sortedMembers m).insertionSort keyLe)
  | v => v

/-- `sorted`, over a list. -/
def sortedList : List Json → List Json
  | [] => []
  | v :: t => sorted v :: sortedList t

/-- `sorted`, over the values of the members. -/
def sortedMembers : List (Str × Json) → List (Str × Json)
  | [] => []
  | (k, v) :: t => (k, sorted v) :: sortedMembers t

end

/-- One character of a string body. -/
def escapeChar (c : Nat) : Str :=
  if c = 34 then [92, 34] else if c = 92 then [92, 92] else if c = 10 then [92, 110]
  else if c = 13 then [92, 114] else if c = 9 then [92, 116] else if c = 12 then [92, 102]
  else if c = 8 then [92, 98]
  else if c < 32 then escapeUnit c else [c]

/-- A string. -/
def textOfStr (s : Str) : Str := 34 :: (s.flatMap escapeChar ++ [34])

/-- A `float`; `none` is the `ValueError` of `allow_nan=False`. -/
def textOfFloat (f : PyFloat) : Option Str := if f.isFinite then some (dumpsFloat f) else none

mutual

/-- `json.dumps(v, ensure_ascii=False, allow_nan=False)`; `none` is its `ValueError`. -/
def text : Json → Option Str
  | .null => some "null"
  | .bool b => some (if b then "true" else "false")
  | .int n => dumpsInt n
  | .float f => textOfFloat f
  | .str s => some (textOfStr s)
  | .arr [] => some "[]"
  | .arr (v :: t) => do
    let first ← text v
    let rest ← textElements t
    return 91 :: (first ++ rest)
  | .obj [] => some "\x7b\x7d"
  | .obj ((k, v) :: t) => do
    let first ← text v
    let rest ← textMembers t
    return 123 :: (textOfStr k ++ 58 :: 32 :: (first ++ rest))

/-- The elements after the first one, and the closing bracket. -/
def textElements : List Json → Option Str
  | [] => some [93]
  | v :: t => do
    let first ← text v
    let rest ← textElements t
    return 44 :: 32 :: (first ++ rest)

/-- The members after the first one, and the closing brace. -/
def textMembers : List (Str × Json) → Option Str
  | [] => some [125]
  | (k, v) :: t => do
    let first ← text v
    let rest ← textMembers t
    return 44 :: 32 :: (textOfStr k ++ 58 :: 32 :: (first ++ rest))

end

/-- `json.dumps(v, sort_keys=True, ensure_ascii=False, allow_nan=False)`. -/
def sortedText (v : Json) : Option Str := text (sorted v)

end Python.JsonText
