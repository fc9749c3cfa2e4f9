import Mathlib.Data.List.Lex
import Mathlib.Data.List.Sort
import OpenVC.Errors
import OpenVC.Logic.Significand
import OpenVC.Python.Codec
import OpenVC.Python.Decimal
import OpenVC.Python.JsonLoads
import OpenVC.Python.JsonSame

/-!
# RFC 8785 canonicalization (`openvc.proof._jcs`)

Object members are ordered by the UTF-16 code units of their names and numbers are written as
ECMAScript does.
-/

namespace OpenVC.Jcs

open Python

/-- The deepest level that is serialised. -/
def maxDepth : Nat := 100

/-- `_code_units(s)`: a code point above the BMP is two units. -/
def codeUnits (s : Str) : List Nat :=
  s.flatMap fun cp =>
    if 0xFFFF < cp then [0xD800 + (cp - 0x10000) / 1024, 0xDC00 + (cp - 0x10000) % 1024] else [cp]

/-- `_SHORT_ESCAPE`: the letter after the backslash. -/
def shortEscape (cp : Nat) : Option Nat :=
  if cp = 0x08 then some 98 else if cp = 0x09 then some 116 else if cp = 0x0A then some 110
  else if cp = 0x0C then some 102 else if cp = 0x0D then some 114 else if cp = 0x22 then some 34
  else if cp = 0x5C then some 92 else none

/-- A lower-case hexadecimal digit. -/
def hexDigit (n : Nat) : Nat := if n < 10 then 48 + n else 87 + n

/-- One character of an escaped string. -/
def escapeChar (cp : Nat) : Str :=
  match shortEscape cp with
  | some c => [92, c]
  | none => if cp < 0x20 then [92, 117, 48, 48, hexDigit (cp / 16), hexDigit (cp % 16)] else [cp]

/-- `_escape_string(s)`. -/
def escapeString (s : Str) : Str := [34] ++ s.flatMap escapeChar ++ [34]

/-- `_assemble_ecmascript(digits, k, n)`. -/
def assembleEcmascript (digits : Str) (k n : Int) : Str :=
  if k ≤ n ∧ n ≤ 21 then digits ++ List.replicate (n - k).toNat 48
  else if 0 < n ∧ n ≤ 21 then digits.take n.toNat ++ [46] ++ digits.drop n.toNat
  else if -6 < n ∧ n ≤ 0 then [48, 46] ++ List.replicate (-n).toNat 48 ++ digits
  else
    let e := n - 1
    let exp := [if 0 ≤ e then 43 else 45] ++ Str.ofNat e.natAbs
    if k = 1 then digits ++ [101] ++ exp
    else digits.take 1 ++ [46] ++ digits.drop 1 ++ [101] ++ exp

/-- `int(s)` of the exponent of a `repr`: an optional sign and digits. -/
def parseExponent : Str → Int
  | 45 :: t => -(Str.toNat t : Int)
  | 43 :: t => Str.toNat t
  | t => Str.toNat t

/-- `_reformat_ecmascript(r)`. -/
def reformatEcmascript (r : Str) : Str :=
  let neg := r.startsWith [45]
  let r := if neg then r.drop 1 else r
  let (mantissa, _, expS) := Str.partition 101 r
  let (intPart, _, fracPart) := Str.partition 46 mantissa
  let combined := intPart ++ fracPart
  let pointPos : Int := intPart.length + (if expS.isEmpty then 0 else parseExponent expS)
  let firstSig := (combined.takeWhile (· = 48)).length
  let stripped := (combined.dropWhile (· = 48)).rdropWhile (· = 48)
  let digits := if stripped.isEmpty then [48] else stripped
  let s := assembleEcmascript digits digits.length (pointPos - firstSig)
  if neg then 45 :: s else s

/-- `_ecmascript_double(d)`. -/
def ecmascriptDouble : PyFloat → Result Str
  | .fin q => if q = 0 then .ok [48] else .ok (reformatEcmascript (PyFloat.repr q))
  | _ => raise .jcsError "NaN / Infinity are not valid JSON numbers" []

/-- `_number(value)` for an `int`. -/
def numberInt (n : Int) : Result Str :=
  if -(2 ^ 53) < n ∧ n < 2 ^ 53 then .ok (Str.ofInt n)
  else
    match PyFloat.ofInt n with
    | some d => ecmascriptDouble d
    | none => raise .jcsError "integer % exceeds the I-JSON number range" [.int n]

/-- The order of object members: by the code units of their names. -/
def memberLe (a b : Str × Result Str) : Prop := codeUnits a.1 ≤ codeUnits b.1

instance : DecidableRel memberLe := fun a b => inferInstanceAs (Decidable (codeUnits a.1 ≤ codeUnits b.1))

/-- The texts of the members in the canonical order. -/
def joinMembers (l : List (Str × Result Str)) : Result (List Str) :=
  collect (fun p => match p.2 with
    | .ok t => .ok (escapeString p.1 ++ [58] ++ t)
    | .error e => .error e) (l.insertionSort memberLe)

mutual

/-- `_serialize(value, depth)`. -/
def serialize (depth : Nat) (value : Json) : Result Str :=
  if maxDepth < depth then
    raise .jcsError "maximum nesting depth % exceeded" [.int maxDepth]
  else
    match value with
    | .null => .ok "null"
    | .bool true => .ok "true"
    | .bool false => .ok "false"
    | .str s => .ok (escapeString s)
    | .int n => numberInt n
    | .float f => ecmascriptDouble f
    | .arr l =>
      match serializeList (depth + 1) l with
      | .ok parts => .ok ([91] ++ List.intercalate [44] parts ++ [93])
      | .error e => .error e
    | .obj m =>
      match joinMembers (serializeMembers (depth + 1) m) with
      | .ok parts => .ok ([123] ++ List.intercalate [44] parts ++ [125])
      | .error e => .error e

/-- The elements of an array, in order. -/
def serializeList (depth : Nat) : List Json → Result (List Str)
  | [] => .ok []
  | v :: t =>
    match serialize depth v with
    | .error e => .error e
    | .ok s =>
      match serializeList depth t with
      | .error e => .error e
      | .ok r => .ok (s :: r)

/-- The members of an object, each with the outcome of serialising its value. -/
def serializeMembers (depth : Nat) : List (Str × Json) → List (Str × Result Str)
  | [] => []
  | (k, v) :: t => (k, serialize depth v) :: serializeMembers depth t

end

/-- `canonicalize(value)`. -/
def canonicalize (value : Json) : Result Bytes := do
  let text ← serialize 0 value
  orRaise (Codec.encodeUtf8 text) ⟨.jcsError, "string contains an unpaired surrogate: ", []⟩

end OpenVC.Jcs

namespace OpenVC

open Python

/-! ## Numbers

`_reformat_ecmascript` on any text, and the layout that ECMA-262 prescribes for `Number::toString`.
-/

namespace Jcs

/-- What follows the exponent mark. -/
def exponentText (r : Str) : Str := (Str.partition 101 r).2.2

/-- The digits that `int` and `str` count against the limit of the interpreter. -/
def digitCount (s : Str) : Nat := (s.filter Str.isDigit).length

/-- `_reformat_ecmascript(r)` with the limit: `int(exp_s)` refuses a longer exponent, and
`str(abs(e))` does not write one. No `repr` of a `float` comes near it. -/
def reformatLimited (r : Str) : Result Str := do
  raiseIf (decide (JsonLoads.maxStrDigits < digitCount (exponentText r)))
    ⟨.valueError, "Exceeds the limit (% digits) for integer string conversion: value has % digits; use sys.set_int_max_str_digits() to increase the limit",
      [.int JsonLoads.maxStrDigits, .int (digitCount (exponentText r))]⟩
  let s := reformatEcmascript r
  raiseIf (decide (JsonLoads.maxStrDigits < digitCount (exponentText s)))
    ⟨.valueError, "Exceeds the limit (% digits) for integer string conversion; use sys.set_int_max_str_digits() to increase the limit",
      [.int JsonLoads.maxStrDigits]⟩
  .ok s

end Jcs

namespace Ecma

/-- Whether a number with its point at `n` is written without an exponent. -/
def Positional (n : Int) : Prop := -6 < n ∧ n ≤ 21

instance (n : Int) : Decidable (Positional n) := inferInstanceAs (Decidable (_ ∧ _))

/-- `Number::toString` for the `k` digits `s` with the point after the first `n`. -/
def layout (s k : Nat) (n : Int) : Str :=
  let digits := Str.ofNat s
  if Positional n then
    if k ≤ n then digits ++ List.replicate (n - k).toNat 48
    else if 0 < n then digits.take n.toNat ++ [46] ++ digits.drop n.toNat
    else [48, 46] ++ List.replicate (-n).toNat 48 ++ digits
  else
    let exponent := [101, if n < 0 then 45 else 43] ++ Str.ofNat (n - 1).natAbs
    if k = 1 then digits ++ exponent else digits.take 1 ++ [46] ++ digits.drop 1 ++ exponent

/-- `Number::toString` for a number other than zero. -/
def numberToString (q : Rat) (s k : Nat) (n : Int) : Str :=
  if q < 0 then 45 :: layout s k n else layout s k n

end Ecma

end OpenVC

/-!
## What a canonical text stands for

Of the values that are equal up to the order of their members, the representative that has the members
of every object in the order of their UTF-16 code units.
-/

namespace OpenVC.Jcs

open Python

/-- A Unicode scalar value: a code point that is not a surrogate. -/
def IsScalar (c : Nat) : Prop := c < 0x110000 ∧ ¬ (0xD800 ≤ c ∧ c ≤ 0xDFFF)

/-- A text without surrogates. -/
def IsUnicode (s : Str) : Prop := ∀ c ∈ s, IsScalar c

/-- The order of the members: by the code units of their names. -/
def nameLe (p q : Str × Json) : Prop := codeUnits p.1 ≤ codeUnits q.1

instance : DecidableRel nameLe := fun p q => inferInstanceAs (Decidable (codeUnits p.1 ≤ codeUnits q.1))

mutual

/-- The value with the members of its objects in the canonical order. -/
def ordered : Json → Json
  | .arr l => .arr (orderedList l)
  | .obj m => .obj ((orderedMembers m).insertionSort nameLe)
  | v => v

/-- `ordered`, over a list. -/
def orderedList : List Json → List Json
  | [] => []
  | v :: t => ordered v :: orderedList t

/-- `ordered`, over the values of the members. -/
def orderedMembers : List (Str × Json) → List (Str × Json)
  | [] => []
  | (k, v) :: t => (k, ordered v) :: orderedMembers t

end

mutual

/-- The members of every object stand in the order of their code units. -/
def InOrder : Json → Prop
  | .arr l => InOrderList l
  | .obj m => (m.map fun p => codeUnits p.1).Pairwise (· < ·) ∧ InOrderMembers m
  | _ => True

/-- `InOrder`, over a list. -/
def InOrderList : List Json → Prop
  | [] => True
  | v :: t => InOrder v ∧ InOrderList t

/-- `InOrder`, over the values of the members. -/
def InOrderMembers : List (Str × Json) → Prop
  | [] => True
  | (_, v) :: t => InOrder v ∧ InOrderMembers t

end

mutual

/-- A value without floats, its integers in the safe range and no member name twice. -/
def Safe : Json → Prop
  | .int n => -(2 ^ 53) < n ∧ n < 2 ^ 53
  | .float _ => False
  | .arr l => SafeList l
  | .obj m => (m.map Prod.fst).Nodup ∧ SafeMembers m
  | _ => True

/-- `Safe`, over a list. -/
def SafeList : List Json → Prop
  | [] => True
  | v :: t => Safe v ∧ SafeList t

/-- `Safe`, over the values of the members. -/
def SafeMembers : List (Str × Json) → Prop
  | [] => True
  | (_, v) :: t => Safe v ∧ SafeMembers t

end

mutual

/-- No string and no member name has a surrogate. -/
def Encodable : Json → Prop
  | .str s => IsUnicode s
  | .arr l => EncodableList l
  | .obj m => EncodableMembers m
  | _ => True

/-- `Encodable`, over a list. -/
def EncodableList : List Json → Prop
  | [] => True
  | v :: t => Encodable v ∧ EncodableList t

/-- `Encodable`, over the members of an object. -/
def EncodableMembers : List (Str × Json) → Prop
  | [] => True
  | (k, v) :: t => (IsUnicode k ∧ Encodable v) ∧ EncodableMembers t

end

mutual

/-- How many containers are nested inside the value, itself not counted. -/
def height : Json → Nat
  | .arr l => heightList l
  | .obj m => heightMembers m
  | _ => 0

/-- The levels below a list. -/
def heightList : List Json → Nat
  | [] => 0
  | v :: t => max (height v + 1) (heightList t)

/-- The levels below the members of an object. -/
def heightMembers : List (Str × Json) → Nat
  | [] => 0
  | (_, v) :: t => max (height v + 1) (heightMembers t)

end

end OpenVC.Jcs
