import OpenVC.Python.Decimal
import OpenVC.Python.JsonLoads

/-!
# `json.dumps`

The standard library's encoder with the separators `(",", ":")`: every character outside the
printable ASCII range is escaped, above the basic plane as a surrogate pair; `NaN` and the infinities
are written by name. An integer of more than 4300 digits is the interpreter's `ValueError`.
-/

namespace Python.JsonDumps

/-- A lower-case hexadecimal digit. -/
def hexDigit (n : Nat) : Nat := if n < 10 then 48 + n else 87 + n

/-- The escape of a sixteen-bit code unit. -/
def escapeUnit (u : Nat) : Str :=
  [92, 117, hexDigit (u / 4096 % 16), hexDigit (u / 256 % 16), hexDigit (u / 16 % 16),
    hexDigit (u % 16)]

/-- One character of a string body. -/
def escapeChar (c : Nat) : Str :=
  if c = 34 then [92, 34] else if c = 92 then [92, 92] else if c = 10 then [92, 110]
  else if c = 13 then [92, 114] else if c = 9 then [92, 116] else if c = 12 then [92, 102]
  else if c = 8 then [92, 98]
  else if 32 ≤ c && c ≤ 126 then [c]
  else if c < 0x10000 then escapeUnit c
  else escapeUnit (0xD800 + (c - 0x10000) / 1024) ++ escapeUnit (0xDC00 + (c - 0x10000) % 1024)

/-- A string. -/
def dumpsStr (s : Str) : Str := 34 :: (s.flatMap escapeChar ++ [34])

/-- An `int`. -/
def dumpsInt (n : Int) : Option Str :=
  if JsonLoads.maxStrDigits < (Str.ofNat n.natAbs).length then none else some (Str.ofInt n)

/-- A `float`. -/
def dumpsFloat : PyFloat → Str
  | .nan => "NaN"
  | .posInf => "Infinity"
  | .negInf => "-Infinity"
  | .fin q => if q = 0 then "0.0" else PyFloat.repr q

mutual

/-- `json.dumps(v, separators=(",", ":"))`; `none` is its `ValueError`. -/
def dumps : Json → Option Str
  | .null => some "null"
  | .bool b => some (if b then "true" else "false")
  | .int n => dumpsInt n
  | .float f => some (dumpsFloat f)
  | .str s => some (dumpsStr s)
  | .arr [] => some "[]"
  | .arr (v :: t) => do
    let first ← dumps v
    let rest ← dumpsElements t
    return 91 :: (first ++ rest)
  | .obj [] => some "\x7b\x7d"
  | .obj ((k, v) :: t) => do
    let first ← dumps v
    let rest ← dumpsMembers t
    return 123 :: (dumpsStr k ++ 58 :: (first ++ rest))

/-- The elements after the first one, and the closing bracket. -/
def dumpsElements : List Json → Option Str
  | [] => some [93]
  | v :: t => do
    let first ← dumps v
    let rest ← dumpsElements t
    return 44 :: (first ++ rest)

/-- The members after the first one, and the closing brace. -/
def dumpsMembers : List (Str × Json) → Option Str
  | [] => some [125]
  | (k, v) :: t => do
    let first ← dumps v
    let rest ← dumpsMembers t
    return 44 :: (dumpsStr k ++ 58 :: (first ++ rest))

end

end Python.JsonDumps
