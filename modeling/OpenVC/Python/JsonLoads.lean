import OpenVC.Python.Codec
import OpenVC.Python.Json

/-!
# `json.loads` on text

The standard library's decoder with its defaults: the constants `NaN`, `Infinity` and `-Infinity`
are accepted, control characters inside a string are refused, a `\u` escape may leave a lone
surrogate, a repeated member name keeps the last value, and an integer longer than 4300 digits is
the interpreter's `ValueError`. Every failure is `none` (`ValueError`).

The recursive descent is on a fuel that starts at the length of the text plus one; each call
consumes a character before it recurses, so the fuel never decides the outcome.
-/

namespace Python.JsonLoads

open Str

/-- The insignificant white space of JSON. -/
def isWs (c : Nat) : Bool := c == 32 || c == 9 || c == 10 || c == 13

/-- Skip white space. -/
def skipWs (s : Str) : Str := s.dropWhile isWs

/-- The value of a hexadecimal digit. -/
def hexVal (c : Nat) : Option Nat :=
  if 48 ≤ c && c ≤ 57 then some (c - 48)
  else if 97 ≤ c && c ≤ 102 then some (c - 87)
  else if 65 ≤ c && c ≤ 70 then some (c - 55)
  else none

/-- The code unit of four hexadecimal digits. -/
def hex4 (a b c d : Nat) : Option Nat := do
  let a ← hexVal a
  let b ← hexVal b
  let c ← hexVal c
  let d ← hexVal d
  return ((a * 16 + b) * 16 + c) * 16 + d

/-- The character a one-letter escape stands for. -/
def unescape (c : Nat) : Option Nat :=
  if c = 34 then some 34 else if c = 92 then some 92 else if c = 47 then some 47
  else if c = 98 then some 8 else if c = 102 then some 12 else if c = 110 then some 10
  else if c = 114 then some 13 else if c = 116 then some 9 else none

/-- Put a decoded character in front of the rest of a string body. -/
def push (c : Nat) (r : Option (Str × Str)) : Option (Str × Str) := r.map fun p => (c :: p.1, p.2)

/-- The body of a string after its opening quote: the decoded text and what follows the closing
quote. A high surrogate joins with a low one escaped right after it. -/
def scanString : Str → Option (Str × Str)
  | [] => none
  | 34 :: t => some ([], t)
  | 92 :: 117 :: a :: b :: c :: d :: 92 :: 117 :: e :: f :: g :: h :: t =>
    match hex4 a b c d with
    | none => none
    | some u =>
      if 0xD800 ≤ u && u ≤ 0xDBFF then
        match hex4 e f g h with
        | none => none
        | some w =>
          if 0xDC00 ≤ w && w ≤ 0xDFFF then
            push (0x10000 + ((u - 0xD800) * 1024 + (w - 0xDC00))) (scanString t)
          else push u (scanString (92 :: 117 :: e :: f :: g :: h :: t))
      else push u (scanString (92 :: 117 :: e :: f :: g :: h :: t))
  | 92 :: 117 :: a :: b :: c :: d :: t =>
    match hex4 a b c d with
    | none => none
    | some u => push u (scanString t)
  | 92 :: c :: t =>
    match unescape c with
    | none => none
    | some u => push u (scanString t)
  | c :: t => if c < 32 then none else push c (scanString t)

/-- The decimal digits at the front of a text and the rest. -/
def spanDigits (s : Str) : Str × Str := (s.takeWhile isDigit, s.dropWhile isDigit)

/-- An exponent at the front of a text, when there is one. -/
def scanExp : Str → Option (Int × Str)
  | e :: t =>
    if e == 101 || e == 69 then
      let (neg, t) := match t with
        | 45 :: t => (true, t)
        | 43 :: t => (false, t)
        | t => (false, t)
      let (ds, rest) := spanDigits t
      if ds.isEmpty then none
      else some (if neg then -(Str.toNat ds : Int) else (Str.toNat ds : Int), rest)
    else none
  | [] => none

/-- A fraction at the front of a text, when there is one. -/
def scanFrac : Str → Option (Str × Str)
  | 46 :: t =>
    let (ds, rest) := spanDigits t
    if ds.isEmpty then none else some (ds, rest)
  | _ => none

/-- The rational a decimal literal denotes. -/
def decimalValue (intPart frac : Str) (exp : Int) : Rat :=
  let m : Nat := Str.toNat (intPart ++ frac)
  let e : Int := exp - frac.length
  if 0 ≤ e then (m * 10 ^ e.toNat : Nat) else mkRat m (10 ^ (-e).toNat)

/-- The interpreter's limit on the digits of an integer literal. -/
def maxStrDigits : Nat := 4300

/-- A number literal after its sign. -/
def scanNumber (neg : Bool) (s : Str) : Option (Json × Str) :=
  let (ds, rest) := match s with
    | 48 :: t => ([48], t)
    | s => spanDigits s
  if ds.isEmpty then none
  else
    match scanFrac rest, scanExp (((scanFrac rest).map Prod.snd).getD rest) with
    | none, none =>
      if maxStrDigits < ds.length then none
      else some (.int (if neg then -(Str.toNat ds : Int) else Str.toNat ds), rest)
    | frac, exp =>
      let q := decimalValue ds ((frac.map Prod.fst).getD []) ((exp.map Prod.fst).getD 0)
      let rest' := (exp.map Prod.snd).getD (((frac.map Prod.snd)).getD rest)
      some (.float (PyFloat.ofRat (if neg then -q else q)), rest')

/-- A value that is neither a string nor a container. -/
def scanAtom (s : Str) : Option (Json × Str) :=
  if (lit "null").isPrefixOf s then some (.null, s.drop 4)
  else if (lit "true").isPrefixOf s then some (.bool true, s.drop 4)
  else if (lit "false").isPrefixOf s then some (.bool false, s.drop 5)
  else if (lit "NaN").isPrefixOf s then some (.float .nan, s.drop 3)
  else if (lit "Infinity").isPrefixOf s then some (.float .posInf, s.drop 8)
  else if (lit "-Infinity").isPrefixOf s then some (.float .negInf, s.drop 9)
  else match s with
    | 45 :: t => scanNumber true t
    | s => scanNumber false s

mutual

/-- `scan_once`: one value at the front of the text. -/
def scanValue : Nat → Str → Option (Json × Str)
  | 0, _ => none
  | n + 1, s =>
    match s with
    | 34 :: t => (scanString t).map fun p => (.str p.1, p.2)
    | 91 :: t =>
      match skipWs t with
      | 93 :: r => some (.arr [], r)
      | r => (scanElements n r).map fun p => (.arr p.1, p.2)
    | 123 :: t =>
      match skipWs t with
      | 125 :: r => some (.obj [], r)
      | r => (scanMembers n r).map fun p => (.obj (Dict.ofPairs p.1), p.2)
    | s => scanAtom s

/-- The elements of an array up to its closing bracket. -/
def scanElements : Nat → Str → Option (List Json × Str)
  | 0, _ => none
  | n + 1, s =>
    match scanValue n s with
    | none => none
    | some (v, r) =>
      match skipWs r with
      | 93 :: r => some ([v], r)
      | 44 :: r => (scanElements n (skipWs r)).map fun p => (v :: p.1, p.2)
      | _ => none

/-- The members of an object up to its closing brace. -/
def scanMembers : Nat → Str → Option (List (Str × Json) × Str)
  | 0, _ => none
  | n + 1, s =>
    match s with
    | 34 :: t =>
      match scanString t with
      | none => none
      | some (k, r) =>
        match skipWs r with
        | 58 :: r =>
          match scanValue n (skipWs r) with
          | none => none
          | some (v, r) =>
            match skipWs r with
            | 125 :: r => some ([(k, v)], r)
            | 44 :: r => (scanMembers n (skipWs r)).map fun p => ((k, v) :: p.1, p.2)
            | _ => none
        | _ => none
    | _ => none

end

/-- `json.loads(s)` for a `str`; a byte order mark is refused. -/
def loads (s : Str) : Option Json :=
  if s.head? = some 0xFEFF then none
  else
    match scanValue (s.length + 1) (skipWs s) with
    | some (v, r) => if (skipWs r).isEmpty then some v else none
    | none => none

/-! ## Bytes -/

/-- Sixteen-bit code units, little endian or big endian; `none` when a byte is left over. -/
def units16 (little : Bool) : Bytes → Option (List Nat)
  | [] => some []
  | [_] => none
  | a :: b :: t =>
    (units16 little t).map
      ((if little then a.toNat + 256 * b.toNat else 256 * a.toNat + b.toNat) :: ·)

/-- The code points of a list of sixteen-bit units, a lone surrogate passed through. -/
def joinSurrogates : List Nat → Str
  | [] => []
  | [u] => [u]
  | u :: w :: t =>
    if 0xD800 ≤ u && u ≤ 0xDBFF && 0xDC00 ≤ w && w ≤ 0xDFFF then
      (0x10000 + ((u - 0xD800) * 1024 + (w - 0xDC00))) :: joinSurrogates t
    else u :: joinSurrogates (w :: t)

/-- `b.decode("utf-16-le"/"utf-16-be", "surrogatepass")`. -/
def decodeUtf16 (little : Bool) (b : Bytes) : Option Str := (units16 little b).map joinSurrogates

/-- `b.decode("utf-32-le"/"utf-32-be", "surrogatepass")`. -/
def decodeUtf32 (little : Bool) : Bytes → Option Str
  | [] => some []
  | a :: b :: c :: d :: t =>
    let u := if little then a.toNat + 256 * (b.toNat + 256 * (c.toNat + 256 * d.toNat))
      else d.toNat + 256 * (c.toNat + 256 * (b.toNat + 256 * a.toNat))
    if 0x10FFFF < u then none else (decodeUtf32 little t).map (u :: ·)
  | _ => none

/-- `b.decode(json.detect_encoding(b), "surrogatepass")`: a byte order mark decides, then the zero
bytes among the first four. -/
def decodeInput (b : Bytes) : Option Str :=
  match b with
  | 0x00 :: 0x00 :: 0xFE :: 0xFF :: t => decodeUtf32 false t
  | 0xFF :: 0xFE :: 0x00 :: 0x00 :: t => decodeUtf32 true t
  | 0xFE :: 0xFF :: t => decodeUtf16 false t
  | 0xFF :: 0xFE :: t => decodeUtf16 true t
  | 0xEF :: 0xBB :: 0xBF :: t => Codec.decodeUtf8 true t
  | b0 :: b1 :: b2 :: b3 :: _ =>
    if b0 = 0 then (if b1 = 0 then decodeUtf32 false b else decodeUtf16 false b)
    else if b1 = 0 then
      (if b2 = 0 && b3 = 0 then decodeUtf32 true b else decodeUtf16 true b)
    else Codec.decodeUtf8 true b
  | [b0, b1] =>
    if b0 = 0 then decodeUtf16 false b else if b1 = 0 then decodeUtf16 true b
    else Codec.decodeUtf8 true b
  | b => Codec.decodeUtf8 true b

/-- `json.loads(b)` for `bytes`. -/
def loadsBytes (b : Bytes) : Option Json :=
  match decodeInput b with
  | some s => loads s
  | none => none

/-! ## What the decoder returns is well formed -/

theorem scanNumber_wf {neg : Bool} {s r : Str} {v : Json} (h : scanNumber neg s = some (v, r)) :
    v.WF := by
  unfold scanNumber at h
  simp only at h
  repeat' split at h
  all_goals cases h <;> trivial

theorem scanAtom_wf {s r : Str} {v : Json} (h : scanAtom s = some (v, r)) : v.WF := by
  unfold scanAtom at h
  repeat' split at h
  all_goals first
    | exact scanNumber_wf h
    | (cases h; trivial)

mutual

theorem scanValue_wf : ∀ (n : Nat) {s r : Str} {v : Json}, scanValue n s = some (v, r) → v.WF
  | 0, _, _, _, h => by simp [scanValue] at h
  | n + 1, s, r, v, h => by
    simp only [scanValue] at h
    split at h
    · obtain ⟨p, _, hp⟩ := Option.map_eq_some_iff.mp h
      cases hp; trivial
    · split at h
      · cases h; trivial
      · obtain ⟨p, he, hp⟩ := Option.map_eq_some_iff.mp h
        cases hp
        exact scanElements_wf n he
    · split at h
      · cases h; exact ⟨List.nodup_nil, trivial⟩
      · obtain ⟨p, he, hp⟩ := Option.map_eq_some_iff.mp h
        cases hp
        exact ⟨Dict.nodup_keys_ofPairs _, Json.wfMembers_ofPairs (scanMembers_wf n he)⟩
    · exact scanAtom_wf h

theorem scanElements_wf : ∀ (n : Nat) {s : Str} {p : List Json × Str},
    scanElements n s = some p → Json.WFList p.1
  | 0, _, _, h => by simp [scanElements] at h
  | n + 1, s, p, h => by
    simp only [scanElements] at h
    split at h
    · cases h
    · rename_i v r hv
      have hwf := scanValue_wf n hv
      split at h
      · cases h; exact ⟨hwf, trivial⟩
      · obtain ⟨q, hq, rfl⟩ := Option.map_eq_some_iff.mp h
        exact ⟨hwf, scanElements_wf n hq⟩
      · cases h

theorem scanMembers_wf : ∀ (n : Nat) {s : Str} {p : List (Str × Json) × Str},
    scanMembers n s = some p → Json.WFMembers p.1
  | 0, _, _, h => by simp [scanMembers] at h
  | n + 1, s, p, h => by
    simp only [scanMembers] at h
    split at h
    · split at h
      · cases h
      · split at h
        · split at h
          · cases h
          · rename_i v r hv
            have hwf := scanValue_wf n hv
            split at h
            · cases h; exact ⟨hwf, trivial⟩
            · obtain ⟨q, hq, rfl⟩ := Option.map_eq_some_iff.mp h
              exact ⟨hwf, scanMembers_wf n hq⟩
            · cases h
        · cases h
    · cases h

end

/-- No object `json.loads` returns has a member name twice. -/
theorem loads_wf {s : Str} {v : Json} (h : loads s = some v) : v.WF := by
  unfold loads at h
  split at h
  · cases h
  · split at h
    · rename_i hv
      split at h
      · cases h; exact scanValue_wf _ hv
      · cases h
    · cases h

theorem loadsBytes_wf {b : Bytes} {v : Json} (h : loadsBytes b = some v) : v.WF := by
  unfold loadsBytes at h
  split at h
  · exact loads_wf h
  · cases h

end Python.JsonLoads

/-!
## `json.loads` that refuses what parsers read differently

The decoder with an `object_pairs_hook` that refuses a repeated member name and a `parse_constant`
that refuses `NaN`, `Infinity` and `-Infinity`. Both raise `ValueError`, as malformed text does.
-/

namespace Python.JsonLoads

/-- A value that is neither a string nor a container; the constants are refused. -/
def strictAtom (s : Str) : Option (Json × Str) :=
  if (lit "NaN").isPrefixOf s || (lit "Infinity").isPrefixOf s || (lit "-Infinity").isPrefixOf s then
    none
  else scanAtom s

/-- The dict of a list of pairs, refused when a name is repeated. -/
def uniquePairs (l : List (Str × Json)) : Option Dict :=
  if (l.map Prod.fst).Nodup then some l else none

mutual

/-- `scan_once`, with the hooks. -/
def strictValue : Nat → Str → Option (Json × Str)
  | 0, _ => none
  | n + 1, s =>
    match s with
    | 34 :: t => (scanString t).map fun p => (.str p.1, p.2)
    | 91 :: t =>
      match skipWs t with
      | 93 :: r => some (.arr [], r)
      | r => (strictElements n r).map fun p => (.arr p.1, p.2)
    | 123 :: t =>
      match skipWs t with
      | 125 :: r => some (.obj [], r)
      | r => (strictMembers n r).bind fun p => (uniquePairs p.1).map fun m => (.obj m, p.2)
    | s => strictAtom s

/-- The elements of an array up to its closing bracket. -/
def strictElements : Nat → Str → Option (List Json × Str)
  | 0, _ => none
  | n + 1, s =>
    match strictValue n s with
    | none => none
    | some (v, r) =>
      match skipWs r with
      | 93 :: r => some ([v], r)
      | 44 :: r => (strictElements n (skipWs r)).map fun p => (v :: p.1, p.2)
      | _ => none

/-- The members of an object up to its closing brace. -/
def strictMembers : Nat → Str → Option (List (Str × Json) × Str)
  | 0, _ => none
  | n + 1, s =>
    match s with
    | 34 :: t =>
      match scanString t with
      | none => none
      | some (k, r) =>
        match skipWs r with
        | 58 :: r =>
          match strictValue n (skipWs r) with
          | none => none
          | some (v, r) =>
            match skipWs r with
            | 125 :: r => some ([(k, v)], r)
            | 44 :: r => (strictMembers n (skipWs r)).map fun p => ((k, v) :: p.1, p.2)
            | _ => none
        | _ => none
    | _ => none

end

/-- `json.loads(s, object_pairs_hook=…, parse_constant=…)` for a `str`. -/
def loadsStrict (s : Str) : Option Json :=
  if s.head? = some 0xFEFF then none
  else
    match strictValue (s.length + 1) (skipWs s) with
    | some (v, r) => if (skipWs r).isEmpty then some v else none
    | none => none

/-- `json.loads(b, object_pairs_hook=…, parse_constant=…)` for `bytes`. -/
def loadsStrictBytes (b : Bytes) : Option Json := (decodeInput b).bind loadsStrict

end Python.JsonLoads
