import OpenVC.Cbor

/-!
# The syntax of CBOR (RFC 8949)

An item of the whole format with the bytes it is written as: arguments of any width, floats, simple
values and items of indefinite length included. The items of the profile have a value; an item with a
part outside it has none.
-/

namespace OpenVC

open Python

/-- The item that a key is. -/
def CborKey.item : CborKey → Cbor
  | .int n => .int n
  | .bytes b => .bytes b
  | .text s => .text s

namespace Cbor

/-- The argument of a head: the additional information, and the bytes of a long one. -/
structure Argument where
  info : Nat
  bytes : Bytes
  wf : info < 24 ∧ bytes = [] ∨ argumentBytes info = some bytes.length

/-- The number that an argument is. -/
def Argument.value (a : Argument) : Nat :=
  if a.info < 24 then a.info else Codec.intFromBytes a.bytes

/-- A head of the major type. -/
def Argument.head (a : Argument) (major : Nat) : Bytes := byte (32 * major + a.info) :: a.bytes

/-- An item as it is written. `special` is a simple value or a float; `indefinite` a string, an array
or a map without a length, by its chunks, its elements, or its keys and values in turn. -/
inductive Wire where
  | uint (a : Argument)
  | nint (a : Argument)
  | bytes (a : Argument) (b : Bytes)
  | text (a : Argument) (b : Bytes)
  | arr (a : Argument) (l : List Wire)
  | map (a : Argument) (m : List (Wire × Wire))
  | tag (a : Argument) (content : Wire)
  | special (a : Argument)
  | indefinite (major : Nat) (l : List Wire)

namespace Wire

mutual

/-- The bytes of an item. -/
def code : Wire → Bytes
  | uint a => a.head 0
  | nint a => a.head 1
  | bytes a b => a.head 2 ++ b
  | text a b => a.head 3 ++ b
  | arr a l => a.head 4 ++ codes l
  | map a m => a.head 5 ++ entryCodes m
  | tag a content => a.head 6 ++ code content
  | special a => a.head 7
  | indefinite major l => byte (32 * major + 31) :: (codes l ++ [0xFF])

/-- The bytes of items, one after the other. -/
def codes : List Wire → Bytes
  | [] => []
  | w :: t => code w ++ codes t

/-- The bytes of the entries of a map. -/
def entryCodes : List (Wire × Wire) → Bytes
  | [] => []
  | (k, v) :: t => code k ++ (code v ++ entryCodes t)

end

mutual

/-- Every length is the number of bytes, elements or entries that follow it. -/
def Written : Wire → Prop
  | bytes a b => b.length = a.value
  | text a b => b.length = a.value
  | arr a l => l.length = a.value ∧ WrittenList l
  | map a m => m.length = a.value ∧ WrittenEntries m
  | tag _ content => Written content
  | indefinite major l => 2 ≤ major ∧ major ≤ 5 ∧ WrittenList l
  | _ => True

/-- `Written`, over a list. -/
def WrittenList : List Wire → Prop
  | [] => True
  | w :: t => Written w ∧ WrittenList t

/-- `Written`, over the entries of a map. -/
def WrittenEntries : List (Wire × Wire) → Prop
  | [] => True
  | (k, v) :: t => (Written k ∧ Written v) ∧ WrittenEntries t

end

/-- The map of the entries, if no key is there twice. -/
def mapOf (m : List (CborKey × Cbor)) : Option Cbor :=
  if (m.map Prod.fst).Nodup then some (.map m) else none

mutual

/-- What an item of the profile stands for; a tag records its own bytes. -/
def value : Wire → Option Cbor
  | uint a => some (.int a.value)
  | nint a => some (.int (-1 - a.value))
  | bytes _ b => some (.bytes b)
  | text _ b => (Codec.decodeUtf8 false b).map .text
  | arr _ l => (values l).map .arr
  | map _ m => (entryValues m).bind mapOf
  | tag a content =>
    (value content).map fun v => .tag a.value v (some (a.head 6 ++ code content))
  | special a => (simple a.info).toOption
  | indefinite _ _ => none

/-- `value`, over a list. -/
def values : List Wire → Option (List Cbor)
  | [] => some []
  | w :: t => (value w).bind fun v => (values t).map (v :: ·)

/-- `value`, over the entries of a map; a key is an integer or a string. -/
def entryValues : List (Wire × Wire) → Option (List (CborKey × Cbor))
  | [] => some []
  | (k, v) :: t => ((value k).bind key?).bind fun key =>
    (value v).bind fun v => (entryValues t).map ((key, v) :: ·)

end

/-! ## Parts -/

/-- The items, each with the position of its first byte when the first is at `i`. -/
def placed (i : Nat) : List Wire → List (Nat × Wire)
  | [] => []
  | w :: t => (i, w) :: placed (i + (code w).length) t

/-- The items that an item is made of, with their positions in it. -/
def parts : Wire → List (Nat × Wire)
  | arr a l => placed (a.head 4).length l
  | map a m => placed (a.head 5).length (m.flatMap fun e => [e.1, e.2])
  | tag a content => [((a.head 6).length, content)]
  | indefinite _ l => placed 1 l
  | _ => []

/-- The item at a path of part numbers, with its position. -/
def at? : List Nat → Wire → Option (Nat × Wire)
  | [], w => some (0, w)
  | k :: path, w => (parts w)[k]?.bind fun (i, u) => (at? path u).map fun (j, x) => (i + j, x)

/-- What the profile has no item for: a length that is not given, a float, and two entries of a map
with keys of one value. -/
inductive Refused : Wire → Prop
  | indefinite (major : Nat) (l : List Wire) : Refused (indefinite major l)
  | float (a : Argument) (hinfo : 25 ≤ a.info) : Refused (special a)
  | duplicate (a : Argument) (m₁ m₂ m₃ : List (Wire × Wire)) (k k' v v' : Wire) (key : CborKey)
      (hk : (value k).bind key? = some key) (hk' : (value k').bind key? = some key) :
      Refused (map a (m₁ ++ (k, v) :: (m₂ ++ (k', v') :: m₃)))

end Wire

/-- The values that a value is made of. -/
def parts : Cbor → List Cbor
  | .arr l => l
  | .map m => m.flatMap fun e => [CborKey.item e.1, e.2]
  | .tag _ v _ => [v]
  | _ => []

/-- The value at a path of part numbers. -/
def at? : List Nat → Cbor → Option Cbor
  | [], v => some v
  | k :: path, v => (parts v)[k]?.bind (at? path)

end Cbor

end OpenVC

/-!
## The CBOR decoder by positions (`openvc.cbor`)

The decoder as the source writes it, with a position in the data that each reader moves on. An index
past the end of the data would raise `IndexError`, and a slice that runs past it is cut off.
-/

namespace OpenVC.Cbor

open Python

/-- `data[i]`. -/
def byteAt (data : Bytes) (i : Nat) : Result UInt8 :=
  orRaise data[i]? ⟨.indexError, "index out of range", []⟩

/-- `data[i:j]`. -/
def slice (data : Bytes) (i j : Nat) : Bytes := (data.take j).drop i

/-- The head after its initial byte: the major type, the argument and the next position. -/
def headFrom (data : Bytes) (i major info : Nat) : Result (Nat × Nat × Nat) := do
  raiseIf (info == 31) ⟨.cborError, "CBOR: indefinite-length items are not supported", []⟩
  let nbytes ← orRaise (argumentBytes info)
    ⟨.cborError, "CBOR: reserved additional-information value", []⟩
  raiseIf (data.length < i + nbytes) ⟨.cborError, "CBOR: truncated integer/length", []⟩
  return (major, Codec.intFromBytes (slice data i (i + nbytes)), i + nbytes)

/-- `_read_head(data, i)`. -/
def readHeadFrom (data : Bytes) (i : Nat) : Result (Nat × Nat × Nat) := do
  raiseIf (data.length ≤ i) ⟨.cborError, "CBOR: truncated (expected an item head)", []⟩
  let ib ← byteAt data i
  if ib.toNat % 32 < 24 then return (ib.toNat / 32, ib.toNat % 32, i + 1)
  else headFrom data (i + 1) (ib.toNat / 32) (ib.toNat % 32)

/-- The `n` bytes at `i`, and the position after them. -/
def readBytesFrom (data : Bytes) (i n : Nat) (what : String) : Result (Bytes × Nat) := do
  raiseIf (data.length < i + n) ⟨.cborError, "CBOR: truncated " ++ what, []⟩
  return (slice data i (i + n), i + n)

/-- A text string of `n` bytes. -/
def readTextFrom (data : Bytes) (i n : Nat) : Result (Cbor × Nat) := do
  let (b, i) ← readBytesFrom data i n "text string"
  let text ← orRaise (Codec.decodeUtf8 false b)
    ⟨.cborError, "CBOR: text string is not valid UTF-8: ", []⟩
  return (.text text, i)

/-- `n` items. -/
def readItemsFrom (item : Nat → Result (Cbor × Nat)) : Nat → Nat → Result (List Cbor × Nat)
  | 0, i => .ok ([], i)
  | n + 1, i => do
    let (v, i) ← item i
    let (vs, i) ← readItemsFrom item n i
    return (v :: vs, i)

/-- `n` entries of a map, after those already read. -/
def readEntriesFrom (item : Nat → Result (Cbor × Nat)) :
    Nat → List (CborKey × Cbor) → Nat → Result (List (CborKey × Cbor) × Nat)
  | 0, entries, i => .ok (entries, i)
  | n + 1, entries, i => do
    let (key, i) ← item i
    let (val, i) ← item i
    let key ← orRaise key.key?
      ⟨.cborError, "CBOR: map key must be an integer, byte, or text string", []⟩
    raiseIf (entries.lookup key).isSome ⟨.cborError, "CBOR: duplicate map key %", [shownKey key]⟩
    readEntriesFrom item n (entries ++ [(key, val)]) i

/-- The simple value whose head is at `start`. -/
def simpleFrom (data : Bytes) (start : Nat) : Result Cbor := do
  let ib ← byteAt data start
  simple (ib.toNat % 32)

/-- The item after a head that ends at `i`. -/
def decodeBodyFrom (data : Bytes) (item : Nat → Result (Cbor × Nat)) (start major n i : Nat) :
    Result (Cbor × Nat) :=
  match major with
  | 0 => .ok (.int n, i)
  | 1 => .ok (.int (-1 - n), i)
  | 2 => do
    let (b, i) ← readBytesFrom data i n "byte string"
    return (.bytes b, i)
  | 3 => readTextFrom data i n
  | 4 => do
    let (l, i) ← readItemsFrom item n i
    return (.arr l, i)
  | 5 => do
    let (m, i) ← readEntriesFrom item n [] i
    return (.map m, i)
  | 6 => do
    let (v, i) ← item i
    return (.tag n v (some (slice data start i)), i)
  | _ => do
    let v ← simpleFrom data start
    return (v, i)

/-- `_decode_at(data, i, depth)`, with the levels left. -/
def decodeFrom (data : Bytes) : Nat → Nat → Result (Cbor × Nat)
  | 0, _ => raise .cborError "CBOR: maximum nesting depth exceeded" []
  | left + 1, start => do
    let (major, n, i) ← readHeadFrom data start
    decodeBodyFrom data (decodeFrom data left) start major n i

/-- `decode(data)`. -/
def decodeData (data : Bytes) : Result Cbor := do
  let (obj, i) ← decodeFrom data (maxDepth + 1) 0
  raiseIf (i != data.length) ⟨.cborError, "CBOR: trailing bytes after the top-level item", []⟩
  return obj

end OpenVC.Cbor
