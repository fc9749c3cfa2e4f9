import Mathlib.Data.List.Lex
import Mathlib.Data.List.Sort
import OpenVC.Errors
import OpenVC.Python.Codec

/-!
# CBOR (`openvc.cbor`)

The definite-length subset of the COSE and mdoc profile, encoded deterministically. A read position
of the decoder is the rest of the input.
-/

namespace OpenVC

open Python

/-- A map key. -/
inductive CborKey where
  | int (n : Int)
  | bytes (b : Bytes)
  | text (s : Str)
  deriving DecidableEq

/-- A decoded item, or one to encode. A tag keeps the bytes it was decoded from; `raw` is a `CborRaw`,
bytes to embed as they are, which the decoder never returns. -/
inductive Cbor where
  | null
  | bool (b : Bool)
  | int (n : Int)
  | bytes (b : Bytes)
  | text (s : Str)
  | arr (l : List Cbor)
  | map (m : List (CborKey × Cbor))
  | tag (tag : Nat) (value : Cbor) (raw : Option Bytes)
  | raw (b : Bytes)

namespace Cbor

/-- `_MAX_DEPTH`. -/
def maxDepth : Nat := 64

/-- The key an item can be. -/
def key? : Cbor → Option CborKey
  | .int n => some (.int n)
  | .bytes b => some (.bytes b)
  | .text s => some (.text s)
  | _ => none

/-- A key in a message. -/
def shownKey : CborKey → Json
  | .int n => .int n
  | .bytes b => .arr (b.map fun x => .int x.toNat)
  | .text s => .str s

/-! ## Encoding -/

/-- A byte of the given number. -/
def byte (n : Nat) : UInt8 := UInt8.ofNat n

/-- `_head(major, n, out)`. -/
def head (major n : Nat) : Result Bytes :=
  if n < 24 then .ok [byte (32 * major + n)]
  else if n < 2 ^ 8 then .ok (byte (32 * major + 24) :: Codec.intToFixed n 1)
  else if n < 2 ^ 16 then .ok (byte (32 * major + 25) :: Codec.intToFixed n 2)
  else if n < 2 ^ 32 then .ok (byte (32 * major + 26) :: Codec.intToFixed n 4)
  else if n < 2 ^ 64 then .ok (byte (32 * major + 27) :: Codec.intToFixed n 8)
  else raise .cborError "integer out of range for 64-bit CBOR" []

/-- An integer: a negative one is encoded by what it falls short of `-1`. -/
def encodeInt : Int → Result Bytes
  | .ofNat n => head 0 n
  | .negSucc n => head 1 n

/-- A byte string. -/
def encodeBytes (b : Bytes) : Result Bytes := do
  let h ← head 2 b.length
  return h ++ b

/-- A text string. -/
def encodeText (s : Str) : Result Bytes := do
  let raw ← orRaise (Codec.encodeUtf8 s) ⟨.valueError, "UnicodeEncodeError", []⟩
  let h ← head 3 raw.length
  return h ++ raw

/-- A map key. -/
def encodeKey : CborKey → Result Bytes
  | .int n => encodeInt n
  | .bytes b => encodeBytes b
  | .text s => encodeText s

/-- The lexicographic order of the encoded keys. -/
def keyLe (x y : Bytes × Result Bytes) : Prop := x.1.map UInt8.toNat ≤ y.1.map UInt8.toNat

instance : DecidableRel keyLe := fun x y =>
  inferInstanceAs (Decidable (x.1.map UInt8.toNat ≤ y.1.map UInt8.toNat))

/-- The sorted entries, one after the other. -/
def joinEntries : List (Bytes × Result Bytes) → Result Bytes
  | [] => .ok []
  | (key, value) :: entries => do
    let v ← value
    let rest ← joinEntries entries
    return key ++ (v ++ rest)

mutual

/-- `encode(obj)`. -/
def encode : Cbor → Result Bytes
  | .null => .ok [0xF6]
  | .bool true => .ok [0xF5]
  | .bool false => .ok [0xF4]
  | .raw b => .ok b
  | .tag n value _ => do
    let h ← head 6 n
    let v ← encode value
    return h ++ v
  | .int n => encodeInt n
  | .bytes b => encodeBytes b
  | .text s => encodeText s
  | .arr l => do
    let h ← head 4 l.length
    let items ← encodeItems l
    return h ++ items
  | .map m => do
    let entries ← encodeEntries m
    let h ← head 5 entries.length
    let body ← joinEntries (entries.insertionSort keyLe)
    return h ++ body

/-- The items of an array, one after the other. -/
def encodeItems : List Cbor → Result Bytes
  | [] => .ok []
  | item :: items => do
    let b ← encode item
    let rest ← encodeItems items
    return b ++ rest

/-- The entries of a map with their keys encoded; the values are encoded in the order of the keys. -/
def encodeEntries : List (CborKey × Cbor) → Result (List (Bytes × Result Bytes))
  | [] => .ok []
  | (key, value) :: entries => do
    let k ← encodeKey key
    let rest ← encodeEntries entries
    return (k, encode value) :: rest

end

/-! ## Decoding -/

/-- The number of bytes of the argument that follow the initial byte. -/
def argumentBytes (info : Nat) : Option Nat :=
  if info = 24 then some 1 else if info = 25 then some 2 else if info = 26 then some 4
  else if info = 27 then some 8 else none

/-- The head of an item: its initial byte, its argument and what follows. -/
structure Head where
  initial : Nat
  argument : Nat
  rest : Bytes

/-- The major type. -/
def Head.major (h : Head) : Nat := h.initial / 32

/-- The additional information. -/
def Head.info (h : Head) : Nat := h.initial % 32

/-- The head whose argument is not in the initial byte. -/
def readArgument (initial : Nat) (data : Bytes) : Result Head := do
  raiseIf (initial % 32 == 31)
    ⟨.cborError, "CBOR: indefinite-length items are not supported", []⟩
  let nbytes ← orRaise (argumentBytes (initial % 32))
    ⟨.cborError, "CBOR: reserved additional-information value", []⟩
  raiseIf (data.length < nbytes) ⟨.cborError, "CBOR: truncated integer/length", []⟩
  return ⟨initial, Codec.intFromBytes (data.take nbytes), data.drop nbytes⟩

/-- `_read_head(data, i)`. -/
def readHead (data : Bytes) : Result Head :=
  match data with
  | [] => raise .cborError "CBOR: truncated (expected an item head)" []
  | ib :: data =>
    if ib.toNat % 32 < 24 then .ok ⟨ib.toNat, ib.toNat % 32, data⟩
    else readArgument ib.toNat data

/-- The first `n` bytes, and what follows. -/
def readBytes (n : Nat) (data : Bytes) (what : String) : Result (Bytes × Bytes) := do
  raiseIf (data.length < n) ⟨.cborError, "CBOR: truncated " ++ what, []⟩
  return (data.take n, data.drop n)

/-- `n` items. -/
def readItems (item : Bytes → Result (Cbor × Bytes)) : Nat → Bytes → Result (List Cbor × Bytes)
  | 0, data => .ok ([], data)
  | n + 1, data => do
    let (v, data) ← item data
    let (vs, data) ← readItems item n data
    return (v :: vs, data)

/-- `n` entries of a map, after those already read. -/
def readEntries (item : Bytes → Result (Cbor × Bytes)) :
    Nat → List (CborKey × Cbor) → Bytes → Result (List (CborKey × Cbor) × Bytes)
  | 0, entries, data => .ok (entries, data)
  | n + 1, entries, data => do
    let (key, data) ← item data
    let (val, data) ← item data
    let key ← orRaise key.key?
      ⟨.cborError, "CBOR: map key must be an integer, byte, or text string", []⟩
    raiseIf (entries.lookup key).isSome ⟨.cborError, "CBOR: duplicate map key %", [shownKey key]⟩
    readEntries item n (entries ++ [(key, val)]) data

/-- The simple values of the profile. -/
def simple (info : Nat) : Result Cbor :=
  if info = 20 then .ok (.bool false)
  else if info = 21 then .ok (.bool true)
  else if info = 22 then .ok .null
  else raise .cborError "CBOR: unsupported simple/float value (additional-info %)" [.int info]

/-- A text string of `n` bytes. -/
def readText (n : Nat) (data : Bytes) : Result (Cbor × Bytes) := do
  let (b, data) ← readBytes n data "text string"
  let text ← orRaise (Codec.decodeUtf8 false b)
    ⟨.cborError, "CBOR: text string is not valid UTF-8: ", []⟩
  return (.text text, data)

/-- The item after a head. -/
def decodeBody (item : Bytes → Result (Cbor × Bytes)) (start : Bytes) (h : Head) :
    Result (Cbor × Bytes) :=
  match h.major with
  | 0 => .ok (.int h.argument, h.rest)
  | 1 => .ok (.int (-1 - h.argument), h.rest)
  | 2 => do
    let (b, data) ← readBytes h.argument h.rest "byte string"
    return (.bytes b, data)
  | 3 => readText h.argument h.rest
  | 4 => do
    let (l, data) ← readItems item h.argument h.rest
    return (.arr l, data)
  | 5 => do
    let (m, data) ← readEntries item h.argument [] h.rest
    return (.map m, data)
  | 6 => do
    let (v, data) ← item h.rest
    return (.tag h.argument v (some (start.take (start.length - data.length))), data)
  | _ => do
    let v ← simple h.info
    return (v, h.rest)

/-- `_decode_at(data, i, depth)`, with the levels left. -/
def decodeAt : Nat → Bytes → Result (Cbor × Bytes)
  | 0, _ => raise .cborError "CBOR: maximum nesting depth exceeded" []
  | left + 1, data => do
    let head ← readHead data
    decodeBody (decodeAt left) data head

/-- `decode(data)`. -/
def decode (data : Bytes) : Result Cbor := do
  let (item, rest) ← decodeAt (maxDepth + 1) data
  raiseIf (!rest.isEmpty) ⟨.cborError, "CBOR: trailing bytes after the top-level item", []⟩
  return item

end Cbor

end OpenVC
