import Mathlib.Data.Nat.Bitwise
import OpenVC.Status.StatusList

/-!
# Reading and writing packed lists (`openvc.status.bitstring`, `token_status_list`, `_index`)

The codec with an index and a value as a caller gives them, and the issuer's side: new lists, and the
operations that write an entry in place. A write is the last statement of its function, so one that
raises has written nothing.
-/

namespace OpenVC.Status.Packed

open Python

/-- `status_index(value, field="status index", allow_string=False, capped=False)`. -/
def listIndex (value : Json) : Result Nat := indexValue value "status index" false

/-- `packed_length(size, per_byte)`. -/
def packedLength (size : Json) (perByte : Nat) : Result Nat := do
  let n ← orRaise size.int? ⟨.statusListError, "% must be an integer, got %", [.str "size", size]⟩
  let n ← indexOfInt n "size"
  let length := (n + perByte - 1) / perByte
  raiseIf (maxDecompressedBytes < length) ⟨.statusListError,
    "% % needs a list past the largest openvc decodes (% bytes, % statuses)",
    [.str "size", .int n, .int maxDecompressedBytes, .int (maxDecompressedBytes * perByte)]⟩
  return length

/-- `locate_status(index, per_byte, length, unit)`. -/
def locate (index : Json) (perByte length : Nat) (unit : Str) : Result (Nat × Nat) := do
  let index ← listIndex index
  locateStatus index perByte length unit

/-- `data[i]`. -/
def byteAt (data : Bytes) (i : Nat) : Result Nat :=
  orRaise (data[i]?.map UInt8.toNat) ⟨.indexError, "bytearray index out of range", []⟩

/-- `data[i] = x`. -/
def setByte (data : Bytes) (i x : Nat) : Result Bytes := do
  raiseIf (256 ≤ x) ⟨.valueError, "byte must be in range(0, 256)", []⟩
  raiseIf (data.length ≤ i) ⟨.indexError, "bytearray index out of range", []⟩
  return data.set i (UInt8.ofNat x)

/-! ## The bitstring -/

/-- `new_bitstring(size)`. -/
def newBitstring (size : Json) : Result Bytes := do
  let length ← packedLength size 8
  return List.replicate length 0

/-- `get_status_bit(bits, index)`. -/
def getStatusBit (bits : Bytes) (index : Json) : Result Nat := do
  let (byteIndex, bitIndex) ← locate index 8 bits.length "bit"
  let byte ← byteAt bits byteIndex
  return byte >>> (7 - bitIndex) &&& 1

/-- A byte with a bit of `mask` set or cleared; `x & ~mask` is `Nat.ldiff`. -/
def writeBit (byte mask : Nat) (value : Json) : Nat :=
  if value.truthy then byte ||| mask else byte.ldiff mask

/-- `set_status_bit(bits, index, value)`. -/
def setStatusBit (bits : Bytes) (index value : Json) : Result Bytes := do
  let (byteIndex, bitIndex) ← locate index 8 bits.length "bit"
  let byte ← byteAt bits byteIndex
  setByte bits byteIndex (writeBit byte (1 <<< (7 - bitIndex)) value)

/-! ## The token status list -/

/-- `new_status_list(size, bits)`. -/
def newStatusList (size : Json) (bits : Int) : Result Bytes := do
  let bits ← checkBits bits
  let length ← packedLength size (8 / bits)
  return List.replicate length 0

/-- `get_status(data, index, bits)`. -/
def getStatus (data : Bytes) (index : Json) (bits : Int) : Result Nat := do
  let bits ← checkBits bits
  let (byteIndex, pos) ← locate index (8 / bits) data.length "status"
  let byte ← byteAt data byteIndex
  return byte >>> (pos * bits) &&& (2 ^ bits - 1)

/-- An `int`, which a `bool` is. -/
def plainInt : Json → Option Int
  | .int n => some n
  | .bool b => some (if b then 1 else 0)
  | _ => none

/-- The value that a status of some width is set to. -/
def statusValue (bits : Nat) (value : Json) : Option Nat :=
  ((plainInt value).filter fun v => 0 ≤ v && v ≤ ((2 ^ bits - 1 : Nat) : Int)).map Int.toNat

/-- `set_status(data, index, value, bits)`. -/
def setStatus (data : Bytes) (index value : Json) (bits : Int) : Result Bytes := do
  let bits ← checkBits bits
  let _ ← listIndex index
  let value ← orRaise (statusValue bits value) ⟨.statusListError,
    "status value % does not fit in % bit(s)", [value, .int bits]⟩
  let (byteIndex, pos) ← locate index (8 / bits) data.length "status"
  let byte ← byteAt data byteIndex
  setByte data byteIndex (byte.ldiff ((2 ^ bits - 1) <<< (pos * bits)) ||| value <<< (pos * bits))

/-! ## Operations in sequence -/

/-- An operation on a list. -/
inductive Op where
  | get (index : Json)
  | set (index value : Json)

/-- What an operation comes to. -/
inductive Outcome where
  | value (status : Nat)
  | done
  | raised (cls : ErrorClass)

/-- How a kind of list is read and written. -/
structure Access where
  get : Bytes → Json → Result Nat
  set : Bytes → Json → Json → Result Bytes

/-- The accesses of a bitstring. -/
def bitstring : Access := ⟨getStatusBit, setStatusBit⟩

/-- The accesses of a token status list of some width. -/
def tokenList (bits : Int) : Access :=
  ⟨fun data index => getStatus data index bits, fun data index value => setStatus data index value bits⟩

namespace Access

variable (A : Access)

/-- One operation: what it comes to, and the list after it. -/
def step (data : Bytes) : Op → Outcome × Bytes
  | .get index => match A.get data index with
    | .ok status => (.value status, data)
    | .error e => (.raised e.cls, data)
  | .set index value => match A.set data index value with
    | .ok data => (.done, data)
    | .error e => (.raised e.cls, data)

/-- Operations in order: what each comes to, and the list after the last. -/
def run (data : Bytes) : List Op → List Outcome × Bytes
  | [] => ([], data)
  | op :: ops =>
    let (outcome, data) := A.step data op
    let (outcomes, data) := run data ops
    (outcome :: outcomes, data)

end Access

/-! ## Arrays -/

/-- The position in an array of `n` statuses that an index is. -/
def position (n : Nat) : Json → Option Nat
  | .int i => if 0 ≤ i ∧ i < n then some i.toNat else none
  | _ => none

/-- The position and the status that an assignment writes. -/
def assignment (value : Json → Option Nat) (n : Nat) (index v : Json) : Option (Nat × Nat) :=
  (position n index).bind fun i => (value v).map fun status => (i, status)

/-- An operation on an array, which refuses an index that is no position and a value that is none. -/
def arrayStep (value : Json → Option Nat) (a : List Nat) : Op → Outcome × List Nat
  | .get index => match position a.length index with
    | some i => (.value (a.getD i 0), a)
    | none => (.raised .statusListError, a)
  | .set index v => match assignment value a.length index v with
    | some (i, status) => (.done, a.set i status)
    | none => (.raised .statusListError, a)

/-- Operations on an array in order. -/
def arrayRun (value : Json → Option Nat) (a : List Nat) : List Op → List Outcome × List Nat
  | [] => ([], a)
  | op :: ops =>
    let (outcome, a) := arrayStep value a op
    let (outcomes, a) := arrayRun value a ops
    (outcome :: outcomes, a)

/-- The status at a position after an operation, from the one before it. -/
def statusAfter (value : Json → Option Nat) (n i status : Nat) : Op → Nat
  | .get _ => status
  | .set index v => match assignment value n index v with
    | some (j, written) => if j = i then written else status
    | none => status

/-- The status that the last assignment to a position wrote, `0` before any. -/
def lastSet (value : Json → Option Nat) (n i : Nat) (ops : List Op) : Nat :=
  ops.foldl (statusAfter value n i) 0

/-- The list behaves as an array of `n` statuses, all `0` at first: every operation comes to what it
comes to on the array, each position holds what was last assigned to it, and the length stays. -/
structure BehavesAsArray (A : Access) (value : Json → Option Nat) (n : Nat) (data : Bytes) : Prop where
  outcomes : ∀ ops, (A.run data ops).1 = (arrayRun value (List.replicate n 0) ops).1
  contents : ∀ ops, ∀ i < n,
    A.get (A.run data ops).2 (.int i) = .ok (lastSet value n i ops)
  length : ∀ ops, (A.run data ops).2.length = data.length
  /-- An index is accepted when it is below the capacity, and then only. -/
  accepted : ∀ ops index, (∃ status, A.get (A.run data ops).2 index = .ok status) ↔
    (position n index).isSome
  /-- An assignment is accepted when its index is and its value is a status; else it raises, and the
  list is as it was. -/
  refused : ∀ ops index v, assignment value n index v = none →
    A.step (A.run data ops).2 (.set index v) = (.raised .statusListError, (A.run data ops).2)

/-- The status a bit is set to: the truth of the value. -/
def bitValue (value : Json) : Option Nat := some (if value.truthy then 1 else 0)

end OpenVC.Status.Packed
