import Mathlib.Data.Nat.Digits.Defs
import OpenVC.Errors
import OpenVC.Python.Codec

/-!
# Base58btc multibase and multicodec varints (`openvc.multibase`)
-/

namespace OpenVC.Multibase

open Python

/-- The base58btc (Bitcoin) alphabet. -/
def b58 : Str := "123456789ABCDEFGHJKLMNPQRSTUVWXYZabcdefghijkmnopqrstuvwxyz"

/-- The longest base58 input that is decoded. -/
def maxB58Len : Nat := 4096

/-- The longest multicodec varint. -/
def maxVarintBytes : Nat := 9

/-- `_B58_INDEX[ch]`. -/
def b58Index (ch : Nat) : Option Nat := if ch ∈ b58 then some (b58.idxOf ch) else none

/-- The digit loop of `b58btc_decode`. -/
def b58Value (num : Nat) : Str → Result Nat
  | [] => .ok num
  | ch :: t =>
    match b58Index ch with
    | some d => b58Value (num * 58 + d) t
    | none => raise .multibaseError "invalid base58 character %" [.str [ch]]

/-- `b58btc_decode(s)`: leading `1`s map to leading NUL bytes. -/
def b58btcDecode (s : Str) : Result Bytes := do
  raiseIf (maxB58Len < s.length)
    ⟨.multibaseError, "base58 input too long (% > %)", [.int s.length, .int maxB58Len]⟩
  let num ← b58Value 0 s
  return List.replicate (s.takeWhile (· = 49)).length 0 ++ Codec.intToBytes num

/-- `b58btc_encode(data)`: leading NUL bytes map to leading `1`s. -/
def b58btcEncode (data : Bytes) : Str :=
  List.replicate (data.takeWhile (· = 0)).length 49 ++
    ((Nat.digits 58 (Codec.intFromBytes data)).map fun d => b58.getD d 0).reverse

/-- `decode_multibase(value)`. -/
def decodeMultibase (value : Str) : Result Bytes := do
  raiseIf (!value.startsWith "z")
    ⟨.multibaseError, "unsupported multibase prefix in % (want 'z')", [.str (value.take 1)]⟩
  b58btcDecode (value.drop 1)

/-- The loop of `read_varint`, at byte `i`. -/
def readVarintLoop (result shift i : Nat) : Bytes → Result (Nat × Nat)
  | [] => raise .multibaseError "truncated multicodec varint" []
  | byte :: t =>
    if maxVarintBytes ≤ i then raise .multibaseError "multicodec varint too long" []
    else
      let result := result ||| ((byte.toNat &&& 0x7F) <<< shift)
      if byte.toNat &&& 0x80 = 0 then .ok (result, i + 1)
      else readVarintLoop result (shift + 7) (i + 1) t

/-- `read_varint(data)`: an unsigned LEB128 value and the number of bytes it takes. -/
def readVarint (data : Bytes) : Result (Nat × Nat) := readVarintLoop 0 0 0 data

end OpenVC.Multibase
