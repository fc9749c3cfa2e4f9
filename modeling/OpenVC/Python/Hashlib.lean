import Mathlib.Algebra.Group.Nat.Defs
import OpenVC.Python.Text

/-!
# `hashlib.sha256`

SHA-256 (FIPS 180-4) on words kept as natural numbers below `2 ^ 32`, with the message and the window
of its schedule as one number each. The library takes the hash as a parameter; this is the function
that parameter stands for. The operations are those that are computed on numerals, so that a digest
can be evaluated.
-/

namespace Python.Hashlib

/-- The round constants. -/
def roundConstants : List Nat :=
  [0x428a2f98, 0x71374491, 0xb5c0fbcf, 0xe9b5dba5, 0x3956c25b, 0x59f111f1, 0x923f82a4, 0xab1c5ed5,
   0xd807aa98, 0x12835b01, 0x243185be, 0x550c7dc3, 0x72be5d74, 0x80deb1fe, 0x9bdc06a7, 0xc19bf174,
   0xe49b69c1, 0xefbe4786, 0x0fc19dc6, 0x240ca1cc, 0x2de92c6f, 0x4a7484aa, 0x5cb0a9dc, 0x76f988da,
   0x983e5152, 0xa831c66d, 0xb00327c8, 0xbf597fc7, 0xc6e00bf3, 0xd5a79147, 0x06ca6351, 0x14292967,
   0x27b70a85, 0x2e1b2138, 0x4d2c6dfc, 0x53380d13, 0x650a7354, 0x766a0abb, 0x81c2c92e, 0x92722c85,
   0xa2bfe8a1, 0xa81a664b, 0xc24b8b70, 0xc76c51a3, 0xd192e819, 0xd6990624, 0xf40e3585, 0x106aa070,
   0x19a4c116, 0x1e376c08, 0x2748774c, 0x34b0bcb5, 0x391c0cb3, 0x4ed8aa4a, 0x5b9cca4f, 0x682e6ff3,
   0x748f82ee, 0x78a5636f, 0x84c87814, 0x8cc70208, 0x90befffa, 0xa4506ceb, 0xbef9a3f7, 0xc67178f2]

/-- The eight working words. -/
structure Words where
  a : Nat
  b : Nat
  c : Nat
  d : Nat
  e : Nat
  f : Nat
  g : Nat
  h : Nat

/-- The initial hash value. -/
def initial : Words :=
  ⟨0x6a09e667, 0xbb67ae85, 0x3c6ef372, 0xa54ff53a, 0x510e527f, 0x9b05688c, 0x1f83d9ab, 0x5be0cd19⟩

/-- `f n`, for a number that is computed before it is used. -/
def computed {α : Type} (n : Nat) (f : Nat → α) : α :=
  match n with
  | 0 => f 0
  | n + 1 => f n.succ

/-- The low 32 bits. -/
def low (n : Nat) : Nat := n.land 0xffffffff

/-- Rotation to the right of a 32-bit word. -/
def rotr (x n : Nat) : Nat := low ((x.shiftRight n).lor (x.shiftLeft (Nat.sub 32 n)))

/-- One round with its constant and its word of the message schedule. -/
def round (s : Words) (k w : Nat) : Words :=
  let s1 := ((rotr s.e 6).xor (rotr s.e 11)).xor (rotr s.e 25)
  let ch := (s.e.land s.f).xor ((s.e.xor 0xffffffff).land s.g)
  let s0 := ((rotr s.a 2).xor (rotr s.a 13)).xor (rotr s.a 22)
  let maj := ((s.a.land s.b).xor (s.a.land s.c)).xor (s.b.land s.c)
  computed ((((s.h.add s1).add ch).add k).add w) fun t1 =>
  computed (low (t1.add (s0.add maj))) fun a =>
  computed (low (s.d.add t1)) fun e => ⟨a, s.a, s.b, s.c, e, s.e, s.f, s.g⟩

/-- The low 512 bits. -/
def window (n : Nat) : Nat :=
  n.land (Nat.sub (Nat.shiftLeft 1 512) 1)

/-- The word of number `i` in a window of sixteen. -/
def wordAt (ws i : Nat) : Nat := low (ws.shiftRight (Nat.mul 32 (Nat.sub 15 i)))

/-- The window one place on: the oldest word goes, and the one sixteen places on comes. -/
def slide (ws : Nat) : Nat :=
  computed (wordAt ws 1) fun w1 =>
  computed (wordAt ws 14) fun w14 =>
  let sg0 := ((rotr w1 7).xor (rotr w1 18)).xor (w1.shiftRight 3)
  let sg1 := ((rotr w14 17).xor (rotr w14 19)).xor (w14.shiftRight 10)
  let next := low ((((wordAt ws 0).add sg0).add (wordAt ws 9)).add sg1)
  window ((ws.shiftLeft 32).lor next)

/-- The rounds of a block, from the window of the first sixteen words of its schedule. -/
def rounds : List Nat → Nat → Words → Words
  | [], _, s => s
  | k :: ks, ws, s =>
    computed (wordAt ws 0) fun w =>
    computed (slide ws) fun ws =>
    match round s k w with
    | ⟨a, b, c, d, e, f, g, h⟩ => rounds ks ws ⟨a, b, c, d, e, f, g, h⟩

/-- Addition of the working words to the hash value. -/
def add (x y : Words) : Words :=
  ⟨low (x.a + y.a), low (x.b + y.b), low (x.c + y.c), low (x.d + y.d), low (x.e + y.e),
    low (x.f + y.f), low (x.g + y.g), low (x.h + y.h)⟩

/-- The compression of the last `n` blocks of a message. -/
def blocks : Nat → Nat → Words → Words
  | 0, _, s => s
  | n + 1, message, s =>
    blocks n message (add s (rounds roundConstants (window (message.shiftRight (512 * n))) s))

/-- The bytes after the number `acc`, as one big-endian number. -/
def numberOf (acc : Nat) : Bytes → Nat
  | [] => acc
  | b :: m => computed ((acc.mul 256).add b.toNat) fun acc => numberOf acc m

/-- The `k` low bytes of `n`, the most significant first. -/
def bigEndian (n : Nat) : Nat → List Nat
  | 0 => []
  | k + 1 => (n / 256 ^ k) % 256 :: bigEndian n k

/-- The zero bytes of the padding of a message of `n` bytes. -/
def zeros (n : Nat) : Nat := (119 - n % 64) % 64

/-- The padded message: a bit, the zero bytes, and the length in bits. -/
def pad (m : Bytes) : Nat :=
  ((numberOf 0 m * 256 + 0x80) * 256 ^ (zeros m.length + 8)) + 8 * m.length

/-- `hashlib.sha256(m).digest()`. -/
def sha256 (m : Bytes) : Bytes :=
  let s := computed (pad m) fun p => blocks ((m.length + zeros m.length + 9) / 64) p initial
  ([s.a, s.b, s.c, s.d, s.e, s.f, s.g, s.h].flatMap (bigEndian · 4)).map UInt8.ofNat

/-- `hmac.new(key, message, hash).digest()` for a hash with blocks of `block` bytes. -/
def hmac (hash : Bytes → Bytes) (block : Nat) (key message : Bytes) : Bytes :=
  let key := if block < key.length then hash key else key
  let key := key ++ List.replicate (block - key.length) 0
  hash (key.map (· ^^^ 0x5C) ++ hash (key.map (· ^^^ 0x36) ++ message))

theorem bigEndian_length (n k : Nat) : (bigEndian n k).length = k := by
  induction k with
  | zero => rfl
  | succ k ih => simp [bigEndian, ih]

theorem sha256_length (m : Bytes) : (sha256 m).length = 32 := by
  simp [sha256, bigEndian_length]

example : (sha256 [97, 98, 99]).take 4 = [0xba, 0x78, 0x16, 0xbf] := by decide +kernel

end Python.Hashlib
