import OpenVC.Errors
import OpenVC.Python.Codec

/-!
# The OpenPGP reader of the Trusted Nodes List (`openvc_ebsi._openpgp`)

It reads one profile: v4, ECDSA over P-256, SHA-256, binary signatures, old-format packet headers.
The hashes and ECDSA are a parameter.
-/

namespace OpenVC.OpenPgp

open Python

/-- The primitives of `hashlib` and `cryptography` the reader calls. -/
structure Primitives where
  /-- `hashlib.sha1(data).digest()`. -/
  sha1 : Bytes → Bytes
  /-- `hashlib.sha256(data).digest()`. -/
  sha256 : Bytes → Bytes
  /-- Whether `EllipticCurvePublicKey.from_encoded_point` accepts the P-256 point. -/
  onCurve : Bytes → Bool
  /-- ECDSA over P-256 of a SHA-256 digest: point, digest, `r` and `s`. -/
  ecdsaVerify : Bytes → Bytes → Nat → Nat → Bool

def maxSignatureFileBytes : Nat := 4096
def maxArmorChars : Nat := 12288
def maxKeyBlockBytes : Nat := 8192
def maxPackets : Nat := 32
def maxSubpackets : Nat := 64
def maxArmorLine : Nat := 76

/-- The OID of P-256, the one entry of `_CURVES`. -/
def p256Oid : Bytes := [0x2a, 0x86, 0x48, 0xce, 0x3d, 0x03, 0x01, 0x07]

/-- The length of an uncompressed point. -/
def pointLen : Nat := 65

/-- The bits of an `r` or `s`. -/
def scalarBits : Nat := 256

/-- A `PublicKey`: the primary key of a custodian or the anchor. -/
structure PublicKey where
  fingerprint : Str
  curve : Str
  point : Bytes
  deriving DecidableEq

/-- A `Signature`: one parsed v4 binary signature. -/
structure Signature where
  /-- The hashed issuer fingerprint. -/
  signer : Option Str
  hashId : Nat
  /-- The left 16 bits of the signed digest. -/
  leftBits : Bytes
  /-- The hashed header, the hashed subpackets and the trailer. -/
  suffix : Bytes
  r : Nat
  s : Nat

/-- `OpenPgpError(message)`. -/
def fail {α : Type} (message : String) (args : List Json) : Result α :=
  raise .openPgpError message args

/-- `int.from_bytes(data, "big")` of the first bytes. -/
def bigEndian (data : Bytes) (width : Nat) : Nat := Codec.intFromBytes (data.take width)

/-! ## Framing -/

/-- The width of the length of an old-format header, `none` for an indefinite one. -/
def lengthWidth (head : UInt8) : Option Nat :=
  match head.toNat % 4 with
  | 0 => some 1
  | 1 => some 2
  | 2 => some 4
  | _ => none

/-- The packet at the front of a text that starts with `head`: its tag, its body and the rest. -/
def packet (head : UInt8) (rest : Bytes) : Result (Nat × Bytes × Bytes) := do
  raiseIf (head.toNat < 0x80) ⟨.openPgpError, "a packet header must have its high bit set", []⟩
  raiseIf (0x40 ≤ head.toNat % 0x80)
    ⟨.openPgpError, "new-format packet headers are not accepted", []⟩
  let width ← orRaise (lengthWidth head)
    ⟨.openPgpError, "an indefinite-length packet is not accepted", []⟩
  raiseIf (rest.length < width) ⟨.openPgpError, "a packet header is cut short", []⟩
  let length := bigEndian rest width
  raiseIf ((rest.drop width).length < length)
    ⟨.openPgpError, "a packet length runs past the end of the data", []⟩
  return (head.toNat / 4 % 16, (rest.drop width).take length, (rest.drop width).drop length)

/-- The loop of `_packets`. The number is how many more packets are allowed. -/
def packetsLoop : Nat → Bytes → Result (List (Nat × Bytes))
  | _, [] => .ok []
  | 0, _ :: _ => fail "more than % packets" [.int maxPackets]
  | n + 1, head :: rest => do
    let (tag, body, rest) ← packet head rest
    let packets ← packetsLoop n rest
    return (tag, body) :: packets

/-- `_packets(data)`: the `(tag, body)` packets. -/
def packets (data : Bytes) : Result (List (Nat × Bytes)) := packetsLoop maxPackets data

/-- A subpacket. -/
structure Subpacket where
  kind : Nat
  critical : Bool
  data : Bytes

/-- The length that starts with the octet `first`, and the bytes after it. -/
def subpacketLength (first : UInt8) (rest : Bytes) : Result (Nat × Bytes) :=
  if first.toNat < 192 then .ok (first.toNat, rest)
  else if first.toNat < 255 then do
    raiseIf (rest.length < 1) ⟨.openPgpError, "a subpacket length is cut short", []⟩
    return ((first.toNat - 192) * 256 + bigEndian rest 1 + 192, rest.drop 1)
  else do
    raiseIf (rest.length < 4) ⟨.openPgpError, "a subpacket length is cut short", []⟩
    return (bigEndian rest 4, rest.drop 4)

/-- The loop of `_subpackets`. The number is how many more subpackets are allowed. -/
def subpacketsLoop : Nat → Bytes → Result (List Subpacket)
  | _, [] => .ok []
  | 0, _ :: _ => fail "more than % subpackets in one area" [.int maxSubpackets]
  | n + 1, first :: rest => do
    let (length, rest) ← subpacketLength first rest
    raiseIf (length < 1 || rest.length < length)
      ⟨.openPgpError, "a subpacket length is zero or runs past its area", []⟩
    let kind := bigEndian rest 1
    let subpackets ← subpacketsLoop n (rest.drop length)
    return ⟨kind % 128, 128 ≤ kind, (rest.take length).drop 1⟩ :: subpackets

/-- `_subpackets(area)`. -/
def subpackets (area : Bytes) : Result (List Subpacket) := subpacketsLoop maxSubpackets area

/-- `n.bit_length()`. -/
def bitLength (n : Nat) : Nat := if n = 0 then 0 else n.log2 + 1

/-- `_mpi(data, pos, max_bits)` on the bytes from `pos` on: the value and what follows it. -/
def mpi (data : Bytes) (maxBits : Nat) : Result (Bytes × Bytes) := do
  raiseIf (data.length < 2) ⟨.openPgpError, "an MPI length is cut short", []⟩
  let bits := bigEndian data 2
  raiseIf (bits < 1 || maxBits < bits)
    ⟨.openPgpError, "an MPI of % bits is outside 1..%", [.int bits, .int maxBits]⟩
  let size := (bits + 7) / 8
  raiseIf ((data.drop 2).length < size)
    ⟨.openPgpError, "an MPI runs past the end of its packet", []⟩
  let value := (data.drop 2).take size
  raiseIf (bigEndian value 1 == 0 || 8 * (size - 1) + bitLength (bigEndian value 1) != bits)
    ⟨.openPgpError, "an MPI bit count does not match its value", []⟩
  return (value, (data.drop 2).drop size)

/-! ## Signatures -/

/-- The parts of a v4 signature body: `after` is the offset after the unhashed area. -/
structure SignatureBody where
  sigType : Nat
  algo : Nat
  hashId : Nat
  hashed : Bytes
  after : Nat

/-- `_split_v4_signature(body)`. -/
def splitV4Signature (body : Bytes) : Result SignatureBody := do
  raiseIf (body.length < 6) ⟨.openPgpError, "a signature packet is too short", []⟩
  raiseIf (bigEndian body 1 != 4)
    ⟨.openPgpError, "signature version % is not accepted (v4 only)", [.int (bigEndian body 1)]⟩
  let hashedLen := bigEndian (body.drop 4) 2
  raiseIf (body.length < 6 + hashedLen + 2)
    ⟨.openPgpError, "a hashed subpacket area runs past its packet", []⟩
  let start := 6 + hashedLen
  let unhashedLen := bigEndian (body.drop start) 2
  raiseIf (body.length < start + 2 + unhashedLen)
    ⟨.openPgpError, "an unhashed subpacket area runs past its packet", []⟩
  return ⟨bigEndian (body.drop 1) 1, bigEndian (body.drop 2) 1, bigEndian (body.drop 3) 1,
    (body.drop 6).take hashedLen, start + 2 + unhashedLen⟩

/-- An upper-case hexadecimal digit. -/
def hexDigitUpper (n : Nat) : Nat := if n < 10 then 48 + n else 55 + n

/-- `data.hex().upper()`. -/
def hexUpper (data : Bytes) : Str :=
  data.flatMap fun b => [hexDigitUpper (b.toNat / 16), hexDigitUpper (b.toNat % 16)]

/-- `data.hex()`. -/
def hexLower (data : Bytes) : Str := (hexUpper data).asciiLower

/-- What the walk of a hashed area has found: the issuer fingerprint and the creation times. -/
structure HashedArea where
  signer : Option Str := none
  created : Nat := 0

/-- The signer after a subpacket. -/
def readSigner (sub : Subpacket) (area : HashedArea) : Result (Option Str) :=
  if sub.kind = 33 then do
    raiseIf area.signer.isSome ⟨.openPgpError, "two issuer-fingerprint subpackets", []⟩
    raiseIf (sub.data.length != 21 || bigEndian sub.data 1 != 4)
      ⟨.openPgpError, "an issuer-fingerprint subpacket must be v4 and 21 octets", []⟩
    return some (hexUpper (sub.data.drop 1))
  else .ok area.signer

/-- One iteration of `_check_hashed_area` in a signature file. -/
def walkHashed (area : HashedArea) (sub : Subpacket) : Result HashedArea := do
  raiseIf (sub.kind == 3 || sub.kind == 9) ⟨.openPgpError,
    "a hashed expiration subpacket (type %) is not accepted", [.int sub.kind]⟩
  raiseIf (sub.critical && !(sub.kind == 2 || sub.kind == 33)) ⟨.openPgpError,
    "a critical hashed subpacket of type % is not understood", [.int sub.kind]⟩
  raiseIf (sub.kind == 2 && (area.created != 0 || sub.data.length != 4)) ⟨.openPgpError,
    "a signature must have exactly one creation-time subpacket of 4 octets", []⟩
  let signer ← readSigner sub area
  return ⟨signer, area.created + if sub.kind = 2 then 1 else 0⟩

/-- `_check_hashed_area(hashed, signature_file=True)`: the issuer fingerprint. -/
def checkHashedArea (hashed : Bytes) : Result (Option Str) := do
  let subs ← subpackets hashed
  let area ← enumerateLoop (fun area _ sub => walkHashed area sub) {} 0 subs
  raiseIf (area.created == 0) ⟨.openPgpError,
    "a signature without a hashed creation-time subpacket (RFC 4880 5.2.3.4)", []⟩
  return area.signer

/-- `_check_hashed_area(hashed, signature_file=False)`: only the expirations matter. -/
def checkKeyBlockHashedArea (hashed : Bytes) : Result Unit := do
  let subs ← subpackets hashed
  each (fun sub => raiseIf (sub.kind == 3 || sub.kind == 9) ⟨.openPgpError,
    "a hashed expiration subpacket (type %) is not accepted", [.int sub.kind]⟩) subs

/-- `_check_unhashed_area(unhashed)`. -/
def checkUnhashedArea (unhashed : Bytes) : Result Unit := do
  let subs ← subpackets unhashed
  each (fun sub => raiseIf sub.critical ⟨.openPgpError,
    "a critical subpacket (type %) in the unhashed area is not accepted", [.int sub.kind]⟩) subs

/-- `_parse_signature(body)`. -/
def parseSignature (body : Bytes) : Result Signature := do
  let parts ← splitV4Signature body
  raiseIf (parts.sigType != 0) ⟨.openPgpError,
    "signature type % is not accepted (binary 0x00 only)", [.int parts.sigType]⟩
  raiseIf (parts.algo != 19) ⟨.openPgpError,
    "public-key algorithm % is not accepted (ECDSA 19 only)", [.int parts.algo]⟩
  raiseIf (parts.hashId != 8) ⟨.openPgpError,
    "hash algorithm % is not accepted (SHA-256 only)", [.int parts.hashId]⟩
  let signer ← checkHashedArea parts.hashed
  checkUnhashedArea ((body.take parts.after).drop (6 + parts.hashed.length + 2))
  raiseIf (body.length < parts.after + 2)
    ⟨.openPgpError, "a signature has no digest prefix", []⟩
  let (r, rest) ← mpi (body.drop (parts.after + 2)) scalarBits
  let (s, rest) ← mpi rest scalarBits
  raiseIf (!rest.isEmpty) ⟨.openPgpError, "trailing bytes after a signature", []⟩
  let header := body.take (6 + parts.hashed.length)
  return ⟨signer, parts.hashId, (body.drop parts.after).take 2,
    header ++ [0x04, 0xff] ++ Codec.intToFixed header.length 4, Codec.intFromBytes r,
    Codec.intFromBytes s⟩

/-- One packet of a signature file. -/
def readSignature (packet : Nat × Bytes) : Result Signature := do
  raiseIf (packet.1 != 2) ⟨.openPgpError,
    "packet tag % in a signature file (only tag 2 is accepted)", [.int packet.1]⟩
  parseSignature packet.2

/-- `read_signatures(data)`. -/
def readSignatures (data : Bytes) : Result (List Signature) := do
  raiseIf data.isEmpty ⟨.openPgpError, "an empty signature file", []⟩
  raiseIf (maxSignatureFileBytes < data.length)
    ⟨.openPgpError, "a signature file over % bytes", [.int maxSignatureFileBytes]⟩
  let packets ← packets data
  collect readSignature packets

/-- `verify(signature, document, key)`. -/
def verify (P : Primitives) (signature : Signature) (document : Bytes) (key : PublicKey) : Bool :=
  let digest := P.sha256 (document ++ signature.suffix)
  digest.take 2 == signature.leftBits && P.ecdsaVerify key.point digest signature.r signature.s

/-- The allowed keys by fingerprint. -/
abbrev Allowed := List (Str × PublicKey)

/-- The allowed key that a signature names. -/
def namedKey (allowed : Allowed) (signature : Signature) : Option PublicKey :=
  signature.signer.bind fun fingerprint => allowed.lookup fingerprint

/-- One iteration of `verified_signers`. -/
def verifySigner (P : Primitives) (document : Bytes) (allowed : Allowed) (signers : List Str)
    (signature : Signature) : Result (List Str) :=
  match namedKey allowed signature with
  | none => .ok signers
  | some key => do
    raiseIf (!verify P signature document key) ⟨.nodeListSignatureError,
      "a signature by allowed key % does not verify", [.str key.fingerprint]⟩
    return if key.fingerprint ∈ signers then signers else signers ++ [key.fingerprint]

/-- `verified_signers(signatures, document, allowed)`: the distinct fingerprints. -/
def verifiedSigners (P : Primitives) (signatures : List Signature) (document : Bytes)
    (allowed : Allowed) : Result (List Str) :=
  enumerateLoop (fun signers _ signature => verifySigner P document allowed signers signature) [] 0
    signatures

/-! ## Keys -/

/-- `make_public_key(curve, point, fingerprint)`. -/
def makePublicKey (P : Primitives) (curve : Str) (point : Bytes) (fingerprint : Str) :
    Result PublicKey := do
  raiseIf (curve != lit "P-256") ⟨.openPgpError, "curve is not in the accepted profile", []⟩
  raiseIf (point.length != pointLen || bigEndian point 1 != 4)
    ⟨.openPgpError, "the public point must be an uncompressed SEC1 point", []⟩
  raiseIf (!P.onCurve point) ⟨.openPgpError, "the public point is not on the curve", []⟩
  return ⟨fingerprint, curve, point⟩

/-- The v4 fingerprint of a public-key packet. -/
def fingerprintOf (P : Primitives) (body : Bytes) : Str :=
  hexUpper (P.sha1 (0x99 :: Codec.intToFixed body.length 2 ++ body))

/-- `_parse_primary_key(body)`. -/
def parsePrimaryKey (P : Primitives) (body : Bytes) : Result PublicKey := do
  raiseIf (body.length < 7) ⟨.openPgpError, "a public-key packet is too short", []⟩
  raiseIf (bigEndian body 1 != 4)
    ⟨.openPgpError, "public-key version % is not accepted (v4 only)", [.int (bigEndian body 1)]⟩
  raiseIf (bigEndian (body.drop 5) 1 != 19) ⟨.openPgpError,
    "public-key algorithm % is not accepted (ECDSA 19 only)", [.int (bigEndian (body.drop 5) 1)]⟩
  let oidLen := bigEndian (body.drop 6) 1
  let oid := (body.drop 7).take oidLen
  raiseIf (!(0 < oidLen && oidLen < 255 && oid.length == oidLen && oid == p256Oid)) ⟨.openPgpError,
    "the curve is not in the accepted profile (NIST P-256 only)", []⟩
  let (point, rest) ← mpi (body.drop (7 + oidLen)) (8 * pointLen)
  raiseIf (!rest.isEmpty) ⟨.openPgpError, "trailing bytes after a public key", []⟩
  makePublicKey P "P-256" point (fingerprintOf P body)

/-- `_REVOCATION_TYPES`. -/
def revocationTypes : List Nat := [0x20, 0x28, 0x30]

/-- `_check_key_signature(body)`. -/
def checkKeySignature (body : Bytes) : Result Unit := do
  let parts ← splitV4Signature body
  raiseIf (revocationTypes.contains parts.sigType) ⟨.openPgpError,
    "a revocation signature (type %) in a key block", [.int parts.sigType]⟩
  checkKeyBlockHashedArea parts.hashed

/-- A packet after the primary key of a key block. -/
def checkKeyPacket (packet : Nat × Bytes) : Result Unit :=
  if packet.1 = 2 then checkKeySignature packet.2
  else raiseIf (!(packet.1 == 13 || packet.1 == 14))
    ⟨.openPgpError, "packet tag % in a key block", [.int packet.1]⟩

/-- The packets of a key block: the primary key and the packets after it. -/
def primaryPacket : List (Nat × Bytes) → Option (Bytes × List (Nat × Bytes))
  | (6, body) :: rest => some (body, rest)
  | _ => none

/-! ## Armor -/

def armorBegin : Str := "-----BEGIN PGP PUBLIC KEY BLOCK-----"
def armorEnd : Str := "-----END PGP PUBLIC KEY BLOCK-----"

/-- A character of the base64 alphabet. -/
def isB64 (c : Nat) : Bool :=
  (65 ≤ c && c ≤ 90) || (97 ≤ c && c ≤ 122) || Str.isDigit c || c == 43 || c == 47

/-- `[A-Za-z0-9+/]+={0,2}`, matched in full. -/
def isB64Line (line : Str) : Bool :=
  let pad := line.dropWhile isB64
  line.length != pad.length && pad.all (· == 61) && pad.length ≤ 2

/-- `=[A-Za-z0-9+/]{4}`, matched in full. -/
def isCrcLine (line : Str) : Bool :=
  match line with
  | 61 :: rest => rest.length == 4 && rest.all isB64
  | _ => false

/-- `base64.b64decode(text, validate=True)`: the padding completes the last group. -/
def b64decode (text : Str) : Option Bytes :=
  let pad := text.dropWhile isB64
  if pad.all (· == 61) && pad.length ≤ 2 && text.length % 4 == 0 then Codec.a2bBase64 0 0 0 text
  else none

/-- An entry of `_CRC24`: eight steps of the shift register. -/
def crcStep : Nat → Nat → Nat
  | 0, crc => crc % 0x1000000
  | n + 1, crc =>
    crcStep n (if (crc * 2).testBit 24 then (crc * 2) ^^^ 0x1864CFB else crc * 2)

/-- `_CRC24[i]`. -/
def crcEntry (i : Nat) : Nat := crcStep 8 (i * 65536)

/-- `crc24(data)`. -/
def crc24 (data : Bytes) : Nat :=
  data.foldl (fun crc b =>
    (crc * 256 % 0x1000000) ^^^ crcEntry (((crc / 65536) ^^^ b.toNat) % 256)) 0xB704CE

/-- The lines of an armored text, a final empty one dropped. -/
def armorLines (text : Str) : List Str :=
  let lines := Str.split 10 text
  if lines.getLast? = some [] then lines.dropLast else lines

/-- The data lines and the checksum line of an armored block. -/
def armorBody (lines : List Str) : List Str × Option Str :=
  let body := (lines.drop 2).dropLast
  match body.getLast? with
  | some (61 :: crc) => (body.dropLast, some (61 :: crc))
  | _ => (body, none)

/-- Whether the lines have the accepted shape. -/
def isArmored (lines : List Str) : Bool :=
  4 ≤ lines.length && lines.head? == some armorBegin && lines[1]? == some [] &&
    lines.getLast? == some armorEnd

/-- A data line of an armored block with `count` of them. -/
def checkArmorLine (count : Nat) (line : Nat × Str) : Result Unit := do
  raiseIf (!(1 ≤ line.2.length && line.2.length ≤ maxArmorLine && isB64Line line.2))
    ⟨.openPgpError, "an armor data line is not base64", []⟩
  raiseIf (line.2.contains 61 && line.1 != count - 1)
    ⟨.openPgpError, "base64 padding before the last armor line", []⟩

/-- The checksum a checksum line carries. -/
def readCrc (line : Str) : Result Nat := do
  raiseIf (!isCrcLine line) ⟨.openPgpError, "a malformed armor checksum line", []⟩
  let data ← orRaise (b64decode (line.drop 1))
    ⟨.openPgpError, "armor is not valid base64", []⟩
  return Codec.intFromBytes data

/-- The checksum of a block, when it has one. -/
def readCrcLine : Option Str → Result (Option Nat)
  | none => .ok none
  | some line => do
    let crc ← readCrc line
    return some crc

/-- `dearmor(text)`. -/
def dearmor (armored : Json) : Result Bytes := do
  let text ← orRaise armored.str? ⟨.openPgpError, "armor must be text", []⟩
  raiseIf (maxArmorChars < text.length)
    ⟨.openPgpError, "armor over % characters", [.int maxArmorChars]⟩
  raiseIf (!text.isAscii) ⟨.openPgpError, "armor must be ASCII", []⟩
  let lines := armorLines text
  raiseIf (!isArmored lines)
    ⟨.openPgpError, "not an armored public key block in the accepted shape", []⟩
  let (body, crcLine) := armorBody lines
  raiseIf body.isEmpty ⟨.openPgpError, "an armored block with no data", []⟩
  each (checkArmorLine body.length) ((List.range body.length).zip body)
  let data ← orRaise (b64decode body.flatten) ⟨.openPgpError, "armor is not valid base64", []⟩
  let crc ← readCrcLine crcLine
  raiseIf (maxKeyBlockBytes < data.length)
    ⟨.openPgpError, "a key block over % bytes", [.int maxKeyBlockBytes]⟩
  raiseIf (crc.any (· != crc24 data)) ⟨.openPgpError, "the armor checksum does not match", []⟩
  return data

/-- `read_public_key_block(armored)`. -/
def readPublicKeyBlock (P : Primitives) (armored : Json) : Result PublicKey := do
  let data ← dearmor armored
  let packets ← packets data
  let (body, rest) ← orRaise (primaryPacket packets)
    ⟨.openPgpError, "a key block must start with its primary public key (tag 6)", []⟩
  let key ← parsePrimaryKey P body
  each checkKeyPacket rest
  return key

end OpenVC.OpenPgp

/-!
## The buffer accesses of the OpenPGP reader (`openvc_ebsi._openpgp`)

The reader again, with positions in its buffers as the source has them and every access checked: an
octet outside the buffer is Python's `IndexError`, and so, here, is a slice that would be cut short;
a length that does not fit its octets is `OverflowError`.
-/

namespace OpenVC.OpenPgp.Reads

open Python

/-- `data[i]`. -/
def octet (data : Bytes) (i : Nat) : Result Nat :=
  orRaise (data[i]?.map UInt8.toNat) ⟨.indexError, "index out of range", []⟩

/-- `data[start:start + width]`, all of it. -/
def slice (data : Bytes) (start width : Nat) : Result Bytes := do
  raiseIf (data.length < start + width) ⟨.indexError, "slice out of range", []⟩
  return (data.drop start).take width

/-- `int.from_bytes(data[start:start + width], "big")`. -/
def number (data : Bytes) (start width : Nat) : Result Nat := do
  let b ← slice data start width
  return Codec.intFromBytes b

/-- `n.to_bytes(width, "big")`. -/
def toBytes (n width : Nat) : Result Bytes := do
  raiseIf (256 ^ width ≤ n) ⟨.overflowError, "int too big to convert", []⟩
  return Codec.intToFixed n width

/-! ## Framing -/

/-- `(1, 2, 4)[kind]`, with the indefinite length refused. -/
def widthOf (kind : Nat) : Result Nat :=
  orRaise (match kind with
    | 0 => some 1
    | 1 => some 2
    | 2 => some 4
    | _ => none) ⟨.openPgpError, "an indefinite-length packet is not accepted", []⟩

/-- The packet at a position: its tag, its body and the position after it. -/
def packetAt (data : Bytes) (pos : Nat) : Result (Nat × Bytes × Nat) := do
  let head ← octet data pos
  raiseIf (head < 0x80) ⟨.openPgpError, "a packet header must have its high bit set", []⟩
  raiseIf (0x40 ≤ head % 0x80)
    ⟨.openPgpError, "new-format packet headers are not accepted", []⟩
  let width ← widthOf (head % 4)
  raiseIf (data.length < pos + 1 + width) ⟨.openPgpError, "a packet header is cut short", []⟩
  let length ← number data (pos + 1) width
  let start := pos + 1 + width
  raiseIf (data.length - start < length)
    ⟨.openPgpError, "a packet length runs past the end of the data", []⟩
  let body ← slice data start length
  return (head / 4 % 16, body, start + length)

/-- The loop of `_packets` from a position on. -/
def packetsFrom (data : Bytes) : Nat → Nat → Result (List (Nat × Bytes))
  | n, pos =>
    if data.length ≤ pos then .ok []
    else match n with
      | 0 => fail "more than % packets" [.int maxPackets]
      | n + 1 => do
        let (tag, body, pos) ← packetAt data pos
        let packets ← packetsFrom data n pos
        return (tag, body) :: packets

/-- `_packets(data)`. -/
def packets (data : Bytes) : Result (List (Nat × Bytes)) := packetsFrom data maxPackets 0

/-- The length of a subpacket that starts with `first`, and the width of the length. -/
def lengthAt (area : Bytes) (pos first : Nat) : Result (Nat × Nat) :=
  if first < 192 then .ok (first, 1)
  else if first < 255 then do
    raiseIf (area.length < pos + 2) ⟨.openPgpError, "a subpacket length is cut short", []⟩
    let second ← octet area (pos + 1)
    return ((first - 192) * 256 + second + 192, 2)
  else do
    raiseIf (area.length < pos + 5) ⟨.openPgpError, "a subpacket length is cut short", []⟩
    let length ← number area (pos + 1) 4
    return (length, 5)

/-- The subpacket at a position, and the position after it. -/
def subpacketAt (area : Bytes) (pos : Nat) : Result (Subpacket × Nat) := do
  let first ← octet area pos
  let (length, hdr) ← lengthAt area pos first
  let start := pos + hdr
  raiseIf (length < 1 || area.length - start < length)
    ⟨.openPgpError, "a subpacket length is zero or runs past its area", []⟩
  let kind ← octet area start
  let data ← slice area (start + 1) (length - 1)
  return (⟨kind % 128, 128 ≤ kind, data⟩, start + length)

/-- The loop of `_subpackets` from a position on. -/
def subpacketsFrom (area : Bytes) : Nat → Nat → Result (List Subpacket)
  | n, pos =>
    if area.length ≤ pos then .ok []
    else match n with
      | 0 => fail "more than % subpackets in one area" [.int maxSubpackets]
      | n + 1 => do
        let (subpacket, pos) ← subpacketAt area pos
        let subpackets ← subpacketsFrom area n pos
        return subpacket :: subpackets

/-- `_subpackets(area)`. -/
def subpackets (area : Bytes) : Result (List Subpacket) := subpacketsFrom area maxSubpackets 0

/-- `_mpi(data, pos, max_bits)`. -/
def mpi (data : Bytes) (pos maxBits : Nat) : Result (Bytes × Nat) := do
  raiseIf (data.length < pos + 2) ⟨.openPgpError, "an MPI length is cut short", []⟩
  let bits ← number data pos 2
  raiseIf (bits < 1 || maxBits < bits)
    ⟨.openPgpError, "an MPI of % bits is outside 1..%", [.int bits, .int maxBits]⟩
  let size := (bits + 7) / 8
  raiseIf (data.length < pos + 2 + size)
    ⟨.openPgpError, "an MPI runs past the end of its packet", []⟩
  let value ← slice data (pos + 2) size
  let first ← octet value 0
  raiseIf (first == 0 || 8 * (size - 1) + bitLength first != bits)
    ⟨.openPgpError, "an MPI bit count does not match its value", []⟩
  return (value, pos + 2 + size)

/-! ## Signatures -/

/-- `_split_v4_signature(body)`. -/
def splitV4Signature (body : Bytes) : Result SignatureBody := do
  raiseIf (body.length < 6) ⟨.openPgpError, "a signature packet is too short", []⟩
  let version ← octet body 0
  raiseIf (version != 4)
    ⟨.openPgpError, "signature version % is not accepted (v4 only)", [.int version]⟩
  let hashedLen ← number body 4 2
  raiseIf (body.length < 6 + hashedLen + 2)
    ⟨.openPgpError, "a hashed subpacket area runs past its packet", []⟩
  let hashed ← slice body 6 hashedLen
  let start := 6 + hashedLen
  let unhashedLen ← number body start 2
  raiseIf (body.length < start + 2 + unhashedLen)
    ⟨.openPgpError, "an unhashed subpacket area runs past its packet", []⟩
  let sigType ← octet body 1
  let algo ← octet body 2
  let hashId ← octet body 3
  return ⟨sigType, algo, hashId, hashed, start + 2 + unhashedLen⟩

/-- The signer after a subpacket. -/
def readSigner (sub : Subpacket) (area : HashedArea) : Result (Option Str) :=
  if sub.kind = 33 then do
    raiseIf area.signer.isSome ⟨.openPgpError, "two issuer-fingerprint subpackets", []⟩
    raiseIf (sub.data.length != 21)
      ⟨.openPgpError, "an issuer-fingerprint subpacket must be v4 and 21 octets", []⟩
    let version ← octet sub.data 0
    raiseIf (version != 4)
      ⟨.openPgpError, "an issuer-fingerprint subpacket must be v4 and 21 octets", []⟩
    let fingerprint ← slice sub.data 1 20
    return some (hexUpper fingerprint)
  else .ok area.signer

/-- One iteration of `_check_hashed_area` in a signature file. -/
def walkHashed (area : HashedArea) (sub : Subpacket) : Result HashedArea := do
  raiseIf (sub.kind == 3 || sub.kind == 9) ⟨.openPgpError,
    "a hashed expiration subpacket (type %) is not accepted", [.int sub.kind]⟩
  raiseIf (sub.critical && !(sub.kind == 2 || sub.kind == 33)) ⟨.openPgpError,
    "a critical hashed subpacket of type % is not understood", [.int sub.kind]⟩
  raiseIf (sub.kind == 2 && (area.created != 0 || sub.data.length != 4)) ⟨.openPgpError,
    "a signature must have exactly one creation-time subpacket of 4 octets", []⟩
  let signer ← readSigner sub area
  return ⟨signer, area.created + if sub.kind = 2 then 1 else 0⟩

/-- `_check_hashed_area(hashed, signature_file=True)`. -/
def checkHashedArea (hashed : Bytes) : Result (Option Str) := do
  let subs ← subpackets hashed
  let area ← enumerateLoop (fun area _ sub => walkHashed area sub) {} 0 subs
  raiseIf (area.created == 0) ⟨.openPgpError,
    "a signature without a hashed creation-time subpacket (RFC 4880 5.2.3.4)", []⟩
  return area.signer

/-- `_check_hashed_area(hashed, signature_file=False)`. -/
def checkKeyBlockHashedArea (hashed : Bytes) : Result Unit := do
  let subs ← subpackets hashed
  each (fun sub => raiseIf (sub.kind == 3 || sub.kind == 9) ⟨.openPgpError,
    "a hashed expiration subpacket (type %) is not accepted", [.int sub.kind]⟩) subs

/-- `_check_unhashed_area(unhashed)`. -/
def checkUnhashedArea (unhashed : Bytes) : Result Unit := do
  let subs ← subpackets unhashed
  each (fun sub => raiseIf sub.critical ⟨.openPgpError,
    "a critical subpacket (type %) in the unhashed area is not accepted", [.int sub.kind]⟩) subs

/-- `_parse_signature(body)`. -/
def parseSignature (body : Bytes) : Result Signature := do
  let parts ← splitV4Signature body
  raiseIf (parts.sigType != 0) ⟨.openPgpError,
    "signature type % is not accepted (binary 0x00 only)", [.int parts.sigType]⟩
  raiseIf (parts.algo != 19) ⟨.openPgpError,
    "public-key algorithm % is not accepted (ECDSA 19 only)", [.int parts.algo]⟩
  raiseIf (parts.hashId != 8) ⟨.openPgpError,
    "hash algorithm % is not accepted (SHA-256 only)", [.int parts.hashId]⟩
  let signer ← checkHashedArea parts.hashed
  let unhashed ← slice body (6 + parts.hashed.length + 2) (parts.after - (6 + parts.hashed.length + 2))
  checkUnhashedArea unhashed
  raiseIf (body.length < parts.after + 2)
    ⟨.openPgpError, "a signature has no digest prefix", []⟩
  let leftBits ← slice body parts.after 2
  let (r, pos) ← mpi body (parts.after + 2) scalarBits
  let (s, pos) ← mpi body pos scalarBits
  raiseIf (pos != body.length) ⟨.openPgpError, "trailing bytes after a signature", []⟩
  let header ← slice body 0 (6 + parts.hashed.length)
  let length ← toBytes header.length 4
  return ⟨signer, parts.hashId, leftBits, header ++ [0x04, 0xff] ++ length, Codec.intFromBytes r,
    Codec.intFromBytes s⟩

/-- One packet of a signature file. -/
def readSignature (packet : Nat × Bytes) : Result Signature := do
  raiseIf (packet.1 != 2) ⟨.openPgpError,
    "packet tag % in a signature file (only tag 2 is accepted)", [.int packet.1]⟩
  parseSignature packet.2

/-- `read_signatures(data)`. -/
def readSignatures (data : Bytes) : Result (List Signature) := do
  raiseIf data.isEmpty ⟨.openPgpError, "an empty signature file", []⟩
  raiseIf (maxSignatureFileBytes < data.length)
    ⟨.openPgpError, "a signature file over % bytes", [.int maxSignatureFileBytes]⟩
  let packets ← packets data
  collect readSignature packets

/-! ## Keys -/

/-- `make_public_key(curve, point, fingerprint)`. -/
def makePublicKey (P : Primitives) (curve : Str) (point : Bytes) (fingerprint : Str) :
    Result PublicKey := do
  raiseIf (curve != lit "P-256") ⟨.openPgpError, "curve is not in the accepted profile", []⟩
  raiseIf (point.length != pointLen)
    ⟨.openPgpError, "the public point must be an uncompressed SEC1 point", []⟩
  let first ← octet point 0
  raiseIf (first != 4) ⟨.openPgpError, "the public point must be an uncompressed SEC1 point", []⟩
  raiseIf (!P.onCurve point) ⟨.openPgpError, "the public point is not on the curve", []⟩
  return ⟨fingerprint, curve, point⟩

/-- `_parse_primary_key(body)`; the OID is compared as it is sliced, cut short or not. -/
def parsePrimaryKey (P : Primitives) (body : Bytes) : Result PublicKey := do
  raiseIf (body.length < 7) ⟨.openPgpError, "a public-key packet is too short", []⟩
  let version ← octet body 0
  raiseIf (version != 4)
    ⟨.openPgpError, "public-key version % is not accepted (v4 only)", [.int version]⟩
  let algo ← octet body 5
  raiseIf (algo != 19) ⟨.openPgpError,
    "public-key algorithm % is not accepted (ECDSA 19 only)", [.int algo]⟩
  let oidLen ← octet body 6
  let oid := (body.drop 7).take oidLen
  raiseIf (!(0 < oidLen && oidLen < 255 && oid.length == oidLen && oid == p256Oid)) ⟨.openPgpError,
    "the curve is not in the accepted profile (NIST P-256 only)", []⟩
  let (point, pos) ← mpi body (7 + oidLen) (8 * pointLen)
  raiseIf (pos != body.length) ⟨.openPgpError, "trailing bytes after a public key", []⟩
  let length ← toBytes body.length 2
  makePublicKey P "P-256" point (hexUpper (P.sha1 (0x99 :: length ++ body)))

/-- `_check_key_signature(body)`. -/
def checkKeySignature (body : Bytes) : Result Unit := do
  let parts ← splitV4Signature body
  raiseIf (revocationTypes.contains parts.sigType) ⟨.openPgpError,
    "a revocation signature (type %) in a key block", [.int parts.sigType]⟩
  checkKeyBlockHashedArea parts.hashed

/-- A packet after the primary key of a key block. -/
def checkKeyPacket (packet : Nat × Bytes) : Result Unit :=
  if packet.1 = 2 then checkKeySignature packet.2
  else raiseIf (!(packet.1 == 13 || packet.1 == 14))
    ⟨.openPgpError, "packet tag % in a key block", [.int packet.1]⟩

/-- `read_public_key_block(armored)`. -/
def readPublicKeyBlock (P : Primitives) (armored : Json) : Result PublicKey := do
  let data ← dearmor armored
  let packets ← packets data
  let (body, rest) ← orRaise (primaryPacket packets)
    ⟨.openPgpError, "a key block must start with its primary public key (tag 6)", []⟩
  let key ← parsePrimaryKey P body
  each checkKeyPacket rest
  return key

end OpenVC.OpenPgp.Reads
