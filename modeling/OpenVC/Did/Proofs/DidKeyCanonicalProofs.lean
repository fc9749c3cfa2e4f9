import OpenVC.Proofs.Base58Proofs

/-!
# The spellings of a `did:key`

A key has more than one accepted DID: the multicodec may be a longer varint than it has to be, and a
point of a curve may be uncompressed. Two DIDs carry one key exactly when they have one canonical form.
-/

namespace OpenVC.Did.DidKey

open Python Multibase

/-! ## Canonical forms -/

/-- A supported multicodec as a varint of the fewest bytes. -/
def multicodec (code : Nat) : Bytes :=
  if code = 0xED then [0xED, 0x01] else if code = 0x1200 then [0x80, 0x24] else [0x81, 0x24]

/-- A point in its compressed form: an uncompressed one is cut to its first coordinate and the parity of
the second. -/
def compressed (curve : Curve) : Bytes → Bytes
  | 4 :: xy => (if (xy.getLastD 0).toNat % 2 = 0 then 2 else 3) :: xy.take curve.coordBytes
  | key => key

/-- The key bytes under a multicodec, a point compressed. -/
def canonicalKey (code : Nat) (key : Bytes) : Bytes :=
  if code = 0xED then key
  else if code = 0x1200 then compressed .p256 key else compressed .p384 key

/-- The DID of key bytes under a multicodec. -/
def spelled (code key : Bytes) : Str := lit "did:key:z" ++ b58btcEncode (code ++ key)

/-- The DID with its multicodec and its key bytes in canonical form. -/
def canonicalForm (did : Str) : Str :=
  match b58decode (did.drop 9) with
  | .error _ => did
  | .ok raw =>
    match readVarint raw with
    | .error _ => did
    | .ok (code, offset) => spelled (multicodec code) (canonicalKey code (raw.drop offset))

/-- The public keys of a resolved document. -/
def publicJwks (doc : DidDocument) : List Dict := doc.verificationMethods.map (·.publicKeyJwk)

/-! ## Points -/

/-- The compressed encoding of a point. -/
def sec1Compressed (curve : Curve) (p : Nat × Nat) : Bytes :=
  (if p.2 % 2 = 0 then 2 else 3) :: Codec.intToFixed p.1 curve.coordBytes

/-- The uncompressed encoding of a point. -/
def sec1Uncompressed (curve : Curve) (p : Nat × Nat) : Bytes :=
  4 :: (Codec.intToFixed p.1 curve.coordBytes ++ Codec.intToFixed p.2 curve.coordBytes)

/-- The library decodes the two encodings of a point, and nothing else. -/
structure Sec1 (C : Crypto) : Prop where
  encodings : ∀ curve b p, C.ecDecodePoint curve b = some p →
    b = sec1Compressed curve p ∨ b = sec1Uncompressed curve p
  coordinates : ∀ curve b p, C.ecDecodePoint curve b = some p →
    p.1 < 256 ^ curve.coordBytes ∧ p.2 < 256 ^ curve.coordBytes
  compressed : ∀ curve b p, C.ecDecodePoint curve b = some p →
    C.ecDecodePoint curve (sec1Compressed curve p) = some p
  uncompressed : ∀ curve b p, C.ecDecodePoint curve b = some p →
    C.ecDecodePoint curve (sec1Uncompressed curve p) = some p

variable {C : Crypto} {curve : Curve} {code offset : Nat} {key raw : Bytes} {did s : Str}
  {doc : DidDocument} {jwk : Dict} {p : Nat × Nat}

theorem getLastD_intToFixed {n len : Nat} (h : n < 256 ^ len) (hlen : 0 < len) (l : Bytes) (d : UInt8) :
    ((l ++ Codec.intToFixed n len).getLastD d).toNat % 2 = n % 2 := by
  have hne : Codec.intToFixed n len ≠ [] := by
    intro e
    have := Codec.length_intToFixed h
    rw [e] at this
    simp at this
    omega
  obtain ⟨init, last, hsplit⟩ : ∃ init last, Codec.intToFixed n len = init ++ [last] :=
    ⟨_, _, (List.dropLast_append_getLast hne).symm⟩
  have hval := Codec.intFromBytes_intToFixed n len
  rw [hsplit, Codec.intFromBytes_append] at hval
  have hone : Codec.intFromBytes [last] = last.toNat := by simp [Codec.intFromBytes]
  rw [hone, List.length_singleton, pow_one] at hval
  rw [hsplit, ← List.append_assoc, List.getLastD_concat]
  omega

theorem coordBytes_pos (curve : Curve) : 0 < curve.coordBytes := by
  cases curve <;> decide

theorem compressed_of_decode (hC : Sec1 C) (h : C.ecDecodePoint curve key = some p) :
    compressed curve key = sec1Compressed curve p := by
  obtain ⟨hx, hy⟩ := hC.coordinates _ _ _ h
  rcases hC.encodings _ _ _ h with rfl | rfl
  · unfold sec1Compressed
    split <;> rfl
  · have hparity := getLastD_intToFixed hy (coordBytes_pos curve)
      (Codec.intToFixed p.1 curve.coordBytes) 0
    rw [sec1Uncompressed, compressed, hparity, List.take_left' (Codec.length_intToFixed hx)]
    rfl

theorem point_eq_iff (hC : Sec1 C) {key' : Bytes} {p' : Nat × Nat}
    (h : C.ecDecodePoint curve key = some p) (h' : C.ecDecodePoint curve key' = some p') :
    p = p' ↔ compressed curve key = compressed curve key' := by
  rw [compressed_of_decode hC h, compressed_of_decode hC h']
  constructor
  · rintro rfl
    rfl
  · intro e
    have hp := hC.compressed _ _ _ h
    rw [e, hC.compressed _ _ _ h'] at hp
    exact (Option.some.inj hp).symm

/-! ## The key a DID carries -/

/-- The JWK of a point. -/
def ecJwk (curve : Curve) (crv : Str) (p : Nat × Nat) : Dict :=
  [("kty", .str "EC"), ("crv", .str crv),
    ("x", .str (Codec.b64urlEncode (Codec.intToFixed p.1 curve.coordBytes))),
    ("y", .str (Codec.b64urlEncode (Codec.intToFixed p.2 curve.coordBytes)))]

/-- The key bytes under the multicodec are the public key of the JWK. -/
inductive Carries (C : Crypto) : Nat → Bytes → Dict → Prop
  | ed25519 (key : Bytes) : Carries C 0xED key
      [("kty", .str "OKP"), ("crv", .str "Ed25519"), ("x", .str (Codec.b64urlEncode key))]
  | p256 (key : Bytes) (p : Nat × Nat) (h : C.ecDecodePoint .p256 key = some p) :
      Carries C 0x1200 key (ecJwk .p256 "P-256" p)
  | p384 (key : Bytes) (p : Nat × Nat) (h : C.ecDecodePoint .p384 key = some p) :
      Carries C 0x1201 key (ecJwk .p384 "P-384" p)

theorem pointJwk_eq_ok {crv : Str} {invalid : String} :
    pointJwk C curve crv invalid key = .ok jwk ↔
      ∃ p, C.ecDecodePoint curve key = some p ∧ jwk = ecJwk curve crv p := by
  simp only [pointJwk, bind_eq_ok, orRaise_eq_ok, pure_eq_ok, ecJwk]
  exact exists_congr fun p => and_congr_right fun _ => eq_comm

theorem keyJwk_eq_ok : keyJwk C code key = .ok jwk ↔ Carries C code key jwk := by
  constructor
  · intro h
    unfold keyJwk at h
    split_ifs at h with h1 h2 h3
    · cases h
      rw [h1]
      exact .ed25519 key
    · obtain ⟨p, hp, rfl⟩ := pointJwk_eq_ok.mp h
      rw [h2]
      exact .p256 key p hp
    · obtain ⟨p, hp, rfl⟩ := pointJwk_eq_ok.mp h
      rw [h3]
      exact .p384 key p hp
    · cases h
  · intro h
    cases h with
    | ed25519 => rfl
    | p256 _ p hp => exact pointJwk_eq_ok.mpr ⟨p, hp, rfl⟩
    | p384 _ p hp => exact pointJwk_eq_ok.mpr ⟨p, hp, rfl⟩

theorem ecJwk_inj {curve' : Curve} {crv crv' : Str} {p p' : Nat × Nat}
    (h : ecJwk curve crv p = ecJwk curve' crv' p') : crv = crv' ∧ p = p' := by
  simp only [ecJwk, List.cons.injEq, Prod.mk.injEq, Json.str.injEq, true_and, and_true] at h
  obtain ⟨hcrv, hx, hy⟩ := h
  have hx := congrArg Codec.intFromBytes (Codec.b64urlEncode_injective hx)
  have hy := congrArg Codec.intFromBytes (Codec.b64urlEncode_injective hy)
  rw [Codec.intFromBytes_intToFixed, Codec.intFromBytes_intToFixed] at hx hy
  exact ⟨hcrv, Prod.ext hx hy⟩

theorem canonicalKey_eq_iff (hC : Sec1 C) {key' : Bytes} {jwk' : Dict} (h : Carries C code key jwk)
    (h' : Carries C code key' jwk') : jwk = jwk' ↔ canonicalKey code key = canonicalKey code key' := by
  cases h with
  | ed25519 =>
    cases h'
    simp [canonicalKey, Codec.b64urlEncode_injective.eq_iff]
  | p256 _ p hp =>
    cases h' with
    | p256 _ p' hp' =>
      change _ ↔ compressed .p256 key = compressed .p256 key'
      rw [← point_eq_iff hC hp hp']
      exact ⟨fun e => (ecJwk_inj e).2, fun e => by rw [e]⟩
  | p384 _ p hp =>
    cases h' with
    | p384 _ p' hp' =>
      change _ ↔ compressed .p384 key = compressed .p384 key'
      rw [← point_eq_iff hC hp hp']
      exact ⟨fun e => (ecJwk_inj e).2, fun e => by rw [e]⟩

/-- The curve of a supported multicodec. -/
def crvOf (code : Nat) : Str :=
  if code = 0xED then "Ed25519" else if code = 0x1200 then "P-256" else "P-384"

theorem Carries.crv (h : Carries C code key jwk) : jwk.get "crv" = .str (crvOf code) := by
  cases h <;> rfl

theorem Carries.supported (h : Carries C code key jwk) :
    code = 0xED ∨ code = 0x1200 ∨ code = 0x1201 := by
  cases h with
  | ed25519 => exact .inl rfl
  | p256 => exact .inr (.inl rfl)
  | p384 => exact .inr (.inr rfl)

theorem code_eq_of_crv {code' : Nat} (h : code = 0xED ∨ code = 0x1200 ∨ code = 0x1201)
    (h' : code' = 0xED ∨ code' = 0x1200 ∨ code' = 0x1201) (e : crvOf code = crvOf code') :
    code = code' := by
  rcases h with rfl | rfl | rfl <;> rcases h' with rfl | rfl | rfl <;>
    first | rfl | exact absurd e (by decide)

theorem code_eq_of_multicodec {code' : Nat} (h : code = 0xED ∨ code = 0x1200 ∨ code = 0x1201)
    (h' : code' = 0xED ∨ code' = 0x1200 ∨ code' = 0x1201) (e : multicodec code = multicodec code') :
    code = code' := by
  rcases h with rfl | rfl | rfl <;> rcases h' with rfl | rfl | rfl <;>
    first | rfl | exact absurd e (by decide)

theorem length_multicodec (code : Nat) : (multicodec code).length = 2 := by
  unfold multicodec
  split_ifs <;> rfl

/-- Two JWKs are one when the canonical bytes are. -/
theorem jwk_eq_iff (hC : Sec1 C) {code' : Nat} {key' : Bytes} {jwk' : Dict}
    (h : Carries C code key jwk) (h' : Carries C code' key' jwk') :
    jwk = jwk' ↔ multicodec code ++ canonicalKey code key =
      multicodec code' ++ canonicalKey code' key' := by
  constructor
  · intro e
    have hcrv := h.crv
    rw [e, h'.crv] at hcrv
    obtain rfl := code_eq_of_crv h.supported h'.supported (Json.str.inj hcrv).symm
    rw [(canonicalKey_eq_iff hC h h').mp e]
  · intro e
    obtain ⟨hcode, hkey⟩ := List.append_inj e
      ((length_multicodec code).trans (length_multicodec code').symm)
    obtain rfl := code_eq_of_multicodec h.supported h'.supported hcode
    exact (canonicalKey_eq_iff hC h h').mpr hkey

/-- What an accepted DID is made of. -/
theorem resolve_eq_ok (hs : Str.startsWith did "did:key:z" = true) :
    resolve C did = .ok doc ↔ ∃ raw code offset jwk, b58decode (did.drop 9) = .ok raw ∧
      readVarint raw = .ok (code, offset) ∧ Carries C code (raw.drop offset) jwk ∧
      doc = document did (did.drop 8) jwk := by
  obtain ⟨t, ht⟩ := List.isPrefixOf_iff_prefix.mp hs
  have hlen : (lit "did:key:").length = 8 := rfl
  have hz : Str.startsWith (did.drop 8) "z" = true := by
    rw [← ht]
    rfl
  simp only [resolve, bind_eq_ok, raiseIf_eq_ok, pure_eq_ok, hlen, hz, Bool.not_true, keyJwk_eq_ok,
    List.drop_drop, Prod.exists]
  constructor
  · rintro ⟨⟨⟩, -, raw, hraw, code, offset, hcode, jwk, hjwk, rfl⟩
    exact ⟨raw, code, offset, jwk, hraw, hcode, hjwk, rfl⟩
  · rintro ⟨raw, code, offset, jwk, hraw, hcode, hjwk, rfl⟩
    exact ⟨(), trivial, raw, hraw, code, offset, hcode, jwk, hjwk, rfl⟩

theorem spelled_injective {b b' c c' : Bytes} : spelled b c = spelled b' c' ↔ b ++ c = b' ++ c' := by
  rw [spelled, spelled, List.append_cancel_left_eq, b58btcEncode_injective.eq_iff]

theorem canonicalForm_eq (hraw : b58decode (did.drop 9) = .ok raw)
    (hcode : readVarint raw = .ok (code, offset)) :
    canonicalForm did = spelled (multicodec code) (canonicalKey code (raw.drop offset)) := by
  rw [canonicalForm, hraw]
  dsimp only
  rw [hcode]

theorem resolve_spelled {v : Bytes} (hv : readVarint (v ++ key) = .ok (code, v.length))
    (hkey : Carries C code key jwk) : ∃ doc, resolve C (spelled v key) = .ok doc ∧
      publicJwks doc = [jwk] := by
  have hraw : b58decode ((spelled v key).drop 9) = .ok (v ++ key) := by
    have hdrop : (spelled v key).drop 9 = b58btcEncode (v ++ key) := rfl
    rw [hdrop]
    exact didKey_b58decode_eq_ok.mpr ⟨isB58_encode _, (b58Bytes_encode _).symm⟩
  refine ⟨_, (resolve_eq_ok rfl).mpr ⟨_, _, _, jwk, hraw, hv, ?_, rfl⟩, rfl⟩
  rw [List.drop_left]
  exact hkey

/-- Two accepted DIDs resolve to different public keys exactly when their canonical forms differ: the
multicodec a varint of the fewest bytes, and a point compressed. -/
theorem resolve_distinct_iff (hC : Sec1 C) {did' : Str} {doc' : DidDocument}
    (hs : Str.startsWith did "did:key:z" = true) (hs' : Str.startsWith did' "did:key:z" = true)
    (h : resolve C did = .ok doc) (h' : resolve C did' = .ok doc') :
    publicJwks doc ≠ publicJwks doc' ↔ canonicalForm did ≠ canonicalForm did' := by
  obtain ⟨raw, code, offset, jwk, hraw, hcode, hjwk, rfl⟩ := (resolve_eq_ok hs).mp h
  obtain ⟨raw', code', offset', jwk', hraw', hcode', hjwk', rfl⟩ := (resolve_eq_ok hs').mp h'
  rw [canonicalForm_eq hraw hcode, canonicalForm_eq hraw' hcode', Ne, Ne, spelled_injective,
    ← jwk_eq_iff hC hjwk hjwk']
  simp [publicJwks, document]

/-! ## Two spellings of one key -/

/-- An Ed25519 key under the multicodec in two bytes, and in three: two DIDs, one public key. -/
theorem resolve_two_spellings :
    lit "did:key:z6MkeTGwHmLmuCmgg4ABYhzWVh6ZX7hTwWt8gguAretUfc9c" ≠
      lit "did:key:zQhVUSQC2YZFXuBdch7iZCadyfqqvCzhy3JHARYRVqGxkny2n" ∧
    ∀ C, ∃ doc doc',
      resolve C "did:key:z6MkeTGwHmLmuCmgg4ABYhzWVh6ZX7hTwWt8gguAretUfc9c" = .ok doc ∧
      resolve C "did:key:zQhVUSQC2YZFXuBdch7iZCadyfqqvCzhy3JHARYRVqGxkny2n" = .ok doc' ∧
      publicJwks doc = publicJwks doc' := by
  refine ⟨by decide, fun C => ?_⟩
  have hshort : spelled [0xED, 0x01] ((List.range 32).map UInt8.ofNat) =
      "did:key:z6MkeTGwHmLmuCmgg4ABYhzWVh6ZX7hTwWt8gguAretUfc9c" := by decide +kernel
  have hlong : spelled [0xED, 0x81, 0x00] ((List.range 32).map UInt8.ofNat) =
      "did:key:zQhVUSQC2YZFXuBdch7iZCadyfqqvCzhy3JHARYRVqGxkny2n" := by decide +kernel
  have hkey : Carries C 0xED ((List.range 32).map UInt8.ofNat) _ := .ed25519 _
  obtain ⟨doc, hdoc, hjwk⟩ := resolve_spelled (v := [0xED, 0x01]) rfl hkey
  obtain ⟨doc', hdoc', hjwk'⟩ := resolve_spelled (v := [0xED, 0x81, 0x00]) rfl hkey
  rw [hshort] at hdoc
  rw [hlong] at hdoc'
  exact ⟨doc, doc', hdoc, hdoc', hjwk.trans hjwk'.symm⟩

/-- The generator of P-256. -/
def generator : Nat × Nat :=
  (0x6B17D1F2E12C4247F8BCE6E563A440F277037D812DEB33A0F4A13945D898C296,
    0x4FE342E2FE1A7F9B8EE7EB4A7C0F9E162BCE33576B315ECECBB6406837BF51F5)

/-- The library, on the encodings of the generator. -/
def generatorCrypto : Crypto :=
  { Crypto.ofTable [] with
    ecDecodePoint := fun curve b =>
      if curve = .p256 ∧ (b = sec1Compressed .p256 generator ∨ b = sec1Uncompressed .p256 generator)
      then some generator else none }

theorem generator_decodes {b : Bytes}
    (hb : b = sec1Compressed .p256 generator ∨ b = sec1Uncompressed .p256 generator) :
    generatorCrypto.ecDecodePoint .p256 b = some generator := by
  have hcond : (Curve.p256 = .p256) ∧
      (b = sec1Compressed .p256 generator ∨ b = sec1Uncompressed .p256 generator) := ⟨rfl, hb⟩
  change (if (Curve.p256 = .p256) ∧ (b = sec1Compressed .p256 generator ∨
    b = sec1Uncompressed .p256 generator) then some generator else none) = some generator
  rw [if_pos hcond]

theorem sec1_generatorCrypto : Sec1 generatorCrypto := by
  have hdecode : ∀ curve b p, generatorCrypto.ecDecodePoint curve b = some p →
      curve = .p256 ∧ p = generator ∧
        (b = sec1Compressed .p256 generator ∨ b = sec1Uncompressed .p256 generator) := by
    intro curve b p h
    change (if _ then _ else _) = _ at h
    split_ifs at h with hb
    cases h
    exact ⟨hb.1, rfl, hb.2⟩
  refine ⟨fun curve b p h => ?_, fun curve b p h => ?_, fun curve b p h => ?_, fun curve b p h => ?_⟩
  · obtain ⟨rfl, rfl, hb⟩ := hdecode curve b p h
    exact hb
  · obtain ⟨rfl, rfl, -⟩ := hdecode curve b p h
    decide
  · obtain ⟨rfl, rfl, -⟩ := hdecode curve b p h
    exact generator_decodes (.inl rfl)
  · obtain ⟨rfl, rfl, -⟩ := hdecode curve b p h
    exact generator_decodes (.inr rfl)

/-- The same at the generator of P-256, compressed and uncompressed. -/
theorem resolve_distinct_iff_generator : ∃ doc doc',
    resolve generatorCrypto (spelled [0x80, 0x24] (sec1Compressed .p256 generator)) = .ok doc ∧
    resolve generatorCrypto (spelled [0x80, 0x24] (sec1Uncompressed .p256 generator)) = .ok doc' ∧
    (publicJwks doc ≠ publicJwks doc' ↔
      canonicalForm (spelled [0x80, 0x24] (sec1Compressed .p256 generator)) ≠
        canonicalForm (spelled [0x80, 0x24] (sec1Uncompressed .p256 generator))) := by
  obtain ⟨doc, hdoc, -⟩ := resolve_spelled (v := [0x80, 0x24]) rfl
    (.p256 (C := generatorCrypto) (sec1Compressed .p256 generator) generator
      (generator_decodes (.inl rfl)))
  obtain ⟨doc', hdoc', -⟩ := resolve_spelled (v := [0x80, 0x24]) rfl
    (.p256 (C := generatorCrypto) (sec1Uncompressed .p256 generator) generator
      (generator_decodes (.inr rfl)))
  exact ⟨doc, doc', hdoc, hdoc', resolve_distinct_iff sec1_generatorCrypto rfl rfl hdoc hdoc'⟩

end OpenVC.Did.DidKey
