import OpenVC.Did.Proofs.DidKeyProofs
import OpenVC.Logic.Positional
import OpenVC.Proofs.MultibaseProofs
import OpenVC.Python.Proofs.CodecProofs

/-!
# Base58btc is a bijection

Bytes and base58 texts are two ways to write a number of leading zeros and a value. The decoder of
`did:key` computes the same bytes as the one of `openvc.multibase`.
-/

namespace OpenVC.Multibase

open Python Positional

/-- A text over the base58 alphabet. -/
def IsB58 (s : Str) : Prop := ∀ c ∈ s, c ∈ b58

instance (s : Str) : Decidable (IsB58 s) := inferInstanceAs (Decidable (∀ c ∈ s, c ∈ b58))

/-- The digits of a text over the alphabet. -/
def b58ToDigits (s : Str) : List Nat := s.map b58.idxOf

/-- The text of base58 digits. -/
def b58OfDigits (ds : List Nat) : Str := ds.map fun d => b58.getD d 0

theorem idxOf_lt {c : Nat} (h : c ∈ b58) : b58.idxOf c < 58 := List.idxOf_lt_length_iff.mpr h

theorem getD_idxOf {c : Nat} (h : c ∈ b58) : b58.getD (b58.idxOf c) 0 = c := by
  have hlt : b58.idxOf c < b58.length := List.idxOf_lt_length_iff.mpr h
  rw [List.getD_eq_getElem _ _ hlt]
  exact List.getElem_idxOf hlt

theorem getD_mem {d : Nat} (h : d < 58) : b58.getD d 0 ∈ b58 := by
  have hlt : d < b58.length := h
  rw [List.getD_eq_getElem _ _ hlt]
  exact List.getElem_mem hlt

theorem idxOf_getD {d : Nat} (h : d < 58) : b58.idxOf (b58.getD d 0) = d := by
  have hmem := getD_mem h
  exact b58_getD_inj (idxOf_lt hmem) h (getD_idxOf hmem)

theorem b58OfDigits_toDigits {s : Str} (h : IsB58 s) : b58OfDigits (b58ToDigits s) = s := by
  rw [b58OfDigits, b58ToDigits, List.map_map]
  conv_rhs => rw [← List.map_id s]
  exact List.map_congr_left fun c hc => getD_idxOf (h c hc)

theorem b58ToDigits_ofDigits {ds : List Nat} (h : ∀ d ∈ ds, d < 58) :
    b58ToDigits (b58OfDigits ds) = ds := by
  rw [b58OfDigits, b58ToDigits, List.map_map]
  conv_rhs => rw [← List.map_id ds]
  exact List.map_congr_left fun d hd => idxOf_getD (h d hd)

theorem isB58_ofDigits {ds : List Nat} (h : ∀ d ∈ ds, d < 58) : IsB58 (b58OfDigits ds) := by
  intro c hc
  obtain ⟨d, hd, rfl⟩ := List.mem_map.mp hc
  exact getD_mem (h d hd)

theorem lt_of_mem_toDigits {s : Str} (h : IsB58 s) : ∀ d ∈ b58ToDigits s, d < 58 := by
  intro d hd
  obtain ⟨c, hc, rfl⟩ := List.mem_map.mp hd
  exact idxOf_lt (h c hc)

theorem zeros_toDigits {s : Str} (h : IsB58 s) :
    zeros (b58ToDigits s) = (s.takeWhile (· = 49)).length := by
  induction s with
  | nil => rfl
  | cons c s ih =>
    have hc := h c List.mem_cons_self
    have ih := ih fun x hx => h x (List.mem_cons_of_mem _ hx)
    unfold zeros b58ToDigits at ih ⊢
    by_cases h1 : c = 49
    · subst h1
      rw [List.map_cons, List.takeWhile_cons_of_pos (by decide), List.takeWhile_cons_of_pos (by decide),
        List.length_cons, List.length_cons, ih]
    · have h0 : b58.idxOf c ≠ 0 := by
        intro e
        have hget := getD_idxOf hc
        rw [e] at hget
        exact h1 hget.symm
      rw [List.map_cons, List.takeWhile_cons_of_neg (by simpa using h0),
        List.takeWhile_cons_of_neg (by simpa using h1)]

/-! ## The two digit loops -/

theorem b58Index_eq_some {ch d : Nat} : b58Index ch = some d ↔ ch ∈ b58 ∧ d = b58.idxOf ch := by
  unfold b58Index
  split
  · rename_i h
    simp [h, eq_comm]
  · rename_i h
    simp [h]

theorem b58Value_eq_ok {s : Str} {a n : Nat} :
    b58Value a s = .ok n ↔ IsB58 s ∧ n = (b58ToDigits s).foldl (fun a d => a * 58 + d) a := by
  induction s generalizing a with
  | nil => simp [b58Value, IsB58, b58ToDigits, eq_comm]
  | cons c s ih =>
    rw [b58Value]
    by_cases hc : c ∈ b58
    · rw [b58Index_eq_some.mpr ⟨hc, rfl⟩]
      dsimp only
      rw [ih]
      simp [IsB58, b58ToDigits, hc]
    · have hnone : b58Index c = none := if_neg hc
      rw [hnone]
      simp [IsB58, hc, raise]

theorem didKey_b58Value_eq_ok {s : Str} {a n : Nat} :
    Did.DidKey.b58Value a s = .ok n ↔
      IsB58 s ∧ n = (b58ToDigits s).foldl (fun a d => a * 58 + d) a := by
  induction s generalizing a with
  | nil => simp [Did.DidKey.b58Value, IsB58, b58ToDigits, eq_comm]
  | cons c s ih =>
    rw [Did.DidKey.b58Value]
    by_cases hc : c ∈ b58
    · rw [b58Index_eq_some.mpr ⟨hc, rfl⟩]
      dsimp only
      rw [ih]
      simp [IsB58, b58ToDigits, hc]
    · have hnone : b58Index c = none := if_neg hc
      rw [hnone]
      simp [IsB58, hc, raise]

theorem typed_b58Value (num : Nat) (s : Str) : Typed .multibaseError (b58Value num s) := by
  induction s generalizing num with
  | nil => exact raisesOnly_ok
  | cons ch t ih =>
    unfold b58Value
    split
    · exact ih _
    · exact typed_raise rfl

theorem typed_b58btcDecode (s : Str) : Typed .multibaseError (b58btcDecode s) := by
  refine (typed_raiseIf rfl).bind fun _ _ => ?_
  exact (typed_b58Value _ _).bind fun _ _ => raisesOnly_ok

/-- The bytes that a text over the alphabet stands for. -/
def b58Bytes (s : Str) : Bytes :=
  List.replicate (zeros (b58ToDigits s)) 0 ++ Codec.intToBytes (value 58 (b58ToDigits s))

theorem b58btcDecode_eq_ok {s : Str} {b : Bytes} :
    b58btcDecode s = .ok b ↔ s.length ≤ maxB58Len ∧ IsB58 s ∧ b = b58Bytes s := by
  simp only [b58btcDecode, bind_eq_ok, raiseIf_eq_ok, pure_eq_ok, b58Value_eq_ok,
    decide_eq_false_iff_not, not_lt]
  constructor
  · rintro ⟨⟨⟩, hlen, n, ⟨hs, rfl⟩, rfl⟩
    exact ⟨hlen, hs, by rw [b58Bytes, zeros_toDigits hs]; rfl⟩
  · rintro ⟨hlen, hs, rfl⟩
    exact ⟨(), hlen, _, ⟨hs, rfl⟩, by rw [b58Bytes, zeros_toDigits hs]; rfl⟩

theorem didKey_b58decode_eq_ok {s : Str} {b : Bytes} :
    Did.DidKey.b58decode s = .ok b ↔ IsB58 s ∧ b = b58Bytes s := by
  simp only [Did.DidKey.b58decode, bind_eq_ok, pure_eq_ok, didKey_b58Value_eq_ok]
  constructor
  · rintro ⟨n, ⟨hs, rfl⟩, rfl⟩
    exact ⟨hs, by rw [b58Bytes, zeros_toDigits hs]; rfl⟩
  · rintro ⟨hs, rfl⟩
    exact ⟨_, ⟨hs, rfl⟩, by rw [b58Bytes, zeros_toDigits hs]; rfl⟩

/-! ## The bijection -/

theorem b58btcEncode_eq (b : Bytes) :
    b58btcEncode b = b58OfDigits (List.replicate (b.takeWhile (· = 0)).length 0 ++
      numeral 58 (Codec.intFromBytes b)) := by
  rw [b58btcEncode, b58OfDigits, List.map_append, List.map_replicate, numeral, List.map_reverse]
  rfl

theorem lt_of_mem_append_numeral {k n : Nat} :
    ∀ d ∈ List.replicate k 0 ++ numeral 58 n, d < 58 := by
  intro d hd
  rcases List.mem_append.mp hd with hd | hd
  · rw [List.eq_of_mem_replicate hd]
    omega
  · exact lt_of_mem_numeral (by omega) hd

theorem isB58_encode (b : Bytes) : IsB58 (b58btcEncode b) := by
  rw [b58btcEncode_eq]
  exact isB58_ofDigits lt_of_mem_append_numeral

theorem b58Bytes_encode (b : Bytes) : b58Bytes (b58btcEncode b) = b := by
  rw [b58Bytes, b58btcEncode_eq, b58ToDigits_ofDigits lt_of_mem_append_numeral, zeros_append_numeral,
    value_append_numeral]
  exact (Codec.bytes_eq b).symm

theorem encode_b58Bytes {s : Str} (hs : IsB58 s) : b58btcEncode (b58Bytes s) = s := by
  have hzeros : ((b58Bytes s).takeWhile (· = 0)).length = zeros (b58ToDigits s) :=
    length_takeWhile_replicate _ fun _ _ h => Codec.intToBytes_cons_ne_zero h
  have hvalue : Codec.intFromBytes (b58Bytes s) = value 58 (b58ToDigits s) := by
    rw [b58Bytes, Codec.intFromBytes_append, Codec.intFromBytes_replicate, Nat.mul_zero, Nat.zero_add,
      Codec.intFromBytes_intToBytes]
  rw [b58btcEncode_eq, hzeros, hvalue, ← eq_append_numeral (by omega) (lt_of_mem_toDigits hs)]
  exact b58OfDigits_toDigits hs

/-- Base58btc is a bijection between the bytes and the texts over the alphabet, within the cap on the
length; nothing else is decoded, and the decoder of `did:key` decodes the same without the cap. -/
theorem b58btc_bijective :
    (∀ b, (b58btcEncode b).length ≤ maxB58Len → b58btcDecode (b58btcEncode b) = .ok b) ∧
    (∀ s, IsB58 s → s.length ≤ maxB58Len → ∃ b, b58btcDecode s = .ok b ∧ b58btcEncode b = s) ∧
    (∀ s, ¬ IsB58 s ∨ maxB58Len < s.length →
      ∃ e, b58btcDecode s = .error e ∧ e.cls.isa .multibaseError = true) ∧
    (∀ s b, b58btcDecode s = .ok b → Did.DidKey.b58decode s = .ok b) ∧
    (∀ s, (∃ e, Did.DidKey.b58decode s = .error e ∧ e.cls.isa .didResolutionError = true) ↔
      ¬ IsB58 s) := by
  refine ⟨fun b hlen => ?_, fun s hs hlen => ?_, fun s h => ?_, fun s b h => ?_, fun s => ?_⟩
  · exact b58btcDecode_eq_ok.mpr ⟨hlen, isB58_encode b, (b58Bytes_encode b).symm⟩
  · exact ⟨_, b58btcDecode_eq_ok.mpr ⟨hlen, hs, rfl⟩, encode_b58Bytes hs⟩
  · cases hd : b58btcDecode s with
    | error e => exact ⟨e, rfl, typed_b58btcDecode s e hd⟩
    | ok b =>
      obtain ⟨hlen, hs, -⟩ := b58btcDecode_eq_ok.mp hd
      rcases h with h | h
      · exact absurd hs h
      · omega
  · obtain ⟨-, hs, rfl⟩ := b58btcDecode_eq_ok.mp h
    exact didKey_b58decode_eq_ok.mpr ⟨hs, rfl⟩
  · constructor
    · rintro ⟨e, he, -⟩ hs
      rw [didKey_b58decode_eq_ok.mpr ⟨hs, rfl⟩] at he
      cases he
    · intro hs
      cases hd : Did.DidKey.b58decode s with
      | error e => exact ⟨e, rfl, Did.DidKey.typed_b58decode s e hd⟩
      | ok b => exact absurd (didKey_b58decode_eq_ok.mp hd).1 hs

/-- A text with leading ones, and one with a zero. -/
theorem b58btc_bijective_texts :
    (∃ b, b58btcDecode "11StV1DL6CwTryKyV" = .ok b ∧ b58btcEncode b = "11StV1DL6CwTryKyV") ∧
      ∃ e, b58btcDecode "0x" = .error e ∧ e.cls.isa .multibaseError = true :=
  ⟨b58btc_bijective.2.1 _ (by decide) (by decide),
    b58btc_bijective.2.2.1 _ (.inl (by decide))⟩

end OpenVC.Multibase
