import OpenVC.Proof.EcdsaSd
import OpenVC.Proofs.CborProofs
import OpenVC.Python.Numeral

/-!
# The round trip of proof values

What is written of the components of a base or of a derived proof is read as those components, the
label map as the same map. A value is of one kind only.
-/

namespace OpenVC

open Python

/-! ## Values that are the same -/

namespace Cbor

theorem same_bytes {b : Bytes} {w : Cbor} (h : Same (.bytes b) w) : w = .bytes b := by
  cases w with
  | bytes b' =>
    rw [Same] at h
    rw [h]
  | _ => exact h.elim

theorem same_text {s : Str} {w : Cbor} (h : Same (.text s) w) : w = .text s := by
  cases w with
  | text s' =>
    rw [Same] at h
    rw [h]
  | _ => exact h.elim

theorem same_int {n : Int} {w : Cbor} (h : Same (.int n) w) : w = .int n := by
  cases w with
  | int n' =>
    rw [Same] at h
    rw [h]
  | _ => exact h.elim

theorem same_arr {l : List Cbor} {w : Cbor} (h : Same (.arr l) w) :
    ∃ l', w = .arr l' ∧ List.Forall₂ Same l l' := by
  cases w with
  | arr l' => exact ⟨l', rfl, sameList_iff.mp h⟩
  | _ => exact h.elim

theorem same_map {m : List (CborKey × Cbor)} {w : Cbor} (h : Same (.map m) w) :
    ∃ m', w = .map m' ∧ ∃ m'', List.Forall₂ SameEntry m m'' ∧ m''.Perm m' := by
  cases w with
  | map m' =>
    obtain ⟨m'', hsame, hperm⟩ := h
    exact ⟨m', rfl, m'', sameEntries_iff.mp hsame, hperm⟩
  | _ => exact h.elim

/-- A value that is the same only as itself. -/
def Plain (v : Cbor) : Prop := ∀ w, Same v w → w = v

theorem eq_of_forall₂_same {l l' : List Cbor} (hplain : ∀ v ∈ l, Plain v)
    (h : List.Forall₂ Same l l') : l' = l := by
  induction h with
  | nil => rfl
  | cons hv _ ih =>
    rw [List.forall_mem_cons] at hplain
    rw [hplain.1 _ hv, ih hplain.2]

theorem plain_arr {l : List Cbor} (hplain : ∀ v ∈ l, Plain v) : Plain (.arr l) := by
  intro w h
  obtain ⟨l', rfl, hall⟩ := same_arr h
  rw [eq_of_forall₂_same hplain hall]

theorem plain_bytesArray (l : List Bytes) : Plain (.arr (l.map .bytes)) := by
  refine plain_arr fun v hv => ?_
  obtain ⟨b, -, rfl⟩ := List.mem_map.mp hv
  exact fun w => same_bytes

theorem perm_of_same_map {m : List (CborKey × Cbor)} (hplain : ∀ e ∈ m, Plain e.2) {w : Cbor}
    (h : Same (.map m) w) : ∃ m', w = .map m' ∧ m.Perm m' := by
  obtain ⟨m', rfl, m'', hall, hperm⟩ := same_map h
  refine ⟨m', rfl, ?_⟩
  have heq : m'' = m := by
    clear hperm h
    induction hall with
    | nil => rfl
    | @cons e e' m m'' he _ ih =>
      rw [List.forall_mem_cons] at hplain
      obtain ⟨hkey, hval⟩ := he
      rw [ih hplain.2, Prod.ext hkey.symm (hplain.1 _ hval)]
  rw [← heq]
  exact hperm

end Cbor

namespace EcdsaSd

/-! ## Multibase and the subset -/

theorem mbDecode_mbEncode (b : Bytes) : mbDecode (mbEncode b) = .ok b := by
  have hstart : Str.startsWith (mbEncode b) "u" = true := rfl
  have hdrop : (mbEncode b).drop 1 = Codec.b64urlEncode b := rfl
  rw [mbDecode, hstart, hdrop, Codec.b64urlDecodePadded_b64urlEncode]
  rfl

theorem mbEncode_injective : Function.Injective mbEncode := by
  intro a b h
  exact Codec.b64urlEncode_injective (List.cons.inj h).2

theorem checkProofSubsetList_eq_ok {l : List Cbor} :
    checkProofSubsetList l = .ok () ↔ ∀ v ∈ l, checkProofSubset v = .ok () := by
  induction l with
  | nil => simp [checkProofSubsetList]
  | cons v l ih =>
    rw [checkProofSubsetList, List.forall_mem_cons, ← ih, bind_eq_ok]
    constructor
    · rintro ⟨⟨⟩, hv, hl⟩
      exact ⟨hv, hl⟩
    · rintro ⟨hv, hl⟩
      exact ⟨(), hv, hl⟩

theorem checkProofSubsetEntries_eq_ok {m : List (CborKey × Cbor)} :
    checkProofSubsetEntries m = .ok () ↔
      ∀ e ∈ m, checkProofKey e.1 = .ok () ∧ checkProofSubset e.2 = .ok () := by
  induction m with
  | nil => simp [checkProofSubsetEntries]
  | cons e m ih =>
    obtain ⟨key, v⟩ := e
    rw [checkProofSubsetEntries, List.forall_mem_cons, ← ih]
    simp only [bind_eq_ok]
    constructor
    · rintro ⟨⟨⟩, hkey, ⟨⟩, hv, hm⟩
      exact ⟨⟨hkey, hv⟩, hm⟩
    · rintro ⟨⟨hkey, hv⟩, hm⟩
      exact ⟨(), hkey, (), hv, hm⟩

theorem encodeCbor_eq_ok {obj : Cbor} {b : Bytes} :
    encodeCbor obj = .ok b ↔ checkProofSubset obj = .ok () ∧ Cbor.encode obj = .ok b := by
  simp only [encodeCbor, checkEncodable, bind_eq_ok, reraise_eq_ok]
  constructor
  · rintro ⟨⟨⟩, hcheck, hb⟩
    exact ⟨hcheck, hb⟩
  · rintro ⟨hcheck, hb⟩
    exact ⟨(), hcheck, hb⟩

theorem decodeCbor_eq_ok {b : Bytes} {w : Cbor} :
    decodeCbor b = .ok w ↔ Cbor.decode b = .ok w ∧ checkProofSubset w = .ok () := by
  simp only [decodeCbor, bind_eq_ok, reraise_eq_ok, pure_eq_ok]
  constructor
  · rintro ⟨v, hv, ⟨⟩, hcheck, rfl⟩
    exact ⟨hv, hcheck⟩
  · rintro ⟨hw, hcheck⟩
    exact ⟨w, hw, (), hcheck, rfl⟩

/-- A header and what was written after it. -/
theorem mbDecode_header (header body : Bytes) :
    mbDecode (mbEncode (header ++ body)) = .ok (header ++ body) ∧
      header.isPrefixOf (header ++ body) = true ∧
      (header ++ body).drop header.length = body :=
  ⟨mbDecode_mbEncode _, List.isPrefixOf_iff_prefix.mpr (List.prefix_append _ _), List.drop_left⟩

/-! ## Base proofs -/

/-- The elements of a base proof value, as they are read. -/
def BaseProof.parts (p : BaseProof) : BaseParts :=
  ⟨.bytes p.baseSignature, .bytes p.publicKey, .bytes p.hmacKey, .arr (p.signatures.map .bytes),
    .arr (p.mandatoryPointers.map .text)⟩

theorem BaseProof.wf (p : BaseProof) : Cbor.WF p.toCbor := by
  simp only [toCbor, Cbor.WF, Cbor.WFList, Cbor.wfList_iff, List.mem_map, true_and, and_true]
  constructor
  · rintro v ⟨b, -, rfl⟩
    trivial
  · rintro v ⟨s, -, rfl⟩
    trivial

theorem depth_flat {l : List Cbor} (h : ∀ v ∈ l, Cbor.depth v = 0) : Cbor.depth (.arr l) ≤ 1 := by
  have hlt : Cbor.depthList l < 2 := by
    rw [Cbor.depthList_lt_iff Nat.two_pos]
    intro v hv
    rw [h v hv]
    omega
  rw [Cbor.depth]
  omega

theorem depth_five {a b c d e : Cbor} (h : ∀ v ∈ [a, b, c, d, e], Cbor.depth v ≤ 1) :
    Cbor.depth (.arr [a, b, c, d, e]) ≤ Cbor.maxDepth := by
  have hlt : Cbor.depthList [a, b, c, d, e] < 3 := by
    rw [Cbor.depthList_lt_iff (by omega)]
    intro v hv
    have := h v hv
    omega
  rw [Cbor.depth, Cbor.maxDepth]
  omega

theorem BaseProof.depth_le (p : BaseProof) : Cbor.depth p.toCbor ≤ Cbor.maxDepth := by
  refine depth_five ?_
  simp only [List.forall_mem_cons, Cbor.depth, Nat.zero_le, true_and]
  refine ⟨depth_flat fun v hv => ?_, depth_flat fun v hv => ?_, nofun⟩
  · obtain ⟨b, -, rfl⟩ := List.mem_map.mp hv
    rfl
  · obtain ⟨s, -, rfl⟩ := List.mem_map.mp hv
    rfl

theorem BaseProof.plain (p : BaseProof) : Cbor.Plain p.toCbor := by
  refine Cbor.plain_arr ?_
  simp only [List.forall_mem_cons]
  refine ⟨fun w => Cbor.same_bytes, fun w => Cbor.same_bytes, fun w => Cbor.same_bytes,
    Cbor.plain_bytesArray _, Cbor.plain_arr fun v hv => ?_, nofun⟩
  obtain ⟨s, -, rfl⟩ := List.mem_map.mp hv
  exact fun w => Cbor.same_text

theorem decodeBaseProof_encode {p : BaseProof} {s : Str} (h : encodeBaseProof p = .ok s) :
    decodeBaseProof s = .ok p.parts := by
  obtain ⟨body, hbody, hs⟩ := bind_eq_ok.mp h
  cases hs
  obtain ⟨hcheck, hencode⟩ := encodeCbor_eq_ok.mp hbody
  obtain ⟨w, hw, hsame⟩ := Cbor.codec_canonical.1 _ _ p.wf p.depth_le hencode
  rw [p.plain w hsame] at hw
  obtain ⟨hraw, hstarts, hdrop⟩ := mbDecode_header baseProofHeader body
  rw [decodeBaseProof, hraw]
  refine bind_eq_ok.mpr ⟨_, rfl, ?_⟩
  rw [hstarts, hdrop, decodeCbor_eq_ok.mpr ⟨hw, hcheck⟩]
  rfl

/-! ## Label maps -/

section Labels

variable {other : Str → Option Int}

theorem intOf_ofNat (n : Nat) : intOf other (Str.ofNat n) =
    if (Str.ofNat n).length ≤ JsonLoads.maxStrDigits then some (n : Int) else none := by
  have hdigits : Str.ofNat n ≠ [] ∧ ∀ c ∈ Str.ofNat n, Str.isDigit c = true :=
    ⟨Str.ofNat_ne_nil n, fun c hc => Str.isDigit_of_mem_ofNat hc⟩
  rw [intOf, if_pos hdigits, Str.toNat_ofNat]

/-- The integer keys of a compressed label map. -/
def asInts (c : List (Nat × Bytes)) : List (Int × Bytes) := c.map fun e => ((e.1 : Int), e.2)

theorem setIndex_of_not_mem {out : List (Int × Bytes)} {index : Int} {digest : Bytes}
    (h : index ∉ out.map Prod.fst) : setIndex out index digest = out ++ [(index, digest)] := by
  induction out with
  | nil => rfl
  | cons e out ih =>
    rw [List.map_cons, List.mem_cons, not_or] at h
    rw [setIndex, if_neg (Ne.symm h.1), ih h.2]
    rfl

/-- An entry of a canonical label map. -/
theorem compressEntry_eq_ok {out res : List (Int × Bytes)} {e : Nat × Bytes} :
    compressEntry other out (lit "c14n" ++ Str.ofNat e.1, mbEncode e.2) = .ok res ↔
      (Str.ofNat e.1).length ≤ JsonLoads.maxStrDigits ∧ res = setIndex out e.1 e.2 := by
  have hstart : Str.startsWith (lit "c14n" ++ Str.ofNat e.1) "c14n" = true :=
    List.isPrefixOf_iff_prefix.mpr (List.prefix_append _ _)
  have hdrop : (lit "c14n" ++ Str.ofNat e.1).drop 4 = Str.ofNat e.1 := by
    change List.drop (lit "c14n").length _ = _
    exact List.drop_left
  simp only [compressEntry, bind_eq_ok, raiseIf_eq_ok, orRaise_eq_ok, pure_eq_ok, hstart, hdrop,
    mbDecode_mbEncode, intOf_ofNat]
  constructor
  · rintro ⟨⟨⟩, -, digest, hdigest, index, hindex, rfl⟩
    cases hdigest
    split at hindex
    · next hlength =>
      cases hindex
      exact ⟨hlength, rfl⟩
    · cases hindex
  · rintro ⟨hlength, rfl⟩
    exact ⟨(), rfl, _, rfl, _, if_pos hlength, rfl⟩

/-- The loop over a canonical label map, whose numbers are not in what has been collected. -/
theorem compress_loop {c : List (Nat × Bytes)} (hnodup : (c.map Prod.fst).Nodup)
    {out res : List (Int × Bytes)} (hnew : ∀ e ∈ c, ((e.1 : Nat) : Int) ∉ out.map Prod.fst)
    (i : Nat) :
    enumerateLoop (fun out _ entry => compressEntry other out entry) out i
        (decompressLabelMap c) = .ok res ↔
      (∀ e ∈ c, (Str.ofNat e.1).length ≤ JsonLoads.maxStrDigits) ∧ res = out ++ asInts c := by
  induction c generalizing out i with
  | nil => simp [decompressLabelMap, enumerateLoop, asInts, eq_comm]
  | cons e c ih =>
    rw [List.map_cons, List.nodup_cons] at hnodup
    rw [List.forall_mem_cons] at hnew
    have hset : setIndex out e.1 e.2 = out ++ [((e.1 : Int), e.2)] := setIndex_of_not_mem hnew.1
    have hnew' : ∀ f ∈ c, ((f.1 : Nat) : Int) ∉ (setIndex out e.1 e.2).map Prod.fst := by
      intro f hf
      rw [hset, List.map_append, List.mem_append, not_or]
      refine ⟨hnew.2 f hf, fun hmem => hnodup.1 ?_⟩
      have heq : (f.1 : Int) = e.1 := List.mem_singleton.mp hmem
      rw [← Int.ofNat_inj.mp heq]
      exact List.mem_map_of_mem hf
    have hih := @ih hnodup.2 (setIndex out e.1 e.2) hnew' (i + 1)
    rw [decompressLabelMap, List.map_cons, enumerateLoop, bind_eq_ok, List.forall_mem_cons]
    constructor
    · rintro ⟨mid, hmid, hrest⟩
      obtain ⟨hindex, rfl⟩ := compressEntry_eq_ok.mp hmid
      obtain ⟨hall, rfl⟩ := hih.mp hrest
      refine ⟨⟨hindex, hall⟩, ?_⟩
      rw [hset, List.append_assoc]
      rfl
    · rintro ⟨⟨hindex, hall⟩, rfl⟩
      refine ⟨_, compressEntry_eq_ok.mpr ⟨hindex, rfl⟩, hih.mpr ⟨hall, ?_⟩⟩
      rw [hset, List.append_assoc]
      rfl

theorem compressLabelMap_decompress {c : List (Nat × Bytes)} (hnodup : (c.map Prod.fst).Nodup)
    {res : List (Int × Bytes)} :
    compressLabelMap other (decompressLabelMap c) = .ok res ↔
      (∀ e ∈ c, (Str.ofNat e.1).length ≤ JsonLoads.maxStrDigits) ∧ res = asInts c :=
  compress_loop hnodup (fun _ _ => List.not_mem_nil) 0

theorem compressLabelMap_of_small {c : List (Nat × Bytes)} (hnodup : (c.map Prod.fst).Nodup)
    (hsmall : ∀ e ∈ c, e.1 < 2 ^ 64) :
    compressLabelMap other (decompressLabelMap c) = .ok (asInts c) := by
  refine (compressLabelMap_decompress hnodup).mpr ⟨fun e he => ?_, rfl⟩
  have hlt := hsmall e he
  have hlength : (Str.ofNat e.1).length ≤ 20 := (Str.length_ofNat_le_iff (by omega)).mpr (by omega)
  exact hlength.trans (by decide)

end Labels

/-- A canonical label map that repeats no label: from `c14nN` to multibase texts. -/
structure Canonical (labelMap : List (Str × Str)) : Prop where
  keys : (labelMap.map Prod.fst).Nodup
  labels : (labelMap.map Prod.snd).Nodup
  entries : ∀ e ∈ labelMap, ∃ (n : Nat) (b : Bytes), e = (lit "c14n" ++ Str.ofNat n, mbEncode b)

theorem map_fst_decompress (c : List (Nat × Bytes)) :
    (decompressLabelMap c).map Prod.fst =
      (c.map Prod.fst).map fun n => lit "c14n" ++ Str.ofNat n := by
  rw [decompressLabelMap, List.map_map, List.map_map]
  rfl

theorem map_snd_decompress (c : List (Nat × Bytes)) :
    (decompressLabelMap c).map Prod.snd = (c.map Prod.snd).map mbEncode := by
  rw [decompressLabelMap, List.map_map, List.map_map]
  rfl

theorem exists_of_mem_decompress {c : List (Nat × Bytes)} {n : Nat} {label : Str}
    (h : (lit "c14n" ++ Str.ofNat n, label) ∈ decompressLabelMap c) :
    ∃ b, (n, b) ∈ c ∧ label = mbEncode b := by
  obtain ⟨⟨n', b⟩, hmem, heq⟩ := List.mem_map.mp h
  obtain ⟨hname, hlabel⟩ := Prod.mk.inj heq
  obtain rfl : n' = n := Str.ofNat_injective (List.append_cancel_left hname)
  exact ⟨b, hmem, hlabel.symm⟩

theorem Canonical.exists_decompress {labelMap : List (Str × Str)} (h : Canonical labelMap) :
    ∃ c : List (Nat × Bytes), (c.map Prod.fst).Nodup ∧ (c.map Prod.snd).Nodup ∧
      decompressLabelMap c = labelMap := by
  have hform : ∃ c, decompressLabelMap c = labelMap := by
    have hentries := h.entries
    clear h
    induction labelMap with
    | nil => exact ⟨[], rfl⟩
    | cons e labelMap ih =>
      rw [List.forall_mem_cons] at hentries
      obtain ⟨n, b, rfl⟩ := hentries.1
      obtain ⟨c, rfl⟩ := ih hentries.2
      exact ⟨(n, b) :: c, rfl⟩
  obtain ⟨c, rfl⟩ := hform
  have hkeys := h.keys
  have hlabels := h.labels
  rw [map_fst_decompress] at hkeys
  rw [map_snd_decompress] at hlabels
  exact ⟨c, hkeys.of_map, hlabels.of_map, rfl⟩

theorem nodup_decompress {c : List (Nat × Bytes)} (hkeys : (c.map Prod.fst).Nodup)
    (hvals : (c.map Prod.snd).Nodup) :
    ((decompressLabelMap c).map Prod.fst).Nodup ∧ ((decompressLabelMap c).map Prod.snd).Nodup := by
  rw [map_fst_decompress, map_snd_decompress]
  refine ⟨hkeys.map fun a b h => ?_, hvals.map mbEncode_injective⟩
  exact Str.ofNat_injective (List.append_cancel_left h)

/-! ## Derived proofs -/

/-- The entries of a compressed map, as CBOR has them. -/
def mapEntries (c : List (Nat × Bytes)) : List (CborKey × Cbor) :=
  (asInts c).map fun e => (.int e.1, .bytes e.2)

theorem labelEntry_mapEntries (c : List (Nat × Bytes)) :
    (mapEntries c).filterMap labelEntry = c := by
  induction c with
  | nil => rfl
  | cons e c ih =>
    rw [mapEntries, asInts, List.map_cons, List.map_cons, List.filterMap_cons]
    change e :: (mapEntries c).filterMap labelEntry = e :: c
    rw [ih]

theorem compressedMap_of_perm {c : List (Nat × Bytes)} {m : List (CborKey × Cbor)}
    (h : (mapEntries c).Perm m) : ∃ c', compressedMap (.map m) = some c' ∧ c.Perm c' := by
  have hall : m.all (fun e => (labelEntry e).isSome) = true := by
    rw [List.all_eq_true]
    intro e he
    obtain ⟨f, hf, rfl⟩ := List.mem_map.mp (h.mem_iff.mpr he)
    obtain ⟨g, -, rfl⟩ := List.mem_map.mp hf
    rfl
  refine ⟨m.filterMap labelEntry, ?_, ?_⟩
  · rw [compressedMap, if_pos hall]
  · have hperm := h.filterMap labelEntry
    rw [labelEntry_mapEntries] at hperm
    exact hperm

theorem arrayOf_map {α : Type} {f : Cbor → Option α} {g : α → Cbor} (h : ∀ a, f (g a) = some a)
    (l : List α) : arrayOf f (.arr (l.map g)) = some l := by
  have hall : (l.map g).all (fun v => (f v).isSome) = true := by
    rw [List.all_map, List.all_eq_true]
    intro a _
    simp [h a]
  rw [arrayOf, if_pos hall, List.filterMap_map]
  have hcomp : f ∘ g = some := funext h
  rw [hcomp, List.filterMap_some]

theorem nodup_keys_mapEntries {c : List (Nat × Bytes)} (h : (c.map Prod.fst).Nodup) :
    ((mapEntries c).map Prod.fst).Nodup := by
  have hkeys : (mapEntries c).map Prod.fst =
      (c.map Prod.fst).map fun n : Nat => CborKey.int (Int.ofNat n) := by
    rw [mapEntries, asInts, List.map_map, List.map_map, List.map_map]
    rfl
  rw [hkeys]
  refine h.map fun a b hab => ?_
  exact Int.ofNat_inj.mp (CborKey.int.inj hab)

section Derived

variable {p : DerivedParts} {c : List (Nat × Bytes)}

theorem DerivedParts.wf (hkeys : (c.map Prod.fst).Nodup) : Cbor.WF (p.toCbor (asInts c)) := by
  have hnodup := nodup_keys_mapEntries hkeys
  rw [toCbor, Cbor.WF, Cbor.wfList_iff]
  simp only [List.forall_mem_cons]
  refine ⟨trivial, trivial, Cbor.wfList_iff.mpr fun v hv => ?_,
    ⟨hnodup, Cbor.wfEntries_iff.mpr fun e he => ?_⟩, Cbor.wfList_iff.mpr fun v hv => ?_,
    List.forall_mem_nil _⟩
  · obtain ⟨b, -, rfl⟩ := List.mem_map.mp hv
    trivial
  · obtain ⟨f, -, rfl⟩ := List.mem_map.mp he
    exact (trivial : Cbor.WF (.bytes f.2))
  · obtain ⟨n, -, rfl⟩ := List.mem_map.mp hv
    trivial

theorem DerivedParts.depth_le : Cbor.depth (p.toCbor (asInts c)) ≤ Cbor.maxDepth := by
  refine depth_five ?_
  simp only [List.forall_mem_cons]
  refine ⟨Nat.zero_le _, Nat.zero_le _, depth_flat fun v hv => ?_, ?_, depth_flat fun v hv => ?_,
    nofun⟩
  · obtain ⟨b, -, rfl⟩ := List.mem_map.mp hv
    rfl
  · have hlt : Cbor.depthEntries (mapEntries c) < 2 := by
      rw [Cbor.depthEntries_lt_iff Nat.two_pos]
      intro e he
      obtain ⟨f, -, rfl⟩ := List.mem_map.mp he
      exact (Nat.lt_add_one 1 : Cbor.depth (.bytes f.2) + 1 < 2)
    rw [Cbor.depth]
    exact Nat.le_of_lt_succ hlt
  · obtain ⟨n, -, rfl⟩ := List.mem_map.mp hv
    rfl

/-- What a derived proof value is read as: the label map in another order. -/
structure DerivedParts.ReadAs (p : DerivedParts) (y : DerivedProof) : Prop where
  baseSignature : y.baseSignature = p.baseSignature
  publicKey : y.publicKey = p.publicKey
  signatures : y.signatures = p.signatures
  labelMap : y.labelMap.Perm p.labelMap
  mandatoryIndexes : y.mandatoryIndexes.map Int.ofNat = p.mandatoryIndexes

theorem exists_indexes {l : List Int}
    (h : ∀ v ∈ l.map Cbor.int, checkProofSubset v = .ok ()) :
    ∃ ns : List Nat, l = ns.map Int.ofNat := by
  refine ⟨l.map Int.toNat, ?_⟩
  rw [List.map_map]
  conv_lhs => rw [← List.map_id l]
  refine List.map_congr_left fun n hn => ?_
  have hcheck := h _ (List.mem_map_of_mem hn)
  rw [checkProofSubset, raiseIf_eq_ok, decide_eq_false_iff_not] at hcheck
  have hnonneg : 0 ≤ n := by omega
  change n = Int.ofNat n.toNat
  exact (Int.toNat_of_nonneg hnonneg).symm

theorem decodeDerivedProof_encode {other : Str → Option Int} (hcanonical : Canonical p.labelMap)
    {s : Str} (h : encodeDerivedProof other p = .ok s) :
    ∃ y, decodeDerivedProof s = .ok y ∧ p.ReadAs y := by
  obtain ⟨c, hkeys, hvals, hmap⟩ := hcanonical.exists_decompress
  obtain ⟨compressed, hcompressed, h⟩ := bind_eq_ok.mp h
  obtain ⟨body, hbody, hs⟩ := bind_eq_ok.mp h
  cases hs
  rw [← hmap, compressLabelMap_decompress hkeys] at hcompressed
  obtain ⟨-, rfl⟩ := hcompressed
  obtain ⟨hcheck, hencode⟩ := encodeCbor_eq_ok.mp hbody
  obtain ⟨w, hw, hsame⟩ :=
    Cbor.codec_canonical.1 _ _ (DerivedParts.wf hkeys) DerivedParts.depth_le hencode
  -- the elements of what is read: only the map may be in another order
  obtain ⟨l, rfl, hall⟩ := Cbor.same_arr hsame
  cases hall with | cons h1 hall =>
  cases hall with | cons h2 hall =>
  cases hall with | cons h3 hall =>
  cases hall with | cons h4 hall =>
  cases hall with | cons h5 hall =>
  cases hall
  obtain rfl := Cbor.same_bytes h1
  obtain rfl := Cbor.same_bytes h2
  obtain rfl := Cbor.plain_bytesArray _ _ h3
  have hints : Cbor.Plain (.arr (p.mandatoryIndexes.map .int)) := by
    refine Cbor.plain_arr fun v hv => ?_
    obtain ⟨n, -, rfl⟩ := List.mem_map.mp hv
    exact fun w => Cbor.same_int
  obtain rfl := hints _ h5
  have hentries : ∀ e ∈ mapEntries c, Cbor.Plain e.2 := by
    intro e he
    obtain ⟨f, -, rfl⟩ := List.mem_map.mp he
    exact fun w => Cbor.same_bytes
  obtain ⟨m, rfl, hperm⟩ := Cbor.perm_of_same_map hentries h4
  -- the shape is checked element by element
  rw [DerivedParts.toCbor, checkProofSubset, checkProofSubsetList_eq_ok] at hcheck
  simp only [List.forall_mem_cons] at hcheck
  obtain ⟨hc1, hc2, hc3, hc4, hc5, -⟩ := hcheck
  rw [checkProofSubset, checkProofSubsetEntries_eq_ok] at hc4
  have hcheck' : checkProofSubset (.arr [.bytes p.baseSignature, .bytes p.publicKey,
      .arr (p.signatures.map .bytes), .map m, .arr (p.mandatoryIndexes.map .int)]) = .ok () := by
    rw [checkProofSubset, checkProofSubsetList_eq_ok]
    simp only [List.forall_mem_cons]
    refine ⟨hc1, hc2, hc3, ?_, hc5, nofun⟩
    rw [checkProofSubset, checkProofSubsetEntries_eq_ok]
    exact fun e he => hc4 e (hperm.mem_iff.mpr he)
  rw [checkProofSubset, checkProofSubsetList_eq_ok] at hc5
  obtain ⟨ns, hns⟩ := exists_indexes hc5
  obtain ⟨c', hc', hperm'⟩ := compressedMap_of_perm hperm
  obtain ⟨hraw, hstarts, hdrop⟩ := mbDecode_header derivedProofHeader body
  have hvals' : (c'.map Prod.snd).Nodup := (hperm'.map Prod.snd).nodup_iff.mp hvals
  refine ⟨⟨p.baseSignature, p.publicKey, p.signatures, decompressLabelMap c', ns⟩, ?_,
    ⟨rfl, rfl, rfl, ?_, hns.symm⟩⟩
  · have hbytes : arrayOf bytes? (.arr (p.signatures.map .bytes)) = some p.signatures :=
      arrayOf_map (f := bytes?) (g := .bytes) (fun _ => rfl) _
    have hindexes : arrayOf index? (.arr (p.mandatoryIndexes.map .int)) = some ns := by
      rw [hns, List.map_map]
      exact arrayOf_map (f := index?) (g := fun n => .int (Int.ofNat n)) (fun _ => rfl) ns
    simp only [decodeDerivedProof, bind_eq_ok, raiseIf_eq_ok, orRaise_eq_ok, pure_eq_ok]
    have hparts : decodeCbor ((derivedProofHeader ++ body).drop derivedProofHeader.length) =
        .ok (.arr [.bytes p.baseSignature, .bytes p.publicKey, .arr (p.signatures.map .bytes),
          .map m, .arr (p.mandatoryIndexes.map .int)]) := by
      rw [hdrop]
      exact decodeCbor_eq_ok.mpr ⟨hw, hcheck'⟩
    refine ⟨_, hraw, (), ?_, _, hparts, _, rfl, _, rfl, _, rfl, _, hbytes, _, hc', _, hindexes, (),
      ?_, rfl⟩
    · rw [hstarts]
      rfl
    · rw [decide_eq_true hvals']
      rfl
  · rw [← hmap]
    exact hperm'.symm.map _

end Derived

/-! ## The values that are written -/

theorem exists_encode_arr {l : List Cbor} (hlength : l.length < 2 ^ 64)
    (h : ∀ v ∈ l, ∃ b, Cbor.encode v = .ok b) : ∃ b, Cbor.encode (.arr l) = .ok b := by
  obtain ⟨head, hhead⟩ := Cbor.exists_head 4 hlength
  refine ⟨head ++ l.flatMap Cbor.valueCode, ?_⟩
  rw [Cbor.encode]
  exact bind_eq_ok.mpr ⟨head, hhead, bind_eq_ok.mpr ⟨_, Cbor.encodeItems_eq_ok.mpr ⟨h, rfl⟩, rfl⟩⟩

theorem exists_encode_five {a b c d e : Cbor}
    (h : ∀ v ∈ [a, b, c, d, e], ∃ code, Cbor.encode v = .ok code) :
    ∃ code, Cbor.encode (.arr [a, b, c, d, e]) = .ok code :=
  exists_encode_arr (by simp) h

theorem exists_encode_bytes {b : Bytes} (h : b.length < 2 ^ 64) :
    ∃ code, Cbor.encode (.bytes b) = .ok code := by
  rw [Cbor.encode]
  exact Cbor.exists_encodeBytes h

theorem exists_encode_bytesArray {l : List Bytes} (hlength : l.length < 2 ^ 64)
    (h : ∀ b ∈ l, b.length < 2 ^ 64) : ∃ code, Cbor.encode (.arr (l.map .bytes)) = .ok code := by
  refine exists_encode_arr (by rwa [List.length_map]) fun v hv => ?_
  obtain ⟨b, hb, rfl⟩ := List.mem_map.mp hv
  exact exists_encode_bytes (h b hb)

theorem exists_encodeCbor {v : Cbor} (hcheck : checkProofSubset v = .ok ())
    (h : ∃ b, Cbor.encode v = .ok b) : ∃ b, encodeCbor v = .ok b := by
  obtain ⟨b, hb⟩ := h
  exact ⟨b, encodeCbor_eq_ok.mpr ⟨hcheck, hb⟩⟩

/-- The sizes of a base proof that CBOR can write; a pointer is a text that UTF-8 can write. -/
structure BaseProof.Fits (p : BaseProof) : Prop where
  baseSignature : p.baseSignature.length < 2 ^ 64
  publicKey : p.publicKey.length < 2 ^ 64
  hmacKey : p.hmacKey.length < 2 ^ 64
  signatures : p.signatures.length < 2 ^ 64 ∧ ∀ b ∈ p.signatures, b.length < 2 ^ 64
  mandatoryPointers : p.mandatoryPointers.length < 2 ^ 64 ∧
    ∀ s ∈ p.mandatoryPointers, ∃ b, Codec.encodeUtf8 s = some b ∧ b.length < 2 ^ 64

theorem BaseProof.check (p : BaseProof) : checkProofSubset p.toCbor = .ok () := by
  have hbytes : checkProofSubset (.arr (p.signatures.map .bytes)) = .ok () := by
    rw [checkProofSubset, checkProofSubsetList_eq_ok]
    intro v hv
    obtain ⟨b, -, rfl⟩ := List.mem_map.mp hv
    rfl
  have htexts : checkProofSubset (.arr (p.mandatoryPointers.map .text)) = .ok () := by
    rw [checkProofSubset, checkProofSubsetList_eq_ok]
    intro v hv
    obtain ⟨s, -, rfl⟩ := List.mem_map.mp hv
    rfl
  rw [toCbor, checkProofSubset, checkProofSubsetList_eq_ok]
  simp only [List.forall_mem_cons]
  exact ⟨rfl, rfl, rfl, hbytes, htexts, nofun⟩

theorem BaseProof.Fits.encodes {p : BaseProof} (h : p.Fits) : ∃ s, encodeBaseProof p = .ok s := by
  have hpointers : ∃ code, Cbor.encode (.arr (p.mandatoryPointers.map .text)) = .ok code := by
    refine exists_encode_arr (by rw [List.length_map]; exact h.mandatoryPointers.1) fun v hv => ?_
    obtain ⟨s, hs, rfl⟩ := List.mem_map.mp hv
    obtain ⟨b, hb, hlength⟩ := h.mandatoryPointers.2 s hs
    rw [Cbor.encode]
    exact Cbor.exists_encodeText hb hlength
  have hencode : ∃ code, Cbor.encode p.toCbor = .ok code := by
    refine exists_encode_five ?_
    simp only [List.forall_mem_cons]
    exact ⟨exists_encode_bytes h.baseSignature, exists_encode_bytes h.publicKey,
      exists_encode_bytes h.hmacKey, exists_encode_bytesArray h.signatures.1 h.signatures.2,
      hpointers, List.forall_mem_nil _⟩
  obtain ⟨body, hbody⟩ := exists_encodeCbor p.check hencode
  exact ⟨_, bind_eq_ok.mpr ⟨body, hbody, rfl⟩⟩

/-- The sizes of a derived proof that CBOR can write; an integer is one of 64 bits. -/
structure DerivedParts.Fits (p : DerivedParts) : Prop where
  baseSignature : p.baseSignature.length < 2 ^ 64
  publicKey : p.publicKey.length < 2 ^ 64
  signatures : p.signatures.length < 2 ^ 64 ∧ ∀ b ∈ p.signatures, b.length < 2 ^ 64
  labelMap : p.labelMap.length < 2 ^ 64 ∧ ∀ n b,
    (lit "c14n" ++ Str.ofNat n, mbEncode b) ∈ p.labelMap → n < 2 ^ 64 ∧ b.length < 2 ^ 64
  mandatoryIndexes : p.mandatoryIndexes.length < 2 ^ 64 ∧
    ∀ n ∈ p.mandatoryIndexes, 0 ≤ n ∧ n < 2 ^ 64

theorem DerivedParts.check {p : DerivedParts} {c : List (Nat × Bytes)}
    (h : ∀ n ∈ p.mandatoryIndexes, 0 ≤ n) : checkProofSubset (p.toCbor (asInts c)) = .ok () := by
  have hbytes : checkProofSubset (.arr (p.signatures.map .bytes)) = .ok () := by
    rw [checkProofSubset, checkProofSubsetList_eq_ok]
    intro v hv
    obtain ⟨b, -, rfl⟩ := List.mem_map.mp hv
    rfl
  have hmap : checkProofSubset (.map (mapEntries c)) = .ok () := by
    rw [checkProofSubset, checkProofSubsetEntries_eq_ok]
    intro e he
    obtain ⟨f, hf, rfl⟩ := List.mem_map.mp he
    obtain ⟨g, -, rfl⟩ := List.mem_map.mp hf
    refine ⟨?_, rfl⟩
    rw [checkProofKey, raiseIf_eq_ok, decide_eq_false_iff_not]
    exact Int.not_lt.mpr (Int.natCast_nonneg g.1)
  have hindexes : checkProofSubset (.arr (p.mandatoryIndexes.map .int)) = .ok () := by
    rw [checkProofSubset, checkProofSubsetList_eq_ok]
    intro v hv
    obtain ⟨n, hn, rfl⟩ := List.mem_map.mp hv
    rw [checkProofSubset, raiseIf_eq_ok, decide_eq_false_iff_not]
    exact Int.not_lt.mpr (h n hn)
  rw [toCbor, checkProofSubset, checkProofSubsetList_eq_ok]
  simp only [List.forall_mem_cons]
  exact ⟨rfl, rfl, hbytes, hmap, hindexes, List.forall_mem_nil _⟩

theorem DerivedParts.Fits.encodes {other : Str → Option Int} {p : DerivedParts}
    (hcanonical : Canonical p.labelMap) (h : p.Fits) :
    ∃ s, encodeDerivedProof other p = .ok s := by
  obtain ⟨c, hkeys, -, hmap⟩ := hcanonical.exists_decompress
  have hsmall : ∀ e ∈ c, e.1 < 2 ^ 64 ∧ e.2.length < 2 ^ 64 := by
    intro e he
    refine h.labelMap.2 e.1 e.2 ?_
    rw [← hmap]
    exact List.mem_map_of_mem he
  have hcompress : compressLabelMap other p.labelMap = .ok (asInts c) := by
    rw [← hmap]
    exact compressLabelMap_of_small hkeys fun e he => (hsmall e he).1
  have hentries : ∃ code, Cbor.encode (.map (mapEntries c)) = .ok code := by
    have hlength : (mapEntries c).length < 2 ^ 64 := by
      have hlen := h.labelMap.1
      rw [← hmap, decompressLabelMap, List.length_map] at hlen
      rwa [mapEntries, asInts, List.length_map, List.length_map]
    obtain ⟨head, hhead⟩ := Cbor.exists_head 5 hlength
    refine ⟨_, Cbor.encode_map_eq_ok.mpr ⟨fun e he => ?_, fun e he => ?_, head, hhead, rfl⟩⟩
    · obtain ⟨f, hf, rfl⟩ := List.mem_map.mp he
      obtain ⟨g, hg, rfl⟩ := List.mem_map.mp hf
      have hlt := (hsmall g hg).1
      exact Cbor.exists_encodeInt (n := (g.1 : Int)) (by omega)
    · obtain ⟨f, hf, rfl⟩ := List.mem_map.mp he
      obtain ⟨g, hg, rfl⟩ := List.mem_map.mp hf
      exact exists_encode_bytes (hsmall g hg).2
  have hindexes : ∃ code, Cbor.encode (.arr (p.mandatoryIndexes.map .int)) = .ok code := by
    refine exists_encode_arr (by rw [List.length_map]; exact h.mandatoryIndexes.1) fun v hv => ?_
    obtain ⟨n, hn, rfl⟩ := List.mem_map.mp hv
    have hrange := h.mandatoryIndexes.2 n hn
    rw [Cbor.encode]
    exact Cbor.exists_encodeInt (by omega)
  have hencode : ∃ code, Cbor.encode (p.toCbor (asInts c)) = .ok code := by
    refine exists_encode_five ?_
    simp only [List.forall_mem_cons]
    exact ⟨exists_encode_bytes h.baseSignature, exists_encode_bytes h.publicKey,
      exists_encode_bytesArray h.signatures.1 h.signatures.2, hentries, hindexes,
      List.forall_mem_nil _⟩
  have hcheck := DerivedParts.check (c := c) fun n hn => (h.mandatoryIndexes.2 n hn).1
  obtain ⟨body, hbody⟩ := exists_encodeCbor hcheck hencode
  exact ⟨_, bind_eq_ok.mpr ⟨_, hcompress, bind_eq_ok.mpr ⟨body, hbody, rfl⟩⟩⟩

/-! ## The values that are read -/

theorem header_of_base {s : Str} {z : BaseParts} (h : decodeBaseProof s = .ok z) :
    ∃ raw, mbDecode s = .ok raw ∧ baseProofHeader <+: raw := by
  obtain ⟨raw, hraw, h⟩ := bind_eq_ok.mp h
  obtain ⟨⟨⟩, hstarts, -⟩ := bind_eq_ok.mp h
  rw [raiseIf_eq_ok, Bool.not_eq_false'] at hstarts
  exact ⟨raw, hraw, List.isPrefixOf_iff_prefix.mp hstarts⟩

theorem not_base_of_derived {s : Str} {y : DerivedProof} (h : decodeDerivedProof s = .ok y)
    (z : BaseParts) : decodeBaseProof s ≠ .ok z := by
  intro hz
  obtain ⟨raw, hraw, hbase⟩ := header_of_base hz
  obtain ⟨raw', hraw', h⟩ := bind_eq_ok.mp h
  obtain ⟨⟨⟩, hstarts, -⟩ := bind_eq_ok.mp h
  rw [hraw] at hraw'
  cases hraw'
  rw [raiseIf_eq_ok, Bool.not_eq_false', List.isPrefixOf_iff_prefix] at hstarts
  have heq := List.prefix_of_prefix_length_le hbase hstarts (Nat.le_refl 3)
  exact absurd (heq.eq_of_length rfl) (by decide)

theorem nodup_labelEntries {m : List (CborKey × Cbor)} (h : (m.map Prod.fst).Nodup) :
    ((m.filterMap labelEntry).map Prod.fst).Nodup := by
  induction m with
  | nil => exact List.nodup_nil
  | cons e m ih =>
    rw [List.map_cons, List.nodup_cons] at h
    rw [List.filterMap_cons]
    cases hentry : labelEntry e with
    | none => exact ih h.2
    | some f =>
      rw [List.map_cons, List.nodup_cons]
      refine ⟨fun hmem => h.1 ?_, ih h.2⟩
      obtain ⟨g, hg, hkey⟩ := List.mem_map.mp hmem
      obtain ⟨e', he', hentry'⟩ := List.mem_filterMap.mp hg
      have hfst : e'.1 = e.1 := by
        have hkey' : ∀ {e : CborKey × Cbor} {f : Nat × Bytes}, labelEntry e = some f →
            e.1 = .int (.ofNat f.1) := by
          intro e f hf
          unfold labelEntry at hf
          split at hf
          · cases hf
            rfl
          · cases hf
        rw [hkey' hentry', hkey' hentry, hkey]
      rw [← hfst]
      exact List.mem_map_of_mem he'

theorem nodup_of_derived {s : Str} {y : DerivedProof} (h : decodeDerivedProof s = .ok y) :
    (y.labelMap.map Prod.fst).Nodup ∧ (y.labelMap.map Prod.snd).Nodup := by
  simp only [decodeDerivedProof, bind_eq_ok, raiseIf_eq_ok, orRaise_eq_ok, pure_eq_ok] at h
  obtain ⟨raw, -, ⟨⟩, -, w, hw, five, hfive, _, -, _, -, _, -, c, hc, _, -, ⟨⟩, hlabels, rfl⟩ := h
  rw [Bool.not_eq_false', decide_eq_true_eq] at hlabels
  obtain ⟨hdecode, -⟩ := decodeCbor_eq_ok.mp hw
  obtain ⟨hwf, -⟩ := Cbor.codec_canonical.2.2.2 _ _ hdecode
  obtain ⟨e1, e2, e3, e4, e5⟩ := five
  have harr : w = .arr [e1, e2, e3, e4, e5] := by
    unfold fiveParts at hfive
    split at hfive
    · cases hfive
      rfl
    · cases hfive
  rw [harr, Cbor.WF, Cbor.wfList_iff] at hwf
  have hmap := hwf e4 (by simp)
  refine nodup_decompress ?_ hlabels
  cases e4 with
  | map m =>
    obtain ⟨hkeys, -⟩ := hmap
    change compressedMap (.map m) = some c at hc
    rw [compressedMap] at hc
    split at hc
    · cases hc
      exact nodup_labelEntries hkeys
    · cases hc
  | _ => cases hc

/-! ## The round trip -/

/-- The components of a proof value that CBOR can write are written and read back, the label map as
the same map; compressing and decompressing a label map undo each other, as far as `int` reads its
numbers; a derived value that is read repeats no node and no label, and is not the value of a base
proof. -/
theorem proofValues_roundTrip (other : Str → Option Int) :
    (∀ p : BaseProof, p.Fits → ∃ s, encodeBaseProof p = .ok s ∧ decodeBaseProof s = .ok p.parts) ∧
    (∀ p : DerivedParts, Canonical p.labelMap → p.Fits → ∃ s y,
      encodeDerivedProof other p = .ok s ∧ decodeDerivedProof s = .ok y ∧ p.ReadAs y) ∧
    (∀ labelMap, Canonical labelMap →
      (∀ n b, (lit "c14n" ++ Str.ofNat n, b) ∈ labelMap →
        (Str.ofNat n).length ≤ JsonLoads.maxStrDigits) →
      ∃ c, compressLabelMap other labelMap = .ok (asInts c) ∧ decompressLabelMap c = labelMap) ∧
    (∀ c : List (Nat × Bytes), (c.map Prod.fst).Nodup →
      (∀ e ∈ c, (Str.ofNat e.1).length ≤ JsonLoads.maxStrDigits) →
      compressLabelMap other (decompressLabelMap c) = .ok (asInts c)) ∧
    (∀ s y, decodeDerivedProof s = .ok y →
      (y.labelMap.map Prod.fst).Nodup ∧ (y.labelMap.map Prod.snd).Nodup ∧
        ∀ z, decodeBaseProof s ≠ .ok z) := by
  refine ⟨fun p hfits => ?_, fun p hcanonical hfits => ?_, fun labelMap hcanonical hshort => ?_,
    fun c hkeys hshort => (compressLabelMap_decompress hkeys).mpr ⟨hshort, rfl⟩, fun s y h => ?_⟩
  · obtain ⟨s, hs⟩ := hfits.encodes
    exact ⟨s, hs, decodeBaseProof_encode hs⟩
  · obtain ⟨s, hs⟩ : ∃ s, encodeDerivedProof other p = .ok s := hfits.encodes hcanonical
    obtain ⟨y, hy, hread⟩ := decodeDerivedProof_encode hcanonical hs
    exact ⟨s, y, hs, hy, hread⟩
  · obtain ⟨c, hkeys, -, rfl⟩ := hcanonical.exists_decompress
    refine ⟨c, (compressLabelMap_decompress hkeys).mpr ⟨fun e he => ?_, rfl⟩, rfl⟩
    exact hshort e.1 (mbEncode e.2) (List.mem_map_of_mem he)
  · obtain ⟨hkeys, hlabels⟩ := nodup_of_derived h
    exact ⟨hkeys, hlabels, not_base_of_derived h⟩

/-- The compressed label map of two nodes. -/
def notedLabels : List (Nat × Bytes) := [(1, [7]), (0, [9])]

/-- A base proof of one statement and one pointer. -/
def notedBase : BaseProof := ⟨[1], [2], [3], [[4]], ["/issuer"]⟩

/-- A proof that is derived with the two nodes. -/
def notedDerived : DerivedParts := ⟨[1], [2], [[4]], decompressLabelMap notedLabels, [0, 2]⟩

theorem notedLabels_small {n : Nat} {b : Bytes} (h : (n, b) ∈ notedLabels) :
    n < 2 ∧ b.length = 1 := by
  have hall : ∀ e ∈ notedLabels, e.1 < 2 ∧ e.2.length = 1 := by decide
  exact hall _ h

/-- A value of each kind is written and read back, and the label map is compressed and back. -/
theorem proofValues_roundTrip_noted :
    (∃ s, encodeBaseProof notedBase = .ok s ∧ decodeBaseProof s = .ok notedBase.parts) ∧
    (∃ s y, encodeDerivedProof (fun _ => none) notedDerived = .ok s ∧
      decodeDerivedProof s = .ok y ∧ notedDerived.ReadAs y ∧ (y.labelMap.map Prod.snd).Nodup) ∧
    (∃ c, compressLabelMap (fun _ => none) notedDerived.labelMap = .ok (asInts c) ∧
      decompressLabelMap c = notedDerived.labelMap) ∧
    compressLabelMap (fun _ => none) (decompressLabelMap notedLabels) =
      .ok (asInts notedLabels) := by
  obtain ⟨hbase, hderived, hcompress, hdecompress, hread⟩ := proofValues_roundTrip fun _ => none
  have hcanonical : Canonical notedDerived.labelMap := by
    refine ⟨by decide, by decide, fun e he => ?_⟩
    obtain ⟨f, -, rfl⟩ := List.mem_map.mp he
    exact ⟨f.1, f.2, rfl⟩
  have hlabelMap : ∀ n b, (lit "c14n" ++ Str.ofNat n, mbEncode b) ∈ notedDerived.labelMap →
      n < 2 ^ 64 ∧ b.length < 2 ^ 64 := by
    intro n b h
    obtain ⟨b', hmem, heq⟩ := exists_of_mem_decompress h
    obtain ⟨hn, hb⟩ := notedLabels_small hmem
    rw [mbEncode_injective heq]
    omega
  have hshort : ∀ n < 2, (Str.ofNat n).length ≤ JsonLoads.maxStrDigits := by decide
  obtain ⟨s, y, hs, hy, hsame⟩ := hderived notedDerived hcanonical
    ⟨by decide, by decide, by decide, ⟨by decide, hlabelMap⟩, by decide⟩
  refine ⟨hbase notedBase ⟨by decide, by decide, by decide, by decide, by decide, ?_⟩,
    ⟨s, y, hs, hy, hsame, (hread s y hy).2.1⟩, hcompress _ hcanonical fun n label h => ?_,
    hdecompress _ (by decide) (by decide)⟩
  · exact List.forall_mem_singleton.mpr ⟨_, rfl, by decide⟩
  · obtain ⟨b, hmem, -⟩ := exists_of_mem_decompress h
    exact hshort n (notedLabels_small hmem).1

/-- A derived proof with an index that CBOR cannot write, or with a negative one, has no value. -/
theorem derived_index_refused :
    Canonical [] ∧
      encodeDerivedProof (fun _ => none) ⟨[], [], [], [], [2 ^ 64]⟩ =
        raise .ecdsaSdError "integer out of range for 64-bit CBOR" [] ∧
      encodeDerivedProof (fun _ => none) ⟨[], [], [], [], [-1]⟩ =
        raise .ecdsaSdError "only unsigned integers are part of the proof-value shape" [] :=
  ⟨⟨List.nodup_nil, List.nodup_nil, nofun⟩, by rfl, by rfl⟩

end EcdsaSd

end OpenVC
