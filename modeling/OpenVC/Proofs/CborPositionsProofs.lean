import OpenVC.CborWire
import OpenVC.Proofs.CborWireProofs
import OpenVC.Proofs.CoseTypedProofs

/-!
# The positions of the CBOR decoder

A position stands for the rest of the data behind it. The decoder by positions follows the decoder of
the rest step by step: it never indexes past the end, and no slice is cut off.
-/

namespace OpenVC.Cbor

open Python

variable {data : Bytes}

/-- The outcomes agree, the position standing for the rest of the data. -/
def Follows {α : Type} (data : Bytes) : Result (α × Bytes) → Result (α × Nat) → Prop
  | .ok (a, rest), .ok (b, j) => a = b ∧ rest = data.drop j ∧ j ≤ data.length
  | .error e, .error e' => e = e'
  | _, _ => False

theorem Follows.ok {α : Type} {a : α} {j : Nat} (hj : j ≤ data.length) :
    Follows data (.ok (a, data.drop j)) (.ok (a, j)) := ⟨rfl, rfl, hj⟩

theorem Follows.bind {α β : Type} {x : Result (α × Bytes)} {y : Result (α × Nat)}
    {f : α × Bytes → Result (β × Bytes)} {g : α × Nat → Result (β × Nat)} (h : Follows data x y)
    (hf : ∀ a j, j ≤ data.length → Follows data (f (a, data.drop j)) (g (a, j))) :
    Follows data (x >>= f) (y >>= g) := by
  cases x with
  | error e =>
    cases y with
    | error e' => exact h
    | ok q => exact h.elim
  | ok p =>
    cases y with
    | error e' => exact h.elim
    | ok q =>
      obtain ⟨a, rest⟩ := p
      obtain ⟨b, j⟩ := q
      obtain ⟨rfl, rfl, hj⟩ := h
      exact hf a j hj

theorem Follows.same {α β : Type} {x : Result α} {f : α → Result (β × Bytes)}
    {g : α → Result (β × Nat)} (h : ∀ a, Follows data (f a) (g a)) :
    Follows data (x >>= f) (x >>= g) := by
  cases x with
  | error e => exact rfl
  | ok a => exact h a

theorem Follows.ok_iff {α : Type} {x : Result (α × Bytes)} {y : Result (α × Nat)}
    (h : Follows data x y) {a : α} {j : Nat} :
    y = .ok (a, j) → x = .ok (a, data.drop j) ∧ j ≤ data.length := by
  rintro rfl
  cases x with
  | error e => exact h.elim
  | ok p =>
    obtain ⟨b, rest⟩ := p
    obtain ⟨rfl, rfl, hj⟩ := h
    exact ⟨rfl, hj⟩

theorem Follows.of_ok {α : Type} {x : Result (α × Bytes)} {y : Result (α × Nat)}
    (h : Follows data x y) {a : α} {rest : Bytes} (hx : x = .ok (a, rest)) :
    ∃ j, y = .ok (a, j) ∧ rest = data.drop j ∧ j ≤ data.length := by
  subst hx
  cases y with
  | error e => exact h.elim
  | ok q =>
    obtain ⟨b, j⟩ := q
    obtain ⟨rfl, hrest, hj⟩ := h
    exact ⟨j, rfl, hrest, hj⟩

theorem slice_eq (data : Bytes) (i n : Nat) : slice data i (i + n) = (data.drop i).take n := by
  rw [slice, List.drop_take, Nat.add_sub_cancel_left]

theorem follows_readBytes {i n : Nat} (hi : i ≤ data.length) (what : String) :
    Follows data (readBytes n (data.drop i) what) (readBytesFrom data i n what) := by
  have hlt : ((data.drop i).length < n) = (data.length < i + n) := by
    rw [List.length_drop]
    exact propext (by omega)
  unfold readBytes readBytesFrom
  simp only [hlt]
  by_cases hshort : data.length < i + n
  · rw [decide_eq_true hshort]
    exact rfl
  · rw [decide_eq_false hshort]
    refine ⟨(slice_eq data i n).symm, ?_, by omega⟩
    rw [List.drop_drop]

/-- What the two readers of a head have in common. -/
def HeadFollows (data : Bytes) (start : Nat) : Result Head → Result (Nat × Nat × Nat) → Prop
  | .ok h, .ok (major, n, j) => h.major = major ∧ h.argument = n ∧ h.rest = data.drop j ∧
      start < j ∧ j ≤ data.length ∧ ∃ ib : UInt8, data[start]? = some ib ∧ h.initial = ib.toNat
  | .error e, .error e' => e = e'
  | _, _ => False

theorem follows_readArgument {i : Nat} {ib : UInt8} (hib : data[i]? = some ib) :
    HeadFollows data i (readArgument ib.toNat (data.drop (i + 1)))
      (headFrom data (i + 1) (ib.toNat / 32) (ib.toNat % 32)) := by
  obtain ⟨hlt, -⟩ := List.getElem?_eq_some_iff.mp hib
  unfold readArgument headFrom
  by_cases h31 : (ib.toNat % 32 == 31) = true
  · rw [h31]
    exact rfl
  · rw [Bool.eq_false_of_not_eq_true h31]
    cases hb : argumentBytes (ib.toNat % 32) with
    | none => exact rfl
    | some nbytes =>
      have hiff : ((data.drop (i + 1)).length < nbytes) = (data.length < i + 1 + nbytes) := by
        rw [List.length_drop]
        exact propext (by omega)
      change HeadFollows data i
        (raiseIf (decide ((data.drop (i + 1)).length < nbytes)) _ >>= fun _ => _)
        (raiseIf (decide (data.length < i + 1 + nbytes)) _ >>= fun _ => _)
      simp only [hiff]
      by_cases hshort : data.length < i + 1 + nbytes
      · rw [decide_eq_true hshort]
        exact rfl
      · rw [decide_eq_false hshort]
        refine ⟨rfl, ?_, List.drop_drop, by omega, by omega, ib, hib, rfl⟩
        dsimp only
        rw [slice_eq]

theorem follows_readHead (i : Nat) :
    HeadFollows data i (readHead (data.drop i)) (readHeadFrom data i) := by
  unfold readHeadFrom
  by_cases hend : data.length ≤ i
  · rw [List.drop_eq_nil_of_le hend, decide_eq_true hend]
    exact rfl
  · have hlt : i < data.length := by omega
    have hget : data[i]? = some data[i] := List.getElem?_eq_getElem hlt
    rw [List.drop_eq_getElem_cons hlt, readHead, decide_eq_false hend, byteAt, hget]
    by_cases hshort : data[i].toNat % 32 < 24
    · rw [if_pos hshort]
      refine Eq.mpr (congrArg (HeadFollows data i _) (if_pos hshort)) ?_
      exact ⟨rfl, rfl, rfl, by omega, by omega, data[i], hget, rfl⟩
    · rw [if_neg hshort]
      refine Eq.mpr (congrArg (HeadFollows data i _) (if_neg hshort)) ?_
      exact follows_readArgument hget

section Loops

variable {item : Bytes → Result (Cbor × Bytes)} {itemFrom : Nat → Result (Cbor × Nat)}
  (hitem : ∀ i ≤ data.length, Follows data (item (data.drop i)) (itemFrom i))

include hitem

theorem follows_readItems (n : Nat) {i : Nat} (hi : i ≤ data.length) :
    Follows data (readItems item n (data.drop i)) (readItemsFrom itemFrom n i) := by
  induction n generalizing i with
  | zero => exact .ok hi
  | succ n ih =>
    refine (hitem i hi).bind fun v j hj => ?_
    exact (ih hj).bind fun vs k hk => .ok hk

theorem follows_readEntries (n : Nat) {i : Nat} (hi : i ≤ data.length)
    (entries : List (CborKey × Cbor)) :
    Follows data (readEntries item n entries (data.drop i)) (readEntriesFrom itemFrom n entries i) := by
  induction n generalizing i entries with
  | zero => exact .ok hi
  | succ n ih =>
    refine (hitem i hi).bind fun key j hj => ?_
    refine (hitem j hj).bind fun val k hk => ?_
    refine Follows.same fun key => ?_
    exact Follows.same fun _ => ih hk _

end Loops

theorem follows_decodeAt (left : Nat) {i : Nat} (hi : i ≤ data.length) :
    Follows data (decodeAt left (data.drop i)) (decodeFrom data left i) := by
  induction left generalizing i with
  | zero => exact rfl
  | succ left ih =>
    have hhead := @follows_readHead data i
    rw [decodeAt, decodeFrom]
    cases hh : readHead (data.drop i) with
    | error e =>
      cases hf : readHeadFrom data i with
      | error e' =>
        rw [hh, hf] at hhead
        exact hhead
      | ok q =>
        rw [hh, hf] at hhead
        exact hhead.elim
    | ok h =>
      cases hf : readHeadFrom data i with
      | error e' =>
        rw [hh, hf] at hhead
        exact hhead.elim
      | ok q =>
        obtain ⟨major, n, j⟩ := q
        rw [hh, hf] at hhead
        obtain ⟨rfl, rfl, hrest, hij, hj, ib, hib, hinitial⟩ := hhead
        change Follows data (decodeBody (decodeAt left) (data.drop i) h)
          (decodeBodyFrom data (decodeFrom data left) i h.major h.argument j)
        have hitem : ∀ i ≤ data.length,
            Follows data (decodeAt left (data.drop i)) (decodeFrom data left i) := fun i hi => ih hi
        unfold decodeBody decodeBodyFrom
        rw [hrest]
        rcases h.major with _ | _ | _ | _ | _ | _ | _ | m
        · exact .ok hj
        · exact .ok hj
        · exact (follows_readBytes hj _).bind fun b k hk => .ok hk
        · refine (follows_readBytes hj _).bind fun b k hk => ?_
          exact Follows.same fun text => .ok hk
        · exact (follows_readItems hitem _ hj).bind fun l k hk => .ok hk
        · exact (follows_readEntries hitem _ hj _).bind fun m k hk => .ok hk
        · refine (hitem j hj).bind fun v k hk => ?_
          have hslice : (data.drop i).take ((data.drop i).length - (data.drop k).length) =
              slice data i k := by
            rw [slice, List.drop_take, List.length_drop, List.length_drop]
            congr 1
            omega
          refine ⟨?_, rfl, hk⟩
          rw [hslice]
        · have hsimple : simpleFrom data i = simple h.info := by
            rw [simpleFrom, byteAt, hib, Head.info, hinitial]
            rfl
          rw [hsimple]
          exact Follows.same fun v => .ok hj

/-! ## The decoder reads the data -/

theorem decodeData_eq (data : Bytes) : decodeData data = decode data := by
  have h := @follows_decodeAt data (maxDepth + 1) 0 (Nat.zero_le _)
  rw [List.drop_zero] at h
  unfold decodeData decode
  cases hd : decodeAt (maxDepth + 1) data with
  | error e =>
    cases hf : decodeFrom data (maxDepth + 1) 0 with
    | error e' =>
      rw [hd, hf] at h
      rw [show e = e' from h]
      rfl
    | ok q =>
      rw [hd, hf] at h
      exact h.elim
  | ok p =>
    obtain ⟨v, rest⟩ := p
    obtain ⟨j, hf, rfl, hj⟩ := h.of_ok hd
    rw [hf]
    change (raiseIf (j != data.length) _ >>= fun _ => _) = (raiseIf (!(data.drop j).isEmpty) _ >>= fun _ => _)
    have hiff : (j != data.length) = !(data.drop j).isEmpty := by
      rw [Bool.eq_iff_iff, bne_iff_ne, Bool.not_eq_true', List.isEmpty_eq_false_iff, Ne, Ne,
        List.drop_eq_nil_iff]
      omega
    rw [hiff]

theorem decodeFrom_progress {left i j : Nat} {v : Cbor} (hi : i ≤ data.length)
    (h : decodeFrom data left i = .ok (v, j)) : i < j ∧ j ≤ data.length := by
  obtain ⟨hd, hj⟩ := (follows_decodeAt left hi).ok_iff h
  refine ⟨?_, hj⟩
  obtain ⟨w, -, hcode, -⟩ := Wire.exists_wire hd
  have hpos : 0 < w.code.length := by
    cases w <;> simp [Wire.code, Argument.head]
  have hlen := congrArg List.length hcode
  rw [List.length_append, List.length_drop, List.length_drop] at hlen
  omega

theorem slice_of_append {before c after : Bytes} (h : data = before ++ (c ++ after)) :
    slice data before.length (before.length + c.length) = c := by
  rw [slice_eq, h, List.drop_left, List.take_left]

theorem decode_iff {v : Cbor} :
    decode data = .ok v ↔ ∃ w : Wire, w.Written ∧ w.code = data ∧ w.value = some v ∧
      depth v ≤ maxDepth := by
  rw [decode_eq_ok]
  constructor
  · intro h
    obtain ⟨w, hw, hcode, hval⟩ := Wire.exists_wire h
    have hdepth := (decodeAt_spec h).2
    exact ⟨w, hw, by rw [hcode, List.append_nil], hval, by omega⟩
  · rintro ⟨w, hw, rfl, hval, hdepth⟩
    have hread := Wire.reads_code hw hval (show depth v < maxDepth + 1 by omega) []
    rwa [List.append_nil] at hread

/-- The decoder is exact. It raises `CborError` or returns; a read position only moves on and stays in
the data, and a result has read all of it. Every tag of a result, at any depth, records the bytes that
the syntax tree of the input has at its place, and they decode to that tag. An input with a length that
is not given, a float or a repeated key anywhere is refused. -/
theorem decode_exact (data : Bytes) :
    Typed .cborError (decodeData data) ∧
    (∀ left i v j, i ≤ data.length → decodeFrom data left i = .ok (v, j) → i < j ∧ j ≤ data.length) ∧
    (∀ v, decodeData data = .ok v → decodeFrom data (maxDepth + 1) 0 = .ok (v, data.length) ∧
      ∃ w : Wire, w.Written ∧ w.code = data ∧ w.value = some v ∧
        ∀ path n x raw, at? path v = some (.tag n x raw) → ∃ i u, w.at? path = some (i, u) ∧
          raw = some (slice data i (i + u.code.length)) ∧ slice data i (i + u.code.length) = u.code ∧
          i + u.code.length ≤ data.length ∧ decodeData u.code = .ok (.tag n x raw)) ∧
    (∀ w : Wire, w.Written → w.code = data → ∀ path i u, w.at? path = some (i, u) → u.Refused →
      ∃ e, decodeData data = .error e) := by
  simp only [decodeData_eq]
  refine ⟨typed_decode data, fun left i v j => decodeFrom_progress, fun v hv => ?_,
    fun w hw hcode path i u hu hrefused => ?_⟩
  · have hfrom : decodeFrom data (maxDepth + 1) 0 = .ok (v, data.length) := by
      have h := decode_eq_ok.mp hv
      rw [← List.drop_zero (l := data)] at h
      obtain ⟨j, hj, hrest, hle⟩ := (follows_decodeAt _ (Nat.zero_le _)).of_ok h
      have hend : data.length ≤ j := List.drop_eq_nil_iff.mp hrest.symm
      rw [hj, le_antisymm hle hend]
    obtain ⟨w, hw, hcode, hval, hdepth⟩ := decode_iff.mp hv
    refine ⟨hfrom, w, hw, hcode, hval, fun path n x raw hx => ?_⟩
    obtain ⟨i, u, hu, huval⟩ := Wire.at?_value hval hx
    obtain ⟨before, after, hwcode, rfl⟩ := Wire.code_at hu
    have hslice := slice_of_append (hcode.symm.trans hwcode)
    have hlen := congrArg List.length (hcode.symm.trans hwcode)
    rw [List.length_append, List.length_append] at hlen
    refine ⟨before.length, u, hu, ?_, hslice, by omega, ?_⟩
    · rw [hslice]
      cases u with
      | tag a c =>
        obtain ⟨y, -, heq⟩ := Option.map_eq_some_iff.mp huval
        cases heq
        rfl
      | text a b =>
        obtain ⟨y, -, heq⟩ := Option.map_eq_some_iff.mp huval
        cases heq
      | arr a l =>
        obtain ⟨y, -, heq⟩ := Option.map_eq_some_iff.mp huval
        cases heq
      | map a m =>
        obtain ⟨es, -, hmap⟩ := Option.bind_eq_some_iff.mp huval
        cases (Wire.mapOf_eq_some.mp hmap).2
      | special a =>
        rw [Wire.value, simple] at huval
        split_ifs at huval
        all_goals cases huval
      | _ => cases huval
    · exact decode_iff.mpr ⟨u, Wire.written_at hw hu, rfl, huval, (depth_at hx).trans hdepth⟩
  · cases hd : decode data with
    | error e => exact ⟨e, rfl⟩
    | ok v =>
      rw [decode_eq_ok, ← hcode, ← List.append_nil w.code] at hd
      obtain ⟨hval, -⟩ := Wire.value_of_decodeAt hw hd
      obtain ⟨x, hx⟩ := Wire.value_at hval hu
      rw [hrefused.value_eq_none] at hx
      cases hx

/-- An embedded item in an array; a map with the key 1 in two encodings. -/
theorem decode_exact_nested :
    (∃ (w : Wire) (i : Nat) (u : Wire), w.code = [0x81, 0xD8, 0x18, 0x41, 0xF6] ∧
      w.at? [0] = some (i, u) ∧ u.code = [0xD8, 0x18, 0x41, 0xF6]) ∧
    ∃ e, decodeData [0xA2, 0x01, 0x00, 0x18, 0x01, 0x00] = .error e := by
  constructor
  · have hread : decodeData [0x81, 0xD8, 0x18, 0x41, 0xF6] =
        .ok (.arr [.tag 24 (.bytes [0xF6]) (some [0xD8, 0x18, 0x41, 0xF6])]) := rfl
    obtain ⟨-, w, -, hcode, -, htags⟩ := (decode_exact _).2.2.1 _ hread
    obtain ⟨i, u, hu, hraw, hslice, -, -⟩ := htags [0] 24 _ _ rfl
    refine ⟨w, i, u, hcode, hu, ?_⟩
    rw [← hslice]
    exact (Option.some.inj hraw).symm
  · refine (decode_exact _).2.2.2 (.map ⟨2, [], .inl ⟨by omega, rfl⟩⟩
      [(.uint ⟨1, [], .inl ⟨by omega, rfl⟩⟩, .uint ⟨0, [], .inl ⟨by omega, rfl⟩⟩),
        (.uint ⟨24, [0x01], .inr rfl⟩, .uint ⟨0, [], .inl ⟨by omega, rfl⟩⟩)])
      ⟨rfl, ⟨trivial, trivial⟩, ⟨trivial, trivial⟩, trivial⟩ rfl [] 0 _ rfl ?_
    exact .duplicate _ [] [] [] _ _ _ _ (.int 1) rfl rfl

end OpenVC.Cbor
