import OpenVC.Ebsi.Proofs.OpenPgpReadsProofs
import OpenVC.Logic.Framing
import OpenVC.Proofs.ErrorsProofs
import OpenVC.Python.Proofs.CodecProofs

/-!
# Proofs: OpenPGP framing is exact

The codes of packets, subpackets and multiprecision integers, and that the reader takes exactly
these: what it returns is a decomposition of its whole input into codes, and every such
decomposition within the caps is read back.
-/

namespace OpenVC.OpenPgp

open Python PrefixReader

/-! ## Numbers at the front of a text -/

theorem bigEndian_append {code : Bytes} {width : Nat} (h : code.length = width) (rest : Bytes) :
    bigEndian (code ++ rest) width = Codec.intFromBytes code := by
  rw [bigEndian, List.take_left' h]

theorem bigEndian_intToFixed {n width : Nat} (h : n < 256 ^ width) (rest : Bytes) :
    bigEndian (Codec.intToFixed n width ++ rest) width = n := by
  rw [bigEndian_append (Codec.length_intToFixed h), Codec.intFromBytes_intToFixed]

theorem take_eq_intToFixed {data : Bytes} {width : Nat} (h : width ≤ data.length) :
    data.take width = Codec.intToFixed (bigEndian data width) width := by
  have hlen : (data.take width).length = width := List.length_take_of_le h
  conv_lhs => rw [← Codec.intToFixed_intFromBytes (data.take width), hlen]
  rfl

theorem bigEndian_lt {data : Bytes} {width : Nat} (h : width ≤ data.length) :
    bigEndian data width < 256 ^ width := by
  have hlt := Codec.intFromBytes_lt (data.take width)
  rwa [List.length_take_of_le h] at hlt

theorem bigEndian_cons (x : UInt8) (t : Bytes) : bigEndian (x :: t) 1 = x.toNat := by
  change 256 * 0 + x.toNat = x.toNat
  omega

/-! ## Packets -/

/-- A packet in an old-format header, with a length of one, two or four octets. -/
def PacketCode (p : Nat × Bytes) (code : Bytes) : Prop :=
  ∃ kind ≤ 2, p.1 < 16 ∧ p.2.length < 256 ^ 2 ^ kind ∧
    code = UInt8.ofNat (128 + 4 * p.1 + kind) ::
      (Codec.intToFixed p.2.length (2 ^ kind) ++ p.2)

/-- The packet at the front of a text. -/
def readPacket : Bytes → Result ((Nat × Bytes) × Bytes)
  | [] => fail "no packet" []
  | head :: rest => packet head rest >>= fun x => .ok ((x.1, x.2.1), x.2.2)

theorem lengthWidth_eq_some {head : UInt8} {width : Nat} :
    lengthWidth head = some width ↔ head.toNat % 4 ≤ 2 ∧ width = 2 ^ (head.toNat % 4) := by
  have hlt : head.toNat % 4 < 4 := Nat.mod_lt _ (by omega)
  unfold lengthWidth
  generalize head.toNat % 4 = k at hlt
  obtain rfl | rfl | rfl | rfl : k = 0 ∨ k = 1 ∨ k = 2 ∨ k = 3 := by omega
  · simp [eq_comm]
  · simp [eq_comm]
  · simp [eq_comm]
  · simp

theorem packet_eq_ok {head : UInt8} {rest body after : Bytes} {tag : Nat} :
    packet head rest = .ok (tag, body, after) ↔
      128 ≤ head.toNat ∧ head.toNat % 128 < 64 ∧ tag = head.toNat / 4 % 16 ∧
        head.toNat % 4 ≤ 2 ∧ body.length < 256 ^ 2 ^ (head.toNat % 4) ∧
        rest = Codec.intToFixed body.length (2 ^ (head.toNat % 4)) ++ body ++ after := by
  simp only [packet, bind_eq_ok, raiseIf_eq_ok, orRaise_eq_ok, pure_eq_ok, lengthWidth_eq_some,
    decide_eq_false_iff_not, not_lt, not_le]
  constructor
  · rintro ⟨⟨⟩, hhead, ⟨⟩, hnew, width, ⟨hkind, rfl⟩, ⟨⟩, hwidth, ⟨⟩, hlen, heq⟩
    obtain ⟨rfl, hparts⟩ := Prod.mk.inj heq
    obtain ⟨rfl, rfl⟩ := Prod.mk.inj hparts
    rw [List.length_take_of_le hlen, List.append_assoc, List.take_append_drop,
      ← take_eq_intToFixed hwidth, List.take_append_drop]
    exact ⟨hhead, hnew, rfl, hkind, bigEndian_lt hwidth, rfl⟩
  · rintro ⟨hhead, hnew, rfl, hkind, hlt, rfl⟩
    have hcode := Codec.length_intToFixed hlt
    have hdrop : (Codec.intToFixed body.length (2 ^ (head.toNat % 4)) ++ (body ++ after)).drop
        (2 ^ (head.toNat % 4)) = body ++ after := List.drop_left' hcode
    rw [List.append_assoc]
    refine ⟨(), hhead, (), hnew, _, ⟨hkind, rfl⟩, (), ?_, (), ?_, ?_⟩
    · rw [List.length_append, hcode]
      omega
    · rw [bigEndian_intToFixed hlt, hdrop, List.length_append]
      omega
    · rw [bigEndian_intToFixed hlt, hdrop, List.take_left, List.drop_left]

theorem readPacket_exact : Exact readPacket PacketCode := by
  rintro data ⟨tag, body⟩ after
  cases data with
  | nil =>
    refine iff_of_false (fun h => nomatch h) ?_
    rintro ⟨code, ⟨kind, -, -, -, rfl⟩, heq⟩
    cases heq
  | cons head rest =>
    have hread : readPacket (head :: rest) = .ok ((tag, body), after) ↔
        packet head rest = .ok (tag, body, after) := by
      rw [readPacket, bind_eq_ok]
      constructor
      · rintro ⟨⟨t, b, a⟩, h, heq⟩
        cases heq
        exact h
      · exact fun h => ⟨_, h, rfl⟩
    rw [hread, packet_eq_ok]
    have hhead := head.toNat_lt
    constructor
    · rintro ⟨hhigh, hnew, rfl, hkind, hlt, rfl⟩
      refine ⟨_, ⟨head.toNat % 4, hkind, by omega, hlt, rfl⟩, ?_⟩
      have htag : 128 + 4 * (head.toNat / 4 % 16) + head.toNat % 4 = head.toNat := by omega
      rw [htag, UInt8.ofNat_toNat]
      rfl
    · rintro ⟨code, ⟨kind, hkind, htag, hlt, rfl⟩, heq⟩
      rw [List.cons_append, List.cons.injEq] at heq
      obtain ⟨rfl, rfl⟩ := heq
      dsimp only at htag hlt
      rw [Codec.toNat_byte (by omega)]
      have hmod : (128 + 4 * tag + kind) % 4 = kind := by omega
      rw [hmod]
      exact ⟨by omega, by omega, by omega, hkind, hlt, rfl⟩

theorem packetsLoop_repeats : Repeats readPacket packetsLoop where
  nil n := by cases n <;> rfl
  full _ _ := ⟨_, rfl⟩
  more n head rest := by
    rw [packetsLoop, readPacket]
    simp only [bind_assoc]
    rfl

theorem typed_readPacket (data : Bytes) : Typed .openPgpError (readPacket data) := by
  cases data with
  | nil => exact typed_raise rfl
  | cons head rest =>
    refine RaisesOnly.bind ?_ fun _ _ => raisesOnly_ok
    refine (typed_raiseIf rfl).bind fun _ _ => ?_
    refine (typed_raiseIf rfl).bind fun _ _ => ?_
    refine (typed_orRaise rfl).bind fun width _ => ?_
    refine (typed_raiseIf rfl).bind fun _ _ => ?_
    exact (typed_raiseIf rfl).bind fun _ _ => raisesOnly_ok

theorem typed_packetsLoop (n : Nat) (data : Bytes) : Typed .openPgpError (packetsLoop n data) :=
  packetsLoop_repeats.raisesOnly (fun _ _ => typed_raise rfl) typed_readPacket n

theorem packetsLoop_eq_ok {n : Nat} {data : Bytes} {ps : List (Nat × Bytes)} :
    packetsLoop n data = .ok ps ↔ ps.length ≤ n ∧ Framed PacketCode ps data := by
  refine packetsLoop_repeats.eq_ok_iff readPacket_exact ?_
  rintro p code ⟨kind, -, -, -, rfl⟩
  exact List.cons_ne_nil _ _

/-! ## Subpackets -/

/-- A length in one of its three forms. -/
inductive LengthCode (n : Nat) : Bytes → Prop
  | one (h : n < 192) : LengthCode n [UInt8.ofNat n]
  | two (h : 192 ≤ n) (h' : n < 16320) :
      LengthCode n [UInt8.ofNat ((n - 192) / 256 + 192), UInt8.ofNat ((n - 192) % 256)]
  | five (h : n < 2 ^ 32) : LengthCode n (255 :: Codec.intToFixed n 4)

/-- A subpacket, its length in any form. -/
def SubpacketCode (s : Subpacket) (code : Bytes) : Prop :=
  s.kind < 128 ∧ ∃ len, LengthCode (s.data.length + 1) len ∧
    code = len ++ UInt8.ofNat (s.kind + if s.critical then 128 else 0) :: s.data

/-- The length at the front of a text. -/
def readLength : Bytes → Result (Nat × Bytes)
  | [] => fail "no subpacket" []
  | first :: rest => subpacketLength first rest

theorem readLength_exact : Exact readLength LengthCode := by
  intro data n after
  cases data with
  | nil =>
    refine iff_of_false (fun h => nomatch h) ?_
    rintro ⟨code, hcode, heq⟩
    cases hcode <;> cases heq
  | cons first rest =>
    have hfirst := first.toNat_lt
    rw [readLength, subpacketLength]
    split
    · rename_i hone
      constructor
      · rintro ⟨⟩
        refine ⟨_, .one hone, ?_⟩
        rw [UInt8.ofNat_toNat]
        rfl
      · rintro ⟨code, hcode, heq⟩
        cases hcode with
        | one h =>
          obtain ⟨rfl, rfl⟩ := List.cons.inj heq
          have hn : (UInt8.ofNat n).toNat = n := Codec.toNat_byte (by omega)
          exact congrArg (fun k => Except.ok (k, _)) hn
        | two h h' =>
          obtain ⟨rfl, -⟩ := List.cons.inj heq
          rw [Codec.toNat_byte (by omega)] at hone
          omega
        | five h =>
          obtain ⟨rfl, -⟩ := List.cons.inj heq
          exact absurd hone (by decide)
    · rename_i hone
      split
      · rename_i htwo
        simp only [bind_eq_ok, raiseIf_eq_ok, pure_eq_ok, decide_eq_false_iff_not, not_lt]
        constructor
        · rintro ⟨⟨⟩, hlen, heq⟩
          obtain ⟨rfl, rfl⟩ := Prod.mk.inj heq
          obtain ⟨second, rest, rfl⟩ := List.exists_cons_of_length_pos hlen
          have hsecond := second.toNat_lt
          rw [bigEndian_cons]
          refine ⟨_, .two (by omega) (by omega), ?_⟩
          have hhigh : ((first.toNat - 192) * 256 + second.toNat + 192 - 192) / 256 + 192 =
              first.toNat := by omega
          have hlow : ((first.toNat - 192) * 256 + second.toNat + 192 - 192) % 256 =
              second.toNat := by omega
          rw [hhigh, hlow, UInt8.ofNat_toNat, UInt8.ofNat_toNat]
          rfl
        · rintro ⟨code, hcode, heq⟩
          cases hcode with
          | one h =>
            obtain ⟨rfl, -⟩ := List.cons.inj heq
            rw [Codec.toNat_byte (by omega)] at hone
            omega
          | two h h' =>
            rw [List.cons_append, List.cons.injEq] at heq
            obtain ⟨rfl, rfl⟩ := heq
            refine ⟨(), by simp, ?_⟩
            rw [Codec.toNat_byte (by omega), List.cons_append, List.nil_append, bigEndian_cons,
              Codec.toNat_byte (by omega), List.drop_one, List.tail_cons, Prod.mk.injEq]
            exact ⟨by omega, rfl⟩
          | five h =>
            obtain ⟨rfl, -⟩ := List.cons.inj heq
            exact absurd htwo (by decide)
      · rename_i htwo
        have h255 : first = 255 := UInt8.toNat_inj.mp (by change first.toNat = 255; omega)
        subst h255
        simp only [bind_eq_ok, raiseIf_eq_ok, pure_eq_ok, decide_eq_false_iff_not, not_lt]
        constructor
        · rintro ⟨⟨⟩, hlen, heq⟩
          obtain ⟨rfl, rfl⟩ := Prod.mk.inj heq
          refine ⟨_, .five (bigEndian_lt hlen), ?_⟩
          rw [← take_eq_intToFixed hlen, List.cons_append, List.take_append_drop]
        · rintro ⟨code, hcode, heq⟩
          cases hcode with
          | one h =>
            obtain ⟨hb, -⟩ := List.cons.inj heq
            have hnat := congrArg UInt8.toNat hb
            rw [Codec.toNat_byte (by omega)] at hnat
            change 255 = n at hnat
            omega
          | two h h' =>
            obtain ⟨hb, -⟩ := List.cons.inj heq
            have hnat := congrArg UInt8.toNat hb
            rw [Codec.toNat_byte (by omega)] at hnat
            change 255 = _ at hnat
            omega
          | five h =>
            rw [List.cons_append, List.cons.injEq] at heq
            obtain ⟨-, rfl⟩ := heq
            have hcode : (Codec.intToFixed n 4).length = 4 := Codec.length_intToFixed h
            refine ⟨(), ?_, ?_⟩
            · rw [List.length_append, hcode]
              omega
            · have hlt : n < 256 ^ 4 := h
              rw [bigEndian_intToFixed hlt, List.drop_left' hcode]

/-- The type and the data of a subpacket of the given length. -/
def readContent (length : Nat) (rest : Bytes) : Result (Subpacket × Bytes) := do
  raiseIf (length < 1 || rest.length < length)
    ⟨.openPgpError, "a subpacket length is zero or runs past its area", []⟩
  return (⟨bigEndian rest 1 % 128, 128 ≤ bigEndian rest 1, (rest.take length).drop 1⟩,
    rest.drop length)

/-- A subpacket after its length. -/
def ContentCode (length : Nat) (s : Subpacket) (code : Bytes) : Prop :=
  s.kind < 128 ∧ length = s.data.length + 1 ∧
    code = UInt8.ofNat (s.kind + if s.critical then 128 else 0) :: s.data

theorem readContent_exact (length : Nat) : Exact (readContent length) (ContentCode length) := by
  rintro data ⟨kind, critical, body⟩ after
  simp only [readContent, bind_eq_ok, raiseIf_eq_ok, pure_eq_ok, Bool.or_eq_false_iff,
    decide_eq_false_iff_not, not_lt]
  constructor
  · rintro ⟨⟨⟩, ⟨hpos, hlen⟩, heq⟩
    obtain ⟨hsub, rfl⟩ := Prod.mk.inj heq
    cases hsub
    obtain ⟨first, rest, rfl⟩ := List.exists_cons_of_length_pos (hpos.trans hlen)
    have hfirst := first.toNat_lt
    obtain ⟨n, rfl⟩ : ∃ n, length = n + 1 := ⟨length - 1, by omega⟩
    rw [bigEndian_cons]
    refine ⟨first :: rest.take n, ⟨?_, ?_, ?_⟩, ?_⟩
    · exact Nat.mod_lt _ (by omega)
    · rw [List.length_drop, List.length_take_of_le hlen]
      omega
    · have hkind : (first.toNat % 128 + if decide (128 ≤ first.toNat) = true then 128 else 0) =
          first.toNat := by
        split
        · rename_i h
          have := of_decide_eq_true h
          omega
        · rename_i h
          have : ¬ 128 ≤ first.toNat := fun hge => h (decide_eq_true hge)
          omega
      dsimp only
      rw [hkind, UInt8.ofNat_toNat]
      rfl
    · rw [List.drop_succ_cons, List.cons_append, List.take_append_drop]
  · rintro ⟨code, ⟨hkind, rfl, rfl⟩, rfl⟩
    dsimp only at hkind ⊢
    have hoctet : (UInt8.ofNat (kind + if critical = true then 128 else 0)).toNat =
        kind + if critical = true then 128 else 0 := by
      refine Codec.toNat_byte ?_
      split <;> omega
    refine ⟨(), ⟨by omega, ?_⟩, ?_⟩
    · rw [List.cons_append, List.length_cons, List.length_append]
      omega
    · rw [List.cons_append, bigEndian_cons, hoctet, List.take_succ_cons, List.take_left,
        List.drop_succ_cons, List.drop_succ_cons, List.drop_left, List.drop_zero]
      cases critical
      · have hmod : (kind + if false = true then 128 else 0) % 128 = kind := by
          rw [if_neg Bool.false_ne_true]
          omega
        rw [hmod, decide_eq_false]
        rw [if_neg Bool.false_ne_true]
        omega
      · have hmod : (kind + if true = true then 128 else 0) % 128 = kind := by
          rw [if_pos rfl]
          omega
        rw [hmod, decide_eq_true]
        rw [if_pos rfl]
        omega

/-- The subpacket at the front of a text. -/
def readSubpacket (data : Bytes) : Result (Subpacket × Bytes) :=
  readLength data >>= fun x => readContent x.1 x.2

theorem readSubpacket_exact : Exact readSubpacket SubpacketCode := by
  intro data s after
  refine (readLength_exact.bind readContent_exact data s after).trans ?_
  refine exists_congr fun code => and_congr_left fun _ => ?_
  constructor
  · rintro ⟨_, len, _, hlen, ⟨hkind, rfl, rfl⟩, rfl⟩
    exact ⟨hkind, len, hlen, rfl⟩
  · rintro ⟨hkind, len, hlen, rfl⟩
    exact ⟨_, len, _, hlen, ⟨hkind, rfl, rfl⟩, rfl⟩

theorem subpacketsLoop_repeats : Repeats readSubpacket subpacketsLoop where
  nil n := by cases n <;> rfl
  full _ _ := ⟨_, rfl⟩
  more n first rest := by
    rw [subpacketsLoop, readSubpacket, readLength]
    simp only [readContent, bind_assoc]
    rfl

theorem typed_readLength (data : Bytes) : Typed .openPgpError (readLength data) := by
  cases data with
  | nil => exact typed_raise rfl
  | cons first rest =>
    rw [readLength, subpacketLength]
    split
    · exact raisesOnly_ok
    · split
      · exact (typed_raiseIf rfl).bind fun _ _ => raisesOnly_ok
      · exact (typed_raiseIf rfl).bind fun _ _ => raisesOnly_ok

theorem typed_readSubpacket (data : Bytes) : Typed .openPgpError (readSubpacket data) := by
  refine (typed_readLength data).bind fun x _ => ?_
  exact (typed_raiseIf rfl).bind fun _ _ => raisesOnly_ok

theorem typed_subpacketsLoop (n : Nat) (area : Bytes) :
    Typed .openPgpError (subpacketsLoop n area) :=
  subpacketsLoop_repeats.raisesOnly (fun _ _ => typed_raise rfl) typed_readSubpacket n

theorem subpacketsLoop_eq_ok {n : Nat} {area : Bytes} {subs : List Subpacket} :
    subpacketsLoop n area = .ok subs ↔ subs.length ≤ n ∧ Framed SubpacketCode subs area := by
  refine subpacketsLoop_repeats.eq_ok_iff readSubpacket_exact ?_
  rintro s code ⟨-, len, -, rfl⟩
  exact List.append_ne_nil_of_right_ne_nil _ (List.cons_ne_nil _ _)

/-! ## Multiprecision integers -/

/-- The canonical encoding of an integer: its bits, counted in two octets, and its octets. -/
def encodeMpi (n : Nat) : Bytes := Codec.intToFixed (bitLength n) 2 ++ Codec.intToBytes n

/-- The big-endian octets of an integer of at most so many bits, encoded. -/
def MpiCode (maxBits : Nat) (value code : Bytes) : Prop :=
  ∃ n, 1 ≤ n ∧ n ≤ 2 ^ maxBits - 1 ∧ bitLength n < 2 ^ 16 ∧ value = Codec.intToBytes n ∧
    code = encodeMpi n

theorem bitLength_le_iff {n k : Nat} : bitLength n ≤ k ↔ n < 2 ^ k := by
  unfold bitLength
  by_cases hn : n = 0
  · rw [if_pos hn, hn]
    exact iff_of_true (Nat.zero_le k) (Nat.two_pow_pos k)
  · rw [if_neg hn, Nat.succ_le_iff, Nat.log2_lt hn]

theorem lt_bitLength_iff {n k : Nat} : k < bitLength n ↔ 2 ^ k ≤ n := by
  rw [← not_le, bitLength_le_iff, not_lt]

theorem bitLength_intFromBytes {x : UInt8} (hx : x ≠ 0) (t : Bytes) :
    bitLength (Codec.intFromBytes (x :: t)) = 8 * t.length + bitLength x.toNat := by
  have hn : Codec.intFromBytes (x :: t) = 256 ^ t.length * x.toNat + Codec.intFromBytes t := by
    rw [← List.singleton_append, Codec.intFromBytes_append]
    have h1 : Codec.intFromBytes [x] = x.toNat := by simp [Codec.intFromBytes]
    rw [h1]
  have ht := Codec.intFromBytes_lt t
  have hpow : 256 ^ t.length = 2 ^ (8 * t.length) := by
    rw [pow_mul]
    norm_num
  obtain ⟨k, hk⟩ : ∃ k, bitLength x.toNat = k + 1 := by
    refine ⟨bitLength x.toNat - 1, ?_⟩
    have hpos : 0 < bitLength x.toNat := by
      rw [lt_bitLength_iff, pow_zero]
      have hne : x.toNat ≠ 0 := fun h => hx (UInt8.toNat_inj.mp h)
      omega
    omega
  have hlow : 2 ^ k ≤ x.toNat := lt_bitLength_iff.mp (by omega)
  have hhigh : x.toNat + 1 ≤ 2 ^ (k + 1) := bitLength_le_iff.mp (by omega)
  have hge : 8 * t.length + k < bitLength (Codec.intFromBytes (x :: t)) := by
    rw [lt_bitLength_iff, hn, pow_add, ← hpow]
    exact le_trans (Nat.mul_le_mul_left _ hlow) (Nat.le_add_right _ _)
  have hle : bitLength (Codec.intFromBytes (x :: t)) ≤ 8 * t.length + (k + 1) := by
    rw [bitLength_le_iff, hn, pow_add, ← hpow]
    calc 256 ^ t.length * x.toNat + Codec.intFromBytes t
        < 256 ^ t.length * x.toNat + 256 ^ t.length := Nat.add_lt_add_left ht _
      _ = 256 ^ t.length * (x.toNat + 1) := (Nat.mul_succ _ _).symm
      _ ≤ 256 ^ t.length * 2 ^ (k + 1) := Nat.mul_le_mul_left _ hhigh
  omega

theorem intToBytes_of_pos {n : Nat} (h : 1 ≤ n) :
    ∃ x t, x ≠ 0 ∧ Codec.intToBytes n = x :: t ∧ bitLength n = 8 * t.length + bitLength x.toNat := by
  cases hb : Codec.intToBytes n with
  | nil =>
    have hzero := Codec.intFromBytes_intToBytes n
    rw [hb] at hzero
    change 0 = n at hzero
    omega
  | cons x t =>
    have hx := Codec.intToBytes_cons_ne_zero hb
    refine ⟨x, t, hx, rfl, ?_⟩
    rw [← bitLength_intFromBytes hx, ← hb, Codec.intFromBytes_intToBytes]

theorem mpi_exact (maxBits : Nat) : Exact (mpi · maxBits) (MpiCode maxBits) := by
  intro data value after
  simp only [mpi, bind_eq_ok, raiseIf_eq_ok, pure_eq_ok, Bool.or_eq_false_iff,
    decide_eq_false_iff_not, not_lt, beq_eq_false_iff_ne, bne_eq_false_iff_eq]
  constructor
  · rintro ⟨⟨⟩, hlen, ⟨⟩, ⟨hbits, hmax⟩, ⟨⟩, hsize, ⟨⟩, ⟨hfirst, hcount⟩, heq⟩
    obtain ⟨rfl, rfl⟩ := Prod.mk.inj heq
    generalize hb : bigEndian data 2 = bits at hbits hmax hsize hfirst hcount ⊢
    have hlt : bits < 256 ^ 2 := hb ▸ bigEndian_lt hlen
    have hvlen : ((data.drop 2).take ((bits + 7) / 8)).length = (bits + 7) / 8 :=
      List.length_take_of_le hsize
    have hsplit : data = Codec.intToFixed bits 2 ++ (data.drop 2).take ((bits + 7) / 8) ++
        (data.drop 2).drop ((bits + 7) / 8) := by
      rw [List.append_assoc, List.take_append_drop, ← hb, ← take_eq_intToFixed hlen,
        List.take_append_drop]
    generalize (data.drop 2).take ((bits + 7) / 8) = value at hfirst hcount hvlen hsplit ⊢
    obtain ⟨x, t, rfl⟩ := List.exists_cons_of_length_pos (l := value) (by omega)
    rw [bigEndian_cons] at hfirst hcount
    rw [List.length_cons] at hvlen
    have hx : x ≠ 0 := fun h => hfirst (by rw [h]; rfl)
    have hn := bitLength_intFromBytes hx t
    have hcount' : bitLength (Codec.intFromBytes (x :: t)) = bits := by
      rw [hn]
      omega
    have hpos : 1 ≤ Codec.intFromBytes (x :: t) := by
      have h0 : 2 ^ 0 ≤ Codec.intFromBytes (x :: t) := lt_bitLength_iff.mp (by omega)
      exact h0
    have hfits : Codec.intFromBytes (x :: t) < 2 ^ maxBits := bitLength_le_iff.mp (by omega)
    refine ⟨encodeMpi (Codec.intFromBytes (x :: t)), ⟨_, hpos, by omega, by omega, ?_, rfl⟩, ?_⟩
    · exact (Codec.intToBytes_intFromBytes hx t).symm
    · rw [encodeMpi, hcount', Codec.intToBytes_intFromBytes hx t]
      exact hsplit
  · rintro ⟨code, ⟨n, hpos, hfits, hbits, rfl, rfl⟩, rfl⟩
    obtain ⟨x, t, hx, hbytes, hn⟩ := intToBytes_of_pos hpos
    have hmax : bitLength n ≤ maxBits := bitLength_le_iff.mpr (by omega)
    have hcode : (Codec.intToFixed (bitLength n) 2).length = 2 := Codec.length_intToFixed hbits
    have hoctet : 1 ≤ bitLength x.toNat ∧ bitLength x.toNat ≤ 8 := by
      refine ⟨lt_bitLength_iff.mpr ?_, bitLength_le_iff.mpr x.toNat_lt⟩
      have hne : x.toNat ≠ 0 := fun h => hx (UInt8.toNat_inj.mp h)
      rw [pow_zero]
      omega
    have hsize : (bitLength n + 7) / 8 = (Codec.intToBytes n).length := by
      rw [hbytes, List.length_cons]
      omega
    have hcount : bitLength n < 256 ^ 2 := hbits
    rw [encodeMpi, List.append_assoc, bigEndian_intToFixed hcount, List.drop_left' hcode, hsize, List.take_left, List.drop_left]
    refine ⟨(), ?_, (), ⟨?_, hmax⟩, (), ?_, (), ⟨?_, ?_⟩, rfl⟩
    · rw [List.length_append, hcode]
      omega
    · omega
    · rw [List.length_append]
      omega
    · rw [hbytes, bigEndian_cons]
      exact fun h => hx (UInt8.toNat_inj.mp h)
    · rw [hbytes, bigEndian_cons, List.length_cons]
      omega

theorem typed_mpi (data : Bytes) (maxBits : Nat) : Typed .openPgpError (mpi data maxBits) := by
  refine (typed_raiseIf rfl).bind fun _ _ => ?_
  refine (typed_raiseIf rfl).bind fun _ _ => ?_
  refine (typed_raiseIf rfl).bind fun _ _ => ?_
  exact (typed_raiseIf rfl).bind fun _ _ => raisesOnly_ok

/-- An MPI in a buffer: what is read at a position, and the position after it. -/
theorem mpi_at_eq {data : Bytes} {pos : Nat} (maxBits : Nat) (h : pos ≤ data.length) :
    Reads.mpi data pos maxBits =
      mpi (data.drop pos) maxBits >>= fun x => .ok (x.1, data.length - x.2.length) := by
  have heq : (Reads.mpi data pos maxBits >>= fun x => .ok x) =
      mpi (data.drop pos) maxBits >>= fun x => .ok (x.1, data.length - x.2.length) := by
    refine Reads.mpi_bind h fun value pos' hpos => ?_
    have hback : data.length - (data.length - pos') = pos' := by omega
    rw [List.length_drop, hback]
  rw [← heq]
  exact (bind_pure _).symm

theorem mpi_at_eq_ok {data value : Bytes} {pos pos' maxBits : Nat} :
    Reads.mpi data pos maxBits = .ok (value, pos') ↔
      ∃ code rest, MpiCode maxBits value code ∧ data.drop pos = code ++ rest ∧
        pos' = pos + code.length := by
  by_cases hpos : pos ≤ data.length
  · rw [mpi_at_eq maxBits hpos]
    simp only [bind_eq_ok, Except.ok.injEq, Prod.mk.injEq]
    have hlen : (data.drop pos).length = data.length - pos := List.length_drop
    constructor
    · rintro ⟨⟨v, rest⟩, hread, rfl, rfl⟩
      obtain ⟨code, hcode, hdata⟩ := (mpi_exact maxBits _ _ _).mp hread
      refine ⟨code, rest, hcode, hdata, ?_⟩
      rw [hdata, List.length_append] at hlen
      dsimp only
      omega
    · rintro ⟨code, rest, hcode, hdata, rfl⟩
      refine ⟨(value, rest), (mpi_exact maxBits _ _ _).mpr ⟨code, hcode, hdata⟩, rfl, ?_⟩
      rw [hdata, List.length_append] at hlen
      dsimp only
      omega
  · rw [Reads.mpi, raiseIf, if_pos (decide_eq_true (by omega))]
    refine iff_of_false (by rintro ⟨⟩) ?_
    rintro ⟨code, rest, ⟨n, hn, -, -, -, rfl⟩, hdata, -⟩
    obtain ⟨x, t, -, hbytes, -⟩ := intToBytes_of_pos hn
    rw [List.drop_eq_nil_of_le (by omega), encodeMpi, hbytes] at hdata
    have hnil := (List.append_eq_nil_iff.mp hdata.symm).1
    exact absurd (List.append_eq_nil_iff.mp hnil).2 (List.cons_ne_nil _ _)

theorem typed_mpi_at (data : Bytes) (pos maxBits : Nat) :
    Typed .openPgpError (Reads.mpi data pos maxBits) := by
  by_cases hpos : pos ≤ data.length
  · rw [mpi_at_eq maxBits hpos]
    exact (typed_mpi _ _).bind fun _ _ => raisesOnly_ok
  · rw [Reads.mpi, raiseIf, if_pos (decide_eq_true (by omega))]
    exact typed_raise rfl

/-- A buffer is read as packets, or as subpackets, iff it is the codes of them one after another; an
integer is read at a position iff its canonical encoding stands there. Every access is within the
buffer, and what is refused is refused by an `OpenPgpError`. -/
theorem framing_exact :
    (∀ data : Bytes, Typed .openPgpError (Reads.packets data) ∧
      ∀ ps, Reads.packets data = .ok ps ↔ ps.length ≤ maxPackets ∧ Framed PacketCode ps data) ∧
    (∀ area : Bytes, Typed .openPgpError (Reads.subpackets area) ∧
      ∀ subs, Reads.subpackets area = .ok subs ↔
        subs.length ≤ maxSubpackets ∧ Framed SubpacketCode subs area) ∧
    ∀ (data : Bytes) (pos maxBits : Nat), Typed .openPgpError (Reads.mpi data pos maxBits) ∧
      ∀ value pos', Reads.mpi data pos maxBits = .ok (value, pos') ↔
        ∃ n rest, 1 ≤ n ∧ n ≤ 2 ^ maxBits - 1 ∧ bitLength n < 2 ^ 16 ∧
          data.drop pos = encodeMpi n ++ rest ∧ value = Codec.intToBytes n ∧
          pos' = pos + (encodeMpi n).length := by
  refine ⟨fun data => ?_, fun area => ?_, fun data pos maxBits => ?_⟩
  · rw [Reads.packets_eq]
    exact ⟨typed_packetsLoop _ _, fun ps => packetsLoop_eq_ok⟩
  · rw [Reads.subpackets_eq]
    exact ⟨typed_subpacketsLoop _ _, fun subs => subpacketsLoop_eq_ok⟩
  · refine ⟨typed_mpi_at data pos maxBits, fun value pos' => mpi_at_eq_ok.trans ?_⟩
    constructor
    · rintro ⟨code, rest, ⟨n, hpos, hfits, hbits, hvalue, rfl⟩, hdata, hend⟩
      exact ⟨n, rest, hpos, hfits, hbits, hdata, hvalue, hend⟩
    · rintro ⟨n, rest, hpos, hfits, hbits, hdata, hvalue, hend⟩
      exact ⟨_, rest, ⟨n, hpos, hfits, hbits, hvalue, rfl⟩, hdata, hend⟩

/-- A packet, a subpacket and an integer, each read at the front of its buffer and from its code. -/
theorem framing_exact_one :
    Framed PacketCode [(2, [7])] [0x88, 1, 7] ∧ Framed SubpacketCode [⟨16, false, [7]⟩] [2, 16, 7] ∧
      Reads.mpi [0, 3, 5] 0 8 = .ok ([5], 3) := by
  obtain ⟨hpackets, hsubpackets, hmpi⟩ := framing_exact
  refine ⟨?_, ?_, ?_⟩
  · exact (((hpackets [0x88, 1, 7]).2 [(2, [7])]).mp rfl).2
  · exact (((hsubpackets [2, 16, 7]).2 [⟨16, false, [7]⟩]).mp rfl).2
  · exact ((hmpi [0, 3, 5] 0 8).2 [5] 3).mpr
      ⟨5, [], by decide, by decide, by decide, by decide, by decide, by decide⟩

end OpenVC.OpenPgp
