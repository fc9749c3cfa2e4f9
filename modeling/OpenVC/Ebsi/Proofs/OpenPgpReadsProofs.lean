import OpenVC.Ebsi.OpenPgp

/-!
# Proofs: the OpenPGP reader reads inside its buffers

The reader with every access checked is the reader: its own guards are enough for each access.
-/

namespace OpenVC.OpenPgp.Reads

open Python

/-! ## Accesses within a buffer -/

section Access

variable {α β ε : Type}

theorem ok_bind (a : α) (f : α → Except ε β) : (Except.ok a >>= f) = f a := rfl

theorem bind_congr_ok {x : Except ε α} {f g : α → Except ε β} (h : ∀ a, x = .ok a → f a = g a) :
    x >>= f = x >>= g := by
  cases x with
  | error e => rfl
  | ok a => exact h a rfl

theorem guard_congr {c c' : Bool} {e : ε} {f g : Unit → Except ε β} (hc : c = c')
    (h : c = false → f () = g ()) : (raiseIf c e >>= f) = raiseIf c' e >>= g := by
  subst hc
  exact bind_congr_ok fun _ hok => h (raiseIf_eq_ok.mp hok)

theorem raiseIf_or (a b : Bool) (e : ε) (f : Unit → Except ε β) :
    (raiseIf (a || b) e >>= f) = raiseIf a e >>= fun _ => raiseIf b e >>= f := by
  cases a <;> rfl

theorem collect_congr {f g : α → Except ε β} {l : List α} (h : ∀ a ∈ l, f a = g a) :
    collect f l = collect g l := by
  induction l with
  | nil => rfl
  | cons a l ih =>
    rw [List.forall_mem_cons] at h
    rw [collect, collect, h.1, ih h.2]

end Access

theorem bne_length_iff {data : Bytes} {pos : Nat} (h : pos ≤ data.length) :
    (pos != data.length) = !(data.drop pos).isEmpty := by
  rw [Bool.eq_iff_iff, bne_iff_ne, Bool.not_eq_true', List.isEmpty_eq_false_iff, ne_eq, ne_eq,
    List.drop_eq_nil_iff]
  omega

theorem bigEndian_one {data : Bytes} {i : Nat} (h : i < data.length) :
    bigEndian (data.drop i) 1 = data[i].toNat := by
  rw [bigEndian, List.drop_eq_getElem_cons h]
  change 256 * 0 + data[i].toNat = _
  omega

theorem octet_eq {data : Bytes} {i : Nat} (h : i < data.length) :
    octet data i = .ok (bigEndian (data.drop i) 1) := by
  rw [octet, List.getElem?_eq_getElem h, bigEndian_one h]
  rfl

theorem slice_eq {data : Bytes} {start width : Nat} (h : start + width ≤ data.length) :
    slice data start width = .ok ((data.drop start).take width) := by
  rw [slice, raiseIf, if_neg (by simpa using h)]
  rfl

theorem number_eq {data : Bytes} {start width : Nat} (h : start + width ≤ data.length) :
    number data start width = .ok (bigEndian (data.drop start) width) := by
  rw [number, slice_eq h]
  rfl

theorem toBytes_eq {n width : Nat} (h : n < 256 ^ width) :
    toBytes n width = .ok (Codec.intToFixed n width) := by
  rw [toBytes, raiseIf, if_neg (by simpa using h)]
  rfl

/-! ## Framing -/

/-- A packet in the middle of a buffer. -/
theorem packetAt_bind {β : Type} {data : Bytes} {pos : Nat} (h : pos < data.length)
    {f : Nat × Bytes × Nat → Result β} {g : Nat × Bytes × Bytes → Result β}
    (hfg : ∀ tag body pos', f (tag, body, pos') = g (tag, body, data.drop pos')) :
    (packetAt data pos >>= f) = packet data[pos] (data.drop (pos + 1)) >>= g := by
  simp only [packetAt, packet, bind_assoc, pure_bind]
  rw [octet_eq h, ok_bind, bigEndian_one h]
  refine guard_congr rfl fun _ => ?_
  refine guard_congr rfl fun _ => ?_
  refine bind_congr_ok fun width _ => ?_
  have hrest : (data.drop (pos + 1)).length = data.length - (pos + 1) := List.length_drop
  refine guard_congr ?_ fun hwidth => ?_
  · rw [hrest, decide_eq_decide]
    omega
  have hwidth : pos + 1 + width ≤ data.length := by simpa using hwidth
  rw [number_eq hwidth, ok_bind, List.drop_drop, List.length_drop]
  refine guard_congr rfl fun hlength => ?_
  have hlength : bigEndian (data.drop (pos + 1)) width ≤ data.length - (pos + 1 + width) := by
    simpa using hlength
  rw [slice_eq (by omega), ok_bind, hfg, List.drop_drop]

theorem packetsFrom_eq (data : Bytes) (n pos : Nat) :
    packetsFrom data n pos = packetsLoop n (data.drop pos) := by
  induction n generalizing pos with
  | zero =>
    rw [packetsFrom]
    split
    · rename_i hend
      rw [List.drop_eq_nil_of_le hend, packetsLoop]
    · rename_i hin
      rw [List.drop_eq_getElem_cons (by omega), packetsLoop]
  | succ n ih =>
    rw [packetsFrom]
    split
    · rename_i hend
      rw [List.drop_eq_nil_of_le hend, packetsLoop]
    · rename_i hin
      have hpos : pos < data.length := by omega
      rw [List.drop_eq_getElem_cons hpos, packetsLoop]
      refine packetAt_bind hpos fun tag body pos' => ?_
      dsimp only
      rw [ih]

theorem packets_eq (data : Bytes) : packets data = OpenPgp.packets data := packetsFrom_eq data _ 0

/-- The length of a subpacket in the middle of an area. -/
theorem lengthAt_bind {β : Type} {area : Bytes} {pos : Nat} (h : pos < area.length)
    {f : Nat × Nat → Result β} {g : Nat × Bytes → Result β}
    (hfg : ∀ length hdr, pos + hdr ≤ area.length →
      f (length, hdr) = g (length, area.drop (pos + hdr))) :
    (lengthAt area pos area[pos].toNat >>= f) =
      subpacketLength area[pos] (area.drop (pos + 1)) >>= g := by
  have hrest : (area.drop (pos + 1)).length = area.length - (pos + 1) := List.length_drop
  unfold lengthAt subpacketLength
  split
  · rw [ok_bind, ok_bind]
    exact hfg _ 1 (by omega)
  · split
    · simp only [bind_assoc, pure_bind]
      refine guard_congr ?_ fun hshort => ?_
      · rw [hrest, decide_eq_decide]
        omega
      have hshort : pos + 2 ≤ area.length := by simpa using hshort
      rw [octet_eq (by omega), ok_bind, List.drop_drop]
      exact hfg _ 2 hshort
    · simp only [bind_assoc, pure_bind]
      refine guard_congr ?_ fun hshort => ?_
      · rw [hrest, decide_eq_decide]
        omega
      have hshort : pos + 5 ≤ area.length := by simpa using hshort
      rw [number_eq (by omega), ok_bind, List.drop_drop]
      exact hfg _ 5 hshort

theorem subpacketsFrom_eq (area : Bytes) (n pos : Nat) :
    subpacketsFrom area n pos = subpacketsLoop n (area.drop pos) := by
  induction n generalizing pos with
  | zero =>
    rw [subpacketsFrom]
    split
    · rename_i hend
      rw [List.drop_eq_nil_of_le hend, subpacketsLoop]
    · rename_i hin
      rw [List.drop_eq_getElem_cons (by omega), subpacketsLoop]
  | succ n ih =>
    rw [subpacketsFrom]
    split
    · rename_i hend
      rw [List.drop_eq_nil_of_le hend, subpacketsLoop]
    · rename_i hin
      have hpos : pos < area.length := by omega
      rw [List.drop_eq_getElem_cons hpos, subpacketsLoop]
      simp only [subpacketAt, bind_assoc, pure_bind]
      rw [octet_eq hpos, ok_bind, bigEndian_one hpos]
      refine lengthAt_bind hpos fun length hdr hhdr => ?_
      dsimp only
      rw [List.length_drop]
      refine guard_congr rfl fun hlength => ?_
      simp only [Bool.or_eq_false_iff, decide_eq_false_iff_not, not_lt] at hlength
      rw [octet_eq (by omega), ok_bind, slice_eq (by omega), ok_bind, ih, List.drop_drop]
      have hdata : (area.drop (pos + hdr + 1)).take (length - 1) =
          ((area.drop (pos + hdr)).take length).drop 1 := by
        rw [List.drop_take, List.drop_drop]
      rw [hdata]

theorem subpackets_eq (area : Bytes) : subpackets area = OpenPgp.subpackets area :=
  subpacketsFrom_eq area _ 0

/-- An MPI in the middle of a packet. -/
theorem mpi_bind {β : Type} {data : Bytes} {pos maxBits : Nat} (h : pos ≤ data.length)
    {f : Bytes × Nat → Result β} {g : Bytes × Bytes → Result β}
    (hfg : ∀ value pos', pos' ≤ data.length → f (value, pos') = g (value, data.drop pos')) :
    (mpi data pos maxBits >>= f) = OpenPgp.mpi (data.drop pos) maxBits >>= g := by
  simp only [mpi, OpenPgp.mpi, bind_assoc, pure_bind, List.length_drop, List.drop_drop]
  refine guard_congr ?_ fun hshort => ?_
  · rw [decide_eq_decide]
    omega
  have hshort : pos + 2 ≤ data.length := by simpa using hshort
  rw [number_eq hshort, ok_bind]
  refine guard_congr rfl fun hbits => ?_
  simp only [Bool.or_eq_false_iff, decide_eq_false_iff_not, not_lt] at hbits
  refine guard_congr ?_ fun hsize => ?_
  · rw [decide_eq_decide]
    omega
  have hsize : pos + 2 + (bigEndian (data.drop pos) 2 + 7) / 8 ≤ data.length := by simpa using hsize
  rw [slice_eq hsize, ok_bind, octet_eq ?_, ok_bind, List.drop_zero]
  · exact guard_congr rfl fun _ => hfg _ _ hsize
  · rw [List.length_take, List.length_drop]
    omega

/-! ## Signatures -/

theorem splitV4Signature_eq (body : Bytes) :
    splitV4Signature body = OpenPgp.splitV4Signature body := by
  unfold splitV4Signature OpenPgp.splitV4Signature
  refine guard_congr rfl fun hshort => ?_
  have hshort : 6 ≤ body.length := by simpa using hshort
  rw [octet_eq (by omega), ok_bind, List.drop_zero]
  refine guard_congr rfl fun _ => ?_
  rw [number_eq (by omega), ok_bind]
  dsimp only
  refine guard_congr rfl fun hhashed => ?_
  have hhashed : 6 + bigEndian (body.drop 4) 2 + 2 ≤ body.length := by simpa using hhashed
  rw [slice_eq (by omega), ok_bind, number_eq hhashed, ok_bind]
  refine guard_congr rfl fun _ => ?_
  rw [octet_eq (by omega), ok_bind, octet_eq (by omega), ok_bind, octet_eq (by omega), ok_bind]

theorem readSigner_eq (sub : Subpacket) (area : HashedArea) :
    readSigner sub area = OpenPgp.readSigner sub area := by
  unfold readSigner OpenPgp.readSigner
  split
  · refine guard_congr rfl fun _ => ?_
    rw [raiseIf_or]
    refine guard_congr rfl fun hlength => ?_
    have hlength : sub.data.length = 21 := by simpa using hlength
    rw [octet_eq (by omega), ok_bind, List.drop_zero]
    refine guard_congr rfl fun _ => ?_
    rw [slice_eq (by omega), ok_bind, List.take_of_length_le (by rw [List.length_drop]; omega)]
  · rfl

theorem checkHashedArea_eq (hashed : Bytes) :
    checkHashedArea hashed = OpenPgp.checkHashedArea hashed := by
  have hwalk : walkHashed = OpenPgp.walkHashed := by
    funext area sub
    rw [walkHashed, readSigner_eq]
    rfl
  rw [checkHashedArea, subpackets_eq, hwalk]
  rfl

theorem checkKeyBlockHashedArea_eq (hashed : Bytes) :
    checkKeyBlockHashedArea hashed = OpenPgp.checkKeyBlockHashedArea hashed := by
  rw [checkKeyBlockHashedArea, subpackets_eq]
  rfl

theorem checkUnhashedArea_eq (unhashed : Bytes) :
    checkUnhashedArea unhashed = OpenPgp.checkUnhashedArea unhashed := by
  rw [checkUnhashedArea, subpackets_eq]
  rfl

theorem splitV4Signature_bounds {body : Bytes} {parts : SignatureBody}
    (h : OpenPgp.splitV4Signature body = .ok parts) :
    6 + parts.hashed.length + 2 ≤ parts.after ∧ parts.after ≤ body.length := by
  simp only [OpenPgp.splitV4Signature, bind_eq_ok, raiseIf_eq_ok, pure_eq_ok,
    decide_eq_false_iff_not, not_lt] at h
  obtain ⟨⟨⟩, hshort, ⟨⟩, -, ⟨⟩, hhashed, ⟨⟩, hafter, rfl⟩ := h
  dsimp only
  rw [List.length_take, List.length_drop]
  omega

theorem parseSignature_eq (body : Bytes) (hbody : body.length < 2 ^ 32) :
    parseSignature body = OpenPgp.parseSignature body := by
  unfold parseSignature OpenPgp.parseSignature
  rw [splitV4Signature_eq]
  refine bind_congr_ok fun parts hparts => ?_
  obtain ⟨hhashed, hafter⟩ := splitV4Signature_bounds hparts
  refine guard_congr rfl fun _ => ?_
  refine guard_congr rfl fun _ => ?_
  refine guard_congr rfl fun _ => ?_
  rw [checkHashedArea_eq]
  refine bind_congr_ok fun signer _ => ?_
  have hunhashed : (body.drop (6 + parts.hashed.length + 2)).take
      (parts.after - (6 + parts.hashed.length + 2)) =
        (body.take parts.after).drop (6 + parts.hashed.length + 2) := by
    rw [List.drop_take]
  rw [slice_eq (by omega), ok_bind, checkUnhashedArea_eq, hunhashed]
  refine bind_congr_ok fun _ _ => ?_
  refine guard_congr rfl fun hleft => ?_
  have hleft : parts.after + 2 ≤ body.length := by simpa using hleft
  rw [slice_eq hleft, ok_bind]
  refine mpi_bind hleft fun r pos hpos => ?_
  refine mpi_bind hpos fun s pos' hpos' => ?_
  refine guard_congr ?_ fun _ => ?_
  · exact bne_length_iff hpos'
  rw [slice_eq (by omega), ok_bind, List.drop_zero, toBytes_eq ?_, ok_bind]
  rw [List.length_take]
  omega

theorem packet_length {head : UInt8} {rest after body : Bytes} {tag : Nat}
    (h : packet head rest = .ok (tag, body, after)) :
    body.length ≤ rest.length ∧ after.length ≤ rest.length := by
  simp only [packet, bind_eq_ok, pure_eq_ok, Prod.mk.injEq] at h
  obtain ⟨_, _, _, _, width, _, _, _, _, _, _, rfl, rfl⟩ := h
  simp only [List.length_take, List.length_drop]
  omega

theorem mem_packetsLoop_length {n : Nat} {data : Bytes} {ps : List (Nat × Bytes)}
    (h : packetsLoop n data = .ok ps) : ∀ p ∈ ps, p.2.length ≤ data.length := by
  induction n generalizing data ps with
  | zero =>
    cases data with
    | nil =>
      obtain rfl := Except.ok.inj h
      exact nofun
    | cons head rest => cases h
  | succ n ih =>
    cases data with
    | nil =>
      obtain rfl := Except.ok.inj h
      exact nofun
    | cons head rest =>
      simp only [packetsLoop, bind_eq_ok, pure_eq_ok] at h
      obtain ⟨⟨tag, body, after⟩, hpacket, ps', hps, rfl⟩ := h
      obtain ⟨hbody, hafter⟩ := packet_length hpacket
      intro p hp
      rw [List.length_cons]
      rcases List.mem_cons.mp hp with rfl | hp
      · dsimp only
        omega
      · have := ih hps p hp
        dsimp only at this
        omega

theorem readSignatures_eq (data : Bytes) : readSignatures data = OpenPgp.readSignatures data := by
  unfold readSignatures OpenPgp.readSignatures
  refine guard_congr rfl fun _ => ?_
  refine guard_congr rfl fun hlength => ?_
  have hlength : data.length ≤ maxSignatureFileBytes := by simpa using hlength
  rw [packets_eq]
  refine bind_congr_ok fun ps hps => ?_
  refine collect_congr fun p hp => ?_
  have hp := mem_packetsLoop_length hps p hp
  rw [readSignature, OpenPgp.readSignature, parseSignature_eq]
  have : maxSignatureFileBytes < 2 ^ 32 := by decide
  omega

/-! ## Keys -/

theorem makePublicKey_eq (P : Primitives) (curve : Str) (point : Bytes) (fingerprint : Str) :
    makePublicKey P curve point fingerprint = OpenPgp.makePublicKey P curve point fingerprint := by
  unfold makePublicKey OpenPgp.makePublicKey
  refine guard_congr rfl fun _ => ?_
  rw [raiseIf_or]
  refine guard_congr rfl fun hlength => ?_
  have hlength : point.length = pointLen := by simpa using hlength
  have hpos : 0 < pointLen := by decide
  rw [octet_eq (by omega), ok_bind, List.drop_zero]

theorem parsePrimaryKey_eq (P : Primitives) (body : Bytes) (hbody : body.length < 2 ^ 16) :
    parsePrimaryKey P body = OpenPgp.parsePrimaryKey P body := by
  unfold parsePrimaryKey OpenPgp.parsePrimaryKey
  refine guard_congr rfl fun hshort => ?_
  have hshort : 7 ≤ body.length := by simpa using hshort
  rw [octet_eq (by omega), ok_bind, List.drop_zero]
  refine guard_congr rfl fun _ => ?_
  rw [octet_eq (by omega), ok_bind]
  refine guard_congr rfl fun _ => ?_
  rw [octet_eq (by omega), ok_bind]
  dsimp only
  refine guard_congr rfl fun hoid => ?_
  have hoid : 7 + bigEndian (body.drop 6) 1 ≤ body.length := by
    simp only [Bool.not_eq_false', Bool.and_eq_true, decide_eq_true_eq, beq_iff_eq,
      List.length_take, List.length_drop] at hoid
    omega
  refine mpi_bind hoid fun point pos hpos => ?_
  refine guard_congr (bne_length_iff hpos) fun _ => ?_
  rw [toBytes_eq (by omega), ok_bind, makePublicKey_eq, fingerprintOf]

theorem checkKeyPacket_eq (p : Nat × Bytes) : checkKeyPacket p = OpenPgp.checkKeyPacket p := by
  unfold checkKeyPacket OpenPgp.checkKeyPacket checkKeySignature OpenPgp.checkKeySignature
  rw [splitV4Signature_eq]
  split
  · refine bind_congr_ok fun parts _ => ?_
    refine guard_congr rfl fun _ => ?_
    exact checkKeyBlockHashedArea_eq _
  · rfl

theorem readPublicKeyBlock_eq (P : Primitives) (armored : Json) :
    readPublicKeyBlock P armored = OpenPgp.readPublicKeyBlock P armored := by
  unfold readPublicKeyBlock OpenPgp.readPublicKeyBlock
  refine bind_congr_ok fun data hdata => ?_
  have hdata : data.length ≤ maxKeyBlockBytes := by
    simp only [dearmor, bind_eq_ok, raiseIf_eq_ok, pure_eq_ok, decide_eq_false_iff_not,
      not_lt] at hdata
    obtain ⟨_, _, _, _, _, _, _, _, _, _, _, _, _, _, _, _, _, hlength, _, _, rfl⟩ := hdata
    exact hlength
  rw [packets_eq]
  refine bind_congr_ok fun ps hps => ?_
  refine bind_congr_ok fun (body, rest) hprimary => ?_
  have hbody : body.length ≤ data.length := by
    refine mem_packetsLoop_length hps (6, body) ?_
    have hps' := orRaise_eq_ok.mp hprimary
    unfold primaryPacket at hps'
    split at hps'
    · cases hps'
      exact List.mem_cons_self
    · cases hps'
  dsimp only
  rw [parsePrimaryKey_eq]
  · refine bind_congr_ok fun key _ => ?_
    rw [funext checkKeyPacket_eq]
  · have : maxKeyBlockBytes < 2 ^ 16 := by decide
    omega

end OpenVC.OpenPgp.Reads
