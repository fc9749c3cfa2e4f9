import OpenVC.Ebsi.Proofs.OpenPgpFramingProofs
import OpenVC.Ebsi.Proofs.OpenPgpProofs

/-!
# Proofs: what an OpenPGP signature signs

An accepted signature body has one layout. The bytes that are signed after the document end in the
length of the hashed part, so the document and the hashed part are read back from them; everything
that is reported of a signature is read outside its unhashed area.
-/

namespace OpenVC.OpenPgp

open Python PrefixReader

/-- The parts of the body of an accepted signature. -/
structure Layout where
  hashed : Bytes
  unhashed : Bytes
  leftBits : Bytes
  r : Nat
  s : Nat

namespace Layout

/-- Version 4, a binary signature, ECDSA, SHA-256 and the hashed area behind its length. -/
def header (l : Layout) : Bytes :=
  4 :: 0 :: 19 :: 8 :: (Codec.intToFixed l.hashed.length 2 ++ l.hashed)

/-- What follows the unhashed area. -/
def tail (l : Layout) : Bytes := l.leftBits ++ (encodeMpi l.r ++ encodeMpi l.s)

/-- The body of the packet. -/
def body (l : Layout) : Bytes :=
  l.header ++ (Codec.intToFixed l.unhashed.length 2 ++ (l.unhashed ++ l.tail))

/-- What is hashed after the document. -/
def suffix (l : Layout) : Bytes := l.header ++ [0x04, 0xff] ++ Codec.intToFixed l.header.length 4

/-- The layout is parsed as the signature. -/
structure Parses (l : Layout) (sig : Signature) : Prop where
  hashed_lt : l.hashed.length < 256 ^ 2
  unhashed_lt : l.unhashed.length < 256 ^ 2
  leftBits_length : l.leftBits.length = 2
  mpi_r : MpiCode scalarBits (Codec.intToBytes l.r) (encodeMpi l.r)
  mpi_s : MpiCode scalarBits (Codec.intToBytes l.s) (encodeMpi l.s)
  signer_eq : checkHashedArea l.hashed = .ok sig.signer
  sig_eq : sig = ⟨sig.signer, 8, l.leftBits, l.suffix, l.r, l.s⟩

theorem length_header {l : Layout} (h : l.hashed.length < 256 ^ 2) :
    l.header.length = 6 + l.hashed.length := by
  simp only [header, List.length_cons, List.length_append, Codec.length_intToFixed h]
  omega

theorem length_header_lt {l : Layout} (h : l.hashed.length < 256 ^ 2) :
    l.header.length < 256 ^ 4 := by
  rw [length_header h]
  omega

end Layout

/-- The canonical encoding determines the integer. -/
theorem mpiCode_unique {maxBits : Nat} {value code : Bytes} (h : MpiCode maxBits value code) :
    ∃ n, value = Codec.intToBytes n ∧ Codec.intFromBytes value = n ∧
      MpiCode maxBits (Codec.intToBytes n) (encodeMpi n) ∧ code = encodeMpi n := by
  obtain ⟨n, hpos, hfits, hbits, rfl, rfl⟩ := h
  exact ⟨n, rfl, Codec.intFromBytes_intToBytes n, ⟨n, hpos, hfits, hbits, rfl, rfl⟩, rfl⟩

/-- The split of a body that starts with the octets of the profile. -/
theorem splitV4Signature_cons {b₁ b₂ b₃ b₄ b₅ b₆ : UInt8} {t : Bytes} {parts : SignatureBody}
    (h : splitV4Signature (b₁ :: b₂ :: b₃ :: b₄ :: b₅ :: b₆ :: t) = .ok parts) :
    b₁.toNat = 4 ∧ parts.sigType = b₂.toNat ∧ parts.algo = b₃.toNat ∧ parts.hashId = b₄.toNat ∧
      ∃ unhashed rest, t = parts.hashed ++ (Codec.intToFixed unhashed.length 2 ++ (unhashed ++ rest)) ∧
        [b₅, b₆] = Codec.intToFixed parts.hashed.length 2 ∧ parts.hashed.length < 256 ^ 2 ∧
        unhashed.length < 256 ^ 2 ∧
        parts.after = 6 + parts.hashed.length + 2 + unhashed.length := by
  simp only [splitV4Signature, bind_eq_ok, raiseIf_eq_ok, pure_eq_ok, decide_eq_false_iff_not,
    not_lt, bne_eq_false_iff_eq, List.drop_succ_cons, List.drop_zero, bigEndian_cons] at h
  obtain ⟨⟨⟩, -, ⟨⟩, hversion, ⟨⟩, hhashed, ⟨⟩, hunhashed, rfl⟩ := h
  have hlen₂ : 2 ≤ (b₅ :: b₆ :: t).length := by simp
  have htwo : [b₅, b₆] = Codec.intToFixed (bigEndian (b₅ :: b₆ :: t) 2) 2 :=
    take_eq_intToFixed hlen₂
  have hlt := bigEndian_lt hlen₂
  have hdrop : ∀ n, (b₁ :: b₂ :: b₃ :: b₄ :: b₅ :: b₆ :: t).drop (6 + n) = t.drop n := by
    intro n
    rw [Nat.add_comm]
    rfl
  generalize bigEndian (b₅ :: b₆ :: t) 2 = n at hhashed hunhashed htwo hlt ⊢
  have htlen : (b₁ :: b₂ :: b₃ :: b₄ :: b₅ :: b₆ :: t).length = 6 + t.length := by
    simp only [List.length_cons]
    omega
  rw [htlen] at hhashed hunhashed
  rw [hdrop] at hunhashed ⊢
  have htake : (t.take n).length = n := List.length_take_of_le (by omega)
  have hrest : 2 ≤ (t.drop n).length := by
    rw [List.length_drop]
    omega
  have hcode := take_eq_intToFixed hrest
  have hlt' := bigEndian_lt hrest
  generalize bigEndian (t.drop n) 2 = m at hunhashed hcode hlt' ⊢
  have htake' : (((t.drop n).drop 2).take m).length = m := by
    refine List.length_take_of_le ?_
    rw [List.length_drop, List.length_drop]
    omega
  refine ⟨hversion, rfl, rfl, rfl, ((t.drop n).drop 2).take m, ((t.drop n).drop 2).drop m, ?_, ?_, ?_,
    ?_, ?_⟩
  · dsimp only
    rw [htake', ← hcode, List.take_append_drop, List.take_append_drop, List.take_append_drop]
  · dsimp only
    rw [htake]
    exact htwo
  · dsimp only
    rw [htake]
    exact hlt
  · rw [htake']
    exact hlt'
  · dsimp only
    rw [htake, htake']

theorem exists_six_cons {body : Bytes} (h : 6 ≤ body.length) :
    ∃ b₁ b₂ b₃ b₄ b₅ b₆ t, body = b₁ :: b₂ :: b₃ :: b₄ :: b₅ :: b₆ :: t :=
  match body, h with
  | b₁ :: b₂ :: b₃ :: b₄ :: b₅ :: b₆ :: t, _ => ⟨b₁, b₂, b₃, b₄, b₅, b₆, t, rfl⟩

theorem exists_layout {body : Bytes} {sig : Signature} (h : parseSignature body = .ok sig) :
    ∃ l : Layout, l.Parses sig ∧ body = l.body := by
  simp only [parseSignature, bind_eq_ok, raiseIf_eq_ok, pure_eq_ok, bne_eq_false_iff_eq,
    decide_eq_false_iff_not, not_lt, Bool.not_eq_false', List.isEmpty_iff] at h
  obtain ⟨parts, hparts, ⟨⟩, htype, ⟨⟩, halgo, ⟨⟩, hhash, signer, hsigner, ⟨⟩, -, ⟨⟩, hleft, ⟨r, rest₁⟩,
    hr, ⟨s, rest₂⟩, hs, ⟨⟩, rfl, rfl⟩ := h
  have hafter := (Reads.splitV4Signature_bounds hparts).1
  obtain ⟨b₁, b₂, b₃, b₄, b₅, b₆, t, rfl⟩ := exists_six_cons (by omega : 6 ≤ body.length)
  obtain ⟨hv, ht, ha, hh, unhashed, rest, rfl, hlen, hhashed, hunhashed, hat⟩ :=
    splitV4Signature_cons hparts
  obtain rfl : b₁ = 4 := UInt8.toNat_inj.mp hv
  obtain rfl : b₂ = 0 := UInt8.toNat_inj.mp (ht.symm.trans htype)
  obtain rfl : b₃ = 19 := UInt8.toNat_inj.mp (ha.symm.trans halgo)
  obtain rfl : b₄ = 8 := UInt8.toNat_inj.mp (hh.symm.trans hhash)
  have hbody : ∀ t, 4 :: 0 :: 19 :: 8 :: b₅ :: b₆ :: t =
      4 :: 0 :: 19 :: 8 :: (Codec.intToFixed parts.hashed.length 2 ++ t) := by
    intro t
    rw [← hlen]
    rfl
  rw [hbody] at hleft hr ⊢
  -- the part of the body behind the unhashed area
  have hdrop : ∀ k, (4 :: 0 :: 19 :: 8 :: (Codec.intToFixed parts.hashed.length 2 ++
      (parts.hashed ++ (Codec.intToFixed unhashed.length 2 ++ (unhashed ++ rest))))).drop
        (parts.after + k) = rest.drop k := by
    intro k
    have hsplit : 4 :: 0 :: 19 :: 8 :: (Codec.intToFixed parts.hashed.length 2 ++
        (parts.hashed ++ (Codec.intToFixed unhashed.length 2 ++ (unhashed ++ rest)))) =
        (4 :: 0 :: 19 :: 8 :: (Codec.intToFixed parts.hashed.length 2 ++
          (parts.hashed ++ (Codec.intToFixed unhashed.length 2 ++ unhashed)))) ++ rest := by
      simp only [List.cons_append, List.append_assoc]
    have hlength : (4 :: 0 :: 19 :: 8 :: (Codec.intToFixed parts.hashed.length 2 ++
        (parts.hashed ++ (Codec.intToFixed unhashed.length 2 ++ unhashed)))).length =
        parts.after := by
      simp only [List.length_cons, List.length_append, Codec.length_intToFixed hhashed,
        Codec.length_intToFixed hunhashed]
      omega
    rw [hsplit, ← List.drop_drop, List.drop_left' hlength]
  have hzero := hdrop 0
  rw [Nat.add_zero, List.drop_zero] at hzero
  rw [hdrop] at hr
  obtain ⟨code, hcode, hrest⟩ := (mpi_exact scalarBits _ _ _).mp hr
  obtain ⟨code', hcode', rfl⟩ := (mpi_exact scalarBits _ _ _).mp hs
  obtain ⟨n, rfl, hn, hmpi, rfl⟩ := mpiCode_unique hcode
  obtain ⟨m, rfl, hm, hmpi', rfl⟩ := mpiCode_unique hcode'
  rw [List.append_nil] at hrest
  have hlong : 2 ≤ rest.length := by
    have hl := congrArg List.length hzero
    rw [List.length_drop] at hl
    omega
  have htwo : (rest.take 2).length = 2 := List.length_take_of_le hlong
  have htail : rest = rest.take 2 ++ (encodeMpi n ++ encodeMpi m) := by
    rw [← hrest, List.take_append_drop]
  refine ⟨⟨parts.hashed, unhashed, rest.take 2, n, m⟩,
    ⟨hhashed, hunhashed, htwo, hmpi, hmpi', hsigner, ?_⟩, ?_⟩
  · have hheader : (4 :: 0 :: 19 :: 8 :: (Codec.intToFixed parts.hashed.length 2 ++
        (parts.hashed ++ (Codec.intToFixed unhashed.length 2 ++ (unhashed ++ rest))))).take
          (6 + parts.hashed.length) =
        4 :: 0 :: 19 :: 8 :: (Codec.intToFixed parts.hashed.length 2 ++ parts.hashed) := by
      have hsplit : 4 :: 0 :: 19 :: 8 :: (Codec.intToFixed parts.hashed.length 2 ++
          (parts.hashed ++ (Codec.intToFixed unhashed.length 2 ++ (unhashed ++ rest)))) =
          (4 :: 0 :: 19 :: 8 :: (Codec.intToFixed parts.hashed.length 2 ++ parts.hashed)) ++
            (Codec.intToFixed unhashed.length 2 ++ (unhashed ++ rest)) := by
        simp only [List.cons_append, List.append_assoc]
      have hlength : (4 :: 0 :: 19 :: 8 :: (Codec.intToFixed parts.hashed.length 2 ++
          parts.hashed)).length = 6 + parts.hashed.length := by
        simp only [List.length_cons, List.length_append, Codec.length_intToFixed hhashed]
        omega
      rw [hsplit, List.take_left' hlength]
    rw [hheader, hzero, hhash]
    dsimp only
    rw [hn, hm]
    rfl
  · simp only [Layout.body, Layout.header, Layout.tail, List.cons_append, List.append_assoc]
    rw [← htail]

/-! ## The signed bytes -/

/-- The document and the hashed part of a signature are read back from what is signed. -/
theorem suffix_inj {l l' : Layout} {document document' : Bytes} (hl : l.hashed.length < 256 ^ 2)
    (hl' : l'.hashed.length < 256 ^ 2) (h : document ++ l.suffix = document' ++ l'.suffix) :
    document = document' ∧ l.hashed = l'.hashed := by
  have hlen := Codec.length_intToFixed (Layout.length_header_lt hl)
  have hlen' := Codec.length_intToFixed (Layout.length_header_lt hl')
  simp only [Layout.suffix, ← List.append_assoc] at h
  -- the last four octets count the hashed part
  obtain ⟨hfront, hcount⟩ := List.append_inj' h (hlen.trans hlen'.symm)
  have hheader : l.header.length = l'.header.length := by
    have hval := congrArg Codec.intFromBytes hcount
    rwa [Codec.intFromBytes_intToFixed, Codec.intFromBytes_intToFixed] at hval
  have hfront' := (List.append_inj' hfront rfl).1
  obtain ⟨hdoc, heq⟩ := List.append_inj' hfront' hheader
  have hhashed : l.hashed.length = l'.hashed.length := by
    rw [Layout.length_header hl, Layout.length_header hl'] at hheader
    omega
  refine ⟨hdoc, ?_⟩
  simp only [Layout.header, List.cons.injEq, true_and] at heq
  exact (List.append_inj' heq hhashed).2

theorem Layout.hashedArea_body {l : Layout} (h : l.hashed.length < 256 ^ 2) :
    hashedArea l.body = l.hashed := by
  have hcode := Codec.length_intToFixed h
  have hbody : l.body = 4 :: 0 :: 19 :: 8 :: (Codec.intToFixed l.hashed.length 2 ++
      (l.hashed ++ (Codec.intToFixed l.unhashed.length 2 ++ (l.unhashed ++ l.tail)))) := by
    simp only [Layout.body, Layout.header, List.cons_append, List.append_assoc]
  have hfour : l.body.drop 4 = Codec.intToFixed l.hashed.length 2 ++
      (l.hashed ++ (Codec.intToFixed l.unhashed.length 2 ++ (l.unhashed ++ l.tail))) := by
    rw [hbody]
    rfl
  have hsix : l.body.drop 6 =
      l.hashed ++ (Codec.intToFixed l.unhashed.length 2 ++ (l.unhashed ++ l.tail)) := by
    rw [show 6 = 4 + 2 from rfl, ← List.drop_drop, hfour, List.drop_left' hcode]
  rw [hashedArea, hsix, hfour, bigEndian_intToFixed h, List.take_left]

/-! ## The unhashed area -/

/-- Two signature bodies that are alike but for their unhashed areas. -/
def DifferUnhashed (body body' : Bytes) : Prop :=
  ∃ header unhashed unhashed' tail : Bytes, header.length = 6 + bigEndian (header.drop 4) 2 ∧
    unhashed.length < 2 ^ 16 ∧ unhashed'.length < 2 ^ 16 ∧
    body = header ++ (Codec.intToFixed unhashed.length 2 ++ (unhashed ++ tail)) ∧
    body' = header ++ (Codec.intToFixed unhashed'.length 2 ++ (unhashed' ++ tail))

/-- Where the unhashed area of a layout stands. -/
theorem Layout.cut {l : Layout} {header unhashed tail : Bytes} (hl : l.hashed.length < 256 ^ 2)
    (hl' : l.unhashed.length < 256 ^ 2) (hheader : header.length = 6 + bigEndian (header.drop 4) 2)
    (hunhashed : unhashed.length < 2 ^ 16)
    (h : l.body = header ++ (Codec.intToFixed unhashed.length 2 ++ (unhashed ++ tail))) :
    l.header = header ∧ l.tail = tail := by
  have hcount : bigEndian (header.drop 4) 2 = l.hashed.length := by
    have hfour : (l.body.drop 4).take 2 = Codec.intToFixed l.hashed.length 2 := by
      simp only [Layout.body, Layout.header, List.cons_append, List.drop_succ_cons, List.drop_zero,
        List.append_assoc]
      exact List.take_left' (Codec.length_intToFixed hl)
    rw [h, List.drop_append_of_le_length (by omega), List.take_append_of_le_length (by
      rw [List.length_drop]
      omega)] at hfour
    rw [bigEndian, hfour, Codec.intFromBytes_intToFixed]
  rw [hcount, ← Layout.length_header hl] at hheader
  obtain ⟨rfl, hrest⟩ := List.append_inj h hheader.symm
  have hlen := Codec.length_intToFixed hl'
  have hlen' : (Codec.intToFixed unhashed.length 2).length = 2 :=
    Codec.length_intToFixed hunhashed
  obtain ⟨hsize, hrest⟩ := List.append_inj hrest (hlen.trans hlen'.symm)
  have hsize' : l.unhashed.length = unhashed.length := by
    have hval := congrArg Codec.intFromBytes hsize
    rwa [Codec.intFromBytes_intToFixed, Codec.intFromBytes_intToFixed] at hval
  exact ⟨rfl, (List.append_inj hrest hsize').2⟩

/-- Two encodings followed by one another are told apart. -/
theorem encodeMpi_append_inj {n n' : Nat} {rest rest' : Bytes}
    (hn : MpiCode scalarBits (Codec.intToBytes n) (encodeMpi n))
    (hn' : MpiCode scalarBits (Codec.intToBytes n') (encodeMpi n'))
    (h : encodeMpi n ++ rest = encodeMpi n' ++ rest') : n = n' ∧ rest = rest' := by
  have hread := (mpi_exact scalarBits _ _ rest).mpr ⟨_, hn, rfl⟩
  have hread' := (mpi_exact scalarBits _ _ rest').mpr ⟨_, hn', rfl⟩
  rw [h, hread'] at hread
  obtain ⟨hbytes, hrest⟩ := Prod.mk.inj (Except.ok.inj hread)
  have hval := congrArg Codec.intFromBytes hbytes
  rw [Codec.intFromBytes_intToBytes, Codec.intFromBytes_intToBytes] at hval
  exact ⟨hval.symm, hrest.symm⟩

theorem eq_of_differUnhashed {body body' : Bytes} {sig sig' : Signature}
    (h : parseSignature body = .ok sig) (h' : parseSignature body' = .ok sig')
    (hdiffer : DifferUnhashed body body') : sig = sig' := by
  obtain ⟨l, hl, rfl⟩ := exists_layout h
  obtain ⟨l', hl', rfl⟩ := exists_layout h'
  obtain ⟨header, u, u', tail, hheader, hu, hu', hbody, hbody'⟩ := hdiffer
  obtain ⟨rfl, rfl⟩ := Layout.cut hl.hashed_lt hl.unhashed_lt hheader hu hbody
  obtain ⟨hsame, htail⟩ := Layout.cut hl'.hashed_lt hl'.unhashed_lt hheader hu' hbody'
  have hsuffix : l'.suffix = l.suffix := by
    rw [Layout.suffix, Layout.suffix, hsame]
  have hempty : [] ++ l'.suffix = [] ++ l.suffix := congrArg ([] ++ ·) hsuffix
  have hhashed : l'.hashed = l.hashed := (suffix_inj hl'.hashed_lt hl.hashed_lt hempty).2
  have hsigner : sig'.signer = sig.signer := by
    have hs := hl'.signer_eq
    rw [hhashed, hl.signer_eq] at hs
    exact (Except.ok.inj hs).symm
  obtain ⟨hleft, hints⟩ := List.append_inj htail
    (hl'.leftBits_length.trans hl.leftBits_length.symm)
  obtain ⟨hr, hs⟩ := encodeMpi_append_inj hl'.mpi_r hl.mpi_r hints
  have hend : encodeMpi l'.s ++ [] = encodeMpi l.s ++ [] := congrArg (· ++ []) hs
  obtain ⟨hs, -⟩ := encodeMpi_append_inj hl'.mpi_s hl.mpi_s hend
  rw [hl.sig_eq, hl'.sig_eq, hsigner, hsuffix, hleft, hr, hs]

/-- What is signed determines the document and the hashed part of the signature, its signer
included; what is reported and verified is the same whatever the unhashed area holds. -/
theorem signed_input_injective :
    (∀ (body body' : Bytes) (sig sig' : Signature) (document document' : Bytes),
      parseSignature body = .ok sig → parseSignature body' = .ok sig' →
      document ++ sig.suffix = document' ++ sig'.suffix →
      document = document' ∧ body.take 4 = body'.take 4 ∧ hashedArea body = hashedArea body' ∧
        sig.signer = sig'.signer) ∧
    ∀ (body body' : Bytes) (sig sig' : Signature),
      parseSignature body = .ok sig → parseSignature body' = .ok sig' →
      DifferUnhashed body body' →
      sig.signer = sig'.signer ∧ sig.suffix = sig'.suffix ∧ sig.r = sig'.r ∧ sig.s = sig'.s ∧
        ∀ (P : Primitives) (document : Bytes) (key : PublicKey),
          verify P sig document key = verify P sig' document key := by
  constructor
  · intro body body' sig sig' document document' h h' heq
    obtain ⟨l, hl, rfl⟩ := exists_layout h
    obtain ⟨l', hl', rfl⟩ := exists_layout h'
    have hsuffix : sig.suffix = l.suffix := by
      rw [hl.sig_eq]
    have hsuffix' : sig'.suffix = l'.suffix := by
      rw [hl'.sig_eq]
    rw [hsuffix, hsuffix'] at heq
    obtain ⟨rfl, hhashed⟩ := suffix_inj hl.hashed_lt hl'.hashed_lt heq
    rw [Layout.hashedArea_body hl.hashed_lt, Layout.hashedArea_body hl'.hashed_lt]
    refine ⟨rfl, rfl, hhashed, ?_⟩
    have hs := hl.signer_eq
    rw [hhashed, hl'.signer_eq] at hs
    exact (Except.ok.inj hs).symm
  · intro body body' sig sig' h h' hdiffer
    obtain rfl := eq_of_differUnhashed h h' hdiffer
    exact ⟨rfl, rfl, rfl, rfl, fun _ _ _ => rfl⟩

/-- A signature body that has the given unhashed area. -/
def bodyAround (unhashed : Bytes) : Bytes :=
  [4, 0, 19, 8, 0, 6, 5, 2, 0, 0, 0, 1] ++
    (Codec.intToFixed unhashed.length 2 ++ (unhashed ++ [0xab, 0xcd, 0, 1, 1, 0, 1, 1]))

/-- A body with no unhashed subpacket and one with an empty one sign the same document alike. -/
theorem signed_input_injective_unhashed : ∃ sig sig',
    parseSignature (bodyAround []) = .ok sig ∧ parseSignature (bodyAround [1, 16]) = .ok sig' ∧
      hashedArea (bodyAround []) = hashedArea (bodyAround [1, 16]) ∧ sig.signer = sig'.signer ∧
      ∀ (P : Primitives) (document : Bytes) (key : PublicKey),
        verify P sig document key = verify P sig' document key := by
  obtain ⟨sig, hsig⟩ : ∃ sig, parseSignature (bodyAround []) = .ok sig :=
    returned_iff.mp (by decide +kernel)
  obtain ⟨sig', hsig'⟩ : ∃ sig', parseSignature (bodyAround [1, 16]) = .ok sig' :=
    returned_iff.mp (by decide +kernel)
  have hdiffer : DifferUnhashed (bodyAround []) (bodyAround [1, 16]) :=
    ⟨[4, 0, 19, 8, 0, 6, 5, 2, 0, 0, 0, 1], [], [1, 16], [0xab, 0xcd, 0, 1, 1, 0, 1, 1], by decide,
      by decide, by decide, rfl, rfl⟩
  obtain ⟨hsigner, hsuffix, -, -, hverify⟩ :=
    signed_input_injective.2 _ _ sig sig' hsig hsig' hdiffer
  obtain ⟨-, -, harea, -⟩ := signed_input_injective.1 _ _ sig sig' [7] [7] hsig hsig'
    (congrArg ([7] ++ ·) hsuffix)
  exact ⟨sig, sig', hsig, hsig', harea, hsigner, hverify⟩

end OpenVC.OpenPgp
