import OpenVC.Ebsi.Proofs.OpenPgpReadsProofs
import OpenVC.Logic.ShiftRegister
import OpenVC.Python.Proofs.CodecProofs
import OpenVC.Python.Text

/-!
# Proofs: the armor of a key block

The table of the checksum is eight shifts of the CRC-24 register, and the text that a writer makes of
a key block, cut into lines, is read back.
-/

namespace OpenVC.OpenPgp

open Python ShiftRegister

/-! ## The checksum -/

/-- The CRC-24 of RFC 4880, section 6.1: an octet is added at the top of the register, which is then
shifted eight times. -/
def crc24Bitwise (data : Bytes) : Nat :=
  data.foldl (fun crc b => (shift 24 0x1864CFB)^[8] (crc ^^^ b.toNat * 2 ^ 16)) 0xB704CE % 2 ^ 24

theorem generator_crc24 : Generator 24 0x1864CFB := ⟨by decide, by decide⟩

theorem crcStep_eq (n crc : Nat) : crcStep n crc = (shift 24 0x1864CFB)^[n] crc % 2 ^ 24 := by
  induction n generalizing crc with
  | zero => rfl
  | succ n ih =>
    rw [crcStep, ih, Function.iterate_succ_apply, shift, Nat.mul_comm crc 2]

/-- One octet by the table is one octet bit by bit. -/
theorem tableStep_eq {crc : Nat} (h : crc < 2 ^ 24) (b : UInt8) :
    (crc * 256 % 0x1000000) ^^^ crcEntry (((crc / 65536) ^^^ b.toNat) % 256) =
      (shift 24 0x1864CFB)^[8] (crc ^^^ b.toNat * 2 ^ 16) := by
  have hindex : (crc / 65536) ^^^ b.toNat < 2 ^ 8 :=
    Nat.xor_lt_two_pow (by omega) b.toNat_lt
  have hentry : ((crc / 65536) ^^^ b.toNat) * 65536 < 2 ^ 24 := by omega
  have hmod : ((crc / 65536) ^^^ b.toNat) % 256 = (crc / 65536) ^^^ b.toNat :=
    Nat.mod_eq_of_lt hindex
  rw [hmod, crcEntry, crcStep_eq, Nat.mod_eq_of_lt (iterate_shift_lt generator_crc24 hentry 8)]
  exact (iterate_shift_eq_table (w := 24) (k := 8) (by omega) b.toNat).symm

theorem crc24_eq (data : Bytes) : crc24 data = crc24Bitwise data := by
  have key : ∀ (data : Bytes) (crc : Nat), crc < 2 ^ 24 →
      data.foldl (fun crc b =>
        (crc * 256 % 0x1000000) ^^^ crcEntry (((crc / 65536) ^^^ b.toNat) % 256)) crc =
      data.foldl (fun crc b => (shift 24 0x1864CFB)^[8] (crc ^^^ b.toNat * 2 ^ 16)) crc ∧
      data.foldl (fun crc b => (shift 24 0x1864CFB)^[8] (crc ^^^ b.toNat * 2 ^ 16)) crc <
        2 ^ 24 := by
    intro data
    induction data with
    | nil => exact fun crc h => ⟨rfl, h⟩
    | cons b data ih =>
      intro crc h
      have hb := b.toNat_lt
      have htop : b.toNat * 2 ^ 16 < 2 ^ 24 := by omega
      have hlt := iterate_shift_lt generator_crc24 (Nat.xor_lt_two_pow h htop) 8
      rw [List.foldl_cons, List.foldl_cons, tableStep_eq h]
      exact ih _ hlt
  obtain ⟨heq, hlt⟩ := key data 0xB704CE (by omega)
  rw [crc24, crc24Bitwise, heq, Nat.mod_eq_of_lt hlt]

/-! ## Padded base64 -/

/-- A character of the standard alphabet for one of the URL-safe alphabet. -/
def stdChar (c : Nat) : Nat := if c = 45 then 43 else if c = 95 then 47 else c

/-- `base64.b64encode(data)`. -/
def b64encode (data : Bytes) : Str :=
  (Codec.b64urlEncode data).map stdChar ++
    List.replicate ((4 - (Codec.b64urlEncode data).length % 4) % 4) 61

theorem b64Val_stdChar (c : Nat) : Codec.b64Val (stdChar c) = Codec.b64Val c := by
  unfold stdChar
  split
  · rename_i h
    rw [h]
    rfl
  · split
    · rename_i h
      rw [h]
      rfl
    · rfl

theorem stdChar_eq_pad_iff {c : Nat} : stdChar c = 61 ↔ c = 61 := by
  unfold stdChar
  split
  · omega
  · split <;> omega

theorem a2bBase64_map_stdChar (s t : Str) (quad left pads : Nat) :
    Codec.a2bBase64 quad left pads (s.map stdChar ++ t) = Codec.a2bBase64 quad left pads (s ++ t) := by
  induction s generalizing quad left pads with
  | nil => rfl
  | cons c s ih =>
    rw [List.map_cons, List.cons_append, List.cons_append, Codec.a2bBase64, Codec.a2bBase64]
    simp only [stdChar_eq_pad_iff, b64Val_stdChar, ih]

theorem isB64_stdChar {n : Nat} (h : n < 64) : isB64 (stdChar (Codec.b64Char n)) = true := by
  have hall : ∀ n < 64, isB64 (stdChar (Codec.b64Char n)) = true := by decide
  exact hall n h

theorem isB64_of_mem {data : Bytes} {c : Nat}
    (h : c ∈ (Codec.b64urlEncode data).map stdChar) : isB64 c = true := by
  obtain ⟨c', hc', rfl⟩ := List.mem_map.mp h
  obtain ⟨n, hn, rfl⟩ := Codec.lt_of_mem_b64urlEncode hc'
  exact isB64_stdChar hn

theorem length_b64urlEncode_mod (data : Bytes) : (Codec.b64urlEncode data).length % 4 ≠ 1 := by
  induction data using Codec.b64urlEncode.induct with
  | case1 => decide
  | case2 a => simp [Codec.b64urlEncode]
  | case3 a b => simp [Codec.b64urlEncode]
  | case4 a b c t ih =>
    rw [Codec.length_b64urlEncode_group]
    omega

theorem b64encode_eq (data : Bytes) : ∃ s k, b64encode data = s ++ List.replicate k 61 ∧
    (∀ c ∈ s, isB64 c = true) ∧ k ≤ 2 ∧ (b64encode data).length % 4 = 0 := by
  have hmod := length_b64urlEncode_mod data
  refine ⟨_, _, rfl, fun c hc => isB64_of_mem hc, by omega, ?_⟩
  rw [b64encode, List.length_append, List.length_map, List.length_replicate]
  omega

theorem dropWhile_isB64 {s : Str} {k : Nat} (hs : ∀ c ∈ s, isB64 c = true) :
    (s ++ List.replicate k 61).dropWhile isB64 = List.replicate k 61 := by
  rw [List.dropWhile_append_of_pos hs]
  cases k with
  | zero => rfl
  | succ k => exact List.dropWhile_cons_of_neg (by decide)

theorem all_replicate_pad (k : Nat) : (List.replicate k 61).all (· == 61) = true := by
  rw [List.all_eq_true]
  intro c hc
  rw [List.eq_of_mem_replicate hc]
  rfl

theorem b64decode_b64encode (data : Bytes) : b64decode (b64encode data) = some data := by
  obtain ⟨s, k, heq, hs, hk, hmod⟩ := b64encode_eq data
  rw [b64decode, hmod, heq, dropWhile_isB64 hs, all_replicate_pad, List.length_replicate, decide_eq_true hk,
    Bool.true_and, Bool.true_and, if_pos (by decide), ← heq, b64encode, a2bBase64_map_stdChar,
    Codec.a2bBase64_b64urlEncode]

/-! ## The armor of a writer -/

/-- The text of the lines, with or without a final newline. -/
def armorText (lines : List Str) (newline : Bool) : Str :=
  [10].intercalate lines ++ if newline then [10] else []

/-- The lines of an armored block: its data lines and the checksum line, if it has one. -/
def armored (body : List Str) (crcLine : Option Str) : List Str :=
  armorBegin :: [] :: (body ++ crcLine.toList) ++ [armorEnd]

/-- The checksum line of a 24-bit value. -/
def crcLineOf (crc : Nat) : Str := 61 :: b64encode (Codec.intToFixed crc 3)

/-- The base64 of a byte string cut into lines, padding only at the end of the last one. -/
structure Cut (data : Bytes) (body : List Str) : Prop where
  flatten_eq : body.flatten = b64encode data
  length_le : ∀ line ∈ body, 1 ≤ line.length ∧ line.length ≤ maxArmorLine
  no_pad : ∀ line ∈ body.dropLast, 61 ∉ line

theorem armorText_newline (lines : List Str) (h : lines ≠ []) :
    armorText lines true = [10].intercalate (lines ++ [[]]) := by
  rw [armorText, if_pos rfl]
  induction lines with
  | nil => exact absurd rfl h
  | cons l ls ih =>
    cases ls with
    | nil =>
      rw [List.singleton_append, List.intercalate_cons_cons, List.intercalate_singleton,
        List.intercalate_singleton, List.append_nil]
    | cons l' ls =>
      have hrest := ih (List.cons_ne_nil _ _)
      simp only [List.cons_append] at hrest ⊢
      rw [List.intercalate_cons_cons, List.intercalate_cons_cons, List.append_assoc, hrest]

theorem armorLines_armorText {lines : List Str} {newline : Bool} (hne : lines ≠ [])
    (hlf : ∀ line ∈ lines, 10 ∉ line) (hlast : lines.getLast? ≠ some []) :
    armorLines (armorText lines newline) = lines := by
  cases newline with
  | true =>
    have hsplit : Str.split 10 ([10].intercalate (lines ++ [[]])) = lines ++ [[]] := by
      refine List.splitOn_intercalate 10 (fun l hl => ?_) (List.append_ne_nil_of_left_ne_nil hne _)
      rcases List.mem_append.mp hl with hl | hl
      · exact hlf l hl
      · rw [List.mem_singleton.mp hl]
        exact List.not_mem_nil
    rw [armorText_newline lines hne, armorLines, hsplit]
    simp
  | false =>
    have hsplit : Str.split 10 ([10].intercalate lines) = lines :=
      List.splitOn_intercalate 10 hlf hne
    rw [armorText, if_neg Bool.false_ne_true, List.append_nil, armorLines, hsplit, if_neg hlast]

theorem forall_mem_intercalate {P : Nat → Prop} {sep : Str} {lines : List Str}
    (hsep : ∀ c ∈ sep, P c) (h : ∀ line ∈ lines, ∀ c ∈ line, P c) :
    ∀ c ∈ sep.intercalate lines, P c := by
  induction lines with
  | nil => exact fun c hc => absurd hc List.not_mem_nil
  | cons l ls ih =>
    rw [List.forall_mem_cons] at h
    cases ls with
    | nil =>
      rw [List.intercalate_singleton]
      exact h.1
    | cons l' ls =>
      rw [List.intercalate_cons_cons]
      intro c hc
      rcases List.mem_append.mp hc with hc | hc
      · rcases List.mem_append.mp hc with hc | hc
        · exact h.1 c hc
        · exact hsep c hc
      · exact ih h.2 c hc

theorem isAscii_armorText {lines : List Str} {newline : Bool}
    (h : ∀ line ∈ lines, Str.isAscii line = true) :
    Str.isAscii (armorText lines newline) = true := by
  have hall : ∀ c ∈ armorText lines newline, c < 128 := by
    intro c hc
    rcases List.mem_append.mp hc with hc | hc
    · refine forall_mem_intercalate (P := (· < 128)) (fun c hc => ?_) (fun l hl c hc => ?_) c hc
      · rw [List.mem_singleton.mp hc]
        decide
      · exact of_decide_eq_true (List.all_eq_true.mp (h l hl) c hc)
    · cases newline with
      | true =>
        rw [List.mem_singleton.mp hc]
        decide
      | false => cases hc
  exact List.all_eq_true.mpr fun c hc => decide_eq_true (hall c hc)

/-! ## The lines of an encoding -/

theorem isB64_lt {c : Nat} (h : isB64 c = true) : c < 128 ∧ c ≠ 10 ∧ c ≠ 61 := by
  simp only [isB64, Str.isDigit, Bool.or_eq_true, Bool.and_eq_true, decide_eq_true_eq,
    beq_iff_eq] at h
  omega

theorem isB64Line_append {s : Str} {k : Nat} (hs : ∀ c ∈ s, isB64 c = true) (hne : s ≠ [])
    (hk : k ≤ 2) : isB64Line (s ++ List.replicate k 61) = true := by
  have hpos := List.length_pos_iff.mpr hne
  have hlen : (s ++ List.replicate k 61).length ≠ k := by
    rw [List.length_append, List.length_replicate]
    omega
  rw [isB64Line]
  simp only [dropWhile_isB64 hs, all_replicate_pad, List.length_replicate, Bool.and_true,
    Bool.and_eq_true, bne_iff_ne, decide_eq_true_eq]
  exact ⟨hlen, hk⟩

variable {data : Bytes} {body : List Str}

theorem Cut.body_ne_nil (h : Cut data body) (hdata : data ≠ []) : body ≠ [] := by
  rintro rfl
  have hnil := h.flatten_eq.symm
  rw [List.flatten_nil, b64encode, List.append_eq_nil_iff, List.map_eq_nil_iff] at hnil
  match data, hdata with
  | [a], _ => cases hnil.1
  | [a, b], _ => cases hnil.1
  | a :: b :: c :: t, _ => cases hnil.1

/-- Every data line but the last is characters of the alphabet; the last one may end in padding. -/
theorem Cut.lines (h : Cut data body) (hdata : data ≠ [])
    (hlast : ∀ line, body.getLast? = some line → line.head? ≠ some 61) :
    ∃ front last k, body = front ++ [last ++ List.replicate k 61] ∧ last ≠ [] ∧ k ≤ 2 ∧
      (∀ line ∈ front, ∀ c ∈ line, isB64 c = true) ∧ ∀ c ∈ last, isB64 c = true := by
  obtain ⟨s, k, heq, hs, hk, -⟩ := b64encode_eq data
  have hne := h.body_ne_nil hdata
  have hbody := List.dropLast_append_getLast hne
  have hfirst := hlast _ (List.getLast?_eq_some_getLast hne)
  have hlen := (h.length_le _ (List.getLast_mem hne)).1
  have hflat := h.flatten_eq
  rw [heq, ← hbody, List.flatten_append, List.flatten_singleton] at hflat
  have hnopad : 61 ∉ body.dropLast.flatten := by
    rw [List.mem_flatten]
    rintro ⟨line, hline, hc⟩
    exact h.no_pad line hline hc
  generalize body.dropLast = front at hflat hbody hnopad
  generalize body.getLast hne = last at hflat hbody hfirst hlen
  rcases List.append_eq_append_iff.mp hflat with ⟨x, hsx, hlastx⟩ | ⟨y, hfront, hpad⟩
  · refine ⟨front, x, k, ?_, ?_, hk, ?_, ?_⟩
    · rw [← hbody, hlastx]
    · rintro rfl
      rw [List.nil_append] at hlastx
      rw [hlastx] at hfirst hlen
      rw [List.length_replicate] at hlen
      obtain ⟨n, rfl⟩ : ∃ n, k = n + 1 := ⟨k - 1, by omega⟩
      exact hfirst rfl
    · intro line hline c hc
      refine hs c ?_
      rw [hsx]
      exact List.mem_append_left _ (List.mem_flatten.mpr ⟨line, hline, hc⟩)
    · intro c hc
      refine hs c ?_
      rw [hsx]
      exact List.mem_append_right _ hc
  · -- padding in front of the last line is none
    exfalso
    have hy : y = [] := by
      refine List.eq_nil_iff_forall_not_mem.mpr fun c hc => hnopad ?_
      have hmem : c ∈ List.replicate k 61 := by
        rw [hpad]
        exact List.mem_append_left _ hc
      rw [hfront, ← List.eq_of_mem_replicate hmem]
      exact List.mem_append_right _ hc
    rw [hy, List.nil_append] at hpad
    rw [← hpad] at hfirst hlen
    rw [List.length_replicate] at hlen
    obtain ⟨n, rfl⟩ : ∃ n, k = n + 1 := ⟨k - 1, by omega⟩
    exact hfirst rfl

theorem crcLineOf_eq {n : Nat} (h : n < 2 ^ 24) : ∃ s, crcLineOf n = 61 :: s ∧ s.length = 4 ∧
    (∀ c ∈ s, isB64 c = true) ∧ b64decode s = some (Codec.intToFixed n 3) := by
  have hlen : (Codec.intToFixed n 3).length = 3 := Codec.length_intToFixed (by omega)
  have hgroup : ∀ code : Bytes, code.length = 3 → (b64encode code).length = 4 ∧
      b64encode code = (Codec.b64urlEncode code).map stdChar := by
    intro code hcode
    match code, hcode with
    | [a, b, c], _ => simp [b64encode, Codec.b64urlEncode]
  obtain ⟨hfour, hmap⟩ := hgroup _ hlen
  refine ⟨_, rfl, hfour, fun c hc => ?_, b64decode_b64encode _⟩
  rw [hmap] at hc
  exact isB64_of_mem hc

theorem readCrcLine_crcLineOf {crc : Option Nat} (h : ∀ n ∈ crc, n < 2 ^ 24) :
    readCrcLine (crc.map crcLineOf) = .ok crc := by
  cases crc with
  | none => rfl
  | some n =>
    obtain ⟨s, hs, hlen, hb64, hdec⟩ := crcLineOf_eq (h n rfl)
    have hline : isCrcLine (61 :: s) = true := by
      rw [isCrcLine, hlen, List.all_eq_true.mpr hb64]
      rfl
    rw [Option.map_some, readCrcLine, hs, readCrc, hline]
    change (orRaise (b64decode s) _ >>= _) >>= _ = _
    rw [hdec]
    change Except.ok (some (Codec.intFromBytes (Codec.intToFixed n 3))) = _
    rw [Codec.intFromBytes_intToFixed]

/-! ## Reading the armor back -/

theorem not_mem_ten {line : Str} (h : ∀ c ∈ line, isB64 c = true ∨ c = 61) : 10 ∉ line := by
  intro hmem
  rcases h 10 hmem with h | h
  · cases h
  · cases h

theorem isAscii_line {line : Str} (h : ∀ c ∈ line, isB64 c = true ∨ c = 61) :
    Str.isAscii line = true := by
  refine List.all_eq_true.mpr fun c hc => decide_eq_true ?_
  rcases h c hc with h | rfl
  · exact (isB64_lt h).1
  · decide

/-- The characters of the lines of an armored block are those of data lines, or of its frame. -/
theorem forall_mem_armored {P : Str → Prop} {crcLine : Option Str} (hbegin : P armorBegin)
    (hempty : P []) (hend : P armorEnd) (hbody : ∀ line ∈ body, P line)
    (hcrc : ∀ line ∈ crcLine, P line) : ∀ line ∈ armored body crcLine, P line := by
  intro line hline
  simp only [armored, List.cons_append, List.mem_cons, List.mem_append, List.not_mem_nil, or_false,
    Option.mem_toList] at hline
  rcases hline with rfl | rfl | (hline | hline) | rfl
  · exact hbegin
  · exact hempty
  · exact hbody line hline
  · exact hcrc line hline
  · exact hend

theorem isArmored_armored {crcLine : Option Str} (h : body ≠ []) :
    isArmored (armored body crcLine) = true := by
  have hlen : 4 ≤ (armored body crcLine).length := by
    have := List.length_pos_iff.mpr h
    simp only [armored, List.cons_append, List.length_cons, List.length_append, List.length_nil]
    omega
  have hlast : (armored body crcLine).getLast? = some armorEnd := List.getLast?_concat
  rw [isArmored, decide_eq_true hlen, hlast]
  simp [armored]

/-- The data lines and the checksum line are told apart by their first characters. -/
theorem armorBody_armored {crcLine : Option Str}
    (hlast : ∀ line, body.getLast? = some line → line.head? ≠ some 61)
    (hcrc : ∀ line ∈ crcLine, ∃ s, line = 61 :: s) :
    armorBody (armored body crcLine) = (body, crcLine) := by
  have hmid : ((armored body crcLine).drop 2).dropLast = body ++ crcLine.toList :=
    List.dropLast_concat
  rw [armorBody, hmid]
  cases crcLine with
  | some line =>
    obtain ⟨s, rfl⟩ := hcrc line rfl
    simp
  | none =>
    rw [Option.toList_none, List.append_nil]
    split
    · rename_i s heq
      exact absurd rfl (hlast _ heq)
    · rfl

theorem dearmor_str_eq_ok {text : Str} {d : Bytes} : dearmor (.str text) = .ok d ↔
    text.length ≤ maxArmorChars ∧ Str.isAscii text = true ∧ isArmored (armorLines text) = true ∧
      (armorBody (armorLines text)).1 ≠ [] ∧
      each (checkArmorLine (armorBody (armorLines text)).1.length)
        ((List.range (armorBody (armorLines text)).1.length).zip
          (armorBody (armorLines text)).1) = .ok () ∧
      b64decode (armorBody (armorLines text)).1.flatten = some d ∧
      ∃ crc, readCrcLine (armorBody (armorLines text)).2 = .ok crc ∧
        d.length ≤ maxKeyBlockBytes ∧ ∀ n ∈ crc, n = crc24 d := by
  simp only [dearmor, bind_eq_ok, raiseIf_eq_ok, orRaise_eq_ok, pure_eq_ok, Json.str?,
    decide_eq_false_iff_not, not_lt, Bool.not_eq_false', List.isEmpty_eq_false_iff,
    Option.any_eq_false_iff_get, bne_eq_false_iff_eq]
  constructor
  · rintro ⟨_, ⟨⟩, ⟨⟩, hlen, ⟨⟩, hascii, ⟨⟩, hshape, ⟨⟩, hne, ⟨⟩, hlines, data, hdata, crc, hcrc, ⟨⟩,
      hmax, ⟨⟩, hany, rfl⟩
    refine ⟨hlen, hascii, hshape, hne, hlines, hdata, crc, hcrc, hmax, fun n hn => ?_⟩
    obtain rfl := hn
    exact hany rfl
  · rintro ⟨hlen, hascii, hshape, hne, hlines, hdata, crc, hcrc, hmax, hany⟩
    exact ⟨text, rfl, (), hlen, (), hascii, (), hshape, (), hne, (), hlines, d, hdata, crc, hcrc, (),
      hmax, (), fun h => hany _ (Option.get_mem h), rfl⟩

/-- The data lines of a cut pass the checks of the reader. -/
theorem Cut.checkArmorLines (h : Cut data body) (hdata : data ≠ [])
    (hlast : ∀ line, body.getLast? = some line → line.head? ≠ some 61) :
    each (checkArmorLine body.length) ((List.range body.length).zip body) = .ok () := by
  obtain ⟨front, last, k, hlines, hne, hk, hfront, hlastchars⟩ := h.lines hdata hlast
  rw [each_eq_ok]
  rintro ⟨i, line⟩ hmem
  obtain ⟨j, hj, heq⟩ := List.getElem_of_mem hmem
  rw [List.getElem_zip, List.getElem_range] at heq
  obtain ⟨rfl, rfl⟩ := Prod.mk.inj heq
  have hj : j < body.length := by
    rw [List.length_zip, List.length_range] at hj
    omega
  obtain ⟨hpos, hle⟩ := h.length_le body[j] (List.getElem_mem hj)
  have hcount : body.length = front.length + 1 := by
    rw [hlines, List.length_append, List.length_singleton]
  have hline : isB64Line body[j] = true ∧ (j ≠ body.length - 1 → 61 ∉ body[j]) := by
    by_cases hjfront : j < front.length
    · have hget : body[j] = front[j] := by
        simp only [hlines, List.getElem_append_left hjfront]
      have hchars := hfront front[j] (List.getElem_mem hjfront)
      have hnonempty : front[j] ≠ [] := by
        rw [← hget]
        exact List.length_pos_iff.mp hpos
      have hb64 := isB64Line_append hchars hnonempty (Nat.zero_le 2)
      rw [List.replicate_zero, List.append_nil] at hb64
      rw [hget]
      exact ⟨hb64, fun _ hpad => (isB64_lt (hchars 61 hpad)).2.2 rfl⟩
    · have hjlast : j = front.length := by omega
      have hget : body[j] = last ++ List.replicate k 61 := by
        subst hjlast
        simp only [hlines, List.getElem_concat_length]
      rw [hget]
      exact ⟨isB64Line_append hlastchars hne hk, fun hj => absurd (by omega) hj⟩
  simp only [checkArmorLine, bind_eq_ok, raiseIf_eq_ok, Bool.not_eq_false', Bool.and_eq_true,
    decide_eq_true_eq, Bool.and_eq_false_iff, bne_eq_false_iff_eq]
  refine ⟨(), ⟨⟨hpos, hle⟩, hline.1⟩, ?_⟩
  by_cases hjlast : j = body.length - 1
  · exact .inr hjlast
  · exact .inl (by simpa using hline.2 hjlast)

/-- The armor of a cut of a byte string is read as the byte string, unless its checksum differs. -/
theorem dearmor_armorText_eq_ok (h : Cut data body) (hdata : data ≠ [])
    (hlast : ∀ line, body.getLast? = some line → line.head? ≠ some 61)
    (hmax : data.length ≤ maxKeyBlockBytes) {crc : Option Nat} (hcrc : ∀ n ∈ crc, n < 2 ^ 24)
    {newline : Bool}
    (hchars : (armorText (armored body (crc.map crcLineOf)) newline).length ≤ maxArmorChars)
    {d : Bytes} :
    dearmor (.str (armorText (armored body (crc.map crcLineOf)) newline)) = .ok d ↔
      d = data ∧ ∀ n ∈ crc, n = crc24 data := by
  obtain ⟨front, last, k, hlines, hne, hk, hfront, hlastchars⟩ := h.lines hdata hlast
  have hbody := h.body_ne_nil hdata
  have hchar : ∀ line ∈ body, ∀ c ∈ line, isB64 c = true ∨ c = 61 := by
    intro line hline c hc
    rw [hlines] at hline
    rcases List.mem_append.mp hline with hline | hline
    · exact .inl (hfront line hline c hc)
    · rw [List.mem_singleton.mp hline] at hc
      rcases List.mem_append.mp hc with hc | hc
      · exact .inl (hlastchars c hc)
      · exact .inr (List.eq_of_mem_replicate hc)
  have hcrcline : ∀ line ∈ crc.map crcLineOf, ∃ s, line = 61 :: s ∧ ∀ c ∈ s, isB64 c = true := by
    intro line hline
    obtain ⟨n, hn, rfl⟩ := Option.map_eq_some_iff.mp hline
    obtain ⟨s, hs, -, hb64, -⟩ := crcLineOf_eq (hcrc n hn)
    exact ⟨s, hs, hb64⟩
  have hcrcchar : ∀ line ∈ crc.map crcLineOf, ∀ c ∈ line, isB64 c = true ∨ c = 61 := by
    intro line hline c hc
    obtain ⟨s, rfl, hs⟩ := hcrcline line hline
    rcases List.mem_cons.mp hc with rfl | hc
    · exact .inr rfl
    · exact .inl (hs c hc)
  have hlf : ∀ line ∈ armored body (crc.map crcLineOf), 10 ∉ line :=
    forall_mem_armored (by decide) (by decide) (by decide) (fun l hl => not_mem_ten (hchar l hl))
      fun l hl => not_mem_ten (hcrcchar l hl)
  have hascii : Str.isAscii (armorText (armored body (crc.map crcLineOf)) newline) = true :=
    isAscii_armorText (forall_mem_armored (P := fun l => Str.isAscii l = true) (by decide) (by decide) (by decide)
      (fun l hl => isAscii_line (hchar l hl)) fun l hl => isAscii_line (hcrcchar l hl))
  have hgetLast : (armored body (crc.map crcLineOf)).getLast? ≠ some [] := by
    have hend : (armored body (crc.map crcLineOf)).getLast? = some armorEnd := List.getLast?_concat
    rw [hend]
    decide
  have harmor : armorLines (armorText (armored body (crc.map crcLineOf)) newline) =
      armored body (crc.map crcLineOf) :=
    armorLines_armorText (List.cons_ne_nil _ _) hlf hgetLast
  have hsplit := armorBody_armored hlast fun l hl => (hcrcline l hl).imp fun s hs => hs.1
  rw [dearmor_str_eq_ok, harmor, hsplit]
  dsimp only
  rw [readCrcLine_crcLineOf hcrc, h.flatten_eq, b64decode_b64encode, isArmored_armored hbody]
  constructor
  · rintro ⟨-, -, -, -, -, hd, crc', heq, -, hany⟩
    cases hd
    cases heq
    exact ⟨rfl, hany⟩
  · rintro ⟨rfl, hany⟩
    exact ⟨hchars, hascii, rfl, hbody, h.checkArmorLines hdata hlast, rfl, crc, rfl, hmax, hany⟩

/-- The table-driven checksum is the bitwise one, and the armor of a byte string is read back: with
its checksum or none, and with another checksum it is refused. -/
theorem armor_reading :
    (∀ data : Bytes, crc24 data = crc24Bitwise data) ∧
    ∀ (data : Bytes) (body : List Str) (newline : Bool), data ≠ [] →
      data.length ≤ maxKeyBlockBytes → Cut data body →
      (∀ line, body.getLast? = some line → line.head? ≠ some 61) →
      ((armorText (armored body none) newline).length ≤ maxArmorChars →
        dearmor (.str (armorText (armored body none) newline)) = .ok data) ∧
      ∀ crc < 2 ^ 24,
        (armorText (armored body (some (crcLineOf crc))) newline).length ≤ maxArmorChars →
        (crc = crc24 data →
          dearmor (.str (armorText (armored body (some (crcLineOf crc))) newline)) = .ok data) ∧
        (crc ≠ crc24 data →
          ∃ e, dearmor (.str (armorText (armored body (some (crcLineOf crc))) newline)) =
            .error e) := by
  refine ⟨crc24_eq, fun data body newline hdata hmax hcut hlast => ⟨fun hchars => ?_,
    fun crc hcrc hchars => ⟨fun heq => ?_, fun hne => ?_⟩⟩⟩
  · have hnone : ∀ n ∈ (none : Option Nat), n < 2 ^ 24 := fun n hn => nomatch hn
    exact (dearmor_armorText_eq_ok hcut hdata hlast hmax hnone hchars).mpr
      ⟨rfl, fun n hn => nomatch hn⟩
  · have hsome : ∀ n ∈ some crc, n < 2 ^ 24 := fun n hn => Option.some.inj hn ▸ hcrc
    refine (dearmor_armorText_eq_ok hcut hdata hlast hmax hsome hchars).mpr ⟨rfl, fun n hn => ?_⟩
    rw [← Option.some.inj hn, heq]
  · have hsome : ∀ n ∈ some crc, n < 2 ^ 24 := fun n hn => Option.some.inj hn ▸ hcrc
    cases hread : dearmor (.str (armorText (armored body (some (crcLineOf crc))) newline)) with
    | error e => exact ⟨e, rfl⟩
    | ok d =>
      have hany := ((dearmor_armorText_eq_ok hcut hdata hlast hmax hsome hchars).mp hread).2
      exact absurd (hany crc rfl) hne

/-- The armor of three bytes is read back, with its checksum or none, and refused with another. -/
theorem armor_reading_line :
    dearmor (.str (armorText (armored ["AQID"] none) false)) = .ok [1, 2, 3] ∧
      dearmor (.str (armorText (armored ["AQID"] (some (crcLineOf (crc24 [1, 2, 3])))) true)) =
        .ok [1, 2, 3] ∧
      ∃ e, dearmor (.str (armorText (armored ["AQID"] (some (crcLineOf 0))) true)) = .error e := by
  have hcut : Cut [1, 2, 3] ["AQID"] := ⟨by decide, by decide, by decide⟩
  have hread := fun newline =>
    armor_reading.2 [1, 2, 3] ["AQID"] newline (by decide) (by decide) hcut (by decide)
  refine ⟨(hread false).1 (by decide), ?_, ?_⟩
  · exact ((hread true).2 (crc24 [1, 2, 3]) (by decide +kernel) (by decide +kernel)).1 rfl
  · exact ((hread true).2 0 (by decide) (by decide)).2 (by decide +kernel)

/-- A last line of padding alone is not data, and there is no armor of no data. -/
theorem dearmor_padding_line :
    Cut [0x41] ["QQ", "=="] ∧
      returned (dearmor (.str (armorText (armored ["QQ", "=="] none) false))) = false ∧
      Cut [] [] ∧ returned (dearmor (.str (armorText (armored [] none) false))) = false :=
  ⟨⟨by decide, by decide, by decide⟩, by decide +kernel, ⟨by decide, by decide, by decide⟩,
    by decide +kernel⟩

end OpenVC.OpenPgp
