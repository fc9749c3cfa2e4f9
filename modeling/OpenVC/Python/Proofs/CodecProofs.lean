import Mathlib.Data.Nat.Digits.Lemmas
import OpenVC.Logic.Positional
import OpenVC.Python.Codec

/-!
# The codecs, backwards

Big-endian integers of a fixed length are read back, and what the strict UTF-8 decoder accepts is the
encoding of the text it returns.
-/

namespace Python.Codec

/-! ## Big-endian integers -/

theorem foldl_bytes (b : Bytes) (a : Nat) :
    b.foldl (fun a x => 256 * a + x.toNat) a = 256 ^ b.length * a + intFromBytes b := by
  induction b generalizing a with
  | nil => simp [intFromBytes]
  | cons x b ih =>
    have hcons : intFromBytes (x :: b) = 256 ^ b.length * (256 * 0 + x.toNat) + intFromBytes b := by
      rw [intFromBytes, List.foldl_cons, ih]
    rw [List.foldl_cons, ih, hcons, List.length_cons, pow_succ]
    ring

theorem intFromBytes_append (a b : Bytes) :
    intFromBytes (a ++ b) = 256 ^ b.length * intFromBytes a + intFromBytes b := by
  rw [intFromBytes, List.foldl_append, foldl_bytes]
  rfl

theorem intFromBytes_replicate (k : Nat) : intFromBytes (List.replicate k 0) = 0 := by
  induction k with
  | zero => rfl
  | succ k ih =>
    rw [List.replicate_succ', intFromBytes_append, ih]
    rfl

theorem intFromBytes_lt (b : Bytes) : intFromBytes b < 256 ^ b.length := by
  induction b using List.reverseRecOn with
  | nil => simp [intFromBytes]
  | append_singleton b x ih =>
    have hx : x.toNat < 256 := x.toNat_lt
    have h1 : intFromBytes [x] = x.toNat := by simp [intFromBytes]
    rw [intFromBytes_append, h1, List.length_append, List.length_singleton, pow_one, pow_succ]
    omega

theorem intFromBytes_intToBytes (n : Nat) : intFromBytes (intToBytes n) = n := by
  have key : ∀ l : List Nat, (∀ d ∈ l, d < 256) →
      intFromBytes (l.reverse.map UInt8.ofNat) = Nat.ofDigits 256 l := by
    intro l
    induction l with
    | nil => intro _; rfl
    | cons d l ih =>
      intro hl
      have hd : d < 256 := hl d List.mem_cons_self
      have h1 : intFromBytes [UInt8.ofNat d] = d := by
        simp [intFromBytes, toNat_byte hd]
      rw [List.reverse_cons, List.map_append, List.map_singleton, intFromBytes_append, h1,
        ih fun x hx => hl x (List.mem_cons_of_mem _ hx), Nat.ofDigits_cons, List.length_singleton,
        pow_one, Nat.add_comm]
  rw [intToBytes, key _ fun d hd => Nat.digits_lt_base (by omega) hd, Nat.ofDigits_digits]

theorem intFromBytes_intToFixed (n len : Nat) : intFromBytes (intToFixed n len) = n := by
  rw [intToFixed, intFromBytes_append, intFromBytes_replicate, intFromBytes_intToBytes, mul_zero,
    zero_add]

theorem length_intToFixed {n len : Nat} (h : n < 256 ^ len) : (intToFixed n len).length = len := by
  have hdigits : (Nat.digits 256 n).length ≤ len := (Nat.digits_length_le_iff (by omega) n).mpr h
  rw [intToFixed, List.length_append, List.length_replicate, intToBytes, List.length_map,
    List.length_reverse]
  omega

theorem intFromBytes_eq_value (b : Bytes) :
    intFromBytes b = Positional.value 256 (b.map UInt8.toNat) := by
  rw [intFromBytes, Positional.value, List.foldl_map]
  simp only [Nat.mul_comm 256]

theorem intToBytes_cons_ne_zero {n : Nat} {x : UInt8} {t : Bytes} (h : intToBytes n = x :: t) :
    x ≠ 0 := by
  rw [intToBytes] at h
  cases hd : (Nat.digits 256 n).reverse with
  | nil =>
    rw [hd] at h
    cases h
  | cons d r =>
    rw [hd, List.map_cons, List.cons.injEq] at h
    have hlt : d < 256 := Nat.digits_lt_base (by omega) (List.mem_reverse.mp (hd ▸ List.mem_cons_self))
    have h0 : d ≠ 0 := Positional.numeral_cons_ne_zero hd
    intro e
    have hnat := congrArg UInt8.toNat h.1
    rw [e, toNat_byte hlt] at hnat
    exact h0 hnat

theorem bytes_eq (b : Bytes) :
    b = List.replicate (b.takeWhile (· = 0)).length 0 ++ intToBytes (intFromBytes b) := by
  have hlt : ∀ d ∈ b.map UInt8.toNat, d < 256 := by
    intro d hd
    obtain ⟨y, -, rfl⟩ := List.mem_map.mp hd
    exact y.toNat_lt
  have hback : (b.map UInt8.toNat).map UInt8.ofNat = b := by
    simp [List.map_map, Function.comp_def]
  have hzeros : Positional.zeros (b.map UInt8.toNat) = (b.takeWhile (· = 0)).length := by
    rw [Positional.zeros, List.takeWhile_map, List.length_map]
    refine congrArg List.length (congrArg (List.takeWhile · b) (funext fun x => ?_))
    exact decide_eq_decide.mpr (UInt8.toNat_inj (b := 0))
  have h := congrArg (List.map UInt8.ofNat) (Positional.eq_append_numeral (by omega) hlt)
  rw [hback, List.map_append, List.map_replicate, hzeros, ← intFromBytes_eq_value] at h
  exact h

theorem intToBytes_intFromBytes {x : UInt8} (hx : x ≠ 0) (t : Bytes) :
    intToBytes (intFromBytes (x :: t)) = x :: t := by
  have h := bytes_eq (x :: t)
  rw [List.takeWhile_cons_of_neg (by simpa using hx)] at h
  exact h.symm

theorem intToFixed_intFromBytes (b : Bytes) : intToFixed (intFromBytes b) b.length = b := by
  have h := bytes_eq b
  have hlen := congrArg List.length h
  rw [List.length_append, List.length_replicate, intToBytes, List.length_map,
    List.length_reverse] at hlen
  rw [intToFixed, hlen, Nat.add_sub_cancel]
  exact h.symm

/-! ## UTF-8 -/

theorem byte_of_toNat {x : Nat} {a : UInt8} (h : x = a.toNat) : UInt8.ofNat x = a := by
  rw [h, UInt8.ofNat_toNat]

theorem isCont_iff {b : UInt8} : isCont b = true ↔ 0x80 ≤ b.toNat ∧ b.toNat ≤ 0xBF := by
  rw [isCont, Bool.and_eq_true, decide_eq_true_eq, decide_eq_true_eq]

theorem utf8Char_of_utf8Step {data : Bytes} {c n : Nat} (h : utf8Step false data = (some c, n)) :
    ∃ code rest, utf8Char c = some code ∧ code.length = n ∧ data = code ++ rest := by
  cases data with
  | nil => cases h
  | cons a t =>
    rw [utf8Step] at h
    split_ifs at h with h1 h2 h3 h4 h5
    · cases h
      refine ⟨[a], t, ?_, rfl, rfl⟩
      rw [utf8Char, if_pos h1, byte_of_toNat rfl]
    · cases h
    · unfold utf8Step2 at h
      split at h
      · rename_i b t
        split_ifs at h with hb
        · obtain ⟨hc, rfl⟩ := Prod.mk.inj h
          have hc := Option.some.inj hc
          rw [isCont_iff] at hb
          refine ⟨[a, b], t, ?_, rfl, rfl⟩
          rw [utf8Char, if_neg (by omega), if_pos (by omega), byte_of_toNat (a := a) (by omega),
            byte_of_toNat (a := b) (by omega)]
        · cases h
      · cases h
    · unfold utf8Step3 at h
      split at h
      · rename_i b t
        split_ifs at h with hb
        · split at h
          · rename_i d t
            split_ifs at h with hd
            · obtain ⟨hc, rfl⟩ := Prod.mk.inj h
              have hc := Option.some.inj hc
              simp only [okSecond3, Bool.and_eq_true, Bool.or_eq_true, decide_eq_true_eq,
                isCont_iff, bne_iff_ne, Bool.false_eq_true, false_or] at hb
              rw [isCont_iff] at hd
              refine ⟨[a, b, d], t, ?_, rfl, rfl⟩
              rw [utf8Char, if_neg (by omega), if_neg (by omega), if_neg (by omega),
                if_pos (by omega), byte_of_toNat (a := a) (by omega),
                byte_of_toNat (a := b) (by omega), byte_of_toNat (a := d) (by omega)]
            · cases h
          · cases h
        · cases h
      · cases h
    · unfold utf8Step4 at h
      split at h
      · rename_i b t
        split_ifs at h with hb
        · split at h
          · rename_i d t
            split_ifs at h with hd
            · split at h
              · rename_i e t
                split_ifs at h with he
                · obtain ⟨hc, rfl⟩ := Prod.mk.inj h
                  have hc := Option.some.inj hc
                  simp only [okSecond4, Bool.and_eq_true, Bool.or_eq_true, decide_eq_true_eq,
                    isCont_iff, bne_iff_ne] at hb
                  rw [isCont_iff] at hd he
                  refine ⟨[a, b, d, e], t, ?_, rfl, rfl⟩
                  rw [utf8Char, if_neg (by omega), if_neg (by omega), if_neg (by omega),
                    if_neg (by omega), if_pos (by omega), byte_of_toNat (a := a) (by omega),
                    byte_of_toNat (a := b) (by omega), byte_of_toNat (a := d) (by omega),
                    byte_of_toNat (a := e) (by omega)]
                · cases h
              · cases h
            · cases h
          · cases h
        · cases h
      · cases h
    · cases h

theorem encodeUtf8_of_decodeUtf8 {b : Bytes} {s : Str} (h : decodeUtf8 false b = some s) :
    encodeUtf8 s = some b := by
  induction s generalizing b with
  | nil =>
    cases b with
    | nil => rfl
    | cons a t =>
      simp only [decodeUtf8, decodeUtf8Go] at h
      split at h
      · simp at h
      · cases h
  | cons c s ih =>
    cases b with
    | nil => cases h
    | cons a t =>
      simp only [decodeUtf8, decodeUtf8Go] at h
      split at h
      · rename_i c' n hstep
        obtain ⟨s', hs', heq⟩ := Option.map_eq_some_iff.mp h
        obtain ⟨rfl, rfl⟩ := List.cons.inj heq
        obtain ⟨code, rest, hcode, rfl, hdata⟩ := utf8Char_of_utf8Step hstep
        obtain ⟨a', code, rfl⟩ := List.exists_cons_of_ne_nil (utf8Char_ne_nil hcode)
        obtain ⟨rfl, rfl⟩ := List.cons.inj hdata
        rw [List.length_cons, Nat.add_sub_cancel] at hs'
        have hskip := decodeUtf8Go_skip false code rest
        have hs : decodeUtf8Go false 0 rest = some s' := hskip.symm.trans hs'
        rw [encodeUtf8, hcode, ih hs]
        rfl
      · cases h

end Python.Codec
