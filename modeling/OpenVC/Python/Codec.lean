import Mathlib.Data.Nat.Digits.Defs
import OpenVC.Python.Text

/-!
# Codecs of the standard library

`str.encode("utf-8")` and the decoders, `base64.urlsafe_b64encode` / `urlsafe_b64decode` with the
default, non-strict `binascii.a2b_base64`, and the conversions between `int` and big-endian `bytes`.
-/

namespace Python.Codec

/-! ## UTF-8 -/

/-- The bytes of one code point; `none` is the `UnicodeEncodeError` of a surrogate. -/
def utf8Char (c : Nat) : Option Bytes :=
  if c < 0x80 then some [UInt8.ofNat c]
  else if c < 0x800 then some [UInt8.ofNat (0xC0 + c / 64), UInt8.ofNat (0x80 + c % 64)]
  else if 0xD800 ≤ c ∧ c ≤ 0xDFFF then none
  else if c < 0x10000 then
    some [UInt8.ofNat (0xE0 + c / 4096), UInt8.ofNat (0x80 + c / 64 % 64),
      UInt8.ofNat (0x80 + c % 64)]
  else if c < 0x110000 then
    some [UInt8.ofNat (0xF0 + c / 262144), UInt8.ofNat (0x80 + c / 4096 % 64),
      UInt8.ofNat (0x80 + c / 64 % 64), UInt8.ofNat (0x80 + c % 64)]
  else none

/-- `s.encode("utf-8")`. -/
def encodeUtf8 : Str → Option Bytes
  | [] => some []
  | c :: t =>
    match utf8Char c, encodeUtf8 t with
    | some b, some r => some (b ++ r)
    | _, _ => none

/-- A continuation byte. -/
def isCont (b : UInt8) : Bool := 0x80 ≤ b.toNat && b.toNat ≤ 0xBF

/-- The second bytes a three-byte head admits; `pass` admits the surrogates. -/
def okSecond3 (pass : Bool) (a b : UInt8) : Bool :=
  isCont b && (a.toNat != 0xE0 || 0xA0 ≤ b.toNat) && (pass || a.toNat != 0xED || b.toNat ≤ 0x9F)

/-- The second bytes a four-byte head admits. -/
def okSecond4 (a b : UInt8) : Bool :=
  isCont b && (a.toNat != 0xF0 || 0x90 ≤ b.toNat) && (a.toNat != 0xF4 || b.toNat ≤ 0x8F)

/-- The two-byte sequence that `a` heads. -/
def utf8Step2 (a : UInt8) : Bytes → Option Nat × Nat
  | b :: _ =>
    if isCont b then (some ((a.toNat - 0xC0) * 64 + (b.toNat - 0x80)), 2) else (none, 1)
  | [] => (none, 1)

/-- The three-byte sequence that `a` heads. -/
def utf8Step3 (pass : Bool) (a : UInt8) : Bytes → Option Nat × Nat
  | b :: t =>
    if okSecond3 pass a b then
      match t with
      | c :: _ =>
        if isCont c then
          (some ((a.toNat - 0xE0) * 4096 + (b.toNat - 0x80) * 64 + (c.toNat - 0x80)), 3)
        else (none, 2)
      | [] => (none, 2)
    else (none, 1)
  | [] => (none, 1)

/-- The four-byte sequence that `a` heads. -/
def utf8Step4 (a : UInt8) : Bytes → Option Nat × Nat
  | b :: t =>
    if okSecond4 a b then
      match t with
      | c :: t =>
        if isCont c then
          match t with
          | d :: _ =>
            if isCont d then
              (some ((a.toNat - 0xF0) * 262144 + (b.toNat - 0x80) * 4096 +
                (c.toNat - 0x80) * 64 + (d.toNat - 0x80)), 4)
            else (none, 3)
          | [] => (none, 3)
        else (none, 2)
      | [] => (none, 2)
    else (none, 1)
  | [] => (none, 1)

/-- One step of the decoder: the code point at the front, or `none` for an ill-formed sequence,
and how many bytes that is (of an ill-formed one, its maximal subpart). -/
def utf8Step (pass : Bool) : Bytes → Option Nat × Nat
  | [] => (none, 0)
  | a :: t =>
    if a.toNat < 0x80 then (some a.toNat, 1)
    else if a.toNat < 0xC2 then (none, 1)
    else if a.toNat < 0xE0 then utf8Step2 a t
    else if a.toNat < 0xF0 then utf8Step3 pass a t
    else if a.toNat < 0xF5 then utf8Step4 a t
    else (none, 1)

/-- `decodeUtf8` with `k` bytes of the last code point still to skip. -/
def decodeUtf8Go (pass : Bool) : Nat → Bytes → Option Str
  | _, [] => some []
  | k + 1, _ :: t => decodeUtf8Go pass k t
  | 0, a :: t =>
    match utf8Step pass (a :: t) with
    | (some c, n) => (decodeUtf8Go pass (n - 1) t).map (c :: ·)
    | (none, _) => none

/-- `b.decode("utf-8")`, and with `pass` the `surrogatepass` handler; `none` is
`UnicodeDecodeError`. -/
def decodeUtf8 (pass : Bool) (b : Bytes) : Option Str := decodeUtf8Go pass 0 b

/-- `decodeUtf8Replace` with `k` bytes of the last sequence still to skip. -/
def decodeUtf8ReplaceGo : Nat → Bytes → Str
  | _, [] => []
  | k + 1, _ :: t => decodeUtf8ReplaceGo k t
  | 0, a :: t =>
    match utf8Step false (a :: t) with
    | (some c, n) => c :: decodeUtf8ReplaceGo (n - 1) t
    | (none, n) => 0xFFFD :: decodeUtf8ReplaceGo (n - 1) t

/-- `b.decode("utf-8", "replace")`. -/
def decodeUtf8Replace (b : Bytes) : Str := decodeUtf8ReplaceGo 0 b

/-- `s.encode("ascii")`. -/
def encodeAscii (s : Str) : Option Bytes :=
  if s.isAscii then some (s.map UInt8.ofNat) else none

/-! ## Base64, URL-safe alphabet -/

/-- The character of a six-bit group. -/
def b64Char (n : Nat) : Nat :=
  if n < 26 then 65 + n else if n < 52 then 97 + (n - 26) else if n < 62 then 48 + (n - 52)
  else if n = 62 then 45 else 95

/-- `base64.urlsafe_b64encode(b).rstrip(b"=").decode("ascii")`. -/
def b64urlEncode : Bytes → Str
  | [] => []
  | [a] => [b64Char (a.toNat / 4), b64Char (a.toNat % 4 * 16)]
  | [a, b] =>
    [b64Char (a.toNat / 4), b64Char (a.toNat % 4 * 16 + b.toNat / 16),
      b64Char (b.toNat % 16 * 4)]
  | a :: b :: c :: t =>
    b64Char (a.toNat / 4) :: b64Char (a.toNat % 4 * 16 + b.toNat / 16) ::
      b64Char (b.toNat % 16 * 4 + c.toNat / 64) :: b64Char (c.toNat % 64) :: b64urlEncode t

/-- The group a character stands for. `urlsafe_b64decode` translates `-` and `_` and leaves `+` and
`/` as they are, so both alphabets are read. -/
def b64Val (c : Nat) : Option Nat :=
  if 65 ≤ c && c ≤ 90 then some (c - 65)
  else if 97 ≤ c && c ≤ 122 then some (c - 71)
  else if 48 ≤ c && c ≤ 57 then some (c + 4)
  else if c = 43 || c = 45 then some 62
  else if c = 47 || c = 95 then some 63
  else none

/-- `binascii.a2b_base64`: `quad` characters of the current group are read, `left` holds the bits
not yet written, `pads` counts the padding since the last of them. A character outside the alphabet
is skipped, and padding that completes a group ends the input. -/
def a2bBase64 : (quad left pads : Nat) → Str → Option Bytes
  | quad, _, _, [] => if quad = 0 then some [] else none
  | quad, left, pads, c :: t =>
    if c = 61 then
      if 2 ≤ quad then
        if 4 ≤ quad + (pads + 1) then some [] else a2bBase64 quad left (pads + 1) t
      else a2bBase64 quad left pads t
    else
      match b64Val c with
      | none => a2bBase64 quad left pads t
      | some v =>
        match quad with
        | 0 => a2bBase64 1 v 0 t
        | 1 => (a2bBase64 2 (v % 16) 0 t).map (UInt8.ofNat (left * 4 + v / 16) :: ·)
        | 2 => (a2bBase64 3 (v % 4) 0 t).map (UInt8.ofNat (left * 16 + v / 4) :: ·)
        | _ => (a2bBase64 0 0 0 t).map (UInt8.ofNat (left * 64 + v) :: ·)

/-- `base64.urlsafe_b64decode(s)` for a `str`; `none` is `ValueError` (`binascii.Error` is one). -/
def urlsafeB64Decode (s : Str) : Option Bytes := if s.isAscii then a2bBase64 0 0 0 s else none

/-- `base64.urlsafe_b64decode(s + "=" * (-len(s) % 4))`. -/
def b64urlDecodePadded (s : Str) : Option Bytes :=
  urlsafeB64Decode (s ++ List.replicate ((4 - s.length % 4) % 4) 61)

/-- `base64.b64decode(s)` for a `str`: the standard alphabet, so that `-` and `_` are skipped too. -/
def b64Decode (s : Str) : Option Bytes :=
  if s.isAscii then a2bBase64 0 0 0 (s.filter fun c => c ≠ 45 && c ≠ 95) else none

/-! ## Integers -/

/-- `int.from_bytes(b, "big")`. -/
def intFromBytes (b : Bytes) : Nat := b.foldl (fun a x => 256 * a + x.toNat) 0

/-- `n.to_bytes((n.bit_length() + 7) // 8, "big")`. -/
def intToBytes (n : Nat) : Bytes := ((Nat.digits 256 n).reverse).map UInt8.ofNat

/-- `n.to_bytes(len, "big")` for an `n` that fits. -/
def intToFixed (n len : Nat) : Bytes :=
  List.replicate (len - (Nat.digits 256 n).length) 0 ++ intToBytes n

/-! ## Decoding inverts encoding -/

theorem toNat_byte {n : Nat} (h : n < 256) : (UInt8.ofNat n).toNat = n :=
  UInt8.toNat_ofNat_of_lt' h

theorem utf8Step_utf8Char {c : Nat} {b : Bytes} (pass : Bool) (r : Bytes)
    (h : utf8Char c = some b) : utf8Step pass (b ++ r) = (some c, b.length) := by
  unfold utf8Char at h
  split at h
  · cases h
    have h1 : (UInt8.ofNat c).toNat = c := toNat_byte (by omega)
    simp only [List.cons_append, List.nil_append, utf8Step, h1]
    rw [if_pos (by omega)]
    rfl
  split at h
  · cases h
    have h1 : (UInt8.ofNat (0xC0 + c / 64)).toNat = 0xC0 + c / 64 :=
      toNat_byte (by omega)
    have h2 : (UInt8.ofNat (0x80 + c % 64)).toNat = 0x80 + c % 64 :=
      toNat_byte (by omega)
    have hc : isCont (UInt8.ofNat (0x80 + c % 64)) = true := by
      rw [isCont, h2, Bool.and_eq_true, decide_eq_true_eq, decide_eq_true_eq]; omega
    have hv : (0xC0 + c / 64 - 0xC0) * 64 + (0x80 + c % 64 - 0x80) = c := by omega
    simp only [List.cons_append, List.nil_append, utf8Step, utf8Step2, h1, h2, hc, hv]
    rw [if_neg (by omega), if_neg (by omega), if_pos (by omega)]
    rfl
  split at h
  · cases h
  split at h
  · cases h
    have h1 : (UInt8.ofNat (0xE0 + c / 4096)).toNat = 0xE0 + c / 4096 :=
      toNat_byte (by omega)
    have h2 : (UInt8.ofNat (0x80 + c / 64 % 64)).toNat = 0x80 + c / 64 % 64 :=
      toNat_byte (by omega)
    have h3 : (UInt8.ofNat (0x80 + c % 64)).toNat = 0x80 + c % 64 :=
      toNat_byte (by omega)
    have hb : okSecond3 pass (UInt8.ofNat (0xE0 + c / 4096)) (UInt8.ofNat (0x80 + c / 64 % 64)) =
        true := by
      simp only [okSecond3, isCont, h1, h2, Bool.and_eq_true, Bool.or_eq_true, decide_eq_true_eq,
        bne_iff_ne]
      omega
    have hc : isCont (UInt8.ofNat (0x80 + c % 64)) = true := by
      rw [isCont, h3, Bool.and_eq_true, decide_eq_true_eq, decide_eq_true_eq]; omega
    have hv : (0xE0 + c / 4096 - 0xE0) * 4096 + (0x80 + c / 64 % 64 - 0x80) * 64 +
        (0x80 + c % 64 - 0x80) = c := by omega
    simp only [List.cons_append, List.nil_append, utf8Step, utf8Step3, h1, h2, h3, hb, hc, hv]
    rw [if_neg (by omega), if_neg (by omega), if_neg (by omega), if_pos (by omega)]
    rfl
  split at h
  · cases h
    have h1 : (UInt8.ofNat (0xF0 + c / 262144)).toNat = 0xF0 + c / 262144 :=
      toNat_byte (by omega)
    have h2 : (UInt8.ofNat (0x80 + c / 4096 % 64)).toNat = 0x80 + c / 4096 % 64 :=
      toNat_byte (by omega)
    have h3 : (UInt8.ofNat (0x80 + c / 64 % 64)).toNat = 0x80 + c / 64 % 64 :=
      toNat_byte (by omega)
    have h4 : (UInt8.ofNat (0x80 + c % 64)).toNat = 0x80 + c % 64 :=
      toNat_byte (by omega)
    have hb : okSecond4 (UInt8.ofNat (0xF0 + c / 262144)) (UInt8.ofNat (0x80 + c / 4096 % 64)) =
        true := by
      simp only [okSecond4, isCont, h1, h2, Bool.and_eq_true, Bool.or_eq_true, decide_eq_true_eq,
        bne_iff_ne]
      omega
    have hc : isCont (UInt8.ofNat (0x80 + c / 64 % 64)) = true := by
      rw [isCont, h3, Bool.and_eq_true, decide_eq_true_eq, decide_eq_true_eq]; omega
    have hd : isCont (UInt8.ofNat (0x80 + c % 64)) = true := by
      rw [isCont, h4, Bool.and_eq_true, decide_eq_true_eq, decide_eq_true_eq]; omega
    have hv : (0xF0 + c / 262144 - 0xF0) * 262144 + (0x80 + c / 4096 % 64 - 0x80) * 4096 +
        (0x80 + c / 64 % 64 - 0x80) * 64 + (0x80 + c % 64 - 0x80) = c := by omega
    simp only [List.cons_append, List.nil_append, utf8Step, utf8Step4, h1, h2, h3, h4, hb, hc, hd,
      hv]
    rw [if_neg (by omega), if_neg (by omega), if_neg (by omega), if_neg (by omega),
      if_pos (by omega)]
    rfl
  · cases h

theorem utf8Char_ne_nil {c : Nat} {b : Bytes} (h : utf8Char c = some b) : b ≠ [] := by
  unfold utf8Char at h
  repeat' split at h
  all_goals cases h
  all_goals simp

theorem decodeUtf8Go_skip (pass : Bool) (b r : Bytes) :
    decodeUtf8Go pass b.length (b ++ r) = decodeUtf8Go pass 0 r := by
  induction b with
  | nil => rfl
  | cons a b ih => exact ih

theorem decodeUtf8_encodeUtf8 (pass : Bool) {s : Str} {b : Bytes} (h : encodeUtf8 s = some b) :
    decodeUtf8 pass b = some s := by
  induction s generalizing b with
  | nil => cases h; rfl
  | cons c s ih =>
    simp only [encodeUtf8] at h
    split at h
    · rename_i hd r hc hr
      cases h
      obtain ⟨a, t, rfl⟩ := List.exists_cons_of_ne_nil (utf8Char_ne_nil hc)
      have hstep := utf8Step_utf8Char pass r hc
      have hskip := decodeUtf8Go_skip pass t r
      simp only [decodeUtf8, List.cons_append, decodeUtf8Go] at hstep ⊢
      rw [hstep]
      simp only [List.length_cons, Nat.add_sub_cancel]
      rw [hskip]
      have := ih hr
      rw [decodeUtf8] at this
      rw [this]
      rfl
    · cases h

theorem encodeUtf8_inj {s t : Str} {b : Bytes} (hs : encodeUtf8 s = some b)
    (ht : encodeUtf8 t = some b) : s = t := by
  have h := decodeUtf8_encodeUtf8 false hs
  rw [decodeUtf8_encodeUtf8 false ht] at h
  exact (Option.some.inj h).symm

/-! ### Base64 -/

theorem b64Val_b64Char {n : Nat} (h : n < 64) : b64Val (b64Char n) = some n := by
  have : ∀ n < 64, b64Val (b64Char n) = some n := by decide
  exact this n h

theorem b64Char_ne_pad {n : Nat} (h : n < 64) : b64Char n ≠ 61 := by
  have : ∀ n < 64, b64Char n ≠ 61 := by decide
  exact this n h

theorem b64Char_lt {n : Nat} (h : n < 64) : b64Char n < 128 := by
  have : ∀ n < 64, b64Char n < 128 := by decide
  exact this n h

section Group

variable {n : Nat} (h : n < 64) (left pads : Nat) (t : Str)
include h

theorem a2bBase64_first : a2bBase64 0 left pads (b64Char n :: t) = a2bBase64 1 n 0 t := by
  simp only [a2bBase64, if_neg (b64Char_ne_pad h), b64Val_b64Char h]

theorem a2bBase64_second : a2bBase64 1 left pads (b64Char n :: t) =
    (a2bBase64 2 (n % 16) 0 t).map (UInt8.ofNat (left * 4 + n / 16) :: ·) := by
  simp only [a2bBase64, if_neg (b64Char_ne_pad h), b64Val_b64Char h]

theorem a2bBase64_third : a2bBase64 2 left pads (b64Char n :: t) =
    (a2bBase64 3 (n % 4) 0 t).map (UInt8.ofNat (left * 16 + n / 4) :: ·) := by
  simp only [a2bBase64, if_neg (b64Char_ne_pad h), b64Val_b64Char h]

theorem a2bBase64_fourth : a2bBase64 3 left pads (b64Char n :: t) =
    (a2bBase64 0 0 0 t).map (UInt8.ofNat (left * 64 + n) :: ·) := by
  simp only [a2bBase64, if_neg (b64Char_ne_pad h), b64Val_b64Char h]

end Group

theorem ofNat_toNat_of_eq {n : Nat} {a : UInt8} (h : n = a.toNat) : UInt8.ofNat n = a := by
  rw [h, UInt8.ofNat_toNat]

theorem length_b64urlEncode_group (a b c : UInt8) (t : Bytes) :
    (b64urlEncode (a :: b :: c :: t)).length = (b64urlEncode t).length + 4 := by
  simp [b64urlEncode]

theorem length_b64urlEncode_le (b : Bytes) : (b64urlEncode b).length ≤ 2 * b.length := by
  induction b using b64urlEncode.induct with
  | case1 => simp [b64urlEncode]
  | case2 a => simp [b64urlEncode]
  | case3 a b => simp [b64urlEncode]
  | case4 a b c t ih =>
    rw [length_b64urlEncode_group]
    simp only [List.length_cons]
    omega

theorem a2bBase64_b64urlEncode (b : Bytes) :
    a2bBase64 0 0 0 (b64urlEncode b ++
      List.replicate ((4 - (b64urlEncode b).length % 4) % 4) 61) = some b := by
  induction b using b64urlEncode.induct with
  | case1 => simp [b64urlEncode, a2bBase64]
  | case2 a =>
    have ha := a.toNat_lt
    have hlast : UInt8.ofNat (a.toNat / 4 * 4 + a.toNat % 4 * 16 / 16) = a :=
      ofNat_toNat_of_eq (by omega)
    simp only [b64urlEncode, List.cons_append, List.nil_append]
    rw [a2bBase64_first (by omega), a2bBase64_second (by omega), hlast]
    rfl
  | case3 a b =>
    have ha := a.toNat_lt
    have hb := b.toNat_lt
    have h₁ : UInt8.ofNat (a.toNat / 4 * 4 + (a.toNat % 4 * 16 + b.toNat / 16) / 16) = a :=
      ofNat_toNat_of_eq (by omega)
    have h₂ : UInt8.ofNat ((a.toNat % 4 * 16 + b.toNat / 16) % 16 * 16 + b.toNat % 16 * 4 / 4) = b :=
      ofNat_toNat_of_eq (by omega)
    simp only [b64urlEncode, List.cons_append, List.nil_append]
    rw [a2bBase64_first (by omega), a2bBase64_second (by omega), a2bBase64_third (by omega), h₁, h₂]
    rfl
  | case4 a b c t ih =>
    have ha := a.toNat_lt
    have hb := b.toNat_lt
    have hc := c.toNat_lt
    have h₁ : UInt8.ofNat (a.toNat / 4 * 4 + (a.toNat % 4 * 16 + b.toNat / 16) / 16) = a :=
      ofNat_toNat_of_eq (by omega)
    have h₂ : UInt8.ofNat ((a.toNat % 4 * 16 + b.toNat / 16) % 16 * 16 +
        (b.toNat % 16 * 4 + c.toNat / 64) / 4) = b := ofNat_toNat_of_eq (by omega)
    have h₃ : UInt8.ofNat ((b.toNat % 16 * 4 + c.toNat / 64) % 4 * 64 + c.toNat % 64) = c :=
      ofNat_toNat_of_eq (by omega)
    have hpad : (4 - (b64urlEncode (a :: b :: c :: t)).length % 4) % 4 =
        (4 - (b64urlEncode t).length % 4) % 4 := by
      rw [length_b64urlEncode_group]
      omega
    rw [hpad]
    simp only [b64urlEncode, List.cons_append]
    rw [a2bBase64_first (by omega), a2bBase64_second (by omega), a2bBase64_third (by omega),
      a2bBase64_fourth (by omega), ih, h₁, h₂, h₃]
    rfl

theorem lt_of_mem_b64urlEncode {b : Bytes} {c : Nat} (h : c ∈ b64urlEncode b) :
    ∃ n, n < 64 ∧ c = b64Char n := by
  induction b using b64urlEncode.induct with
  | case1 => cases h
  | case2 a =>
    have ha := a.toNat_lt
    simp only [b64urlEncode, List.mem_cons, List.not_mem_nil, or_false] at h
    rcases h with rfl | rfl
    · exact ⟨_, by omega, rfl⟩
    · exact ⟨_, by omega, rfl⟩
  | case3 a b =>
    have ha := a.toNat_lt
    have hb := b.toNat_lt
    simp only [b64urlEncode, List.mem_cons, List.not_mem_nil, or_false] at h
    rcases h with rfl | rfl | rfl
    · exact ⟨_, by omega, rfl⟩
    · exact ⟨_, by omega, rfl⟩
    · exact ⟨_, by omega, rfl⟩
  | case4 a b c t ih =>
    have ha := a.toNat_lt
    have hb := b.toNat_lt
    have hc := c.toNat_lt
    simp only [b64urlEncode, List.mem_cons] at h
    rcases h with rfl | rfl | rfl | rfl | h
    · exact ⟨_, by omega, rfl⟩
    · exact ⟨_, by omega, rfl⟩
    · exact ⟨_, by omega, rfl⟩
    · exact ⟨_, by omega, rfl⟩
    · exact ih h

/-- `_b64url_decode(_b64url_encode(b)) == b`. -/
theorem b64urlDecodePadded_b64urlEncode (b : Bytes) :
    b64urlDecodePadded (b64urlEncode b) = some b := by
  have hascii : (b64urlEncode b ++
      List.replicate ((4 - (b64urlEncode b).length % 4) % 4) 61).isAscii = true := by
    rw [Str.isAscii, List.all_append, Bool.and_eq_true]
    constructor
    · rw [List.all_eq_true]
      intro c hc
      obtain ⟨n, hn, rfl⟩ := lt_of_mem_b64urlEncode hc
      exact decide_eq_true (b64Char_lt hn)
    · rw [List.all_eq_true]
      intro c hc
      rw [List.eq_of_mem_replicate hc]
      rfl
  rw [b64urlDecodePadded, urlsafeB64Decode, if_pos hascii, a2bBase64_b64urlEncode]

theorem b64urlEncode_injective : Function.Injective b64urlEncode := by
  intro a b h
  have := b64urlDecodePadded_b64urlEncode b
  rw [← h, b64urlDecodePadded_b64urlEncode] at this
  exact Option.some.inj this

theorem encodeAscii_inj {s t : Str} {b : Bytes} (hs : encodeAscii s = some b)
    (ht : encodeAscii t = some b) : s = t := by
  unfold encodeAscii at hs ht
  split at hs
  · rename_i has
    split at ht
    · rename_i hat
      cases hs
      have hmap : t.map UInt8.ofNat = s.map UInt8.ofNat := Option.some.inj ht
      have hback : ∀ u : Str, u.isAscii = true → (u.map UInt8.ofNat).map UInt8.toNat = u := by
        intro u hu
        rw [List.map_map]
        conv_rhs => rw [← List.map_id u]
        apply List.map_congr_left
        intro c hc
        have hlt : c < 128 := of_decide_eq_true (List.all_eq_true.mp hu c hc)
        exact toNat_byte (by omega)
      rw [← hback s has, ← hmap, hback t hat]
    · cases ht
  · cases hs

end Python.Codec
