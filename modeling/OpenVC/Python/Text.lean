import Mathlib.Data.List.DropRight

/-!
# Python's `str` and `bytes`

A `str` is the list of its code points. `json.loads` and the interpreter itself hand out lone
UTF-16 surrogates, which Lean's `Char` excludes, so a code point is a natural number here; the
operations below are the `str` methods the library calls, with the documented behaviour of each.
-/

namespace Python

/-- A Python `str`: its code points, lone surrogates included. -/
abbrev Str := List Nat

instance : LawfulBEq Str := inferInstance

/-- A Python `bytes` object. -/
abbrev Bytes := List UInt8

/-- The code points of UTF-8. -/
def codePoints : List UInt8 → Str
  | [] => []
  | a :: t =>
    if a.toNat < 0x80 then a.toNat :: codePoints t
    else match t with
      | [] => []
      | b :: t =>
        if a.toNat < 0xe0 then (a.toNat % 0x20 * 64 + b.toNat % 64) :: codePoints t
        else match t with
          | [] => []
          | c :: t =>
            if a.toNat < 0xf0 then
              ((a.toNat % 0x10 * 64 + b.toNat % 64) * 64 + c.toNat % 64) :: codePoints t
            else match t with
              | [] => []
              | d :: t =>
                (((a.toNat % 8 * 64 + b.toNat % 64) * 64 + c.toNat % 64) * 64 + d.toNat % 64) ::
                  codePoints t

/-- The `str` of a literal. It is read off the literal's bytes, which are what an evaluation has at
hand. -/
def lit (s : String) : Str := codePoints s.toByteArray.data.toList

instance : Coe String Str := ⟨lit⟩

theorem codePoints_utf8EncodeChar (c : Char) (t : List UInt8) :
    codePoints (String.utf8EncodeChar c ++ t) = c.toNat :: codePoints t := by
  have hlt : c.val.toNat < 0x110000 := by
    have hvalid := c.valid
    simp only [UInt32.isValidChar, Nat.isValidChar] at hvalid
    omega
  change codePoints (String.utf8EncodeChar c ++ t) = c.val.toNat :: codePoints t
  simp only [String.utf8EncodeChar]
  generalize c.val.toNat = v at hlt ⊢
  have hbyte : ∀ n < 256, (UInt8.ofNat n).toNat = n := fun n hn => Nat.mod_eq_of_lt hn
  split
  · rw [List.singleton_append, codePoints.eq_def]
    dsimp only
    rw [hbyte v (by omega), if_pos (by omega)]
  · split
    · rw [List.cons_append, List.singleton_append, codePoints.eq_def]
      dsimp only
      rw [hbyte _ (by omega), hbyte _ (by omega), if_neg (by omega), if_pos (by omega)]
      congr 1
      omega
    · split
      · rw [List.cons_append, List.cons_append, List.singleton_append, codePoints.eq_def]
        dsimp only
        rw [hbyte _ (by omega), hbyte _ (by omega), hbyte _ (by omega), if_neg (by omega),
          if_neg (by omega), if_pos (by omega)]
        congr 1
        omega
      · rw [List.cons_append, List.cons_append, List.cons_append, List.singleton_append,
          codePoints.eq_def]
        dsimp only
        rw [hbyte _ (by omega), hbyte _ (by omega), hbyte _ (by omega), hbyte _ (by omega),
          if_neg (by omega), if_neg (by omega), if_neg (by omega)]
        congr 1
        omega

theorem lit_eq (s : String) : lit s = s.toList.map Char.toNat := by
  have hbytes : s.toByteArray.data.toList = s.toList.flatMap String.utf8EncodeChar := by
    rw [← String.utf8Encode_toList, List.utf8Encode, List.toList_data_toByteArray]
  rw [lit, hbytes]
  induction s.toList with
  | nil => rfl
  | cons c cs ih => rw [List.flatMap_cons, codePoints_utf8EncodeChar, ih, List.map_cons]

theorem lit_ofList (cs : List Char) : lit (String.ofList cs) = cs.map Char.toNat := by
  rw [lit_eq, String.toList_ofList]

namespace Str

/-- `s.startswith(p)`. -/
def startsWith (s p : Str) : Bool := p.isPrefixOf s

/-- `s.endswith(p)`. -/
def endsWith (s p : Str) : Bool := p.isSuffixOf s

/-- `s.partition(c)` for a one-character separator: the text before the first `c`, whether `c`
occurs, and the text after it. -/
def partition (c : Nat) (s : Str) : Str × Bool × Str :=
  (s.takeWhile (· != c), s.contains c, (s.dropWhile (· != c)).drop 1)

/-- `s.split(c)` for a one-character separator. -/
def split (c : Nat) (s : Str) : List Str := s.splitOn c

/-- `s.split(c, 1)[0]`. -/
def beforeFirst (c : Nat) (s : Str) : Str := s.takeWhile (· != c)

/-- `s.isascii()`. -/
def isAscii (s : Str) : Bool := s.all (· < 128)

/-- An ASCII digit. -/
def isDigit (c : Nat) : Bool := 48 ≤ c && c ≤ 57

/-- The characters `str.isspace` accepts, which are those `str.strip()` removes. -/
def isSpace (c : Nat) : Bool :=
  (9 ≤ c && c ≤ 13) || (28 ≤ c && c ≤ 32) || c == 0x85 || c == 0xA0 || c == 0x1680 ||
  (0x2000 ≤ c && c ≤ 0x200A) || c == 0x2028 || c == 0x2029 || c == 0x202F || c == 0x205F ||
  c == 0x3000

/-- `s.strip()`. -/
def strip (s : Str) : Str := (s.dropWhile isSpace).rdropWhile isSpace

/-- The one-character line boundaries of `str.splitlines`. -/
def isLineBreak (c : Nat) : Bool :=
  (10 ≤ c && c ≤ 13) || (28 ≤ c && c ≤ 30) || c == 0x85 || c == 0x2028 || c == 0x2029

/-- `splitlines` with the characters of the current line in `cur`, last one first. -/
def splitlinesGo (cur : Str) : Str → List Str
  | [] => if cur.isEmpty then [] else [cur.reverse]
  | 13 :: 10 :: t => cur.reverse :: splitlinesGo [] t
  | c :: t => if isLineBreak c then cur.reverse :: splitlinesGo [] t else splitlinesGo (c :: cur) t

/-- `s.splitlines()`. -/
def splitlines (s : Str) : List Str := splitlinesGo [] s

/-- `replace` with `k` characters of the last match still to skip. -/
def replaceGo (old new : Str) : Nat → Str → Str
  | _, [] => []
  | k + 1, _ :: t => replaceGo old new k t
  | 0, c :: t =>
    if old.isPrefixOf (c :: t) then new ++ replaceGo old new (old.length - 1) t
    else c :: replaceGo old new 0 t

/-- `s.replace(old, new)` for a non-empty `old`: leftmost, non-overlapping occurrences. -/
def replace (s old new : Str) : Str := replaceGo old new 0 s

/-- Lower-casing of the ASCII letters; what `str.lower` does to an ASCII string. -/
def asciiLower (s : Str) : Str := s.map fun c => if 65 ≤ c && c ≤ 90 then c + 32 else c

/-- `str(n)` for a natural number. -/
def ofNat (n : Nat) : Str := (Nat.toDigits 10 n).map Char.toNat

/-- `str(n)` for an integer. -/
def ofInt : Int → Str
  | .ofNat n => ofNat n
  | .negSucc n => 45 :: ofNat (n + 1)

/-- The number a string of ASCII digits denotes. -/
def toNat (s : Str) : Nat := s.foldl (fun a c => 10 * a + (c - 48)) 0

/-! ## Cutting at a separator -/

theorem partition_eq {c : Nat} {s : Str} (h : s.contains c = true) :
    s = (partition c s).1 ++ c :: (partition c s).2.2 := by
  simp only [partition]
  have hne : s.dropWhile (· != c) ≠ [] := by
    intro e
    rw [List.dropWhile_eq_nil_iff] at e
    have := e c (by simpa using h)
    simp at this
  have hhead : (s.dropWhile (· != c)).head hne = c := by
    have := List.head_dropWhile_not (p := (· != c)) (l := s) hne
    simpa using this
  conv_lhs => rw [← List.takeWhile_append_dropWhile (p := (· != c)) (l := s)]
  rw [← List.cons_head_tail hne, hhead]
  simp

theorem partition_append {c : Nat} {s t : Str} (h : c ∉ s) :
    partition c (s ++ c :: t) = (s, true, t) := by
  have hs : ∀ x ∈ s, (x != c) = true := by
    intro x hx
    rw [bne_iff_ne]
    exact fun e => h (e ▸ hx)
  simp only [partition]
  rw [List.takeWhile_append_of_pos hs, List.dropWhile_append_of_pos hs]
  simp

theorem partition_of_not_mem {c : Nat} {s : Str} (h : c ∉ s) : partition c s = (s, false, []) := by
  have hs : ∀ x ∈ s, (x != c) = true := by
    intro x hx
    rw [bne_iff_ne]
    exact fun e => h (e ▸ hx)
  rw [partition, List.takeWhile_eq_self_iff.mpr hs, List.dropWhile_eq_nil_iff.mpr hs]
  simp [h]

/-! ## The decimal numeral -/

theorem ofNat_injective : Function.Injective ofNat := by
  intro m n h
  have hd : Nat.toDigits 10 m = Nat.toDigits 10 n :=
    List.map_injective_iff.mpr (fun _ _ e => Char.toNat_inj.mp e) h
  rw [← Nat.ofDigitChars_toDigits (n := m) (by omega) (Nat.le_refl 10), hd,
    Nat.ofDigitChars_toDigits (by omega) (Nat.le_refl 10)]

theorem isDigit_of_mem_ofNat {n c : Nat} (h : c ∈ ofNat n) : isDigit c = true := by
  obtain ⟨d, hd, rfl⟩ := List.mem_map.mp h
  have := Nat.isDigit_of_mem_toDigits (by omega) (Nat.le_refl 10) hd
  simpa [isDigit, Char.isDigit, UInt32.le_iff_toNat_le] using this

end Str

end Python

/-!
## Splitting a text at a separator
-/

namespace Python.Str

theorem not_mem_of_mem_split {c : Nat} {s p : Str} (h : p ∈ split c s) : c ∉ p := by
  induction s generalizing p with
  | nil =>
    rw [split, List.splitOn_nil, List.mem_singleton] at h
    rw [h]
    exact List.not_mem_nil
  | cons x s ih =>
    rw [split, List.splitOn_cons_eq_if_modifyHead] at h
    split at h
    · rcases List.mem_cons.mp h with rfl | h
      · exact List.not_mem_nil
      · exact ih h
    · rename_i hx
      cases hs : List.splitOn c s with
      | nil =>
        rw [hs] at h
        cases h
      | cons q qs =>
        rw [hs, List.modifyHead_cons] at h
        rcases List.mem_cons.mp h with rfl | h
        · intro hm
          rcases List.mem_cons.mp hm with rfl | hm
          · simp at hx
          · exact ih (p := q) (by rw [split, hs]; exact List.mem_cons_self) hm
        · exact ih (by rw [split, hs]; exact List.mem_cons_of_mem _ h)

theorem split_flatMap_append {c : Nat} {l : List Str} {t : Str} (h : ∀ p ∈ l, c ∉ p) (ht : c ∉ t) :
    split c (l.flatMap (· ++ [c]) ++ t) = l ++ [t] := by
  induction l with
  | nil => exact List.splitOn_eq_singleton ht
  | cons p l ih =>
    have hp : c ∉ p := h p List.mem_cons_self
    have hrest := ih fun q hq => h q (List.mem_cons_of_mem _ hq)
    rw [split] at hrest
    rw [split, List.flatMap_cons, List.append_assoc, List.append_assoc, List.singleton_append,
      List.splitOn_append_cons_self_of_not_mem hp, hrest]
    rfl

theorem split_flatMap {c : Nat} {l : List Str} (h : ∀ p ∈ l, c ∉ p) :
    split c (l.flatMap (· ++ [c])) = l ++ [[]] := by
  have := split_flatMap_append (t := []) h List.not_mem_nil
  rwa [List.append_nil] at this

theorem split_append_cons {c : Nat} {t : Str} (ht : c ∉ t) (s : Str) :
    split c (s ++ c :: t) = split c s ++ [t] := by
  induction s with
  | nil =>
    rw [List.nil_append, split, split, List.splitOn_cons_eq_if_modifyHead,
      if_pos (beq_self_eq_true c), List.splitOn_eq_singleton ht, List.splitOn_nil]
    rfl
  | cons x s ih =>
    rw [split] at ih
    rw [List.cons_append, split, split, List.splitOn_cons_eq_if_modifyHead,
      List.splitOn_cons_eq_if_modifyHead, ih, split]
    split
    · rfl
    · cases hs : List.splitOn c s with
      | nil => exact absurd hs (List.splitOn_ne_nil c s)
      | cons p ps => rfl

end Python.Str
