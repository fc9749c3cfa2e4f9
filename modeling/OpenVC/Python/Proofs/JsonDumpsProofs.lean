import OpenVC.Python.Proofs.JsonNumberProofs

/-!
# `json.loads` after `json.dumps`

A document that was written is read back as it was, but for two adjacent code points of a string that
are a surrogate pair: their escapes are read as the one character they encode. `reread` says so for
every value, and is the identity on the values without such a pair.
-/

namespace Python.JsonDumps

open JsonLoads Str

/-! ## Strings -/

/-- A high surrogate. -/
def isHigh (c : Nat) : Bool := 0xD800 ≤ c && c ≤ 0xDBFF

/-- A low surrogate. -/
def isLow (c : Nat) : Bool := 0xDC00 ≤ c && c ≤ 0xDFFF

/-- The character of a surrogate pair. -/
def joinPair (u w : Nat) : Nat := 0x10000 + ((u - 0xD800) * 1024 + (w - 0xDC00))

theorem hexVal_hexDigit {n : Nat} (h : n < 16) : hexVal (hexDigit n) = some n := by
  have : ∀ k < 16, hexVal (hexDigit k) = some k := by decide
  exact this n h

theorem hex4_hexDigit {u : Nat} (h : u < 0x10000) :
    hex4 (hexDigit (u / 4096 % 16)) (hexDigit (u / 256 % 16)) (hexDigit (u / 16 % 16))
      (hexDigit (u % 16)) = some u := by
  have hlt : ∀ k, k % 16 < 16 := fun k => Nat.mod_lt k (by omega)
  simp only [hex4, hexVal_hexDigit (hlt _), Option.bind_eq_bind, Option.bind_some, Option.pure_def,
    Option.some.injEq]
  omega

/-- No escape of a low surrogate stands in front of a text. -/
def NoLow (t : Str) : Prop :=
  ∀ e f g h t', t = 92 :: 117 :: e :: f :: g :: h :: t' → ∃ w, hex4 e f g h = some w ∧ isLow w = false

theorem scanString_unit {u : Nat} {t : Str} (hu : u < 0x10000) (h : isHigh u = false ∨ NoLow t) :
    scanString (escapeUnit u ++ t) = push u (scanString t) := by
  simp only [escapeUnit, List.cons_append, List.nil_append]
  by_cases ht : ∃ e f g h t', t = 92 :: 117 :: e :: f :: g :: h :: t'
  · obtain ⟨e, f, g, k, t', rfl⟩ := ht
    rw [scanString.eq_3, hex4_hexDigit hu]
    dsimp only
    split
    · rename_i hhigh
      rcases h with h | h
      · rw [isHigh, hhigh] at h
        cases h
      · obtain ⟨w, hw, hlow⟩ := h e f g k t' rfl
        rw [hw]
        dsimp only
        rw [if_neg (by rw [isLow] at hlow; rw [hlow]; simp)]
    · rfl
  · rw [scanString.eq_4 _ _ _ _ _ fun e f g k t' ht' => ht ⟨e, f, g, k, t', ht'⟩, hex4_hexDigit hu]

theorem scanString_pair {u w : Nat} {t : Str} (hu : isHigh u = true) (hw : isLow w = true) :
    scanString (escapeUnit u ++ (escapeUnit w ++ t)) = push (joinPair u w) (scanString t) := by
  have hu' : u < 0x10000 := by
    simp only [isHigh, Bool.and_eq_true, decide_eq_true_eq] at hu
    omega
  have hw' : w < 0x10000 := by
    simp only [isLow, Bool.and_eq_true, decide_eq_true_eq] at hw
    omega
  simp only [escapeUnit, List.cons_append, List.nil_append]
  rw [scanString.eq_3, hex4_hexDigit hu', hex4_hexDigit hw']
  dsimp only
  rw [isHigh] at hu
  rw [isLow] at hw
  rw [if_pos hu, if_pos hw]
  rfl

theorem scanString_short {c u : Nat} {t : Str} (hc : c ≠ 117) (h : unescape c = some u) :
    scanString (92 :: c :: t) = push u (scanString t) := by
  rw [scanString.eq_5, h]
  · intro a b c' d e f g h t' hc'
    exact absurd hc' hc
  · intro a b c' d t' hc'
    exact absurd hc' hc

theorem scanString_plain {c : Nat} {t : Str} (h34 : c ≠ 34) (h92 : c ≠ 92) (h32 : 32 ≤ c) :
    scanString (c :: t) = push c (scanString t) := by
  rw [scanString.eq_6, if_neg (by omega)]
  · exact fun e => h34 e
  · intro a b c' d e f g h t' hc'
    exact absurd hc' h92
  · intro a b c' d t' hc'
    exact absurd hc' h92
  · intro c' t' hc'
    exact absurd hc' h92

/-- How one character of a string body is written. -/
inductive Escape (c : Nat) : Prop
  | short (k : Nat) (hk : k ≠ 117) (h : unescape k = some c) (e : escapeChar c = [92, k])
  | plain (h34 : c ≠ 34) (h92 : c ≠ 92) (h32 : 32 ≤ c) (hlt : c < 127) (e : escapeChar c = [c])
  | unit (hlt : c < 0x10000) (e : escapeChar c = escapeUnit c)
  | pair (hle : 0x10000 ≤ c) (e : escapeChar c =
      escapeUnit (0xD800 + (c - 0x10000) / 1024) ++ escapeUnit (0xDC00 + (c - 0x10000) % 1024))

theorem escape_cases (c : Nat) : Escape c := by
  by_cases h1 : c = 34
  · subst h1; exact .short 34 (by omega) rfl rfl
  by_cases h2 : c = 92
  · subst h2; exact .short 92 (by omega) rfl rfl
  by_cases h3 : c = 10
  · subst h3; exact .short 110 (by omega) rfl rfl
  by_cases h4 : c = 13
  · subst h4; exact .short 114 (by omega) rfl rfl
  by_cases h5 : c = 9
  · subst h5; exact .short 116 (by omega) rfl rfl
  by_cases h6 : c = 12
  · subst h6; exact .short 102 (by omega) rfl rfl
  by_cases h7 : c = 8
  · subst h7; exact .short 98 (by omega) rfl rfl
  have he : escapeChar c = if 32 ≤ c && c ≤ 126 then [c]
      else if c < 0x10000 then escapeUnit c
      else escapeUnit (0xD800 + (c - 0x10000) / 1024) ++
        escapeUnit (0xDC00 + (c - 0x10000) % 1024) := by
    rw [escapeChar, if_neg h1, if_neg h2, if_neg h3, if_neg h4, if_neg h5, if_neg h6, if_neg h7]
  by_cases h8 : (32 ≤ c && c ≤ 126) = true
  · rw [if_pos h8] at he
    simp only [Bool.and_eq_true, decide_eq_true_eq] at h8
    exact .plain h1 h2 h8.1 (by omega) he
  rw [if_neg h8] at he
  by_cases h9 : c < 0x10000
  · rw [if_pos h9] at he
    exact .unit h9 he
  · rw [if_neg h9] at he
    exact .pair (by omega) he

theorem isHigh_pair {c : Nat} (h : c < 0x110000) :
    isHigh (0xD800 + (c - 0x10000) / 1024) = true := by
  simp only [isHigh, Bool.and_eq_true, decide_eq_true_eq]
  omega

theorem isLow_pair (c : Nat) : isLow (0xDC00 + (c - 0x10000) % 1024) = true := by
  simp only [isLow, Bool.and_eq_true, decide_eq_true_eq]
  omega

theorem noLow_quote (t : Str) : NoLow (34 :: t) := by
  intro e f g h t' ht
  cases ht

theorem noLow_unit {u : Nat} {t : Str} (hu : u < 0x10000) (h : isLow u = false) :
    NoLow (escapeUnit u ++ t) := by
  intro e f g k t' ht
  simp only [escapeUnit, List.cons_append, List.nil_append, List.cons.injEq, true_and] at ht
  obtain ⟨rfl, rfl, rfl, rfl, -⟩ := ht
  exact ⟨u, hex4_hexDigit hu, h⟩

theorem noLow_escapeChar {c : Nat} {t : Str} (hc : c < 0x110000) (h : isLow c = false) :
    NoLow (escapeChar c ++ t) := by
  rcases escape_cases c with ⟨k, hk, -, e⟩ | ⟨-, h92, -, -, e⟩ | ⟨hlt, e⟩ | ⟨hle, e⟩
  · intro a b c' d t' ht
    rw [e] at ht
    simp only [List.cons_append, List.nil_append, List.cons.injEq] at ht
    exact absurd ht.2.1 hk
  · intro a b c' d t' ht
    rw [e] at ht
    simp only [List.cons_append, List.nil_append, List.cons.injEq] at ht
    exact absurd ht.1 h92
  · rw [e]
    exact noLow_unit hlt h
  · rw [e, List.append_assoc]
    have hhigh := isHigh_pair hc
    simp only [isHigh, Bool.and_eq_true, decide_eq_true_eq] at hhigh
    refine noLow_unit (by omega) ?_
    simp only [isLow, Bool.and_eq_false_iff, decide_eq_false_iff_not]
    omega

theorem scanString_escapeChar {c : Nat} {t : Str} (hc : c < 0x110000)
    (h : isHigh c = false ∨ NoLow t) : scanString (escapeChar c ++ t) = push c (scanString t) := by
  rcases escape_cases c with ⟨k, hk, hu, e⟩ | ⟨h34, h92, h32, -, e⟩ | ⟨hlt, e⟩ | ⟨hle, e⟩
  · rw [e]
    exact scanString_short hk hu
  · rw [e]
    exact scanString_plain h34 h92 h32
  · rw [e]
    exact scanString_unit hlt h
  · have hjoin : joinPair (0xD800 + (c - 0x10000) / 1024) (0xDC00 + (c - 0x10000) % 1024) = c := by
      unfold joinPair
      omega
    rw [e, List.append_assoc, scanString_pair (isHigh_pair hc) (isLow_pair c), hjoin]

/-- The code points of the interpreter's strings. -/
def IsStr (s : Str) : Prop := ∀ c ∈ s, c < 0x110000

theorem scanString_dumpsStr {s t : Str} (hs : IsStr s) :
    scanString (s.flatMap escapeChar ++ 34 :: t) = some (joinSurrogates s, t) := by
  induction s using joinSurrogates.induct with
  | case1 => rfl
  | case2 u =>
    have hu := hs u List.mem_cons_self
    rw [List.flatMap_cons, List.flatMap_nil, List.append_nil,
      scanString_escapeChar hu (.inr (noLow_quote t)), scanString.eq_2]
    rfl
  | case3 u w l hpair ih =>
    have hl : IsStr l := fun c hc => hs c (List.mem_cons_of_mem _ (List.mem_cons_of_mem _ hc))
    have hpair' : isHigh u = true ∧ isLow w = true := by
      simpa [isHigh, isLow, and_assoc] using hpair
    have hunit : ∀ c, 0xD800 ≤ c → c < 0x10000 → escapeChar c = escapeUnit c := by
      intro c h1 h2
      rcases escape_cases c with ⟨k, -, hk, -⟩ | ⟨-, -, -, hlt, -⟩ | ⟨-, e⟩ | ⟨hle, -⟩
      · unfold unescape at hk
        split_ifs at hk <;> simp at hk <;> omega
      · omega
      · exact e
      · omega
    have hu : escapeChar u = escapeUnit u := by
      have := hpair'.1
      simp only [isHigh, Bool.and_eq_true, decide_eq_true_eq] at this
      exact hunit u (by omega) (by omega)
    have hw : escapeChar w = escapeUnit w := by
      have := hpair'.2
      simp only [isLow, Bool.and_eq_true, decide_eq_true_eq] at this
      exact hunit w (by omega) (by omega)
    have hjoin : joinSurrogates (u :: w :: l) = joinPair u w :: joinSurrogates l := by
      unfold joinPair
      rw [joinSurrogates.eq_3, if_pos hpair]
    rw [List.flatMap_cons, List.flatMap_cons, hu, hw, List.append_assoc, List.append_assoc,
      scanString_pair hpair'.1 hpair'.2, ih hl, hjoin]
    rfl
  | case4 u w l hpair ih =>
    have hu := hs u List.mem_cons_self
    have hw := hs w (List.mem_cons_of_mem _ List.mem_cons_self)
    have hl : IsStr (w :: l) := fun c hc => hs c (List.mem_cons_of_mem _ hc)
    have hcases : isHigh u = false ∨ isLow w = false := by
      by_contra hcon
      rw [not_or, Bool.not_eq_false, Bool.not_eq_false] at hcon
      apply hpair
      simpa [isHigh, isLow, and_assoc] using hcon
    have hlone : isHigh u = false ∨ NoLow ((w :: l).flatMap escapeChar ++ 34 :: t) := by
      refine hcases.imp id fun hlow => ?_
      rw [List.flatMap_cons, List.append_assoc]
      exact noLow_escapeChar hw hlow
    have hjoin : joinSurrogates (u :: w :: l) = u :: joinSurrogates (w :: l) := by
      rw [joinSurrogates.eq_3, if_neg hpair]
    rw [List.flatMap_cons, List.append_assoc, scanString_escapeChar hu hlone, ih hl, hjoin]
    rfl

/-! ## Values -/

mutual

/-- A value of the interpreter: its strings are made of code points and its floats are doubles. -/
def Representable : Json → Prop
  | .float f => IsFloat f
  | .str s => IsStr s
  | .arr l => RepresentableList l
  | .obj m => RepresentableMembers m
  | _ => True

/-- Every element is representable. -/
def RepresentableList : List Json → Prop
  | [] => True
  | v :: t => Representable v ∧ RepresentableList t

/-- Every member is representable. -/
def RepresentableMembers : List (Str × Json) → Prop
  | [] => True
  | (k, v) :: t => (IsStr k ∧ Representable v) ∧ RepresentableMembers t

end

mutual

/-- What a value is read back as. -/
def reread : Json → Json
  | .str s => .str (joinSurrogates s)
  | .arr l => .arr (rereadList l)
  | .obj m => .obj (Dict.ofPairs (rereadMembers m))
  | v => v

/-- `reread`, over a list. -/
def rereadList : List Json → List Json
  | [] => []
  | v :: t => reread v :: rereadList t

/-- `reread`, over the members of an object, a name that occurs twice still there. -/
def rereadMembers : List (Str × Json) → List (Str × Json)
  | [] => []
  | (k, v) :: t => (joinSurrogates k, reread v) :: rereadMembers t

end

theorem skipWs_of_head {c : Nat} {t : Str} (h : isWs c = false) : skipWs (c :: t) = c :: t := by
  rw [skipWs, List.dropWhile_cons_of_neg (by simp [h])]

theorem not_isWs_digit {c : Nat} (h : isDigit c = true) :
    isWs c = false ∧ c ≠ 93 ∧ c ≠ 125 ∧ c ≠ 34 ∧ c ≠ 91 ∧ c ≠ 123 := by
  have hc : 48 ≤ c ∧ c ≤ 57 := by simpa [isDigit] using h
  refine ⟨?_, by omega, by omega, by omega, by omega, by omega⟩
  simp only [isWs, Bool.or_eq_false_iff, beq_eq_false_iff_ne]
  omega

theorem ofInt_head (n : Int) : ∃ c t, ofInt n = c :: t ∧ isWs c = false ∧ c ≠ 93 ∧ c ≠ 125 ∧
    c ≠ 34 ∧ c ≠ 91 ∧ c ≠ 123 := by
  cases n with
  | ofNat n =>
    obtain ⟨hd, c, t, hc, -⟩ := intPart_ofNat n
    exact ⟨c, t, hc, not_isWs_digit (hd c (hc ▸ List.mem_cons_self))⟩
  | negSucc n => exact ⟨45, _, rfl, by decide⟩

theorem dumpsFloat_head {f : PyFloat} (h : IsFloat f) : ∃ c t, dumpsFloat f = c :: t ∧
    isWs c = false ∧ c ≠ 93 ∧ c ≠ 125 ∧ c ≠ 34 ∧ c ≠ 91 ∧ c ≠ 123 := by
  cases f with
  | nan => exact ⟨78, _, rfl, by decide⟩
  | posInf => exact ⟨73, _, rfl, by decide⟩
  | negInf => exact ⟨45, _, rfl, by decide⟩
  | fin q =>
    rw [dumpsFloat]
    split
    · exact ⟨48, _, rfl, by decide⟩
    · rename_i hq
      simp only [PyFloat.repr]
      rcases lt_or_gt_of_ne hq with hneg | hpos
      · rw [if_pos hneg, if_pos hneg]
        exact ⟨45, _, rfl, by decide⟩
      · have hnneg : ¬ q < 0 := not_lt.mpr hpos.le
        rw [if_neg hnneg, if_neg hnneg]
        obtain ⟨c, t, hc, hdig⟩ := layout_digit (PyFloat.shortest q 17).2
          (significant_shortest h hpos).1
        exact ⟨c, t, hc, not_isWs_digit hdig⟩

theorem scanValue_atom {c n : Nat} {t : Str} (h34 : c ≠ 34) (h91 : c ≠ 91) (h123 : c ≠ 123) :
    scanValue (n + 1) (c :: t) = scanAtom (c :: t) := by
  rw [scanValue]
  · intro t' e
    exact h34 (List.cons.inj e).1
  · intro t' e
    exact h91 (List.cons.inj e).1
  · intro t' e
    exact h123 (List.cons.inj e).1

theorem dumps_head {v : Json} {s : Str} (hv : Representable v) (h : dumps v = some s) :
    ∃ c t, s = c :: t ∧ isWs c = false ∧ c ≠ 93 ∧ c ≠ 125 := by
  cases v with
  | null => cases h; exact ⟨110, _, rfl, by decide⟩
  | bool b => cases b <;> cases h <;> exact ⟨_, _, rfl, by decide⟩
  | int n =>
    unfold dumps dumpsInt at h
    split at h
    · cases h
    · cases h
      obtain ⟨c, t, hc, hw, h93, h125, -⟩ := ofInt_head n
      exact ⟨c, t, hc, hw, h93, h125⟩
  | float f =>
    cases h
    obtain ⟨c, t, hc, hw, h93, h125, -⟩ := dumpsFloat_head hv
    exact ⟨c, t, hc, hw, h93, h125⟩
  | str s => cases h; exact ⟨34, _, rfl, by decide⟩
  | arr l =>
    cases l with
    | nil => cases h; exact ⟨91, _, rfl, by decide⟩
    | cons v t =>
      simp only [dumps, Option.bind_eq_bind, Option.bind_eq_some_iff, Option.pure_def,
        Option.some.injEq] at h
      obtain ⟨-, -, -, -, rfl⟩ := h
      exact ⟨91, _, rfl, by decide⟩
  | obj m =>
    cases m with
    | nil => cases h; exact ⟨123, _, rfl, by decide⟩
    | cons p t =>
      simp only [dumps, Option.bind_eq_bind, Option.bind_eq_some_iff, Option.pure_def,
        Option.some.injEq] at h
      obtain ⟨-, -, -, -, rfl⟩ := h
      exact ⟨123, _, rfl, by decide⟩

/-- A value is read back from its text, whatever fuel above its length is left. -/
def ReadsAs (s : Str) (v : Json) : Prop :=
  ∀ n r, s.length < n → Ends r → scanValue n (s ++ r) = some (v, r)

theorem readsAs_atom {s : Str} {v : Json}
    (hs : ∃ c t, s = c :: t ∧ c ≠ 34 ∧ c ≠ 91 ∧ c ≠ 123)
    (h : ∀ r, Ends r → scanAtom (s ++ r) = some (v, r)) : ReadsAs s v := by
  intro n r hn hr
  obtain ⟨c, t, rfl, h34, h91, h123⟩ := hs
  obtain ⟨m, rfl⟩ : ∃ m, n = m + 1 := ⟨n - 1, by omega⟩
  rw [List.cons_append, scanValue_atom h34 h91 h123]
  exact h r hr

/-- A string is read back from its text. -/
def StringReadsAs (q s : Str) : Prop :=
  ∃ body, q = 34 :: body ∧ ∀ t, scanString (body ++ t) = some (s, t)

theorem stringReadsAs_dumpsStr {s : Str} (hs : IsStr s) :
    StringReadsAs (dumpsStr s) (joinSurrogates s) := by
  refine ⟨_, rfl, fun t => ?_⟩
  rw [List.append_assoc, List.singleton_append]
  exact scanString_dumpsStr hs

theorem StringReadsAs.readsAs {q s : Str} (hs : StringReadsAs q s) : ReadsAs q (.str s) := by
  intro n r hn hr
  obtain ⟨m, rfl⟩ : ∃ m, n = m + 1 := ⟨n - 1, by omega⟩
  obtain ⟨body, rfl, hscan⟩ := hs
  rw [List.cons_append]
  simp only [scanValue, hscan, Option.map_some]

/-- The elements that follow `b` in an array. -/
def TailReadsAs (b : Str) (l : List Json) : Prop :=
  (∃ c t, b = c :: t ∧ (c = 44 ∨ c = 93)) ∧
  ∀ a v, (∃ c t, a = c :: t) → ReadsAs a v → ∀ n r, a.length + b.length < n →
    scanElements n (a ++ (b ++ r)) = some (v :: l, r)

theorem ends_tail {b r : Str} (h : ∃ c t, b = c :: t ∧ (c = 44 ∨ c = 93)) : Ends (b ++ r) := by
  obtain ⟨c, t, rfl, hc⟩ := h
  intro c' t' e
  obtain ⟨rfl, -⟩ := List.cons.inj e
  exact hc.imp id .inl

theorem tailReadsAs_nil : TailReadsAs [93] [] := by
  refine ⟨⟨93, [], rfl, .inr rfl⟩, fun a v _ ha n r hn => ?_⟩
  obtain ⟨m, rfl⟩ : ∃ m, n = m + 1 := ⟨n - 1, by omega⟩
  have hfirst := ha m ([93] ++ r) (by simp at hn; omega) (ends_tail ⟨93, [], rfl, .inr rfl⟩)
  rw [scanElements, hfirst]
  rfl

theorem tailReadsAs_cons {first rest : Str} {w : Json} {l : List Json}
    (hhead : ∃ c t, first = c :: t ∧ isWs c = false) (hw : ReadsAs first w)
    (hl : TailReadsAs rest l) : TailReadsAs (44 :: (first ++ rest)) (w :: l) := by
  refine ⟨⟨44, _, rfl, .inl rfl⟩, fun a v _ ha n r hn => ?_⟩
  obtain ⟨m, rfl⟩ : ∃ m, n = m + 1 := ⟨n - 1, by omega⟩
  simp only [List.length_cons, List.length_append] at hn
  have hfirst := ha m (44 :: (first ++ rest) ++ r) (by omega) (ends_tail ⟨44, _, rfl, .inl rfl⟩)
  obtain ⟨c, t, hc, hws⟩ := hhead
  have hnext := hl.2 first w ⟨c, t, hc⟩ hw m r (by omega)
  have hskip : skipWs (first ++ (rest ++ r)) = first ++ (rest ++ r) := by
    rw [hc, List.cons_append, skipWs_of_head hws]
  rw [scanElements, hfirst]
  simp only [List.cons_append, skipWs_of_head (show isWs 44 = false from rfl), List.append_assoc,
    hskip, hnext, Option.map_some]

/-- The members that follow `b` in an object. -/
def MembersReadAs (b : Str) (l : List (Str × Json)) : Prop :=
  (∃ c t, b = c :: t ∧ (c = 44 ∨ c = 125)) ∧
  ∀ q k a v, StringReadsAs q k → (∃ c t, a = c :: t ∧ isWs c = false) → ReadsAs a v → ∀ n r,
    a.length + b.length < n →
    scanMembers n (q ++ 58 :: (a ++ (b ++ r))) = some ((k, v) :: l, r)

theorem ends_memberTail {b r : Str} (h : ∃ c t, b = c :: t ∧ (c = 44 ∨ c = 125)) :
    Ends (b ++ r) := by
  obtain ⟨c, t, rfl, hc⟩ := h
  intro c' t' e
  obtain ⟨rfl, -⟩ := List.cons.inj e
  exact hc.imp id .inr

/-- The name and the value of a member, up to what follows the value. -/
theorem scanMembers_eq {q k a b : Str} {v : Json} {n : Nat} {r : Str} (hk : StringReadsAs q k)
    (hhead : ∃ c t, a = c :: t ∧ isWs c = false) (ha : ReadsAs a v) (hn : a.length < n)
    (hr : Ends (b ++ r)) :
    scanMembers (n + 1) (q ++ 58 :: (a ++ (b ++ r))) =
      match skipWs (b ++ r) with
      | 125 :: r => some ([(k, v)], r)
      | 44 :: r => (scanMembers n (skipWs r)).map fun p => ((k, v) :: p.1, p.2)
      | _ => none := by
  obtain ⟨c, t, hc, hws⟩ := hhead
  have hskip : skipWs (a ++ (b ++ r)) = a ++ (b ++ r) := by
    rw [hc, List.cons_append, skipWs_of_head hws]
  obtain ⟨body, rfl, hscan⟩ := hk
  have hname := hscan (58 :: (a ++ (b ++ r)))
  have hcolon : skipWs (58 :: (a ++ (b ++ r))) = 58 :: (a ++ (b ++ r)) := skipWs_of_head rfl
  have hvalue := ha n (b ++ r) hn hr
  rw [List.cons_append, scanMembers, hname]
  simp only [hcolon, hskip, hvalue]
  try rfl

theorem membersReadAs_nil : MembersReadAs [125] [] := by
  refine ⟨⟨125, [], rfl, .inr rfl⟩, fun q k a v hk hhead ha n r hn => ?_⟩
  obtain ⟨m, rfl⟩ : ∃ m, n = m + 1 := ⟨n - 1, by omega⟩
  have hm : a.length < m := by simp at hn; omega
  rw [scanMembers_eq hk hhead ha hm (ends_memberTail ⟨125, [], rfl, .inr rfl⟩)]
  rfl

theorem membersReadAs_cons {q' k' first rest : Str} {w : Json} {l : List (Str × Json)}
    (hk' : StringReadsAs q' k') (hhead : ∃ c t, first = c :: t ∧ isWs c = false)
    (hw : ReadsAs first w) (hl : MembersReadAs rest l) :
    MembersReadAs (44 :: (q' ++ 58 :: (first ++ rest))) ((k', w) :: l) := by
  refine ⟨⟨44, _, rfl, .inl rfl⟩, fun q k a v hk hhead' ha n r hn => ?_⟩
  obtain ⟨m, rfl⟩ : ∃ m, n = m + 1 := ⟨n - 1, by omega⟩
  simp only [List.length_cons, List.length_append] at hn
  have hnext := hl.2 q' k' first w hk' hhead hw m r (by omega)
  have hskip : skipWs (q' ++ 58 :: (first ++ (rest ++ r))) = q' ++ 58 :: (first ++ (rest ++ r)) := by
    obtain ⟨body, rfl, -⟩ := hk'
    rw [List.cons_append, skipWs_of_head rfl]
  rw [scanMembers_eq hk hhead' ha (by omega) (ends_memberTail ⟨44, _, rfl, .inl rfl⟩)]
  simp only [List.cons_append, skipWs_of_head (show isWs 44 = false from rfl), List.append_assoc,
    hskip, hnext, Option.map_some]

theorem readsAs_arr {first rest : Str} {v : Json} {l : List Json}
    (hhead : ∃ c t, first = c :: t ∧ isWs c = false ∧ c ≠ 93) (hv : ReadsAs first v)
    (hl : TailReadsAs rest l) : ReadsAs (91 :: (first ++ rest)) (.arr (v :: l)) := by
  intro n r hn hr
  obtain ⟨m, rfl⟩ : ∃ m, n = m + 1 := ⟨n - 1, by omega⟩
  simp only [List.length_cons, List.length_append] at hn
  obtain ⟨c, t, hc, hws, h93⟩ := hhead
  have hscan := hl.2 first v ⟨c, t, hc⟩ hv m r (by omega)
  have hskip : skipWs (first ++ (rest ++ r)) = c :: (t ++ (rest ++ r)) := by
    rw [hc, List.cons_append, skipWs_of_head hws]
  rw [hc, List.cons_append] at hscan
  rw [List.cons_append, List.append_assoc, scanValue, hskip]
  split
  · rename_i heq
    exact absurd (List.cons.inj heq).1 h93
  · rw [hscan]
    rfl

theorem readsAs_obj {q k first rest : Str} {v : Json} {l : List (Str × Json)}
    (hk : StringReadsAs q k) (hhead : ∃ c t, first = c :: t ∧ isWs c = false)
    (hv : ReadsAs first v) (hl : MembersReadAs rest l) :
    ReadsAs (123 :: (q ++ 58 :: (first ++ rest))) (.obj (Dict.ofPairs ((k, v) :: l))) := by
  intro n r hn hr
  obtain ⟨m, rfl⟩ : ∃ m, n = m + 1 := ⟨n - 1, by omega⟩
  simp only [List.length_cons, List.length_append] at hn
  have hscan := hl.2 q k first v hk hhead hv m r (by omega)
  obtain ⟨body, rfl, -⟩ := hk
  have hskip : skipWs (34 :: body ++ 58 :: (first ++ (rest ++ r))) =
      34 :: body ++ 58 :: (first ++ (rest ++ r)) := by
    rw [List.cons_append, skipWs_of_head rfl]
  have happ : 34 :: body ++ 58 :: (first ++ rest) ++ r = 34 :: body ++ 58 :: (first ++ (rest ++ r)) := by
    simp
  rw [List.cons_append, happ, scanValue, hskip]
  split
  · rename_i heq
    cases heq
  · rw [hscan]
    rfl

mutual

theorem readsAs_dumps : ∀ {v : Json} {s : Str}, Representable v → dumps v = some s →
    ReadsAs s (reread v)
  | .null, _, _, h => by
    cases h
    exact readsAs_atom ⟨110, _, rfl, by decide⟩ fun r _ => rfl
  | .bool true, _, _, h => by
    cases h
    exact readsAs_atom ⟨116, _, rfl, by decide⟩ fun r _ => rfl
  | .bool false, _, _, h => by
    cases h
    exact readsAs_atom ⟨102, _, rfl, by decide⟩ fun r _ => rfl
  | .int n, s, _, h => by
    have hs : s = ofInt n := by
      unfold dumps dumpsInt at h
      split at h
      · cases h
      · exact (Option.some.inj h).symm
    obtain ⟨c, t, hc, -, -, -, h34, h91, h123⟩ := ofInt_head n
    exact readsAs_atom ⟨c, t, hs.trans hc, h34, h91, h123⟩ fun r hr => scanAtom_dumpsInt h hr
  | .float f, _, hv, h => by
    cases h
    obtain ⟨c, t, hc, -, -, -, h34, h91, h123⟩ := dumpsFloat_head hv
    exact readsAs_atom ⟨c, t, hc, h34, h91, h123⟩ fun r hr => scanAtom_dumpsFloat hv hr
  | .str s, _, hv, h => by
    cases h
    exact (stringReadsAs_dumpsStr hv).readsAs
  | .arr [], _, _, h => by
    cases h
    intro n r hn hr
    obtain ⟨m, rfl⟩ : ∃ m, n = m + 1 := ⟨n - 1, by omega⟩
    rfl
  | .arr (v :: t), _, hv, h => by
    simp only [dumps, Option.bind_eq_bind, Option.bind_eq_some_iff, Option.pure_def,
      Option.some.injEq] at h
    obtain ⟨first, hfirst, rest, hrest, rfl⟩ := h
    obtain ⟨c, t', hc, hws, h93, -⟩ := dumps_head hv.1 hfirst
    exact readsAs_arr ⟨c, t', hc, hws, h93⟩ (readsAs_dumps hv.1 hfirst)
      (tailReadsAs_dumps hv.2 hrest)
  | .obj [], _, _, h => by
    cases h
    intro n r hn hr
    obtain ⟨m, rfl⟩ : ∃ m, n = m + 1 := ⟨n - 1, by omega⟩
    rfl
  | .obj ((k, v) :: t), _, hv, h => by
    simp only [dumps, Option.bind_eq_bind, Option.bind_eq_some_iff, Option.pure_def,
      Option.some.injEq] at h
    obtain ⟨first, hfirst, rest, hrest, rfl⟩ := h
    obtain ⟨c, t', hc, hws, -⟩ := dumps_head hv.1.2 hfirst
    exact readsAs_obj (stringReadsAs_dumpsStr hv.1.1) ⟨c, t', hc, hws⟩ (readsAs_dumps hv.1.2 hfirst)
      (membersReadAs_dumps hv.2 hrest)

theorem tailReadsAs_dumps : ∀ {l : List Json} {b : Str}, RepresentableList l →
    dumpsElements l = some b → TailReadsAs b (rereadList l)
  | [], _, _, h => by
    cases h
    exact tailReadsAs_nil
  | v :: t, _, hl, h => by
    simp only [dumpsElements, Option.bind_eq_bind, Option.bind_eq_some_iff, Option.pure_def,
      Option.some.injEq] at h
    obtain ⟨first, hfirst, rest, hrest, rfl⟩ := h
    obtain ⟨c, t', hc, hws, -⟩ := dumps_head hl.1 hfirst
    exact tailReadsAs_cons ⟨c, t', hc, hws⟩ (readsAs_dumps hl.1 hfirst)
      (tailReadsAs_dumps hl.2 hrest)

theorem membersReadAs_dumps : ∀ {m : List (Str × Json)} {b : Str}, RepresentableMembers m →
    dumpsMembers m = some b → MembersReadAs b (rereadMembers m)
  | [], _, _, h => by
    cases h
    exact membersReadAs_nil
  | (k, v) :: t, _, hm, h => by
    simp only [dumpsMembers, Option.bind_eq_bind, Option.bind_eq_some_iff, Option.pure_def,
      Option.some.injEq] at h
    obtain ⟨first, hfirst, rest, hrest, rfl⟩ := h
    obtain ⟨c, t', hc, hws, -⟩ := dumps_head hm.1.2 hfirst
    exact membersReadAs_cons (stringReadsAs_dumpsStr hm.1.1) ⟨c, t', hc, hws⟩ (readsAs_dumps hm.1.2 hfirst)
      (membersReadAs_dumps hm.2 hrest)

end

/-! ## The text is printable ASCII -/

/-- Printable ASCII text. -/
def Printable (s : Str) : Prop := ∀ c ∈ s, 32 ≤ c ∧ c < 127

theorem Printable.append {s t : Str} (hs : Printable s) (ht : Printable t) : Printable (s ++ t) := by
  intro c hc
  exact (List.mem_append.mp hc).elim (hs c) (ht c)

theorem Printable.cons {c : Nat} {t : Str} (hc : 32 ≤ c ∧ c < 127) (ht : Printable t) :
    Printable (c :: t) := by
  intro x hx
  rcases List.mem_cons.mp hx with rfl | hx
  · exact hc
  · exact ht x hx

theorem printable_digits {s : Str} (h : ∀ c ∈ s, isDigit c = true) : Printable s := by
  intro c hc
  have := h c hc
  simp only [isDigit, Bool.and_eq_true, decide_eq_true_eq] at this
  omega

theorem printable_escapeUnit (u : Nat) : Printable (escapeUnit u) := by
  have hhex : ∀ n < 16, 32 ≤ hexDigit n ∧ hexDigit n < 127 := by decide
  have hlt : ∀ k, k % 16 < 16 := fun k => Nat.mod_lt k (by omega)
  intro c hc
  simp only [escapeUnit, List.mem_cons, List.not_mem_nil, or_false] at hc
  rcases hc with rfl | rfl | rfl | rfl | rfl | rfl
  · omega
  · omega
  all_goals exact hhex _ (hlt _)

theorem printable_dumpsStr (s : Str) : Printable (dumpsStr s) := by
  have hbody : Printable (s.flatMap escapeChar) := by
    intro c hc
    obtain ⟨a, -, ha⟩ := List.mem_flatMap.mp hc
    rcases escape_cases a with ⟨k, -, hk, e⟩ | ⟨-, -, h32, hlt, e⟩ | ⟨-, e⟩ | ⟨-, e⟩
    · have hk' : 32 ≤ k ∧ k < 127 := by
        unfold unescape at hk
        split_ifs at hk <;> omega
      rw [e] at ha
      simp only [List.mem_cons, List.not_mem_nil, or_false] at ha
      omega
    · rw [e] at ha
      obtain rfl := List.mem_singleton.mp ha
      omega
    · rw [e] at ha
      exact printable_escapeUnit _ c ha
    · rw [e] at ha
      exact (printable_escapeUnit _).append (printable_escapeUnit _) c ha
  exact .cons (by omega) (hbody.append (.cons (by omega) fun c hc => nomatch hc))

theorem printable_ofInt (n : Int) : Printable (ofInt n) := by
  cases n with
  | ofNat n => exact printable_digits fun c hc => isDigit_of_mem_ofNat hc
  | negSucc n => exact .cons (by omega) (printable_digits fun c hc => isDigit_of_mem_ofNat hc)

theorem printable_lit {w : String} (h : (lit w).all (fun c => 32 ≤ c && c < 127) = true) :
    Printable (lit w) := by
  intro c hc
  simpa using List.all_eq_true.mp h c hc

theorem printable_layout {ds : Str} (pt : Int) (h : ∀ c ∈ ds, isDigit c = true) :
    Printable (PyFloat.layout ds pt) := by
  have hds := printable_digits h
  have htake : ∀ k, Printable (ds.take k) := fun k c hc => hds c (List.mem_of_mem_take hc)
  have hdrop : ∀ k, Printable (ds.drop k) := fun k c hc => hds c (List.mem_of_mem_drop hc)
  have hzeros : ∀ k, Printable (List.replicate k 48) := fun k => printable_digits fun c hc =>
    isDigit_replicate hc
  have hone : ∀ c, 32 ≤ c ∧ c < 127 → Printable [c] := fun c hc => .cons hc fun _ h => nomatch h
  have hexp : Printable (ofNat (pt - 1).natAbs) := printable_digits fun c hc => isDigit_of_mem_ofNat hc
  unfold PyFloat.layout
  split
  · dsimp only
    refine .append (.append (.append ?_ (hone 101 (by omega))) (hone _ (by split <;> omega))) ?_
    · split
      · exact hds
      · exact .append (.append (htake 1) (hone 46 (by omega))) (hdrop 1)
    · split
      · exact .cons (by omega) hexp
      · exact hexp
  split
  · exact .append (.append (printable_lit (by decide)) (hzeros _)) hds
  split
  · exact .append (.append hds (hzeros _)) (printable_lit (by decide))
  · exact .append (.append (htake _) (hone 46 (by omega))) (hdrop _)

theorem printable_dumpsFloat {f : PyFloat} (h : IsFloat f) : Printable (dumpsFloat f) := by
  cases f with
  | nan => exact printable_lit (by decide)
  | posInf => exact printable_lit (by decide)
  | negInf => exact printable_lit (by decide)
  | fin q =>
    rw [dumpsFloat]
    split
    · exact printable_lit (by decide)
    · rename_i hq
      simp only [PyFloat.repr]
      rcases lt_or_gt_of_ne hq with hneg | hpos
      · rw [if_pos hneg, if_pos hneg]
        exact .cons (by omega) (printable_layout _
          (significant_shortest (PyFloat.IsDouble.neg_of_neg h hneg) (neg_pos.mpr hneg)).1.1)
      · have hnneg : ¬ q < 0 := not_lt.mpr hpos.le
        rw [if_neg hnneg, if_neg hnneg]
        exact printable_layout _ (significant_shortest h hpos).1.1

mutual

theorem printable_dumps : ∀ {v : Json} {s : Str}, Representable v → dumps v = some s → Printable s
  | .null, _, _, h => by cases h; exact printable_lit (by decide)
  | .bool true, _, _, h => by cases h; exact printable_lit (by decide)
  | .bool false, _, _, h => by cases h; exact printable_lit (by decide)
  | .int n, s, _, h => by
    unfold dumps dumpsInt at h
    split at h
    · cases h
    · cases h
      exact printable_ofInt n
  | .float f, _, hv, h => by
    cases h
    exact printable_dumpsFloat hv
  | .str s, _, _, h => by
    cases h
    exact printable_dumpsStr s
  | .arr [], _, _, h => by cases h; exact printable_lit (by decide)
  | .arr (v :: t), _, hv, h => by
    simp only [dumps, Option.bind_eq_bind, Option.bind_eq_some_iff, Option.pure_def,
      Option.some.injEq] at h
    obtain ⟨first, hfirst, rest, hrest, rfl⟩ := h
    exact .cons (by omega) (.append (printable_dumps hv.1 hfirst) (printable_elements hv.2 hrest))
  | .obj [], _, _, h => by cases h; exact printable_lit (by decide)
  | .obj ((k, v) :: t), _, hv, h => by
    simp only [dumps, Option.bind_eq_bind, Option.bind_eq_some_iff, Option.pure_def,
      Option.some.injEq] at h
    obtain ⟨first, hfirst, rest, hrest, rfl⟩ := h
    exact .cons (by omega) (.append (printable_dumpsStr k) (.cons (by omega)
      (.append (printable_dumps hv.1.2 hfirst) (printable_members hv.2 hrest))))

theorem printable_elements : ∀ {l : List Json} {b : Str}, RepresentableList l →
    dumpsElements l = some b → Printable b
  | [], _, _, h => by cases h; simp [Printable]
  | v :: t, _, hl, h => by
    simp only [dumpsElements, Option.bind_eq_bind, Option.bind_eq_some_iff, Option.pure_def,
      Option.some.injEq] at h
    obtain ⟨first, hfirst, rest, hrest, rfl⟩ := h
    exact .cons (by omega) (.append (printable_dumps hl.1 hfirst) (printable_elements hl.2 hrest))

theorem printable_members : ∀ {m : List (Str × Json)} {b : Str}, RepresentableMembers m →
    dumpsMembers m = some b → Printable b
  | [], _, _, h => by cases h; simp [Printable]
  | (k, v) :: t, _, hm, h => by
    simp only [dumpsMembers, Option.bind_eq_bind, Option.bind_eq_some_iff, Option.pure_def,
      Option.some.injEq] at h
    obtain ⟨first, hfirst, rest, hrest, rfl⟩ := h
    exact .cons (by omega) (.append (printable_dumpsStr k) (.cons (by omega)
      (.append (printable_dumps hm.1.2 hfirst) (printable_members hm.2 hrest))))

end

/-! ## Documents -/

/-- `json.loads(json.dumps(v))`. -/
theorem loads_dumps {v : Json} {s : Str} (hv : Representable v) (h : dumps v = some s) :
    loads s = some (reread v) := by
  obtain ⟨c, t, hc, hws, -⟩ := dumps_head hv h
  have hbom : s.head? ≠ some 0xFEFF := by
    rw [hc]
    intro e
    have : c = 0xFEFF := Option.some.inj e
    have := printable_dumps hv h c (hc ▸ List.mem_cons_self)
    omega
  have hskip : skipWs s = s := by rw [hc, skipWs_of_head hws]
  have hread := readsAs_dumps hv h (s.length + 1) [] (by omega) ends_nil
  rw [List.append_nil] at hread
  rw [loads, if_neg hbom, hskip, hread]
  rfl

theorem encodeUtf8_printable {s : Str} (h : Printable s) :
    Codec.encodeUtf8 s = some (s.map UInt8.ofNat) := by
  induction s with
  | nil => rfl
  | cons c s ih =>
    have hc := h c List.mem_cons_self
    have hs := ih fun x hx => h x (List.mem_cons_of_mem _ hx)
    have hone : Codec.utf8Char c = some [UInt8.ofNat c] := by
      unfold Codec.utf8Char
      rw [if_pos (by omega)]
    simp only [Codec.encodeUtf8, hone, hs]
    rfl

theorem decodeInput_of_head {b : Bytes} (h : ∀ x ∈ b.head?, 32 ≤ x.toNat ∧ x.toNat < 127)
    (h1 : ∀ x y t, b = x :: y :: t → y ≠ 0) : decodeInput b = Codec.decodeUtf8 true b := by
  cases b with
  | nil => rfl
  | cons b0 t =>
    have hne : ∀ k : UInt8, k.toNat < 32 ∨ 127 ≤ k.toNat → b0 ≠ k := by
      rintro k hk rfl
      have := h b0 rfl
      omega
    have h00 := hne 0x00 (by decide)
    have hFF := hne 0xFF (by decide)
    have hFE := hne 0xFE (by decide)
    have hEF := hne 0xEF (by decide)
    -- the tests of the first byte, one after the other
    delta decodeInput decodeInput.match_1
    refine (dif_neg h00).trans ?_
    refine (dif_neg hFF).trans ?_
    refine (dif_neg hFE).trans ?_
    refine (dif_neg hEF).trans ?_
    rcases t with _ | ⟨b1, _ | ⟨b2, _ | ⟨b3, t⟩⟩⟩
    · rfl
    · exact (if_neg h00).trans (if_neg (h1 _ _ _ rfl))
    · rfl
    · exact (if_neg h00).trans (if_neg (h1 _ _ _ rfl))

theorem decodeInput_of_printable {b : Bytes} (h : ∀ x ∈ b, 32 ≤ x.toNat ∧ x.toNat < 127) :
    decodeInput b = Codec.decodeUtf8 true b := by
  refine decodeInput_of_head (fun x hx => h x (List.mem_of_mem_head? hx)) fun x y t hb => ?_
  rintro rfl
  have := h 0 (by rw [hb]; simp)
  simp at this

theorem decodeInput_printable {s : Str} (h : Printable s) :
    decodeInput (s.map UInt8.ofNat) = some s := by
  rw [decodeInput_of_printable]
  · exact Codec.decodeUtf8_encodeUtf8 true (encodeUtf8_printable h)
  · intro x hx
    obtain ⟨c, hc, rfl⟩ := List.mem_map.mp hx
    have hc' := h c hc
    rw [Codec.toNat_byte (by omega)]
    exact hc'

/-- `json.loads(json.dumps(v).encode("utf-8"))`. -/
theorem loadsBytes_dumps {v : Json} {s : Str} {b : Bytes} (hv : Representable v)
    (h : dumps v = some s) (hb : Codec.encodeUtf8 s = some b) : loadsBytes b = some (reread v) := by
  have hp := printable_dumps hv h
  rw [encodeUtf8_printable hp] at hb
  cases hb
  unfold loadsBytes
  rw [decodeInput_printable hp]
  exact loads_dumps hv h

/-! ## Values that are read back unchanged -/

/-- A high surrogate stands directly before a low one. -/
def hasPair : Str → Bool
  | u :: w :: t => (isHigh u && isLow w) || hasPair (w :: t)
  | _ => false

theorem length_joinSurrogates_le (s : Str) : (joinSurrogates s).length ≤ s.length := by
  induction s using joinSurrogates.induct with
  | case1 => exact Nat.le_refl _
  | case2 u => exact Nat.le_refl _
  | case3 u w t h ih =>
    rw [joinSurrogates.eq_3, if_pos h]
    simp only [List.length_cons]
    omega
  | case4 u w t h ih =>
    rw [joinSurrogates.eq_3, if_neg h]
    simp only [List.length_cons] at ih ⊢
    omega

theorem joinSurrogates_eq_self_iff {s : Str} : joinSurrogates s = s ↔ hasPair s = false := by
  induction s using joinSurrogates.induct with
  | case1 => exact ⟨fun _ => rfl, fun _ => rfl⟩
  | case2 u => exact ⟨fun _ => rfl, fun _ => rfl⟩
  | case3 u w t h ih =>
    have hp : (isHigh u && isLow w) = true := by simpa [isHigh, isLow, and_assoc] using h
    rw [joinSurrogates.eq_3, if_pos h, hasPair, hp]
    constructor
    · intro e
      have hlen := congrArg List.length e
      have := length_joinSurrogates_le t
      simp only [List.length_cons] at hlen
      omega
    · intro e
      cases e
  | case4 u w t h ih =>
    have hp : (isHigh u && isLow w) = false := by
      rw [Bool.eq_false_iff]
      intro hp
      apply h
      simpa [isHigh, isLow, and_assoc] using hp
    rw [joinSurrogates.eq_3, if_neg h, hasPair, hp, Bool.false_or, ← ih]
    exact ⟨fun e => (List.cons.inj e).2, fun e => by rw [e]⟩

mutual

/-- No string and no member name of a value has a surrogate pair written as two code points. -/
def PairFree : Json → Prop
  | .str s => hasPair s = false
  | .arr l => PairFreeList l
  | .obj m => PairFreeMembers m
  | _ => True

/-- `PairFree`, over a list. -/
def PairFreeList : List Json → Prop
  | [] => True
  | v :: t => PairFree v ∧ PairFreeList t

/-- `PairFree`, over the members of an object. -/
def PairFreeMembers : List (Str × Json) → Prop
  | [] => True
  | (k, v) :: t => (hasPair k = false ∧ PairFree v) ∧ PairFreeMembers t

end

theorem ofPairs_eq_self {m : List (Str × Json)} (h : (m.map Prod.fst).Nodup) :
    Dict.ofPairs m = m := by
  have key : ∀ (l d : List (Str × Json)), ((d ++ l).map Prod.fst).Nodup →
      l.foldl (fun d p => Dict.set d p.1 p.2) d = d ++ l := by
    intro l
    induction l with
    | nil => intro d _; simp
    | cons p l ih =>
      intro d hd
      have hnew : p.1 ∉ Dict.keys d := by
        rw [List.map_append, List.map_cons, List.nodup_append] at hd
        exact fun hmem => hd.2.2 _ hmem _ List.mem_cons_self rfl
      have hset : Dict.set d p.1 p.2 = d ++ [p] := Dict.set_of_not_mem hnew
      rw [List.foldl_cons, hset, ih (d ++ [p]) (by simpa using hd)]
      simp
  exact key m [] (by simpa using h)

mutual

/-- A value without such a pair is read back as it was. -/
theorem reread_eq_self : ∀ {v : Json}, v.WF → PairFree v → reread v = v
  | .null, _, _ => rfl
  | .bool _, _, _ => rfl
  | .int _, _, _ => rfl
  | .float _, _, _ => rfl
  | .str s, _, h => by rw [reread, joinSurrogates_eq_self_iff.mpr h]
  | .arr l, hwf, h => by rw [reread, rereadList_eq_self hwf h]
  | .obj m, hwf, h => by rw [reread, rereadMembers_eq_self hwf.2 h, ofPairs_eq_self hwf.1]

theorem rereadList_eq_self : ∀ {l : List Json}, Json.WFList l → PairFreeList l → rereadList l = l
  | [], _, _ => rfl
  | v :: t, hwf, h => by rw [rereadList, reread_eq_self hwf.1 h.1, rereadList_eq_self hwf.2 h.2]

theorem rereadMembers_eq_self : ∀ {m : List (Str × Json)}, Json.WFMembers m → PairFreeMembers m →
    rereadMembers m = m
  | [], _, _ => rfl
  | (k, v) :: t, hwf, h => by
    rw [rereadMembers, joinSurrogates_eq_self_iff.mpr h.1.1, reread_eq_self hwf.1 h.1.2,
      rereadMembers_eq_self hwf.2 h.2]

end

theorem representableMembers_iff {m : Dict} :
    RepresentableMembers m ↔ ∀ p ∈ m, IsStr p.1 ∧ Representable p.2 := by
  induction m with
  | nil => simp [RepresentableMembers]
  | cons p m ih => simp [RepresentableMembers, ih]

theorem representableList_iff {l : List Json} : RepresentableList l ↔ ∀ v ∈ l, Representable v := by
  induction l with
  | nil => simp [RepresentableList]
  | cons v l ih => simp [RepresentableList, ih]

theorem pairFreeMembers_iff {m : Dict} :
    PairFreeMembers m ↔ ∀ p ∈ m, hasPair p.1 = false ∧ PairFree p.2 := by
  induction m with
  | nil => simp [PairFreeMembers]
  | cons p m ih => simp [PairFreeMembers, ih]

theorem pairFreeList_iff {l : List Json} : PairFreeList l ↔ ∀ v ∈ l, PairFree v := by
  induction l with
  | nil => simp [PairFreeList]
  | cons v l ih => simp [PairFreeList, ih]

theorem hasPair_of_lt {s : Str} (h : ∀ c ∈ s, c < 0xD800) : hasPair s = false := by
  induction s with
  | nil => rfl
  | cons u t ih =>
    cases t with
    | nil => rfl
    | cons w t =>
      have hu := h u List.mem_cons_self
      have hhigh : isHigh u = false := by
        simp only [isHigh, Bool.and_eq_false_iff, decide_eq_false_iff_not]
        omega
      rw [hasPair, hhigh, Bool.false_and, Bool.false_or]
      exact ih fun c hc => h c (List.mem_cons_of_mem _ hc)

/-- A value of the interpreter that is read back as it was written. -/
structure Stable (v : Json) : Prop where
  wf : v.WF
  representable : Representable v
  pairFree : PairFree v

theorem Stable.reread {v : Json} (h : Stable v) : reread v = v := reread_eq_self h.wf h.pairFree

theorem stable_obj {m : Dict} : Stable (.obj m) ↔
    (Dict.keys m).Nodup ∧ ∀ p ∈ m, IsStr p.1 ∧ hasPair p.1 = false ∧ Stable p.2 := by
  constructor
  · rintro ⟨⟨hn, hwf⟩, hr, hp⟩
    refine ⟨hn, fun p hmem => ?_⟩
    have h1 := representableMembers_iff.mp hr p hmem
    have h2 := pairFreeMembers_iff.mp hp p hmem
    exact ⟨h1.1, h2.1, Json.wfMembers_iff.mp hwf p hmem, h1.2, h2.2⟩
  · rintro ⟨hn, h⟩
    refine ⟨⟨hn, Json.wfMembers_iff.mpr fun p hp => (h p hp).2.2.wf⟩, ?_, ?_⟩
    · exact representableMembers_iff.mpr fun p hp => ⟨(h p hp).1, (h p hp).2.2.representable⟩
    · exact pairFreeMembers_iff.mpr fun p hp => ⟨(h p hp).2.1, (h p hp).2.2.pairFree⟩

theorem stable_arr {l : List Json} : Stable (.arr l) ↔ ∀ v ∈ l, Stable v := by
  constructor
  · rintro ⟨hwf, hr, hp⟩ v hv
    exact ⟨Json.wfList_iff.mp hwf v hv, representableList_iff.mp hr v hv, pairFreeList_iff.mp hp v hv⟩
  · intro h
    exact ⟨Json.wfList_iff.mpr fun v hv => (h v hv).wf,
      representableList_iff.mpr fun v hv => (h v hv).representable,
      pairFreeList_iff.mpr fun v hv => (h v hv).pairFree⟩

theorem stable_str {s : Str} : Stable (.str s) ↔ IsStr s ∧ hasPair s = false :=
  ⟨fun h => ⟨h.representable, h.pairFree⟩, fun h => ⟨trivial, h.1, h.2⟩⟩

theorem stable_ascii {s : Str} (h : ∀ c ∈ s, c < 128) : Stable (.str s) :=
  stable_str.mpr ⟨fun c hc => by have := h c hc; omega,
    hasPair_of_lt fun c hc => by have := h c hc; omega⟩

example : dumps (.obj [("a", .arr [.int (-3), .float (.fin (1 / 8)), .str [34, 0x1F600]])]) =
    some (lit "\x7b\"a\":[-3,0.125,\"\\\"\\ud83d\\ude00\"]\x7d") := by decide +kernel

end Python.JsonDumps
