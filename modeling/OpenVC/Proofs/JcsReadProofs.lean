import OpenVC.Proofs.JcsOrderProofs

/-!
# Reading a canonical text

`json.loads` reads the text of a value as the ordered value, and the bytes as UTF-8.
-/

namespace OpenVC.Jcs

open Python Json

/-! ## Strings and numbers -/

theorem scanString_escapeChar (cp : Nat) (r : Str) :
    JsonLoads.scanString (escapeChar cp ++ r) = JsonLoads.push cp (JsonLoads.scanString r) := by
  unfold escapeChar
  cases hs : shortEscape cp with
  | some c => exact JsonDumps.scanString_short (shortEscape_ne_u hs) (unescape_shortEscape hs)
  | none =>
    obtain ⟨h34, h92⟩ := shortEscape_none hs
    by_cases hctl : cp < 0x20
    · have hunit : [92, 117, 48, 48, hexDigit (cp / 16), hexDigit (cp % 16)] =
          JsonDumps.escapeUnit cp := by
        have h1 : cp / 4096 % 16 = 0 := by omega
        have h2 : cp / 256 % 16 = 0 := by omega
        have h3 : cp / 16 % 16 = cp / 16 := by omega
        rw [JsonDumps.escapeUnit, h1, h2, h3]
        rfl
      have hhigh : JsonDumps.isHigh cp = false := by
        simp only [JsonDumps.isHigh, Bool.and_eq_false_iff, decide_eq_false_iff_not]
        omega
      simp only [hctl, if_true, hunit]
      exact JsonDumps.scanString_unit (by omega) (.inl hhigh)
    · simp only [hctl, if_false, List.singleton_append]
      exact JsonDumps.scanString_plain h34 h92 (by omega)

theorem stringReadsAs_escapeString (s : Str) : JsonDumps.StringReadsAs (escapeString s) s := by
  refine ⟨s.flatMap escapeChar ++ [34], rfl, fun t => ?_⟩
  rw [List.append_assoc]
  induction s with
  | nil => exact JsonLoads.scanString.eq_2 t
  | cons c s ih =>
    rw [List.flatMap_cons, List.append_assoc, scanString_escapeChar, ih]
    rfl

/-- What a canonical text starts with: no white space and no closing bracket. -/
theorem serialize_head_ne {d : Nat} {v : Json} {t : Str} (h : serialize d v = .ok t) :
    ∃ c r, t = c :: r ∧ JsonLoads.isWs c = false ∧ c ≠ 93 ∧ 32 ≤ c ∧ c < 127 := by
  obtain ⟨c, r, rfl, hk⟩ := isText_head ⟨d, v, h⟩
  refine ⟨c, r, rfl, ?_, ?_, ?_⟩
  · simp only [JsonLoads.isWs, Bool.or_eq_false_iff, beq_eq_false_iff_ne]
    refine ⟨⟨⟨?_, ?_⟩, ?_⟩, ?_⟩ <;> (rintro rfl; exact hk rfl)
  · rintro rfl
    exact hk rfl
  · unfold kindOf at hk
    have hnum : isNumChar c = true → 32 ≤ c ∧ c < 127 := by
      intro hc
      simp only [isNumChar, Bool.or_eq_true, Bool.and_eq_true, decide_eq_true_eq,
        beq_iff_eq] at hc
      omega
    split_ifs at hk
    all_goals first | omega | exact hnum ‹_› | exact absurd rfl hk

theorem readsAs_ofInt {n : Int} (hlo : -(2 ^ 53) < n) (hhi : n < 2 ^ 53) :
    JsonDumps.ReadsAs (Str.ofInt n) (.int n) := by
  have hlen : (Str.ofNat n.natAbs).length ≤ 16 :=
    (Str.length_ofNat_le_iff (by omega)).mpr (by omega)
  have hdumps : JsonDumps.dumpsInt n = some (Str.ofInt n) := by
    rw [JsonDumps.dumpsInt, if_neg]
    rw [JsonLoads.maxStrDigits]
    omega
  obtain ⟨c, t, hc, -, -, -, h34, h91, h123⟩ := JsonDumps.ofInt_head n
  exact JsonDumps.readsAs_atom ⟨c, t, hc, h34, h91, h123⟩ fun r hr => JsonDumps.scanAtom_dumpsInt hdumps hr

/-! ## Containers -/

theorem intercalate_eq_flatMap (p : Str) (ps : List Str) :
    List.intercalate [44] (p :: ps) = p ++ ps.flatMap (44 :: ·) := by
  induction ps generalizing p with
  | nil => simp [List.intercalate]
  | cons q ps ih =>
    rw [intercalate_cons p (by simp), ih q, List.flatMap_cons]
    simp

/-- A text that can stand as an element, and what it is read as. -/
def ElementReadsAs (t : Str) (v : Json) : Prop :=
  (∃ c r, t = c :: r ∧ JsonLoads.isWs c = false ∧ c ≠ 93) ∧ JsonDumps.ReadsAs t v

theorem tailReadsAs_parts {parts : List Str} {l : List Json}
    (h : List.Forall₂ ElementReadsAs parts l) :
    JsonDumps.TailReadsAs (parts.flatMap (44 :: ·) ++ [93]) l := by
  induction h with
  | nil => exact JsonDumps.tailReadsAs_nil
  | cons hp _ ih =>
    obtain ⟨⟨c, r, hc, hws, -⟩, hv⟩ := hp
    have := JsonDumps.tailReadsAs_cons ⟨c, r, hc, hws⟩ hv ih
    rw [List.flatMap_cons, List.append_assoc]
    exact this

theorem readsAs_array {parts : List Str} {l : List Json} (h : List.Forall₂ ElementReadsAs parts l) :
    JsonDumps.ReadsAs (91 :: (List.intercalate [44] parts ++ [93])) (.arr l) := by
  cases h with
  | nil =>
    intro n r hn hr
    obtain ⟨m, rfl⟩ : ∃ m, n = m + 1 := ⟨n - 1, by omega⟩
    rfl
  | cons hp hrest =>
    rw [intercalate_eq_flatMap, List.append_assoc]
    exact JsonDumps.readsAs_arr hp.1 hp.2 (tailReadsAs_parts hrest)

/-- A text that can stand as a member, and what it is read as. -/
def MemberReadsAs (p : Str) (m : Str × Json) : Prop :=
  ∃ t, p = memberText m.1 t ∧ ElementReadsAs t m.2

theorem membersReadAs_parts {parts : List Str} {l : List (Str × Json)}
    (h : List.Forall₂ MemberReadsAs parts l) :
    JsonDumps.MembersReadAs (parts.flatMap (44 :: ·) ++ [125]) l := by
  induction h with
  | nil => exact JsonDumps.membersReadAs_nil
  | @cons _ m _ _ hp _ ih =>
    obtain ⟨t, rfl, ⟨c, r, hc, hws, -⟩, hv⟩ := hp
    have := JsonDumps.membersReadAs_cons (stringReadsAs_escapeString m.1) ⟨c, r, hc, hws⟩ hv ih
    rw [List.flatMap_cons, List.append_assoc, memberText]
    simpa using this

/-- An object is read member by member. -/
theorem readsAs_object {parts : List Str} {l : List (Str × Json)}
    (h : List.Forall₂ MemberReadsAs parts l) (hl : (l.map Prod.fst).Nodup) :
    JsonDumps.ReadsAs (123 :: (List.intercalate [44] parts ++ [125])) (.obj l) := by
  cases h with
  | nil =>
    intro n r hn hr
    obtain ⟨m, rfl⟩ : ∃ m, n = m + 1 := ⟨n - 1, by omega⟩
    rfl
  | @cons p m ps l hp hrest =>
    obtain ⟨k, v⟩ := m
    obtain ⟨t, rfl, ⟨c, r, hc, hws, -⟩, hv⟩ := hp
    have := JsonDumps.readsAs_obj (stringReadsAs_escapeString k) ⟨c, r, hc, hws⟩ hv
      (membersReadAs_parts hrest)
    rw [JsonDumps.ofPairs_eq_self hl] at this
    rw [intercalate_eq_flatMap, memberText]
    simpa using this

/-! ## Values -/

theorem orderedMembers_eq_map (m : List (Str × Json)) :
    orderedMembers m = m.map fun p => (p.1, ordered p.2) := by
  induction m with
  | nil => rfl
  | cons p m ih =>
    obtain ⟨k, v⟩ := p
    rw [orderedMembers, List.map_cons, ih]

theorem insertionSort_orderedMembers (m : List (Str × Json)) :
    (orderedMembers m).insertionSort nameLe = (m.insertionSort nameLe).map fun p => (p.1, ordered p.2) := by
  rw [orderedMembers_eq_map]
  exact (List.map_insertionSort nameLe nameLe (fun p => (p.1, ordered p.2)) m
    fun _ _ _ _ => Iff.rfl).symm

/-- The parts of an object are read as its ordered members. -/
theorem memberReadsAs_of_parts {d : Nat} {m : List (Str × Json)} {parts : List Str}
    (h : List.Forall₂ (fun p part => ∃ t, serialize d p.2 = .ok t ∧ part = memberText p.1 t) m parts)
    (hm : ∀ p ∈ m, ∀ t, serialize d p.2 = .ok t → ElementReadsAs t (ordered p.2)) :
    List.Forall₂ MemberReadsAs parts (m.map fun p => (p.1, ordered p.2)) := by
  induction h with
  | nil => exact .nil
  | @cons p _ _ _ hp _ ih =>
    obtain ⟨t, ht, rfl⟩ := hp
    exact .cons ⟨t, rfl, hm p List.mem_cons_self t ht⟩
      (ih fun q hq => hm q (List.mem_cons_of_mem _ hq))

mutual

/-- A canonical text is read as the ordered value. -/
theorem readsAs_serialize : ∀ (v : Json) {d : Nat} {t : Str}, Safe v → serialize d v = .ok t →
    JsonDumps.ReadsAs t (ordered v)
  | .null, _, _, _, h => by
    rw [serialize_literal rfl h]
    exact JsonDumps.readsAs_atom ⟨110, _, rfl, by decide⟩ fun _ _ => rfl
  | .bool true, _, _, _, h => by
    rw [serialize_literal rfl h]
    exact JsonDumps.readsAs_atom ⟨116, _, rfl, by decide⟩ fun _ _ => rfl
  | .bool false, _, _, _, h => by
    rw [serialize_literal rfl h]
    exact JsonDumps.readsAs_atom ⟨102, _, rfl, by decide⟩ fun _ _ => rfl
  | .int n, d, t, hv, h => by
    have hrange : -(2 ^ 53) < n ∧ n < 2 ^ 53 := hv
    have ht : t = Str.ofInt n := by
      unfold serialize at h
      split at h
      · cases h
      · simp only [numberInt] at h
        rw [if_pos hrange] at h
        exact (Except.ok.inj h).symm
    rw [ht]
    exact readsAs_ofInt hv.1 hv.2
  | .float _, _, _, hv, _ => by cases hv
  | .str s, _, _, _, h => by
    rw [serialize_str h]
    exact (stringReadsAs_escapeString s).readsAs
  | .arr l, _, _, hv, h => by
    obtain ⟨parts, hp, rfl⟩ := serialize_arr h
    exact readsAs_array (elementsReadAs_serializeList l hv hp)
  | .obj m, d, _, hv, h => by
    obtain ⟨parts, hp, rfl⟩ := serialize_obj h
    rw [ordered, insertionSort_orderedMembers]
    have hperm := List.perm_insertionSort nameLe m
    refine readsAs_object ?_ ?_
    · have hparts := joinMembers_eq_ok hp
      rw [← serializeMembers_insertionSort, serializeMembers_eq_map,
        List.forall₂_map_left_iff] at hparts
      exact memberReadsAs_of_parts hparts fun p hp =>
        membersReadAs_serialize m hv.2 p (hperm.mem_iff.mp hp)
    · rw [List.map_map]
      exact (hperm.map Prod.fst).nodup_iff.mpr hv.1

theorem elementsReadAs_serializeList : ∀ (l : List Json) {d : Nat} {parts : List Str}, SafeList l →
    serializeList d l = .ok parts → List.Forall₂ ElementReadsAs parts (orderedList l)
  | [], _, _, _, h => by
    cases h
    exact .nil
  | v :: l, d, _, hl, h => by
    simp only [serializeList] at h
    split at h
    · cases h
    · rename_i s hs
      split at h
      · cases h
      · rename_i r hr
        cases h
        obtain ⟨c, r', hc, hws, h93, -⟩ := serialize_head_ne hs
        exact .cons ⟨⟨c, r', hc, hws, h93⟩, readsAs_serialize v hl.1 hs⟩
          (elementsReadAs_serializeList l hl.2 hr)

theorem membersReadAs_serialize : ∀ (m : List (Str × Json)) {d : Nat}, SafeMembers m →
    ∀ p ∈ m, ∀ t, serialize d p.2 = .ok t → ElementReadsAs t (ordered p.2)
  | [], _, _, _, hp, _, _ => by cases hp
  | (k, v) :: m, d, hm, p, hp, t, ht => by
    rcases List.mem_cons.mp hp with rfl | hp
    · obtain ⟨c, r, hc, hws, h93, -⟩ := serialize_head_ne ht
      exact ⟨⟨c, r, hc, hws, h93⟩, readsAs_serialize v hm.1 ht⟩
    · exact membersReadAs_serialize m hm.2 p hp t ht

end

/-! ## Texts that have an encoding -/

theorem exists_utf8Char_iff {c : Nat} : (∃ b, Codec.utf8Char c = some b) ↔ IsScalar c := by
  unfold Codec.utf8Char IsScalar
  split_ifs <;> simp <;> omega

theorem exists_encodeUtf8_iff {s : Str} : (∃ b, Codec.encodeUtf8 s = some b) ↔ IsUnicode s := by
  induction s with
  | nil => simp [Codec.encodeUtf8, IsUnicode]
  | cons c s ih =>
    rw [IsUnicode, List.forall_mem_cons, ← exists_utf8Char_iff, ← IsUnicode, ← ih]
    constructor
    · rintro ⟨b, h⟩
      simp only [Codec.encodeUtf8] at h
      split at h
      · rename_i hc hs
        exact ⟨⟨_, hc⟩, ⟨_, hs⟩⟩
      · cases h
    · rintro ⟨⟨b, hb⟩, ⟨r, hr⟩⟩
      exact ⟨b ++ r, by simp only [Codec.encodeUtf8, hb, hr]⟩

theorem isUnicode_append {s t : Str} : IsUnicode (s ++ t) ↔ IsUnicode s ∧ IsUnicode t :=
  List.forall_mem_append

theorem isUnicode_of_lt {s : Str} (h : ∀ c ∈ s, c < 128) : IsUnicode s := by
  intro c hc
  have := h c hc
  exact ⟨by omega, by omega⟩

theorem isUnicode_escapeChar {c : Nat} : IsUnicode (escapeChar c) ↔ IsScalar c := by
  unfold escapeChar
  cases hs : shortEscape c with
  | some k =>
    have hbounds : c < 128 ∧ k < 128 := by
      unfold shortEscape at hs
      split_ifs at hs <;> (cases hs; omega)
    refine iff_of_true (isUnicode_of_lt ?_) ⟨by omega, by omega⟩
    intro x hx
    simp at hx
    omega
  | none =>
    by_cases hctl : c < 0x20
    · simp only [hctl, if_true]
      refine iff_of_true (isUnicode_of_lt ?_) ⟨by omega, by omega⟩
      intro x hx
      have hdigit : ∀ n < 16, hexDigit n < 128 := by decide
      have h1 := hdigit (c / 16) (by omega)
      have h2 := hdigit (c % 16) (by omega)
      simp at hx
      omega
    · simp only [hctl, if_false]
      simp [IsUnicode]

theorem isUnicode_escapeString {s : Str} : IsUnicode (escapeString s) ↔ IsUnicode s := by
  have hquote : IsUnicode [34] := isUnicode_of_lt (by decide)
  have hbody : IsUnicode (s.flatMap escapeChar) ↔ IsUnicode s := by
    induction s with
    | nil => rfl
    | cons c s ih =>
      rw [List.flatMap_cons, isUnicode_append, isUnicode_escapeChar, ih]
      exact List.forall_mem_cons.symm
  rw [escapeString, isUnicode_append, isUnicode_append, hbody]
  simp [hquote]

theorem isUnicode_intercalate {parts : List Str} :
    IsUnicode (List.intercalate [44] parts) ↔ ∀ p ∈ parts, IsUnicode p := by
  have hcomma : IsScalar 44 := ⟨by omega, by omega⟩
  cases parts with
  | nil => simp [List.intercalate, IsUnicode]
  | cons p ps =>
    have htail : IsUnicode (ps.flatMap (44 :: ·)) ↔ ∀ q ∈ ps, IsUnicode q := by
      induction ps with
      | nil => simp [IsUnicode]
      | cons q ps ih =>
        rw [List.flatMap_cons, isUnicode_append, ih, List.forall_mem_cons, IsUnicode,
          List.forall_mem_cons]
        simp [hcomma, IsUnicode]
    rw [intercalate_eq_flatMap, isUnicode_append, htail, List.forall_mem_cons]

theorem isUnicode_bracket {l r : Nat} {s : Str} (hl : l < 128) (hr : r < 128) :
    IsUnicode (l :: (s ++ [r])) ↔ IsUnicode s := by
  have hl' : IsScalar l := ⟨by omega, by omega⟩
  have hr' : IsScalar r := ⟨by omega, by omega⟩
  rw [IsUnicode, List.forall_mem_cons, ← IsUnicode, isUnicode_append]
  simp [IsUnicode, hl', hr']

theorem isUnicode_memberText {k t : Str} :
    IsUnicode (memberText k t) ↔ IsUnicode k ∧ IsUnicode t := by
  have hcolon : IsUnicode [58] := isUnicode_of_lt (by decide)
  rw [memberText, isUnicode_append, isUnicode_append, isUnicode_escapeString]
  simp [hcolon]

theorem isUnicode_parts {d : Nat} {m : List (Str × Json)} {parts : List Str}
    (h : List.Forall₂ (fun p part => ∃ t, serialize d p.2 = .ok t ∧ part = memberText p.1 t) m parts)
    (hm : ∀ p ∈ m, ∀ t, serialize d p.2 = .ok t → (IsUnicode t ↔ Encodable p.2)) :
    (∀ part ∈ parts, IsUnicode part) ↔ ∀ p ∈ m, IsUnicode p.1 ∧ Encodable p.2 := by
  induction h with
  | nil => simp
  | @cons p _ _ _ hp _ ih =>
    obtain ⟨t, ht, rfl⟩ := hp
    rw [List.forall_mem_cons, List.forall_mem_cons, isUnicode_memberText,
      hm p List.mem_cons_self t ht, ih fun q hq => hm q (List.mem_cons_of_mem _ hq)]

mutual

/-- A canonical text has an encoding exactly when the strings of the value do. -/
theorem isUnicode_serialize : ∀ (v : Json) {d : Nat} {t : Str}, Safe v → serialize d v = .ok t →
    (IsUnicode t ↔ Encodable v)
  | .null, _, _, _, h => by
    rw [serialize_literal rfl h]
    exact iff_of_true (isUnicode_of_lt (by decide)) trivial
  | .bool true, _, _, _, h => by
    rw [serialize_literal rfl h]
    exact iff_of_true (isUnicode_of_lt (by decide)) trivial
  | .bool false, _, _, _, h => by
    rw [serialize_literal rfl h]
    exact iff_of_true (isUnicode_of_lt (by decide)) trivial
  | .int n, _, t, _, h => by
    refine iff_of_true (isUnicode_of_lt fun c hc => ?_) trivial
    have hnum := (serialize_number rfl h).2 c hc
    simp only [isNumChar, Bool.or_eq_true, Bool.and_eq_true, decide_eq_true_eq, beq_iff_eq] at hnum
    omega
  | .float _, _, _, hv, _ => by cases hv
  | .str s, _, _, _, h => by
    rw [serialize_str h, isUnicode_escapeString, Encodable]
  | .arr l, _, _, hv, h => by
    obtain ⟨parts, hp, rfl⟩ := serialize_arr h
    rw [isUnicode_bracket (by decide) (by decide), isUnicode_intercalate, Encodable]
    exact isUnicode_serializeList l hv hp
  | .obj m, d, _, hv, h => by
    obtain ⟨parts, hp, rfl⟩ := serialize_obj h
    rw [isUnicode_bracket (by decide) (by decide), isUnicode_intercalate, Encodable,
      encodableMembers_iff]
    have hparts := joinMembers_eq_ok hp
    rw [← serializeMembers_insertionSort, serializeMembers_eq_map,
      List.forall₂_map_left_iff] at hparts
    rw [isUnicode_parts hparts fun p hp => isUnicode_serializeMembers m hv.2 p
      ((List.mem_insertionSort nameLe).mp hp)]
    simp only [List.mem_insertionSort]

theorem isUnicode_serializeList : ∀ (l : List Json) {d : Nat} {parts : List Str}, SafeList l →
    serializeList d l = .ok parts → ((∀ p ∈ parts, IsUnicode p) ↔ EncodableList l)
  | [], _, _, _, h => by
    cases h
    simp [EncodableList]
  | v :: l, d, _, hl, h => by
    simp only [serializeList] at h
    split at h
    · cases h
    · rename_i s hs
      split at h
      · cases h
      · rename_i r hr
        cases h
        rw [List.forall_mem_cons, isUnicode_serialize v hl.1 hs,
          isUnicode_serializeList l hl.2 hr, EncodableList]

theorem isUnicode_serializeMembers : ∀ (m : List (Str × Json)) {d : Nat}, SafeMembers m →
    ∀ p ∈ m, ∀ t, serialize d p.2 = .ok t → (IsUnicode t ↔ Encodable p.2)
  | [], _, _, _, hp, _, _ => by cases hp
  | (k, v) :: m, d, hm, p, hp, t, ht => by
    rcases List.mem_cons.mp hp with rfl | hp
    · exact isUnicode_serialize v hm.1 ht
    · exact isUnicode_serializeMembers m hm.2 p hp t ht

end

/-! ## The depth bound -/

theorem exists_joinMembers {l : List (Str × Result Str)} (h : ∀ p ∈ l, ∃ t, p.2 = .ok t) :
    ∃ parts, joinMembers l = .ok parts := by
  have hsorted : ∀ p ∈ l.insertionSort memberLe, ∃ t, p.2 = .ok t :=
    fun p hp => h p ((List.mem_insertionSort memberLe).mp hp)
  unfold joinMembers
  generalize l.insertionSort memberLe = sorted at hsorted
  induction sorted with
  | nil => exact ⟨[], rfl⟩
  | cons p l ih =>
    obtain ⟨t, ht⟩ := hsorted p List.mem_cons_self
    obtain ⟨parts, hparts⟩ := ih fun q hq => hsorted q (List.mem_cons_of_mem _ hq)
    simp only [collect, ht, hparts]
    exact ⟨_, rfl⟩

mutual

/-- A value within the depth bound is written. -/
theorem exists_serialize : ∀ (v : Json) {d : Nat}, Safe v → d + height v ≤ maxDepth →
    ∃ t, serialize d v = .ok t
  | .null, d, _, hd | .bool true, d, _, hd | .bool false, d, _, hd | .str _, d, _, hd => by
    unfold serialize
    rw [if_neg (by omega)]
    exact ⟨_, rfl⟩
  | .int n, d, hv, hd => by
    have hrange : -(2 ^ 53) < n ∧ n < 2 ^ 53 := hv
    unfold serialize
    rw [if_neg (by omega)]
    exact ⟨_, if_pos hrange⟩
  | .float _, _, hv, _ => by cases hv
  | .arr l, d, hv, hd => by
    rw [height] at hd
    unfold serialize
    rw [if_neg (by omega)]
    obtain ⟨parts, hp⟩ := exists_serializeList l hv hd
    simp only [hp]
    exact ⟨_, rfl⟩
  | .obj m, d, hv, hd => by
    rw [height] at hd
    unfold serialize
    rw [if_neg (by omega)]
    obtain ⟨parts, hp⟩ := exists_joinMembers (exists_serializeMembers m hv.2 hd)
    simp only [hp]
    exact ⟨_, rfl⟩

theorem exists_serializeList : ∀ (l : List Json) {d : Nat}, SafeList l →
    d + heightList l ≤ maxDepth → ∃ parts, serializeList (d + 1) l = .ok parts
  | [], _, _, _ => ⟨[], rfl⟩
  | v :: l, d, hl, hd => by
    rw [heightList] at hd
    obtain ⟨t, ht⟩ := exists_serialize v (d := d + 1) hl.1 (by omega)
    obtain ⟨parts, hp⟩ := exists_serializeList l (d := d) hl.2 (by omega)
    simp only [serializeList, ht, hp]
    exact ⟨_, rfl⟩

theorem exists_serializeMembers : ∀ (m : List (Str × Json)) {d : Nat}, SafeMembers m →
    d + heightMembers m ≤ maxDepth → ∀ p ∈ serializeMembers (d + 1) m, ∃ t, p.2 = .ok t
  | [], _, _, _, _, hp => by cases hp
  | (k, v) :: m, d, hm, hd, p, hp => by
    rw [heightMembers] at hd
    rcases List.mem_cons.mp hp with rfl | hp
    · exact exists_serialize v hm.1 (by omega)
    · exact exists_serializeMembers m hm.2 (by omega) p hp

end

/-! ## Bytes -/

theorem escapeChar_head (cp : Nat) (r : Str) : ∃ c t, escapeChar cp ++ r = c :: t ∧ 32 ≤ c := by
  unfold escapeChar
  split
  · exact ⟨92, _, rfl, by decide⟩
  · split
    · exact ⟨92, _, rfl, by decide⟩
    · exact ⟨cp, r, rfl, by omega⟩

theorem serialize_second {d : Nat} {v : Json} {c c' : Nat} {r : Str}
    (h : serialize d v = .ok (c :: c' :: r)) : c' ≠ 0 := by
  rintro rfl
  cases v with
  | null =>
    have := serialize_literal rfl h
    simp [lit_eq] at this
  | bool b =>
    cases b
    · have := serialize_literal rfl h
      simp [lit_eq] at this
    · have := serialize_literal rfl h
      simp [lit_eq] at this
  | int n =>
    have := (serialize_number rfl h).2 0 (by simp)
    cases this
  | float f =>
    have := (serialize_number rfl h).2 0 (by simp)
    cases this
  | str s =>
    have ht : 0 :: r = s.flatMap escapeChar ++ [34] := (List.cons.inj (serialize_str h)).2
    cases s with
    | nil => cases ht
    | cons x s =>
      obtain ⟨y, t, hy, hle⟩ := escapeChar_head x (s.flatMap escapeChar ++ [34])
      rw [List.flatMap_cons, List.append_assoc, hy] at ht
      have := (List.cons.inj ht).1
      omega
  | arr l =>
    obtain ⟨parts, hp, ht⟩ := serialize_arr h
    have htail := (List.cons.inj ht).2
    cases parts with
    | nil => cases htail
    | cons p ps =>
      obtain ⟨d', v', hv'⟩ := serializeList_isText hp p List.mem_cons_self
      obtain ⟨y, t, rfl, -, -, hle, -⟩ := serialize_head_ne hv'
      rw [intercalate_eq_flatMap] at htail
      have := (List.cons.inj htail).1
      omega
  | obj m =>
    obtain ⟨parts, hp, ht⟩ := serialize_obj h
    have htail := (List.cons.inj ht).2
    cases parts with
    | nil => cases htail
    | cons p ps =>
      obtain ⟨k, t, -, rfl⟩ := joinMembers_isMember hp p List.mem_cons_self
      rw [intercalate_eq_flatMap] at htail
      cases (List.cons.inj htail).1

theorem utf8Char_head_ne {c : Nat} {x : UInt8} {b : Bytes} (h : Codec.utf8Char c = some (x :: b))
    (hc : c ≠ 0) : x ≠ 0 := by
  have hbyte : ∀ n, 0 < n → n < 256 → UInt8.ofNat n ≠ 0 := by
    intro n hn hlt e
    have := congrArg UInt8.toNat e
    rw [Codec.toNat_byte hlt] at this
    exact hn.ne' this
  unfold Codec.utf8Char at h
  split_ifs at h
  all_goals
    simp only [Option.some.injEq, List.cons.injEq] at h
    rw [← h.1]
    exact hbyte _ (by omega) (by omega)

theorem decodeInput_serialize {d : Nat} {v : Json} {t : Str} {b : Bytes}
    (h : serialize d v = .ok t) (hb : Codec.encodeUtf8 t = some b) :
    JsonLoads.decodeInput b = some t := by
  obtain ⟨c, r, rfl, -, -, hlo, hhi⟩ := serialize_head_ne h
  have hfirst : Codec.utf8Char c = some [UInt8.ofNat c] := by
    unfold Codec.utf8Char
    rw [if_pos (by omega)]
  simp only [Codec.encodeUtf8, hfirst] at hb
  split at hb
  · rename_i b₁ b₂ hb₁ hb₂
    cases hb₁
    cases hb
    rw [JsonDumps.decodeInput_of_head]
    · refine Codec.decodeUtf8_encodeUtf8 true ?_
      simp only [Codec.encodeUtf8, hfirst, hb₂]
    · intro x hx
      cases hx
      rw [Codec.toNat_byte (by omega)]
      exact ⟨hlo, hhi⟩
    · intro x y t hxy
      have htail : b₂ = y :: t := (List.cons.inj hxy).2
      cases r with
      | nil =>
        cases hb₂
        cases htail
      | cons c' r =>
        have hne := serialize_second h
        simp only [Codec.encodeUtf8] at hb₂
        split at hb₂
        · rename_i b₃ b₄ hb₃ _
          cases hb₂
          obtain ⟨z, w, rfl⟩ := List.exists_cons_of_ne_nil (Codec.utf8Char_ne_nil hb₃)
          rw [← (List.cons.inj htail).1]
          exact utf8Char_head_ne hb₃ hne
        · cases hb₂
  · cases hb

/-- `json.loads` gives the ordered value back. -/
theorem loadsBytes_canonicalize {v : Json} {b : Bytes} (hv : Safe v) (h : canonicalize v = .ok b) :
    JsonLoads.loadsBytes b = some (ordered v) := by
  obtain ⟨t, ht, hb⟩ := canonicalize_eq_ok.mp h
  obtain ⟨c, r, hc, hws, -, -, hhi⟩ := serialize_head_ne ht
  have hbom : t.head? ≠ some 0xFEFF := by
    rw [hc]
    intro e
    have : c = 0xFEFF := Option.some.inj e
    omega
  have hskip : JsonLoads.skipWs t = t := by rw [hc, JsonDumps.skipWs_of_head hws]
  have hread := readsAs_serialize v hv ht (t.length + 1) [] (by omega) JsonDumps.ends_nil
  rw [List.append_nil] at hread
  rw [JsonLoads.loadsBytes, decodeInput_serialize ht hb]
  simp only [JsonLoads.loads]
  rw [if_neg hbom, hskip, hread]
  rfl

/-! ## Canonicalization -/

/-- Safe values within the depth bound: the canonical bytes exist unless a string has a surrogate, are
those of the equal values and of no other, and are read as an equal value with its members in order. -/
theorem canonicalize_injective {a : Json} (ha : Safe a) (hd : height a ≤ maxDepth) :
    ((∃ bytes, canonicalize a = .ok bytes) ↔ Encodable a) ∧
    ∀ bytes, canonicalize a = .ok bytes →
      (∀ b, Safe b → (canonicalize b = .ok bytes ↔ Same a b)) ∧
      ∃ v, JsonLoads.loadsBytes bytes = some v ∧ Same a v ∧ InOrder v := by
  obtain ⟨t, ht⟩ := exists_serialize a (d := 0) ha (by omega)
  have hencodable : (∃ bytes, canonicalize a = .ok bytes) ↔ Encodable a := by
    rw [← isUnicode_serialize a ha ht, ← exists_encodeUtf8_iff]
    constructor
    · rintro ⟨bytes, h⟩
      obtain ⟨t', ht', hb⟩ := canonicalize_eq_ok.mp h
      rw [ht] at ht'
      cases ht'
      exact ⟨bytes, hb⟩
    · rintro ⟨bytes, hb⟩
      exact ⟨bytes, canonicalize_eq_ok.mpr ⟨t, ht, hb⟩⟩
  refine ⟨hencodable, fun bytes h => ⟨fun b hb => ⟨fun hb' => ?_, fun hsame => ?_⟩, ?_⟩⟩
  · -- both are what the bytes are read as
    have hread := loadsBytes_canonicalize ha h
    rw [loadsBytes_canonicalize hb hb', Option.some.injEq] at hread
    exact same_of_ordered_eq a b ha hb hread.symm
  · have hordered := ordered_eq_of_same a b ha hb (hencodable.mp ⟨bytes, h⟩) hsame
    rw [canonicalize, ← serialize_ordered b 0, ← hordered, serialize_ordered a 0]
    exact h
  · exact ⟨ordered a, loadsBytes_canonicalize ha h, same_ordered a ha,
      inOrder_ordered a ha (hencodable.mp ⟨bytes, h⟩)⟩

/-- The same at `{"b": 1, "a": true}`, and at its members in the other order. -/
theorem canonicalize_injective_pair : ∃ bytes,
    canonicalize (.obj [(lit "b", .int 1), (lit "a", .bool true)]) = .ok bytes ∧
    (canonicalize (.obj [(lit "a", .bool true), (lit "b", .int 1)]) = .ok bytes ↔
      Same (.obj [(lit "b", .int 1), (lit "a", .bool true)])
        (.obj [(lit "a", .bool true), (lit "b", .int 1)])) := by
  have ha : Safe (.obj [(lit "b", .int 1), (lit "a", .bool true)]) :=
    ⟨by decide, ⟨by decide, by decide⟩, trivial, trivial⟩
  have hb : Safe (.obj [(lit "a", .bool true), (lit "b", .int 1)]) :=
    ⟨by decide, trivial, ⟨by decide, by decide⟩, trivial⟩
  have hu : Encodable (.obj [(lit "b", .int 1), (lit "a", .bool true)]) :=
    ⟨⟨isUnicode_of_lt (by decide), trivial⟩, ⟨isUnicode_of_lt (by decide), trivial⟩, trivial⟩
  obtain ⟨bytes, h⟩ := (canonicalize_injective ha (by decide)).1.mpr hu
  exact ⟨bytes, h, ((canonicalize_injective ha (by decide)).2 bytes h).1 _ hb⟩

end OpenVC.Jcs
