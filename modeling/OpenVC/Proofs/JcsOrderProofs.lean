import OpenVC.Jcs
import OpenVC.Proofs.JcsProofs
import OpenVC.Python.Proofs.JsonDumpsProofs

/-!
# Canonicalization is injective and blind to the order of members

A canonical text is the text of the ordered value, and is read back as it. Two values have one ordered
value exactly when they are equal up to the order of their members.
-/

namespace OpenVC.Jcs

open Python Json

/-! ## Code units -/

/-- The code units of one character. -/
def units (cp : Nat) : List Nat :=
  if 0xFFFF < cp then [0xD800 + (cp - 0x10000) / 1024, 0xDC00 + (cp - 0x10000) % 1024] else [cp]

theorem codeUnits_cons (c : Nat) (s : Str) : codeUnits (c :: s) = units c ++ codeUnits s := rfl

theorem units_append_inj {c c' : Nat} {r r' : List Nat} (hc : IsScalar c) (hc' : IsScalar c')
    (h : units c ++ r = units c' ++ r') : c = c' ∧ r = r' := by
  unfold IsScalar at hc hc'
  unfold units at h
  split at h <;> split at h <;> simp only [List.cons_append, List.nil_append, List.cons.injEq] at h
  · obtain ⟨h1, h2, rfl⟩ := h
    exact ⟨by omega, rfl⟩
  · omega
  · omega
  · exact h

theorem codeUnits_inj {s s' : Str} (hs : IsUnicode s) (hs' : IsUnicode s')
    (h : codeUnits s = codeUnits s') : s = s' := by
  have hne : ∀ c, units c ≠ [] := by
    intro c
    unfold units
    split <;> simp
  induction s generalizing s' with
  | nil =>
    cases s' with
    | nil => rfl
    | cons c' s' =>
      rw [codeUnits_cons] at h
      exact absurd (List.append_eq_nil_iff.mp h.symm).1 (hne c')
  | cons c s ih =>
    cases s' with
    | nil =>
      rw [codeUnits_cons] at h
      exact absurd (List.append_eq_nil_iff.mp h).1 (hne c)
    | cons c' s' =>
      rw [codeUnits_cons, codeUnits_cons] at h
      obtain ⟨rfl, hrest⟩ :=
        units_append_inj (hs c List.mem_cons_self) (hs' c' List.mem_cons_self) h
      rw [ih (fun x hx => hs x (List.mem_cons_of_mem _ hx))
        (fun x hx => hs' x (List.mem_cons_of_mem _ hx)) hrest]

/-! ## The ordered value -/

theorem mem_orderedMembers {m : List (Str × Json)} {k : Str} {w : Json} :
    (k, w) ∈ orderedMembers m ↔ ∃ v, (k, v) ∈ m ∧ w = ordered v := by
  induction m with
  | nil => simp [orderedMembers]
  | cons p m ih =>
    obtain ⟨k', v'⟩ := p
    rw [orderedMembers, List.mem_cons, ih]
    constructor
    · rintro (h | ⟨v, hv, rfl⟩)
      · cases h
        exact ⟨v', List.mem_cons_self, rfl⟩
      · exact ⟨v, List.mem_cons_of_mem _ hv, rfl⟩
    · rintro ⟨v, hv, rfl⟩
      rcases List.mem_cons.mp hv with h | h
      · cases h
        exact .inl rfl
      · exact .inr ⟨v, h, rfl⟩

@[simp] theorem map_fst_orderedMembers (m : List (Str × Json)) :
    (orderedMembers m).map Prod.fst = m.map Prod.fst := by
  induction m with
  | nil => rfl
  | cons p m ih =>
    obtain ⟨k, v⟩ := p
    rw [orderedMembers, List.map_cons, List.map_cons, ih]

theorem serializeMembers_eq_map (d : Nat) (m : List (Str × Json)) :
    serializeMembers d m = m.map fun p => (p.1, serialize d p.2) := by
  induction m with
  | nil => rfl
  | cons p m ih =>
    obtain ⟨k, v⟩ := p
    rw [serializeMembers, List.map_cons, ih]

theorem codeUnits_total (s t : Str) : codeUnits s ≤ codeUnits t ∨ codeUnits t ≤ codeUnits s :=
  le_total _ _

theorem codeUnits_trans {s t u : Str} (h : codeUnits s ≤ codeUnits t) (h' : codeUnits t ≤ codeUnits u) :
    codeUnits s ≤ codeUnits u :=
  le_trans h h'

instance : Std.Total nameLe := ⟨fun p q => codeUnits_total p.1 q.1⟩

instance : IsTrans (Str × Json) nameLe := ⟨fun _ _ _ h h' => codeUnits_trans h h'⟩

instance : Std.Total memberLe := ⟨fun p q => codeUnits_total p.1 q.1⟩

instance : IsTrans (Str × Result Str) memberLe := ⟨fun _ _ _ h h' => codeUnits_trans h h'⟩

theorem serializeMembers_insertionSort (d : Nat) (m : List (Str × Json)) :
    serializeMembers d (m.insertionSort nameLe) =
      (serializeMembers d m).insertionSort memberLe := by
  rw [serializeMembers_eq_map, serializeMembers_eq_map]
  exact List.map_insertionSort nameLe memberLe _ m fun _ _ _ _ => Iff.rfl

mutual

/-- The order of members is not seen. -/
theorem serialize_ordered : ∀ (v : Json) (d : Nat), serialize d (ordered v) = serialize d v
  | .null, _ | .bool _, _ | .int _, _ | .float _, _ | .str _, _ => rfl
  | .arr l, d => by
    unfold serialize
    simp only [ordered, serializeList_ordered l (d + 1)]
  | .obj m, d => by
    unfold serialize
    simp only [ordered, serializeMembers_insertionSort, serializeMembers_ordered m (d + 1),
      joinMembers, (List.pairwise_insertionSort memberLe _).insertionSort_eq]

theorem serializeList_ordered : ∀ (l : List Json) (d : Nat),
    serializeList d (orderedList l) = serializeList d l
  | [], _ => rfl
  | v :: t, d => by
    rw [orderedList, serializeList, serializeList, serialize_ordered v d, serializeList_ordered t d]

theorem serializeMembers_ordered : ∀ (m : List (Str × Json)) (d : Nat),
    serializeMembers d (orderedMembers m) = serializeMembers d m
  | [], _ => rfl
  | (k, v) :: t, d => by
    rw [orderedMembers, serializeMembers, serializeMembers, serialize_ordered v d,
      serializeMembers_ordered t d]

end

/-! ## Equality up to the order of members -/

theorem safeMembers_iff {m : Dict} : SafeMembers m ↔ ∀ p ∈ m, Safe p.2 := by
  induction m with
  | nil => simp [SafeMembers]
  | cons p m ih =>
    obtain ⟨k, v⟩ := p
    rw [SafeMembers, ih]
    simp

theorem encodableMembers_iff {m : Dict} :
    EncodableMembers m ↔ ∀ p ∈ m, IsUnicode p.1 ∧ Encodable p.2 := by
  induction m with
  | nil => simp [EncodableMembers]
  | cons p m ih =>
    obtain ⟨k, v⟩ := p
    rw [EncodableMembers, ih]
    simp

theorem insertionSort_eq_of_perm {m m' : List (Str × Json)} (hm : (m.map Prod.fst).Nodup)
    (hu : ∀ p ∈ m, IsUnicode p.1) (h : m.Perm m') :
    m.insertionSort nameLe = m'.insertionSort nameLe := by
  refine List.Perm.eq_of_pairwise ?_ (List.pairwise_insertionSort nameLe m)
    (List.pairwise_insertionSort nameLe m')
    ((List.perm_insertionSort nameLe m).trans (h.trans (List.perm_insertionSort nameLe m').symm))
  intro p q hp hq hle hge
  rw [List.mem_insertionSort] at hp hq
  have hq' : q ∈ m := h.mem_iff.mpr hq
  have hname : p.1 = q.1 := codeUnits_inj (hu p hp) (hu q hq') (le_antisymm hle hge)
  exact List.inj_on_of_nodup_map hm hp hq' hname

@[simp] theorem length_orderedMembers (m : List (Str × Json)) :
    (orderedMembers m).length = m.length := by
  rw [← List.length_map (f := Prod.fst), map_fst_orderedMembers, List.length_map]

theorem unicode_orderedMembers {m : Dict} (h : EncodableMembers m) :
    ∀ p ∈ orderedMembers m, IsUnicode p.1 := by
  rintro ⟨k, w⟩ hp
  obtain ⟨v, hv, -⟩ := mem_orderedMembers.mp hp
  exact (encodableMembers_iff.mp h _ hv).1

mutual

/-- Equal values have one ordered value. -/
theorem ordered_eq_of_same : ∀ (a b : Json), Safe a → Safe b → Encodable a → Same a b →
    ordered a = ordered b
  | .null, b, _, _, _, h => by
    cases b <;> first | rfl | cases h
  | .bool x, b, _, _, _, h => by
    cases b <;> first | (cases h; rfl) | cases h
  | .int x, b, _, _, _, h => by
    cases b <;> first | (cases h; rfl) | cases h
  | .float x, b, ha, _, _, _ => by cases ha
  | .str x, b, _, _, _, h => by
    cases b <;> first | (cases h; rfl) | cases h
  | .arr l, b, ha, hb, hu, h => by
    cases b with
    | arr l' =>
      rw [ordered, ordered, orderedList_eq_of_same l l' ha hb hu h]
    | _ => cases h
  | .obj m, b, ha, hb, hu, h => by
    cases b with
    | obj m' =>
      have hmem := orderedMembers_eq_of_same m m' ha.2 hb.2 hu h.2
      have hnodup : ((orderedMembers m).map Prod.fst).Nodup := by
        rw [map_fst_orderedMembers]
        exact ha.1
      have hlen : (orderedMembers m').length ≤ (orderedMembers m).length := by
        rw [length_orderedMembers, length_orderedMembers]
        exact h.1.ge
      have hperm : (orderedMembers m).Perm (orderedMembers m') :=
        (List.subperm_of_subset (List.Nodup.of_map _ hnodup) hmem).perm_of_length_le hlen
      rw [ordered, ordered, insertionSort_eq_of_perm hnodup (unicode_orderedMembers hu) hperm]
    | _ => cases h

theorem orderedList_eq_of_same : ∀ (l l' : List Json), SafeList l → SafeList l' →
    EncodableList l → SameList l l' → orderedList l = orderedList l'
  | [], [], _, _, _, _ => rfl
  | [], _ :: _, _, _, _, h => by cases h
  | _ :: _, [], _, _, _, h => by cases h
  | v :: t, w :: t', hl, hl', hu, h => by
    rw [orderedList, orderedList, ordered_eq_of_same v w hl.1 hl'.1 hu.1 h.1,
      orderedList_eq_of_same t t' hl.2 hl'.2 hu.2 h.2]

theorem orderedMembers_eq_of_same : ∀ (m : List (Str × Json)) (m' : Dict), SafeMembers m →
    SafeMembers m' → EncodableMembers m → SameMembers m m' →
    ∀ p ∈ orderedMembers m, p ∈ orderedMembers m'
  | [], _, _, _, _, _ => by simp [orderedMembers]
  | (k, v) :: t, m', hm, hm', hu, h => by
    obtain ⟨⟨w, hw, hvw⟩, hrest⟩ := h
    have hmem := Dict.mem_of_get?_eq_some hw
    intro p hp
    rcases List.mem_cons.mp hp with rfl | hp
    · rw [mem_orderedMembers]
      exact ⟨w, hmem, ordered_eq_of_same v w hm.1 (safeMembers_iff.mp hm' _ hmem) hu.1.2 hvw⟩
    · exact orderedMembers_eq_of_same t m' hm.2 hm' hu.2 hrest p hp

end

mutual

/-- Values with one ordered value are equal. -/
theorem same_of_ordered_eq : ∀ (a b : Json), Safe a → Safe b → ordered a = ordered b → Same a b
  | .null, b, _, _, h => by
    cases b
    · trivial
    all_goals cases h
  | .bool x, b, _, _, h => by
    cases b <;> first | (cases h; rfl) | cases h
  | .int x, b, _, _, h => by
    cases b <;> first | (cases h; rfl) | cases h
  | .float x, b, ha, _, _ => by cases ha
  | .str x, b, _, _, h => by
    cases b <;> first | (cases h; rfl) | cases h
  | .arr l, b, ha, hb, h => by
    cases b with
    | arr l' =>
      rw [ordered, ordered, Json.arr.injEq] at h
      exact sameList_of_ordered_eq l l' ha hb h
    | _ => cases h
  | .obj m, b, ha, hb, h => by
    cases b with
    | obj m' =>
      rw [ordered, ordered, Json.obj.injEq] at h
      have hlen := congrArg List.length h
      rw [List.length_insertionSort, List.length_insertionSort, length_orderedMembers,
        length_orderedMembers] at hlen
      refine ⟨hlen, sameMembers_of_ordered m m' ha.2 hb fun p hp => ?_⟩
      rw [← List.mem_insertionSort nameLe, ← h, List.mem_insertionSort]
      exact hp
    | _ => cases h

theorem sameList_of_ordered_eq : ∀ (l l' : List Json), SafeList l → SafeList l' →
    orderedList l = orderedList l' → SameList l l'
  | [], [], _, _, _ => trivial
  | [], _ :: _, _, _, h => by cases h
  | _ :: _, [], _, _, h => by cases h
  | v :: t, w :: t', hl, hl', h => by
    rw [orderedList, orderedList, List.cons.injEq] at h
    exact ⟨same_of_ordered_eq v w hl.1 hl'.1 h.1, sameList_of_ordered_eq t t' hl.2 hl'.2 h.2⟩

theorem sameMembers_of_ordered : ∀ (m : List (Str × Json)) (m' : Dict), SafeMembers m →
    Safe (.obj m') → (∀ p ∈ orderedMembers m, p ∈ orderedMembers m') → SameMembers m m'
  | [], _, _, _, _ => trivial
  | (k, v) :: t, m', hm, hm', h => by
    obtain ⟨w, hw, hvw⟩ := mem_orderedMembers.mp (h (k, ordered v) List.mem_cons_self)
    refine ⟨⟨w, Dict.get?_of_mem hm'.1 hw, ?_⟩, sameMembers_of_ordered t m' hm.2 hm' fun p hp =>
      h p (List.mem_cons_of_mem _ hp)⟩
    exact same_of_ordered_eq v w hm.1 (safeMembers_iff.mp hm'.2 _ hw) hvw

end

mutual

/-- The ordered value is equal to the value. -/
theorem same_ordered : ∀ (a : Json), Safe a → Same a (ordered a)
  | .null, _ => trivial
  | .bool _, _ => rfl
  | .int _, _ => rfl
  | .float _, ha => by cases ha
  | .str _, _ => rfl
  | .arr l, ha => sameList_ordered l ha
  | .obj m, ha => by
    refine ⟨?_, sameMembers_ordered m _ ha.2 ?_ fun p hp => ?_⟩
    · rw [List.length_insertionSort, length_orderedMembers]
    · have hperm := (List.perm_insertionSort nameLe (orderedMembers m)).map Prod.fst
      rw [Dict.keys, hperm.nodup_iff, map_fst_orderedMembers]
      exact ha.1
    · exact (List.mem_insertionSort nameLe).mpr hp

theorem sameList_ordered : ∀ (l : List Json), SafeList l → SameList l (orderedList l)
  | [], _ => trivial
  | v :: t, hl => ⟨same_ordered v hl.1, sameList_ordered t hl.2⟩

theorem sameMembers_ordered : ∀ (m : List (Str × Json)) (m' : Dict), SafeMembers m →
    m'.keys.Nodup → (∀ p ∈ orderedMembers m, p ∈ m') → SameMembers m m'
  | [], _, _, _, _ => trivial
  | (_, v) :: t, m', hm, hm', h =>
    ⟨⟨ordered v, Dict.get?_of_mem hm' (h _ List.mem_cons_self), same_ordered v hm.1⟩,
      sameMembers_ordered t m' hm.2 hm' fun p hp => h p (List.mem_cons_of_mem _ hp)⟩

end

theorem inOrderMembers_iff {m : Dict} : InOrderMembers m ↔ ∀ p ∈ m, InOrder p.2 := by
  induction m with
  | nil => simp [InOrderMembers]
  | cons p m ih =>
    obtain ⟨k, v⟩ := p
    rw [InOrderMembers, ih]
    simp

mutual

/-- The ordered value is in order. -/
theorem inOrder_ordered : ∀ (a : Json), Safe a → Encodable a → InOrder (ordered a)
  | .null, _, _ | .bool _, _, _ | .int _, _, _ | .float _, _, _ | .str _, _, _ => trivial
  | .arr l, ha, hu => inOrderList_ordered l ha hu
  | .obj m, ha, hu => by
    have hperm := List.perm_insertionSort nameLe (orderedMembers m)
    have hnodup : (((orderedMembers m).insertionSort nameLe).map Prod.fst).Nodup := by
      rw [(hperm.map Prod.fst).nodup_iff, map_fst_orderedMembers]
      exact ha.1
    have hunicode : ∀ p ∈ (orderedMembers m).insertionSort nameLe, IsUnicode p.1 :=
      fun p hp => unicode_orderedMembers hu p (hperm.mem_iff.mp hp)
    constructor
    · rw [List.pairwise_map]
      rw [List.Nodup, List.pairwise_map] at hnodup
      refine ((List.pairwise_insertionSort nameLe (orderedMembers m)).and hnodup).imp_of_mem ?_
      rintro p q hp hq ⟨hle, hne⟩
      by_contra hge
      exact hne (codeUnits_inj (hunicode p hp) (hunicode q hq) (le_antisymm hle (not_lt.mp hge)))
    · rw [inOrderMembers_iff]
      intro p hp
      exact inOrderMembers_iff.mp (inOrderMembers_ordered m ha.2 hu) p (hperm.mem_iff.mp hp)

theorem inOrderList_ordered : ∀ (l : List Json), SafeList l → EncodableList l →
    InOrderList (orderedList l)
  | [], _, _ => trivial
  | v :: t, hl, hu => ⟨inOrder_ordered v hl.1 hu.1, inOrderList_ordered t hl.2 hu.2⟩

theorem inOrderMembers_ordered : ∀ (m : List (Str × Json)), SafeMembers m → EncodableMembers m →
    InOrderMembers (orderedMembers m)
  | [], _, _ => trivial
  | (_, v) :: t, hm, hu => ⟨inOrder_ordered v hm.1 hu.1.2, inOrderMembers_ordered t hm.2 hu.2⟩

end

end OpenVC.Jcs
