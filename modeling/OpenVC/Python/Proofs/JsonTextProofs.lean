import OpenVC.Python.JsonText
import OpenVC.Python.Proofs.JsonDumpsProofs

/-!
# The text of a value is read back as the value

So two values with one text are the same, up to the order of the members that the encoder sorts.
-/

namespace Python.JsonText

open Str JsonDumps JsonLoads

/-! ## Strings -/

theorem scanString_escapeChar {c : Nat} (t : Str) :
    scanString (escapeChar c ++ t) = push c (scanString t) := by
  by_cases h1 : c = 34
  · subst h1
    exact scanString_short (by decide) rfl
  by_cases h2 : c = 92
  · subst h2
    exact scanString_short (by decide) rfl
  by_cases h3 : c = 10
  · subst h3
    exact scanString_short (by decide) rfl
  by_cases h4 : c = 13
  · subst h4
    exact scanString_short (by decide) rfl
  by_cases h5 : c = 9
  · subst h5
    exact scanString_short (by decide) rfl
  by_cases h6 : c = 12
  · subst h6
    exact scanString_short (by decide) rfl
  by_cases h7 : c = 8
  · subst h7
    exact scanString_short (by decide) rfl
  rw [escapeChar, if_neg h1, if_neg h2, if_neg h3, if_neg h4, if_neg h5, if_neg h6, if_neg h7]
  by_cases h8 : c < 32
  · have hhigh : isHigh c = false := by
      simp only [isHigh, Bool.and_eq_false_iff, decide_eq_false_iff_not]
      omega
    rw [if_pos h8, scanString_unit (by omega) (.inl hhigh)]
  · rw [if_neg h8]
    exact scanString_plain h1 h2 (by omega)

theorem stringReadsAs_textOfStr (s : Str) : StringReadsAs (textOfStr s) s := by
  refine ⟨_, rfl, fun t => ?_⟩
  rw [List.append_assoc, List.singleton_append]
  induction s with
  | nil => rw [List.flatMap_nil, List.nil_append, scanString]
  | cons c s ih =>
    rw [List.flatMap_cons, List.append_assoc, scanString_escapeChar, ih]
    rfl

/-! ## Separators -/

theorem skipWs_space {c : Nat} {t : Str} (h : isWs c = false) : skipWs (32 :: c :: t) = c :: t := by
  rw [skipWs, List.dropWhile_cons_of_pos rfl, List.dropWhile_cons_of_neg (by simp [h])]

theorem tailReadsAs_cons {first rest : Str} {w : Json} {l : List Json}
    (hhead : ∃ c t, first = c :: t ∧ isWs c = false) (hw : ReadsAs first w)
    (hl : TailReadsAs rest l) : TailReadsAs (44 :: 32 :: (first ++ rest)) (w :: l) := by
  refine ⟨⟨44, _, rfl, .inl rfl⟩, fun a v _ ha n r hn => ?_⟩
  obtain ⟨m, rfl⟩ : ∃ m, n = m + 1 := ⟨n - 1, by omega⟩
  simp only [List.length_cons, List.length_append] at hn
  have hfirst := ha m (44 :: 32 :: (first ++ rest) ++ r) (by omega) (ends_tail ⟨44, _, rfl, .inl rfl⟩)
  obtain ⟨c, t, hc, hws⟩ := hhead
  have hnext := hl.2 first w ⟨c, t, hc⟩ hw m r (by omega)
  have hskip : skipWs (32 :: (first ++ (rest ++ r))) = first ++ (rest ++ r) := by
    rw [hc, List.cons_append, skipWs_space hws]
  rw [scanElements, hfirst]
  simp only [List.cons_append, skipWs_of_head (show isWs 44 = false from rfl), List.append_assoc,
    hskip, hnext, Option.map_some]

/-- The members that follow `b` in an object. -/
def MembersReadAs (b : Str) (l : List (Str × Json)) : Prop :=
  (∃ c t, b = c :: t ∧ (c = 44 ∨ c = 125)) ∧
  ∀ q k a v, StringReadsAs q k → (∃ c t, a = c :: t ∧ isWs c = false) → ReadsAs a v → ∀ n r,
    a.length + b.length < n →
    scanMembers n (q ++ 58 :: 32 :: (a ++ (b ++ r))) = some ((k, v) :: l, r)

/-- The name and the value of a member, up to what follows the value. -/
theorem scanMembers_eq {q k a b : Str} {v : Json} {n : Nat} {r : Str} (hk : StringReadsAs q k)
    (hhead : ∃ c t, a = c :: t ∧ isWs c = false) (ha : ReadsAs a v) (hn : a.length < n)
    (hr : Ends (b ++ r)) :
    scanMembers (n + 1) (q ++ 58 :: 32 :: (a ++ (b ++ r))) =
      match skipWs (b ++ r) with
      | 125 :: r => some ([(k, v)], r)
      | 44 :: r => (scanMembers n (skipWs r)).map fun p => ((k, v) :: p.1, p.2)
      | _ => none := by
  obtain ⟨c, t, hc, hws⟩ := hhead
  have hskip : skipWs (32 :: (a ++ (b ++ r))) = a ++ (b ++ r) := by
    rw [hc, List.cons_append, skipWs_space hws]
  obtain ⟨body, rfl, hscan⟩ := hk
  have hname := hscan (58 :: 32 :: (a ++ (b ++ r)))
  have hcolon : skipWs (58 :: 32 :: (a ++ (b ++ r))) = 58 :: 32 :: (a ++ (b ++ r)) :=
    skipWs_of_head rfl
  have hvalue := ha n (b ++ r) hn hr
  rw [List.cons_append, scanMembers, hname]
  simp only [hcolon, hskip, hvalue]
  try rfl

theorem membersReadAs_nil : MembersReadAs [125] [] := by
  refine ⟨⟨125, [], rfl, .inr rfl⟩, fun q k a v hk hhead ha n r hn => ?_⟩
  obtain ⟨m, rfl⟩ : ∃ m, n = m + 1 := ⟨n - 1, by omega⟩
  have hm : a.length < m := by
    rw [List.length_singleton] at hn
    omega
  rw [scanMembers_eq hk hhead ha hm (ends_memberTail ⟨125, [], rfl, .inr rfl⟩)]
  rfl

theorem membersReadAs_cons {q' k' first rest : Str} {w : Json} {l : List (Str × Json)}
    (hk' : StringReadsAs q' k') (hhead : ∃ c t, first = c :: t ∧ isWs c = false)
    (hw : ReadsAs first w) (hl : MembersReadAs rest l) :
    MembersReadAs (44 :: 32 :: (q' ++ 58 :: 32 :: (first ++ rest))) ((k', w) :: l) := by
  refine ⟨⟨44, _, rfl, .inl rfl⟩, fun q k a v hk hhead' ha n r hn => ?_⟩
  obtain ⟨m, rfl⟩ : ∃ m, n = m + 1 := ⟨n - 1, by omega⟩
  simp only [List.length_cons, List.length_append] at hn
  have hnext := hl.2 q' k' first w hk' hhead hw m r (by omega)
  have hskip : skipWs (32 :: (q' ++ 58 :: 32 :: (first ++ (rest ++ r)))) =
      q' ++ 58 :: 32 :: (first ++ (rest ++ r)) := by
    obtain ⟨body, rfl, -⟩ := hk'
    rw [List.cons_append, skipWs_space rfl]
  rw [scanMembers_eq hk hhead' ha (by omega) (ends_memberTail ⟨44, _, rfl, .inl rfl⟩)]
  simp only [List.cons_append, skipWs_of_head (show isWs 44 = false from rfl), List.append_assoc,
    hskip, hnext, Option.map_some]

theorem readsAs_obj {q k first rest : Str} {v : Json} {l : List (Str × Json)}
    (hk : StringReadsAs q k) (hhead : ∃ c t, first = c :: t ∧ isWs c = false)
    (hv : ReadsAs first v) (hl : MembersReadAs rest l) :
    ReadsAs (123 :: (q ++ 58 :: 32 :: (first ++ rest))) (.obj (Dict.ofPairs ((k, v) :: l))) := by
  intro n r hn hr
  obtain ⟨m, rfl⟩ : ∃ m, n = m + 1 := ⟨n - 1, by omega⟩
  simp only [List.length_cons, List.length_append] at hn
  have hscan := hl.2 q k first v hk hhead hv m r (by omega)
  obtain ⟨body, rfl, -⟩ := hk
  have hskip : skipWs (34 :: body ++ 58 :: 32 :: (first ++ (rest ++ r))) =
      34 :: body ++ 58 :: 32 :: (first ++ (rest ++ r)) := by
    rw [List.cons_append, skipWs_of_head rfl]
  have happ : 34 :: body ++ 58 :: 32 :: (first ++ rest) ++ r =
      34 :: body ++ 58 :: 32 :: (first ++ (rest ++ r)) := by
    simp
  rw [List.cons_append, happ, scanValue, hskip]
  split
  · rename_i heq
    cases heq
  · rw [hscan]
    rfl

/-! ## Values -/

theorem text_head {v : Json} {s : Str} (hv : Representable v) (h : text v = some s) :
    ∃ c t, s = c :: t ∧ isWs c = false ∧ c ≠ 93 ∧ c ≠ 125 := by
  cases v with
  | null => cases h; exact ⟨110, _, rfl, by decide⟩
  | bool b => cases b <;> cases h <;> exact ⟨_, _, rfl, by decide⟩
  | int n => exact dumps_head (v := .int n) trivial h
  | float f =>
    unfold text textOfFloat at h
    split at h
    · exact dumps_head (v := .float f) hv h
    · cases h
  | str s => cases h; exact ⟨34, _, rfl, by decide⟩
  | arr l =>
    cases l with
    | nil => cases h; exact ⟨91, _, rfl, by decide⟩
    | cons v t =>
      simp only [text, Option.bind_eq_bind, Option.bind_eq_some_iff, Option.pure_def,
        Option.some.injEq] at h
      obtain ⟨-, -, -, -, rfl⟩ := h
      exact ⟨91, _, rfl, by decide⟩
  | obj m =>
    cases m with
    | nil => cases h; exact ⟨123, _, rfl, by decide⟩
    | cons p t =>
      simp only [text, Option.bind_eq_bind, Option.bind_eq_some_iff, Option.pure_def,
        Option.some.injEq] at h
      obtain ⟨-, -, -, -, rfl⟩ := h
      exact ⟨123, _, rfl, by decide⟩

mutual

theorem readsAs_text : ∀ {v : Json} {s : Str}, Representable v → v.WF → text v = some s → ReadsAs s v
  | .null, _, _, _, h => readsAs_dumps (v := .null) trivial h
  | .bool b, _, _, _, h => readsAs_dumps (v := .bool b) trivial h
  | .int n, _, _, _, h => readsAs_dumps (v := .int n) trivial h
  | .float f, _, hv, _, h => by
    unfold text textOfFloat at h
    split at h
    · exact readsAs_dumps (v := .float f) hv h
    · cases h
  | .str s, _, _, _, h => by
    cases h
    exact (stringReadsAs_textOfStr s).readsAs
  | .arr [], _, _, _, h => readsAs_dumps (v := .arr []) trivial h
  | .arr (v :: t), _, hv, hwf, h => by
    simp only [text, Option.bind_eq_bind, Option.bind_eq_some_iff, Option.pure_def,
      Option.some.injEq] at h
    obtain ⟨first, hfirst, rest, hrest, rfl⟩ := h
    obtain ⟨c, t', hc, hws, h93, -⟩ := text_head hv.1 hfirst
    exact readsAs_arr ⟨c, t', hc, hws, h93⟩ (readsAs_text hv.1 hwf.1 hfirst)
      (tailReadsAs_text hv.2 hwf.2 hrest)
  | .obj [], _, _, _, h => readsAs_dumps (v := .obj []) trivial h
  | .obj ((k, v) :: t), _, hv, hwf, h => by
    simp only [text, Option.bind_eq_bind, Option.bind_eq_some_iff, Option.pure_def,
      Option.some.injEq] at h
    obtain ⟨first, hfirst, rest, hrest, rfl⟩ := h
    obtain ⟨c, t', hc, hws, -⟩ := text_head hv.1.2 hfirst
    have hread := readsAs_obj (stringReadsAs_textOfStr k) ⟨c, t', hc, hws⟩
      (readsAs_text hv.1.2 hwf.2.1 hfirst) (membersReadAs_text hv.2 hwf.2.2 hrest)
    rw [ofPairs_eq_self hwf.1] at hread
    exact hread

theorem tailReadsAs_text : ∀ {l : List Json} {b : Str}, RepresentableList l → Json.WFList l →
    textElements l = some b → TailReadsAs b l
  | [], _, _, _, h => by
    cases h
    exact tailReadsAs_nil
  | v :: t, _, hl, hwf, h => by
    simp only [textElements, Option.bind_eq_bind, Option.bind_eq_some_iff, Option.pure_def,
      Option.some.injEq] at h
    obtain ⟨first, hfirst, rest, hrest, rfl⟩ := h
    obtain ⟨c, t', hc, hws, -⟩ := text_head hl.1 hfirst
    exact tailReadsAs_cons ⟨c, t', hc, hws⟩ (readsAs_text hl.1 hwf.1 hfirst)
      (tailReadsAs_text hl.2 hwf.2 hrest)

theorem membersReadAs_text : ∀ {m : List (Str × Json)} {b : Str}, RepresentableMembers m →
    Json.WFMembers m → textMembers m = some b → MembersReadAs b m
  | [], _, _, _, h => by
    cases h
    exact membersReadAs_nil
  | (k, v) :: t, _, hm, hwf, h => by
    simp only [textMembers, Option.bind_eq_bind, Option.bind_eq_some_iff, Option.pure_def,
      Option.some.injEq] at h
    obtain ⟨first, hfirst, rest, hrest, rfl⟩ := h
    obtain ⟨c, t', hc, hws, -⟩ := text_head hm.1.2 hfirst
    exact membersReadAs_cons (stringReadsAs_textOfStr k) ⟨c, t', hc, hws⟩
      (readsAs_text hm.1.2 hwf.1 hfirst) (membersReadAs_text hm.2 hwf.2 hrest)

end

theorem text_inj {v w : Json} {s : Str} (hv : Representable v) (hw : Representable w) (hvf : v.WF)
    (hwf : w.WF) (h : text v = some s) (h' : text w = some s) : v = w := by
  have hends : Ends [] := fun c t e => by cases e
  have hread := readsAs_text hv hvf h (s.length + 1) [] (by omega) hends
  rw [readsAs_text hw hwf h' (s.length + 1) [] (by omega) hends] at hread
  exact (Prod.mk.inj (Option.some.inj hread)).1.symm

/-! ## A value has a text when its parts have -/

theorem isSome_textElements {l : List Json} :
    (textElements l).isSome ↔ ∀ v ∈ l, (text v).isSome := by
  induction l with
  | nil => exact iff_of_true rfl nofun
  | cons v l ih =>
    rw [List.forall_mem_cons, ← ih, textElements]
    cases text v <;> cases textElements l <;> simp

theorem isSome_textMembers {m : List (Str × Json)} :
    (textMembers m).isSome ↔ ∀ p ∈ m, (text p.2).isSome := by
  induction m with
  | nil => exact iff_of_true rfl nofun
  | cons p m ih =>
    rw [List.forall_mem_cons, ← ih, textMembers]
    cases text p.2 <;> cases textMembers m <;> simp

theorem isSome_text_arr {l : List Json} : (text (.arr l)).isSome ↔ ∀ v ∈ l, (text v).isSome := by
  cases l with
  | nil => exact iff_of_true rfl nofun
  | cons v l =>
    rw [List.forall_mem_cons, ← isSome_textElements, text]
    cases text v <;> cases textElements l <;> simp

theorem isSome_text_obj {m : List (Str × Json)} :
    (text (.obj m)).isSome ↔ ∀ p ∈ m, (text p.2).isSome := by
  cases m with
  | nil => exact iff_of_true rfl nofun
  | cons p m =>
    rw [List.forall_mem_cons, ← isSome_textMembers, text]
    cases text p.2 <;> cases textMembers m <;> simp

/-! ## Sorting keeps a value well formed -/

theorem sortedMembers_eq_map (m : List (Str × Json)) :
    sortedMembers m = m.map fun p => (p.1, sorted p.2) := by
  induction m with
  | nil => rfl
  | cons p m ih => rw [sortedMembers, ih, List.map_cons]

theorem sortedList_eq_map (l : List Json) : sortedList l = l.map sorted := by
  induction l with
  | nil => rfl
  | cons v l ih => rw [sortedList, ih, List.map_cons]

mutual

theorem isSome_text_sorted : ∀ v : Json, (text (sorted v)).isSome ↔ (text v).isSome
  | .null | .bool _ | .int _ | .float _ | .str _ => Iff.rfl
  | .arr l => by
    rw [sorted, isSome_text_arr, isSome_text_arr, sortedList_eq_map, List.forall_mem_map]
    exact forall₂_congr (isSome_text_sortedList l)
  | .obj m => by
    rw [sorted, isSome_text_obj, isSome_text_obj]
    simp only [List.mem_insertionSort, sortedMembers_eq_map, List.forall_mem_map]
    exact forall₂_congr (isSome_text_sortedMembers m)

theorem isSome_text_sortedList : ∀ (l : List Json), ∀ v ∈ l,
    (text (sorted v)).isSome ↔ (text v).isSome
  | [], _, hv => nomatch hv
  | x :: t, v, hv => by
    have hx := isSome_text_sorted x
    rcases List.mem_cons.mp hv with heq | hv
    · rw [heq]
      exact hx
    · exact isSome_text_sortedList t v hv

theorem isSome_text_sortedMembers : ∀ (m : List (Str × Json)), ∀ p ∈ m,
    (text (sorted p.2)).isSome ↔ (text p.2).isSome
  | [], _, hp => nomatch hp
  | (k, v) :: t, p, hp => by
    have hv := isSome_text_sorted v
    rcases List.mem_cons.mp hp with heq | hp
    · rw [heq]
      exact hv
    · exact isSome_text_sortedMembers t p hp

end

mutual

theorem representable_sorted : ∀ {v : Json}, Representable v → Representable (sorted v)
  | .null, h | .bool _, h | .int _, h | .float _, h | .str _, h => h
  | .arr l, h => representableList_sorted (l := l) h
  | .obj m, h => by
    rw [sorted, Representable, representableMembers_iff]
    intro p hp
    rw [List.mem_insertionSort] at hp
    exact representableMembers_iff.mp (representableMembers_sorted (m := m) h) p hp

theorem representableList_sorted : ∀ {l : List Json}, RepresentableList l →
    RepresentableList (sortedList l)
  | [], _ => trivial
  | _ :: _, h => ⟨representable_sorted h.1, representableList_sorted h.2⟩

theorem representableMembers_sorted : ∀ {m : List (Str × Json)}, RepresentableMembers m →
    RepresentableMembers (sortedMembers m)
  | [], _ => trivial
  | (_, _) :: _, h => ⟨⟨h.1.1, representable_sorted h.1.2⟩, representableMembers_sorted h.2⟩

end

mutual

theorem wf_sorted : ∀ {v : Json}, v.WF → (sorted v).WF
  | .null, h | .bool _, h | .int _, h | .float _, h | .str _, h => h
  | .arr l, h => wfList_sorted (l := l) h
  | .obj m, h => by
    have hperm := List.perm_insertionSort keyLe (sortedMembers m)
    refine ⟨?_, ?_⟩
    · rw [(hperm.map Prod.fst).nodup_iff, sortedMembers_eq_map, List.map_map]
      exact h.1
    · rw [Json.wfMembers_iff]
      intro p hp
      rw [hperm.mem_iff] at hp
      exact Json.wfMembers_iff.mp (wfMembers_sorted (m := m) h.2) p hp

theorem wfList_sorted : ∀ {l : List Json}, Json.WFList l → Json.WFList (sortedList l)
  | [], _ => trivial
  | _ :: _, h => ⟨wf_sorted h.1, wfList_sorted h.2⟩

theorem wfMembers_sorted : ∀ {m : List (Str × Json)}, Json.WFMembers m →
    Json.WFMembers (sortedMembers m)
  | [], _ => trivial
  | (_, _) :: _, h => ⟨wf_sorted h.1, wfMembers_sorted h.2⟩

end

/-- Values with one sorted text are the same up to the order of their members. -/
theorem sortedText_inj {v w : Json} {s : Str} (hv : Representable v) (hw : Representable w)
    (hvf : v.WF) (hwf : w.WF) (h : sortedText v = some s) (h' : sortedText w = some s) :
    sorted v = sorted w :=
  text_inj (representable_sorted hv) (representable_sorted hw) (wf_sorted hvf) (wf_sorted hwf) h h'

end Python.JsonText
