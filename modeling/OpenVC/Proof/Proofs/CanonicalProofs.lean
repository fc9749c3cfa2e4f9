import OpenVC.Proof.ContextValidation
import OpenVC.Python.Proofs.JsonTextProofs

/-!
# Values with one canonical text are spellings of each other

Every value says the same as its sorted normal form, and the text determines that form.
-/

namespace OpenVC.ContextValidation

open Python JsonText JsonDumps

variable {e : Bool} {x y v w : Json} {l l' : List Json} {m m' : List (Str × Json)}

/-! ## Closure under contexts -/

theorem SaysTheSame.trans (h : SaysTheSame e x y) (h' : SaysTheSame e y v) : SaysTheSame e x v :=
  Relation.EqvGen.trans _ _ _ h h'

theorem SaysTheSame.symm (h : SaysTheSame e x y) : SaysTheSame e y x := Relation.EqvGen.symm _ _ h

theorem SaysTheSame.refl (v : Json) : SaysTheSame e v v := Relation.EqvGen.refl v

theorem SaysTheSame.inArray (before after : List Json) (h : SaysTheSame true x y) :
    SaysTheSame e (.arr (before ++ x :: after)) (.arr (before ++ y :: after)) := by
  induction h with
  | rel x y h => exact .rel _ _ (.inArray e before after h)
  | refl x => exact .refl _
  | symm x y _ ih => exact ih.symm
  | trans x y z _ _ ih ih' => exact ih.trans ih'

theorem SaysTheSame.inObject {k : Str} (before after : List (Str × Json))
    (hk : k = "id" → before ++ after ≠ []) (h : SaysTheSame false x y) :
    SaysTheSame e (.obj (before ++ (k, x) :: after)) (.obj (before ++ (k, y) :: after)) := by
  induction h with
  | rel x y h => exact .rel _ _ (.inObject e before after hk h)
  | refl x => exact .refl _
  | symm x y _ ih => exact ih.symm
  | trans x y z _ _ ih ih' => exact ih.trans ih'

theorem saysTheSame_arr (h : List.Forall₂ (SaysTheSame true) l l') : SaysTheSame e (.arr l) (.arr l') := by
  have hall : ∀ before, SaysTheSame e (.arr (before ++ l)) (.arr (before ++ l')) := by
    induction h with
    | nil => exact fun before => .refl _
    | @cons x y l l' hxy _ ih =>
      intro before
      have hrest := ih (before ++ [y])
      rw [List.append_assoc, List.append_assoc] at hrest
      exact (hxy.inArray before l).trans hrest
  exact hall []

/-- Objects whose values say the same, name by name, say the same, unless they are references. -/
theorem saysTheSame_obj (hm : ∀ x, m ≠ [(lit "id", x)])
    (h : List.Forall₂ (fun p q => p.1 = q.1 ∧ SaysTheSame false p.2 q.2) m m') :
    SaysTheSame e (.obj m) (.obj m') := by
  have hall : ∀ before, (∀ x, before ++ m ≠ [(lit "id", x)]) →
      SaysTheSame e (.obj (before ++ m)) (.obj (before ++ m')) := by
    clear hm
    induction h with
    | nil => exact fun before _ => .refl _
    | @cons p q m m' hpq _ ih =>
      obtain ⟨k, x⟩ := p
      obtain ⟨k', y⟩ := q
      obtain ⟨rfl, hxy⟩ := hpq
      intro before hm
      have hk : k = "id" → before ++ m ≠ [] := by
        rintro rfl hnil
        obtain ⟨rfl, rfl⟩ := List.append_eq_nil_iff.mp hnil
        exact hm x rfl
      have hrest := ih (before ++ [(k, y)]) fun z hz => by
        rw [List.append_assoc, List.singleton_append] at hz
        cases before with
        | nil =>
          obtain ⟨hky, rfl⟩ := List.cons.inj hz
          exact hk (Prod.mk.inj hky).1 rfl
        | cons b before => simp at hz
      rw [List.append_assoc, List.append_assoc] at hrest
      exact (hxy.inObject before m hk).trans hrest
  exact hall [] hm

/-! ## Normal forms -/

theorem normalizeList_eq_map (l : List Json) : normalizeList l = l.map (normalize true) := by
  induction l with
  | nil => rfl
  | cons v l ih => rw [normalizeList, ih, List.map_cons]

theorem normalizeMembers_eq_map (m : List (Str × Json)) :
    normalizeMembers m = m.map fun p => (p.1, normalize false p.2) := by
  induction m with
  | nil => rfl
  | cons p m ih => rw [normalizeMembers, ih, List.map_cons]

theorem normalize_reference (e : Bool) (v : Json) :
    normalize e (.obj [(lit "id", v)]) = normalize e v := by
  rw [normalize, if_pos rfl]

theorem normalize_obj (e : Bool) (hm : ∀ x, m ≠ [(lit "id", x)]) :
    normalize e (.obj m) = .obj (normalizeMembers m) := by
  cases m with
  | nil => rfl
  | cons p m =>
    obtain ⟨k, v⟩ := p
    cases m with
    | nil =>
      have hk : k ≠ "id" := fun hk => hm v (by rw [hk])
      rw [normalize, if_neg hk]
      rfl
    | cons q m => rfl

theorem normalize_element (l : List Json) : normalize true (.arr l) = .arr (l.map (normalize true)) := by
  rw [normalize, normalizeList_eq_map]
  cases l with
  | nil => rfl
  | cons v l => cases l <;> rfl

theorem normalize_arr (e : Bool) (l : List Json) :
    normalize e (.arr l) = .arr (l.map (normalize true)) ∨
      e = false ∧ ∃ x, l = [x] ∧ (∀ t, x ≠ .arr t) ∧ normalize e (.arr l) = normalize true x := by
  rw [normalize, normalizeList_eq_map]
  cases l with
  | nil => exact .inl rfl
  | cons x l =>
    cases l with
    | cons y l => exact .inl rfl
    | nil =>
      have hfold : foldArray e [x] ([x].map (normalize true)) =
          if !e && !startsWithArray [x] then normalize true x else .arr [normalize true x] := rfl
      rw [hfold]
      cases e with
      | true => exact .inl rfl
      | false =>
        by_cases hx : startsWithArray [x] = true
        · rw [hx]
          exact .inl rfl
        · refine .inr ⟨rfl, x, rfl, fun t ht => hx (by rw [ht]; rfl), ?_⟩
          rw [Bool.eq_false_of_not_eq_true hx]
          rfl

theorem sorted_arr (l : List Json) : sorted (.arr l) = .arr (l.map sorted) := by
  rw [sorted, sortedList_eq_map]

theorem eq_arr_of_sorted {t : List Json} (h : sorted v = .arr t) : ∃ l, v = .arr l := by
  cases v with
  | arr l => exact ⟨l, rfl⟩
  | obj m =>
    rw [sorted] at h
    cases h
  | _ => cases h

theorem saysTheSame_sorted_obj (m : List (Str × Json)) :
    SaysTheSame e (.obj (sortedMembers m)) (sorted (.obj m)) :=
  .rel _ _ (.order e (List.perm_insertionSort keyLe _).symm)

mutual

/-- A value says the same as its normal form, with or without its brackets when that is an array. -/
theorem saysTheSame_normalize : ∀ (v : Json),
    (∀ e, SaysTheSame e v (sorted (normalize e v))) ∧
      ∀ e l, normalize true v = .arr l → SaysTheSame e v (sorted (normalize true v))
  | .null => ⟨fun e => .refl _, nofun⟩
  | .bool _ => ⟨fun e => .refl _, nofun⟩
  | .int _ => ⟨fun e => .refl _, nofun⟩
  | .float _ => ⟨fun e => .refl _, nofun⟩
  | .str _ => ⟨fun e => .refl _, nofun⟩
  | .arr l => by
    have hl := saysTheSame_normalizeList l
    have hkept : ∀ e, SaysTheSame e (.arr l) (sorted (.arr (l.map (normalize true)))) := by
      intro e
      rw [sorted_arr]
      exact saysTheSame_arr (List.forall₂_map_right_iff.mpr
        (List.forall₂_map_right_iff.mpr (List.forall₂_same.mpr fun x hx => (hl x hx).1 true)))
    refine ⟨fun e => ?_, fun e l' _ => ?_⟩
    · rcases normalize_arr e l with heq | ⟨rfl, x, rfl, hx, heq⟩
      · rw [heq]
        exact hkept e
      · rw [heq]
        have hlx := hl x (List.mem_singleton_self x)
        have hfold : SaysTheSame false (.arr [x]) x := .rel _ _ (.single hx)
        by_cases harr : ∃ l', normalize true x = .arr l'
        · -- `x` refers to an array, which stands there with its brackets
          obtain ⟨l', hl'⟩ := harr
          exact hfold.trans (hlx.2 false l' hl')
        · have hsorted : ∀ t, sorted (normalize true x) ≠ .arr t := by
            intro t ht
            obtain ⟨l', hl'⟩ := eq_arr_of_sorted ht
            exact harr ⟨l', hl'⟩
          have hinner : SaysTheSame false (.arr [x]) (.arr [sorted (normalize true x)]) :=
            (hlx.1 true).inArray [] []
          exact hinner.trans (.rel _ _ (.single hsorted))
    · rw [normalize_element]
      exact hkept e
  | .obj m => by
    by_cases href : ∃ x, m = [(lit "id", x)]
    · obtain ⟨x, rfl⟩ := href
      have hx := saysTheSame_normalizeMembers [(lit "id", x)] (lit "id", x) (List.mem_singleton_self _)
      have hfold : ∀ e, SaysTheSame e (.obj [(lit "id", x)]) x := fun e => .rel _ _ (.reference e x)
      refine ⟨fun e => ?_, fun e l hl => ?_⟩
      · rw [normalize_reference]
        exact (hfold e).trans (hx.1 e)
      · rw [normalize_reference] at hl ⊢
        exact (hfold e).trans (hx.2 e l hl)
    · have hm : ∀ x, m ≠ [(lit "id", x)] := fun x hx => href ⟨x, hx⟩
      have hmembers := saysTheSame_normalizeMembers m
      refine ⟨fun e => ?_, fun e l hl => ?_⟩
      · rw [normalize_obj e hm]
        refine SaysTheSame.trans ?_ (saysTheSame_sorted_obj _)
        refine saysTheSame_obj hm ?_
        rw [sortedMembers_eq_map, normalizeMembers_eq_map]
        exact List.forall₂_map_right_iff.mpr (List.forall₂_map_right_iff.mpr
          (List.forall₂_same.mpr fun p hp => ⟨rfl, (hmembers p hp).1 false⟩))
      · rw [normalize_obj true hm] at hl
        cases hl

theorem saysTheSame_normalizeList : ∀ (l : List Json), ∀ v ∈ l,
    (∀ e, SaysTheSame e v (sorted (normalize e v))) ∧
      ∀ e l, normalize true v = .arr l → SaysTheSame e v (sorted (normalize true v))
  | [], _, h => absurd h List.not_mem_nil
  | x :: t, v, h => by
    rcases List.mem_cons.mp h with heq | h
    · rw [heq]
      exact saysTheSame_normalize x
    · exact saysTheSame_normalizeList t v h

theorem saysTheSame_normalizeMembers : ∀ (m : List (Str × Json)), ∀ p ∈ m,
    (∀ e, SaysTheSame e p.2 (sorted (normalize e p.2))) ∧
      ∀ e l, normalize true p.2 = .arr l → SaysTheSame e p.2 (sorted (normalize true p.2))
  | [], _, h => absurd h List.not_mem_nil
  | (k, v) :: t, p, h => by
    rcases List.mem_cons.mp h with heq | h
    · rw [heq]
      exact saysTheSame_normalize v
    · exact saysTheSame_normalizeMembers t p h

end

/-! ## Normal forms are well formed -/

/-- A value of the interpreter without a repeated name. -/
structure Valid (v : Json) : Prop where
  representable : Representable v
  wf : v.WF

theorem valid_arr : Valid (.arr l) ↔ ∀ v ∈ l, Valid v := by
  constructor
  · intro h v hv
    exact ⟨representableList_iff.mp h.representable v hv, Json.wfList_iff.mp h.wf v hv⟩
  · intro h
    exact ⟨representableList_iff.mpr fun v hv => (h v hv).representable,
      Json.wfList_iff.mpr fun v hv => (h v hv).wf⟩

theorem valid_obj : Valid (.obj m) ↔
    (m.map Prod.fst).Nodup ∧ ∀ p ∈ m, IsStr p.1 ∧ Valid p.2 := by
  constructor
  · intro h
    refine ⟨h.wf.1, fun p hp => ?_⟩
    have hp' := representableMembers_iff.mp h.representable p hp
    exact ⟨hp'.1, hp'.2, Json.wfMembers_iff.mp h.wf.2 p hp⟩
  · rintro ⟨hnodup, h⟩
    exact ⟨representableMembers_iff.mpr fun p hp => ⟨(h p hp).1, (h p hp).2.representable⟩,
      hnodup, Json.wfMembers_iff.mpr fun p hp => (h p hp).2.wf⟩

mutual

theorem valid_normalize : ∀ (v : Json) (e : Bool), Valid v → Valid (normalize e v)
  | .null, _, h | .bool _, _, h | .int _, _, h | .float _, _, h | .str _, _, h => h
  | .arr l, e, h => by
    have hl := valid_normalizeList l (valid_arr.mp h)
    rcases normalize_arr e l with heq | ⟨-, x, rfl, -, heq⟩
    · rw [heq, valid_arr]
      intro v hv
      obtain ⟨x, hx, rfl⟩ := List.mem_map.mp hv
      exact hl x hx
    · rw [heq]
      exact hl x (List.mem_singleton_self x)
  | .obj m, e, h => by
    obtain ⟨hnodup, hm⟩ := valid_obj.mp h
    have hmembers := valid_normalizeMembers m fun p hp => (hm p hp).2
    by_cases href : ∃ x, m = [(lit "id", x)]
    · obtain ⟨x, rfl⟩ := href
      rw [normalize_reference]
      exact hmembers _ (List.mem_singleton_self _) e
    · rw [normalize_obj e fun x hx => href ⟨x, hx⟩, normalizeMembers_eq_map, valid_obj]
      refine ⟨by rw [List.map_map]; exact hnodup, fun p hp => ?_⟩
      obtain ⟨q, hq, rfl⟩ := List.mem_map.mp hp
      exact ⟨(hm q hq).1, hmembers q hq false⟩

theorem valid_normalizeList : ∀ (l : List Json), (∀ v ∈ l, Valid v) → ∀ v ∈ l, Valid (normalize true v)
  | [], _, _, hv => absurd hv List.not_mem_nil
  | x :: t, h, v, hv => by
    have hx := valid_normalize x true (h x List.mem_cons_self)
    rcases List.mem_cons.mp hv with heq | hv
    · rw [heq]
      exact hx
    · exact valid_normalizeList t (fun w hw => h w (List.mem_cons_of_mem _ hw)) v hv

theorem valid_normalizeMembers : ∀ (m : List (Str × Json)), (∀ p ∈ m, Valid p.2) →
    ∀ p ∈ m, ∀ e, Valid (normalize e p.2)
  | [], _, _, hp => absurd hp List.not_mem_nil
  | (k, x) :: t, h, p, hp => by
    have hx := fun e => valid_normalize x e (h (k, x) List.mem_cons_self)
    rcases List.mem_cons.mp hp with heq | hp
    · rw [heq]
      exact hx
    · exact valid_normalizeMembers t (fun w hw => h w (List.mem_cons_of_mem _ hw)) p hp

end

theorem sorted_normalize_of_canonicalAt {a b : Json} {s : Str} (ha : Valid a) (hb : Valid b)
    (h : canonicalAt e a = some s) (h' : canonicalAt e b = some s) :
    sorted (normalize e a) = sorted (normalize e b) := by
  have hna := valid_normalize a e ha
  have hnb := valid_normalize b e hb
  exact sortedText_inj hna.representable hnb.representable hna.wf hnb.wf h h'

/-! ## What is kept apart -/

theorem normalize_referent : ∀ (v : Json), normalize e (referent v) = normalize e v
  | .null | .bool _ | .int _ | .float _ | .str _ | .arr _ | .obj [] | .obj (_ :: _ :: _) => rfl
  | .obj [(k, v)] => by
    by_cases hk : k = "id"
    · subst hk
      rw [referent, if_pos rfl, normalize_referent v]
      exact (normalize_reference e v).symm
    · rw [referent, if_neg hk]

/-- What a value refers to is no reference. -/
theorem referent_ne_reference : ∀ (v x : Json), referent v ≠ .obj [(lit "id", x)]
  | .null, _ | .bool _, _ | .int _, _ | .float _, _ | .str _, _ | .arr _, _ | .obj [], _ => fun h => by
    cases h
  | .obj (_ :: _ :: _), _ => fun h => by
    have hlen := congrArg List.length (Json.obj.inj h)
    simp at hlen
  | .obj [(k, v)], x => by
    rw [referent]
    split
    · exact referent_ne_reference v x
    · rename_i hk
      intro heq
      exact hk (Prod.mk.inj (List.cons.inj (Json.obj.inj heq)).1).1

theorem referent_eq_arr {t : List Json} (h : normalize true v = .arr t) :
    ∃ l, referent v = .arr l ∧ t = l.map (normalize true) := by
  rw [← normalize_referent] at h
  cases hr : referent v with
  | arr l =>
    rw [hr, normalize_element] at h
    exact ⟨l, rfl, (Json.arr.inj h).symm⟩
  | obj m =>
    rw [hr, normalize_obj true fun x hx => referent_ne_reference v x (by rw [hr, hx])] at h
    cases h
  | _ =>
    rw [hr] at h
    cases h

theorem forall₂_canonicalAt (h : (l.map (normalize true)).map sorted = (l'.map (normalize true)).map sorted) :
    List.Forall₂ (fun x y => canonicalAt true x = canonicalAt true y) l l' := by
  rw [List.map_map, List.map_map] at h
  refine (List.forall₂_map_left_iff.mp (List.forall₂_map_right_iff.mp
    (List.forall₂_eq_eq_eq ▸ h))).imp fun x y hxy => ?_
  exact congrArg text hxy

end OpenVC.ContextValidation
