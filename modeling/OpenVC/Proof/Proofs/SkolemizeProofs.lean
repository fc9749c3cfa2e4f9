import OpenVC.Proof.Skolemize

/-!
# When skolemization is free of collisions

Skolemization goes over the objects of a document in one order, numbering those without an `@id`. It
gives no name twice exactly when all of them are nodes and none of the names it makes up is there.
-/

namespace OpenVC.EcdsaSd

open Python

/-! ## The objects of a skolemized document -/

/-- The object with its new `@id`, the counter standing at `n`. -/
def Seen.rename (n : Nat) (o : Seen) : Seen :=
  match o.id with
  | .null => { o with id := .str (skolemName n) }
  | .str s => if s.startsWith "_:" then { o with id := .str (skolemPrefix ++ s.drop 2) } else o
  | _ => o

/-- The objects with their new `@id`s. -/
def renameAll : Nat → List Seen → List Seen
  | _, [] => []
  | n, o :: t => o.rename n :: renameAll (n + unnamed [o]) t

theorem unnamed_append (a b : List Seen) : unnamed (a ++ b) = unnamed a + unnamed b :=
  List.countP_append

theorem unnamed_cons (o : Seen) (t : List Seen) : unnamed (o :: t) = unnamed [o] + unnamed t :=
  unnamed_append [o] t

theorem renameAll_append (n : Nat) (a b : List Seen) :
    renameAll n (a ++ b) = renameAll n a ++ renameAll (n + unnamed a) b := by
  induction a generalizing n with
  | nil => rfl
  | cons o a ih =>
    rw [List.cons_append, renameAll, renameAll, ih, unnamed_cons o a, Nat.add_assoc]
    rfl

/-- The `@id` is a string or missing. -/
def Seen.Named (o : Seen) : Prop := o.id = .null ∨ ∃ s, o.id = .str s

theorem stringsOf_skolemize (v : Json) (n : Nat) : stringsOf (skolemize v n).1 = stringsOf v := by
  cases v with
  | arr l =>
    change (skolemizeList l n).1.filterMap Json.str? = l.filterMap Json.str?
    induction l generalizing n with
    | nil => rfl
    | cons v t ih =>
      rw [skolemizeList, List.filterMap_cons, List.filterMap_cons, ih]
      cases v with
      | obj m =>
        have : (skolemize (.obj m) n).1.str? = none := by
          rw [skolemize]
          split
          · rfl
          · unfold nameObject
            split
            · rfl
            · split <;> rfl
            · rfl
        rw [this]
        rfl
      | _ => rfl
  | obj m =>
    rw [skolemize]
    split
    · rfl
    · unfold nameObject
      split
      · rfl
      · split <;> rfl
      · rfl
  | _ => rfl

theorem get?_skolemizeMembers (m : List (Str × Json)) (n : Nat) (k : Str) :
    ∃ c, Dict.get? (skolemizeMembers m n).1 k = (Dict.get? m k).map fun v => (skolemize v c).1 := by
  induction m generalizing n with
  | nil => exact ⟨0, rfl⟩
  | cons p m ih =>
    obtain ⟨k', v⟩ := p
    rw [skolemizeMembers]
    simp only [Dict.get?_cons]
    by_cases hk : k' = k
    · exact ⟨n, by rw [if_pos hk, if_pos hk, Option.map_some]⟩
    · obtain ⟨c, hc⟩ := ih (skolemize v n).2
      exact ⟨c, by rw [if_neg hk, if_neg hk, hc]⟩

theorem has_skolemizeMembers (m : List (Str × Json)) (n : Nat) (k : Str) :
    Dict.has (skolemizeMembers m n).1 k = Dict.has m k := by
  obtain ⟨c, hc⟩ := get?_skolemizeMembers m n k
  rw [Dict.has, Dict.has, hc, Option.isSome_map]

theorem objectsMembers_set {m : List (Str × Json)} {k s : Str}
    (h : ∀ v, Dict.get? m k = some v → v = .null ∨ ∃ t, v = .str t) :
    objectsMembers (Dict.set m k (.str s)) = objectsMembers m := by
  induction m with
  | nil => rfl
  | cons p m ih =>
    obtain ⟨k', v⟩ := p
    rw [Dict.set]
    simp only [Dict.get?_cons] at h
    split
    · rename_i hk
      rw [if_pos hk] at h
      rcases h v rfl with rfl | ⟨t, rfl⟩ <;> rfl
    · rename_i hk
      rw [if_neg hk] at h
      rw [objectsMembers, objectsMembers, ih h]

theorem get_skolemizeMembers_id {m : List (Str × Json)} {n : Nat}
    (h : Dict.get m "@id" = .null ∨ ∃ s, Dict.get m "@id" = .str s) :
    Dict.get (skolemizeMembers m n).1 "@id" = Dict.get m "@id" := by
  obtain ⟨c, hc⟩ := get?_skolemizeMembers m n (lit "@id")
  change Dict.get m (lit "@id") = .null ∨ ∃ s, Dict.get m (lit "@id") = .str s at h
  rw [Dict.get, hc]
  rw [Dict.get] at h ⊢
  cases hm : Dict.get? m (lit "@id") with
  | none => rfl
  | some v =>
    rw [hm] at h
    rcases h with h | ⟨s, h⟩
    · change v = .null at h
      subst h
      rfl
    · change v = .str s at h
      subst h
      rfl

theorem stringsOf_get_skolemizeMembers (m : List (Str × Json)) (n : Nat) (k : Str) :
    stringsOf (Dict.get (skolemizeMembers m n).1 k) = stringsOf (Dict.get m k) := by
  obtain ⟨c, hc⟩ := get?_skolemizeMembers m n k
  rw [Dict.get, hc, Dict.get]
  cases Dict.get? m k with
  | none => rfl
  | some v => exact stringsOf_skolemize v c

theorem seen_skolemizeMembers {r : Bool} {m : List (Str × Json)} {n : Nat} (h : (seen r m).Named) :
    seen r (skolemizeMembers m n).1 = seen r m := by
  unfold seen
  rw [has_skolemizeMembers, get_skolemizeMembers_id h, stringsOf_get_skolemizeMembers]

theorem seen_set (r : Bool) {m : Dict} (s : Str) : seen r (Dict.set m "@id" (.str s)) =
    { seen r m with id := .str s } := by
  have hlist : Dict.has (Dict.set m "@id" (.str s)) "@list" = Dict.has m "@list" := by
    rw [Dict.has, Dict.has, Dict.get?_set, if_neg (by decide)]
  have htype : Dict.get (Dict.set m "@id" (.str s)) "@type" = Dict.get m "@type" := by
    rw [Dict.get, Dict.get, Dict.get?_set, if_neg (by decide)]
  have hid : Dict.get (Dict.set m "@id" (.str s)) "@id" = .str s := by
    rw [Dict.get, Dict.get?_set, if_pos rfl]
    rfl
  unfold seen
  rw [hlist, htype, hid]

theorem objects_set (r : Bool) {m : Dict} {s : Str} (hvalue : Dict.has m "@value" = false)
    (hid : Dict.get m "@id" = .null ∨ ∃ t, Dict.get m "@id" = .str t) :
    objects r (.obj (Dict.set m "@id" (.str s))) =
      objectsMembers m ++ [{ seen r m with id := .str s }] := by
  have hvalue' : Dict.has (Dict.set m "@id" (.str s)) "@value" = false := by
    rw [Dict.has, Dict.get?_set, if_neg (by decide)]
    exact hvalue
  rw [objects, if_neg (by rw [hvalue']; exact Bool.false_ne_true), seen_set, objectsMembers_set]
  intro v hv
  change Dict.get? m (lit "@id") = some v at hv
  change Dict.get m (lit "@id") = .null ∨ ∃ t, Dict.get m (lit "@id") = .str t at hid
  rw [Dict.get, hv] at hid
  exact hid

/-- An object whose members are done is named as it is seen. -/
theorem objects_nameObject (r : Bool) {out : Dict} (c : Nat) (hvalue : Dict.has out "@value" = false)
    (hid : (seen r out).Named) :
    objects r (nameObject out c).1 = objectsMembers out ++ [(seen r out).rename c] ∧
      (nameObject out c).2 = c + unnamed [seen r out] := by
  have hplain : objects r (.obj out) = objectsMembers out ++ [seen r out] := by
    rw [objects, if_neg (by rw [hvalue]; exact Bool.false_ne_true)]
  unfold nameObject Seen.rename unnamed
  rcases hid with hnull | ⟨s, hs⟩
  · have hget : Dict.get out "@id" = .null := hnull
    have hrename : (seen r out).id = .null := hnull
    rw [hget]
    simp only [hrename, List.countP_singleton]
    exact ⟨objects_set r hvalue (.inl hget), rfl⟩
  · have hget : Dict.get out "@id" = .str s := hs
    have hrename : (seen r out).id = .str s := hs
    rw [hget]
    simp only [hrename, List.countP_singleton]
    split
    · exact ⟨objects_set r hvalue (.inr ⟨s, hget⟩), rfl⟩
    · exact ⟨hplain, rfl⟩

mutual

/-- Skolemization renames the objects one after the other. -/
theorem objects_skolemize : ∀ (r : Bool) (v : Json) (n : Nat), (∀ o ∈ objects r v, o.Named) →
    objects r (skolemize v n).1 = renameAll n (objects r v) ∧
      (skolemize v n).2 = n + unnamed (objects r v)
  | _, .null, _, _ | _, .bool _, _, _ | _, .int _, _, _ | _, .float _, _, _ | _, .str _, _, _ => ⟨rfl, rfl⟩
  | _, .arr l, n, h => objects_skolemizeList l n h
  | r, .obj m, n, h => by
    by_cases hvalue : Dict.has m "@value" = true
    · rw [skolemize, if_pos hvalue, objects, if_pos hvalue]
      exact ⟨rfl, rfl⟩
    · rw [objects, if_neg hvalue] at h
      have hmembers := objects_skolemizeMembers m n fun o ho => h o (List.mem_append_left _ ho)
      have hself := h (seen r m) (List.mem_append_right _ List.mem_cons_self)
      have hout : seen r (skolemizeMembers m n).1 = seen r m := seen_skolemizeMembers hself
      have hvalue' : Dict.has (skolemizeMembers m n).1 "@value" = false := by
        rw [has_skolemizeMembers]
        simpa using hvalue
      obtain ⟨hobjects, hcounter⟩ :=
        objects_nameObject r (skolemizeMembers m n).2 hvalue' (by rw [hout]; exact hself)
      rw [skolemize, if_neg hvalue, objects, if_neg hvalue, hobjects, hcounter, hout, hmembers.1,
        hmembers.2, renameAll_append, unnamed_append]
      exact ⟨rfl, Nat.add_assoc _ _ _⟩

theorem objects_skolemizeList : ∀ (l : List Json) (n : Nat), (∀ o ∈ objectsList l, o.Named) →
    objectsList (skolemizeList l n).1 = renameAll n (objectsList l) ∧
      (skolemizeList l n).2 = n + unnamed (objectsList l)
  | [], _, _ => ⟨rfl, rfl⟩
  | v :: t, n, h => by
    obtain ⟨hv, hcv⟩ := objects_skolemize false v n fun o ho => h o (List.mem_append_left _ ho)
    obtain ⟨ht, hct⟩ := objects_skolemizeList t (skolemize v n).2 fun o ho =>
      h o (List.mem_append_right _ ho)
    rw [skolemizeList]
    simp only [objectsList]
    rw [hv, ht, hct, hcv, renameAll_append, unnamed_append]
    exact ⟨rfl, Nat.add_assoc _ _ _⟩

theorem objects_skolemizeMembers : ∀ (m : List (Str × Json)) (n : Nat),
    (∀ o ∈ objectsMembers m, o.Named) →
    objectsMembers (skolemizeMembers m n).1 = renameAll n (objectsMembers m) ∧
      (skolemizeMembers m n).2 = n + unnamed (objectsMembers m)
  | [], _, _ => ⟨rfl, rfl⟩
  | (k, v) :: t, n, h => by
    obtain ⟨hv, hcv⟩ := objects_skolemize (k == lit "@reverse") v n fun o ho =>
      h o (List.mem_append_left _ ho)
    obtain ⟨ht, hct⟩ := objects_skolemizeMembers t (skolemize v n).2 fun o ho =>
      h o (List.mem_append_right _ ho)
    rw [skolemizeMembers]
    simp only [objectsMembers]
    rw [hv, ht, hct, hcv, renameAll_append, unnamed_append]
    exact ⟨rfl, Nat.add_assoc _ _ _⟩

end

/-! ## The new names -/

theorem getElem?_renameAll (n i : Nat) (os : List Seen) :
    (renameAll n os)[i]? = os[i]?.map (Seen.rename (n + unnamed (os.take i))) := by
  induction os generalizing n i with
  | nil => rfl
  | cons o os ih =>
    cases i with
    | zero => rfl
    | succ i =>
      rw [renameAll, List.getElem?_cons_succ, List.getElem?_cons_succ, ih, List.take_succ_cons,
        unnamed_cons o (os.take i), Nat.add_assoc]

theorem turns_iff {d : Json} (hd : Expanded d) {i : Nat} {o o' : Seen} : Turns d i o o' ↔
    (objects false d)[i]? = some o ∧ o' = o.rename (unnamed ((objects false d).take i)) := by
  have hobjects := (objects_skolemize false d 0 fun o ho => (hd o ho).1).1
  unfold Turns
  rw [hobjects, getElem?_renameAll, Nat.zero_add]
  constructor
  · rintro ⟨ho, ho'⟩
    rw [ho] at ho'
    exact ⟨ho, (Option.some.inj ho').symm⟩
  · rintro ⟨ho, rfl⟩
    exact ⟨ho, by rw [ho]; rfl⟩

theorem startsWith_blank {s : Str} : s.startsWith "_:" = true ↔ ∃ x, s = 95 :: 58 :: x := by
  rw [Str.startsWith, List.isPrefixOf_iff_prefix]
  constructor
  · rintro ⟨x, rfl⟩
    exact ⟨x, rfl⟩
  · rintro ⟨x, rfl⟩
    exact ⟨x, rfl⟩

@[simp] theorem types_rename (n : Nat) (o : Seen) : (o.rename n).types = o.types := by
  unfold Seen.rename
  split
  · rfl
  · split <;> rfl
  · rfl

@[simp] theorem kind_rename (n : Nat) (o : Seen) : (o.rename n).kind = o.kind := by
  unfold Seen.rename
  split
  · rfl
  · split <;> rfl
  · rfl

theorem id_rename_null {n : Nat} {o : Seen} (h : o.id = .null) :
    (o.rename n).id = .str (skolemName n) := by
  unfold Seen.rename
  rw [h]

theorem id_rename_blank {n : Nat} {o : Seen} {x : Str} (h : o.id = .str (95 :: 58 :: x)) :
    (o.rename n).id = .str (skolemPrefix ++ x) := by
  unfold Seen.rename
  rw [h]
  have : Str.startsWith (95 :: 58 :: x) "_:" = true := startsWith_blank.mpr ⟨x, rfl⟩
  simp [this]

theorem id_rename_other {n : Nat} {o : Seen} (h : o.Named) (hnull : o.id ≠ .null)
    (hblank : ∀ x, o.id ≠ .str (95 :: 58 :: x)) : (o.rename n).id = o.id := by
  unfold Seen.rename
  rcases h with h | ⟨s, h⟩
  · exact absurd h hnull
  · rw [h]
    by_cases hs : s.startsWith "_:" = true
    · obtain ⟨x, rfl⟩ := startsWith_blank.mp hs
      exact absurd h (hblank x)
    · simp [hs, h]

/-- What becomes of an `@id`: it was missing, it was a blank node's, or it stays. -/
theorem id_rename_cases {o : Seen} (h : o.Named) (n : Nat) :
    (o.id = .null ∧ (o.rename n).id = .str (skolemName n)) ∨
      (∃ x, o.id = .str (95 :: 58 :: x) ∧ (o.rename n).id = .str (skolemPrefix ++ x)) ∨
      (o.id ≠ .null ∧ (∀ x, o.id ≠ .str (95 :: 58 :: x)) ∧ (o.rename n).id = o.id) := by
  by_cases hnull : o.id = .null
  · exact .inl ⟨hnull, id_rename_null hnull⟩
  · by_cases hblank : ∃ x, o.id = .str (95 :: 58 :: x)
    · obtain ⟨x, hx⟩ := hblank
      exact .inr (.inl ⟨x, hx, id_rename_blank hx⟩)
    · rw [not_exists] at hblank
      exact .inr (.inr ⟨hnull, hblank, id_rename_other h hnull hblank⟩)

theorem skolemName_inj {m n : Nat} (h : skolemName m = skolemName n) : m = n := by
  exact Str.ofNat_injective (List.cons.inj (List.append_cancel_left h)).2

theorem unnamed_singleton_of_null {o : Seen} (h : o.id = .null) : unnamed [o] = 1 := by
  unfold unnamed
  rw [List.countP_singleton, h]
  rfl

theorem unnamed_take_succ {os : List Seen} {i : Nat} {o : Seen} (ho : os[i]? = some o)
    (hnull : o.id = .null) : unnamed (os.take (i + 1)) = unnamed (os.take i) + 1 := by
  obtain ⟨hi, rfl⟩ := List.getElem?_eq_some_iff.mp ho
  rw [List.take_succ_eq_append_getElem hi, unnamed_append, unnamed_singleton_of_null hnull]

theorem unnamed_take_mono (os : List Seen) {i j : Nat} (h : i ≤ j) :
    unnamed (os.take i) ≤ unnamed (os.take j) := by
  have : os.take i <+: os.take j := List.take_prefix_take_left h
  exact this.sublist.countP_le

theorem unnamed_take_lt {os : List Seen} {i : Nat} {o : Seen} (ho : os[i]? = some o)
    (hnull : o.id = .null) : unnamed (os.take i) < unnamed os := by
  have hle : unnamed (os.take (i + 1)) ≤ unnamed os := (List.take_sublist (i + 1) os).countP_le
  have := unnamed_take_succ ho hnull
  omega

/-- Objects without an `@id` get different numbers. -/
theorem eq_of_unnamed_take {os : List Seen} {i j : Nat} {o p : Seen} (ho : os[i]? = some o)
    (hp : os[j]? = some p) (hnull : o.id = .null) (hnull' : p.id = .null)
    (h : unnamed (os.take i) = unnamed (os.take j)) : i = j := by
  rcases Nat.lt_trichotomy i j with hij | hij | hij
  · have := unnamed_take_mono os (i := i + 1) (j := j) hij
    rw [unnamed_take_succ ho hnull] at this
    omega
  · exact hij
  · have := unnamed_take_mono os (i := j + 1) (j := i) hij
    rw [unnamed_take_succ hp hnull'] at this
    omega

theorem exists_unnamed {os : List Seen} {n : Nat} (h : n < unnamed os) :
    ∃ i o, os[i]? = some o ∧ o.id = .null ∧ unnamed (os.take i) = n := by
  induction os generalizing n with
  | nil => exact absurd h (Nat.not_lt_zero n)
  | cons a os ih =>
    by_cases hnull : a.id = .null
    · cases n with
      | zero => exact ⟨0, a, rfl, hnull, rfl⟩
      | succ n =>
        rw [unnamed_cons, unnamed_singleton_of_null hnull] at h
        obtain ⟨i, o, ho, hid, hcount⟩ := ih (n := n) (by omega)
        refine ⟨i + 1, o, ho, hid, ?_⟩
        rw [List.take_succ_cons, unnamed_cons a (os.take i), unnamed_singleton_of_null hnull, hcount]
        omega
    · have hzero : unnamed [a] = 0 := by
        unfold unnamed
        rw [List.countP_singleton]
        cases ha : a.id with
        | null => exact absurd ha hnull
        | _ => rfl
      rw [unnamed_cons, hzero] at h
      obtain ⟨i, o, ho, hid, hcount⟩ := ih (n := n) (by omega)
      refine ⟨i + 1, o, ho, hid, ?_⟩
      rw [List.take_succ_cons, unnamed_cons a (os.take i), hzero, hcount]
      omega

/-! ## Free of collisions -/

section Collisions

variable {d : Json}

theorem mem_of_turns (hd : Expanded d) {i : Nat} {o o' : Seen} (h : Turns d i o o') :
    o ∈ objects false d :=
  List.mem_of_getElem? ((turns_iff hd).mp h).1

theorem named_of_turns (hd : Expanded d) {i : Nat} {o o' : Seen} (h : Turns d i o o') : o.Named :=
  (hd o (mem_of_turns hd h)).1

theorem exists_turns (hd : Expanded d) {o : Seen} (ho : o ∈ objects false d) :
    ∃ i o', Turns d i o o' := by
  obtain ⟨i, hi⟩ := List.mem_iff_getElem?.mp ho
  exact ⟨i, _, (turns_iff hd).mpr ⟨hi, rfl⟩⟩

theorem CollisionFree.clear (hd : Expanded d) (h : CollisionFree d) : Clear d where
  nodes o ho := by
    by_contra hkind
    obtain ⟨i, o', hturn⟩ := exists_turns hd ho
    have hnull := (hd o ho).2 hkind
    have hadded : o'.id ≠ .null := by
      rw [((turns_iff hd).mp hturn).2, id_rename_null hnull]
      exact fun h => by cases h
    exact hkind ((h.added i o o' hturn).mp ⟨hnull, hadded⟩).1
  labels p hp n hn := by
    obtain ⟨i, o, ho, hnull, hcount⟩ := exists_unnamed hn
    have hturn : Turns d i o (o.rename n) := (turns_iff hd).mpr ⟨ho, by rw [hcount]⟩
    have hid : (o.rename n).id = .str (skolemPrefix ++ 98 :: Str.ofNat n) := id_rename_null hnull
    have hne : (o.rename n).id ≠ o.id := by
      rw [hid, hnull]
      exact fun h => by cases h
    obtain ⟨hname, htype, hblank⟩ := h.fresh i o _ hturn hne p hp _ hid
    exact ⟨(hblank hnull).1, (hblank hnull).2, hname, htype⟩
  names o ho x hx p hp := by
    obtain ⟨i, o', hturn⟩ := exists_turns hd ho
    have hid : o'.id = .str (skolemPrefix ++ x) := by
      rw [((turns_iff hd).mp hturn).2]
      exact id_rename_blank hx
    have hne : ∀ x, Json.str (skolemPrefix ++ x) ≠ .str (95 :: 58 :: x) := by
      intro x e
      cases (List.cons.inj (Json.str.inj e)).1
    obtain ⟨hname, htype, -⟩ := h.fresh i o o' hturn (by rw [hid, hx]; exact hne x) p hp x hid
    refine ⟨fun hmem => ?_, hname, htype⟩
    obtain ⟨j, p', hturn'⟩ := exists_turns hd hp
    obtain ⟨k, hk⟩ := List.mem_iff_getElem?.mp hmem
    have htypes : p'.types = p.types := by
      rw [((turns_iff hd).mp hturn').2, types_rename]
    have := (h.coreference j p p' hturn' i o o' hturn k _ _ hk (by rw [htypes]; exact hk)).mp hx.symm
    rw [hid] at this
    exact hne x this.symm

theorem Clear.added (hd : Expanded d) (h : Clear d) {i : Nat} {o o' : Seen} (hturn : Turns d i o o') :
    o.id = .null ∧ o'.id ≠ .null ↔ o.kind = .node ∧ o.id = .null := by
  have hkind := h.nodes o (mem_of_turns hd hturn)
  constructor
  · rintro ⟨hnull, -⟩
    exact ⟨hkind, hnull⟩
  · rintro ⟨-, hnull⟩
    refine ⟨hnull, ?_⟩
    rw [((turns_iff hd).mp hturn).2, id_rename_null hnull]
    exact fun h => by cases h

theorem str_append_inj {x y : Str} : Json.str (skolemPrefix ++ x) = .str (skolemPrefix ++ y) ↔ x = y := by
  rw [Json.str.injEq, List.append_cancel_left_eq]

/-- A node without an `@id` and a node of that name do not meet. -/
theorem Clear.number_ne (hd : Expanded d) (h : Clear d) {i : Nat} {o o' p : Seen} {x : Str}
    (hturn : Turns d i o o') (hnull : o.id = .null) (hp : p ∈ objects false d)
    (hx : p.id = .str (95 :: 58 :: x)) : o'.id ≠ .str (skolemPrefix ++ x) := by
  obtain ⟨ho, rfl⟩ := (turns_iff hd).mp hturn
  rw [id_rename_null hnull, skolemName]
  intro e
  rw [str_append_inj] at e
  subst e
  exact (h.labels p hp _ (unnamed_take_lt ho hnull)).1 hx

theorem Clear.distinct (hd : Expanded d) (h : Clear d) {i j : Nat} {o o' p p' : Seen}
    (hturn : Turns d i o o') (hturn' : Turns d j p p') (hblank : o.IsBlankNode)
    (hblank' : p.IsBlankNode) : o'.id = p'.id ↔ i = j ∨ o.id = p.id ∧ o.id ≠ .null := by
  obtain ⟨ho, heq⟩ := (turns_iff hd).mp hturn
  obtain ⟨hp, heq'⟩ := (turns_iff hd).mp hturn'
  rcases hblank.2 with hnull | ⟨x, hx⟩
  · rcases hblank'.2 with hnull' | ⟨y, hy⟩
    · rw [heq, heq', id_rename_null hnull, id_rename_null hnull']
      constructor
      · intro e
        exact .inl (eq_of_unnamed_take ho hp hnull hnull' (skolemName_inj (Json.str.inj e)))
      · rintro (rfl | ⟨-, hne⟩)
        · rfl
        · exact absurd hnull hne
    · constructor
      · intro e
        rw [heq', id_rename_blank hy] at e
        exact absurd e (h.number_ne hd hturn hnull (mem_of_turns hd hturn') hy)
      · rintro (rfl | ⟨-, hne⟩)
        · rw [ho] at hp
          cases hp
          rw [heq, heq']
        · exact absurd hnull hne
  · rcases hblank'.2 with hnull' | ⟨y, hy⟩
    · constructor
      · intro e
        rw [heq, id_rename_blank hx] at e
        exact absurd e.symm (h.number_ne hd hturn' hnull' (mem_of_turns hd hturn) hx)
      · rintro (rfl | ⟨hid, hne⟩)
        · rw [ho] at hp
          cases hp
          rw [heq, heq']
        · rw [hid, hnull'] at hne
          exact absurd rfl hne
    · rw [heq, heq', id_rename_blank hx, id_rename_blank hy, str_append_inj]
      constructor
      · rintro rfl
        exact .inr ⟨by rw [hx, hy], by rw [hx]; exact fun h => by cases h⟩
      · rintro (rfl | ⟨hid, -⟩)
        · rw [ho] at hp
          cases hp
          rw [hx] at hy
          cases hy
          rfl
        · rw [hx, hy] at hid
          cases hid
          rfl

theorem Clear.coreference (hd : Expanded d) (h : Clear d) {i j k : Nat} {o o' p p' : Seen} {t t' : Str}
    (hturn : Turns d i o o') (hturn' : Turns d j p p') (ht : o.types[k]? = some t)
    (ht' : o'.types[k]? = some t') : Json.str t = p.id ↔ .str t' = p'.id := by
  have heq := ((turns_iff hd).mp hturn).2
  obtain ⟨hp, heq'⟩ := (turns_iff hd).mp hturn'
  have ho := mem_of_turns hd hturn
  have hmem : t ∈ o.types := List.mem_of_getElem? ht
  rw [heq, types_rename, ht] at ht'
  cases ht'
  rcases id_rename_cases (named_of_turns hd hturn') (unnamed ((objects false d).take j)) with
    ⟨hnull, hid⟩ | ⟨x, hx, hid⟩ | ⟨-, -, hid⟩
  · rw [heq', hid, hnull]
    constructor
    · intro e
      cases e
    · intro e
      cases e
      exact absurd hmem (h.labels o ho _ (unnamed_take_lt hp hnull)).2.2.2
  · rw [heq', hid, hx]
    obtain ⟨hlabel, -, hname⟩ := h.names p (mem_of_turns hd hturn') x hx o ho
    constructor
    · intro e
      cases e
      exact absurd hmem hlabel
    · intro e
      cases e
      exact absurd hmem hname
  · rw [heq', hid]

theorem Clear.fresh (hd : Expanded d) (h : Clear d) {i : Nat} {o o' : Seen} (hturn : Turns d i o o')
    (hne : o'.id ≠ o.id) {p : Seen} (hp : p ∈ objects false d) {x : Str}
    (hx : o'.id = .str (skolemPrefix ++ x)) :
    p.id ≠ .str (skolemPrefix ++ x) ∧ skolemPrefix ++ x ∉ p.types ∧
      (o.id = .null → p.id ≠ .str (95 :: 58 :: x) ∧ 95 :: 58 :: x ∉ p.types) := by
  obtain ⟨ho, heq⟩ := (turns_iff hd).mp hturn
  rcases id_rename_cases (named_of_turns hd hturn) (unnamed ((objects false d).take i)) with
    ⟨hnull, hid⟩ | ⟨y, hy, hid⟩ | ⟨-, -, hid⟩
  · rw [heq, hid, skolemName, str_append_inj] at hx
    subst hx
    obtain ⟨hlabel, htype, hname, htype'⟩ := h.labels p hp _ (unnamed_take_lt ho hnull)
    exact ⟨hname, htype', fun _ => ⟨hlabel, htype⟩⟩
  · rw [heq, hid, str_append_inj] at hx
    subst hx
    obtain ⟨-, hname, htype⟩ := h.names o (mem_of_turns hd hturn) y hy p hp
    refine ⟨hname, htype, fun hnull => ?_⟩
    rw [hnull] at hy
    cases hy
  · rw [heq] at hne
    exact absurd hid hne

theorem collisionFree_iff_clear (hd : Expanded d) : CollisionFree d ↔ Clear d :=
  ⟨fun h => h.clear hd, fun h =>
    { added := fun _ _ _ hturn => h.added hd hturn
      distinct := fun _ _ _ hturn _ _ _ hturn' hblank hblank' => h.distinct hd hturn hturn' hblank hblank'
      coreference := fun _ _ _ hturn _ _ _ hturn' _ _ _ ht ht' => h.coreference hd hturn hturn' ht ht'
      fresh := fun _ _ _ hturn hne _ hp _ hx => h.fresh hd hturn hne hp hx }⟩

end Collisions

end OpenVC.EcdsaSd
