import OpenVC.Proof.JsonLdDataset
import OpenVC.Proof.Proofs.SkolemizeProofs

/-!
# Skolemization and back

The dataset of a skolemized document is that of the document with a name for each blank node. Taken
back from its N-Quads, the names leave a dataset that differs from the document's in nothing else.
-/

namespace OpenVC.EcdsaSd

open Python

/-! ## The dataset of a skolemized document -/

/-- The node with the name that it has after skolemization and back. -/
def Node.roundTrip : Node → Node
  | .unnamed n => .blank (98 :: Str.ofNat n)
  | .blank label => .blank label
  | .iri s => Node.deskolemize (.iri s)

theorem drop_skolemPrefix (x : Str) : (skolemPrefix ++ x).drop 9 = x :=
  @List.drop_left _ skolemPrefix x

theorem deskolemize_skolem {x : Str} (hx : x ≠ []) :
    Node.deskolemize (.iri (skolemPrefix ++ x)) = .blank x := by
  have hprefix : skolemPrefix.isPrefixOf (skolemPrefix ++ x) = true :=
    List.isPrefixOf_iff_prefix.mpr (List.prefix_append _ _)
  have hne : skolemPrefix ++ x ≠ skolemPrefix := fun h => hx (by simpa using h)
  rw [Node.deskolemize, hprefix, bne_iff_ne.mpr hne, drop_skolemPrefix]
  rfl

/-- The `@id`s that a document's blank nodes have are labels with a text. -/
def Labelled (os : List Seen) : Prop := ∀ o ∈ os, o.Named ∧ o.id ≠ .str (lit "_:")

/-- The node of a new `@id`, taken back. -/
theorem deskolemize_nodeOf_rename {o : Seen} (ho : o.Named) (hlabel : o.id ≠ .str (lit "_:"))
    (n k : Nat) : (nodeOf (o.rename n).id k).deskolemize = (nodeOf o.id n).roundTrip := by
  have hskolem : ∀ x, nodeOf (.str (skolemPrefix ++ x)) k = .iri (skolemPrefix ++ x) := fun x => rfl
  rcases id_rename_cases ho n with ⟨hnull, hid⟩ | ⟨x, hx, hid⟩ | ⟨hnull, hblank, hid⟩
  · rw [hid, hnull, skolemName, hskolem, deskolemize_skolem (by simp)]
    rfl
  · have hne : x ≠ [] := by
      rintro rfl
      exact hlabel hx
    rw [hid, hx, hskolem, deskolemize_skolem hne]
    rfl
  · rw [hid]
    rcases ho with h | ⟨s, h⟩
    · exact absurd h hnull
    · rw [h]
      have hs : ¬ s.startsWith "_:" = true := by
        intro hs
        obtain ⟨x, rfl⟩ := startsWith_blank.mp hs
        exact hblank x h
      unfold nodeOf
      simp only [hs]
      rfl

theorem deskolemize_nodeOf_type (t : Str) :
    (nodeOf (.str t) 0).deskolemize = (nodeOf (.str t) 0).roundTrip := by
  unfold nodeOf
  by_cases ht : t.startsWith "_:" = true
  · simp only [ht, if_true]
    rfl
  · simp only [ht]
    rfl

/-- What becomes of an object that is no value object. -/
theorem exists_skolemize_obj {m : Dict} {n : Nat} (hvalue : Dict.has m "@value" = false)
    (hmembers : ∀ o ∈ objectsMembers m, o.Named) (hself : (seen false m).Named) :
    ∃ m' : Dict, (skolemize (.obj m) n).1 = .obj m' ∧ Dict.has m' "@value" = false ∧
      Dict.get m' "@id" = ((seen false m).rename (n + unnamed (objectsMembers m))).id ∧
      (m' = (skolemizeMembers m n).1 ∨ ∃ s, m' = Dict.set (skolemizeMembers m n).1 "@id" (.str s)) := by
  have hout := seen_skolemizeMembers (n := n) hself
  have hcounter := (objects_skolemizeMembers m n hmembers).2
  have hvalue' : Dict.has (skolemizeMembers m n).1 "@value" = false := by
    rw [has_skolemizeMembers]
    exact hvalue
  have hset : ∀ s, Dict.has (Dict.set (skolemizeMembers m n).1 "@id" (.str s)) "@value" = false := by
    intro s
    rw [Dict.has, Dict.get?_set, if_neg (by decide)]
    exact hvalue'
  have hid : ∀ s, Dict.get (Dict.set (skolemizeMembers m n).1 "@id" (.str s)) "@id" = .str s := by
    intro s
    rw [Dict.get, Dict.get?_set, if_pos rfl]
    rfl
  have hget : Dict.get (skolemizeMembers m n).1 "@id" = (seen false m).id := congrArg Seen.id hout
  rw [skolemize, if_neg (by rw [hvalue]; exact Bool.false_ne_true), hcounter, nameObject, hget]
  unfold Seen.rename
  rcases hself with hnull | ⟨s, hs⟩
  · rw [hnull]
    exact ⟨_, rfl, hset _, hid _, .inr ⟨_, rfl⟩⟩
  · rw [hs]
    dsimp only
    split
    · exact ⟨_, rfl, hset _, hid _, .inr ⟨_, rfl⟩⟩
    · exact ⟨_, rfl, hvalue', by rw [hget], .inl rfl⟩

theorem named_of_labelled {os : List Seen} (h : Labelled os) : ∀ o ∈ os, o.Named := fun o ho => (h o ho).1

theorem labelled_append {a b : List Seen} : Labelled (a ++ b) ↔ Labelled a ∧ Labelled b := by
  exact List.forall_mem_append

theorem objects_obj {r : Bool} {m : Dict} (hvalue : Dict.has m "@value" = false) :
    objects r (.obj m) = objectsMembers m ++ [seen r m] := by
  rw [objects, if_neg (by rw [hvalue]; exact Bool.false_ne_true)]

/-- The name of an object, taken back. -/
theorem deskolemize_nodeOf_obj {m : Dict} {n : Nat} (hself : Labelled [seen false m]) {id : Json}
    (hid : id = ((seen false m).rename (n + unnamed (objectsMembers m))).id) (k : Nat) :
    (nodeOf id k).deskolemize =
      (nodeOf (Dict.get m "@id") (n + unnamed (objectsMembers m))).roundTrip := by
  obtain ⟨hnamed, hlabel⟩ := hself _ List.mem_cons_self
  rw [hid]
  exact deskolemize_nodeOf_rename hnamed hlabel _ _

theorem labelled_seen {m : Dict} {r r' : Bool} (h : Labelled [seen r m]) : Labelled [seen r' m] := by
  intro o ho
  rw [List.mem_singleton.mp ho]
  exact h (seen r m) List.mem_cons_self

theorem objectOf_skolemize {v : Json} {n : Nat} {r : Bool} (hlabel : Labelled (objects r v)) (k : Nat) :
    (objectOf (skolemize v n).1 k).map (Object.map Node.deskolemize) =
      (objectOf v n).map (Object.map Node.roundTrip) := by
  cases v with
  | obj m =>
    by_cases hvalue : Dict.has m "@value" = true
    · rw [skolemize, if_pos hvalue, objectOf, if_pos hvalue, objectOf, if_pos hvalue]
      rfl
    · rw [Bool.not_eq_true] at hvalue
      rw [objects_obj hvalue, labelled_append] at hlabel
      have hself : Labelled [seen false m] := labelled_seen hlabel.2
      obtain ⟨m', hm', hvalue', hid, -⟩ := exists_skolemize_obj (n := n) hvalue
        (named_of_labelled hlabel.1) (named_of_labelled hself _ List.mem_cons_self)
      rw [hm', objectOf, if_neg (by rw [hvalue']; exact Bool.false_ne_true), objectOf,
        if_neg (by rw [hvalue]; exact Bool.false_ne_true), Option.map_some, Option.map_some]
      exact congrArg (some ∘ Object.node) (deskolemize_nodeOf_obj hself hid _)
  | _ => rfl

theorem map_toList_option {α β : Type} (f : α → β) (o : Option α) :
    (o.toList).map f = (o.map f).toList := by cases o <;> rfl

theorem itemsList_skolemize {l : List Json} {n : Nat} (hlabel : Labelled (objectsList l)) (k : Nat) :
    (itemsList (skolemizeList l n).1 k).map (Object.map Node.deskolemize) =
      (itemsList l n).map (Object.map Node.roundTrip) := by
  induction l generalizing n k with
  | nil => rfl
  | cons v t ih =>
    rw [objectsList, labelled_append] at hlabel
    have hcounter := (objects_skolemize false v n (named_of_labelled hlabel.1)).2
    rw [skolemizeList]
    simp only [itemsList, List.map_append, map_toList_option]
    rw [objectOf_skolemize hlabel.1, ih hlabel.2, hcounter]

theorem itemsOf_skolemize {v : Json} {n : Nat} {r : Bool} (hlabel : Labelled (objects r v)) (k : Nat) :
    (itemsOf (skolemize v n).1 k).map (Object.map Node.deskolemize) =
      (itemsOf v n).map (Object.map Node.roundTrip) := by
  cases v with
  | arr l => exact itemsList_skolemize hlabel k
  | obj m =>
    have hobj : ∃ m', (skolemize (.obj m) n).1 = .obj m' := by
      rw [skolemize]
      split
      · exact ⟨_, rfl⟩
      · unfold nameObject
        split
        · exact ⟨_, rfl⟩
        · split <;> exact ⟨_, rfl⟩
        · exact ⟨_, rfl⟩
    have h := objectOf_skolemize (n := n) hlabel k
    obtain ⟨m', hm'⟩ := hobj
    rw [hm'] at h ⊢
    rw [itemsOf, itemsOf, map_toList_option, map_toList_option, h]
    · exact fun l hl => by cases hl
    · exact fun l hl => by cases hl
  | _ => rfl

/-- Graph names that agree, taken back. -/
theorem memberStatements_skolemize {g g' : Option Node} {s s' : Node} {k : Str} {v : Json} {n : Nat} {r : Bool}
    (hg : g'.map Node.deskolemize = g.map Node.roundTrip) (hs : s'.deskolemize = s.roundTrip)
    (hlabel : Labelled (objects r v)) (j : Nat) :
    (memberStatements g' s' k (skolemize v n).1 j).map (Quad.map Node.deskolemize) =
      (memberStatements g s k v n).map (Quad.map Node.roundTrip) := by
  unfold memberStatements
  split
  · rw [stringsOf_skolemize, List.map_map, List.map_map]
    refine List.map_congr_left fun t _ => ?_
    simp only [Function.comp, Quad.map, Object.map, hg, hs, deskolemize_nodeOf_type]
  · split
    · rfl
    · have h := itemsOf_skolemize (n := n) hlabel j
      have hquad : ∀ (f : Node → Node) (g : Option Node) (s : Node) (os : List Object),
          (os.map fun o => (⟨s, k, o, g⟩ : Quad)).map (Quad.map f) =
            (os.map (Object.map f)).map fun o => (⟨f s, k, o, g.map f⟩ : Quad) := by
        intro f g s os
        rw [List.map_map, List.map_map]
        rfl
      rw [hquad, hquad, h, hg, hs]

/-- Assigning a string where there was none or another states nothing. -/
theorem quadsMembers_set {g : Option Node} {s : Node} {m : List (Str × Json)} {t : Str} (n : Nat)
    (h : ∀ v, Dict.get? m (lit "@id") = some v → v = .null ∨ ∃ t, v = .str t) :
    quadsMembers g s (Dict.set m (lit "@id") (.str t)) n = quadsMembers g s m n := by
  have hnone : ∀ (v : Json) (n : Nat), memberStatements g s (lit "@id") v n = [] := by
    intro v n
    rw [memberStatements, if_neg (by decide), if_pos (by decide)]
  induction m generalizing n with
  | nil =>
    change memberStatements g s (lit "@id") (.str t) n ++ _ = _
    rw [hnone]
    rfl
  | cons p m ih =>
    obtain ⟨k', v⟩ := p
    rw [Dict.set]
    simp only [Dict.get?_cons] at h
    split
    · rename_i hk
      rw [if_pos hk] at h
      subst hk
      rw [quadsMembers, quadsMembers, hnone, hnone]
      rcases h v rfl with rfl | ⟨t', rfl⟩ <;> rfl
    · rename_i hk
      rw [if_neg hk] at h
      rw [quadsMembers, quadsMembers, ih _ h]

mutual

/-- The dataset of a skolemized document, taken back, is that of the document with a name for each
blank node. -/
theorem quads_skolemize : ∀ {g g' : Option Node} {v : Json} {n : Nat} {r : Bool},
    g'.map Node.deskolemize = g.map Node.roundTrip → Labelled (objects r v) → ∀ k,
    (quads g' (skolemize v n).1 k).map (Quad.map Node.deskolemize) =
      (quads g v n).map (Quad.map Node.roundTrip)
  | _, _, .null, _, _, _, _, _ | _, _, .bool _, _, _, _, _, _ | _, _, .int _, _, _, _, _, _
  | _, _, .float _, _, _, _, _, _ | _, _, .str _, _, _, _, _, _ => rfl
  | _, _, .arr l, _, _, hg, hlabel, k => quadsList_skolemize hg hlabel k
  | g, g', .obj m, n, r, hg, hlabel, k => by
    by_cases hvalue : Dict.has m "@value" = true
    · rw [skolemize, if_pos hvalue, quads, if_pos hvalue, quads, if_pos hvalue]
      rfl
    · rw [Bool.not_eq_true] at hvalue
      rw [objects_obj hvalue, labelled_append] at hlabel
      have hself : Labelled [seen false m] := labelled_seen hlabel.2
      have hnamed := named_of_labelled hself _ List.mem_cons_self
      obtain ⟨m', hm', hvalue', hid, hset⟩ := exists_skolemize_obj (n := n) hvalue
        (named_of_labelled hlabel.1) hnamed
      have hmembers : ∀ s j, quadsMembers g' s m' j = quadsMembers g' s (skolemizeMembers m n).1 j := by
        intro s j
        rcases hset with rfl | ⟨t, rfl⟩
        · rfl
        · refine quadsMembers_set j fun v hv => ?_
          have hget : Dict.get (skolemizeMembers m n).1 (lit "@id") = (seen false m).id :=
            congrArg Seen.id (seen_skolemizeMembers hnamed)
          rw [Dict.get, hv] at hget
          change v = (seen false m).id at hget
          rw [hget]
          exact hnamed
      rw [hm', quads, if_neg (by rw [hvalue']; exact Bool.false_ne_true), quads,
        if_neg (by rw [hvalue]; exact Bool.false_ne_true), hmembers]
      exact quadsMembers_skolemize hg (deskolemize_nodeOf_obj hself hid _) hlabel.1 k

theorem quadsList_skolemize : ∀ {g g' : Option Node} {l : List Json} {n : Nat},
    g'.map Node.deskolemize = g.map Node.roundTrip → Labelled (objectsList l) → ∀ k,
    (quadsList g' (skolemizeList l n).1 k).map (Quad.map Node.deskolemize) =
      (quadsList g l n).map (Quad.map Node.roundTrip)
  | _, _, [], _, _, _, _ => rfl
  | _, _, v :: t, n, hg, hlabel, k => by
    rw [objectsList, labelled_append] at hlabel
    have hcounter := (objects_skolemize false v n (named_of_labelled hlabel.1)).2
    rw [skolemizeList]
    simp only [quadsList, List.map_append]
    rw [quads_skolemize hg hlabel.1, quadsList_skolemize hg hlabel.2, hcounter]

theorem quadsMembers_skolemize : ∀ {g g' : Option Node} {s s' : Node} {m : List (Str × Json)} {n : Nat},
    g'.map Node.deskolemize = g.map Node.roundTrip → s'.deskolemize = s.roundTrip →
    Labelled (objectsMembers m) → ∀ k,
    (quadsMembers g' s' (skolemizeMembers m n).1 k).map (Quad.map Node.deskolemize) =
      (quadsMembers g s m n).map (Quad.map Node.roundTrip)
  | _, _, _, _, [], _, _, _, _, _ => rfl
  | g, g', s, s', (key, v) :: t, n, hg, hs, hlabel, k => by
    rw [objectsMembers, labelled_append] at hlabel
    have hcounter := (objects_skolemize _ v n (named_of_labelled hlabel.1)).2
    have hgraph : (if key = lit "@graph" then some s' else g').map Node.deskolemize =
        (if key = lit "@graph" then some s else g).map Node.roundTrip := by
      split
      · rw [Option.map_some, Option.map_some, hs]
      · exact hg
    rw [skolemizeMembers]
    simp only [quadsMembers, List.map_append]
    rw [memberStatements_skolemize hg hs hlabel.1, quads_skolemize hgraph hlabel.1,
      quadsMembers_skolemize hg hs hlabel.2, hcounter]

end

/-! ## Where the nodes of a dataset come from -/

/-- The node is one of the objects, the first of which has the number `n`, or one of their types. -/
def From (os : List Seen) (n : Nat) (y : Node) : Prop :=
  ∃ i o, os[i]? = some o ∧
    (y = nodeOf o.id (n + unnamed (os.take i)) ∨ ∃ t ∈ o.types, y = nodeOf (.str t) 0)

theorem From.append_right {a : List Seen} {n : Nat} {y : Node} (h : From a n y) (b : List Seen) :
    From (a ++ b) n y := by
  obtain ⟨i, o, ho, hy⟩ := h
  have hi := (List.getElem?_eq_some_iff.mp ho).1
  refine ⟨i, o, by rw [List.getElem?_append_left hi]; exact ho, ?_⟩
  rwa [List.take_append_of_le_length hi.le]

theorem From.append_left {b : List Seen} {n : Nat} {y : Node} (a : List Seen)
    (h : From b (n + unnamed a) y) : From (a ++ b) n y := by
  obtain ⟨i, o, ho, hy⟩ := h
  refine ⟨a.length + i, o, by rw [List.getElem?_append_right (by omega)]; simpa using ho, ?_⟩
  rwa [List.take_length_add_append, unnamed_append, ← Nat.add_assoc]

theorem from_self (r : Bool) (m : Dict) (n : Nat) {y : Node}
    (h : y = nodeOf (Dict.get m "@id") n ∨ ∃ t ∈ stringsOf (Dict.get m "@type"), y = nodeOf (.str t) 0) :
    From [seen r m] n y :=
  ⟨0, seen r m, rfl, h⟩

theorem from_objectOf {v : Json} {n : Nat} {r : Bool} {y : Node}
    (h : ∃ o ∈ objectOf v n, y ∈ o.nodes) : From (objects r v) n y := by
  obtain ⟨o, ho, hy⟩ := h
  cases v with
  | obj m =>
    rw [objectOf] at ho
    by_cases hvalue : Dict.has m "@value" = true
    · rw [if_pos hvalue] at ho
      cases ho
      cases hy
    · rw [if_neg hvalue] at ho
      cases ho
      rw [objects_obj (by simpa using hvalue)]
      refine From.append_left _ (from_self r m _ (.inl ?_))
      exact List.mem_singleton.mp hy
  | _ => cases ho

theorem from_itemsList {l : List Json} {n : Nat} {y : Node} (h : ∃ o ∈ itemsList l n, y ∈ o.nodes) :
    From (objectsList l) n y := by
  induction l generalizing n with
  | nil =>
    obtain ⟨o, ho, -⟩ := h
    cases ho
  | cons v t ih =>
    obtain ⟨o, ho, hy⟩ := h
    rw [itemsList] at ho
    rw [objectsList]
    rcases List.mem_append.mp ho with ho | ho
    · exact (from_objectOf ⟨o, Option.mem_toList.mp ho, hy⟩).append_right _
    · exact From.append_left _ (ih ⟨o, ho, hy⟩)

theorem from_itemsOf {v : Json} {n : Nat} {r : Bool} {y : Node} (h : ∃ o ∈ itemsOf v n, y ∈ o.nodes) :
    From (objects r v) n y := by
  cases v with
  | arr l => exact from_itemsList h
  | _ =>
    obtain ⟨o, ho, hy⟩ := h
    exact from_objectOf ⟨o, Option.mem_toList.mp ho, hy⟩

/-- A node of a member's statements is the subject, the graph, a type or one of the member's objects. -/
theorem from_memberStatements {g : Option Node} {s : Node} {k : Str} {v : Json} {n : Nat} {r : Bool} {q : Quad}
    (hq : q ∈ memberStatements g s k v n) {y : Node} (hy : y ∈ q.nodes) :
    y = s ∨ y ∈ g ∨ (k = lit "@type" ∧ ∃ t ∈ stringsOf v, y = nodeOf (.str t) 0) ∨
      From (objects r v) n y := by
  unfold memberStatements at hq
  split at hq
  · rename_i hk
    obtain ⟨t, ht, rfl⟩ := List.mem_map.mp hq
    simp only [Quad.nodes, Object.nodes, List.mem_cons, List.mem_append, Option.mem_toList,
      List.not_mem_nil, or_false] at hy
    rcases hy with hy | hy | hy
    · exact .inl hy
    · exact .inr (.inr (.inl ⟨hk, t, ht, hy⟩))
    · exact .inr (.inl hy)
  · split at hq
    · cases hq
    · obtain ⟨o, ho, rfl⟩ := List.mem_map.mp hq
      simp only [Quad.nodes, List.mem_cons, List.mem_append, Option.mem_toList] at hy
      rcases hy with hy | hy | hy
      · exact .inl hy
      · exact .inr (.inr (.inr (from_itemsOf ⟨o, ho, hy⟩)))
      · exact .inr (.inl hy)

mutual

/-- The nodes of a dataset are the objects of the document and their types. -/
theorem from_quads : ∀ {g : Option Node} {v : Json} {n : Nat} {r : Bool}, v.WF → ∀ q ∈ quads g v n,
    ∀ y ∈ q.nodes, y ∈ g ∨ From (objects r v) n y
  | _, .null, _, _, _, _, hq, _, _ | _, .bool _, _, _, _, _, hq, _, _ | _, .int _, _, _, _, _, hq, _, _
  | _, .float _, _, _, _, _, hq, _, _ | _, .str _, _, _, _, _, hq, _, _ => by cases hq
  | _, .arr l, _, _, hv, q, hq, y, hy => from_quadsList hv q hq y hy
  | g, .obj m, n, r, hv, q, hq, y, hy => by
    rw [quads] at hq
    by_cases hvalue : Dict.has m "@value" = true
    · rw [if_pos hvalue] at hq
      cases hq
    · rw [if_neg hvalue] at hq
      rw [objects_obj (by simpa using hvalue)]
      rcases from_quadsMembers hv.2 q hq y hy with hy | hy | ⟨v, hmem, t, ht, hy⟩ | hy
      · exact .inr (From.append_left _ (from_self r m _ (.inl hy)))
      · exact .inl hy
      · refine .inr (From.append_left _ (from_self r m _ (.inr ⟨t, ?_, hy⟩)))
        rw [Dict.get, Dict.get?_of_mem hv.1 hmem]
        exact ht
      · exact .inr (hy.append_right _)

theorem from_quadsList : ∀ {g : Option Node} {l : List Json} {n : Nat}, Json.WFList l →
    ∀ q ∈ quadsList g l n, ∀ y ∈ q.nodes, y ∈ g ∨ From (objectsList l) n y
  | _, [], _, _, _, hq, _, _ => by cases hq
  | _, v :: t, _, hl, q, hq, y, hy => by
    rw [quadsList] at hq
    rw [objectsList]
    rcases List.mem_append.mp hq with hq | hq
    · exact (from_quads hl.1 q hq y hy).imp id fun h => h.append_right _
    · exact (from_quadsList hl.2 q hq y hy).imp id fun h => h.append_left _

theorem from_quadsMembers : ∀ {g : Option Node} {s : Node} {m : List (Str × Json)} {n : Nat},
    Json.WFMembers m → ∀ q ∈ quadsMembers g s m n, ∀ y ∈ q.nodes, y = s ∨ y ∈ g ∨
      (∃ v, (lit "@type", v) ∈ m ∧ ∃ t ∈ stringsOf v, y = nodeOf (.str t) 0) ∨ From (objectsMembers m) n y
  | _, _, [], _, _, _, hq, _, _ => by cases hq
  | g, s, (k, v) :: t, n, hm, q, hq, y, hy => by
    rw [quadsMembers] at hq
    rw [objectsMembers]
    rcases List.mem_append.mp hq with hq | hq
    · rcases from_memberStatements (r := k == lit "@reverse") hq hy with h | h | ⟨rfl, x, hx, h⟩ | h
      · exact .inl h
      · exact .inr (.inl h)
      · exact .inr (.inr (.inl ⟨v, List.mem_cons_self, x, hx, h⟩))
      · exact .inr (.inr (.inr (h.append_right _)))
    · rcases List.mem_append.mp hq with hq | hq
      · rcases from_quads (r := k == lit "@reverse") hm.1 q hq y hy with h | h
        · split at h
          · exact .inl (Option.some.inj h).symm
          · exact .inr (.inl h)
        · exact .inr (.inr (.inr (h.append_right _)))
      · rcases from_quadsMembers hm.2 q hq y hy with h | h | ⟨w, hw, hrest⟩ | h
        · exact .inl h
        · exact .inr (.inl h)
        · exact .inr (.inr (.inl ⟨w, List.mem_cons_of_mem _ hw, hrest⟩))
        · exact .inr (.inr (.inr (h.append_left _)))

end

theorem from_dataset {d : Json} (hd : d.WF) {q : Quad} (hq : q ∈ dataset d) {y : Node} (hy : y ∈ q.nodes) :
    From (objects false d) 0 y := by
  rcases from_quads (r := false) hd q hq y hy with h | h
  · cases h
  · exact h

/-! ## The skolemized document -/

theorem wf_nameObject {out : Dict} (h : (Json.obj out).WF) (c : Nat) : (nameObject out c).1.WF := by
  have hset : ∀ s, (Json.obj (Dict.set out "@id" (.str s))).WF := fun s =>
    ⟨Dict.nodup_keys_set h.1, Json.wfMembers_set h.2 trivial⟩
  unfold nameObject
  split
  · exact hset _
  · split
    · exact hset _
    · exact h
  · exact h

theorem keys_skolemizeMembers (m : List (Str × Json)) (n : Nat) :
    (skolemizeMembers m n).1.map Prod.fst = m.map Prod.fst := by
  induction m generalizing n with
  | nil => rfl
  | cons p m ih =>
    rw [skolemizeMembers, List.map_cons, List.map_cons, ih]

mutual

theorem wf_skolemize : ∀ {v : Json} {n : Nat}, v.WF → (skolemize v n).1.WF
  | .null, _, h | .bool _, _, h | .int _, _, h | .float _, _, h | .str _, _, h => h
  | .arr _, _, h => wfList_skolemize h
  | .obj m, n, h => by
    rw [skolemize]
    split
    · exact h
    · refine wf_nameObject ⟨?_, wfMembers_skolemize h.2⟩ _
      rw [keys_skolemizeMembers]
      exact h.1

theorem wfList_skolemize : ∀ {l : List Json} {n : Nat}, Json.WFList l → Json.WFList (skolemizeList l n).1
  | [], _, _ => trivial
  | _ :: _, _, h => ⟨wf_skolemize h.1, wfList_skolemize h.2⟩

theorem wfMembers_skolemize : ∀ {m : List (Str × Json)} {n : Nat}, Json.WFMembers m →
    Json.WFMembers (skolemizeMembers m n).1
  | [], _, _ => trivial
  | _ :: _, _, h => ⟨wf_skolemize h.1, wfMembers_skolemize h.2⟩

end

theorem isIri_nodeOf {s : Str} (h : ¬ s.startsWith "_:" = true) (n : Nat) :
    nodeOf (.str s) n = .iri s := by
  unfold nodeOf
  simp only [h]
  rfl

section Graph

variable {absolute : Str → Bool} {literal : Json → Str} {d : Json}

theorem isIri_skolemize (hwf : d.WF) (hd : Expanded d)
    (htypes : ∀ o ∈ objects false d, ∀ x, 95 :: 58 :: x ∉ o.types) :
    ∀ q ∈ dataset (skolemize d 0).1, ∀ y ∈ q.nodes, y.isIri = true := by
  intro q hq y hy
  obtain ⟨i, o', ho', hfrom⟩ := from_dataset (wf_skolemize hwf) hq hy
  rw [(objects_skolemize false d 0 fun o ho => (hd o ho).1).1, getElem?_renameAll] at ho'
  obtain ⟨o, ho, rfl⟩ := Option.map_eq_some_iff.mp ho'
  have hmem := List.mem_of_getElem? ho
  rcases hfrom with rfl | ⟨t, ht, rfl⟩
  · rcases id_rename_cases (hd o hmem).1 (0 + unnamed ((objects false d).take i)) with
      ⟨-, hid⟩ | ⟨x, -, hid⟩ | ⟨hnull, hblank, hid⟩
    · rw [hid]
      rfl
    · rw [hid]
      rfl
    · rw [hid]
      rcases (hd o hmem).1 with h | ⟨s, h⟩
      · exact absurd h hnull
      · rw [h, isIri_nodeOf]
        · rfl
        · intro hs
          obtain ⟨x, rfl⟩ := startsWith_blank.mp hs
          exact hblank x h
  · rw [types_rename] at ht
    rw [isIri_nodeOf]
    · rfl
    · intro hs
      obtain ⟨x, rfl⟩ := startsWith_blank.mp hs
      exact htypes o hmem x ht

theorem kind_skolemize (hd : Expanded d) (hnodes : ∀ o ∈ objects false d, o.kind = .node) :
    ∀ o ∈ objects false (skolemize d 0).1, o.kind = .node := by
  intro o' ho'
  obtain ⟨i, hi⟩ := List.mem_iff_getElem?.mp ho'
  rw [(objects_skolemize false d 0 fun o ho => (hd o ho).1).1, getElem?_renameAll] at hi
  obtain ⟨o, ho, rfl⟩ := Option.map_eq_some_iff.mp hi
  rw [kind_rename]
  exact hnodes o (List.mem_of_getElem? ho)

/-! ## What is written -/

theorem skolemIri_iff {s : Str} :
    SkolemIri s ↔ (skolemPrefix.isPrefixOf s && s != skolemPrefix) = true := by
  rw [Bool.and_eq_true, List.isPrefixOf_iff_prefix, bne_iff_ne]
  constructor
  · rintro ⟨x, hx, rfl⟩
    exact ⟨List.prefix_append _ _, fun h => hx (by simpa using h)⟩
  · rintro ⟨⟨x, rfl⟩, hne⟩
    refine ⟨x, ?_, rfl⟩
    rintro rfl
    exact hne (List.append_nil _)

theorem deskolemize_iri {s : Str} (h : ¬ SkolemIri s) : Node.deskolemize (.iri s) = .iri s := by
  rw [skolemIri_iff] at h
  rw [Node.deskolemize, if_neg h]

theorem nodes_map (f : Node → Node) (q : Quad) : (q.map f).nodes = q.nodes.map f := by
  obtain ⟨s, p, o, g⟩ := q
  cases o <;> cases g <;> rfl

theorem kept_map {f : Node → Node} (hf : ∀ n, (f n).kept absolute = n.kept absolute) (q : Quad) :
    (q.map f).kept absolute = q.kept absolute := by
  unfold Quad.kept
  rw [nodes_map, List.all_map, show Node.kept absolute ∘ f = Node.kept absolute from funext hf]
  rfl

/-- The statements that are written of a document with its nodes renamed. -/
theorem filter_kept_map {f : Node → Node} (hf : ∀ n, (f n).kept absolute = n.kept absolute)
    (g : List Quad) : (g.map (Quad.map f)).filter (Quad.kept absolute) =
      (g.filter (Quad.kept absolute)).map (Quad.map f) := by
  rw [List.filter_map, show Quad.kept absolute ∘ Quad.map f = Quad.kept absolute from
    funext (kept_map hf)]

variable (habsolute : ∀ x, absolute (skolemPrefix ++ x) = true)

include habsolute

theorem kept_deskolemize (n : Node) : n.deskolemize.kept absolute = n.kept absolute := by
  cases n with
  | iri s =>
    by_cases hs : SkolemIri s
    · obtain ⟨x, hx, rfl⟩ := hs
      rw [deskolemize_skolem hx]
      exact (habsolute x).symm
    · rw [deskolemize_iri hs]
  | _ => rfl

theorem kept_roundTrip (n : Node) : n.roundTrip.kept absolute = n.kept absolute := by
  cases n with
  | iri s => exact kept_deskolemize habsolute (.iri s)
  | _ => rfl

/-- What is written of a skolemized document, taken back, is what is written of the document with a
name for each blank node. -/
theorem statements_skolemize (hlabel : Labelled (objects false d)) :
    (writtenStatements absolute (skolemize d 0).1).map (Quad.map Node.deskolemize) =
      (writtenStatements absolute d).map (Quad.map Node.roundTrip) := by
  have hmap : (dataset (skolemize d 0).1).map (Quad.map Node.deskolemize) =
      (dataset d).map (Quad.map Node.roundTrip) := quads_skolemize rfl hlabel 0
  unfold writtenStatements
  rw [← filter_kept_map (kept_deskolemize habsolute), hmap,
    filter_kept_map (kept_roundTrip habsolute)]

omit habsolute

theorem labelled_of_lexical (hd : Expanded d) (h : Lexical literal absolute d) :
    Labelled (objects false d) := fun o ho => ⟨(hd o ho).1, h.ids o ho⟩

theorem mem_dataset {q : Quad} (h : q ∈ writtenStatements absolute d) : q ∈ dataset d :=
  List.mem_of_mem_filter h

/-! ## The names of the blank nodes -/

/-- A node with a name in place of its number. -/
def Node.label : Node → Node
  | .unnamed n => .blank (98 :: Str.ofNat n)
  | n => n

theorem roundTrip_of_not_skolem {y : Node} (h : ∀ s, y = .iri s → ¬ SkolemIri s) :
    y.roundTrip = y.label := by
  cases y with
  | iri s => exact deskolemize_iri (h s rfl)
  | _ => rfl

theorem Quad.map_congr {f g : Node → Node} {q : Quad} (h : ∀ y ∈ q.nodes, f y = g y) :
    q.map f = q.map g := by
  obtain ⟨s, p, o, gr⟩ := q
  simp only [Quad.nodes, List.mem_cons, List.mem_append, Option.mem_toList] at h
  have hs : f s = g s := h s (.inl rfl)
  have ho : o.map f = o.map g := by
    cases o with
    | node n => exact congrArg Object.node (h n (.inr (.inl List.mem_cons_self)))
    | value v => rfl
  have hg : gr.map f = gr.map g := by
    cases gr with
    | none => rfl
    | some n => exact congrArg some (h n (.inr (.inr rfl)))
  simp only [Quad.map, hs, ho, hg]

theorem map_roundTrip (hfree : SkolemFree absolute d) :
    (writtenStatements absolute d).map (Quad.map Node.roundTrip) =
      (writtenStatements absolute d).map (Quad.map Node.label) := by
  refine List.map_congr_left fun q hq => Quad.map_congr fun y hy => ?_
  exact roundTrip_of_not_skolem fun s hs => hfree.iris q hq s (hs ▸ hy)

theorem Clear.label_injective (hwf : d.WF) (hd : Expanded d) (h : Clear d) :
    ∀ q ∈ dataset d, ∀ n ∈ q.nodes, ∀ q' ∈ dataset d, ∀ n' ∈ q'.nodes, n.label = n'.label → n = n' := by
  have hne : ∀ q ∈ dataset d, ∀ x, .blank x ∈ q.nodes → ∀ q' ∈ dataset d, ∀ n, .unnamed n ∈ q'.nodes →
      x ≠ 98 :: Str.ofNat n := by
    rintro q hq x hx q' hq' n hn rfl
    obtain ⟨i, o, ho, hfrom⟩ := from_dataset hwf hq hx
    obtain ⟨j, p, hp, hfrom'⟩ := from_dataset hwf hq' hn
    have hmem := List.mem_of_getElem? ho
    have hnumber : n < unnamed (objects false d) := by
      rcases hfrom' with hfrom' | ⟨t, -, hfrom'⟩
      · rcases (hd p (List.mem_of_getElem? hp)).1 with hnull | ⟨s, hs⟩
        · rw [hnull, Nat.zero_add] at hfrom'
          cases hfrom'
          exact unnamed_take_lt hp hnull
        · rw [hs, nodeOf] at hfrom'
          split at hfrom' <;> cases hfrom'
      · rw [nodeOf] at hfrom'
        split at hfrom' <;> cases hfrom'
    have hstr : ∀ {s : Str} {m : Nat}, .blank (98 :: Str.ofNat n) = nodeOf (.str s) m →
        s = 95 :: 58 :: 98 :: Str.ofNat n := by
      intro s m hs
      by_cases hblank : s.startsWith "_:" = true
      · obtain ⟨x, rfl⟩ := startsWith_blank.mp hblank
        rw [nodeOf, if_pos hblank] at hs
        cases hs
        rfl
      · rw [isIri_nodeOf hblank] at hs
        cases hs
    obtain ⟨hid, htype, -⟩ := h.labels o hmem n hnumber
    rcases hfrom with hfrom | ⟨t, ht, hfrom⟩
    · rcases (hd o hmem).1 with hnull | ⟨s, hs⟩
      · rw [hnull] at hfrom
        cases hfrom
      · rw [hs] at hfrom hid
        rw [hstr hfrom] at hid
        exact hid rfl
    · rw [hstr hfrom] at ht
      exact htype ht
  intro q hq n hn q' hq' n' hn' hlabel
  cases n with
  | iri s =>
    cases n' with
    | iri s' => exact hlabel
    | _ => cases hlabel
  | blank x =>
    cases n' with
    | iri s' => cases hlabel
    | blank x' => exact hlabel
    | unnamed m => exact absurd (Node.blank.inj hlabel) (hne q hq x hn q' hq' m hn')
  | unnamed m =>
    cases n' with
    | iri s' => cases hlabel
    | blank x' => exact absurd (Node.blank.inj hlabel).symm (hne q' hq' x' hn' q hq m hn)
    | unnamed m' =>
      have := Str.ofNat_injective (List.cons.inj (Node.blank.inj hlabel)).2
      rw [this]

theorem Clear.isomorphic (hwf : d.WF) (hd : Expanded d) (h : Clear d) :
    Isomorphic (writtenStatements absolute d) ((writtenStatements absolute d).map (Quad.map Node.label)) := by
  refine ⟨Node.label, fun s => rfl, fun n => ?_, fun q hq n hn q' hq' => ?_, rfl⟩
  · cases n <;> rfl
  · exact h.label_injective hwf hd q (mem_dataset hq) n hn q' (mem_dataset hq')

end Graph

end OpenVC.EcdsaSd
