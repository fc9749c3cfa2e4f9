import OpenVC.Proof.Proofs.CanonicalProofs
import OpenVC.Proof.StatusInPlace

/-!
# What the walks over the expanded form reach

The objects that occur in an expanded document, and what each of the walks has found of every one of
them when it returns.
-/

namespace OpenVC.ContextValidation

open Python JsonText JsonDumps

variable {what : Str} {topId v w x : Json} {m o node : Dict} {entries : Entries}

/-! ## The expanded form -/

/-- A value occurs in another, at any depth but inside a literal, whose content is data. -/
inductive Within : Json → Json → Prop
  | refl (v : Json) : Within v v
  | item {l : List Json} {x v : Json} (hx : x ∈ l) (h : Within x v) : Within (.arr l) v
  | member {m : Dict} {k : Str} {x v : Json} (hm : isLiteral m = false) (hx : (k, x) ∈ m)
    (h : Within x v) : Within (.obj m) v

/-- An object of an expanded document that is no literal. -/
structure ExpandedObject (m : Dict) : Prop where
  /-- A list object has only its list, and at most an index. -/
  list : isListObject m = true → ∀ k ∈ m.keys, k = "@list" ∨ k = "@index"
  /-- The types are an array of strings. -/
  types : ∀ v, (lit "@type", v) ∈ m → ∃ l : List Str, v = .arr (l.map .str)
  /-- The values of a member are an array of objects. -/
  values : ∀ k v, (k, v) ∈ m → isLeafKey k = false → k ∉ refusedKeywords →
    ∃ l : List Dict, v = .arr (l.map .obj)

/-- An expanded document. -/
def Expanded (v : Json) : Prop := ∀ m, Within v (.obj m) → isLiteral m = false → ExpandedObject m

theorem Expanded.item {l : List Json} (h : Expanded (.arr l)) (hx : x ∈ l) : Expanded x :=
  fun m hm => h m (.item hx hm)

theorem Expanded.member {k : Str} (h : Expanded (.obj m)) (hm : isLiteral m = false)
    (hx : (k, x) ∈ m) : Expanded x :=
  fun o ho => h o (.member hm hx ho)

/-- The one top-level node of an expanded document. -/
structure ExpandedDocument (node : Dict) : Prop where
  literal : isLiteral node = false
  expanded : Expanded (.obj node)

/-- A node object directly in a value: itself, in an array, or in a list object. -/
inductive EntryOf : Json → Dict → Prop
  | node {m : Dict} (hm : isLiteral m = false) (hl : isListObject m = false) : EntryOf (.obj m) m
  | item {l : List Json} {x : Json} {m : Dict} (hx : x ∈ l) (h : EntryOf x m) : EntryOf (.arr l) m
  | listed {o m : Dict} {x : Json} (ho : isLiteral o = false) (hx : o.get? "@list" = some x)
    (h : EntryOf x m) : EntryOf (.obj o) m

/-! ## What the first walk checks -/

theorem checkExpandedList_eq_ok {l : List Json} :
    checkExpandedList what topId l = .ok () ↔
      ∀ v ∈ l, checkExpanded what topId false v = .ok () := by
  induction l with
  | nil => simp [checkExpandedList]
  | cons v l ih =>
    simp only [checkExpandedList, bind_eq_ok, ih, List.forall_mem_cons]
    constructor
    · rintro ⟨⟨⟩, hv, hl⟩
      exact ⟨hv, hl⟩
    · rintro ⟨hv, hl⟩
      exact ⟨(), hv, hl⟩

/-- What is checked of one member. -/
def CheckedMember (what : Str) (topId : Json) (p : Str × Json) : Prop :=
  checkKey what p.1 = .ok () ∧
    (isLeafKey p.1 = false → checkExpanded what topId false p.2 = .ok ())

theorem checkExpandedMembers_eq_ok :
    checkExpandedMembers what topId m = .ok () ↔ ∀ p ∈ m, CheckedMember what topId p := by
  induction m with
  | nil => simp [checkExpandedMembers]
  | cons p m ih =>
    obtain ⟨k, v⟩ := p
    simp only [checkExpandedMembers, bind_eq_ok, List.forall_mem_cons, CheckedMember]
    by_cases hk : isLeafKey k = true
    · simp only [hk, if_true, ih, CheckedMember]
      constructor
      · rintro ⟨⟨⟩, hkey, hm⟩
        exact ⟨⟨hkey, nofun⟩, hm⟩
      · rintro ⟨⟨hkey, -⟩, hm⟩
        exact ⟨(), hkey, hm⟩
    · rw [Bool.not_eq_true] at hk
      simp only [hk, Bool.false_eq_true, if_false, bind_eq_ok, ih, CheckedMember, true_implies]
      constructor
      · rintro ⟨⟨⟩, hkey, ⟨⟩, hv, hm⟩
        exact ⟨⟨hkey, hv⟩, hm⟩
      · rintro ⟨⟨hkey, hv⟩, hm⟩
        exact ⟨(), hkey, (), hv, hm⟩

/-- What an accepted document says of an object that is no literal. -/
structure Checked (m : Dict) : Prop where
  keywords : ∀ k ∈ refusedKeywords, m.has k = false
  nodeId : m.has "@id" = true → isNodeIri (m.get "@id") = true
  keys : ∀ k ∈ m.keys, Str.startsWith k "@" = true ∨ isPredicate k = true

theorem checkExpanded_obj {top : Bool} (h : checkExpanded what topId top (.obj m) = .ok ())
    (hm : isLiteral m = false) : Checked m ∧ ∀ p ∈ m, CheckedMember what topId p := by
  simp only [checkExpanded, hm, Bool.false_eq_true, if_false, checkNode, bind_eq_ok,
    checkExpandedMembers_eq_ok] at h
  obtain ⟨⟨⟩, hkeywords, ⟨⟩, ⟨⟨⟩, hid, -⟩, hmembers⟩ := h
  refine ⟨⟨fun k hk => ?_, fun hhas => ?_, fun k hk => ?_⟩, hmembers⟩
  · exact raiseIf_eq_ok.mp (each_eq_ok.mp hkeywords k hk)
  · have hiri := raiseIf_eq_ok.mp hid
    rw [hhas, Bool.true_and, Bool.not_eq_false'] at hiri
    exact hiri
  · obtain ⟨p, hp, rfl⟩ := List.mem_map.mp hk
    have hkey := raiseIf_eq_ok.mp (hmembers p hp).1
    rw [Bool.and_eq_false_iff, Bool.not_eq_false', Bool.not_eq_false'] at hkey
    exact hkey

theorem not_within_str {s : Str} : ¬ Within (.str s) (.obj m) := nofun

theorem not_within_leaf {k : Str} (hexp : ExpandedObject o) (hc : Checked o) (hnodup : o.keys.Nodup)
    (hx : (k, x) ∈ o) (hk : isLeafKey k = true) : ¬ Within x (.obj m) := by
  rw [isLeafKey, Bool.or_eq_true, beq_iff_eq, beq_iff_eq] at hk
  intro hw
  rcases hk with rfl | rfl
  · have hget := Dict.get?_of_mem hnodup hx
    have hiri := hc.nodeId (by rw [Dict.has, hget]; rfl)
    rw [Dict.get, hget] at hiri
    cases x with
    | str s => exact not_within_str hw
    | _ => cases hiri
  · obtain ⟨l, rfl⟩ := hexp.types x hx
    cases hw with
    | item hx h =>
      obtain ⟨s, -, rfl⟩ := List.mem_map.mp hx
      exact not_within_str h

theorem checked_of_within (hw : Within v w) : ∀ {top : Bool}, Valid v → Expanded v →
    checkExpanded what topId top v = .ok () → ∀ m, w = .obj m → isLiteral m = false → Checked m := by
  induction hw with
  | refl v =>
    rintro top - - h m rfl hm
    exact (checkExpanded_obj h hm).1
  | @item l x v hx hw ih =>
    intro top hvalid hexp h m hv hm
    rw [checkExpanded, checkExpandedList_eq_ok] at h
    exact ih (valid_arr.mp hvalid x hx) (hexp.item hx) (h x hx) m hv hm
  | @member o k x v ho hx hw ih =>
    intro top hvalid hexp h m hv hm
    obtain ⟨hc, hmembers⟩ := checkExpanded_obj h ho
    obtain ⟨hnodup, hvalid⟩ := valid_obj.mp hvalid
    by_cases hk : isLeafKey k = true
    · subst hv
      exact absurd hw (not_within_leaf (hexp o (.refl _) ho) hc hnodup hx hk)
    · rw [Bool.not_eq_true] at hk
      exact ih (hvalid _ hx).2 (hexp.member ho hx) ((hmembers _ hx).2 hk) m hv hm

/-! ## The entries that were collected -/

/-- An id with a canonical form of an entry that has it. -/
def IsEntry (v : Json) (q : Str × Str) : Prop :=
  ∃ m, EntryOf v m ∧ m.get "@id" = .str q.1 ∧ canonical (.obj m) = some q.2

/-- What a collection adds: the entries of the value, each of which has a canonical form. -/
structure Collects (v : Json) (entries r : Entries) : Prop where
  mem_iff : ∀ q, q ∈ r ↔ q ∈ entries ∨ IsEntry v q
  canonical : ∀ m X, EntryOf v m → m.get "@id" = .str X → ∃ t, canonical (.obj m) = some t

theorem collects_of_not_entryOf (h : ∀ m, ¬ EntryOf v m) : Collects v entries entries where
  mem_iff q := by
    constructor
    · exact .inl
    · rintro (hq | ⟨m, hm, -⟩)
      · exact hq
      · exact absurd hm (h m)
  canonical m _ hm := absurd hm (h m)

theorem not_entryOf_literal (hm : isLiteral m = true) (o : Dict) : ¬ EntryOf (.obj m) o := by
  rintro (⟨h, -⟩ | _ | ⟨h, -, -⟩) <;> exact absurd hm (by rw [h]; exact Bool.false_ne_true)

theorem entryOf_node (hl : isListObject m = false) : EntryOf (.obj m) o ↔ isLiteral m = false ∧ o = m := by
  constructor
  · rintro (⟨hm, -⟩ | _ | ⟨-, hx, -⟩)
    · exact ⟨hm, rfl⟩
    · rw [isListObject, Dict.has, hx] at hl
      cases hl
  · rintro ⟨hm, rfl⟩
    exact .node hm hl

theorem entryOf_list (hm : isLiteral m = false) (hx : m.get? "@list" = some x) :
    EntryOf (.obj m) o ↔ EntryOf x o := by
  constructor
  · rintro (⟨-, hl⟩ | _ | ⟨-, hx', h⟩)
    · rw [isListObject, Dict.has, hx] at hl
      cases hl
    · rw [hx] at hx'
      cases hx'
      exact h
  · exact .listed hm hx

theorem entryOf_arr {l : List Json} : EntryOf (.arr l) m ↔ ∃ x ∈ l, EntryOf x m := by
  constructor
  · rintro (_ | ⟨hx, h⟩)
    exact ⟨_, hx, h⟩
  · rintro ⟨x, hx, h⟩
    exact .item hx h

theorem Collects.of_iff {r : Entries} (h : Collects x entries r)
    (hiff : ∀ m, EntryOf v m ↔ EntryOf x m) : Collects v entries r where
  mem_iff q := by
    rw [h.mem_iff q]
    simp only [IsEntry, hiff]
  canonical m X hm := h.canonical m X ((hiff m).mp hm)

theorem collects_addEntry {r : Entries} (hm : isLiteral m = false) (hl : isListObject m = false)
    (h : addEntry m entries = .ok r) : Collects (.obj m) entries r := by
  have hentry : ∀ o, EntryOf (.obj m) o ↔ o = m := by
    intro o
    rw [entryOf_node hl, and_iff_right hm]
  unfold addEntry at h
  split at h
  · rename_i X hX
    simp only [canonicalOrRaise, bind_eq_ok, orRaise_eq_ok, pure_eq_ok] at h
    obtain ⟨text, htext, rfl⟩ := h
    refine ⟨fun q => ?_, fun o Y ho _ => ?_⟩
    · rw [List.mem_cons, or_comm]
      refine or_congr_right ?_
      constructor
      · rintro rfl
        exact ⟨m, (hentry m).mpr rfl, hX, htext⟩
      · rintro ⟨o, ho, hid, hcanon⟩
        obtain rfl := (hentry o).mp ho
        rw [hX] at hid
        rw [htext] at hcanon
        cases hid
        cases hcanon
        rfl
    · rw [(hentry o).mp ho]
      exact ⟨text, htext⟩
  · rename_i hX
    cases h
    refine ⟨fun q => ?_, fun o X ho hid => ?_⟩
    · constructor
      · exact .inl
      · rintro (hq | ⟨o, ho, hid, -⟩)
        · exact hq
        · obtain rfl := (hentry o).mp ho
          exact absurd hid (hX q.1)
    · obtain rfl := (hentry o).mp ho
      exact absurd hid (hX X)

mutual

theorem collects_collectStatusEntries : ∀ (v : Json) (entries r : Entries),
    collectStatusEntries v entries = .ok r → Collects v entries r
  | .null, _, _, h | .bool _, _, _, h | .int _, _, _, h | .float _, _, _, h | .str _, _, _, h => by
    cases h
    exact collects_of_not_entryOf nofun
  | .arr l, entries, r, h => collects_collectStatusEntriesList l entries r h
  | .obj m, entries, r, h => by
    rw [collectStatusEntries] at h
    by_cases hm : isLiteral m = true
    · rw [if_pos hm] at h
      cases h
      exact collects_of_not_entryOf (not_entryOf_literal hm)
    · rw [if_neg hm] at h
      rw [Bool.not_eq_true] at hm
      by_cases hl : isListObject m = true
      · rw [if_pos hl] at h
        obtain ⟨x, hx⟩ := Option.isSome_iff_exists.mp hl
        exact (collects_collectStatusEntriesListed m entries r h x hx).of_iff
          fun o => entryOf_list hm hx
      · rw [if_neg hl] at h
        exact collects_addEntry hm (Bool.eq_false_of_not_eq_true hl) h

theorem collects_collectStatusEntriesList : ∀ (l : List Json) (entries r : Entries),
    collectStatusEntriesList l entries = .ok r → Collects (.arr l) entries r
  | [], _, _, h => by
    cases h
    exact collects_of_not_entryOf fun m hm => nomatch entryOf_arr.mp hm
  | v :: t, entries, r, h => by
    simp only [collectStatusEntriesList, bind_eq_ok] at h
    obtain ⟨entries', hv, ht⟩ := h
    have hv := collects_collectStatusEntries v entries entries' hv
    have ht := collects_collectStatusEntriesList t entries' r ht
    have hcons : ∀ m, EntryOf (.arr (v :: t)) m ↔ EntryOf v m ∨ EntryOf (.arr t) m := by
      intro m
      simp only [entryOf_arr, List.mem_cons, or_and_right, exists_or, exists_eq_left]
    refine ⟨fun q => ?_, fun m X hm hX => ?_⟩
    · rw [ht.mem_iff, hv.mem_iff, or_assoc]
      simp only [IsEntry, hcons, or_and_right, exists_or]
    · rcases (hcons m).mp hm with hm | hm
      · exact hv.canonical m X hm hX
      · exact ht.canonical m X hm hX

theorem collects_collectStatusEntriesListed : ∀ (l : List (Str × Json)) (entries r : Entries),
    collectStatusEntriesListed l entries = .ok r → ∀ x, Dict.get? l "@list" = some x →
      Collects x entries r
  | [], _, _, _ => nofun
  | (k, v) :: t, entries, r, h => by
    intro x hx
    rw [collectStatusEntriesListed] at h
    rw [Dict.get?_cons] at hx
    by_cases hk : k = "@list"
    · rw [if_pos hk] at h hx
      cases hx
      exact collects_collectStatusEntries v entries r h
    · rw [if_neg hk] at h hx
      exact collects_collectStatusEntriesListed t entries r h x hx

end

/-! ## The descriptions elsewhere -/

/-- An object that describes an entry is a copy of it. -/
def Settled (entries : Entries) (m : Dict) : Prop :=
  ∀ X, m.get "@id" = .str X → X ∈ entries.map Prod.fst → describes m = true →
    ∃ text, canonical (.obj m) = some text ∧ (X, text) ∈ entries

theorem settled_of_isMoved {X : Str} (hX : m.get "@id" = .str X)
    (h : isMoved entries m X = .ok false) : Settled entries m := by
  intro Y hY hmem hdescribes
  rw [hX] at hY
  cases hY
  have hany : entries.any (·.1 == X) = true := by
    obtain ⟨q, hq, rfl⟩ := List.mem_map.mp hmem
    exact List.any_eq_true.mpr ⟨q, hq, beq_self_eq_true _⟩
  rw [isMoved, hany, hdescribes, Bool.and_self, if_pos rfl] at h
  simp only [canonicalOrRaise, bind_eq_ok, orRaise_eq_ok, pure_eq_ok, Bool.not_eq_eq_eq_not,
    Bool.not_false, List.contains_iff_mem] at h
  exact h

/-- A node that was not marked: nothing was, and unless it is an entry it is settled. -/
theorem markMoved_eq_nil {inStatus : Bool} {moved : List Str}
    (h : markMoved entries inStatus m moved = .ok []) :
    moved = [] ∧ (inStatus = true ∨ Settled entries m) := by
  cases inStatus with
  | true => exact ⟨Except.ok.inj h, .inl rfl⟩
  | false =>
    unfold markMoved at h
    split at h
    · rename_i X hX
      simp only [bind_eq_ok, pure_eq_ok] at h
      obtain ⟨b, hb, hr⟩ := h
      cases b with
      | true => cases hr
      | false =>
        have hr : moved = [] := hr
        exact ⟨hr, .inr (settled_of_isMoved hX hb)⟩
    · rename_i hX
      exact ⟨Except.ok.inj h, .inr fun X hid => absurd hid (hX X rfl)⟩

mutual

/-- A walk that ends with nothing marked began so. -/
theorem eq_nil_of_walk : ∀ (v : Json) (top inStatus : Bool) (moved : List Str),
    collectDescribedElsewhere entries top inStatus v moved = .ok [] → moved = []
  | .null, _, _, _, h | .bool _, _, _, _, h | .int _, _, _, _, h | .float _, _, _, _, h
  | .str _, _, _, _, h => Except.ok.inj h
  | .arr l, _, inStatus, moved, h => eq_nil_of_walkList l inStatus moved h
  | .obj m, top, inStatus, moved, h => by
    rw [collectDescribedElsewhere] at h
    split at h
    · exact Except.ok.inj h
    · split at h
      · exact eq_nil_of_walkListed m inStatus moved h
      · obtain ⟨moved', hmark, hmembers⟩ := bind_eq_ok.mp h
        obtain rfl := eq_nil_of_walkMembers m top moved' hmembers
        exact (markMoved_eq_nil hmark).1

theorem eq_nil_of_walkList : ∀ (l : List Json) (inStatus : Bool) (moved : List Str),
    collectDescribedElsewhereList entries inStatus l moved = .ok [] → moved = []
  | [], _, _, h => Except.ok.inj h
  | v :: t, inStatus, moved, h => by
    obtain ⟨moved', hv, ht⟩ := bind_eq_ok.mp h
    obtain rfl := eq_nil_of_walkList t inStatus moved' ht
    exact eq_nil_of_walk v false inStatus moved hv

theorem eq_nil_of_walkListed : ∀ (l : List (Str × Json)) (inStatus : Bool) (moved : List Str),
    collectDescribedElsewhereListed entries inStatus l moved = .ok [] → moved = []
  | [], _, _, h => Except.ok.inj h
  | (k, v) :: t, inStatus, moved, h => by
    rw [collectDescribedElsewhereListed] at h
    split at h
    · exact eq_nil_of_walk v false inStatus moved h
    · exact eq_nil_of_walkListed t inStatus moved h

theorem eq_nil_of_walkMembers : ∀ (l : List (Str × Json)) (top : Bool) (moved : List Str),
    collectDescribedElsewhereMembers entries top l moved = .ok [] → moved = []
  | [], _, _, h => Except.ok.inj h
  | (k, v) :: t, top, moved, h => by
    rw [collectDescribedElsewhereMembers] at h
    split at h
    · exact eq_nil_of_walkMembers t top moved h
    · obtain ⟨moved', hv, ht⟩ := bind_eq_ok.mp h
      obtain rfl := eq_nil_of_walkMembers t top moved' ht
      exact eq_nil_of_walk v false _ moved hv

end

theorem walk_item {inStatus : Bool} {l : List Json}
    (h : collectDescribedElsewhereList entries inStatus l [] = .ok []) :
    ∀ v ∈ l, collectDescribedElsewhere entries false inStatus v [] = .ok [] := by
  induction l with
  | nil => exact fun v hv => absurd hv List.not_mem_nil
  | cons v l ih =>
    obtain ⟨moved', hv, ht⟩ := bind_eq_ok.mp h
    obtain rfl := eq_nil_of_walkList l inStatus moved' ht
    exact List.forall_mem_cons.mpr ⟨hv, ih ht⟩

theorem walk_listed {inStatus : Bool}
    (h : collectDescribedElsewhereListed entries inStatus m [] = .ok [])
    (hx : m.get? "@list" = some x) :
    collectDescribedElsewhere entries false inStatus x [] = .ok [] := by
  induction m with
  | nil => cases hx
  | cons p m ih =>
    obtain ⟨k, v⟩ := p
    rw [collectDescribedElsewhereListed] at h
    rw [Dict.get?_cons] at hx
    split at h
    · rename_i hk
      rw [if_pos hk] at hx
      cases hx
      exact h
    · rename_i hk
      rw [if_neg hk] at hx
      exact ih h hx

theorem walk_member {top : Bool}
    (h : collectDescribedElsewhereMembers entries top m [] = .ok []) :
    ∀ p ∈ m, isLeafKey p.1 = false →
      collectDescribedElsewhere entries false (top && p.1 == credentialStatus) p.2 [] = .ok [] := by
  induction m with
  | nil => exact fun p hp => absurd hp List.not_mem_nil
  | cons p m ih =>
    obtain ⟨k, v⟩ := p
    rw [collectDescribedElsewhereMembers] at h
    rw [List.forall_mem_cons]
    split at h
    · rename_i hk
      exact ⟨fun hleaf => absurd hk (by rw [hleaf]; exact Bool.false_ne_true), ih h⟩
    · obtain ⟨moved', hv, ht⟩ := bind_eq_ok.mp h
      obtain rfl := eq_nil_of_walkMembers m top moved' ht
      exact ⟨fun _ => hv, ih ht⟩

/-- A node object of a walk that marked nothing: it is settled, or an entry that was not checked. -/
def Accounted (entries : Entries) (top inStatus : Bool) (v : Json) (m : Dict) : Prop :=
  Settled entries m ∨ (inStatus = true ∧ EntryOf v m) ∨
    (top = true ∧ ∃ o, v = .obj o ∧ EntryOf (Dict.get o credentialStatus) m)

/-- An object of an expanded document that was accepted. -/
def Sound (v : Json) : Prop := ∀ m, Within v (.obj m) → isLiteral m = false →
  ExpandedObject m ∧ Checked m ∧ (Dict.keys m).Nodup

theorem listObject_members (hexp : ExpandedObject m) (hc : Checked m) (hl : isListObject m = true) :
    m.get "@id" = .null ∧ ∀ p ∈ m, p.1 = "@list" := by
  have hlist : ∀ p ∈ m, p.1 = "@list" := by
    intro p hp
    have hmem : p.1 ∈ m.keys := List.mem_map_of_mem hp
    rcases hexp.list hl p.1 hmem with hk | hk
    · exact hk
    · have hno := hc.keywords (lit "@index") (by decide)
      rw [hk] at hmem
      rw [Dict.has_iff.mpr hmem] at hno
      cases hno
  refine ⟨?_, hlist⟩
  have hne : (lit "@id") ≠ lit "@list" := by decide
  have hnone : m.get? "@id" = none := by
    rw [Dict.get?_eq_none_iff]
    intro hmem
    obtain ⟨p, hp, hk⟩ := List.mem_map.mp hmem
    rw [hlist p hp] at hk
    exact hne hk.symm
  rw [Dict.get, hnone]
  rfl

theorem accounted_of_within (hw : Within v w) : ∀ {top inStatus : Bool}, Sound v →
    collectDescribedElsewhere entries top inStatus v [] = .ok [] →
      ∀ m, w = .obj m → isLiteral m = false → Accounted entries top inStatus v m := by
  induction hw with
  | refl v =>
    rintro top inStatus hsound h m rfl hm
    obtain ⟨hexp, hc, -⟩ := hsound m (.refl _) hm
    rw [collectDescribedElsewhere, hm, if_neg Bool.false_ne_true] at h
    by_cases hl : isListObject m = true
    · refine .inl fun X hX => ?_
      rw [(listObject_members hexp hc hl).1] at hX
      cases hX
    · rw [if_neg hl] at h
      obtain ⟨moved, hmark, hmembers⟩ := bind_eq_ok.mp h
      obtain rfl := eq_nil_of_walkMembers m top moved hmembers
      rcases (markMoved_eq_nil hmark).2 with hin | hsettled
      · exact .inr (.inl ⟨hin, .node hm (Bool.eq_false_of_not_eq_true hl)⟩)
      · exact .inl hsettled
  | @item l x v hx hw ih =>
    intro top inStatus hsound h m hv hm
    have hx' := walk_item h x hx
    rcases ih (fun m hm => hsound m (.item hx hm)) hx' m hv hm with hs | ⟨hin, he⟩ | ⟨htop, -⟩
    · exact .inl hs
    · exact .inr (.inl ⟨hin, .item hx he⟩)
    · cases htop
  | @member o k x v ho hx hw ih =>
    intro top inStatus hsound h m hv hm
    obtain ⟨hexp, hc, hnodup⟩ := hsound o (.refl _) ho
    have hget := Dict.get?_of_mem hnodup hx
    have hinner : Sound x := fun m hm => hsound m (.member ho hx hm)
    rw [collectDescribedElsewhere, ho, if_neg Bool.false_ne_true] at h
    by_cases hl : isListObject o = true
    · rw [if_pos hl] at h
      obtain rfl := (listObject_members hexp hc hl).2 _ hx
      rcases ih hinner (walk_listed h hget) m hv hm with hs | ⟨hin, he⟩ | ⟨htop, -⟩
      · exact .inl hs
      · exact .inr (.inl ⟨hin, .listed ho hget he⟩)
      · cases htop
    · rw [if_neg hl] at h
      obtain ⟨moved, -, hmembers⟩ := bind_eq_ok.mp h
      obtain rfl := eq_nil_of_walkMembers o top moved hmembers
      by_cases hk : isLeafKey k = true
      · subst hv
        exact absurd hw (not_within_leaf hexp hc hnodup hx hk)
      · rw [Bool.not_eq_true] at hk
        have hx' := walk_member hmembers (k, x) hx hk
        rcases ih hinner hx' m hv hm with hs | ⟨hin, he⟩ | ⟨htop, -⟩
        · exact .inl hs
        · rw [Bool.and_eq_true, beq_iff_eq] at hin
          obtain ⟨htop, rfl⟩ := hin
          refine .inr (.inr ⟨htop, o, rfl, ?_⟩)
          rw [Dict.get, hget]
          exact he
        · cases htop

end OpenVC.ContextValidation
