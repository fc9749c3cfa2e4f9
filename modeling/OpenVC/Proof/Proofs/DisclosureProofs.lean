import OpenVC.Proof.Proofs.SdJwtProofs

/-!
# The accounts of `_unpack`

`Expands` says what it means to put disclosures into a payload, with no state: every member stays,
every digest of an object is left out or replaced by the claim it stands for, every digest of an
array by the element. The log of an expansion lists the digests in the order they are met, each with
the disclosure that was inserted for it, if one was. `_unpack` computes such an expansion, and its
three accumulators (`used`, `seen` and `placed`) are the accounts of the log.
-/

namespace OpenVC.SdJwt

open Python

/-! ## Expansions -/

/-- A step down into a value. -/
inductive Step where
  | key (name : Str)
  | index (i : Nat)
  deriving DecidableEq

/-- The value at a path. -/
def valueAt : List Step → Json → Option Json
  | [], v => some v
  | .key name :: path, .obj m => (Dict.get? m name).bind (valueAt path)
  | .index i :: path, .arr l => l[i]?.bind (valueAt path)
  | _, _ => none

/-- A disclosure that was inserted: the digest it stood for, what it said, the value it carried and
the place the value was put. -/
structure Insertion where
  digest : Str
  disclosure : List Json
  value : Json
  path : List Step

/-- A digest of the payload that was met: it was left out, or its disclosure was inserted. -/
inductive Event where
  | hidden (digest : Str)
  | disclosed (i : Insertion)

/-- The digest that was met. -/
def Event.digest : Event → Str
  | .hidden digest => digest
  | .disclosed i => i.digest

/-- The disclosure that was inserted. -/
def Event.insertion : Event → Option Insertion
  | .hidden _ => none
  | .disclosed i => some i

/-- The digests that were met, in order. -/
def met (log : List Event) : List Str := log.map Event.digest

/-- The disclosures that were inserted, in order. -/
def inserted (log : List Event) : List Insertion := log.filterMap Event.insertion

/-- A relation between a value at a path, its expansion and the log of the expansion. -/
abbrev Expansion := List Step → Json → Json → List Event → Prop

/-- The members of an object but for `_sd`, each expanded in its place. -/
inductive ExpandMembers (R : Expansion) (path : List Step) : Dict → Dict → List Event → Prop
  | nil : ExpandMembers R path [] [] []
  | sd {value members out log} (h : ExpandMembers R path members out log) :
      ExpandMembers R path ((lit "_sd", value) :: members) out log
  | member {key value members value' out log₁ log₂} (hsd : key ≠ lit "_sd") (hdots : key ≠ lit "...")
      (hv : R (path ++ [.key key]) value value' log₁) (h : ExpandMembers R path members out log₂) :
      ExpandMembers R path ((key, value) :: members) ((key, value') :: out) (log₁ ++ log₂)

/-- The digests of an object: one with no disclosure is left out, one with a disclosure becomes the
claim it names. -/
inductive ExpandDigests (D : ByDigest) (R : Expansion) (path : List Step) :
    List Str → Dict → List Event → Prop
  | nil : ExpandDigests D R path [] [] []
  | hidden {digest digests out log} (hd : D.lookup digest = none)
      (h : ExpandDigests D R path digests out log) :
      ExpandDigests D R path (digest :: digests) out (.hidden digest :: log)
  | disclosed {digest digests salt name value value' out log₁ log₂}
      (hd : D.lookup digest = some [salt, .str name, value]) (hsd : name ≠ lit "_sd")
      (hdots : name ≠ lit "...") (hv : R (path ++ [.key name]) value value' log₁)
      (h : ExpandDigests D R path digests out log₂) :
      ExpandDigests D R path (digest :: digests) ((name, value') :: out)
        (.disclosed ⟨digest, [salt, .str name, value], value, path ++ [.key name]⟩ :: (log₁ ++ log₂))

/-- The elements of an array from a place on: one with no disclosure is left out, one with a
disclosure becomes the value it carries, any other is expanded. -/
inductive ExpandElements (D : ByDigest) (R : Expansion) (path : List Step) :
    Nat → List Json → List Json → List Event → Prop
  | nil {i} : ExpandElements D R path i [] [] []
  | hidden {i element digest elements out log} (he : elementDigest element = some (.str digest))
      (hd : D.lookup digest = none) (h : ExpandElements D R path i elements out log) :
      ExpandElements D R path i (element :: elements) out (.hidden digest :: log)
  | disclosed {i element digest elements salt value value' out log₁ log₂}
      (he : elementDigest element = some (.str digest)) (hd : D.lookup digest = some [salt, value])
      (hv : R (path ++ [.index i]) value value' log₁)
      (h : ExpandElements D R path (i + 1) elements out log₂) :
      ExpandElements D R path i (element :: elements) (value' :: out)
        (.disclosed ⟨digest, [salt, value], value, path ++ [.index i]⟩ :: (log₁ ++ log₂))
  | plain {i element value' elements out log₁ log₂} (he : elementDigest element = none)
      (hv : R (path ++ [.index i]) element value' log₁)
      (h : ExpandElements D R path (i + 1) elements out log₂) :
      ExpandElements D R path i (element :: elements) (value' :: out) (log₁ ++ log₂)

/-- The expansion of a value with the disclosures `D`, at most so many levels deep. In an object the
members come first and the inserted claims after them, all under different names: none replaces
another. -/
inductive ExpandsBy (D : ByDigest) (R : Expansion) : Expansion
  | obj {path members digests plain claims log₁ log₂}
      (hm : ExpandMembers R path members plain log₁)
      (hsd : sdDigests (Dict.get members "_sd") = .ok digests)
      (hd : ExpandDigests D R path digests claims log₂) (hnodup : (Dict.keys (plain ++ claims)).Nodup) :
      ExpandsBy D R path (.obj members) (.obj (plain ++ claims)) (log₁ ++ log₂)
  | arr {path elements out log} (h : ExpandElements D R path 0 elements out log) :
      ExpandsBy D R path (.arr elements) (.arr out) log
  | scalar {path v} (ho : v.obj? = none) (ha : v.arr? = none) : ExpandsBy D R path v v []

/-- `ExpandsBy`, with the levels below bounded. -/
def Expands (D : ByDigest) : Nat → Expansion
  | 0 => fun _ _ _ _ => False
  | levels + 1 => ExpandsBy D (Expands D levels)

/-! ## The accumulators are the accounts of the log -/

/-- The top-level claim a path starts in. -/
def topOf : List Step → Option Str
  | .key name :: _ => some name
  | _ => none

/-- Whether a path leads below a top-level claim. -/
def isNested : List Step → Bool
  | [.key _] => false
  | _ => true

/-- What `placed` records of an insertion: the top-level claim it lies in, and whether it lies below
that claim. -/
def placementAt (path : List Step) : Option Str × Bool := (topOf path, isNested path)

/-- A stretch of a run that logged `log`. -/
structure Books (st st' : Unpacking) (log : List Event) : Prop where
  seen : st'.seen = (met log).reverse ++ st.seen
  fresh : ∀ d ∈ met log, d ∉ st.seen
  nodup : (met log).Nodup
  used : st'.used = ((inserted log).map Insertion.digest).reverse ++ st.used
  placed : st'.placed = st.placed ++ (inserted log).map fun i => placementAt i.path

@[simp] theorem met_nil : met [] = [] := rfl

@[simp] theorem met_cons (e : Event) (log : List Event) : met (e :: log) = e.digest :: met log := rfl

@[simp] theorem met_append (log log' : List Event) : met (log ++ log') = met log ++ met log' :=
  List.map_append

@[simp] theorem inserted_nil : inserted [] = [] := rfl

@[simp] theorem inserted_hidden (d : Str) (log : List Event) :
    inserted (.hidden d :: log) = inserted log := rfl

@[simp] theorem inserted_disclosed (i : Insertion) (log : List Event) :
    inserted (.disclosed i :: log) = i :: inserted log := rfl

@[simp] theorem inserted_append (log log' : List Event) :
    inserted (log ++ log') = inserted log ++ inserted log' := List.filterMap_append

variable {D : ByDigest} {descend : Descend} {st st₁ st' : Unpacking} {log log₁ log₂ : List Event}

theorem Books.nil (st : Unpacking) : Books st st [] where
  seen := by simp
  fresh := by simp
  nodup := by simp
  used := by simp
  placed := by simp

theorem Books.trans (h₁ : Books st st₁ log₁) (h₂ : Books st₁ st' log₂) :
    Books st st' (log₁ ++ log₂) where
  seen := by rw [h₂.seen, h₁.seen]; simp
  fresh := by
    intro d hd
    rw [met_append, List.mem_append] at hd
    rcases hd with hd | hd
    · exact h₁.fresh d hd
    · have := h₂.fresh d hd
      rw [h₁.seen, List.mem_append, not_or] at this
      exact this.2
  nodup := by
    rw [met_append, List.nodup_append]
    refine ⟨h₁.nodup, h₂.nodup, fun d hd e he heq => ?_⟩
    have := h₂.fresh e he
    rw [h₁.seen, List.mem_append, not_or, List.mem_reverse] at this
    exact this.1 (heq ▸ hd)
  used := by rw [h₂.used, h₁.used]; simp
  placed := by rw [h₂.placed, h₁.placed]; simp

theorem Books.hidden {d : Str} (h : d ∉ st.seen) :
    Books st { st with seen := d :: st.seen } [.hidden d] where
  seen := rfl
  fresh := by simpa [Event.digest] using h
  nodup := by simp
  used := rfl
  placed := by simp

theorem Books.disclosed {i : Insertion} (h : i.digest ∉ st.seen) :
    Books st { used := i.digest :: st.used, seen := i.digest :: st.seen,
               placed := st.placed ++ [placementAt i.path] } [.disclosed i] where
  seen := rfl
  fresh := by simpa [Event.digest] using h
  nodup := by simp
  used := rfl
  placed := rfl

/-! ## `_unpack` computes an expansion -/

/-- The values of the disclosures are dicts and lists as Python has them. -/
def WellFormed (D : ByDigest) : Prop := ∀ digest disclosure, D.lookup digest = some disclosure →
  ∀ v ∈ disclosure, v.WF

/-- A path from the root of a payload, which is an object: it does not start with an index, and the
value at the empty path is no array. -/
structure Rooted (path : List Step) (node : Json) : Prop where
  start : ∀ i rest, path ≠ .index i :: rest
  root : path = [] → node.arr? = none

/-- `descend` computes an expansion and keeps its accounts. -/
def Computes (R : Expansion) (descend : Descend) : Prop :=
  ∀ path node st node' st', Rooted path node → node.WF →
    descend (topOf path) node st = .ok (node', st') →
    ∃ log, R path node node' log ∧ Books st st' log

section Paths

variable {path : List Step} {node : Json}

theorem Rooted.step (h : Rooted path node) (hne : path ≠ [] ∨ ∃ k, s = Step.key k) (v : Json) :
    Rooted (path ++ [s]) v where
  start := by
    intro i rest e
    cases path with
    | nil =>
      obtain hne | ⟨k, rfl⟩ := hne
      · exact hne rfl
      · simp at e
    | cons s' path =>
      rw [List.cons_append] at e
      exact h.start i path (by rw [(List.cons.inj e).1])
  root := by simp

theorem Rooted.key (h : Rooted path node) (k : Str) (v : Json) : Rooted (path ++ [.key k]) v :=
  h.step (.inr ⟨k, rfl⟩) v

theorem Rooted.index {elements : List Json} (h : Rooted path (.arr elements)) (i : Nat) (v : Json) :
    Rooted (path ++ [.index i]) v :=
  h.step (.inl fun e => nomatch h.root e) v

theorem Rooted.topOf_key (h : Rooted path node) (k : Str) :
    topOf (path ++ [.key k]) = some ((topOf path).getD k) := by
  cases path with
  | nil => rfl
  | cons s path =>
    cases s with
    | key name => rfl
    | index i => exact absurd rfl (h.start i path)

theorem Rooted.topOf_index {elements : List Json} (h : Rooted path (.arr elements)) (i : Nat) :
    topOf (path ++ [.index i]) = topOf path := by
  cases path with
  | nil => exact nomatch h.root rfl
  | cons s path => cases s <;> rfl

theorem Rooted.placement_key (h : Rooted path node) (k : Str) :
    placementAt (path ++ [.key k]) = placement (topOf path) k := by
  rw [placementAt, h.topOf_key]
  cases path with
  | nil => rfl
  | cons s path =>
    cases s with
    | key name =>
      cases path with
      | nil => rfl
      | cons s' path => rfl
    | index i => exact absurd rfl (h.start i path)

theorem Rooted.placement_index {elements : List Json} (h : Rooted path (.arr elements)) (i : Nat) :
    placementAt (path ++ [.index i]) = (topOf path, true) := by
  rw [placementAt, h.topOf_index]
  cases path with
  | nil => exact nomatch h.root rfl
  | cons s path =>
    cases path with
    | nil => cases s <;> rfl
    | cons s' path => cases s <;> rfl

end Paths

section Loops

variable {R : Expansion} {path : List Step} {node : Json}

theorem unpackMembers_computes (hR : Computes R descend) (hp : Rooted path node)
    {members result result' : Dict} (hwf : Json.WFMembers members) (hnodup : members.keys.Nodup)
    (hfresh : ∀ k ∈ members.keys, k ∉ result.keys)
    (h : unpackMembers descend (topOf path) members result st = .ok (result', st')) :
    ∃ out log, ExpandMembers R path members out log ∧ result' = result ++ out ∧ Books st st' log := by
  induction members generalizing st result with
  | nil =>
    cases h
    exact ⟨[], [], .nil, by simp, .nil _⟩
  | cons m members ih =>
    obtain ⟨key, value⟩ := m
    rw [Dict.keys_cons, List.nodup_cons] at hnodup
    have hrest : ∀ k ∈ Dict.keys members, k ∉ result.keys := fun k hk =>
      hfresh k (List.mem_cons_of_mem _ hk)
    rw [unpackMembers] at h
    split at h
    · rename_i hsd
      obtain ⟨out, log, he, hr, hb⟩ := ih hwf.2 hnodup.2 hrest h
      exact ⟨out, log, hsd ▸ .sd he, hr, hb⟩
    · rename_i hsd
      split at h
      · cases h
      · rename_i hdots
        obtain ⟨⟨value', st₁⟩, h₁, h₂⟩ := bind_eq_ok.mp h
        rw [← hp.topOf_key] at h₁
        obtain ⟨log₁, hv, hb₁⟩ := hR _ _ _ _ _ (hp.key key value) hwf.1 h₁
        have hnew : key ∉ result.keys := hfresh key List.mem_cons_self
        dsimp only at h₂
        rw [Dict.set_of_not_mem hnew] at h₂
        have hfresh' : ∀ k ∈ Dict.keys members, k ∉ Dict.keys (result ++ [(key, value')]) := by
          intro k hk
          rw [Dict.keys, List.map_append, List.mem_append, not_or]
          refine ⟨hrest k hk, ?_⟩
          rw [List.map_singleton, List.mem_singleton]
          exact fun e => hnodup.1 (e ▸ hk)
        obtain ⟨out, log₂, he, hr, hb₂⟩ := ih hwf.2 hnodup.2 hfresh' h₂
        exact ⟨(key, value') :: out, log₁ ++ log₂, .member hsd hdots hv he, by simp [hr],
          hb₁.trans hb₂⟩

theorem ExpandMembers.keys_sublist {members out : Dict} (h : ExpandMembers R path members out log) :
    out.keys.Sublist members.keys := by
  induction h with
  | nil => exact List.Sublist.refl _
  | sd _ ih => exact ih.cons _
  | member _ _ _ _ ih => exact ih.cons_cons _

theorem objectDisclosure_eq_ok {result : Dict} {disclosure : List Json} {name : Str} {value : Json}
    (h : objectDisclosure result disclosure = .ok (name, value)) :
    (∃ salt, disclosure = [salt, .str name, value]) ∧ name ≠ lit "_sd" ∧ name ≠ lit "..." ∧
      name ∉ result.keys := by
  unfold objectDisclosure at h
  split at h
  · rename_i salt n v
    simp only [bind_eq_ok, raiseIf_eq_ok, pure_eq_ok, Prod.mk.injEq] at h
    obtain ⟨⟨⟩, hres, ⟨⟩, hhas, rfl, rfl⟩ := h
    simp only [Bool.or_eq_false_iff, beq_eq_false_iff_ne] at hres
    refine ⟨⟨salt, rfl⟩, hres.1, hres.2, ?_⟩
    rw [← Dict.has_iff, hhas]
    simp
  · cases h
  · cases h

theorem unpackDigests_computes (hR : Computes R descend) (hD : WellFormed D) (hp : Rooted path node)
    {digests : List Str} {result result' : Dict} (hnodup : result.keys.Nodup)
    (h : unpackDigests D descend (topOf path) digests result st = .ok (result', st')) :
    ∃ out log, ExpandDigests D R path digests out log ∧ result' = result ++ out ∧
      (Dict.keys (result ++ out)).Nodup ∧ Books st st' log := by
  induction digests generalizing st result with
  | nil =>
    cases h
    exact ⟨[], [], .nil, by simp, by simpa using hnodup, .nil _⟩
  | cons digest digests ih =>
    rw [unpackDigests] at h
    split at h
    · cases h
    · rename_i hseen
      split at h
      · rename_i hd
        obtain ⟨out, log, he, hr, hn, hb⟩ := ih hnodup h
        exact ⟨out, _, .hidden hd he, hr, hn, (Books.hidden hseen).trans hb⟩
      · rename_i disclosure hd
        obtain ⟨⟨name, value⟩, hdisc, h⟩ := bind_eq_ok.mp h
        obtain ⟨⟨value', st₁⟩, h₁, h₂⟩ := bind_eq_ok.mp h
        obtain ⟨⟨salt, rfl⟩, hsd, hdots, hnew⟩ := objectDisclosure_eq_ok hdisc
        have hvwf : value.WF := hD digest _ hd value (by simp)
        dsimp only at h₁ h₂
        rw [← hp.topOf_key, ← hp.placement_key] at h₁
        obtain ⟨log₁, hv, hb₁⟩ := hR _ _ _ _ _ (hp.key name value) hvwf h₁
        rw [Dict.set_of_not_mem hnew] at h₂
        have hn' : (Dict.keys (result ++ [(name, value')])).Nodup := by
          rw [← Dict.set_of_not_mem hnew]
          exact Dict.nodup_keys_set hnodup
        obtain ⟨out, log₂, he, hr, hn, hb₂⟩ := ih hn' h₂
        rw [List.append_assoc, List.singleton_append] at hn
        exact ⟨(name, value') :: out, _, .disclosed hd hsd hdots hv he, by simp [hr], hn,
          (Books.disclosed (i := ⟨digest, [salt, .str name, value], value, path ++ [.key name]⟩)
            hseen).trans (hb₁.trans hb₂)⟩

theorem arrayDisclosure_eq_ok {disclosure : List Json} {value : Json}
    (h : arrayDisclosure disclosure = .ok value) : ∃ salt, disclosure = [salt, value] := by
  unfold arrayDisclosure at h
  split at h
  · cases h
    exact ⟨_, rfl⟩
  · cases h

theorem unpackElements_computes (hR : Computes R descend) (hD : WellFormed D)
    {all elements out : List Json} {i : Nat} (hp : Rooted path (.arr all))
    (hwf : Json.WFList elements)
    (h : unpackElements D descend (topOf path) elements st = .ok (out, st')) :
    ∃ log, ExpandElements D R path i elements out log ∧ Books st st' log := by
  induction elements generalizing st out i with
  | nil =>
    cases h
    exact ⟨[], .nil, .nil _⟩
  | cons element elements ih =>
    rw [unpackElements] at h
    obtain ⟨⟨front, st₁⟩, h₁, h⟩ := bind_eq_ok.mp h
    obtain ⟨⟨rest, st₂⟩, h₂, h⟩ := bind_eq_ok.mp h
    cases h
    rw [unpackElement] at h₁
    cases he : elementDigest element with
    | none =>
      rw [he] at h₁
      obtain ⟨⟨value, st₃⟩, hv, h₁⟩ := bind_eq_ok.mp h₁
      cases h₁
      rw [← hp.topOf_index i] at hv
      obtain ⟨log₁, hv, hb₁⟩ := hR _ _ _ _ _ (hp.index i element) hwf.1 hv
      obtain ⟨log₂, hrest, hb₂⟩ := ih (i := i + 1) hwf.2 h₂
      exact ⟨_, .plain he hv hrest, hb₁.trans hb₂⟩
    | some digest =>
      simp only [he, unpackElementDigest, bind_eq_ok, orRaise_eq_ok, raiseIf_eq_ok,
        Json.str?_eq_some] at h₁
      obtain ⟨digest, rfl, ⟨⟩, hseen, h₁⟩ := h₁
      have hseen' : digest ∉ st.seen := by simpa using hseen
      split at h₁
      · rename_i hd
        cases h₁
        obtain ⟨log₂, hrest, hb₂⟩ := ih (i := i) hwf.2 h₂
        exact ⟨_, .hidden he hd hrest, (Books.hidden hseen').trans hb₂⟩
      · rename_i disclosure hd
        obtain ⟨value, hdisc, h₁⟩ := bind_eq_ok.mp h₁
        obtain ⟨⟨value', st₃⟩, hv, h₁⟩ := bind_eq_ok.mp h₁
        cases h₁
        obtain ⟨salt, rfl⟩ := arrayDisclosure_eq_ok hdisc
        have hvwf : value.WF := hD digest _ hd value (by simp)
        rw [← hp.placement_index i, ← hp.topOf_index i] at hv
        obtain ⟨log₁, hv, hb₁⟩ := hR _ _ _ _ _ (hp.index i value) hvwf hv
        obtain ⟨log₂, hrest, hb₂⟩ := ih (i := i + 1) hwf.2 h₂
        exact ⟨_, .disclosed he hd hv hrest, (Books.disclosed
          (i := ⟨digest, [salt, value], value, path ++ [.index i]⟩) hseen').trans (hb₁.trans hb₂)⟩

end Loops

/-- `_unpack` computes an expansion at every depth. -/
theorem unpack_computes (hD : WellFormed D) (levels : Nat) :
    Computes (Expands D levels) (unpack D levels) := by
  induction levels with
  | zero =>
    intro path node st node' st' _ _ h
    cases h
  | succ levels ih =>
    intro path node st node' st' hp hwf h
    cases node with
    | obj members =>
      rw [unpack] at h
      obtain ⟨⟨result, st₁⟩, h₁, h⟩ := bind_eq_ok.mp h
      obtain ⟨digests, hsd, h⟩ := bind_eq_ok.mp h
      obtain ⟨⟨result', st₂⟩, h₂, h⟩ := bind_eq_ok.mp h
      cases h
      obtain ⟨plain, log₁, hm, hr, hb₁⟩ :=
        unpackMembers_computes ih hp hwf.2 hwf.1 (by simp) h₁
      rw [List.nil_append] at hr
      subst hr
      obtain ⟨claims, log₂, hd, rfl, hn, hb₂⟩ :=
        unpackDigests_computes ih hD hp (hwf.1.sublist hm.keys_sublist) h₂
      exact ⟨_, .obj hm hsd hd hn, hb₁.trans hb₂⟩
    | arr elements =>
      rw [unpack] at h
      obtain ⟨⟨out, st₁⟩, h₁, h⟩ := bind_eq_ok.mp h
      cases h
      obtain ⟨log, he, hb⟩ := unpackElements_computes ih hD hp hwf h₁
      exact ⟨log, .arr he, hb⟩
    | null | bool | int | float | str =>
      cases h
      exact ⟨[], .scalar rfl rfl, .nil _⟩

/-! ## What an expansion accounts for -/

mutual

/-- The digests that occur in a value, as `_sd` entries and as array elements. -/
def digestsIn : Json → List Str
  | .obj m => digestsInMembers m ++ (elements (Dict.get m "_sd")).filterMap Json.str?
  | .arr l => digestsInElements l
  | _ => []

/-- The digests in the members of an object but for its own `_sd`. -/
def digestsInMembers : List (Str × Json) → List Str
  | [] => []
  | (key, value) :: members =>
    (if key = lit "_sd" then [] else digestsIn value) ++ digestsInMembers members

/-- The digests in the elements of an array. -/
def digestsInElements : List Json → List Str
  | [] => []
  | element :: elements =>
    (match elementDigest element with
      | some digest => digest.str?.toList
      | none => digestsIn element) ++ digestsInElements elements

end

/-- The digests of a value and of the disclosures inserted into it are the digests met. -/
def Balanced (R : Expansion) : Prop := ∀ path node node' log, R path node node' log →
  (met log).Perm (digestsIn node ++ (inserted log).flatMap fun i => digestsIn i.value)

section Balance

variable {R : Expansion} {path : List Step}

theorem perm_disclosed {α : Type} {x : α} {m₁ m₂ a b c d : List α} (h₁ : m₁.Perm (a ++ b))
    (h₂ : m₂.Perm (c ++ d)) : (x :: (m₁ ++ m₂)).Perm ((x :: c) ++ (a ++ (b ++ d))) := by
  rw [List.cons_append]
  refine List.Perm.cons _ ?_
  calc List.Perm (m₁ ++ m₂) ((a ++ b) ++ (c ++ d)) := h₁.append h₂
    List.Perm _ ((c ++ d) ++ (a ++ b)) := List.perm_append_comm
    List.Perm _ (c ++ (a ++ (b ++ d))) := by
      rw [List.append_assoc]
      refine List.Perm.append_left c ?_
      rw [← List.append_assoc a b d]
      exact List.perm_append_comm

theorem perm_plain {α : Type} {m₁ m₂ a b c d : List α} (h₁ : m₁.Perm (a ++ b))
    (h₂ : m₂.Perm (c ++ d)) : (m₁ ++ m₂).Perm ((a ++ c) ++ (b ++ d)) := by
  calc List.Perm (m₁ ++ m₂) ((a ++ b) ++ (c ++ d)) := h₁.append h₂
    List.Perm _ ((a ++ c) ++ (b ++ d)) := by
      rw [List.append_assoc, List.append_assoc]
      refine List.Perm.append_left a ?_
      rw [← List.append_assoc, ← List.append_assoc]
      exact List.Perm.append_right d List.perm_append_comm

theorem ExpandMembers.balanced (hR : Balanced R) {members out : Dict}
    (h : ExpandMembers R path members out log) :
    (met log).Perm (digestsInMembers members ++
      (inserted log).flatMap fun i => digestsIn i.value) := by
  induction h with
  | nil => exact List.Perm.refl _
  | sd _ ih => simpa [digestsInMembers] using ih
  | member hsd _ hv _ ih =>
    rw [digestsInMembers, if_neg hsd, met_append, inserted_append, List.flatMap_append]
    exact perm_plain (hR _ _ _ _ hv) ih

theorem ExpandDigests.balanced (hR : Balanced R) {digests : List Str} {out : Dict}
    (h : ExpandDigests D R path digests out log) :
    (met log).Perm (digests ++ (inserted log).flatMap fun i => digestsIn i.value) := by
  induction h with
  | nil => exact List.Perm.refl _
  | hidden _ _ ih => exact List.Perm.cons _ ih
  | disclosed _ _ _ hv _ ih =>
    rw [met_cons, inserted_disclosed, met_append, inserted_append, List.flatMap_cons,
      List.flatMap_append]
    exact perm_disclosed (hR _ _ _ _ hv) ih

theorem ExpandElements.balanced (hR : Balanced R) {i : Nat} {elements out : List Json}
    (h : ExpandElements D R path i elements out log) :
    (met log).Perm (digestsInElements elements ++
      (inserted log).flatMap fun i => digestsIn i.value) := by
  induction h with
  | nil => exact List.Perm.refl _
  | hidden he _ _ ih =>
    rw [digestsInElements, he]
    exact List.Perm.cons _ ih
  | disclosed he _ hv _ ih =>
    rw [digestsInElements, he, met_cons, inserted_disclosed, met_append, inserted_append,
      List.flatMap_cons, List.flatMap_append]
    exact perm_disclosed (hR _ _ _ _ hv) ih
  | plain he hv _ ih =>
    rw [digestsInElements, he, met_append, inserted_append, List.flatMap_append]
    exact perm_plain (hR _ _ _ _ hv) ih

theorem sdDigests_eq_ok {v : Json} {digests : List Str} (h : sdDigests v = .ok digests) :
    (elements v).filterMap Json.str? = digests := by
  cases v with
  | null =>
    cases h
    rfl
  | arr l =>
    rw [sdDigests, orRaise_eq_ok] at h
    split at h
    · exact Option.some.inj h
    · cases h
  | bool | int | float | str | obj => cases h

theorem expands_balanced (levels : Nat) : Balanced (Expands D levels) := by
  induction levels with
  | zero =>
    intro path node node' log h
    exact h.elim
  | succ levels ih =>
    intro path node node' log h
    cases h with
    | obj hm hsd hd hn =>
      rw [digestsIn, sdDigests_eq_ok hsd, met_append, inserted_append, List.flatMap_append]
      exact perm_plain (hm.balanced ih) (hd.balanced ih)
    | arr he =>
      rw [digestsIn]
      exact he.balanced ih
    | scalar ho ha =>
      cases node with
      | obj m => cases ho
      | arr l => cases ha
      | null | bool | int | float | str => exact List.Perm.refl _

end Balance

/-! ## Where a disclosure lands -/

/-- The insertion `i` into the value at `path`: the disclosure its digest stands for, and the place
`rel` below `path` where the expansion of its value is found. A value does not carry the digest of
its own disclosure unless the log repeats it. -/
structure Lands (D : ByDigest) (path : List Step) (node' : Json) (log : List Event) (i : Insertion)
    (rel : List Step) : Prop where
  listed : D.lookup i.digest = some i.disclosure
  carried : i.disclosure.getLast? = some i.value
  place : i.path = path ++ rel
  below : rel ≠ []
  expanded : ∃ levels value' sub, valueAt rel node' = some value' ∧
    Expands D levels i.path i.value value' sub ∧ ((met log).Nodup → i.digest ∉ met sub)

/-- An insertion below a step is one below the value the step leads to. -/
theorem Lands.up {path rel : List Step} {s : Step} {v node' : Json} {i : Insertion}
    (h : Lands D (path ++ [s]) v log₁ i rel)
    (hnode : ∀ w, valueAt rel v = some w → valueAt (s :: rel) node' = some w)
    (hlog : (met log).Nodup → (met log₁).Nodup) : Lands D path node' log i (s :: rel) where
  listed := h.listed
  carried := h.carried
  place := by rw [h.place, List.append_assoc, List.singleton_append]
  below := List.cons_ne_nil _ _
  expanded := by
    obtain ⟨levels, value', sub, hv, he, hs⟩ := h.expanded
    exact ⟨levels, value', sub, hnode value' hv, he, fun hn => hs (hlog hn)⟩

/-- An insertion of a stretch of the log is one of the whole. -/
theorem Lands.mono {path rel : List Step} {node' : Json} {i : Insertion}
    (h : Lands D path node' log₁ i rel) (hlog : (met log).Nodup → (met log₁).Nodup) :
    Lands D path node' log i rel where
  listed := h.listed
  carried := h.carried
  place := h.place
  below := h.below
  expanded := by
    obtain ⟨levels, value', sub, hv, he, hs⟩ := h.expanded
    exact ⟨levels, value', sub, hv, he, fun hn => hs (hlog hn)⟩

section Landing

variable {levels : Nat} {path : List Step} {i : Insertion}

/-- Every insertion of an expansion lands below the value. -/
def Landing (D : ByDigest) (R : Expansion) : Prop := ∀ path node node' log, R path node node' log →
  ∀ i ∈ inserted log, ∃ rel, Lands D path node' log i rel

theorem nodup_left {l l' : List Str} (h : (l ++ l').Nodup) : l.Nodup := (List.nodup_append.mp h).1

theorem nodup_right {l l' : List Str} (h : (l ++ l').Nodup) : l'.Nodup := (List.nodup_append.mp h).2.1

theorem valueAt_member {m : Dict} {key : Str} {v : Json} (hn : m.keys.Nodup) (hm : (key, v) ∈ m)
    (rel : List Step) (w : Json) (h : valueAt rel v = some w) :
    valueAt (.key key :: rel) (.obj m) = some w := by
  rw [valueAt, Dict.get?_of_mem hn hm, Option.bind_some, h]

theorem valueAt_element {pre : List Json} {k : Nat} (out : List Json) (v : Json)
    (hk : pre.length = k) (rel : List Step) (w : Json) (h : valueAt rel v = some w) :
    valueAt (.index k :: rel) (.arr (pre ++ v :: out)) = some w := by
  rw [valueAt, ← hk, List.getElem?_append_right (Nat.le_refl _), Nat.sub_self,
    List.getElem?_cons_zero, Option.bind_some, h]

theorem ExpandMembers.landing (hR : Landing D (Expands D levels)) {members out all : Dict}
    (hn : all.keys.Nodup) (hsub : ∀ p ∈ out, p ∈ all)
    (h : ExpandMembers (Expands D levels) path members out log) (hi : i ∈ inserted log) :
    ∃ rel, Lands D path (.obj all) log i rel := by
  induction h with
  | nil => cases hi
  | sd _ ih => exact ih hsub hi
  | @member key value members value' out log₁ log₂ _ _ hv _ ih =>
    rw [inserted_append, List.mem_append] at hi
    rcases hi with hi | hi
    · obtain ⟨rel, hl⟩ := hR _ _ _ _ hv i hi
      refine ⟨.key key :: rel, hl.up (valueAt_member hn (hsub _ List.mem_cons_self) rel) fun hd => ?_⟩
      rw [met_append] at hd
      exact nodup_left hd
    · obtain ⟨rel, hl⟩ := ih (fun p hp => hsub p (List.mem_cons_of_mem _ hp)) hi
      refine ⟨rel, hl.mono fun hd => ?_⟩
      rw [met_append] at hd
      exact nodup_right hd

theorem ExpandDigests.landing (hR : Landing D (Expands D levels)) {digests : List Str}
    {out all : Dict} (hn : all.keys.Nodup) (hsub : ∀ p ∈ out, p ∈ all)
    (h : ExpandDigests D (Expands D levels) path digests out log) (hi : i ∈ inserted log) :
    ∃ rel, Lands D path (.obj all) log i rel := by
  induction h with
  | nil => cases hi
  | hidden _ _ ih =>
    obtain ⟨rel, hl⟩ := ih hsub hi
    exact ⟨rel, hl.mono fun hd => (List.nodup_cons.mp hd).2⟩
  | @disclosed digest digests salt name value value' out log₁ log₂ hd _ _ hv _ ih =>
    have hmem : (name, value') ∈ all := hsub _ List.mem_cons_self
    rw [inserted_disclosed, inserted_append, List.mem_cons, List.mem_append] at hi
    rcases hi with rfl | hi | hi
    · refine ⟨[.key name], hd, rfl, rfl, List.cons_ne_nil _ _, levels, value', log₁, ?_, hv,
        fun hnd hm => ?_⟩
      · exact valueAt_member hn hmem [] value' rfl
      · rw [met_cons, met_append, List.nodup_cons, List.mem_append, not_or] at hnd
        exact hnd.1.1 hm
    · obtain ⟨rel, hl⟩ := hR _ _ _ _ hv i hi
      refine ⟨.key name :: rel, hl.up (valueAt_member hn hmem rel) fun hnd => ?_⟩
      rw [met_cons, met_append, List.nodup_cons] at hnd
      exact nodup_left hnd.2
    · obtain ⟨rel, hl⟩ := ih (fun p hp => hsub p (List.mem_cons_of_mem _ hp)) hi
      refine ⟨rel, hl.mono fun hnd => ?_⟩
      rw [met_cons, met_append, List.nodup_cons] at hnd
      exact nodup_right hnd.2

theorem ExpandElements.landing (hR : Landing D (Expands D levels)) {k : Nat}
    {elements out : List Json} (pre : List Json) (hk : pre.length = k)
    (h : ExpandElements D (Expands D levels) path k elements out log) (hi : i ∈ inserted log) :
    ∃ rel, Lands D path (.arr (pre ++ out)) log i rel := by
  induction h generalizing pre with
  | nil => cases hi
  | hidden _ _ _ ih =>
    obtain ⟨rel, hl⟩ := ih pre hk hi
    exact ⟨rel, hl.mono fun hd => (List.nodup_cons.mp hd).2⟩
  | @disclosed k element digest elements salt value value' out log₁ log₂ _ hd hv _ ih =>
    have hat := valueAt_element out value' hk
    rw [inserted_disclosed, inserted_append, List.mem_cons, List.mem_append] at hi
    rcases hi with rfl | hi | hi
    · refine ⟨[.index k], hd, rfl, rfl, List.cons_ne_nil _ _, levels, value', log₁,
        hat [] value' rfl, hv, fun hnd hm => ?_⟩
      rw [met_cons, met_append, List.nodup_cons, List.mem_append, not_or] at hnd
      exact hnd.1.1 hm
    · obtain ⟨rel, hl⟩ := hR _ _ _ _ hv i hi
      refine ⟨.index k :: rel, hl.up (hat rel) fun hnd => ?_⟩
      rw [met_cons, met_append, List.nodup_cons] at hnd
      exact nodup_left hnd.2
    · obtain ⟨rel, hl⟩ := ih (pre ++ [value']) (by simp [hk]) hi
      rw [List.append_assoc, List.singleton_append] at hl
      refine ⟨rel, hl.mono fun hnd => ?_⟩
      rw [met_cons, met_append, List.nodup_cons] at hnd
      exact nodup_right hnd.2
  | @plain k element value' elements out log₁ log₂ _ hv _ ih =>
    have hat := valueAt_element out value' hk
    rw [inserted_append, List.mem_append] at hi
    rcases hi with hi | hi
    · obtain ⟨rel, hl⟩ := hR _ _ _ _ hv i hi
      refine ⟨.index k :: rel, hl.up (hat rel) fun hnd => ?_⟩
      rw [met_append] at hnd
      exact nodup_left hnd
    · obtain ⟨rel, hl⟩ := ih (pre ++ [value']) (by simp [hk]) hi
      rw [List.append_assoc, List.singleton_append] at hl
      refine ⟨rel, hl.mono fun hnd => ?_⟩
      rw [met_append] at hnd
      exact nodup_right hnd

theorem expands_landing (levels : Nat) : Landing D (Expands D levels) := by
  induction levels with
  | zero =>
    intro path node node' log h
    exact h.elim
  | succ levels ih =>
    intro path node node' log h i hi
    cases h with
    | @obj _ members digests plain claims log₁ log₂ hm hsd hd hn =>
      rw [inserted_append, List.mem_append] at hi
      rcases hi with hi | hi
      · obtain ⟨rel, hl⟩ := hm.landing ih hn (fun p hp => List.mem_append_left _ hp) hi
        refine ⟨rel, hl.mono fun hnd => ?_⟩
        rw [met_append] at hnd
        exact nodup_left hnd
      · obtain ⟨rel, hl⟩ := hd.landing ih hn (fun p hp => List.mem_append_right _ hp) hi
        refine ⟨rel, hl.mono fun hnd => ?_⟩
        rw [met_append] at hnd
        exact nodup_right hnd
    | arr he => exact ExpandElements.landing ih [] rfl he hi
    | scalar ho ha => cases hi

end Landing

/-! ## The index of the disclosures -/

/-- A presented disclosure and its entry in the index. -/
def Indexed (C : Crypto) (hashName disclosure : Str) (entry : Str × List Json) : Prop :=
  disclosureDigest C disclosure hashName = .ok entry.1 ∧ loadSegment disclosure = .ok (.arr entry.2)

theorem indexDisclosure_eq_ok {C : Crypto} {hashName disclosure : Str} {byDigest byDigest' : ByDigest}
    (h : indexDisclosure C hashName byDigest disclosure = .ok byDigest') :
    ∃ entry, Indexed C hashName disclosure entry ∧ entry.1 ∉ byDigest.map Prod.fst ∧
      byDigest' = byDigest ++ [entry] := by
  simp only [indexDisclosure, bind_eq_ok, recast_eq_ok, orRaise_eq_ok, raiseIf_eq_ok,
    pure_eq_ok] at h
  obtain ⟨parsed, hload, l, hl, digest, hdigest, ⟨⟩, hnew, rfl⟩ := h
  have harr : parsed = .arr l := by
    obtain ⟨ha, -⟩ := Option.filter_eq_some_iff.mp hl
    cases parsed with
    | arr l' => rw [Option.some.inj ha]
    | null | bool | int | float | str | obj => cases ha
  refine ⟨(digest, l), ⟨hdigest, harr ▸ hload⟩, ?_, rfl⟩
  intro hmem
  obtain ⟨p, hp, rfl⟩ := List.mem_map.mp hmem
  rw [Option.isSome_eq_false_iff, Option.isNone_iff_eq_none, List.lookup_eq_none_iff] at hnew
  simpa using hnew p hp

/-- The index holds every presented disclosure under its digest, no digest twice. -/
theorem indexDisclosures_eq_ok {C : Crypto} {hashName : Str} {disclosures : List Str}
    {byDigest : ByDigest} (h : indexDisclosures C hashName disclosures = .ok byDigest) :
    List.Forall₂ (Indexed C hashName) disclosures byDigest ∧ (byDigest.map Prod.fst).Nodup := by
  refine enumerateLoop_preserves
    (fun done st => List.Forall₂ (Indexed C hashName) done st ∧ (st.map Prod.fst).Nodup)
    ⟨.nil, List.nodup_nil⟩ h ?_
  rintro done st disclosure st' ⟨hall, hnd⟩ hstep
  obtain ⟨entry, hentry, hnew, rfl⟩ := indexDisclosure_eq_ok hstep
  refine ⟨List.rel_append hall (.cons hentry .nil), ?_⟩
  rw [List.map_append, List.nodup_append]
  refine ⟨hnd, List.nodup_singleton _, fun d hd e he => ?_⟩
  rw [List.map_singleton, List.mem_singleton] at he
  exact fun heq => hnew (he ▸ heq ▸ hd)

theorem mem_of_lookup {digest : Str} {disclosure : List Json}
    (h : D.lookup digest = some disclosure) : (digest, disclosure) ∈ D := by
  obtain ⟨l₁, l₂, rfl, -⟩ := List.lookup_eq_some_iff.mp h
  exact List.mem_append_right _ List.mem_cons_self

theorem wellFormed_of_indexed {C : Crypto} {hashName : Str} {disclosures : List Str}
    (h : List.Forall₂ (Indexed C hashName) disclosures D) : WellFormed D := by
  intro digest disclosure hd v hv
  obtain ⟨s, -, -, hload⟩ := exists_of_mem_right h (mem_of_lookup hd)
  simp only [loadSegment, bind_eq_ok] at hload
  obtain ⟨data, -, hload⟩ := hload
  exact Json.wfList_iff.mp (loadsBytes_wf hload) v hv

/-! ## The accounts of a processed payload -/

theorem inserted_sublist_met (log : List Event) :
    ((inserted log).map Insertion.digest).Sublist (met log) := by
  induction log with
  | nil => exact List.Sublist.refl _
  | cons e log ih =>
    cases e with
    | hidden d => exact ih.cons _
    | disclosed i => exact ih.cons_cons _

/-- A member of an object is still there, with its own expansion. -/
theorem ExpandMembers.kept {R : Expansion} {path : List Step} {members out : Dict}
    (h : ExpandMembers R path members out log) {key : Str} {value : Json}
    (hm : (key, value) ∈ members) (hsd : key ≠ lit "_sd") :
    ∃ value' sub, R (path ++ [.key key]) value value' sub ∧ (key, value') ∈ out := by
  induction h with
  | nil => cases hm
  | sd _ ih =>
    rcases List.mem_cons.mp hm with heq | hm
    · exact absurd (Prod.mk.inj heq).1 hsd
    · exact ih hm
  | @member k v members v' out log₁ log₂ _ _ hv _ ih =>
    rcases List.mem_cons.mp hm with heq | hm
    · obtain ⟨rfl, rfl⟩ := Prod.mk.inj heq
      exact ⟨v', log₁, hv, List.mem_cons_self⟩
    · obtain ⟨value', sub, hr, hout⟩ := ih hm
      exact ⟨value', sub, hr, List.mem_cons_of_mem _ hout⟩

/-- The accounts of an accepted set of disclosures. Each presented disclosure is inserted once; it is
one the signed payload names by its digest, or one that another inserted disclosure names; no digest
occurs twice; the payload's own claims stay, expanded, and no insertion takes the name of another
claim (`ExpandsBy.obj`); and the record has one entry for each insertion, with the top-level claim
it lies in. -/
theorem processPayload_accounts {C : Crypto} {hashName : Str} {parts : Parts} {claims claims' : Dict}
    {placed : List (Option Str × Bool)} (hwf : (Json.obj claims).WF)
    (h : processPayload C hashName parts claims = .ok (claims', placed)) :
    ∃ byDigest unpacked log,
      List.Forall₂ (Indexed C hashName) parts.disclosures byDigest ∧
      (byDigest.map Prod.fst).Nodup ∧ claims' = Dict.erase unpacked "_sd_alg" ∧
      Expands byDigest (maxDepth + 1) [] (.obj claims) (.obj unpacked) log ∧
      ((inserted log).map Insertion.digest).Perm (byDigest.map Prod.fst) ∧
      (∀ i ∈ inserted log, byDigest.lookup i.digest = some i.disclosure ∧
        i.disclosure.getLast? = some i.value ∧ (i.digest ∈ digestsIn (.obj claims) ∨
          ∃ j ∈ inserted log, j.digest ≠ i.digest ∧ i.digest ∈ digestsIn j.value)) ∧
      (digestsIn (.obj claims) ++ (inserted log).flatMap fun i => digestsIn i.value).Nodup ∧
      (∀ key value, (key, value) ∈ claims → key ≠ lit "_sd" → ∃ value' sub,
        Expands byDigest maxDepth [.key key] value value' sub ∧
        Dict.get? unpacked key = some value') ∧
      placed = (inserted log).map (fun i => placementAt i.path) ∧
      ∀ i ∈ inserted log, ∃ name rel levels value' sub, i.path = .key name :: rel ∧
        valueAt i.path (.obj unpacked) = some value' ∧
        Expands byDigest levels i.path i.value value' sub := by
  simp only [processPayload, bind_eq_ok, raiseIf_eq_ok, orRaise_eq_ok, pure_eq_ok,
    Json.obj?_eq_some, Prod.mk.injEq] at h
  obtain ⟨byDigest, hindex, ⟨node, st⟩, hunpack, ⟨⟩, hunref, unpacked, rfl, rfl, rfl⟩ := h
  obtain ⟨hindexed, hkeys⟩ := indexDisclosures_eq_ok hindex
  have hroot : Rooted [] (.obj claims) := ⟨by simp, fun _ => rfl⟩
  obtain ⟨log, hexp, hbooks⟩ := unpack_computes (wellFormed_of_indexed hindexed) (maxDepth + 1)
    [] (.obj claims) {} (.obj unpacked) st hroot hwf hunpack
  have hused : st.used = ((inserted log).map Insertion.digest).reverse := by
    rw [hbooks.used]
    exact List.append_nil _
  have hland := expands_landing (maxDepth + 1) [] _ _ log hexp
  have hbalance := expands_balanced (maxDepth + 1) [] _ _ log hexp
  have hinsNodup := hbooks.nodup.sublist (inserted_sublist_met log)
  have hperm : ((inserted log).map Insertion.digest).Perm (byDigest.map Prod.fst) := by
    refine (List.perm_ext_iff_of_nodup hinsNodup hkeys).mpr fun d => ⟨fun hd => ?_, fun hd => ?_⟩
    · obtain ⟨i, hi, rfl⟩ := List.mem_map.mp hd
      obtain ⟨rel, hl⟩ := hland i hi
      exact List.mem_map.mpr ⟨_, mem_of_lookup hl.listed, rfl⟩
    · obtain ⟨p, hp, rfl⟩ := List.mem_map.mp hd
      rw [Bool.not_eq_false', List.isEmpty_iff, List.filter_eq_nil_iff] at hunref
      have hin : p.1 ∈ st.used := by simpa using hunref p hp
      rwa [hused, List.mem_reverse] at hin
  refine ⟨byDigest, unpacked, log, hindexed, hkeys, rfl, hexp, hperm, fun i hi => ?_,
    hbalance.nodup_iff.mp hbooks.nodup, fun key value hm hsd => ?_, ?_, fun i hi => ?_⟩
  · obtain ⟨rel, hl⟩ := hland i hi
    refine ⟨hl.listed, hl.carried, ?_⟩
    have hmet : i.digest ∈ met log :=
      (inserted_sublist_met log).subset (List.mem_map.mpr ⟨i, hi, rfl⟩)
    rcases List.mem_append.mp (hbalance.mem_iff.mp hmet) with hmem | hmem
    · exact .inl hmem
    · obtain ⟨j, hj, hdj⟩ := List.mem_flatMap.mp hmem
      refine .inr ⟨j, hj, fun heq => ?_, hdj⟩
      -- a value that carried its own digest would have met it twice
      obtain ⟨rel', hl'⟩ := hland j hj
      obtain ⟨levels, value', sub, -, he, hsub⟩ := hl'.expanded
      have hself := expands_balanced levels _ _ _ _ he
      refine hsub hbooks.nodup (hself.mem_iff.mpr (List.mem_append_left _ ?_))
      rw [heq]
      exact hdj
  · cases hexp with
    | obj hm' hsd' hd hn =>
      obtain ⟨value', sub, hr, hout⟩ := hm'.kept hm hsd
      exact ⟨value', sub, hr, Dict.get?_of_mem hn (List.mem_append_left _ hout)⟩
    | scalar ho _ => cases ho
  · rw [hbooks.placed]
    rfl
  · obtain ⟨rel, hl⟩ := hland i hi
    obtain ⟨levels, value', sub, hv, he, -⟩ := hl.expanded
    have hpath : i.path = rel := hl.place
    rw [← hpath] at hv
    have hne : i.path ≠ [] := hpath ▸ hl.below
    cases hp : i.path with
    | nil => exact absurd hp hne
    | cons s rest =>
      cases s with
      | index k =>
        rw [hp] at hv
        cases hv
      | key name => exact ⟨name, rest, levels, value', sub, rfl, hp ▸ hv, hp ▸ he⟩

/-- A payload with a disclosable claim and a disclosable array element. -/
def annClaims : Dict :=
  [("iss", .str (lit "i")),
   ("_sd", .arr [.str (lit "OEnn6jT2GmoyQ5BUUT8OPtY9J4jCydIIW1WLVMkrfxE")]),
   ("a", .arr [.obj [("...",
     .str (lit "vYqZ-2vOT6kitZI0f4xNsWPSHsByhUjkLJUGxN9H1n8"))]])]

/-- Both disclosures are presented and inserted. -/
theorem processPayload_accounts_ann : ∃ claims' placed log,
    processPayload annCrypto "sha-256" ⟨[], [annElement, annClaim], []⟩ annClaims =
      .ok (claims', placed) ∧
    (inserted log).length = 2 ∧ placed = (inserted log).map fun i => placementAt i.path := by
  obtain ⟨⟨claims', placed⟩, h, -⟩ := exists_ok_of_map
    (x := processPayload annCrypto "sha-256" ⟨[], [annElement, annClaim], []⟩ annClaims)
    (f := fun r => r.2.length) (c := 2) (by decide +kernel)
  have hwf : (Json.obj annClaims).WF := by
    refine ⟨by decide, trivial, ⟨trivial, trivial⟩, ⟨?_, trivial⟩, trivial⟩
    exact ⟨by decide, trivial, trivial⟩
  obtain ⟨byDigest, unpacked, log, hindexed, -, -, -, hperm, -, -, -, hplaced, -⟩ :=
    processPayload_accounts hwf h
  refine ⟨claims', placed, log, h, ?_, hplaced⟩
  have hlen := hperm.length_eq
  rw [List.length_map, List.length_map, ← hindexed.length_eq] at hlen
  exact hlen

end OpenVC.SdJwt
