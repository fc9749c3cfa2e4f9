import Mathlib.Data.Set.Finite.Lattice
import OpenVC.Logic.Selection
import OpenVC.Python.JsonSame
import OpenVC.RpRegistration

/-!
# The scope of an accepted request

A request is within a registration when nothing it can be answered with is unregistered: an inclusion
between two queries over all credentials. `Covered` decides it on the texts of the two alone, and the
check of the library is weaker than that: it lets a request drop a constraint that every applicable
entry has, and it lets a registered `null`, which selects array elements, stand for a member name.
-/

namespace OpenVC.Rp

open Python

/-! ## What a query selects -/

/-- A step from a JSON value to one below it. -/
inductive Step where
  | member (name : Str)
  | index (n : Nat)

/-- The value a step leads to. -/
def child : Json → Step → Option Json
  | .obj m, .member name => Dict.get? m name
  | .arr l, .index n => l[n]?
  | _, _ => none

/-- An element of a DCQL claim path fits a step: a string the member of that name, a non-negative
integer that element of an array, `null` every element. -/
inductive Fits : Json → Step → Prop
  | member (name : Str) : Fits (.str name) (.member name)
  | index (n : Nat) : Fits (.int n) (.index n)
  | element (n : Nat) : Fits .null (.index n)

/-- A claim path selects a node. -/
abbrev Selects (content : Json) (path : List Json) (node : List Step) : Prop :=
  Selection.Selects child Fits content path node

/-- A credential: its format, its value for a key of `meta`, and its content. -/
structure Credential where
  format : Str
  metaValue : Str → Option Json
  content : Json

/-- The values that a member of `meta` allows. -/
def options : Json → List Json
  | .arr l => l
  | v => [v]

/-- A credential satisfies every member of a `meta`. -/
def MatchesMeta (constraints : Dict) (c : Credential) : Prop :=
  ∀ k x, constraints.get? k = some x →
    ∃ y, c.metaValue k = some y ∧ ∃ w ∈ options x, w.value = y.value

/-- `q` is a credential query of the request, for a format, and asks for a path under one of the two
spellings. -/
def Asks (dcqlQuery : Json) (q : Dict) (format : Str) (path : List Json) : Prop :=
  (∃ query queries, dcqlQuery = .obj query ∧ Dict.get query "credentials" = .arr queries ∧
    .obj q ∈ queries) ∧
  strOrNone (q.get "format") = some format ∧
  (path ∈ pathsUnder q "claims" ∨ path ∈ pathsUnder q "claim")

/-- Whatever node of whatever credential a request selects, an entry registered for that credential
selects the node or an ancestor. -/
def Within (registration : Registration) (dcqlQuery : Json) : Prop :=
  ∀ q format path, Asks dcqlQuery q format path → ∀ c : Credential, c.format = format →
    MatchesMeta (queryMeta q) c → ∀ node, Selects c.content path node →
      ∃ e ∈ registration.credentials, e.format = some format ∧
        (∃ m, e.metaObj = some m ∧ MatchesMeta m c) ∧
        ∃ r ∈ e.claimPaths, r ≠ [] ∧ ∃ a, a <+: node ∧ Selects c.content r a

/-! ## The condition on the texts -/

/-- A step of a registered path covers a step of a requested one. -/
inductive StepCovers : Json → Json → Prop
  | member (name : Str) : StepCovers (.str name) (.str name)
  | index (n : Int) : StepCovers (.int n) (.int n)
  | element (n : Int) : StepCovers .null (.int n)
  | every : StepCovers .null .null

/-- A non-empty registered path covers a requested one step by step. -/
def PathCovers (registered requested : List Json) : Prop :=
  registered ≠ [] ∧ ∃ p, p <+: requested ∧ List.Forall₂ StepCovers registered p

/-- Every element of a path is one that DCQL defines. -/
def Selectable (path : List Json) : Prop := ∀ x ∈ path, ∃ step, Fits x step

/-- A choice of one allowed value for each member of a `meta`. -/
def Choice (constraints : Dict) (v : Str → Json) : Prop :=
  ∀ k x, constraints.get? k = some x → v k ∈ options x

/-- A registered `meta` constrains nothing that the request leaves open, and allows the values chosen. -/
def Admits (registered requested : Dict) (v : Str → Json) : Prop :=
  ∀ k x, registered.get? k = some x →
    requested.has k = true ∧ ∃ w ∈ options x, w.value = (v k).value

/-- For every requested path and every choice of the values that the request's `meta` allows, some
entry of the format admits the choice and covers the path. -/
def Covered (registration : Registration) (dcqlQuery : Json) : Prop :=
  ∀ q format path, Asks dcqlQuery q format path → Selectable path →
    ∀ v, Choice (queryMeta q) v →
      ∃ e ∈ registration.credentials, e.format = some format ∧
        (∃ m, e.metaObj = some m ∧ Admits m (queryMeta q) v) ∧
        ∃ r ∈ e.claimPaths, PathCovers r path

/-! ## From the texts to the credentials -/

theorem fits_of_stepCovers {x y : Json} {s : Step} (h : StepCovers x y) (hs : Fits y s) :
    Fits x s := by
  cases h with
  | member name => exact hs
  | index n => exact hs
  | element n =>
    cases hs with
    | index n => exact .element n
  | every => exact hs

theorem selectable_of_selects {content : Json} {path : List Json} {node : List Step}
    (h : Selects content path node) : Selectable path := by
  obtain ⟨hfits, -⟩ := h
  intro x hx
  induction hfits with
  | nil => cases hx
  | cons hs _ ih =>
    rcases List.mem_cons.mp hx with rfl | hx
    · exact ⟨_, hs⟩
    · exact ih hx

/-- A credential that a `meta` matches has, for each member, one of the values allowed. -/
theorem exists_choice {constraints : Dict} {c : Credential} (h : MatchesMeta constraints c) :
    ∃ v, Choice constraints v ∧
      ∀ k, constraints.has k = true → ∃ y, c.metaValue k = some y ∧ (v k).value = y.value := by
  have hex : ∀ k, ∃ w : Json, ∀ x, constraints.get? k = some x →
      w ∈ options x ∧ ∃ y, c.metaValue k = some y ∧ w.value = y.value := by
    intro k
    cases hk : constraints.get? k with
    | none => exact ⟨.null, nofun⟩
    | some x =>
      obtain ⟨y, hy, w, hw, heq⟩ := h k x hk
      refine ⟨w, fun x' hx' => ?_⟩
      cases hx'
      exact ⟨hw, y, hy, heq⟩
  choose v hv using hex
  refine ⟨v, fun k x hk => (hv k x hk).1, fun k hk => ?_⟩
  obtain ⟨x, hx⟩ := Option.isSome_iff_exists.mp hk
  exact (hv k x hx).2

theorem within_of_covered {registration : Registration} {dcqlQuery : Json}
    (h : Covered registration dcqlQuery) : Within registration dcqlQuery := by
  intro q format path hasks c hformat hmeta node hnode
  obtain ⟨v, hchoice, hv⟩ := exists_choice hmeta
  obtain ⟨e, he, hefmt, ⟨m, hm, hadmits⟩, r, hr, hne, hcov⟩ :=
    h q format path hasks (selectable_of_selects hnode) v hchoice
  refine ⟨e, he, hefmt, ⟨m, hm, fun k x hk => ?_⟩, r, hr, hne,
    Selection.selects_prefix (fun _ _ _ => fits_of_stepCovers) hcov hnode⟩
  obtain ⟨hhas, w, hw, heq⟩ := hadmits k x hk
  obtain ⟨y, hy, hvy⟩ := hv k hhas
  exact ⟨y, hy, w, hw, heq.trans hvy⟩

/-! ## From the credentials to the texts -/

/-- The node that a path selects when `null` is taken as the element `n`. -/
def realize (n : Nat) : Json → Step
  | .str name => .member name
  | .int i => .index i.toNat
  | _ => .index n

/-- The smallest content with a given node. -/
def contentOf : List Step → Json
  | [] => .null
  | .member name :: node => .obj [(name, contentOf node)]
  | .index n :: node => .arr (List.replicate n .null ++ [contentOf node])

theorem isSome_descend_contentOf (node : List Step) :
    (Selection.descend child (contentOf node) node).isSome = true := by
  induction node with
  | nil => rfl
  | cons s node ih =>
    cases s with
    | member name =>
      have hc : child (contentOf (.member name :: node)) (.member name) = some (contentOf node) := by
        simp [contentOf, child, Dict.get?_cons]
      rw [Selection.descend, hc]
      exact ih
    | index n =>
      have hc : child (contentOf (.index n :: node)) (.index n) = some (contentOf node) := by
        simp [contentOf, child]
      rw [Selection.descend, hc]
      exact ih

theorem fits_realize {n : Nat} {x : Json} (h : ∃ step, Fits x step) : Fits x (realize n x) := by
  obtain ⟨step, hstep⟩ := h
  cases hstep with
  | member name => exact .member name
  | index i => exact .index i
  | element i => exact .element n

theorem selects_realize {n : Nat} {path : List Json} (h : Selectable path) :
    Selects (contentOf (path.map (realize n))) path (path.map (realize n)) := by
  refine ⟨?_, isSome_descend_contentOf _⟩
  generalize path = p at h
  induction p with
  | nil => exact .nil
  | cons x p ih =>
    exact .cons (fits_realize (h x List.mem_cons_self))
      (ih fun y hy => h y (List.mem_cons_of_mem _ hy))

/-- An index that a registered path does not name is fitted by `null` only. -/
theorem stepCovers_of_fits {n : Nat} {x y : Json} (hy : ∃ step, Fits y step)
    (hx : Fits x (realize n y)) (hn : x ≠ .int n) : StepCovers x y := by
  obtain ⟨step, hstep⟩ := hy
  cases hstep with
  | member name =>
    cases hx
    exact .member name
  | index i =>
    generalize hs : realize n (.int i) = s at hx
    cases hx with
    | member name => cases hs
    | index j =>
      cases hs
      exact .index _
    | element j => exact .element _
  | element i =>
    generalize hs : realize n .null = s at hx
    cases hx with
    | member name => cases hs
    | index j =>
      cases hs
      exact absurd rfl hn
    | element j => exact .every

/-- A path that selects an ancestor of the realized node covers the requested path. -/
theorem covers_of_prefix {n : Nat} {r path : List Json} {a : List Step} (hpath : Selectable path)
    (ha : a <+: path.map (realize n)) (hfits : List.Forall₂ Fits r a) (hn : .int n ∉ r) :
    ∃ p, p <+: path ∧ List.Forall₂ StepCovers r p := by
  induction hfits generalizing path with
  | nil => exact ⟨[], List.nil_prefix, .nil⟩
  | cons hx _ ih =>
    cases path with
    | nil => simp at ha
    | cons y path =>
      rw [List.map_cons, List.cons_prefix_cons] at ha
      obtain ⟨rfl, ha⟩ := ha
      rw [List.mem_cons, not_or] at hn
      obtain ⟨p, hp, hcov⟩ := ih (fun z hz => hpath z (List.mem_cons_of_mem _ hz)) ha hn.2
      exact ⟨y :: p, List.cons_prefix_cons.mpr ⟨rfl, hp⟩,
        .cons (stepCovers_of_fits (hpath y List.mem_cons_self) hx (Ne.symm hn.1)) hcov⟩

theorem exists_fresh_index (registration : Registration) :
    ∃ n : Nat, ∀ e ∈ registration.credentials, ∀ r ∈ e.claimPaths, .int n ∉ r := by
  let indices : List Int :=
    (registration.credentials.flatMap (·.claimPaths)).flatten.filterMap Json.int?
  obtain ⟨b, hb⟩ := indices.toFinset.bddAbove
  refine ⟨b.toNat + 1, fun e he r hr hmem => ?_⟩
  have hin : ((b.toNat + 1 : Nat) : Int) ∈ indices := by
    refine List.mem_filterMap.mpr ⟨_, List.mem_flatten.mpr ⟨r, ?_, hmem⟩, rfl⟩
    exact List.mem_flatMap.mpr ⟨e, he, hr⟩
  have := hb (List.mem_toFinset.mpr hin)
  omega

theorem covered_of_within {registration : Registration} {dcqlQuery : Json}
    (h : Within registration dcqlQuery) : Covered registration dcqlQuery := by
  intro q format path hasks hpath v hchoice
  obtain ⟨n, hn⟩ := exists_fresh_index registration
  -- the credential that has the chosen values, no other, and the one node
  let c : Credential :=
    { format := format
      metaValue := fun k => if (queryMeta q).has k then some (v k) else none
      content := contentOf (path.map (realize n)) }
  have hmatch : MatchesMeta (queryMeta q) c := by
    intro k x hk
    have hhas : (queryMeta q).has k = true := by rw [Dict.has, hk]; rfl
    exact ⟨v k, if_pos hhas, v k, hchoice k x hk, rfl⟩
  obtain ⟨e, he, hefmt, ⟨m, hm, hmm⟩, r, hr, hne, a, ha, hsel⟩ :=
    h q format path hasks c rfl hmatch _ (selects_realize hpath)
  refine ⟨e, he, hefmt, ⟨m, hm, fun k x hk => ?_⟩, r, hr, hne,
    covers_of_prefix hpath ha hsel.1 (hn e he r hr)⟩
  obtain ⟨y, hy, w, hw, heq⟩ := hmm k x hk
  have hy' : (if (queryMeta q).has k then some (v k) else none) = some y := hy
  split at hy'
  · rename_i hhas
    cases hy'
    exact ⟨hhas, w, hw, heq⟩
  · cases hy'

/-! ## What the check does establish -/

/-- None of the ways in which the check is too weak is taken. -/
structure SlipFree (registration : Registration) (dcqlQuery : Json) : Prop where
  /-- No applicable entry constrains a member that the request leaves open. -/
  keepsConstraints : ∀ q format path, Asks dcqlQuery q format path →
    ∀ e ∈ candidates registration format (queryMeta q), ∀ m, e.metaObj = some m →
      ∀ k, m.has k = true → (queryMeta q).has k = true
  /-- The values in the `meta` of the request are strings. -/
  strings : ∀ q format path, Asks dcqlQuery q format path →
    ∀ k x, (queryMeta q).get? k = some x → ∀ w ∈ options x, ∃ s, w = .str s
  /-- The paths of both sides are DCQL's. -/
  requested : ∀ q format path, Asks dcqlQuery q format path → Selectable path
  registered : ∀ e ∈ registration.credentials, ∀ r ∈ e.claimPaths, Selectable r
  /-- No registered `null` stands for the name of a member. -/
  wildcards : ∀ q format path, Asks dcqlQuery q format path →
    ∀ e ∈ registration.credentials, ∀ r ∈ e.claimPaths, pathCovered r path = true →
      ∀ name, (.null, .str name) ∉ r.zip path

theorem mem_of_mem_foldl_addPath {seen paths : List (List Json)} {p : List Json}
    (h : p ∈ paths.foldl addPath seen) : p ∈ seen ∨ p ∈ paths := by
  induction paths generalizing seen with
  | nil => exact Or.inl h
  | cons path paths ih =>
    rcases ih h with h | h
    · rw [addPath] at h
      split at h
      · exact Or.inl h
      · rcases List.mem_append.mp h with h | h
        · exact Or.inl h
        · exact Or.inr (List.mem_singleton.mp h ▸ List.mem_cons_self)
    · exact Or.inr (List.mem_cons_of_mem _ h)

theorem mem_foldl_addPath {seen paths : List (List Json)} {p : List Json} (h : p ∈ seen) :
    p ∈ paths.foldl addPath seen := by
  induction paths generalizing seen with
  | nil => exact h
  | cons path paths ih =>
    refine ih ?_
    rw [addPath]
    split
    · exact h
    · exact List.mem_append_left _ h

theorem exists_mem_foldl_addPath {seen paths : List (List Json)} {p : List Json} (h : p ∈ paths) :
    ∃ s ∈ paths.foldl addPath seen, s = p ∨ Json.pyEqList p s = true := by
  induction paths generalizing seen with
  | nil => cases h
  | cons path paths ih =>
    rcases List.mem_cons.mp h with rfl | h
    · by_cases hany : seen.any (Json.pyEqList p) = true
      · obtain ⟨s, hs, heq⟩ := List.any_eq_true.mp hany
        refine ⟨s, ?_, Or.inr heq⟩
        rw [List.foldl_cons, addPath, if_pos hany]
        exact mem_foldl_addPath hs
      · refine ⟨p, ?_, Or.inl rfl⟩
        rw [List.foldl_cons, addPath, if_neg hany]
        exact mem_foldl_addPath (List.mem_append_right _ (List.mem_singleton_self _))
    · exact ih h

theorem eq_of_pyEq_fits {x y : Json} (hx : ∃ s, Fits x s) (hy : ∃ s, Fits y s)
    (h : Json.pyEq x y = true) : x = y := by
  obtain ⟨_, hx⟩ := hx
  obtain ⟨_, hy⟩ := hy
  cases hx <;> cases hy <;> simp_all [Json.pyEq, Json.num?, PyFloat.eq]

theorem eq_of_pyEqList {p s : List Json} (hp : Selectable p) (hs : Selectable s)
    (h : Json.pyEqList p s = true) : p = s := by
  induction p generalizing s with
  | nil =>
    cases s with
    | nil => rfl
    | cons y s => cases h
  | cons x p ih =>
    cases s with
    | nil => cases h
    | cons y s =>
      rw [Json.pyEqList, Bool.and_eq_true] at h
      rw [eq_of_pyEq_fits (hp x List.mem_cons_self) (hs y List.mem_cons_self) h.1,
        ih (fun z hz => hp z (List.mem_cons_of_mem _ hz))
          (fun z hz => hs z (List.mem_cons_of_mem _ hz)) h.2]

/-- An accepted request was checked query by query and path by path. -/
theorem exists_pathCovered {registration : Registration} {dcqlQuery : Json}
    {intendedUseId : Option Str}
    (h : checkRequestWithinRegistration registration dcqlQuery intendedUseId = .ok ())
    {q : Dict} {format : Str} {path : List Json} (hasks : Asks dcqlQuery q format path)
    (hplain : ∀ p, Asks dcqlQuery q format p → Selectable p) :
    ∃ e ∈ candidates registration format (queryMeta q), ∃ r ∈ e.claimPaths,
      pathCovered r path = true := by
  obtain ⟨⟨query, queries, rfl, hqueries, hq⟩, hformat, hpath⟩ := hasks
  simp only [checkRequestWithinRegistration, bind_eq_ok, raiseIf_eq_ok, orRaise_eq_ok, each_eq_ok,
    Option.filter_eq_some_iff] at h
  obtain ⟨⟨⟩, -, query', hobj, ⟨⟩, -, queries', ⟨harr, -⟩, hall⟩ := h
  cases hobj
  rw [hqueries] at harr
  cases harr
  obtain ⟨n, hn⟩ := List.mem_iff_getElem?.mp hq
  have hcheck := hall (.obj q, n) (List.mem_zipIdx_iff_getElem?.mpr hn)
  simp only [checkQuery, bind_eq_ok, raiseIf_eq_ok, orRaise_eq_ok, each_eq_ok,
    Json.obj?_eq_some] at hcheck
  obtain ⟨_, ⟨⟩, format', hformat', ⟨⟩, -, ⟨⟩, -, hpaths⟩ := hcheck
  rw [hformat] at hformat'
  cases hformat'
  have hmem : path ∈ requestedPaths q := by
    rcases hpath with hclaims | hclaim
    · exact mem_foldl_addPath hclaims
    · obtain ⟨s, hs, rfl | heq⟩ := exists_mem_foldl_addPath hclaim
      · exact hs
      · have hask : ∀ p, p ∈ pathsUnder q "claims" ∨ p ∈ pathsUnder q "claim" → Selectable p :=
          fun p hp => hplain p ⟨⟨query, queries, rfl, hqueries, hq⟩, hformat, hp⟩
        rw [eq_of_pyEqList (hask _ (Or.inr hclaim)) (hask s (mem_of_mem_foldl_addPath hs)) heq]
        exact hs
  have hgranted := hpaths path hmem
  rw [checkPath, raiseIf_eq_ok, Bool.not_eq_false', List.any_eq_true] at hgranted
  obtain ⟨r, hr, hcov⟩ := hgranted
  obtain ⟨e, he, hre⟩ := List.mem_flatMap.mp hr
  exact ⟨e, he, r, hre, hcov⟩

theorem stepCovers_of_elementCovered {x y : Json} (hx : ∃ s, Fits x s) (hy : ∃ s, Fits y s)
    (h : elementCovered x y = true) (hw : ∀ name, (x, y) ≠ (.null, .str name)) :
    StepCovers x y := by
  rw [elementCovered, Bool.or_eq_true] at h
  rcases h with hnull | hsame
  · obtain ⟨_, hy⟩ := hy
    cases x with
    | null =>
      cases hy with
      | member name => exact absurd rfl (hw name)
      | index n => exact .element n
      | element n => exact .every
    | _ => cases hnull
  · rw [same, Bool.and_eq_true] at hsame
    obtain rfl := eq_of_pyEq_fits hx hy hsame.1
    obtain ⟨_, hx⟩ := hx
    cases hx with
    | member name => exact .member name
    | index n => exact .index n
    | element n => exact .every

theorem forall₂_of_zip {r p : List Json} (hr : Selectable r) (hp : Selectable p)
    (hlen : r.length ≤ p.length)
    (hall : (r.zip p).all (fun step => elementCovered step.1 step.2) = true)
    (hw : ∀ name, (.null, .str name) ∉ r.zip p) :
    ∃ p', p' <+: p ∧ List.Forall₂ StepCovers r p' := by
  induction r generalizing p with
  | nil => exact ⟨[], List.nil_prefix, .nil⟩
  | cons x r ih =>
    cases p with
    | nil => simp at hlen
    | cons y p =>
      simp only [List.zip_cons_cons, List.all_cons, Bool.and_eq_true] at hall
      simp only [List.zip_cons_cons, List.mem_cons, not_or] at hw
      obtain ⟨p', hp', hcov⟩ := ih (fun z hz => hr z (List.mem_cons_of_mem _ hz))
        (fun z hz => hp z (List.mem_cons_of_mem _ hz)) (by simpa using hlen) hall.2
        (fun name => (hw name).2)
      exact ⟨y :: p', List.cons_prefix_cons.mpr ⟨rfl, hp'⟩,
        .cons (stepCovers_of_elementCovered (hr x List.mem_cons_self) (hp y List.mem_cons_self)
          hall.1 fun name => Ne.symm (hw name).1) hcov⟩

theorem pathCovers_of_pathCovered {r p : List Json} (hr : Selectable r) (hp : Selectable p)
    (h : pathCovered r p = true) (hw : ∀ name, (.null, .str name) ∉ r.zip p) : PathCovers r p := by
  rw [pathCovered, Bool.and_eq_true, Bool.and_eq_true, decide_eq_true_eq] at h
  obtain ⟨⟨hne, hlen⟩, hall⟩ := h
  exact ⟨by simpa using hne, forall₂_of_zip hr hp hlen hall hw⟩

theorem mem_options_of_constraintCovered {x y : Json} {s : Str} (hs : .str s ∈ options x)
    (h : constraintCovered x y = true) : .str s ∈ options y := by
  have heq : ∀ z, same (.str s) z = true → z = .str s := fun z hz => by
    rw [same, Bool.and_eq_true] at hz
    exact Json.pyEq_str.mp hz.1
  cases x with
  | arr want =>
    cases y with
    | arr held =>
      obtain ⟨z, hz, hsame⟩ := List.any_eq_true.mp (List.all_eq_true.mp h _ hs)
      exact heq z hsame ▸ hz
    | _ => cases h
  | str t =>
    cases List.mem_singleton.mp hs
    cases y with
    | arr held =>
      obtain ⟨z, hz, hsame⟩ := List.any_eq_true.mp h
      exact heq z hsame ▸ hz
    | _ =>
      rw [heq _ h]
      exact List.mem_singleton_self _
  | _ => cases List.mem_singleton.mp hs

theorem admits_of_metaCovered {m requested : Dict} {v : Str → Json}
    (h : metaCovered (some m) requested = true) (hkeys : ∀ k, m.has k = true → requested.has k = true)
    (hstrings : ∀ k x, requested.get? k = some x → ∀ w ∈ options x, ∃ s, w = .str s)
    (hv : Choice requested v) : Admits m requested v := by
  intro k y hk
  have hhas : requested.has k = true := hkeys k (by rw [Dict.has, hk]; rfl)
  refine ⟨hhas, v k, ?_, rfl⟩
  obtain ⟨x, hx⟩ := Option.isSome_iff_exists.mp hhas
  obtain ⟨s, hs⟩ := hstrings k x hx _ (hv k x hx)
  have hmem := Dict.mem_of_get?_eq_some hx
  rw [metaCovered, if_neg (by simpa using List.ne_nil_of_mem hmem)] at h
  have hpair := List.all_eq_true.mp h _ hmem
  simp only [hk] at hpair
  rw [hs]
  exact mem_options_of_constraintCovered (hs ▸ hv k x hx) hpair

/-- An accepted request is covered when no slip is taken. -/
theorem covered_of_slipFree {registration : Registration} {dcqlQuery : Json}
    {intendedUseId : Option Str}
    (h : checkRequestWithinRegistration registration dcqlQuery intendedUseId = .ok ())
    (hfree : SlipFree registration dcqlQuery) : Covered registration dcqlQuery := by
  intro q format path hasks hpath v hv
  obtain ⟨e, he, r, hr, hcov⟩ := exists_pathCovered h hasks fun p hp => hfree.requested q format p hp
  have hcand := he
  rw [candidates, List.mem_filter, Bool.and_eq_true, beq_iff_eq] at hcand
  obtain ⟨hmem, hformat, hmeta⟩ := hcand
  cases hm : e.metaObj with
  | none =>
    rw [hm] at hmeta
    cases hmeta
  | some m =>
    rw [hm] at hmeta
    exact ⟨e, hmem, hformat,
      ⟨m, hm, admits_of_metaCovered hmeta (hfree.keepsConstraints q format path hasks e he m hm)
        (hfree.strings q format path hasks) hv⟩,
      r, hr, pathCovers_of_pathCovered (hfree.registered e hmem r hr) hpath hcov
        (hfree.wildcards q format path hasks e hmem r hr hcov)⟩

/-- An accepted request stays within the registration exactly when the texts cover it, which they do
when no slip of the check is taken. -/
theorem check_within_iff {registration : Registration} {dcqlQuery : Json}
    {intendedUseId : Option Str}
    (h : checkRequestWithinRegistration registration dcqlQuery intendedUseId = .ok ()) :
    (Within registration dcqlQuery ↔ Covered registration dcqlQuery) ∧
      (SlipFree registration dcqlQuery → Covered registration dcqlQuery) :=
  ⟨⟨covered_of_within, within_of_covered⟩, covered_of_slipFree h⟩

/-! ## A request that drops a constraint -/

/-- The one credential query of the examples: the birth date of a PID. -/
def pidQuery : Dict :=
  [("id", .str "pid"), ("format", .str "dc+sd-jwt"),
    ("meta", .obj [("vct_values", .arr [.str "urn:eudi:pid:1"])]),
    ("claims", .arr [.obj [("path", .arr [.str "birthdate"])]])]

/-- The DCQL query with it. -/
def pidRequest : Json := .obj [("credentials", .arr [.obj pidQuery])]

/-- A registration for the birth date of the PIDs that a `meta` describes. -/
def pidRegistration (constraints : Dict) : Registration :=
  build [("credentials", .arr [.obj [("format", .str "dc+sd-jwt"), ("meta", .obj constraints),
    ("claim", .arr [.obj [("path", .arr [.str "birthdate"])]])]])]

/-- Registered for the PIDs of one country. -/
def germanRegistration : Registration :=
  pidRegistration [("vct_values", .arr [.str "urn:eudi:pid:1"]), ("issuing_country", .str "DE")]

/-- A PID of another country. -/
def frenchPid : Credential where
  format := "dc+sd-jwt"
  metaValue := Dict.get? [("vct_values", .str "urn:eudi:pid:1"), ("issuing_country", .str "FR")]
  content := .obj [("birthdate", .str "2000-01-01")]

/-- A party registered for the PIDs of one country asks for those of all, and is accepted. -/
theorem germanRegistration_exceeded :
    checkRequestWithinRegistration germanRegistration pidRequest none = .ok () ∧
      ¬ Within germanRegistration pidRequest := by
  refine ⟨by rfl, fun h => ?_⟩
  have hasks : Asks pidRequest pidQuery "dc+sd-jwt" [.str "birthdate"] :=
    ⟨⟨_, _, rfl, rfl, List.mem_cons_self⟩, rfl, Or.inl List.mem_cons_self⟩
  have hmatch : MatchesMeta (queryMeta pidQuery) frenchPid := by
    intro k x hk
    have hmem := Dict.mem_of_get?_eq_some hk
    cases List.mem_singleton.mp hmem
    exact ⟨.str "urn:eudi:pid:1", rfl, _, List.mem_cons_self, rfl⟩
  have hsel : Selects frenchPid.content [.str "birthdate"] [.member "birthdate"] :=
    ⟨.cons (.member _) .nil, rfl⟩
  obtain ⟨e, he, -, ⟨m, hm, hmm⟩, -⟩ := h _ _ _ hasks frenchPid rfl hmatch _ hsel
  cases List.mem_singleton.mp he
  cases hm
  -- the entry is for German PIDs only
  obtain ⟨y, hy, w, hw, heq⟩ := hmm "issuing_country" (.str "DE") rfl
  cases hy
  cases List.mem_singleton.mp hw
  exact absurd (JsonValue.str.inj heq) (by decide)

/-- The same request by a party registered for the PIDs of every country stays within. -/
theorem check_within_iff_pid :
    checkRequestWithinRegistration (pidRegistration [("vct_values", .arr [.str "urn:eudi:pid:1"])])
      pidRequest none = .ok () ∧
    Within (pidRegistration [("vct_values", .arr [.str "urn:eudi:pid:1"])]) pidRequest := by
  have hok : checkRequestWithinRegistration
      (pidRegistration [("vct_values", .arr [.str "urn:eudi:pid:1"])]) pidRequest none = .ok () := rfl
  have hpath : Selectable [.str "birthdate"] := by
    intro x hx
    cases List.mem_singleton.mp hx
    exact ⟨_, .member _⟩
  have hasks : ∀ q format path, Asks pidRequest q format path →
      q = pidQuery ∧ path = [.str "birthdate"] := by
    rintro q format path ⟨⟨_, _, ⟨⟩, ⟨⟩, hq⟩, -, hpath⟩
    cases List.mem_singleton.mp hq
    refine ⟨rfl, ?_⟩
    rcases hpath with hpath | hpath
    · exact List.mem_singleton.mp hpath
    · cases hpath
  have hfree : SlipFree (pidRegistration [("vct_values", .arr [.str "urn:eudi:pid:1"])])
      pidRequest := by
    refine ⟨?_, ?_, ?_, ?_, ?_⟩
    · intro q format path h e he m hm k hk
      obtain ⟨rfl, rfl⟩ := hasks q format path h
      cases List.mem_singleton.mp (List.mem_of_mem_filter he)
      cases hm
      exact hk
    · intro q format path h k x hk w hw
      obtain ⟨rfl, rfl⟩ := hasks q format path h
      cases List.mem_singleton.mp (Dict.mem_of_get?_eq_some hk)
      cases List.mem_singleton.mp hw
      exact ⟨_, rfl⟩
    · intro q format path h
      exact (hasks q format path h).2 ▸ hpath
    · intro e he r hr
      cases List.mem_singleton.mp he
      cases List.mem_singleton.mp hr
      exact hpath
    · intro q format path h e he r hr _ name hmem
      obtain ⟨rfl, rfl⟩ := hasks q format path h
      cases List.mem_singleton.mp he
      cases List.mem_singleton.mp hr
      cases List.mem_singleton.mp hmem
  have hiff := check_within_iff hok
  exact ⟨hok, hiff.1.mpr (hiff.2 hfree)⟩

end OpenVC.Rp
