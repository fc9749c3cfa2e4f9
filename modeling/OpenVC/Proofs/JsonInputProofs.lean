import Mathlib.Algebra.BigOperators.Group.List.Basic
import OpenVC.JsonInput

/-!
# The nesting bound of the loader

The scan of `nesting_exceeds` with an explicit stack answers whether the container nesting of the
value, by its recursive definition, is above the limit.
-/

namespace Python.Json

mutual

/-- The container nesting: zero for a scalar, one more than its deepest child for a container. -/
def depth : Json → Nat
  | .arr l => depthList l + 1
  | .obj m => depthMembers m + 1
  | _ => 0

/-- The deepest of a list. -/
def depthList : List Json → Nat
  | [] => 0
  | v :: t => max v.depth (depthList t)

/-- The deepest of the members of an object. -/
def depthMembers : List (Str × Json) → Nat
  | [] => 0
  | (_, v) :: t => max v.depth (depthMembers t)

end

theorem lt_depthList_iff {l : List Json} {k : Nat} :
    k < depthList l ↔ ∃ v ∈ l, k < v.depth := by
  induction l with
  | nil => simp [depthList]
  | cons v t ih => simp [depthList, ih]

theorem depthMembers_eq (m : List (Str × Json)) : depthMembers m = depthList (m.map Prod.snd) := by
  induction m with
  | nil => rfl
  | cons p t ih =>
    obtain ⟨k, v⟩ := p
    rw [depthMembers, ih]
    rfl

theorem nodesList_eq (l : List Json) : nodesList l = (l.map nodes).sum := by
  induction l with
  | nil => rfl
  | cons v t ih => rw [nodesList, ih, List.map_cons, List.sum_cons]

theorem nodesMembers_eq (m : List (Str × Json)) : nodesMembers m = nodesList (m.map Prod.snd) := by
  induction m with
  | nil => rfl
  | cons p t ih =>
    obtain ⟨k, v⟩ := p
    rw [nodesMembers, ih]
    rfl

end Python.Json

namespace OpenVC

open Python

theorem containerChildren_eq_some {v : Json} {children : List Json}
    (h : containerChildren v = some children) :
    v.depth = Json.depthList children + 1 ∧ v.nodes = Json.nodesList children + 1 := by
  cases v with
  | obj m =>
    cases h
    exact ⟨by rw [Json.depth, Json.depthMembers_eq], by rw [Json.nodes, Json.nodesMembers_eq]⟩
  | arr l =>
    cases h
    exact ⟨rfl, rfl⟩
  | _ => cases h

theorem containerChildren_eq_none {v : Json} (h : containerChildren v = none) : v.depth = 0 := by
  cases v with
  | obj m => cases h
  | arr l => cases h
  | _ => rfl

/-- A stack entry that holds a container deeper than the limit. -/
def tooDeep (limit : Int) (e : Json × Nat) : Bool :=
  e.1.depth ≠ 0 && limit + 1 < e.2 + e.1.depth

theorem sum_nodes_containers (children : List Json) (depth : Nat) :
    ((((children.filter fun c => (containerChildren c).isSome).map (·, depth)).reverse).map
      fun e => e.1.nodes).sum ≤ Json.nodesList children := by
  rw [List.map_reverse, List.sum_reverse, List.map_map, Json.nodesList_eq]
  induction children with
  | nil => exact Nat.le_refl _
  | cons c t ih =>
    rw [List.filter_cons, List.map_cons, List.sum_cons]
    split
    · rw [List.map_cons, List.sum_cons]
      exact Nat.add_le_add_left ih _
    · exact Nat.le_trans ih (Nat.le_add_left _ _)

theorem nestingLoop_eq (limit : Int) : ∀ (n : Nat) (stack : List (Json × Nat)),
    (stack.map fun e => e.1.nodes).sum < n → nestingLoop limit n stack = stack.any (tooDeep limit) := by
  intro n
  induction n with
  | zero => intro stack h; omega
  | succ n ih =>
    intro stack h
    cases stack with
    | nil => rfl
    | cons e stack =>
      obtain ⟨node, depth⟩ := e
      rw [List.map_cons, List.sum_cons] at h
      have hpos : 0 < node.nodes := by cases node <;> simp [Json.nodes]
      rw [nestingLoop]
      cases hc : containerChildren node with
      | none =>
        have hflat := containerChildren_eq_none hc
        rw [ih stack (by dsimp only at h; omega), List.any_cons]
        simp [tooDeep, hflat]
      | some children =>
        obtain ⟨hdepth, hnodes⟩ := containerChildren_eq_some hc
        dsimp only
        split
        · rename_i hlimit
          have htop : tooDeep limit (node, depth) = true := by
            simp only [tooDeep, hdepth, Bool.and_eq_true, decide_eq_true_eq]
            omega
          rw [List.any_cons, htop, Bool.true_or]
        · rename_i hlimit
          have hsum := sum_nodes_containers children (depth + 1)
          rw [ih _ (by rw [List.map_append, List.sum_append]; dsimp only at h; omega),
            List.any_append, List.any_cons]
          congr 1
          -- a container is too deep exactly when one of its container children is
          rw [Bool.eq_iff_iff, List.any_reverse, List.any_map, List.any_filter]
          simp only [List.any_eq_true, Function.comp_apply, tooDeep, Bool.and_eq_true,
            decide_eq_true_eq, hdepth]
          constructor
          · rintro ⟨c, hmem, -, -, hlt⟩
            have : (limit - depth).toNat < Json.depthList children :=
              Json.lt_depthList_iff.mpr ⟨c, hmem, by omega⟩
            omega
          · rintro ⟨-, hlt⟩
            obtain ⟨c, hmem, hdeep⟩ := Json.lt_depthList_iff.mp
              (show (limit - depth).toNat < Json.depthList children by omega)
            refine ⟨c, hmem, ?_, by omega, by omega⟩
            rw [Option.isSome_iff_ne_none]
            intro hnone
            have := containerChildren_eq_none hnone
            omega

/-- `nesting_exceeds` finds a container that lies deeper than the limit. -/
theorem nestingExceeds_iff (v : Json) (limit : Int) :
    nestingExceeds v limit = true ↔ 0 < v.depth ∧ limit < v.depth := by
  rw [nestingExceeds, nestingLoop_eq limit _ _ (by simp)]
  simp only [List.any_cons, List.any_nil, Bool.or_false, tooDeep, Bool.and_eq_true,
    decide_eq_true_eq]
  omega

/-- `nesting_exceeds` compares the nesting with the limit. -/
theorem nestingExceeds_eq (v : Json) (limit : Nat) :
    nestingExceeds v limit = decide (limit < v.depth) := by
  rw [Bool.eq_iff_iff, nestingExceeds_iff, decide_eq_true_eq]
  omega

end OpenVC
