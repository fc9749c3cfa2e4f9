import Mathlib.Data.List.Forall2
import Mathlib.Data.List.Infix

/-!
# Selecting nodes of a tree by patterns

A tree is known by the child that a step leads to. A node is the list of steps to it from the root, so
its ancestors are its prefixes; a path is a list of patterns, each fitting some steps.
-/

namespace Selection

variable {τ σ π : Type*} {child : τ → σ → Option τ} {fits : π → σ → Prop}

/-- The subtree at a node. -/
def descend (child : τ → σ → Option τ) : τ → List σ → Option τ
  | t, [] => some t
  | t, s :: node => (child t s).bind (descend child · node)

/-- A path selects a node of a tree. -/
def Selects (child : τ → σ → Option τ) (fits : π → σ → Prop) (t : τ) (path : List π)
    (node : List σ) : Prop :=
  List.Forall₂ fits path node ∧ (descend child t node).isSome = true

/-- The ancestors of a node are nodes. -/
theorem isSome_descend_of_prefix {t : τ} {a node : List σ} (ha : a <+: node)
    (h : (descend child t node).isSome = true) : (descend child t a).isSome = true := by
  induction a generalizing t node with
  | nil => rfl
  | cons s a ih =>
    obtain ⟨rest, rfl⟩ := ha
    simp only [List.cons_append, descend] at h ⊢
    cases hc : child t s with
    | none =>
      rw [hc] at h
      cases h
    | some t' =>
      rw [hc] at h
      exact ih (List.prefix_append a rest) h

/-- When each pattern of a path fits whatever the pattern across from it fits, the shorter path
selects an ancestor of every node that the longer one selects. -/
theorem selects_prefix {t : τ} {covers : π → π → Prop} {r p : List π} {node : List σ}
    (hfits : ∀ x y s, covers x y → fits y s → fits x s)
    (hcov : ∃ p', p' <+: p ∧ List.Forall₂ covers r p') (h : Selects child fits t p node) :
    ∃ a, a <+: node ∧ Selects child fits t r a := by
  obtain ⟨p', ⟨rest, rfl⟩, hcov⟩ := hcov
  obtain ⟨hp, hsome⟩ := h
  have hlen : r.length = p'.length := hcov.length_eq
  have htake := List.forall₂_take p'.length hp
  rw [List.take_left] at htake
  refine ⟨node.take p'.length, List.take_prefix _ _, ?_,
    isSome_descend_of_prefix (List.take_prefix _ _) hsome⟩
  generalize node.take p'.length = a at htake
  clear hp hsome hlen
  induction hcov generalizing a with
  | nil =>
    cases htake
    exact .nil
  | cons hxy _ ih =>
    cases htake with
    | cons hs ht => exact .cons (hfits _ _ _ hxy hs) (ih _ ht)

end Selection
