import Mathlib.Data.List.Basic

/-!
# Layers that override one another

A layer is a list of entries, each with a key. Laid over another, it hides the entries of the other
whose keys it declares; a stack of layers is laid from the first, the topmost, down.
-/

namespace Layers

universe u v

variable {α : Type u} {κ : Type v} [DecidableEq κ]

/-- Whether a layer has an entry of the key. -/
def Declares (key : α → κ) (k : κ) (l : List α) : Prop := ∃ x ∈ l, key x = k

instance (key : α → κ) (k : κ) (l : List α) : Decidable (Declares key k l) :=
  inferInstanceAs (Decidable (∃ x ∈ l, key x = k))

/-- The entries of a layer that have the key. -/
def entries (key : α → κ) (k : κ) (l : List α) : List α := l.filter fun x => key x = k

/-- One layer over another. -/
def overlay (key : α → κ) (top below : List α) : List α :=
  top ++ below.filter fun x => ¬ Declares key (key x) top

/-- A stack of layers. -/
def stack (key : α → κ) : List (List α) → List α
  | [] => []
  | l :: ls => overlay key l (stack key ls)

/-- The topmost layer that declares the key. -/
def topmost (key : α → κ) (k : κ) (ls : List (List α)) : Option (List α) :=
  ls.find? fun l => Declares key k l

variable {key : α → κ} {k : κ} {l top below : List α} {ls : List (List α)}

theorem entries_eq_nil (h : ¬ Declares key k l) : entries key k l = [] := by
  rw [entries, List.filter_eq_nil_iff]
  intro x hx hk
  exact h ⟨x, hx, of_decide_eq_true hk⟩

theorem entries_append (l l' : List α) :
    entries key k (l ++ l') = entries key k l ++ entries key k l' := by
  simp only [entries, List.filter_append]

/-- A key the top layer declares is read from the top layer. -/
theorem entries_overlay_of_declares (h : Declares key k top) :
    entries key k (overlay key top below) = entries key k top := by
  have hnone : entries key k (below.filter fun x => ¬ Declares key (key x) top) = [] := by
    rw [entries, List.filter_eq_nil_iff]
    intro x hx hk
    have hhidden := of_decide_eq_true (List.mem_filter.mp hx).2
    rw [of_decide_eq_true hk] at hhidden
    exact hhidden h
  rw [overlay, entries_append, hnone, List.append_nil]

/-- A key the top layer does not declare is read from below. -/
theorem entries_overlay_of_not_declares (h : ¬ Declares key k top) :
    entries key k (overlay key top below) = entries key k below := by
  rw [overlay, entries_append, entries_eq_nil h, List.nil_append, entries, entries, List.filter_filter]
  refine List.filter_congr fun x _ => ?_
  by_cases hk : key x = k
  · rw [hk, decide_eq_true rfl, decide_eq_true h, Bool.and_self]
  · rw [decide_eq_false hk, Bool.false_and]

/-- The entries of a key in a stack are those of the topmost layer that declares it. -/
theorem entries_stack (key : α → κ) (k : κ) (ls : List (List α)) :
    entries key k (stack key ls) = entries key k ((topmost key k ls).getD []) := by
  induction ls with
  | nil => rfl
  | cons l ls ih =>
    by_cases h : Declares key k l
    · have htop : topmost key k (l :: ls) = some l := List.find?_cons_of_pos (decide_eq_true h)
      rw [stack, entries_overlay_of_declares h, htop, Option.getD_some]
    · have htop : topmost key k (l :: ls) = topmost key k ls :=
        List.find?_cons_of_neg (by rw [decide_eq_true_eq]; exact h)
      rw [stack, entries_overlay_of_not_declares h, htop, ih]

/-- An entry of a layer is in the stack iff no layer above declares its key. -/
theorem mem_stack_iff {x : α} : x ∈ stack key ls ↔
    ∃ above l below, ls = above ++ l :: below ∧ x ∈ l ∧
      ∀ l' ∈ above, ¬ Declares key (key x) l' := by
  induction ls with
  | nil =>
    constructor
    · intro h
      cases h
    · rintro ⟨above, l, below, h, -⟩
      exact absurd h.symm (List.append_ne_nil_of_right_ne_nil _ (List.cons_ne_nil _ _))
  | cons l ls ih =>
    rw [stack, overlay, List.mem_append, List.mem_filter, ih, decide_eq_true_eq]
    constructor
    · rintro (h | ⟨⟨above, l', below, rfl, hx, habove⟩, hl⟩)
      · exact ⟨[], l, ls, rfl, h, fun l' hl' => absurd hl' List.not_mem_nil⟩
      · refine ⟨l :: above, l', below, rfl, hx, fun l'' hl'' => ?_⟩
        rcases List.mem_cons.mp hl'' with rfl | hl''
        · exact hl
        · exact habove l'' hl''
    · rintro ⟨above, l', below, h, hx, habove⟩
      cases above with
      | nil =>
        obtain ⟨rfl, rfl⟩ := List.cons.inj h
        exact .inl hx
      | cons l'' above =>
        obtain ⟨rfl, rfl⟩ := List.cons.inj h
        exact .inr ⟨⟨above, l', below, rfl, hx, fun l₀ hl₀ => habove l₀ (List.mem_cons_of_mem _ hl₀)⟩,
          habove l List.mem_cons_self⟩

end Layers
