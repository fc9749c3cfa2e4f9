import Mathlib.Data.List.Forall2

/-!
# Append-only histories

Two facts about sequences of records that are read in order: which declaration is in force after a
prefix when every record may redeclare, and how agreement of the last records of two linked
sequences propagates back to their first ones.
-/

namespace Chain

variable {α β : Type*}

/-- The value in force after a history: the last one declared. -/
def lastDeclared (f : α → Option β) (history : List α) : Option β := (history.filterMap f).getLast?

@[simp] theorem lastDeclared_nil (f : α → Option β) : lastDeclared f [] = none := rfl

/-- A new record overrides the value in force, or leaves it. -/
theorem lastDeclared_append (f : α → Option β) (history : List α) (a : α) :
    lastDeclared f (history ++ [a]) = (f a).or (lastDeclared f history) := by
  unfold lastDeclared
  cases h : f a with
  | none => simp [List.filterMap_append, h]
  | some b => simp [List.filterMap_append, h]

/-- Backward propagation along two histories. When the link of two records is the same, the
records agree and either both are the first or the records before them have the same link too; then
equal last links make the histories agree record by record. -/
theorem forall₂_of_last {Same Agree : α → α → Prop} {l l' : List α}
    (hback : ∀ pre a suf pre' a' suf', l = pre ++ a :: suf → l' = pre' ++ a' :: suf' → Same a a' →
      Agree a a' ∧ ((pre = [] ∧ pre' = []) ∨
        ∃ init p init' p', pre = init ++ [p] ∧ pre' = init' ++ [p'] ∧ Same p p'))
    {pre pre' suf suf' : List α} {a a' : α} (hl : l = pre ++ a :: suf) (hl' : l' = pre' ++ a' :: suf')
    (hsame : Same a a') : List.Forall₂ Agree (pre ++ [a]) (pre' ++ [a']) := by
  induction hn : pre.length generalizing pre pre' a a' suf suf' with
  | zero =>
    obtain ⟨hagree, hpre⟩ := hback pre a suf pre' a' suf' hl hl' hsame
    rcases hpre with ⟨rfl, rfl⟩ | ⟨init, p, _, _, rfl, _, _⟩
    · exact .cons hagree .nil
    · simp at hn
  | succ n ih =>
    obtain ⟨hagree, hpre⟩ := hback pre a suf pre' a' suf' hl hl' hsame
    rcases hpre with ⟨rfl, rfl⟩ | ⟨init, p, init', p', rfl, rfl, hp⟩
    · cases hn
    · have h₁ : l = init ++ p :: (a :: suf) := by rw [hl]; simp
      have h₂ : l' = init' ++ p' :: (a' :: suf') := by rw [hl']; simp
      have hlen : init.length = n := by simpa using hn
      exact List.rel_append (ih h₁ h₂ hp hlen) (.cons hagree .nil)

end Chain
