import OpenVC.Python.Except

/-!
# Ratchets

A caller keeps the last value it obtained and passes it to its next attempt; an attempt that fails
leaves what is kept as it was. When every value obtained follows the one kept, by a transitive
relation, the values obtained over any sequence of attempts follow one another.
-/

namespace Ratchet

variable {ε ι α : Type} (attempt : Option α → ι → Except ε α)

/-- What is kept after an attempt. -/
def keep (kept : Option α) (i : ι) : Option α :=
  match attempt kept i with
  | .ok a => some a
  | .error _ => kept

/-- What is kept after a sequence of attempts. -/
def after (kept : Option α) (is : List ι) : Option α := is.foldl (keep attempt) kept

/-- The attempts that succeeded, with what they obtained. -/
def successes : Option α → List ι → List (ι × α)
  | _, [] => []
  | kept, i :: is =>
    match attempt kept i with
    | .ok a => (i, a) :: successes (some a) is
    | .error _ => successes kept is

variable {attempt} {kept : Option α} {i : ι} {is js : List ι} {a : α} {e : ε}

theorem successes_of_ok (h : attempt kept i = .ok a) :
    successes attempt kept (i :: is) = (i, a) :: successes attempt (some a) is := by
  simp [successes, h]

theorem successes_of_error (h : attempt kept i = .error e) :
    successes attempt kept (i :: is) = successes attempt kept is := by
  simp [successes, h]

theorem after_of_ok (h : attempt kept i = .ok a) :
    after attempt kept (i :: is) = after attempt (some a) is := by
  simp [after, keep, h]

theorem after_of_error (h : attempt kept i = .error e) :
    after attempt kept (i :: is) = after attempt kept is := by
  simp [after, keep, h]

theorem successes_append :
    successes attempt kept (is ++ js) =
      successes attempt kept is ++ successes attempt (after attempt kept is) js := by
  induction is generalizing kept with
  | nil => rfl
  | cons i is ih =>
    cases h : attempt kept i with
    | ok a =>
      rw [List.cons_append, successes_of_ok h, successes_of_ok h, after_of_ok h, ih,
        List.cons_append]
    | error e =>
      rw [List.cons_append, successes_of_error h, successes_of_error h, after_of_error h, ih]

/-- An attempt that fails can be left out. -/
theorem successes_erase (h : attempt (after attempt kept is) i = .error e) :
    successes attempt kept (is ++ i :: js) = successes attempt kept (is ++ js) := by
  rw [successes_append, successes_append, successes_of_error h]

/-- Nor does it change what is kept. -/
theorem after_append_error (h : attempt (after attempt kept is) i = .error e) :
    after attempt kept (is ++ [i]) = after attempt kept is := by
  rw [after, List.foldl_append]
  exact after_of_error h

theorem attempt_of_mem_successes {p : ι × α} (hp : p ∈ successes attempt kept is) :
    p.1 ∈ is ∧ ∃ kept', attempt kept' p.1 = .ok p.2 := by
  induction is generalizing kept with
  | nil => cases hp
  | cons i is ih =>
    cases h : attempt kept i with
    | ok a =>
      rw [successes_of_ok h] at hp
      rcases List.mem_cons.mp hp with rfl | hp
      · exact ⟨List.mem_cons_self, kept, h⟩
      · exact ⟨List.mem_cons_of_mem _ (ih hp).1, (ih hp).2⟩
    | error e =>
      rw [successes_of_error h] at hp
      exact ⟨List.mem_cons_of_mem _ (ih hp).1, (ih hp).2⟩

variable {R : α → α → Prop} [IsTrans α R]

/-- Every success follows what was kept at the start. -/
theorem follows_of_mem_successes
    (hstep : ∀ {kept i a}, attempt kept i = .ok a → ∀ b ∈ kept, R b a) {p : ι × α}
    (hp : p ∈ successes attempt kept is) : ∀ b ∈ kept, R b p.2 := by
  induction is generalizing kept with
  | nil => cases hp
  | cons i is ih =>
    intro b hb
    cases h : attempt kept i with
    | ok a =>
      rw [successes_of_ok h] at hp
      rcases List.mem_cons.mp hp with rfl | hp
      · exact hstep h b hb
      · exact IsTrans.trans _ _ _ (hstep h b hb) (ih hp a rfl)
    | error e =>
      rw [successes_of_error h] at hp
      exact ih hp b hb

/-- The successes follow one another. -/
theorem pairwise_successes (hstep : ∀ {kept i a}, attempt kept i = .ok a → ∀ b ∈ kept, R b a) :
    (successes attempt kept is).Pairwise fun p q => R p.2 q.2 := by
  induction is generalizing kept with
  | nil => exact .nil
  | cons i is ih =>
    cases h : attempt kept i with
    | ok a =>
      rw [successes_of_ok h]
      exact .cons (fun q hq => follows_of_mem_successes hstep hq a rfl) ih
    | error e =>
      rw [successes_of_error h]
      exact ih

end Ratchet
