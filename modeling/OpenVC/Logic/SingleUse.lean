import Mathlib.Data.List.Nodup
import Mathlib.Tactic.Common

/-!
# Single-use tokens

A store of tokens accepts a token that it has issued once: to accept it is to take it out. A token is
issued once.
-/

namespace SingleUse

variable {α : Type*}

/-- A store: the tokens it has issued, and those of them that are still live. -/
structure Store (α : Type*) where
  issued : List α
  live : List α

/-- The store that has issued nothing. -/
def Store.empty : Store α := ⟨[], []⟩

/-- Whether the token was live, and the store without it. -/
def consume [DecidableEq α] (token : α) (s : Store α) : Bool × Store α :=
  (decide (token ∈ s.live), { s with live := s.live.filter (· ≠ token) })

/-- The store issues a token that it has not issued before. -/
def Issues (s s' : Store α) : Prop :=
  ∃ token, token ∉ s.issued ∧ s' = ⟨token :: s.issued, token :: s.live⟩

/-- The store has accepted each of these tokens once, and none of them is live. -/
structure Accepted (s : Store α) (tokens : List α) : Prop where
  once : tokens.Nodup
  issued : ∀ t ∈ tokens, t ∈ s.issued
  spent : ∀ t ∈ tokens, t ∉ s.live
  live : ∀ t ∈ s.live, t ∈ s.issued

variable {s s' : Store α} {tokens : List α}

theorem accepted_empty : Accepted (Store.empty : Store α) [] := ⟨.nil, nofun, nofun, nofun⟩

theorem Accepted.issue (h : Accepted s tokens) (hissue : Issues s s') : Accepted s' tokens := by
  obtain ⟨token, hnew, rfl⟩ := hissue
  refine ⟨h.once, fun t ht => .tail _ (h.issued t ht), fun t ht hlive => ?_, fun t ht => ?_⟩
  · rcases List.mem_cons.mp hlive with rfl | hlive
    · exact hnew (h.issued t ht)
    · exact h.spent t ht hlive
  · rcases List.mem_cons.mp ht with rfl | ht
    · exact .head _
    · exact .tail _ (h.live t ht)

variable [DecidableEq α]

theorem Accepted.after_consume (h : Accepted s tokens) (token : α) :
    Accepted (consume token s).2 tokens := by
  refine ⟨h.once, h.issued, fun t ht hlive => ?_, fun t ht => ?_⟩
  · exact h.spent t ht (List.mem_filter.mp hlive).1
  · exact h.live t (List.mem_filter.mp ht).1

theorem Accepted.accept (h : Accepted s tokens) {token : α} (hyes : (consume token s).1 = true) :
    Accepted (consume token s).2 (tokens ++ [token]) := by
  have hlive : token ∈ s.live := of_decide_eq_true hyes
  have hnew : token ∉ tokens := fun ht => h.spent token ht hlive
  refine ⟨?_, fun t ht => ?_, fun t ht hl => ?_, fun t ht => ?_⟩
  · rw [← List.concat_eq_append]
    exact h.once.concat hnew
  · rcases List.mem_append.mp ht with ht | ht
    · exact h.issued t ht
    · rw [List.mem_singleton.mp ht]
      exact h.live token hlive
  · obtain ⟨hl, hne⟩ := List.mem_filter.mp hl
    rcases List.mem_append.mp ht with ht | ht
    · exact h.spent t ht hl
    · exact of_decide_eq_true hne (List.mem_singleton.mp ht)
  · exact h.live t (List.mem_filter.mp ht).1

end SingleUse
