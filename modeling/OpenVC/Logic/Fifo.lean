import Mathlib.Data.List.Dedup
import Mathlib.Data.List.Induction
import Mathlib.Tactic.Common

/-!
# A bounded memo that forgets the oldest first

A memo of `cap` entries answers a key it holds and otherwise asks for it, forgetting the oldest entry
when it is full. `asked` is the sequence of keys it asks for along a sequence of uses. Each key is
asked for once exactly when none is used again after `cap` others were used for the first time.
-/

namespace Fifo

section recent

variable {α : Type*} {cap : Nat} {r : List α} {k : α}

/-- The last `cap` keys: those that a memo holds when it asked for `r`. -/
def recent (cap : Nat) (r : List α) : List α := r.drop (r.length - cap)

theorem mem_of_mem_recent (h : k ∈ recent cap r) : k ∈ r := List.mem_of_mem_drop h

theorem recent_concat (hc : 0 < cap) (r : List α) (k : α) :
    recent cap (r ++ [k]) =
      (if cap ≤ (recent cap r).length then (recent cap r).tail else recent cap r) ++ [k] := by
  have hlen : (recent cap r).length = r.length - (r.length - cap) := List.length_drop
  rw [hlen]
  unfold recent
  rw [List.length_append, List.length_singleton]
  split
  · rename_i h
    rw [List.tail_drop, List.drop_append_of_le_length (by omega)]
    congr 2
    omega
  · rename_i h
    have h0 : r.length + 1 - cap = 0 := by omega
    have h1 : r.length - cap = 0 := by omega
    rw [h0, h1, List.drop_zero, List.drop_zero]

end recent

variable {α : Type*} [DecidableEq α] {cap : Nat} {l : List α} {k : α}

/-- What was asked for, after one more use. -/
def enter (cap : Nat) (r : List α) (k : α) : List α := if k ∈ recent cap r then r else r ++ [k]

/-- What is asked for along a sequence of uses. -/
def asked (cap : Nat) (l : List α) : List α := l.foldl (enter cap) []

/-- The keys in the order of their first use. -/
def firsts (l : List α) : List α := l.foldl (fun r k => if k ∈ r then r else r ++ [k]) []

theorem asked_concat (cap : Nat) (l : List α) (k : α) :
    asked cap (l ++ [k]) = enter cap (asked cap l) k := by
  rw [asked, List.foldl_append]
  rfl

theorem firsts_concat (l : List α) (k : α) :
    firsts (l ++ [k]) = if k ∈ firsts l then firsts l else firsts l ++ [k] := by
  rw [firsts, List.foldl_append]
  rfl

theorem mem_firsts (l : List α) (k : α) : k ∈ firsts l ↔ k ∈ l := by
  induction l using List.reverseRecOn with
  | nil => rfl
  | append_singleton l a ih =>
    rw [firsts_concat]
    split
    · rename_i ha
      rw [List.mem_append, List.mem_singleton, ih]
      constructor
      · exact Or.inl
      · rintro (h | rfl)
        · exact h
        · exact ih.mp ha
    · rw [List.mem_append, List.mem_append, ih]

theorem nodup_firsts (l : List α) : (firsts l).Nodup := by
  induction l using List.reverseRecOn with
  | nil => exact List.nodup_nil
  | append_singleton l a ih =>
    rw [firsts_concat]
    split
    · exact ih
    · rename_i ha
      exact List.nodup_append.mpr ⟨ih, List.nodup_singleton a, fun x hx y hy hxy =>
        ha (List.mem_singleton.mp hy ▸ hxy ▸ hx)⟩

theorem firsts_of_nodup (h : l.Nodup) : firsts l = l := by
  induction l using List.reverseRecOn with
  | nil => rfl
  | append_singleton l a ih =>
    obtain ⟨hl, -, hdis⟩ := List.nodup_append.mp h
    rw [firsts_concat, ih hl, if_neg fun ha => hdis a ha a List.mem_cons_self rfl]

/-- What was asked for stays asked for. -/
theorem asked_extends (cap : Nat) (l : List α) (k : α) : asked cap l <+: asked cap (l ++ [k]) := by
  rw [asked_concat, enter]
  split
  · exact List.prefix_rfl
  · exact List.prefix_append _ _

/-- No key is used again after it was forgotten, if each is asked for once. -/
def NoneForgotten (cap : Nat) (l : List α) : Prop :=
  ∀ pre k suf, l = pre ++ k :: suf → k ∈ pre → k ∈ recent cap (firsts pre)

theorem NoneForgotten.of_concat (h : NoneForgotten cap (l ++ [k])) : NoneForgotten cap l := by
  intro pre a suf e ha
  refine h pre a (suf ++ [k]) ?_ ha
  rw [e, List.append_assoc, List.cons_append]

/-- While each key is asked for once, the keys asked for are the keys used. -/
theorem asked_eq_firsts (h : (asked cap l).Nodup) : asked cap l = firsts l := by
  induction l using List.reverseRecOn with
  | nil => rfl
  | append_singleton l a ih =>
    have hl := ih (h.sublist (asked_extends cap l a).sublist)
    rw [asked_concat, enter, hl] at h ⊢
    rw [firsts_concat]
    split at h
    · rename_i ha
      rw [if_pos ha, if_pos (mem_of_mem_recent ha)]
    · rename_i ha
      have hnot : a ∉ firsts l := fun hm =>
        (List.nodup_append.mp h).2.2 a hm a List.mem_cons_self rfl
      rw [if_neg ha, if_neg hnot]

/-- Each key is asked for once iff none is used again after `cap` others were first used. -/
theorem nodup_asked_iff : (asked cap l).Nodup ↔ NoneForgotten cap l := by
  induction l using List.reverseRecOn with
  | nil =>
    constructor
    · intro _ pre k suf e
      simp at e
    · intro _
      exact List.nodup_nil
  | append_singleton l a ih =>
    constructor
    · intro h pre k suf e hk
      have hl : (asked cap l).Nodup := h.sublist (asked_extends cap l a).sublist
      rcases List.eq_nil_or_concat suf with rfl | ⟨suf, b, rfl⟩
      · obtain ⟨rfl, ha⟩ := List.append_inj' e rfl
        obtain rfl := List.singleton_inj.mp ha
        rw [asked_concat, enter, asked_eq_firsts hl] at h
        by_contra hnot
        rw [if_neg hnot] at h
        exact (List.nodup_append.mp h).2.2 a ((mem_firsts l a).mpr hk) a List.mem_cons_self rfl
      · rw [List.concat_eq_append, ← List.cons_append, ← List.append_assoc] at e
        obtain ⟨rfl, -⟩ := List.append_inj' e rfl
        exact ih.mp hl pre k suf rfl hk
    · intro h
      have hl := ih.mpr h.of_concat
      rw [asked_concat, enter, asked_eq_firsts hl]
      split
      · exact nodup_firsts l
      · rename_i ha
        refine List.nodup_append.mpr ⟨nodup_firsts l, List.nodup_singleton a, ?_⟩
        rintro x hx y hy rfl
        obtain rfl := List.mem_singleton.mp hy
        exact ha (h l x [] rfl ((mem_firsts l x).mp hx))

end Fifo
