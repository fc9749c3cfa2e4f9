import OpenVC.Python.Calling

/-!
# Interleaved callers of one object

Any number of threads run code that calls one object, which serves a call atomically. A step starts a
thread, serves the next call of one of them, or moves the object by itself. Whatever the order, each
thread is in a partial run of its own code, and the log of the served calls is a run of the object.
-/

namespace Python

variable {Q : Type} {A : Q → Type} {ε α σ ι : Type}

/-- A call with what it returned or raised. -/
abbrev Exchange (Q : Type) (A : Q → Type) (ε : Type) := (q : Q) × Except ε (A q)

namespace Calling

/-- The code has made some calls, and the rest of it is left. -/
inductive Reaches (c : Calling Q A ε α) : List (Exchange Q A ε) → Calling Q A ε α → Prop
  | start : Reaches c [] c
  | call {made : List (Exchange Q A ε)} {q : Q} {rest : Except ε (A q) → Calling Q A ε α}
      (h : Reaches c made (.call q rest)) (r : Except ε (A q)) :
      Reaches c (made ++ [⟨q, r⟩]) (rest r)

theorem reaches_done {result : Except ε α} {made : List (Exchange Q A ε)}
    {c : Calling Q A ε α} (h : Reaches (.done result) made c) : made = [] ∧ c = .done result := by
  induction h with
  | start => exact ⟨rfl, rfl⟩
  | call _ r ih => exact nomatch ih.2

/-- Code that makes one call has not made it, or has ended with its answer. -/
theorem reaches_call_done {q : Q} {f : Except ε (A q) → Except ε α}
    {made : List (Exchange Q A ε)} {c : Calling Q A ε α}
    (h : Reaches (.call q fun r => .done (f r)) made c) :
    (made = [] ∧ c = .call q fun r => .done (f r)) ∨
      ∃ r, made = [⟨q, r⟩] ∧ c = .done (f r) := by
  induction h with
  | start => exact .inl ⟨rfl, rfl⟩
  | call _ r ih =>
    rcases ih with ⟨rfl, hc⟩ | ⟨r', _, hc⟩
    · cases hc
      exact .inr ⟨r, rfl, rfl⟩
    · cases hc

end Calling

/-- Threads that each run the code of their label, the object that serves them, and the calls it
served, each with the index of its thread. -/
structure World (Q : Type) (A : Q → Type) (ε α σ ι : Type) where
  object : σ
  threads : List (ι × Calling Q A ε α)
  log : List (Nat × Exchange Q A ε)

namespace World

variable {code : ι → Calling Q A ε α} {serve : (q : Q) → σ → Except ε (A q) × σ}
  {move : σ → σ → Prop} {init : σ} {w w' : World Q A ε α σ ι}

/-- The calls that a thread has made, in order. -/
def madeBy (w : World Q A ε α σ ι) (i : Nat) : List (Exchange Q A ε) :=
  (w.log.filter (·.1 == i)).map Prod.snd

/-- A step of the world. -/
inductive Step (code : ι → Calling Q A ε α) (serve : (q : Q) → σ → Except ε (A q) × σ)
    (move : σ → σ → Prop) (w : World Q A ε α σ ι) : World Q A ε α σ ι → Prop
  | start (label : ι) : Step code serve move w
      { w with threads := w.threads ++ [(label, code label)] }
  | call (i : Nat) (label : ι) (q : Q) (rest : Except ε (A q) → Calling Q A ε α)
      (hi : w.threads[i]? = some (label, .call q rest)) : Step code serve move w
      { object := (serve q w.object).2
        threads := w.threads.set i (label, rest (serve q w.object).1)
        log := w.log ++ [(i, ⟨q, (serve q w.object).1⟩)] }
  | move (object : σ) (h : move w.object object) : Step code serve move w { w with object }

/-- The worlds that the steps lead to. -/
inductive Reachable (code : ι → Calling Q A ε α) (serve : (q : Q) → σ → Except ε (A q) × σ)
    (move : σ → σ → Prop) (init : σ) : World Q A ε α σ ι → Prop
  | init : Reachable code serve move init ⟨init, [], []⟩
  | step {w w' : World Q A ε α σ ι} (h : Reachable code serve move init w)
      (hstep : Step code serve move w w') : Reachable code serve move init w'

theorem Reachable.served {i : Nat} {label : ι} {q : Q} {rest : Except ε (A q) → Calling Q A ε α}
    {r : Except ε (A q)} {object : σ} (h : Reachable code serve move init w)
    (hi : w.threads[i]? = some (label, .call q rest)) (hserve : serve q w.object = (r, object)) :
    Reachable code serve move init
      ⟨object, w.threads.set i (label, rest r), w.log ++ [(i, ⟨q, r⟩)]⟩ := by
  have hstep := h.step (.call i label q rest hi)
  rw [hserve] at hstep
  exact hstep

/-- Each thread is in a partial run of its code, and the log has calls of the threads only. -/
structure Coherent (code : ι → Calling Q A ε α) (w : World Q A ε α σ ι) : Prop where
  reaches : ∀ i label rest, w.threads[i]? = some (label, rest) →
    (code label).Reaches (w.madeBy i) rest
  known : ∀ e ∈ w.log, e.1 < w.threads.length

theorem madeBy_snoc_self (w : World Q A ε α σ ι) (i : Nat) (e : Exchange Q A ε) (object : σ)
    (threads : List (ι × Calling Q A ε α)) :
    (⟨object, threads, w.log ++ [(i, e)]⟩ : World Q A ε α σ ι).madeBy i = w.madeBy i ++ [e] := by
  simp [madeBy]

theorem madeBy_snoc_of_ne (w : World Q A ε α σ ι) {i j : Nat} (h : i ≠ j) (e : Exchange Q A ε)
    (object : σ) (threads : List (ι × Calling Q A ε α)) :
    (⟨object, threads, w.log ++ [(i, e)]⟩ : World Q A ε α σ ι).madeBy j = w.madeBy j := by
  simp [madeBy, h]

theorem Coherent.madeBy_new (h : Coherent code w) : w.madeBy w.threads.length = [] := by
  unfold madeBy
  rw [List.map_eq_nil_iff, List.filter_eq_nil_iff]
  intro e he
  have hlt := h.known e he
  simpa using Nat.ne_of_lt hlt

theorem Coherent.step (h : Coherent code w) (hstep : Step code serve move w w') :
    Coherent code w' := by
  cases hstep with
  | start label =>
    constructor
    · intro i l rest hi
      rcases Nat.lt_trichotomy i w.threads.length with hlt | rfl | hgt
      · rw [List.getElem?_append_left hlt] at hi
        exact h.reaches i l rest hi
      · rw [List.getElem?_concat_length] at hi
        cases hi
        change (code label).Reaches (w.madeBy w.threads.length) (code label)
        rw [h.madeBy_new]
        exact .start
      · rw [List.getElem?_eq_none (by rw [List.length_append]; exact hgt)] at hi
        cases hi
    · intro e he
      have hlt := h.known e he
      simp only [List.length_append, List.length_cons, List.length_nil]
      omega
  | call i label q rest hi =>
    have hlen : i < w.threads.length := (List.getElem?_eq_some_iff.mp hi).1
    constructor
    · intro j l rest' hj
      by_cases hij : i = j
      · subst hij
        rw [List.getElem?_set_self hlen] at hj
        cases hj
        rw [madeBy_snoc_self]
        exact (h.reaches i label _ hi).call _
      · rw [List.getElem?_set_ne hij] at hj
        rw [madeBy_snoc_of_ne w hij]
        exact h.reaches j l rest' hj
    · intro e he
      rw [List.length_set]
      rcases List.mem_append.mp he with he | he
      · exact h.known e he
      · rw [List.mem_singleton.mp he]
        exact hlen
  | move object hmove => exact ⟨h.reaches, h.known⟩

theorem coherent_of_reachable (h : Reachable code serve move init w) : Coherent code w := by
  induction h with
  | init => exact ⟨nofun, nofun⟩
  | step _ hstep ih => exact ih.step hstep

/-- The invariant rule of the object: what it keeps of its state and of the calls it served, one call
or one move at a time, holds in every world. -/
theorem reachable_invariant (Inv : σ → List (Nat × Exchange Q A ε) → Prop)
    (hinit : Inv init [])
    (hserve : ∀ s log i q, Inv s log → Inv (serve q s).2 (log ++ [(i, ⟨q, (serve q s).1⟩)]))
    (hmove : ∀ s s' log, Inv s log → move s s' → Inv s' log)
    (h : Reachable code serve move init w) : Inv w.object w.log := by
  induction h with
  | init => exact hinit
  | step _ hstep ih =>
    cases hstep with
    | start label => exact ih
    | call i label q rest hi => exact hserve _ _ i q ih
    | move object hm => exact hmove _ _ _ ih hm

end World

end Python
