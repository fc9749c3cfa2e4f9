import OpenVC.Python.Except

/-!
# What a computation can raise

`RaisesOnly P x` is the exceptional postcondition of a computation: it returns, or it raises an
exception that satisfies `P`. Each rule is an equivalence, so that the condition of a block is read
off its statements.
-/

namespace Python

variable {ε α β : Type} {P Q : ε → Prop}

/-- Every exception that the computation raises satisfies `P`. -/
def RaisesOnly (P : ε → Prop) (x : Except ε α) : Prop := ∀ e, x = .error e → P e

theorem RaisesOnly.mono {x : Except ε α} (h : RaisesOnly P x) (hPQ : ∀ e, P e → Q e) :
    RaisesOnly Q x := fun e he => hPQ e (h e he)

@[simp] theorem raisesOnly_ok {a : α} : RaisesOnly P (.ok a) := nofun

@[simp] theorem raisesOnly_pure {a : α} : RaisesOnly P (pure a) := nofun

@[simp] theorem raisesOnly_error {e : ε} : RaisesOnly P (.error e : Except ε α) ↔ P e := by
  constructor
  · intro h
    exact h e rfl
  · rintro h e' he
    cases he
    exact h

theorem raisesOnly_bind {x : Except ε α} {f : α → Except ε β} :
    RaisesOnly P (x >>= f) ↔ RaisesOnly P x ∧ ∀ a, x = .ok a → RaisesOnly P (f a) := by
  cases x with
  | error e =>
    constructor
    · intro h
      exact ⟨raisesOnly_error.mpr (h e rfl), nofun⟩
    · rintro ⟨h, _⟩ e' he
      obtain rfl : e = e' := Except.error.inj he
      exact h e rfl
  | ok a =>
    constructor
    · intro h
      refine ⟨raisesOnly_ok, fun a' ha => ?_⟩
      cases ha
      exact h
    · rintro ⟨_, h⟩
      exact h a rfl

theorem RaisesOnly.bind {x : Except ε α} {f : α → Except ε β} (hx : RaisesOnly P x)
    (hf : ∀ a, x = .ok a → RaisesOnly P (f a)) : RaisesOnly P (x >>= f) :=
  raisesOnly_bind.mpr ⟨hx, hf⟩

@[simp] theorem raisesOnly_map {x : Except ε α} {f : α → β} :
    RaisesOnly P (x.map f) ↔ RaisesOnly P x := by
  cases x with
  | error e => exact raisesOnly_error.trans raisesOnly_error.symm
  | ok a => exact iff_of_true raisesOnly_ok raisesOnly_ok

@[simp] theorem raisesOnly_raiseIf {c : Bool} {e : ε} :
    RaisesOnly P (raiseIf c e) ↔ (c = true → P e) := by
  cases c <;> simp [raiseIf]

@[simp] theorem raisesOnly_orRaise {x : Option α} {e : ε} :
    RaisesOnly P (orRaise x e) ↔ (x = none → P e) := by
  cases x <;> simp [orRaise]

theorem RaisesOnly.raiseIf {c : Bool} {e : ε} (h : P e) : RaisesOnly P (raiseIf c e) :=
  raisesOnly_raiseIf.mpr fun _ => h

theorem RaisesOnly.orRaise {x : Option α} {e : ε} (h : P e) : RaisesOnly P (orRaise x e) :=
  raisesOnly_orRaise.mpr fun _ => h

theorem raisesOnly_collect {f : α → Except ε β} {l : List α} :
    RaisesOnly P (collect f l) ↔ ∀ pre a suf, l = pre ++ a :: suf →
      (∀ b ∈ pre, ∃ c, f b = .ok c) → RaisesOnly P (f a) := by
  induction l with
  | nil => simp [collect]
  | cons b l ih =>
    constructor
    · rintro h pre a suf e hpre
      cases pre with
      | nil =>
        obtain ⟨rfl, rfl⟩ := List.cons.inj e
        intro err herr
        refine h err ?_
        rw [collect, herr]
      | cons c pre =>
        obtain ⟨rfl, rfl⟩ := List.cons.inj e
        obtain ⟨d, hd⟩ := hpre b List.mem_cons_self
        refine ih.mp ?_ pre a suf rfl fun c hc => hpre c (List.mem_cons_of_mem _ hc)
        intro err herr
        refine h err ?_
        rw [collect, hd, herr]
    · intro h err herr
      rw [collect] at herr
      cases hb : f b with
      | error e' =>
        rw [hb] at herr
        cases herr
        exact h [] b l rfl (by simp) err hb
      | ok d =>
        have htail : RaisesOnly P (collect f l) := by
          refine ih.mpr fun pre a suf e hpre => ?_
          refine h (b :: pre) a suf (by rw [e]; rfl) fun c hc => ?_
          rcases List.mem_cons.mp hc with rfl | hc
          · exact ⟨d, hb⟩
          · exact hpre c hc
        cases hl : collect f l with
        | error e' =>
          rw [hb, hl] at herr
          cases herr
          exact htail err hl
        | ok bs =>
          rw [hb, hl] at herr
          cases herr

theorem RaisesOnly.collect {f : α → Except ε β} {l : List α} (h : ∀ a ∈ l, RaisesOnly P (f a)) :
    RaisesOnly P (collect f l) :=
  raisesOnly_collect.mpr fun _ a _ e _ => h a (e ▸ List.mem_append_right _ List.mem_cons_self)

theorem RaisesOnly.each {f : α → Except ε Unit} {l : List α} (h : ∀ a ∈ l, RaisesOnly P (f a)) :
    RaisesOnly P (each f l) := by
  induction l with
  | nil => exact raisesOnly_ok
  | cons a l ih =>
    rw [List.forall_mem_cons] at h
    unfold Python.each
    split
    · exact ih h.2
    · rename_i e he
      exact raisesOnly_error.mpr (h.1 e he)

theorem RaisesOnly.enumerateLoop {σ : Type} {body : σ → Nat → α → Except ε σ} {l : List α}
    (h : ∀ st i, ∀ a ∈ l, RaisesOnly P (body st i a)) (st : σ) (i : Nat) :
    RaisesOnly P (enumerateLoop body st i l) := by
  induction l generalizing st i with
  | nil => exact raisesOnly_ok
  | cons a l ih =>
    refine (h st i a List.mem_cons_self).bind fun st' _ => ?_
    exact ih (fun st i b hb => h st i b (List.mem_cons_of_mem _ hb)) st' (i + 1)

end Python
