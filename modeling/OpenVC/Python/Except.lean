import Mathlib.Data.List.Forall2
import Mathlib.Tactic.Common

/-!
# Exceptions

Fallible Python is `Except`. `raiseIf` is a guard clause (`if …: raise …`), `each` a `for` loop
whose body can only raise, and the lemmas say what a block that returned normally must have done.
-/

namespace Python

universe u v

variable {ε : Type u} {α β : Type v}

/-- `if c: raise e`. -/
def raiseIf (c : Bool) (e : ε) : Except ε Unit := if c then .error e else .ok ()

/-- `for a in l: f(a)`. -/
def each (f : α → Except ε Unit) : List α → Except ε Unit
  | [] => .ok ()
  | a :: l => match f a with
    | .ok _ => each f l
    | .error e => .error e

/-- `[f(a) for a in l]`. -/
def collect (f : α → Except ε β) : List α → Except ε (List β)
  | [] => .ok []
  | a :: l => match f a with
    | .error e => .error e
    | .ok b => match collect f l with
      | .error e => .error e
      | .ok bs => .ok (b :: bs)

/-- `for index, a in enumerate(l): st = body(st, index, a)`, from `index` on. -/
def enumerateLoop {σ : Type v} (body : σ → Nat → α → Except ε σ) (st : σ) (index : Nat) :
    List α → Except ε σ
  | [] => .ok st
  | a :: l => body st index a >>= fun st => enumerateLoop body st (index + 1) l

/-- Whether a computation returned. -/
def returned : Except ε α → Bool
  | .ok _ => true
  | .error _ => false

/-- A value that is there, else the exception. -/
def orRaise (x : Option α) (e : ε) : Except ε α :=
  match x with
  | some a => .ok a
  | none => .error e

theorem bind_eq_ok {x : Except ε α} {f : α → Except ε β} {b : β} :
    (x >>= f) = .ok b ↔ ∃ a, x = .ok a ∧ f a = .ok b := by
  cases x with
  | error e =>
    constructor
    · intro h; cases h
    · rintro ⟨a, h, _⟩; cases h
  | ok a =>
    constructor
    · intro h; exact ⟨a, rfl, h⟩
    · rintro ⟨a', h, hf⟩; cases h; exact hf

theorem pure_eq_ok {a b : α} : (pure a : Except ε α) = .ok b ↔ a = b := by
  constructor
  · intro h; cases h; rfl
  · rintro rfl; rfl

theorem raiseIf_eq_ok {c : Bool} {e : ε} {u : Unit} : raiseIf c e = .ok u ↔ c = false := by
  cases c <;> simp [raiseIf]

theorem orRaise_eq_ok {x : Option α} {e : ε} {a : α} : orRaise x e = .ok a ↔ x = some a := by
  cases x <;> simp [orRaise]

theorem returned_iff {x : Except ε α} : returned x = true ↔ ∃ a, x = .ok a := by
  cases x <;> simp [returned]

theorem exists_ok_of_map {γ : Type*} {x : Except ε α} {f : α → γ} {c : γ}
    (h : x.toOption.map f = some c) : ∃ a, x = .ok a ∧ f a = c := by
  cases x with
  | error e => cases h
  | ok a => exact ⟨a, rfl, Option.some.inj h⟩

theorem eq_ok_of_toOption {x : Except ε α} {a : α} (h : x.toOption = some a) : x = .ok a := by
  cases x with
  | error e => cases h
  | ok b => rw [Option.some.inj h]

theorem each_eq_ok {f : α → Except ε Unit} {l : List α} {u : Unit} :
    each f l = .ok u ↔ ∀ a ∈ l, f a = .ok () := by
  induction l with
  | nil => simp [each]
  | cons a l ih =>
    simp only [each, List.forall_mem_cons]
    cases h : f a with
    | ok u' => simp [ih]
    | error e => simp

theorem collect_eq_ok {f : α → Except ε β} {l : List α} {bs : List β} :
    collect f l = .ok bs ↔ List.Forall₂ (fun a b => f a = .ok b) l bs := by
  induction l generalizing bs with
  | nil =>
    simp only [collect, Except.ok.injEq, List.forall₂_nil_left_iff]
    exact eq_comm
  | cons a l ih =>
    simp only [collect]
    constructor
    · intro h
      cases ha : f a with
      | error e => simp [ha] at h
      | ok b =>
        cases hl : collect f l with
        | error e => simp [ha, hl] at h
        | ok bs' =>
          simp only [ha, hl, Except.ok.injEq] at h
          subst h
          exact .cons ha (ih.mp hl)
    · intro h
      cases h with
      | cons ha hl => simp [ha, ih.mpr hl]

theorem mem_collect {f : α → Except ε β} {l : List α} {bs : List β} (h : collect f l = .ok bs)
    {b : β} : b ∈ bs ↔ ∃ a ∈ l, f a = .ok b := by
  rw [collect_eq_ok] at h
  induction h with
  | nil => simp
  | cons ha _ ih => simp [ih, ha, eq_comm]

theorem collect_returned {f : α → Except ε β} {l : List α} {bs : List β} (h : collect f l = .ok bs)
    {a : α} (ha : a ∈ l) : ∃ b, f a = .ok b := by
  rw [collect_eq_ok] at h
  induction h with
  | nil => cases ha
  | cons hb _ ih =>
    rcases List.mem_cons.mp ha with rfl | ha
    · exact ⟨_, hb⟩
    · exact ih ha

/-- The invariant rule of a loop. `Inv done st` relates the elements already processed to the state,
`Post done a` is what one iteration establishes about its element and those before it. -/
theorem enumerateLoop_invariant {σ : Type v} {body : σ → Nat → α → Except ε σ}
    {Inv : List α → σ → Prop} {Post : List α → α → Prop}
    (hstep : ∀ done st a st', Inv done st → body st done.length a = .ok st' →
      Inv (done ++ [a]) st' ∧ Post done a)
    {done rest : List α} {st st' : σ} (hinv : Inv done st)
    (h : enumerateLoop body st done.length rest = .ok st') :
    Inv (done ++ rest) st' ∧ ∀ pre a suf, rest = pre ++ a :: suf → Post (done ++ pre) a := by
  induction rest generalizing done st with
  | nil =>
    cases h
    exact ⟨by simpa using hinv, fun pre a suf e => by simp at e⟩
  | cons b rest ih =>
    obtain ⟨st₁, h₁, h₂⟩ := bind_eq_ok.mp h
    obtain ⟨hinv₁, hpost⟩ := hstep done st b st₁ hinv h₁
    have hlen : (done ++ [b]).length = done.length + 1 := by simp
    obtain ⟨hinv', hrest⟩ := ih hinv₁ (hlen ▸ h₂)
    refine ⟨by simpa using hinv', fun pre a suf e => ?_⟩
    cases pre with
    | nil =>
      simp only [List.nil_append, List.cons.injEq] at e
      rw [List.append_nil, ← e.1]
      exact hpost
    | cons c pre =>
      simp only [List.cons_append, List.cons.injEq] at e
      obtain ⟨rfl, e⟩ := e
      have := hrest pre a suf e
      simpa using this

/-- The invariant rule of a loop that has nothing to say of its single iterations. -/
theorem enumerateLoop_preserves {σ : Type v} {body : σ → Nat → α → Except ε σ}
    (Inv : List α → σ → Prop) {st st' : σ} {l : List α} (hinv : Inv [] st)
    (h : enumerateLoop body st 0 l = .ok st')
    (hstep : ∀ done st a st', Inv done st → body st done.length a = .ok st' →
      Inv (done ++ [a]) st') : Inv l st' := by
  have hpost : ∀ done st a st', Inv done st → body st done.length a = .ok st' →
      Inv (done ++ [a]) st' ∧ (fun _ _ => True : List α → α → Prop) done a :=
    fun done st a st' hi hb => ⟨hstep done st a st' hi hb, trivial⟩
  exact (enumerateLoop_invariant hpost hinv h).1

theorem exists_of_mem_left {R : α → β → Prop} {l : List α} {l' : List β}
    (h : List.Forall₂ R l l') {a : α} (ha : a ∈ l) : ∃ b ∈ l', R a b := by
  induction h with
  | nil => cases ha
  | @cons a' b l l' hr _ ih =>
    rcases List.mem_cons.mp ha with rfl | ha
    · exact ⟨b, List.mem_cons_self, hr⟩
    · obtain ⟨b', hb', hr'⟩ := ih ha
      exact ⟨b', List.mem_cons_of_mem _ hb', hr'⟩

theorem exists_of_mem_right {R : α → β → Prop} {l : List α} {l' : List β}
    (h : List.Forall₂ R l l') {b : β} (hb : b ∈ l') : ∃ a ∈ l, R a b :=
  exists_of_mem_left (List.Forall₂.flip h) hb

end Python
