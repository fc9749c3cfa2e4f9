import OpenVC.Python.Except

/-!
# Coroutines

An `async` function is a `Coroutine`: it returns, raises, or hands control to the event loop and goes
on when it is resumed. `await` is its bind. `run` is what the loop gets out of it in the end, and is
a homomorphism to `Except`, so a coroutine is compared with blocking code through its `run`.
-/

namespace Python

universe u v

variable {ε : Type u} {α β σ : Type v}

/-- A coroutine that ends after finitely many suspensions. -/
inductive Coroutine (ε : Type u) (α : Type v) where
  | done (result : Except ε α)
  | suspend (rest : Coroutine ε α)

namespace Coroutine

/-- `await` of the first, then the rest on its result. -/
def bind : Coroutine ε α → (α → Coroutine ε β) → Coroutine ε β
  | done (.ok a), f => f a
  | done (.error e), _ => done (.error e)
  | suspend rest, f => suspend (rest.bind f)

instance : Monad (Coroutine ε) where
  pure a := done (.ok a)
  bind := bind

/-- Blocking code called in a coroutine. -/
instance : MonadLift (Except ε) (Coroutine ε) where
  monadLift x := done x

/-- The outcome when the event loop has resumed the coroutine as often as it asked. -/
def run : Coroutine ε α → Except ε α
  | done result => result
  | suspend rest => rest.run

/-- `try: return await c` with the handlers `h`, which also see a normal return. -/
def handle (c : Coroutine ε α) (h : Except ε α → Except ε β) : Coroutine ε β :=
  match c with
  | done result => done (h result)
  | suspend rest => suspend (rest.handle h)

/-- `for a in l: st = await body(st, a)`. -/
def forEach (body : σ → α → Coroutine ε σ) (st : σ) : List α → Coroutine ε σ
  | [] => pure st
  | a :: l => body st a >>= fun st => forEach body st l

@[simp] theorem run_done (result : Except ε α) : (done result).run = result := rfl

@[simp] theorem run_pure (a : α) : (pure a : Coroutine ε α).run = .ok a := rfl

@[simp] theorem run_liftM (x : Except ε α) : (liftM x : Coroutine ε α).run = x := rfl

@[simp] theorem run_bind (c : Coroutine ε α) (f : α → Coroutine ε β) :
    (c >>= f).run = c.run >>= fun a => (f a).run := by
  induction c with
  | done result =>
    cases result with
    | ok a => rfl
    | error e => rfl
  | suspend rest ih => exact ih

@[simp] theorem run_handle (c : Coroutine ε α) (h : Except ε α → Except ε β) :
    (c.handle h).run = h c.run := by
  induction c with
  | done result => rfl
  | suspend rest ih => exact ih

end Coroutine

/-- Two computations that both raise, or both return the same. -/
def Agree (x y : Except ε α) : Prop := ∀ a, x = .ok a ↔ y = .ok a

namespace Agree

variable {x y : Except ε α} {f g : α → Except ε β}

@[refl] theorem refl (x : Except ε α) : Agree x x := fun _ => Iff.rfl

theorem of_eq (h : x = y) : Agree x y := h ▸ refl x

theorem bind (h : Agree x y) (hf : ∀ a, Agree (f a) (g a)) : Agree (x >>= f) (y >>= g) := by
  intro b
  rw [bind_eq_ok, bind_eq_ok]
  constructor
  · rintro ⟨a, hx, hb⟩
    exact ⟨a, (h a).mp hx, (hf a b).mp hb⟩
  · rintro ⟨a, hy, hb⟩
    exact ⟨a, (h a).mpr hy, (hf a b).mpr hb⟩

theorem bind_left (x : Except ε α) (hf : ∀ a, Agree (f a) (g a)) : Agree (x >>= f) (x >>= g) :=
  bind (refl x) hf

theorem of_error {e : ε} (hx : x = .error e) (hy : ∀ a, y ≠ .ok a) : Agree x y := by
  intro a
  rw [hx]
  exact ⟨nofun, fun h => absurd h (hy a)⟩

/-- A loop that awaits agrees with the blocking one when their bodies do. -/
theorem forEach {body : σ → α → Coroutine ε σ} {blocking : σ → Nat → α → Except ε σ}
    (h : ∀ st n a, Agree (body st a).run (blocking st n a)) (st : σ) (n : Nat) (l : List α) :
    Agree (Coroutine.forEach body st l).run (enumerateLoop blocking st n l) := by
  induction l generalizing st n with
  | nil => exact refl _
  | cons a l ih =>
    rw [Coroutine.forEach, Coroutine.run_bind]
    exact bind (h st n a) fun st' => ih st' (n + 1)

end Agree

end Python
