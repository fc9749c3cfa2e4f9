import OpenVC.Python.Except

/-!
# Code that calls back

A function that is handed callables is a `Calling`: it returns, raises, or makes a call and goes on
with what the call returned or raised. `eval` is its outcome when every call is answered by a fixed
function, `calls` the calls it makes then, and `runWith` its outcome and the state it leaves when the
callables share a state.
-/

namespace Python

variable {Q : Type} {A : Q → Type} {ε α β σ : Type}

/-- Code that makes finitely many calls, `A q` being what the call `q` returns. -/
inductive Calling (Q : Type) (A : Q → Type) (ε α : Type) where
  | done (result : Except ε α)
  | call (q : Q) (rest : Except ε (A q) → Calling Q A ε α)

namespace Calling

/-- The first statement, then the rest on its result. -/
def bind : Calling Q A ε α → (α → Calling Q A ε β) → Calling Q A ε β
  | done (.ok a), f => f a
  | done (.error e), _ => done (.error e)
  | call q rest, f => call q fun r => (rest r).bind f

instance : Monad (Calling Q A ε) where
  pure a := done (.ok a)
  bind := bind

/-- Code that makes no calls. -/
instance : MonadLift (Except ε) (Calling Q A ε) where
  monadLift x := done x

/-- The call `q`. -/
def ask (q : Q) : Calling Q A ε (A q) := call q done

/-- `try: return c` with the handlers `h`, which also see a normal return. -/
def handle (c : Calling Q A ε α) (h : Except ε α → Except ε β) : Calling Q A ε β :=
  match c with
  | done result => done (h result)
  | call q rest => call q fun r => (rest r).handle h

/-- `for a in l: st = body(st, a)`. -/
def forEach (body : σ → α → Calling Q A ε σ) (st : σ) : List α → Calling Q A ε σ
  | [] => pure st
  | a :: l => body st a >>= fun st => forEach body st l

/-- The outcome when the calls are answered by `answer`. -/
def eval (answer : (q : Q) → Except ε (A q)) : Calling Q A ε α → Except ε α
  | done result => result
  | call q rest => (rest (answer q)).eval answer

/-- The calls that are made when they are answered by `answer`. -/
def calls (answer : (q : Q) → Except ε (A q)) : Calling Q A ε α → List Q
  | done _ => []
  | call q rest => q :: (rest (answer q)).calls answer

/-- The outcome and the state that is left when the callables share a state. An exception keeps what
was changed before it. -/
def runWith (step : (q : Q) → σ → Except ε (A q) × σ) : Calling Q A ε α → σ → Except ε α × σ
  | done result, s => (result, s)
  | call q rest, s => (rest (step q s).1).runWith step (step q s).2

section eval

variable {answer : (q : Q) → Except ε (A q)}

@[simp] theorem eval_done (result : Except ε α) :
    (done result : Calling Q A ε α).eval answer = result := rfl

@[simp] theorem eval_pure (a : α) : (pure a : Calling Q A ε α).eval answer = pure a := rfl

@[simp] theorem eval_liftM (x : Except ε α) :
    (liftM x : Calling Q A ε α).eval answer = x := rfl

@[simp] theorem eval_ask (q : Q) : (ask q : Calling Q A ε (A q)).eval answer = answer q := rfl

@[simp] theorem eval_bind (c : Calling Q A ε α) (f : α → Calling Q A ε β) :
    (c >>= f).eval answer = c.eval answer >>= fun a => (f a).eval answer := by
  induction c with
  | done result =>
    cases result with
    | ok a => rfl
    | error e => rfl
  | call q rest ih => exact ih (answer q)

@[simp] theorem eval_handle (c : Calling Q A ε α) (h : Except ε α → Except ε β) :
    (c.handle h).eval answer = h (c.eval answer) := by
  induction c with
  | done result => rfl
  | call q rest ih => exact ih (answer q)

/-- A loop evaluates to the loop over the bodies' evaluations. -/
theorem eval_forEach {body : σ → α → Calling Q A ε σ} {blocking : σ → Nat → α → Except ε σ}
    (h : ∀ st n a, (body st a).eval answer = blocking st n a) (st : σ) (n : Nat) (l : List α) :
    (forEach body st l).eval answer = enumerateLoop blocking st n l := by
  induction l generalizing st n with
  | nil => rfl
  | cons a l ih =>
    rw [forEach, eval_bind, h st n a, enumerateLoop]
    congr 1
    funext st'
    exact ih st' (n + 1)

@[simp] theorem calls_done (result : Except ε α) :
    (done result : Calling Q A ε α).calls answer = [] := rfl

@[simp] theorem calls_pure (a : α) : (pure a : Calling Q A ε α).calls answer = [] := rfl

@[simp] theorem calls_liftM (x : Except ε α) :
    (liftM x : Calling Q A ε α).calls answer = [] := rfl

@[simp] theorem calls_ask (q : Q) : (ask q : Calling Q A ε (A q)).calls answer = [q] := rfl

theorem calls_bind (c : Calling Q A ε α) (f : α → Calling Q A ε β) :
    (c >>= f).calls answer = c.calls answer ++
      match c.eval answer with
      | .ok a => (f a).calls answer
      | .error _ => [] := by
  induction c with
  | done result =>
    cases result with
    | ok a => rfl
    | error e => rfl
  | call q rest ih =>
    change q :: ((rest (answer q)).bind f).calls answer = _
    exact congrArg (q :: ·) (ih (answer q))

end eval

section Runs

/-- A run, whatever the calls return or raise: the calls that were made, in order, and the outcome. -/
inductive Runs : Calling Q A ε α → List Q → Except ε α → Prop where
  | done (result : Except ε α) : Runs (done result) [] result
  | call {q : Q} {rest : Except ε (A q) → Calling Q A ε α} {l : List Q} {result : Except ε α}
      (r : Except ε (A q)) (h : Runs (rest r) l result) : Runs (call q rest) (q :: l) result

variable {l : List Q}

@[simp] theorem runs_done {x result : Except ε α} :
    Runs (done x : Calling Q A ε α) l result ↔ l = [] ∧ result = x := by
  constructor
  · intro h
    cases h
    exact ⟨rfl, rfl⟩
  · rintro ⟨rfl, rfl⟩
    exact .done _

@[simp] theorem runs_pure {a : α} {result : Except ε α} :
    Runs (pure a : Calling Q A ε α) l result ↔ l = [] ∧ result = .ok a := runs_done

@[simp] theorem runs_liftM {x result : Except ε α} :
    Runs (liftM x : Calling Q A ε α) l result ↔ l = [] ∧ result = x := runs_done

theorem runs_ask {q : Q} {result : Except ε (A q)} :
    Runs (ask q : Calling Q A ε (A q)) l result ↔ l = [q] := by
  constructor
  · intro h
    cases h with
    | call r h =>
      rw [(runs_done.mp h).1]
  · rintro rfl
    exact .call result (.done result)

/-- A block is left by its first statement, or goes on with what that returned. -/
theorem runs_bind {c : Calling Q A ε α} {f : α → Calling Q A ε β} {result : Except ε β} :
    Runs (c >>= f) l result ↔ (∃ e, Runs c l (.error e) ∧ result = .error e) ∨
      ∃ a l₁ l₂, Runs c l₁ (.ok a) ∧ Runs (f a) l₂ result ∧ l = l₁ ++ l₂ := by
  induction c generalizing l with
  | done x =>
    cases x with
    | ok a =>
      change Runs (f a) l result ↔ _
      simp
    | error e =>
      change Runs (.done (.error e)) l result ↔ _
      simp [and_comm]
  | call q rest ih =>
    change Runs (.call q fun r => rest r >>= f) l result ↔ _
    constructor
    · intro h
      cases h with
      | call r h =>
        rcases (ih r).mp h with ⟨e, hc, he⟩ | ⟨a, l₁, l₂, hc, hf, rfl⟩
        · exact .inl ⟨e, .call r hc, he⟩
        · exact .inr ⟨a, q :: l₁, l₂, .call r hc, hf, rfl⟩
    · rintro (⟨e, hc, he⟩ | ⟨a, l₁, l₂, hc, hf, rfl⟩)
      · cases hc with
        | call r hc => exact .call r ((ih r).mpr (.inl ⟨e, hc, he⟩))
      · cases hc with
        | call r hc => exact .call r ((ih r).mpr (.inr ⟨a, _, l₂, hc, hf, rfl⟩))

/-- A statement that makes no call leaves the block or goes on with its value. -/
theorem runs_liftM_bind {x : Except ε α} {f : α → Calling Q A ε β} {result : Except ε β} :
    Runs (liftM x >>= f : Calling Q A ε β) l result ↔
      (∃ e, x = .error e ∧ l = [] ∧ result = .error e) ∨ ∃ a, x = .ok a ∧ Runs (f a) l result := by
  cases x with
  | error e =>
    change Runs (.done (.error e)) l result ↔ _
    simp
  | ok a =>
    change Runs (f a) l result ↔ _
    simp

theorem runs_ask_bind {q : Q} {f : A q → Calling Q A ε β} {result : Except ε β} :
    Runs (ask q >>= f) l result ↔ (∃ e, l = [q] ∧ result = .error e) ∨
      ∃ a l', Runs (f a) l' result ∧ l = q :: l' := by
  rw [runs_bind]
  refine or_congr (by simp [runs_ask]) (exists_congr fun a => ?_)
  simp only [runs_ask]
  constructor
  · rintro ⟨l₁, l₂, rfl, h, rfl⟩
    exact ⟨l₂, h, rfl⟩
  · rintro ⟨l', h, rfl⟩
    exact ⟨[q], l', rfl, h, rfl⟩

end Runs

section runWith

variable {step : (q : Q) → σ → Except ε (A q) × σ} {answer : (q : Q) → Except ε (A q)}

/-- Callables that answer as `answer` does, in every state that keeps an invariant. -/
def Answers (step : (q : Q) → σ → Except ε (A q) × σ) (answer : (q : Q) → Except ε (A q))
    (Inv : σ → Prop) : Prop :=
  ∀ q s, Inv s → (step q s).1 = answer q ∧ Inv (step q s).2

/-- The state after a sequence of calls. -/
def after (step : (q : Q) → σ → Except ε (A q) × σ) (s : σ) (l : List Q) : σ :=
  l.foldl (fun s q => (step q s).2) s

theorem runWith_eq {Inv : σ → Prop} (h : Answers step answer Inv) (c : Calling Q A ε α) {s : σ}
    (hs : Inv s) : c.runWith step s = (c.eval answer, after step s (c.calls answer)) := by
  induction c generalizing s with
  | done result => rfl
  | call q rest ih =>
    obtain ⟨ha, hi⟩ := h q s hs
    rw [runWith, ih _ hi, ha]
    rfl

@[simp] theorem after_nil (s : σ) : after step s [] = s := rfl

theorem after_append (s : σ) (l l' : List Q) :
    after step s (l ++ l') = after step (after step s l) l' := List.foldl_append

end runWith

end Calling

end Python

/-!
## Runs with the outcomes of their calls

A trace of code that calls back is a run in which each call returned or raised something: whatever
the callables do, what the code does is one of its traces.
-/

namespace Python.Calling

variable {Q : Type} {A : Q → Type} {ε α β σ : Type}

/-- A call and its outcome. -/
abbrev Answer (Q : Type) (A : Q → Type) (ε : Type) := (q : Q) × Except ε (A q)

/-- A run: the calls with their outcomes, in order, and the outcome of the code. -/
inductive Traced : Calling Q A ε α → List (Answer Q A ε) → Except ε α → Prop where
  | done (result : Except ε α) : Traced (done result) [] result
  | call {q : Q} {rest : Except ε (A q) → Calling Q A ε α} {l : List (Answer Q A ε)}
      {result : Except ε α} (r : Except ε (A q)) (h : Traced (rest r) l result) :
      Traced (call q rest) (⟨q, r⟩ :: l) result

variable {l l' : List (Answer Q A ε)}

@[simp] theorem traced_done {x result : Except ε α} :
    Traced (done x : Calling Q A ε α) l result ↔ l = [] ∧ result = x := by
  constructor
  · intro h
    cases h
    exact ⟨rfl, rfl⟩
  · rintro ⟨rfl, rfl⟩
    exact .done _

@[simp] theorem traced_pure {a : α} {result : Except ε α} :
    Traced (pure a : Calling Q A ε α) l result ↔ l = [] ∧ result = .ok a := traced_done

theorem traced_call {q : Q} {rest : Except ε (A q) → Calling Q A ε α} {result : Except ε α} :
    Traced (call q rest) l result ↔ ∃ r l', l = ⟨q, r⟩ :: l' ∧ Traced (rest r) l' result := by
  constructor
  · intro h
    cases h with
    | call r h => exact ⟨r, _, rfl, h⟩
  · rintro ⟨r, l', rfl, h⟩
    exact .call r h

theorem traced_ask {q : Q} {r : Except ε (A q)} :
    Traced (ask q : Calling Q A ε (A q)) l r ↔ l = [⟨q, r⟩] := by
  refine traced_call.trans ?_
  constructor
  · rintro ⟨x, l', rfl, h⟩
    obtain ⟨rfl, rfl⟩ := traced_done.mp h
    rfl
  · rintro rfl
    exact ⟨r, [], rfl, .done r⟩

/-- A statement that makes no call leaves the block or goes on with its value. -/
theorem traced_liftM_bind {x : Except ε α} {f : α → Calling Q A ε β} {result : Except ε β} :
    Traced (liftM x >>= f : Calling Q A ε β) l result ↔
      (∃ e, x = .error e ∧ l = [] ∧ result = .error e) ∨ ∃ a, x = .ok a ∧ Traced (f a) l result := by
  cases x with
  | error e =>
    change Traced (.done (.error e)) l result ↔ _
    simp
  | ok a =>
    change Traced (f a) l result ↔ _
    simp

/-- A block is left by its first statement, or goes on with what that returned. -/
theorem traced_bind {c : Calling Q A ε α} {f : α → Calling Q A ε β} {result : Except ε β} :
    Traced (c >>= f) l result ↔ (∃ e, Traced c l (.error e) ∧ result = .error e) ∨
      ∃ a l₁ l₂, Traced c l₁ (.ok a) ∧ Traced (f a) l₂ result ∧ l = l₁ ++ l₂ := by
  induction c generalizing l with
  | done x =>
    cases x with
    | ok a =>
      change Traced (f a) l result ↔ _
      simp
    | error e =>
      change Traced (.done (.error e)) l result ↔ _
      simp [and_comm]
  | call q rest ih =>
    change Traced (.call q fun r => rest r >>= f) l result ↔ _
    constructor
    · intro h
      cases h with
      | call r h =>
        rcases (ih r).mp h with ⟨e, hc, he⟩ | ⟨a, l₁, l₂, hc, hf, rfl⟩
        · exact .inl ⟨e, .call r hc, he⟩
        · exact .inr ⟨a, _, l₂, .call r hc, hf, rfl⟩
    · rintro (⟨e, hc, he⟩ | ⟨a, l₁, l₂, hc, hf, rfl⟩)
      · cases hc with
        | call r hc => exact .call r ((ih r).mpr (.inl ⟨e, hc, he⟩))
      · cases hc with
        | call r hc => exact .call r ((ih r).mpr (.inr ⟨a, _, l₂, hc, hf, rfl⟩))

/-- A call leaves the block or is the first of its calls. -/
theorem traced_ask_bind {q : Q} {f : A q → Calling Q A ε β} {r : Except ε β} :
    Traced (ask q >>= f) l r ↔ (∃ e, l = [⟨q, .error e⟩] ∧ r = .error e) ∨
      ∃ a l', Traced (f a) l' r ∧ l = ⟨q, .ok a⟩ :: l' := by
  rw [traced_bind]
  refine or_congr ?_ (exists_congr fun a => ?_)
  · simp only [traced_ask]
  · simp only [traced_ask]
    constructor
    · rintro ⟨l₁, l₂, rfl, h, rfl⟩
      exact ⟨l₂, h, rfl⟩
    · rintro ⟨l₂, h, rfl⟩
      exact ⟨_, l₂, rfl, h, rfl⟩

theorem traced_handle {c : Calling Q A ε α} {h : Except ε α → Except ε β} {r : Except ε β} :
    Traced (c.handle h) l r ↔ ∃ x, Traced c l x ∧ r = h x := by
  induction c generalizing l with
  | done x =>
    refine traced_done.trans ?_
    constructor
    · rintro ⟨rfl, rfl⟩
      exact ⟨_, .done _, rfl⟩
    · rintro ⟨x', hx, rfl⟩
      obtain ⟨rfl, rfl⟩ := traced_done.mp hx
      exact ⟨rfl, rfl⟩
  | call q rest ih =>
    refine traced_call.trans ?_
    constructor
    · rintro ⟨a, l', rfl, ha⟩
      obtain ⟨x, hx, rfl⟩ := (ih a).mp ha
      exact ⟨x, .call a hx, rfl⟩
    · rintro ⟨x, hx, rfl⟩
      obtain ⟨a, l', rfl, ha⟩ := traced_call.mp hx
      exact ⟨a, l', rfl, (ih a).mpr ⟨x, ha, rfl⟩⟩

theorem traced_eval (answer : (q : Q) → Except ε (A q)) (c : Calling Q A ε α) :
    Traced c ((c.calls answer).map fun q => ⟨q, answer q⟩) (c.eval answer) := by
  induction c with
  | done result => exact .done result
  | call q rest ih => exact .call (answer q) (ih (answer q))

theorem exists_traced_served (answer : (q : Q) → Except ε (A q)) (c : Calling Q A ε α) :
    ∃ l, Traced c l (c.eval answer) ∧ ∀ f ∈ l, f.2 = answer f.1 := by
  refine ⟨_, traced_eval answer c, fun f hf => ?_⟩
  obtain ⟨q, -, rfl⟩ := List.mem_map.mp hf
  rfl

/-- A `try` of which the rest sees the outcome. -/
theorem traced_try_bind {c : Calling Q A ε α} {f : Except ε α → Calling Q A ε β} {r : Except ε β} :
    Traced (c.handle .ok >>= f) l r ↔
      ∃ x l₁ l₂, Traced c l₁ x ∧ Traced (f x) l₂ r ∧ l = l₁ ++ l₂ := by
  rw [traced_bind]
  simp only [traced_handle]
  constructor
  · rintro (⟨e, ⟨x, -, hx⟩, -⟩ | ⟨a, l₁, l₂, ⟨x, hx, ha⟩, hf, rfl⟩)
    · cases hx
    · cases ha
      exact ⟨a, l₁, l₂, hx, hf, rfl⟩
  · rintro ⟨x, l₁, l₂, hx, hf, rfl⟩
    exact .inr ⟨x, l₁, l₂, ⟨x, hx, rfl⟩, hf, rfl⟩

theorem bind_assoc {γ : Type} (c : Calling Q A ε α) (f : α → Calling Q A ε β)
    (g : β → Calling Q A ε γ) : c >>= f >>= g = c >>= fun a => f a >>= g := by
  induction c with
  | done x =>
    cases x with
    | ok a => rfl
    | error e => rfl
  | call q rest ih => exact congrArg (call q) (funext ih)

/-! ## What holds of each call -/

/-- What holds of each call that is made after `pre`, given the calls before it. -/
def EachCall (P : List (Answer Q A ε) → Answer Q A ε → Prop) :
    List (Answer Q A ε) → List (Answer Q A ε) → Prop
  | _, [] => True
  | pre, c :: l => P pre c ∧ EachCall P (pre ++ [c]) l

section EachCall

variable {P : List (Answer Q A ε) → Answer Q A ε → Prop} {pre : List (Answer Q A ε)}

theorem eachCall_append :
    EachCall P pre (l ++ l') ↔ EachCall P pre l ∧ EachCall P (pre ++ l) l' := by
  induction l generalizing pre with
  | nil => simp [EachCall]
  | cons c l ih => simp [EachCall, ih, and_assoc]

theorem eachCall_of_forall (h : ∀ c ∈ l, ∀ pre, P pre c) : EachCall P pre l := by
  induction l generalizing pre with
  | nil => trivial
  | cons c l ih =>
    exact ⟨h c List.mem_cons_self pre, ih fun c hc => h c (List.mem_cons_of_mem _ hc)⟩

theorem EachCall.at {c : Answer Q A ε} (h : EachCall P pre (l ++ c :: l')) : P (pre ++ l) c :=
  (eachCall_append.mp h).2.1

end EachCall

end Python.Calling
