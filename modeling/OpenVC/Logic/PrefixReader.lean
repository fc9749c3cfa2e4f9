import OpenVC.Python.Except

/-!
# Readers of a prefix

A reader takes a value from the front of an input and returns the rest. A reader that is not
influenced by what follows the part it takes gives a self-delimiting code: the texts that it reads to
their end are prefix-free, and a concatenation of them has one reading only.
-/

namespace PrefixReader

open Python

variable {ε : Type} {α β γ : Type}

/-- In front of anything, the code is read as the value. -/
def Reads (p : List β → Except ε (α × List β)) (code : List β) (a : α) : Prop :=
  ∀ rest, p (code ++ rest) = .ok (a, rest)

/-- The reader takes a code of its input, whatever follows. -/
def Delimits (p : List β → Except ε (α × List β)) : Prop :=
  ∀ data a rest, p data = .ok (a, rest) → ∃ code, data = code ++ rest ∧ Reads p code a

variable {p p' : List β → Except ε (α × List β)} {q q' : α → List β → Except ε (γ × List β)}
  {code code' rest rest' more : List β} {a a' : α}

theorem Delimits.reads (h : Delimits p) (hc : p code = .ok (a, [])) : Reads p code a := by
  obtain ⟨c, hdata, hreads⟩ := h code a [] hc
  rw [List.append_nil] at hdata
  rw [hdata]
  exact hreads

theorem delimits_pure (a : α) : Delimits fun data : List β => (.ok (a, data) : Except ε _) := by
  intro data b rest h
  cases h
  exact ⟨[], rfl, fun r => rfl⟩

theorem delimits_error (e : ε) : Delimits fun _ : List β => (.error e : Except ε (α × List β)) := by
  intro data b rest h
  cases h

/-- One reader after the other. -/
theorem Delimits.bind (hp : Delimits p) (hq : ∀ a, Delimits (q a)) :
    Delimits fun data => p data >>= fun x => q x.1 x.2 := by
  intro data c rest h
  obtain ⟨⟨a, mid⟩, ha, hc⟩ := bind_eq_ok.mp h
  obtain ⟨code, rfl, hreads⟩ := hp data a mid ha
  obtain ⟨code', rfl, hreads'⟩ := hq a mid c rest hc
  refine ⟨code ++ code', (List.append_assoc _ _ _).symm, fun r => ?_⟩
  rw [List.append_assoc]
  exact bind_eq_ok.mpr ⟨_, hreads _, hreads' r⟩

/-- What the first reader accepts, the second reads alike. -/
def Extends (p p' : List β → Except ε (α × List β)) : Prop :=
  ∀ data x, p data = .ok x → p' data = .ok x

theorem Extends.bind (hp : Extends p p') (hq : ∀ a, Extends (q a) (q' a)) :
    Extends (fun data => p data >>= fun x => q x.1 x.2)
      fun data => p' data >>= fun x => q' x.1 x.2 := by
  intro data x h
  obtain ⟨⟨a, mid⟩, ha, hx⟩ := bind_eq_ok.mp h
  exact bind_eq_ok.mpr ⟨_, hp _ _ ha, hq a _ _ hx⟩

/-- Two codes at the front of one input are one code. -/
theorem Reads.unique (h : Reads p code a) (h' : Reads p code' a')
    (heq : code ++ rest = code' ++ rest') : a = a' ∧ code = code' ∧ rest = rest' := by
  have h1 := h rest
  rw [heq, h' rest'] at h1
  obtain ⟨rfl, rfl⟩ := Prod.mk.inj (Except.ok.inj h1)
  exact ⟨rfl, List.append_cancel_right heq, rfl⟩

theorem Reads.eq_of_code (h : Reads p code a) (h' : Reads p code a') : a = a' := by
  have heq : code ++ [] = code ++ [] := rfl
  exact (h.unique h' heq).1

/-- No code is a proper prefix of another. -/
theorem Reads.eq_nil (h : Reads p code a) (h' : Reads p (code ++ more) a') : more = [] := by
  have heq : code ++ more = (code ++ more) ++ [] := (List.append_nil _).symm
  exact (h.unique h' heq).2.2

end PrefixReader
