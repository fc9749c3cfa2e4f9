import OpenVC.Logic.PrefixReader
import OpenVC.Python.Raises

/-!
# Texts framed into items

A text is a concatenation of the codes of its items. A reader that takes exactly the codes of its
items, repeated until the text is used up, reads the items of the text: it returns a list iff the
text is a concatenation of codes of it.
-/

namespace PrefixReader

open Python

variable {ε : Type} {α β : Type}

/-- What the reader takes is a code of what it returns, and it takes every code. -/
def Exact (p : List β → Except ε (α × List β)) (IsCode : α → List β → Prop) : Prop :=
  ∀ data a rest, p data = .ok (a, rest) ↔ ∃ code, IsCode a code ∧ data = code ++ rest

/-- A text is the codes of the items, one after another. -/
def Framed (IsCode : α → List β → Prop) (items : List α) (data : List β) : Prop :=
  ∃ codes, List.Forall₂ IsCode items codes ∧ codes.flatten = data

/-- A loop that repeats the reader, at most so many times, until the text is used up. -/
structure Repeats (p : List β → Except ε (α × List β)) (loop : Nat → List β → Except ε (List α)) :
    Prop where
  nil : ∀ n, loop n [] = .ok []
  full : ∀ b t, ∃ e, loop 0 (b :: t) = .error e
  more : ∀ n b t, loop (n + 1) (b :: t) =
    p (b :: t) >>= fun x => loop n x.2 >>= fun items => .ok (x.1 :: items)

variable {γ : Type} {p : List β → Except ε (α × List β)} {IsCode : α → List β → Prop}
  {loop : Nat → List β → Except ε (List α)} {data : List β}

/-- One reader after the other. -/
theorem Exact.bind {q : α → List β → Except ε (γ × List β)} {IsCode' : α → γ → List β → Prop}
    (hp : Exact p IsCode) (hq : ∀ a, Exact (q a) (IsCode' a)) :
    Exact (fun data => p data >>= fun x => q x.1 x.2) fun c code =>
      ∃ a code₁ code₂, IsCode a code₁ ∧ IsCode' a c code₂ ∧ code = code₁ ++ code₂ := by
  intro data c rest
  simp only [bind_eq_ok]
  constructor
  · rintro ⟨⟨a, mid⟩, ha, hc⟩
    obtain ⟨code₁, h₁, rfl⟩ := (hp _ a mid).mp ha
    obtain ⟨code₂, h₂, rfl⟩ := (hq a _ c rest).mp hc
    exact ⟨_, ⟨a, code₁, code₂, h₁, h₂, rfl⟩, (List.append_assoc _ _ _).symm⟩
  · rintro ⟨code, ⟨a, code₁, code₂, h₁, h₂, rfl⟩, rfl⟩
    rw [List.append_assoc]
    exact ⟨(a, code₂ ++ rest), (hp _ a _).mpr ⟨code₁, h₁, rfl⟩, (hq a _ c rest).mpr ⟨code₂, h₂, rfl⟩⟩

theorem framed_nil_iff : Framed IsCode [] data ↔ data = [] := by
  constructor
  · rintro ⟨codes, hcodes, rfl⟩
    rw [List.forall₂_nil_left_iff.mp hcodes]
    rfl
  · rintro rfl
    exact ⟨[], .nil, rfl⟩

theorem framed_cons_iff {a : α} {items : List α} : Framed IsCode (a :: items) data ↔
    ∃ code rest, IsCode a code ∧ Framed IsCode items rest ∧ data = code ++ rest := by
  constructor
  · rintro ⟨codes, hcodes, rfl⟩
    obtain ⟨code, codes, hcode, hrest, rfl⟩ := List.forall₂_cons_left_iff.mp hcodes
    exact ⟨code, codes.flatten, hcode, ⟨codes, hrest, rfl⟩, rfl⟩
  · rintro ⟨code, rest, hcode, ⟨codes, hrest, rfl⟩, rfl⟩
    exact ⟨code :: codes, .cons hcode hrest, rfl⟩

/-- The items of a text are read back, and nothing else is. -/
theorem Repeats.eq_ok_iff (h : Repeats p loop) (hp : Exact p IsCode)
    (hne : ∀ a code, IsCode a code → code ≠ []) {n : Nat} {items : List α} :
    loop n data = .ok items ↔ items.length ≤ n ∧ Framed IsCode items data := by
  induction n generalizing data items with
  | zero =>
    cases data with
    | nil =>
      rw [h.nil]
      constructor
      · rintro ⟨⟩
        exact ⟨Nat.le_refl 0, framed_nil_iff.mpr rfl⟩
      · rintro ⟨hlen, -⟩
        rw [List.length_eq_zero_iff.mp (Nat.le_zero.mp hlen)]
    | cons b t =>
      obtain ⟨e, he⟩ := h.full b t
      rw [he]
      refine iff_of_false (fun hok => nomatch hok) ?_
      rintro ⟨hlen, hframed⟩
      rw [List.length_eq_zero_iff.mp (Nat.le_zero.mp hlen), framed_nil_iff] at hframed
      cases hframed
  | succ n ih =>
    cases data with
    | nil =>
      rw [h.nil]
      constructor
      · rintro ⟨⟩
        exact ⟨Nat.zero_le _, framed_nil_iff.mpr rfl⟩
      · rintro ⟨-, hframed⟩
        cases items with
        | nil => rfl
        | cons a items =>
          obtain ⟨code, rest, hcode, -, heq⟩ := framed_cons_iff.mp hframed
          exact absurd (List.append_eq_nil_iff.mp heq.symm).1 (hne a code hcode)
    | cons b t =>
      rw [h.more]
      simp only [bind_eq_ok]
      constructor
      · rintro ⟨⟨a, rest⟩, hread, items', hloop, heq⟩
        cases heq
        obtain ⟨code, hcode, hdata⟩ := (hp _ a rest).mp hread
        obtain ⟨hlen, hframed⟩ := ih.mp hloop
        exact ⟨Nat.succ_le_succ hlen, framed_cons_iff.mpr ⟨code, rest, hcode, hframed, hdata⟩⟩
      · rintro ⟨hlen, hframed⟩
        cases items with
        | nil => cases framed_nil_iff.mp hframed
        | cons a items =>
          obtain ⟨code, rest, hcode, hrest, hdata⟩ := framed_cons_iff.mp hframed
          exact ⟨(a, rest), (hp _ a rest).mpr ⟨code, hcode, hdata⟩, items,
            ih.mpr ⟨Nat.le_of_succ_le_succ hlen, hrest⟩, rfl⟩

/-- A loop raises what the reader raises, and what it raises when it may not go on. -/
theorem Repeats.raisesOnly {P : ε → Prop} (h : Repeats p loop)
    (hfull : ∀ b t, RaisesOnly P (loop 0 (b :: t))) (hp : ∀ data, RaisesOnly P (p data)) (n : Nat) :
    RaisesOnly P (loop n data) := by
  induction n generalizing data with
  | zero =>
    cases data with
    | nil =>
      rw [h.nil]
      exact raisesOnly_ok
    | cons b t => exact hfull b t
  | succ n ih =>
    cases data with
    | nil =>
      rw [h.nil]
      exact raisesOnly_ok
    | cons b t =>
      rw [h.more]
      refine (hp (b :: t)).bind fun x _ => ?_
      exact ih.bind fun items _ => raisesOnly_ok

end PrefixReader
