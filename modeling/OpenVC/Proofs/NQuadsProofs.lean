import OpenVC.NQuads
import Mathlib.Data.List.Infix

/-!
# A line of N-Quads has one reading

The text of a line determines the line: each part of it ends where the grammar says, so that two lines
with one text agree part by part.
-/

namespace OpenVC.NQuads

open Python

/-! ## Where a part ends -/

/-- The text does not go on with a character of that kind. -/
def Stops (p : Nat → Bool) (r : Str) : Prop := ∀ c ∈ r.head?, p c = false

theorem stops_cons {p : Nat → Bool} {c : Nat} {r : Str} (h : p c = false) : Stops p (c :: r) := by
  intro d hd
  cases hd
  exact h

theorem stops_append {p : Nat → Bool} {x r : Str} (hx : ∀ c ∈ x, p c = false) (hr : Stops p r) :
    Stops p (x ++ r) := by
  cases x with
  | nil => exact hr
  | cons c x => exact stops_cons (hx c List.mem_cons_self)

theorem takeWhile_append_stops {p : Nat → Bool} {x r : Str} (hx : x.all p = true) (hr : Stops p r) :
    (x ++ r).takeWhile p = x := by
  rw [List.takeWhile_append_of_pos (List.all_eq_true.mp hx)]
  cases r with
  | nil => simp
  | cons c r =>
    rw [List.takeWhile_cons, hr c rfl]
    simp

theorem run_append_inj {p : Nat → Bool} {x x' r r' : Str} (hx : x.all p = true) (hx' : x'.all p = true)
    (hr : Stops p r) (hr' : Stops p r') (h : x ++ r = x' ++ r') : x = x' ∧ r = r' := by
  have heq : x = x' := by
    rw [← takeWhile_append_stops hx hr, h, takeWhile_append_stops hx' hr']
  subst heq
  exact ⟨rfl, List.append_cancel_left h⟩

/-! ## The kinds of characters -/

theorem isInner_of_isPnCharsU {c : Nat} (h : isPnCharsU c = true) : isInner c = true := by
  simp [isInner, isPnChars, h]

theorem isInner_of_isDigit {c : Nat} (h : Str.isDigit c = true) : isInner c = true := by
  simp [isInner, isPnChars, h]

theorem isBlank_iff {c : Nat} : isBlank c = true ↔ c = 32 ∨ c = 9 := by
  simp [isBlank]

theorem not_isInner_of_isBlank {c : Nat} (h : isBlank c = true) : isInner c = false := by
  rcases isBlank_iff.mp h with rfl | rfl <;> decide

theorem Gap.not_isInner (g : Gap) : ∀ c ∈ g.value, isInner c = false := fun c hc =>
  not_isInner_of_isBlank (List.all_eq_true.mp g.ok c hc)

theorem gap_append_inj {g g' : Gap} {r r' : Str} (hr : Stops isBlank r) (hr' : Stops isBlank r')
    (h : g.value ++ r = g'.value ++ r') : g = g' ∧ r = r' := by
  obtain ⟨hvalue, hrest⟩ := run_append_inj g.ok g'.ok hr hr' h
  exact ⟨Gap.ext hvalue, hrest⟩

/-! ## Labels -/

theorem all_isInner_of_isLabelText {s : Str} (h : isLabelText s = true) : s.all isInner = true := by
  cases s with
  | nil => cases h
  | cons c r =>
    simp only [isLabelText, Bool.and_eq_true, Bool.or_eq_true] at h
    obtain ⟨⟨hc, hr⟩, -⟩ := h
    rw [List.all_cons, hr, Bool.and_true]
    rcases hc with hc | hc
    · exact isInner_of_isPnCharsU hc
    · exact isInner_of_isDigit hc

theorem getLast?_of_isLabelText {s : Str} (h : isLabelText s = true) : s.getLast? ≠ some 46 := by
  cases s with
  | nil => cases h
  | cons c r =>
    simp only [isLabelText, Bool.and_eq_true, bne_iff_ne] at h
    exact h.2

/-- The text does not go on with a label: a full stop in it is the end of the line. -/
def EndsLabel (r : Str) : Prop := Stops isInner r ∨ ∃ t, r = 46 :: t ∧ Stops isInner t

theorem eq_nil_of_label_append {l u r r' : Str} (h : isLabelText (l ++ u) = true) (hr : EndsLabel r)
    (hru : r = u ++ r') : u = [] := by
  by_contra hu
  have hinner : ∀ c ∈ u, isInner c = true := fun c hc =>
    List.all_eq_true.mp (all_isInner_of_isLabelText h) c (List.mem_append_right _ hc)
  have hlast : u.getLast? ≠ some 46 := by
    have := getLast?_of_isLabelText h
    rwa [List.getLast?_append_of_ne_nil _ hu] at this
  obtain ⟨c, u, rfl⟩ := List.exists_cons_of_ne_nil hu
  rcases hr with hr | ⟨t, rfl, ht⟩
  · have := hr c (by rw [hru]; rfl)
    rw [hinner c List.mem_cons_self] at this
    cases this
  · rw [List.cons_append] at hru
    obtain ⟨rfl, hu'⟩ := List.cons.inj hru
    cases u with
    | nil => exact hlast rfl
    | cons d u =>
      have := ht d (by rw [hu']; rfl)
      rw [hinner d (List.mem_cons_of_mem _ List.mem_cons_self)] at this
      cases this

theorem label_append_inj {l l' r r' : Str} (hl : isLabelText l = true) (hl' : isLabelText l' = true)
    (hr : EndsLabel r) (hr' : EndsLabel r') (h : l ++ r = l' ++ r') : l = l' ∧ r = r' := by
  rcases List.append_eq_append_iff.mp h with ⟨u, rfl, hru⟩ | ⟨u, rfl, hru⟩
  · have hu := eq_nil_of_label_append hl' hr hru
    subst hu
    exact ⟨(List.append_nil l).symm, by simpa using hru⟩
  · have hu := eq_nil_of_label_append hl hr' hru
    subst hu
    exact ⟨List.append_nil l', by simpa using hru.symm⟩

theorem blank_append_inj {b b' : BlankNode} {r r' : Str} (hr : EndsLabel r) (hr' : EndsLabel r')
    (h : b.text ++ r = b'.text ++ r') : b = b' ∧ r = r' := by
  have hlabel : b.label ++ r = b'.label ++ r' := (List.cons.inj (List.cons.inj h).2).2
  obtain ⟨heq, hrest⟩ := label_append_inj b.ok b'.ok hr hr' hlabel
  exact ⟨BlankNode.ext heq, hrest⟩

/-! ## IRIs and literals -/

theorem isHex_ne {a : Nat} (h : isHex a = true) : a ≠ 62 := by
  rintro rfl
  revert h
  decide

theorem not_mem_of_isIriText {s : Str} (h : isIriText s = true) : 62 ∉ s := by
  induction s using isIriText.induct with
  | case1 => exact List.not_mem_nil
  | case2 a b c d r ih =>
    rw [isIriText, Bool.and_eq_true] at h
    obtain ⟨hhex, hr⟩ := h
    rw [List.all_eq_true] at hhex
    intro hmem
    rcases List.mem_cons.mp hmem with hmem | hmem
    · cases hmem
    rcases List.mem_cons.mp hmem with hmem | hmem
    · cases hmem
    have hsplit : 62 ∈ [a, b, c, d] ++ r := hmem
    rcases List.mem_append.mp hsplit with hmem | hmem
    · exact isHex_ne (hhex 62 hmem) rfl
    · exact ih hr hmem
  | case3 a b c d e f g h' r ih =>
    rw [isIriText, Bool.and_eq_true] at h
    obtain ⟨hhex, hr⟩ := h
    rw [List.all_eq_true] at hhex
    intro hmem
    rcases List.mem_cons.mp hmem with hmem | hmem
    · cases hmem
    rcases List.mem_cons.mp hmem with hmem | hmem
    · cases hmem
    have hsplit : 62 ∈ [a, b, c, d, e, f, g, h'] ++ r := hmem
    rcases List.mem_append.mp hsplit with hmem | hmem
    · exact isHex_ne (hhex 62 hmem) rfl
    · exact ih hr hmem
  | case4 c r h₁ h₂ ih =>
    rw [isIriText, Bool.and_eq_true] at h
    · obtain ⟨hc, hr⟩ := h
      intro hmem
      rcases List.mem_cons.mp hmem with rfl | hmem
      · revert hc
        decide
      · exact ih hr hmem
    · exact h₁
    · exact h₂

theorem iri_append_inj {i i' : Iri} {r r' : Str} (h : i.text ++ r = i'.text ++ r') : i = i' ∧ r = r' := by
  have hvalue : i.value ++ 62 :: r = i'.value ++ 62 :: r' := by
    simpa [Iri.text] using h
  have hall : ∀ i : Iri, i.value.all (· != 62) = true := by
    intro i
    rw [List.all_eq_true]
    rintro c hc
    rw [bne_iff_ne]
    rintro rfl
    exact not_mem_of_isIriText i.ok hc
  obtain ⟨heq, hrest⟩ :=
    run_append_inj (hall i) (hall i') (stops_cons (by decide)) (stops_cons (by decide)) hvalue
  exact ⟨Iri.ext heq, (List.cons.inj hrest).2⟩

/-- Every quote in the text is escaped, and every backslash escapes a character. -/
def isEscaped : Str → Bool
  | [] => true
  | [92] => false
  | 92 :: _ :: r => isEscaped r
  | c :: r => c != 34 && isEscaped r

theorem isEscaped_cons {c : Nat} (h : c ≠ 92) (r : Str) :
    isEscaped (c :: r) = (c != 34 && isEscaped r) := by
  rw [isEscaped]
  · rintro rfl
    exact absurd rfl h
  · rintro d t rfl
    exact absurd rfl h

theorem isEscaped_hex {x : Str} (h : x.all isHex = true) (r : Str) :
    isEscaped (x ++ r) = isEscaped r := by
  induction x with
  | nil => rfl
  | cons c x ih =>
    rw [List.all_cons, Bool.and_eq_true] at h
    have hc : c ≠ 92 ∧ c ≠ 34 := by
      constructor <;> rintro rfl <;> exact absurd h.1 (by decide)
    rw [List.cons_append, isEscaped_cons hc.1, ih h.2, bne_iff_ne.mpr hc.2, Bool.true_and]

theorem isEscaped_of_isQuotedText {s : Str} (h : isQuotedText s = true) : isEscaped s = true := by
  induction s using isQuotedText.induct with
  | case1 => rfl
  | case2 a b c d r ih =>
    rw [isQuotedText, Bool.and_eq_true] at h
    exact (isEscaped_hex h.1 r).trans (ih h.2)
  | case3 a b c d e f g h' r ih =>
    rw [isQuotedText, Bool.and_eq_true] at h
    exact (isEscaped_hex h.1 r).trans (ih h.2)
  | case4 c r h₁ h₂ ih =>
    rw [isQuotedText, Bool.and_eq_true] at h
    · exact ih h.2
    · exact h₁
    · exact h₂
  | case5 c r h₁ h₂ h₃ ih =>
    rw [isQuotedText, Bool.and_eq_true] at h
    · obtain ⟨hc, hr⟩ := h
      have hc : c ≠ 92 ∧ c ≠ 34 := by
        constructor <;> rintro rfl <;> exact absurd hc (by decide)
      rw [isEscaped_cons hc.1, bne_iff_ne.mpr hc.2, ih hr]
      rfl
    · exact h₁
    · exact h₂
    · exact h₃

theorem quoted_append_inj {x x' r r' : Str} (hx : isEscaped x = true) (hx' : isEscaped x' = true)
    (h : x ++ 34 :: r = x' ++ 34 :: r') : x = x' ∧ r = r' := by
  induction x using isEscaped.induct generalizing x' with
  | case1 =>
    cases x' with
    | nil => exact ⟨rfl, (List.cons.inj h).2⟩
    | cons c x' =>
      obtain ⟨rfl, -⟩ := List.cons.inj h
      rw [isEscaped_cons (by decide)] at hx'
      cases hx'
  | case2 => cases hx
  | case3 d x ih =>
    cases x' with
    | nil => cases (List.cons.inj h).1
    | cons c x' =>
      simp only [List.cons_append, List.cons.injEq] at h
      obtain ⟨rfl, h⟩ := h
      cases x' with
      | nil => cases hx'
      | cons d' x' =>
        simp only [List.cons_append, List.cons.injEq] at h
        obtain ⟨rfl, h⟩ := h
        have hrest : isEscaped x' = true := hx'
        obtain ⟨rfl, hr⟩ := ih hx hrest h
        exact ⟨rfl, hr⟩
  | case4 c x h₁ h₂ ih =>
    have hc : c ≠ 92 := by
      rintro rfl
      cases x with
      | nil => exact h₁ rfl rfl
      | cons d x => exact h₂ d x rfl rfl
    rw [isEscaped_cons hc, Bool.and_eq_true, bne_iff_ne] at hx
    cases x' with
    | nil =>
      obtain ⟨rfl, -⟩ := List.cons.inj h
      exact absurd rfl hx.1
    | cons c' x' =>
      simp only [List.cons_append, List.cons.injEq] at h
      obtain ⟨rfl, h⟩ := h
      rw [isEscaped_cons hc, Bool.and_eq_true] at hx'
      obtain ⟨rfl, hr⟩ := ih hx.2 hx'.2 h
      exact ⟨rfl, hr⟩

/-- A character of a language tag. -/
def isLanguageChar (c : Nat) : Bool := isLetter c || Str.isDigit c || c == 45

theorem mem_of_splitOn {P : Nat → Prop} {d : Nat} {s : Str}
    (h : ∀ part ∈ s.splitOn d, ∀ c ∈ part, P c) : ∀ c ∈ s, c = d ∨ P c := by
  induction s with
  | nil => exact fun c hc => absurd hc List.not_mem_nil
  | cons a s ih =>
    rw [List.splitOn, List.splitOnP_cons_eq_if_modifyHead] at h
    by_cases ha : (a == d) = true
    · rw [if_pos ha] at h
      intro c hc
      rcases List.mem_cons.mp hc with rfl | hc
      · exact .inl (by simpa using ha)
      · exact ih (fun part hpart => h part (List.mem_cons_of_mem _ hpart)) c hc
    · rw [if_neg ha] at h
      obtain ⟨part, parts, hparts⟩ := List.exists_cons_of_ne_nil (List.splitOnP_ne_nil (· == d) s)
      rw [hparts, List.modifyHead_cons] at h
      have hrest : ∀ q ∈ s.splitOn d, ∀ c ∈ q, P c := by
        intro q hq c hc
        rw [List.splitOn, hparts] at hq
        rcases List.mem_cons.mp hq with rfl | hq
        · exact h _ List.mem_cons_self c (List.mem_cons_of_mem _ hc)
        · exact h q (List.mem_cons_of_mem _ hq) c hc
      intro c hc
      rcases List.mem_cons.mp hc with rfl | hc
      · exact .inr (h _ List.mem_cons_self c List.mem_cons_self)
      · exact ih hrest c hc

theorem all_of_isLanguage {s : Str} (h : isLanguage s = true) : s.all isLanguageChar = true := by
  have hparts : ∀ part ∈ s.splitOn 45, ∀ c ∈ part, isLanguageChar c = true := by
    unfold isLanguage at h
    split at h
    · rename_i first rest hsplit
      rw [Str.split] at hsplit
      rw [hsplit]
      simp only [Bool.and_eq_true, List.all_eq_true] at h
      obtain ⟨⟨-, hfirst⟩, hrest⟩ := h
      intro part hpart c hc
      rcases List.mem_cons.mp hpart with rfl | hpart
      · rw [isLanguageChar, hfirst c hc, Bool.true_or, Bool.true_or]
      · rw [isLanguageChar, (hrest part hpart).2 c hc, Bool.true_or]
    · cases h
  rw [List.all_eq_true]
  intro c hc
  rcases mem_of_splitOn hparts c hc with rfl | hc
  · rfl
  · exact hc

/-- What follows a literal: nothing of a tag. -/
structure EndsTag (r : Str) : Prop where
  noTag : Stops (fun c => c == 64 || c == 94) r
  noChar : Stops isLanguageChar r

theorem tag_append_inj {t t' : Tag} {r r' : Str} (hr : EndsTag r) (hr' : EndsTag r')
    (h : t.text ++ r = t'.text ++ r') : t = t' ∧ r = r' := by
  have hhead : ∀ {c : Nat} {x y : Str}, (c == 64 || c == 94) = true → EndsTag y → y = c :: x → False := by
    rintro c x y hc hy rfl
    exact absurd hc (Bool.eq_false_iff.mp (hy.noTag c rfl))
  cases t with
  | none =>
    cases t' with
    | none => exact ⟨rfl, h⟩
    | language v' ok' => exact (hhead (by decide) hr h).elim
    | datatype i' => exact (hhead (by decide) hr h).elim
  | language v ok =>
    cases t' with
    | none => exact (hhead (by decide) hr' h.symm).elim
    | language v' ok' =>
      obtain ⟨rfl, hrest⟩ := run_append_inj (all_of_isLanguage ok) (all_of_isLanguage ok') hr.noChar
        hr'.noChar (List.cons.inj h).2
      exact ⟨rfl, hrest⟩
    | datatype i' => cases (List.cons.inj h).1
  | datatype i =>
    cases t' with
    | none => exact (hhead (by decide) hr' h.symm).elim
    | language v' ok' => cases (List.cons.inj h).1
    | datatype i' =>
      obtain ⟨rfl, hrest⟩ := iri_append_inj (List.cons.inj (List.cons.inj h).2).2
      exact ⟨rfl, hrest⟩

theorem literal_append_inj {l l' : Literal} {r r' : Str} (hr : EndsTag r) (hr' : EndsTag r')
    (h : l.text ++ r = l'.text ++ r') : l = l' ∧ r = r' := by
  obtain ⟨v, ok, t⟩ := l
  obtain ⟨v', ok', t'⟩ := l'
  have hquoted : v ++ 34 :: (t.text ++ r) = v' ++ 34 :: (t'.text ++ r') := by
    simpa [Literal.text] using h
  obtain ⟨rfl, htag⟩ := quoted_append_inj (isEscaped_of_isQuotedText ok) (isEscaped_of_isQuotedText ok')
    hquoted
  obtain ⟨rfl, hrest⟩ := tag_append_inj hr hr' htag
  exact ⟨rfl, hrest⟩

/-! ## Terms and lines -/

/-- What follows a term. -/
structure EndsTerm (t : Term) (r : Str) : Prop where
  label : t.isBlank = true → EndsLabel r
  tag : t.isLiteral = true → EndsTag r

theorem term_append_inj {t t' : Term} {r r' : Str} (hr : EndsTerm t r) (hr' : EndsTerm t' r')
    (h : t.text ++ r = t'.text ++ r') : t = t' ∧ r = r' := by
  cases t with
  | iri i =>
    cases t' with
    | iri i' =>
      obtain ⟨rfl, hrest⟩ := iri_append_inj h
      exact ⟨rfl, hrest⟩
    | blank b' => cases (List.cons.inj h).1
    | literal l' => cases (List.cons.inj h).1
  | blank b =>
    cases t' with
    | iri i' => cases (List.cons.inj h).1
    | blank b' =>
      obtain ⟨rfl, hrest⟩ := blank_append_inj (hr.label rfl) (hr'.label rfl) h
      exact ⟨rfl, hrest⟩
    | literal l' => cases (List.cons.inj h).1
  | literal l =>
    cases t' with
    | iri i' => cases (List.cons.inj h).1
    | blank b' => cases (List.cons.inj h).1
    | literal l' =>
      obtain ⟨rfl, hrest⟩ := literal_append_inj (hr.tag rfl) (hr'.tag rfl) h
      exact ⟨rfl, hrest⟩

theorem Term.exists_text (t : Term) : ∃ c x, t.text = c :: x ∧ (c = 60 ∨ c = 95 ∨ c = 34) ∧
    (t.isBlank = false → c ≠ 95) ∧ (t.isLiteral = false → c ≠ 34) := by
  cases t with
  | iri i => exact ⟨60, _, rfl, .inl rfl, fun _ => by decide, fun _ => by decide⟩
  | blank b => exact ⟨95, _, rfl, .inr (.inl rfl), fun h => (by cases h), fun _ => by decide⟩
  | literal l => exact ⟨34, _, rfl, .inr (.inr rfl), fun _ => by decide, fun h => by cases h⟩

theorem stops_isBlank_term (t : Term) (r : Str) : Stops isBlank (t.text ++ r) := by
  obtain ⟨c, x, htext, hc, -⟩ := t.exists_text
  rw [htext]
  refine stops_cons ?_
  rcases hc with rfl | rfl | rfl <;> decide

theorem stops_isInner_gap (g : Gap) {r : Str} (hr : Stops isInner r) : Stops isInner (g.value ++ r) :=
  stops_append g.not_isInner hr

theorem Tail.stops_isInner (t : Tail) : Stops isInner t.value := by
  have hok := t.ok
  intro c hc
  cases hv : t.value with
  | nil =>
    rw [hv] at hc
    cases hc
  | cons d r =>
    rw [hv] at hc hok
    cases hc
    rw [isTail] at hok
    by_cases hblank : isBlank c = true
    · exact not_isInner_of_isBlank hblank
    · rw [List.dropWhile_cons, if_neg hblank] at hok
      simp only [Bool.and_eq_true, beq_iff_eq] at hok
      rw [hok.1]
      decide

theorem endsLabel_gap (g : Gap) (t : Tail) : EndsLabel (g.value ++ 46 :: t.value) := by
  cases hv : g.value with
  | nil => exact .inr ⟨t.value, rfl, t.stops_isInner⟩
  | cons c x =>
    refine .inl (stops_cons (g.not_isInner c ?_))
    rw [hv]
    exact List.mem_cons_self

theorem Line.endsTerm_subject (l : Line) (r : Str) :
    EndsTerm l.subject (l.gap₁.value ++ (l.predicate.text ++ r)) where
  label _ := .inl (stops_isInner_gap l.gap₁ (stops_cons (by decide)))
  tag h := by
    rw [l.noLiteral.1] at h
    cases h

theorem Line.endsTerm_object (l : Line) :
    EndsTerm l.object (l.gap₃.value ++ (graphText l.graph ++ 46 :: l.tail.value)) where
  label hblank := by
    cases hg : l.graph with
    | none => exact endsLabel_gap l.gap₃ l.tail
    | some g =>
      by_cases hgap : l.gap₃.value = []
      · have hnode : g.1.isBlank = false := by
          by_contra h
          exact l.apart hblank g hg (by simpa using h) hgap
        have hlit := l.noLiteral.2 g hg
        obtain ⟨c, x, htext, hc, hne, hne'⟩ := g.1.exists_text
        rw [hgap, List.nil_append, graphText, htext, List.cons_append, List.cons_append]
        refine .inl (stops_cons ?_)
        rcases hc with rfl | rfl | rfl
        · decide
        · exact absurd rfl (hne hnode)
        · exact absurd rfl (hne' hlit)
      · obtain ⟨c, x, hcx⟩ := List.exists_cons_of_ne_nil hgap
        rw [hcx]
        refine .inl (stops_cons (l.gap₃.not_isInner c ?_))
        rw [hcx]
        exact List.mem_cons_self
  tag _ := by
    have hhead : ∀ p : Nat → Bool, p 32 = false → p 9 = false → p 60 = false → p 95 = false →
        p 46 = false → Stops p (l.gap₃.value ++ (graphText l.graph ++ 46 :: l.tail.value)) := by
      intro p hspace htab hangle hunder hstop
      refine stops_append (fun c hc => ?_) ?_
      · rcases isBlank_iff.mp (List.all_eq_true.mp l.gap₃.ok c hc) with rfl | rfl
        · exact hspace
        · exact htab
      · cases hg : l.graph with
        | none => exact stops_cons hstop
        | some g =>
          obtain ⟨c, x, htext, hc, -, hne⟩ := g.1.exists_text
          rw [graphText, htext]
          refine stops_cons ?_
          rcases hc with rfl | rfl | rfl
          · exact hangle
          · exact hunder
          · exact absurd rfl (hne (l.noLiteral.2 g hg))
    exact ⟨hhead _ (by decide) (by decide) (by decide) (by decide) (by decide),
      hhead _ (by decide) (by decide) (by decide) (by decide) (by decide)⟩

theorem endsTerm_graph {t : Term} (h : t.isLiteral = false) (g : Gap) (tail : Tail) :
    EndsTerm t (g.value ++ 46 :: tail.value) where
  label _ := endsLabel_gap g tail
  tag h' := by
    rw [h] at h'
    cases h'

theorem stops_isBlank_graph (g : Option (Term × Gap)) (r : Str) :
    Stops isBlank (graphText g ++ 46 :: r) := by
  cases g with
  | none => exact stops_cons (by decide)
  | some g =>
    rw [graphText, List.append_assoc]
    exact stops_isBlank_term g.1 _

theorem graph_append_inj {g g' : Option (Term × Gap)} {t t' : Tail}
    (hg : ∀ x ∈ g, x.1.isLiteral = false) (hg' : ∀ x ∈ g', x.1.isLiteral = false)
    (h : graphText g ++ 46 :: t.value = graphText g' ++ 46 :: t'.value) : g = g' ∧ t = t' := by
  have hnot : ∀ {x : Term × Gap} {r r' : Str}, 46 :: r = graphText (some x) ++ r' → False := by
    intro x r r' h
    obtain ⟨c, y, htext, hc, -⟩ := x.1.exists_text
    rw [graphText, htext] at h
    rcases hc with rfl | rfl | rfl <;> cases (List.cons.inj h).1
  cases g with
  | none =>
    cases g' with
    | none => exact ⟨rfl, Tail.ext (List.cons.inj h).2⟩
    | some x' => exact (hnot h).elim
  | some x =>
    cases g' with
    | none => exact (hnot h.symm).elim
    | some x' =>
      obtain ⟨term, gap⟩ := x
      obtain ⟨term', gap'⟩ := x'
      simp only [graphText, List.append_assoc] at h
      obtain ⟨rfl, hrest⟩ := term_append_inj (endsTerm_graph (hg _ rfl) gap t)
        (endsTerm_graph (hg' _ rfl) gap' t') h
      obtain ⟨rfl, htail⟩ :=
        gap_append_inj (stops_cons (by decide)) (stops_cons (by decide)) hrest
      exact ⟨rfl, Tail.ext (List.cons.inj htail).2⟩

theorem text_injective {l l' : Line} (h : l.text = l'.text) : l = l' := by
  unfold Line.text at h
  obtain ⟨hlead, h⟩ := gap_append_inj (stops_isBlank_term _ _) (stops_isBlank_term _ _) h
  obtain ⟨hsubject, h⟩ := term_append_inj (l.endsTerm_subject _) (l'.endsTerm_subject _) h
  obtain ⟨hgap₁, h⟩ := gap_append_inj (stops_cons (by decide)) (stops_cons (by decide)) h
  obtain ⟨hpredicate, h⟩ := iri_append_inj h
  obtain ⟨hgap₂, h⟩ := gap_append_inj (stops_isBlank_term _ _) (stops_isBlank_term _ _) h
  obtain ⟨hobject, h⟩ := term_append_inj l.endsTerm_object l'.endsTerm_object h
  obtain ⟨hgap₃, h⟩ := gap_append_inj (stops_isBlank_graph _ _) (stops_isBlank_graph _ _) h
  obtain ⟨hgraph, htail⟩ := graph_append_inj l.noLiteral.2 l'.noLiteral.2 h
  exact Line.ext hlead hsubject hgap₁ hpredicate hgap₂ hobject hgap₃ hgraph htail

/-! ## Renaming -/

theorem Term.rename_injOn {f : BlankNode → BlankNode} {t t' : Term}
    (hf : ∀ b ∈ t.nodes, ∀ b' ∈ t'.nodes, f b = f b' → b = b') (h : t.rename f = t'.rename f) :
    t = t' := by
  cases t with
  | blank b =>
    cases t' with
    | blank b' => rw [hf b List.mem_cons_self b' List.mem_cons_self (Term.blank.inj h)]
    | _ => cases h
  | _ => cases t' <;> first | exact h | cases h

theorem Line.rename_injOn {f : BlankNode → BlankNode} {l l' : Line}
    (hf : ∀ b ∈ l.nodes, ∀ b' ∈ l'.nodes, f b = f b' → b = b') (h : l.rename f = l'.rename f) :
    l = l' := by
  have hsub : ∀ {l : Line} {t : Term}, t = l.subject ∨ t = l.object → ∀ b ∈ t.nodes, b ∈ l.nodes := by
    intro l t ht b hb
    unfold Line.nodes
    rcases ht with rfl | rfl <;> simp [hb]
  have hsubG : ∀ {l : Line} {g : Term × Gap}, g ∈ l.graph → ∀ b ∈ g.1.nodes, b ∈ l.nodes := by
    intro l g hg b hb
    unfold Line.nodes
    rw [Option.mem_def.mp hg]
    simp [hb]
  obtain ⟨hlead, hsubject, hgap₁, hpredicate, hgap₂, hobject, hgap₃, hgraph, htail⟩ :=
    Line.ext_iff.mp h
  refine Line.ext hlead ?_ hgap₁ hpredicate hgap₂ ?_ hgap₃ ?_ htail
  · exact Term.rename_injOn (fun b hb b' hb' => hf b (hsub (.inl rfl) b hb) b' (hsub (.inl rfl) b' hb'))
      hsubject
  · exact Term.rename_injOn (fun b hb b' hb' => hf b (hsub (.inr rfl) b hb) b' (hsub (.inr rfl) b' hb'))
      hobject
  · change l.graph.map _ = l'.graph.map _ at hgraph
    cases hg : l.graph with
    | none =>
      cases hg' : l'.graph with
      | none => rfl
      | some g' =>
        rw [hg, hg'] at hgraph
        cases hgraph
    | some g =>
      cases hg' : l'.graph with
      | none =>
        rw [hg, hg'] at hgraph
        cases hgraph
      | some g' =>
        rw [hg, hg'] at hgraph
        obtain ⟨hterm, hgap⟩ := Prod.mk.inj (Option.some.inj hgraph)
        have := Term.rename_injOn
          (fun b hb b' hb' => hf b (hsubG hg b hb) b' (hsubG hg' b' hb')) hterm
        rw [Prod.ext this hgap]

end OpenVC.NQuads
