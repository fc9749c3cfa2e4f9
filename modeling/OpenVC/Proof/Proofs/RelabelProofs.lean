import OpenVC.Proof.Relabel
import OpenVC.Proofs.NQuadsProofs

/-!
# What relabelling changes

`_relabel` renames the blank nodes of a line, and nothing else, exactly when the pattern finds them and
finds nothing else that the label map changes.
-/

namespace OpenVC.EcdsaSd

open Python NQuads

/-! ## Matches -/

theorem labelAt_eq_some {s l : Str} : labelAt s = some l ↔ ∃ c r, s = 95 :: 58 :: c :: r ∧
    isLabelStart c = true ∧ l = 95 :: 58 :: c :: r.takeWhile isLabelChar := by
  constructor
  · intro h
    unfold labelAt at h
    split at h
    · split at h
      · rename_i c r hc
        cases h
        exact ⟨c, r, rfl, hc, rfl⟩
      · cases h
    · cases h
  · rintro ⟨c, r, rfl, hc, rfl⟩
    simp [labelAt, hc]

theorem isLabelChar_of_isLabelStart {c : Nat} (h : isLabelStart c = true) : isLabelChar c = true := by
  simp [isLabelChar, h]

theorem isHit_iff {s : Str} : IsHit s ↔ ∃ c r, s = 95 :: 58 :: c :: r ∧ isLabelStart c = true ∧
    r.all isLabelChar = true := by
  unfold IsHit
  rw [labelAt_eq_some]
  constructor
  · rintro ⟨c, r, rfl, hc, h⟩
    refine ⟨c, r, rfl, hc, ?_⟩
    have : r.takeWhile isLabelChar = r := by simpa using h.symm
    rw [List.takeWhile_eq_self_iff] at this
    exact List.all_eq_true.mpr this
  · rintro ⟨c, r, rfl, hc, h⟩
    refine ⟨c, r, rfl, hc, ?_⟩
    rw [List.takeWhile_eq_self_iff.mpr (List.all_eq_true.mp h)]

theorem isHit_of_labelAt {s l : Str} (h : labelAt s = some l) : IsHit l := by
  obtain ⟨c, r, -, hc, rfl⟩ := labelAt_eq_some.mp h
  refine isHit_iff.mpr ⟨c, _, rfl, hc, ?_⟩
  rw [List.all_eq_true]
  exact fun d hd => List.mem_takeWhile_imp hd

theorem relabelLine_eq (m : LabelMap) (k : Nat) (s : Str) : relabelLine m.entries k s =
    (segments k s).flatMap fun
      | .char c => [c]
      | .hit h => m.label h := by
  induction s generalizing k with
  | nil => cases k <;> rfl
  | cons a t ih =>
    cases k with
    | succ k => exact ih k
    | zero =>
      unfold relabelLine segments
      cases h : labelAt (a :: t) with
      | none =>
        simp only [List.flatMap_cons]
        rw [ih 0]
        rfl
      | some label =>
        simp only [List.flatMap_cons]
        rw [ih (label.length - 1)]
        rfl

theorem segments_of_none {a : Nat} {t : Str} (h : labelAt (a :: t) = none) :
    segments 0 (a :: t) = .char a :: segments 0 t := by
  rw [segments, h]

theorem segments_of_some {a : Nat} {t l : Str} (h : labelAt (a :: t) = some l) :
    segments 0 (a :: t) = .hit l :: segments (l.length - 1) t := by
  rw [segments, h]

theorem append_of_labelAt {a : Nat} {t l : Str} (h : labelAt (a :: t) = some l) :
    a :: t = l ++ t.drop (l.length - 1) ∧ Stops isLabelChar (t.drop (l.length - 1)) := by
  obtain ⟨c, r, hs, -, rfl⟩ := labelAt_eq_some.mp h
  obtain ⟨rfl, rfl⟩ := List.cons.inj hs
  have hdrop : r.drop (r.takeWhile isLabelChar).length = r.dropWhile isLabelChar := by
    have h := @List.drop_left _ (r.takeWhile isLabelChar) (r.dropWhile isLabelChar)
    rwa [List.takeWhile_append_dropWhile] at h
  simp only [List.length_cons, Nat.add_sub_cancel, List.drop_succ_cons, hdrop]
  refine ⟨by simp, fun d hd => ?_⟩
  cases hrest : r.dropWhile isLabelChar with
  | nil =>
    rw [hrest] at hd
    cases hd
  | cons e y =>
    rw [hrest] at hd
    cases hd
    have := List.head_dropWhile_not isLabelChar (l := r) (by rw [hrest]; simp)
    simpa [hrest] using this

theorem flatMap_segments (k : Nat) (s : Str) : (segments k s).flatMap Segment.text = s.drop k := by
  induction s generalizing k with
  | nil => cases k <;> rfl
  | cons a t ih =>
    cases k with
    | succ k => exact ih k
    | zero =>
      cases h : labelAt (a :: t) with
      | none =>
        rw [segments_of_none h, List.flatMap_cons, ih 0]
        rfl
      | some label =>
        rw [segments_of_some h, List.flatMap_cons, ih (label.length - 1)]
        exact (append_of_labelAt h).1.symm

theorem segments_skip (x y : Str) : segments x.length (x ++ y) = segments 0 y := by
  induction x with
  | nil => rfl
  | cons a x ih => exact ih

/-! ## Cutting a text in two -/

/-- A match may have begun in the text that is not over at its end. -/
def IsOpen (x : Str) : Prop :=
  ∃ a b, x = a ++ 95 :: b ∧ (b = [] ∨ ∃ b', b = 58 :: b' ∧ b'.all isLabelChar = true)

theorem takeWhile_append_of_not_all {p : Nat → Bool} {x : Str} (y : Str) (h : x.all p = false) :
    (x ++ y).takeWhile p = x.takeWhile p := by
  induction x with
  | nil => cases h
  | cons a x ih =>
    rw [List.cons_append, List.takeWhile_cons, List.takeWhile_cons]
    by_cases ha : p a = true
    · rw [if_pos ha, if_pos ha, ih]
      rwa [List.all_cons, ha, Bool.true_and] at h
    · rw [if_neg ha, if_neg ha]

theorem takeWhile_append_of_stops {p : Nat → Bool} {x y : Str} (h : Stops p y) :
    (x ++ y).takeWhile p = x.takeWhile p := by
  by_cases hx : x.all p = true
  · rw [takeWhile_append_stops hx h, List.takeWhile_eq_self_iff.mpr (List.all_eq_true.mp hx)]
  · exact takeWhile_append_of_not_all y (Bool.eq_false_iff.mpr hx)

/-- When a match at its head sees no more of the longer text, the matches in the shorter one are those
of the longer. -/
theorem segments_append_of_labelAt {x y : Str}
    (h : ∀ z, z <:+ x → z ≠ [] → labelAt (z ++ y) = labelAt z) :
    ∀ k ≤ x.length, segments k (x ++ y) = segments k x ++ segments 0 y := by
  induction x with
  | nil =>
    intro k hk
    obtain rfl : k = 0 := by simpa using hk
    rfl
  | cons a x ih =>
    have hx := ih fun z hz hne => h z (hz.trans (List.suffix_cons a x)) hne
    intro k hk
    cases k with
    | succ k => exact hx k (by simpa using hk)
    | zero =>
      have hhead := h (a :: x) List.suffix_rfl (by simp)
      rw [List.cons_append] at hhead ⊢
      cases hl : labelAt (a :: x) with
      | none =>
        rw [segments_of_none (hhead.trans hl), segments_of_none hl, hx 0 (Nat.zero_le _)]
        rfl
      | some label =>
        rw [segments_of_some (hhead.trans hl), segments_of_some hl, hx, List.cons_append]
        obtain ⟨c, r, hs, -, rfl⟩ := labelAt_eq_some.mp hl
        obtain ⟨rfl, rfl⟩ := List.cons.inj hs
        have := (List.takeWhile_prefix isLabelChar (l := r)).length_le
        simp only [List.length_cons] at hk ⊢
        omega

theorem segments_append_of_not_isOpen {x : Str} (y : Str) (h : ¬ IsOpen x) :
    segments 0 (x ++ y) = segments 0 x ++ segments 0 y := by
  refine segments_append_of_labelAt (fun z hz hne => ?_) 0 (Nat.zero_le _)
  have hclosed : ¬ IsOpen z := by
    obtain ⟨u, rfl⟩ := hz
    rintro ⟨a, b, rfl, hb⟩
    exact h ⟨u ++ a, b, by rw [List.append_assoc], hb⟩
  obtain ⟨a, z, rfl⟩ := List.exists_cons_of_ne_nil hne
  by_cases ha : a = 95
  · subst ha
    cases z with
    | nil => exact absurd ⟨[], [], rfl, .inl rfl⟩ hclosed
    | cons b z =>
      by_cases hb : b = 58
      · subst hb
        cases z with
        | nil => exact absurd ⟨[], [58], rfl, .inr ⟨[], rfl, rfl⟩⟩ hclosed
        | cons c r =>
          simp only [List.cons_append, labelAt]
          by_cases hc : isLabelStart c = true
          · rw [if_pos hc, if_pos hc, takeWhile_append_of_not_all]
            by_contra hall
            refine hclosed ⟨[], 58 :: c :: r, rfl, .inr ⟨c :: r, rfl, ?_⟩⟩
            rw [List.all_cons, isLabelChar_of_isLabelStart hc, Bool.true_and]
            simpa using hall
          · rw [if_neg hc, if_neg hc]
      · simp [labelAt, hb]
  · simp [labelAt, ha]

/-- A character that goes on with a match. -/
def goesOn (c : Nat) : Bool := isLabelChar c || c == 58

theorem segments_append_of_stops (x : Str) {y : Str} (h : Stops goesOn y) :
    segments 0 (x ++ y) = segments 0 x ++ segments 0 y := by
  have hchar : Stops isLabelChar y := fun c hc => (Bool.or_eq_false_iff.mp (h c hc)).1
  refine segments_append_of_labelAt (fun z _ hne => ?_) 0 (Nat.zero_le _)
  obtain ⟨a, z, rfl⟩ := List.exists_cons_of_ne_nil hne
  by_cases ha : a = 95
  · subst ha
    cases z with
    | nil =>
      cases y with
      | nil => rfl
      | cons b y =>
        have hb : b ≠ 58 := by
          rintro rfl
          cases h 58 rfl
        simp [labelAt, hb]
    | cons b z =>
      by_cases hb : b = 58
      · subst hb
        cases z with
        | nil =>
          cases y with
          | nil => rfl
          | cons c y =>
            have hc : isLabelStart c = false := by
              by_contra hc
              have := isLabelChar_of_isLabelStart (Bool.not_eq_false _ ▸ hc)
              rw [hchar c rfl] at this
              cases this
            simp [labelAt, hc]
        | cons c r =>
          simp only [List.cons_append, labelAt]
          rw [takeWhile_append_of_stops hchar]
      · simp [labelAt, hb]
  · simp [labelAt, ha]

/-! ## Where no match goes on -/

theorem not_isOpen_of_getLast? {x : Str} (h : ∀ c ∈ x.getLast?, goesOn c = false) : ¬ IsOpen x := by
  rintro ⟨a, b, rfl, hb⟩
  have hlast : ∃ c ∈ (a ++ 95 :: b).getLast?, goesOn c = true := by
    rw [List.getLast?_append_of_ne_nil _ (by simp)]
    rcases hb with rfl | ⟨b', rfl, hb'⟩
    · exact ⟨95, rfl, by decide⟩
    · cases hb'' : b'.getLast? with
      | none =>
        rw [List.getLast?_eq_none_iff] at hb''
        subst hb''
        exact ⟨58, rfl, by decide⟩
      | some c =>
        have hc := List.mem_of_getLast? hb''
        refine ⟨c, ?_, ?_⟩
        · have hne : b' ≠ [] := List.ne_nil_of_mem hc
          rw [show 95 :: 58 :: b' = [95, 58] ++ b' from rfl, List.getLast?_append_of_ne_nil _ hne, hb'']
          rfl
        · rw [goesOn, List.all_eq_true.mp hb' c hc, Bool.true_or]
  obtain ⟨c, hc, hgoes⟩ := hlast
  rw [h c hc] at hgoes
  cases hgoes

theorem not_isOpen_snoc (x : Str) {c : Nat} (h : goesOn c = false) : ¬ IsOpen (x ++ [c]) := by
  refine not_isOpen_of_getLast? fun d hd => ?_
  rw [List.getLast?_concat] at hd
  cases hd
  exact h

theorem not_isOpen_append_gap {x : Str} (h : ¬ IsOpen x) (g : Gap) : ¬ IsOpen (x ++ g.value) := by
  rcases List.eq_nil_or_concat g.value with hg | ⟨u, c, hg⟩
  · rwa [hg, List.append_nil]
  · rw [List.concat_eq_append] at hg
    have hc : NQuads.isBlank c = true := List.all_eq_true.mp g.ok c (by rw [hg]; simp)
    rw [hg, ← List.append_assoc]
    refine not_isOpen_snoc _ ?_
    rcases isBlank_iff.mp hc with rfl | rfl <;> decide

theorem not_isOpen_nil : ¬ IsOpen [] := not_isOpen_of_getLast? fun c hc => by cases hc

theorem not_isOpen_gap (g : Gap) : ¬ IsOpen g.value := not_isOpen_append_gap not_isOpen_nil g

theorem not_isOpen_iri (x : Str) (i : Iri) : ¬ IsOpen (x ++ i.text) := by
  rw [Iri.text, ← List.append_assoc]
  exact not_isOpen_snoc _ (by decide)

/-- After a character that goes on with no match, and without an underscore since, no match is open. -/
theorem not_isOpen_append {x y : Str} {c : Nat} (hc : goesOn c = false) (hy : 95 ∉ y) :
    ¬ IsOpen (x ++ c :: y) := by
  rintro ⟨a, b, hab, hb⟩
  have hbc : c ∉ 95 :: b := by
    intro hmem
    have : goesOn c = true := by
      rcases List.mem_cons.mp hmem with rfl | hmem
      · decide
      · rcases hb with rfl | ⟨b', rfl, hb'⟩
        · cases hmem
        · rcases List.mem_cons.mp hmem with rfl | hmem
          · decide
          · rw [goesOn, List.all_eq_true.mp hb' c hmem, Bool.true_or]
    rw [hc] at this
    cases this
  rcases List.append_eq_append_iff.mp hab with ⟨u, rfl, hu⟩ | ⟨u, rfl, hu⟩
  · cases u with
    | nil =>
      obtain ⟨rfl, -⟩ := List.cons.inj hu
      exact hbc List.mem_cons_self
    | cons d u =>
      obtain ⟨-, rfl⟩ := List.cons.inj hu
      exact hy (by simp)
  · exact hbc (by rw [hu]; simp)

theorem not_isOpen_literal (l : Literal) : ¬ IsOpen l.text := by
  rw [Literal.text]
  cases htag : l.tag with
  | none =>
    rw [Tag.text]
    exact not_isOpen_snoc (34 :: l.value) (by decide)
  | language v ok =>
    have h95 : 95 ∉ v := fun hmem =>
      absurd (List.all_eq_true.mp (all_of_isLanguage ok) 95 hmem) (by decide)
    have h := not_isOpen_append (x := 34 :: l.value ++ [34]) (c := 64) (by decide) h95
    rwa [List.append_assoc] at h
  | datatype i =>
    have h := not_isOpen_iri (34 :: l.value ++ [34, 94, 94]) i
    rwa [List.append_assoc] at h

/-! ## The chunks of a line -/

@[simp] theorem text_other (t : Str) : (Chunk.other t).text = t := rfl

theorem text_chunkOf (t : Term) : (chunkOf t).text = t.text := by
  cases t with
  | blank b => exact List.append_nil _
  | _ => rfl

theorem text_endChunks (t : Term) (gap : Gap) (tail : Tail) :
    (endChunks t gap tail).flatMap Chunk.text = t.text ++ (gap.value ++ 46 :: tail.value) := by
  unfold endChunks
  cases t with
  | blank b =>
    simp only
    split
    · rename_i hgap
      rw [List.isEmpty_iff.mp hgap]
      simp [Chunk.text, Term.text]
    · simp [Chunk.text, Term.text]
  | _ => simp [Chunk.text, Term.text]

theorem text_chunks (l : Line) : (chunks l).flatMap Chunk.text = l.text := by
  unfold chunks Line.text
  cases l.graph with
  | none =>
    simp only [List.flatMap_cons, text_endChunks, text_chunkOf, text_other, graphText, List.nil_append,
      List.append_assoc]
  | some g =>
    simp only [List.flatMap_cons, text_endChunks, text_chunkOf, text_other, graphText,
      List.append_assoc]

/-- No match runs from one chunk into the next. -/
def Apart : List Chunk → Prop
  | [] => True
  | .other t :: cs => (¬ IsOpen t ∨ cs = []) ∧ Apart cs
  | .node _ _ :: cs => Stops goesOn (cs.flatMap Chunk.text) ∧ Apart cs

theorem segments_chunks {cs : List Chunk} (h : Apart cs) :
    segments 0 (cs.flatMap Chunk.text) = cs.flatMap fun c => segments 0 c.text := by
  induction cs with
  | nil => rfl
  | cons c cs ih =>
    rw [List.flatMap_cons, List.flatMap_cons]
    cases c with
    | other t =>
      rw [← ih h.2]
      rcases h.1 with hopen | rfl
      · exact segments_append_of_not_isOpen _ hopen
      · simp [segments]
    | node b stop =>
      rw [← ih h.2]
      exact segments_append_of_stops _ h.1

theorem isLetter_eq (c : Nat) : isLabelStart c = (isLetter c || Str.isDigit c || c == 95) := rfl

theorem isInner_of_goesOn {c : Nat} (h : goesOn c = true) : isInner c = true := by
  simp only [goesOn, isLabelChar, isLetter_eq, Bool.or_eq_true, beq_iff_eq] at h
  rcases h with ((((h | h) | rfl) | rfl) | rfl) | rfl
  · exact isInner_of_isPnCharsU (by simp [isPnCharsU, isPnCharsBase, h])
  · exact isInner_of_isDigit h
  all_goals decide

theorem stops_goesOn {r : Str} (h : Stops isInner r) : Stops goesOn r := by
  intro c hc
  by_contra hgoes
  have := isInner_of_goesOn (Bool.not_eq_false _ ▸ hgoes)
  rw [h c hc] at this
  cases this

theorem apart_chunkOf {t : Term} {cs : List Chunk} (hcs : Apart cs)
    (h : Stops goesOn (cs.flatMap Chunk.text)) : Apart (chunkOf t :: cs) := by
  cases t with
  | iri i => exact ⟨.inl (not_isOpen_iri [] i), hcs⟩
  | blank b => exact ⟨h, hcs⟩
  | literal l => exact ⟨.inl (not_isOpen_literal l), hcs⟩

theorem apart_endChunks (t : Term) (gap : Gap) (tail : Tail) : Apart (endChunks t gap tail) := by
  unfold endChunks
  cases t with
  | iri i => exact ⟨.inl (not_isOpen_iri [] i), .inr rfl, trivial⟩
  | literal l => exact ⟨.inl (not_isOpen_literal l), .inr rfl, trivial⟩
  | blank b =>
    simp only
    split
    · refine ⟨?_, .inr rfl, trivial⟩
      simpa using stops_goesOn tail.stops_isInner
    · rename_i hgap
      refine ⟨?_, .inr rfl, trivial⟩
      obtain ⟨c, x, hcx⟩ := List.exists_cons_of_ne_nil (mt List.isEmpty_iff.mpr hgap)
      have hc : isInner c = false := gap.not_isInner c (by rw [hcx]; exact List.mem_cons_self)
      rw [hcx]
      exact stops_goesOn (stops_cons hc)

theorem apart_chunks (l : Line) : Apart (chunks l) := by
  have hmiddle : ∀ cs, Stops goesOn
      ((Chunk.other (l.gap₁.value ++ (l.predicate.text ++ l.gap₂.value)) :: cs).flatMap Chunk.text) := by
    intro cs
    rw [List.flatMap_cons, text_other, List.append_assoc]
    exact stops_goesOn (stops_isInner_gap l.gap₁ (stops_cons (by decide)))
  have hpredicate : ¬ IsOpen (l.gap₁.value ++ (l.predicate.text ++ l.gap₂.value)) := by
    rw [← List.append_assoc]
    exact not_isOpen_append_gap (not_isOpen_iri _ _) l.gap₂
  unfold chunks
  refine ⟨.inl (not_isOpen_gap l.lead), apart_chunkOf ⟨.inl hpredicate, ?_⟩ (hmiddle _)⟩
  cases hg : l.graph with
  | none => exact apart_endChunks _ _ _
  | some g =>
    obtain ⟨graph, gap⟩ := g
    have hend := apart_endChunks graph gap l.tail
    cases hobject : l.object with
    | iri i => exact ⟨.inl (not_isOpen_iri [] i), .inl (not_isOpen_gap l.gap₃), hend⟩
    | literal x => exact ⟨.inl (not_isOpen_literal x), .inl (not_isOpen_gap l.gap₃), hend⟩
    | blank b =>
      refine ⟨?_, .inl (not_isOpen_gap l.gap₃), hend⟩
      have hlabel := (l.endsTerm_object).label (by rw [hobject]; rfl)
      rw [List.flatMap_cons, text_other, text_endChunks]
      rw [hg, graphText, List.append_assoc] at hlabel
      rcases hlabel with hstops | ⟨t, ht, -⟩
      · exact stops_goesOn hstops
      · exfalso
        cases hv : l.gap₃.value with
        | nil =>
          obtain ⟨c, x, htext, hc, -⟩ := graph.exists_text
          rw [hv, htext] at ht
          rcases hc with rfl | rfl | rfl <;> cases (List.cons.inj ht).1
        | cons c x =>
          have hc : isInner c = false := l.gap₃.not_isInner c (by rw [hv]; exact List.mem_cons_self)
          rw [hv] at ht
          obtain ⟨rfl, -⟩ := List.cons.inj ht
          revert hc
          decide

/-! ## Relabelling chunk by chunk -/

/-- A segment with its label replaced. -/
def Segment.replace (f : Str → Str) : Segment → Segment
  | .char c => .char c
  | .hit h => .hit (f h)

theorem relabelLine_segments (m : LabelMap) (s : Str) :
    relabelLine m.entries 0 s = ((segments 0 s).map (Segment.replace m.label)).flatMap Segment.text := by
  rw [relabelLine_eq, List.flatMap_map]
  refine List.flatMap_congr fun x _ => ?_
  cases x <;> rfl

/-- The chunk with its blank node renamed. -/
def Chunk.rename (f : BlankNode → BlankNode) : Chunk → Chunk
  | .other t => .other t
  | .node b stop => .node (f b) stop

theorem chunks_rename (f : BlankNode → BlankNode) (l : Line) :
    chunks (l.rename f) = (chunks l).map (Chunk.rename f) := by
  have hchunk : ∀ t : Term, chunkOf (t.rename f) = (chunkOf t).rename f := fun t => by cases t <;> rfl
  have hend : ∀ (t : Term) (gap : Gap) (tail : Tail),
      endChunks (t.rename f) gap tail = (endChunks t gap tail).map (Chunk.rename f) := by
    intro t gap tail
    cases t with
    | blank b =>
      simp only [endChunks, Term.rename]
      split <;> rfl
    | _ => rfl
  unfold chunks
  cases hg : l.graph with
  | none => simp [Line.rename, hg, hchunk, hend, Chunk.rename]
  | some g => simp [Line.rename, hg, hchunk, hend, Chunk.rename]

theorem lookup_entries (m : LabelMap) (b : BlankNode) :
    m.entries.lookup b.text = (List.lookup b m).map BlankNode.text := by
  induction m with
  | nil => rfl
  | cons e m ih =>
    obtain ⟨k, v⟩ := e
    rw [LabelMap.entries, List.map_cons, List.lookup_cons, List.lookup_cons]
    by_cases hk : b = k
    · subst hk
      simp
    · have htext : b.text ≠ k.text := fun h =>
        hk (BlankNode.ext (List.cons.inj (List.cons.inj h).2).2)
      rw [beq_false_of_ne hk, beq_false_of_ne htext]
      exact ih

theorem label_text (m : LabelMap) (b : BlankNode) : m.label b.text = (m.node b).text := by
  rw [LabelMap.label, LabelMap.node, lookup_entries]
  cases List.lookup b m <;> rfl

theorem map_eq_self_iff {α : Type} {f : α → α} {l : List α} : l.map f = l ↔ ∀ x ∈ l, f x = x := by
  conv_lhs => rhs; rw [← List.map_id l]
  exact List.map_inj_left

theorem map_replace_eq_self {m : LabelMap} {s : Str} :
    (segments 0 s).map (Segment.replace m.label) = segments 0 s ↔ Untouched m s := by
  rw [map_eq_self_iff]
  constructor
  · intro h x hx
    exact Segment.hit.inj (h _ hx)
  · intro h x hx
    cases x with
    | char c => rfl
    | hit l => exact congrArg Segment.hit (h l hx)

theorem segments_hit_append {x r : Str} (hx : IsHit x) (hr : Stops isLabelChar r) :
    segments 0 (x ++ r) = .hit x :: segments 0 r := by
  obtain ⟨c, w, rfl, hc, hw⟩ := isHit_iff.mp hx
  have hlabel : labelAt (95 :: 58 :: c :: (w ++ r)) = some (95 :: 58 :: c :: w) :=
    labelAt_eq_some.mpr ⟨c, w ++ r, rfl, hc, by rw [takeWhile_append_stops hw hr]⟩
  exact (segments_of_some hlabel).trans (congrArg _ (segments_skip (58 :: c :: w) r))

theorem segments_of_isHit {s : Str} (h : IsHit s) : segments 0 s = [.hit s] := by
  have := segments_hit_append h (r := []) fun c hc => by cases hc
  rwa [List.append_nil] at this

theorem Chunk.Found.relabel {m : LabelMap} {c : Chunk} (h : c.Found m) :
    ((segments 0 c.text).map (Segment.replace m.label)).flatMap Segment.text =
      (c.rename m.node).text := by
  cases c with
  | other t =>
    rw [text_other, map_replace_eq_self.mpr h, flatMap_segments]
    rfl
  | node b stop =>
    rcases h with ⟨rfl, hhit⟩ | ⟨hnode, huntouched⟩
    · have htext : (Chunk.node b false).text = b.text := List.append_nil _
      rw [htext, segments_of_isHit hhit]
      have := label_text m b
      simp [Segment.replace, Segment.text, Chunk.rename, Chunk.text, this]
    · rw [map_replace_eq_self.mpr huntouched, flatMap_segments, Chunk.rename, hnode]
      rfl

theorem relabelLine_of_found {m : LabelMap} {l : Line} (h : Found m l) :
    relabelLine m.entries 0 l.text = (l.rename m.node).text := by
  rw [relabelLine_segments, ← text_chunks l, segments_chunks (apart_chunks l), ← text_chunks,
    chunks_rename, List.map_flatMap, List.flatMap_assoc, List.flatMap_map]
  exact List.flatMap_congr fun c hc => (h c hc).relabel

/-! ## The converse -/

theorem text_hit_cons {f : Str → Str} (hf : ∀ h, IsHit h → IsHit (f h)) {l : Str} (hl : IsHit l)
    (σ : List Segment) : ∃ x, ((Segment.hit l :: σ).map (Segment.replace f)).flatMap Segment.text =
      95 :: x := by
  obtain ⟨c, r, hr, -⟩ := isHit_iff.mp (hf l hl)
  exact ⟨_, by rw [List.map_cons, List.flatMap_cons, Segment.replace, Segment.text, hr]; rfl⟩

theorem isHit_of_mem_segments {k : Nat} {s l : Str} (h : .hit l ∈ segments k s) : IsHit l := by
  induction s generalizing k with
  | nil => cases k <;> cases h
  | cons a t ih =>
    cases k with
    | succ k => exact ih h
    | zero =>
      cases hl : labelAt (a :: t) with
      | none =>
        rw [segments_of_none hl] at h
        rcases List.mem_cons.mp h with e | h
        · cases e
        · exact ih h
      | some label =>
        rw [segments_of_some hl] at h
        rcases List.mem_cons.mp h with e | h
        · cases e
          exact isHit_of_labelAt hl
        · exact ih h

/-- What begins with a match still does so when the match is another, or begins with none as before. -/
theorem head_replace {f : Str → Str} (hf : ∀ h, IsHit h → IsHit (f h)) {σ : List Segment}
    (hσ : ∀ l, .hit l ∈ σ → IsHit l) :
    ((σ.map (Segment.replace f)).flatMap Segment.text).head? = (σ.flatMap Segment.text).head? := by
  cases σ with
  | nil => rfl
  | cons x σ =>
    cases x with
    | char c => rfl
    | hit l =>
      have hl := hσ l List.mem_cons_self
      obtain ⟨y, hy⟩ := text_hit_cons hf hl σ
      obtain ⟨y', hy'⟩ := text_hit_cons (f := id) (fun h hh => hh) hl σ
      rw [hy]
      have hid : (Segment.hit l :: σ).map (Segment.replace id) = Segment.hit l :: σ := by
        rw [map_eq_self_iff]
        intro x _
        cases x <;> rfl
      rw [hid] at hy'
      rw [hy']
      rfl

/-- No match begins at a character where none did, after the matches that follow it are replaced. -/
theorem labelAt_char {f : Str → Str} (hf : ∀ h, IsHit h → IsHit (f h)) {a : Nat} {σ : List Segment}
    (hσ : ∀ l, .hit l ∈ σ → IsHit l) (h : labelAt (a :: σ.flatMap Segment.text) = none) :
    labelAt (a :: (σ.map (Segment.replace f)).flatMap Segment.text) = none := by
  by_contra hsome
  obtain ⟨label, hlabel⟩ := Option.ne_none_iff_exists'.mp hsome
  obtain ⟨c, r, hs, hc, -⟩ := labelAt_eq_some.mp hlabel
  obtain ⟨rfl, htext⟩ := List.cons.inj hs
  cases σ with
  | nil => cases htext
  | cons x σ =>
    cases x with
    | hit l =>
      obtain ⟨y, hy⟩ := text_hit_cons hf (hσ l List.mem_cons_self) σ
      rw [hy] at htext
      cases (List.cons.inj htext).1
    | char d =>
      obtain ⟨hd, hrest⟩ := List.cons.inj htext
      cases hd
      have hhead := head_replace hf (σ := σ) fun l hl => hσ l (List.mem_cons_of_mem _ hl)
      change ((σ.map (Segment.replace f)).flatMap Segment.text) = c :: r at hrest
      rw [hrest] at hhead
      obtain ⟨r', hr'⟩ : ∃ r', σ.flatMap Segment.text = c :: r' := by
        cases hσt : σ.flatMap Segment.text with
        | nil =>
          rw [hσt] at hhead
          cases hhead
        | cons e r' =>
          rw [hσt] at hhead
          cases hhead
          exact ⟨r', rfl⟩
      rw [List.flatMap_cons, hr'] at h
      have : labelAt (95 :: 58 :: c :: r') = none := h
      rw [labelAt_eq_some.mpr ⟨c, r', rfl, hc, rfl⟩] at this
      cases this

/-- With each match replaced by a label, the matches of the new text are the replaced ones. -/
theorem segments_replace {f : Str → Str} (hf : ∀ h, IsHit h → IsHit (f h)) (s : Str) (k : Nat) :
    segments 0 (((segments k s).map (Segment.replace f)).flatMap Segment.text) =
      (segments k s).map (Segment.replace f) := by
  induction s generalizing k with
  | nil => cases k <;> rfl
  | cons a t ih =>
    cases k with
    | succ k => exact ih k
    | zero =>
      cases hl : labelAt (a :: t) with
      | none =>
        have hchar : labelAt (a :: ((segments 0 t).map (Segment.replace f)).flatMap Segment.text) =
            none := by
          refine labelAt_char hf (fun l h => isHit_of_mem_segments h) ?_
          rw [flatMap_segments]
          exact hl
        rw [segments_of_none hl]
        exact (segments_of_none hchar).trans (congrArg _ (ih 0))
      | some label =>
        rw [segments_of_some hl]
        have hrest := ih (label.length - 1)
        have hstops : Stops isLabelChar
            (((segments (label.length - 1) t).map (Segment.replace f)).flatMap Segment.text) := by
          intro c hc
          rw [head_replace hf fun l h => isHit_of_mem_segments h, flatMap_segments] at hc
          exact (append_of_labelAt hl).2 c hc
        rw [List.map_cons, List.flatMap_cons]
        exact (segments_hit_append (hf _ (isHit_of_labelAt hl)) hstops).trans (congrArg _ hrest)

/-- Lists that agree as a whole agree part by part, when no part of the one is shorter than that of the
other. -/
theorem eq_of_flatMap_eq {α β : Type} {f g : α → List β} {l : List α}
    (hlen : ∀ x ∈ l, (g x).length ≤ (f x).length) (h : l.flatMap f = l.flatMap g) :
    ∀ x ∈ l, f x = g x := by
  induction l with
  | nil => exact fun x hx => absurd hx List.not_mem_nil
  | cons a l ih =>
    have hle : ∀ l' : List α, (∀ x ∈ l', (g x).length ≤ (f x).length) →
        (l'.flatMap g).length ≤ (l'.flatMap f).length := by
      intro l' hl'
      induction l' with
      | nil => exact Nat.le_refl _
      | cons b l' ih' =>
        have := hl' b List.mem_cons_self
        have := ih' fun x hx => hl' x (List.mem_cons_of_mem _ hx)
        simp only [List.flatMap_cons, List.length_append]
        omega
    have hrest := hle l fun x hx => hlen x (List.mem_cons_of_mem _ hx)
    have hhead := hlen a List.mem_cons_self
    have htotal := congrArg List.length h
    simp only [List.flatMap_cons, List.length_append] at h htotal
    obtain ⟨ha, hl⟩ := List.append_inj h (by omega)
    intro x hx
    rcases List.mem_cons.mp hx with rfl | hx
    · exact ha
    · exact ih (fun x hx => hlen x (List.mem_cons_of_mem _ hx)) hl x hx

/-- The labels of the map are ones that the pattern matches. -/
def LabelMap.Plain (m : LabelMap) : Prop := ∀ e ∈ m, IsHit e.2.text

theorem mem_of_lookup {α β : Type} [BEq α] [LawfulBEq α] {l : List (α × β)} {a : α} {b : β}
    (h : l.lookup a = some b) : (a, b) ∈ l := by
  induction l with
  | nil => cases h
  | cons p l ih =>
    obtain ⟨k, v⟩ := p
    rw [List.lookup_cons] at h
    split at h
    · rename_i hk
      cases h
      rw [eq_of_beq hk]
      exact List.mem_cons_self
    · exact List.mem_cons_of_mem _ (ih h)

theorem LabelMap.Plain.isHit_node {m : LabelMap} (hm : m.Plain) {b : BlankNode} (h : m.node b ≠ b) :
    IsHit (m.node b).text := by
  unfold LabelMap.node at *
  cases hb : List.lookup b m with
  | none =>
    rw [hb] at h
    exact absurd rfl h
  | some v => exact hm _ (mem_of_lookup hb)

theorem LabelMap.Plain.isHit_label {m : LabelMap} (hm : m.Plain) {h : Str} (hh : IsHit h) :
    IsHit (m.label h) := by
  unfold LabelMap.label
  cases hl : m.entries.lookup h with
  | none => exact hh
  | some v =>
    obtain ⟨e, he, hev⟩ := List.mem_map.mp (mem_of_lookup hl)
    obtain ⟨-, rfl⟩ := Prod.mk.inj hev
    exact hm e he

theorem label_stop (m : LabelMap) (b : BlankNode) : m.label (b.text ++ [46]) = b.text ++ [46] := by
  unfold LabelMap.label
  cases hl : m.entries.lookup (b.text ++ [46]) with
  | none => rfl
  | some v =>
    exfalso
    obtain ⟨e, -, hev⟩ := List.mem_map.mp (mem_of_lookup hl)
    obtain ⟨hkey, -⟩ := Prod.mk.inj hev
    have hlabel : e.1.label = b.label ++ [46] := (List.cons.inj (List.cons.inj hkey).2).2
    have := getLast?_of_isLabelText e.1.ok
    rw [hlabel, List.getLast?_concat] at this
    exact this rfl

theorem isHit_append_stop {s : Str} (h : IsHit s) : IsHit (s ++ [46]) := by
  obtain ⟨c, r, rfl, hc, hr⟩ := isHit_iff.mp h
  refine isHit_iff.mpr ⟨c, r ++ [46], rfl, hc, ?_⟩
  rw [List.all_append, hr]
  rfl

theorem segments_renamed {m : LabelMap} (hm : m.Plain) {b : BlankNode} (h : m.node b ≠ b)
    (stop : Bool) : segments 0 (Chunk.node (m.node b) stop).text =
      [.hit (Chunk.node (m.node b) stop).text] := by
  refine segments_of_isHit ?_
  have hhit := hm.isHit_node h
  cases stop with
  | false =>
    rw [Chunk.text]
    simpa using hhit
  | true => exact isHit_append_stop hhit

theorem length_segments_renamed {m : LabelMap} (hm : m.Plain) (c : Chunk) :
    (segments 0 (c.rename m.node).text).length ≤
      ((segments 0 c.text).map (Segment.replace m.label)).length := by
  rw [List.length_map]
  cases c with
  | other t => exact Nat.le_refl _
  | node b stop =>
    by_cases hb : m.node b = b
    · rw [Chunk.rename, hb]
    · rw [Chunk.rename, segments_renamed hm hb, List.length_singleton, Nat.one_le_iff_ne_zero]
      intro hzero
      have htext := flatMap_segments 0 (Chunk.node b stop).text
      rw [List.length_eq_zero_iff.mp hzero] at htext
      cases htext

theorem found_of_replace {m : LabelMap} (hm : m.Plain) {c : Chunk}
    (h : (segments 0 c.text).map (Segment.replace m.label) = segments 0 (c.rename m.node).text) :
    c.Found m := by
  cases c with
  | other t => exact map_replace_eq_self.mp h
  | node b stop =>
    by_cases hb : m.node b = b
    · rw [Chunk.rename, hb] at h
      exact .inr ⟨hb, map_replace_eq_self.mp h⟩
    · rw [Chunk.rename, segments_renamed hm hb] at h
      obtain ⟨x, hx, hxr⟩ := List.map_eq_singleton_iff.mp h
      have htext := flatMap_segments 0 (Chunk.node b stop).text
      rw [hx, List.flatMap_singleton, List.drop_zero] at htext
      cases x with
      | char c => cases hxr
      | hit l =>
        change l = _ at htext
        subst htext
        have hlabel := Segment.hit.inj hxr
        cases stop with
        | true =>
          exfalso
          change m.label (b.text ++ [46]) = (m.node b).text ++ [46] at hlabel
          rw [label_stop] at hlabel
          have := List.append_cancel_right hlabel
          exact hb (BlankNode.ext (List.cons.inj (List.cons.inj this).2).2).symm
        | false =>
          refine .inl ⟨rfl, ?_⟩
          have hmem : .hit (Chunk.node b false).text ∈ segments 0 (Chunk.node b false).text := by
            rw [hx]
            exact List.mem_cons_self
          have := isHit_of_mem_segments hmem
          rwa [show (Chunk.node b false).text = b.text from List.append_nil _] at this

theorem found_of_relabelLine {m : LabelMap} (hm : m.Plain) {l : Line}
    (h : relabelLine m.entries 0 l.text = (l.rename m.node).text) : Found m l := by
  have hsegments := segments_replace (fun _ => hm.isHit_label) l.text 0
  rw [← relabelLine_segments, h, ← text_chunks (l.rename m.node),
    segments_chunks (apart_chunks _), chunks_rename, List.flatMap_map, ← text_chunks l,
    segments_chunks (apart_chunks l), List.map_flatMap] at hsegments
  intro c hc
  refine found_of_replace hm ?_
  exact eq_of_flatMap_eq (fun x _ => length_segments_renamed hm x) hsegments.symm c hc

/-! ## Documents -/

theorem perm_of_map_perm {α β : Type} {f : α → β} {l l' : List α}
    (hf : ∀ a ∈ l, ∀ b ∈ l', f a = f b → a = b) (h : (l.map f).Perm (l'.map f)) : l.Perm l' := by
  induction l generalizing l' with
  | nil =>
    rw [List.map_nil, List.nil_perm, List.map_eq_nil_iff] at h
    rw [h]
  | cons a l ih =>
    have hmem : f a ∈ l'.map f := h.subset (by simp)
    obtain ⟨a', ha', heq⟩ := List.mem_map.mp hmem
    obtain rfl := hf a List.mem_cons_self a' ha' heq.symm
    obtain ⟨s, t, rfl⟩ := List.append_of_mem ha'
    have hmiddle : (s ++ a :: t).Perm (a :: (s ++ t)) := List.perm_middle
    have hrest : (l.map f).Perm ((s ++ t).map f) := by
      rw [← List.perm_cons (f a), ← List.map_cons, ← List.map_cons]
      exact h.trans (hmiddle.map f)
    refine (List.Perm.cons a (ih (fun x hx y hy => ?_) hrest)).trans hmiddle.symm
    exact hf x (List.mem_cons_of_mem _ hx) y (hmiddle.symm.subset (List.mem_cons_of_mem _ hy))

theorem relabel_of_found {m : LabelMap} {lines : List Line} (h : ∀ l ∈ lines, Found m l) :
    relabel (lines.map Line.text) m.entries = sorted (lines.map fun l => (l.rename m.node).text) := by
  rw [relabel, List.map_map]
  congr 1
  exact List.map_congr_left fun l hl => relabelLine_of_found (h l hl)

/-- Relabelling renames the blank nodes of the lines and leaves all else exactly when the pattern finds
the blank nodes and nothing else that the map changes. Documents of which that holds have the same
relabelled lines only when they are the same, as far as the map keeps their blank nodes apart. -/
theorem relabel_nodes_iff (m : LabelMap) (lines : List Line) :
    (m.Plain → ((∀ l ∈ lines, relabelLine m.entries 0 l.text = (l.rename m.node).text) ↔
      ∀ l ∈ lines, Found m l)) ∧
    ((∀ l ∈ lines, Found m l) →
      relabel (lines.map Line.text) m.entries = sorted (lines.map fun l => (l.rename m.node).text) ∧
      ∀ lines' : List Line, (∀ l ∈ lines', Found m l) →
        (∀ l ∈ lines, ∀ l' ∈ lines', ∀ b ∈ l.nodes, ∀ b' ∈ l'.nodes, m.node b = m.node b' → b = b') →
        relabel (lines.map Line.text) m.entries = relabel (lines'.map Line.text) m.entries →
        lines.Perm lines') := by
  refine ⟨fun hm => ⟨fun h l hl => found_of_relabelLine hm (h l hl),
    fun h l hl => relabelLine_of_found (h l hl)⟩, fun h => ⟨relabel_of_found h, ?_⟩⟩
  intro lines' h' hinj heq
  rw [relabel_of_found h, relabel_of_found h'] at heq
  have hperm : (lines.map fun l => (l.rename m.node).text).Perm
      (lines'.map fun l => (l.rename m.node).text) :=
    ((List.perm_insertionSort _ _).symm.trans (.of_eq heq)).trans (List.perm_insertionSort _ _)
  refine perm_of_map_perm (fun l hl l' hl' hll' => ?_) hperm
  exact Line.rename_injOn (hinj l hl l' hl') (text_injective hll')

/-- The pattern matches the blank nodes of the chunk and nothing else. -/
def isClean : Chunk → Bool
  | .other t => (segments 0 t).all (· matches .char _)
  | .node b stop => !stop && labelAt b.text == some b.text

theorem found_of_isClean {l : Line} (h : (chunks l).all isClean = true) (m : LabelMap) :
    Found m l := by
  intro c hc
  have hclean := List.all_eq_true.mp h c hc
  cases c with
  | other t =>
    intro x hx
    cases List.all_eq_true.mp hclean _ hx
  | node b stop =>
    rw [isClean, Bool.and_eq_true, Bool.not_eq_true', beq_iff_eq] at hclean
    exact .inl hclean

/-- A line as the canonical form writes it, with no graph name. -/
def lineOf (subject : Term) (predicate : Iri) (object : Term) (h : subject.isLiteral = false) :
    Line where
  lead := ⟨[], rfl⟩
  subject := subject
  gap₁ := ⟨[32], rfl⟩
  predicate := predicate
  gap₂ := ⟨[32], rfl⟩
  object := object
  gap₃ := ⟨[32], rfl⟩
  graph := none
  tail := ⟨[], rfl⟩
  noLiteral := ⟨h, fun g hg => by cases hg⟩
  apart := fun _ g hg => by cases hg

/-- One blank node refers to another, which has the value. -/
def referring (value : Literal) : List Line :=
  [lineOf (.blank ⟨lit "c14n2", rfl⟩) ⟨lit "urn:p", rfl⟩ (.blank ⟨lit "c14n3", rfl⟩) rfl,
    lineOf (.blank ⟨lit "c14n3", rfl⟩) ⟨lit "urn:q", rfl⟩ (.literal value) rfl]

/-- A name for each of the two blank nodes. -/
def twoNames : LabelMap :=
  [(⟨lit "c14n2", rfl⟩, ⟨lit "uX", rfl⟩), (⟨lit "c14n3", rfl⟩, ⟨lit "uY", rfl⟩)]

/-- Both blank nodes are renamed and nothing else in their lines is, and documents that say different
things of them have different relabelled lines. -/
theorem relabel_nodes_iff_subject :
    (∀ l ∈ referring ⟨lit "x", rfl, .none⟩,
      relabelLine twoNames.entries 0 l.text = (l.rename twoNames.node).text) ∧
    relabel ((referring ⟨lit "x", rfl, .none⟩).map Line.text) twoNames.entries ≠
      relabel ((referring ⟨lit "y", rfl, .none⟩).map Line.text) twoNames.entries := by
  have hplain : twoNames.Plain := by
    have hhits : ∀ e ∈ twoNames, labelAt e.2.text = some e.2.text := by decide +kernel
    exact hhits
  have hclean : ∀ value ∈ [⟨lit "x", rfl, .none⟩, ⟨lit "y", rfl, .none⟩], ∀ l ∈ referring value,
      (chunks l).all isClean = true := by decide +kernel
  have hx : ∀ l ∈ referring ⟨lit "x", rfl, .none⟩, Found twoNames l :=
    fun l hl => found_of_isClean (hclean _ (by simp) l hl) _
  have hy : ∀ l ∈ referring ⟨lit "y", rfl, .none⟩, Found twoNames l :=
    fun l hl => found_of_isClean (hclean _ (by simp) l hl) _
  obtain ⟨hiff, hdiffer⟩ := relabel_nodes_iff twoNames (referring ⟨lit "x", rfl, .none⟩)
  refine ⟨(hiff hplain).mpr hx, fun heq => ?_⟩
  have hperm := (hdiffer hx).2 (referring ⟨lit "y", rfl, .none⟩) hy (by decide +kernel) heq
  have hobject := (hperm.map Line.object).mem_iff (a := .literal ⟨lit "x", rfl, .none⟩)
  revert hobject
  decide +kernel

/-- A literal that reads like a blank node is rewritten, and two documents that differ in it have the
same relabelled lines. -/
theorem relabelled_literal :
    ¬ (∀ (m : LabelMap) (l : Line), relabelLine m.entries 0 l.text = (l.rename m.node).text) ∧
    ¬ ∀ (m : LabelMap) (l l' : Line),
      (∀ b ∈ l.nodes, ∀ b' ∈ l'.nodes, m.node b = m.node b' → b = b') →
      relabel [l.text] m.entries = relabel [l'.text] m.entries → l = l' := by
  refine ⟨fun h => ?_, fun h => ?_⟩
  · have := h [(⟨lit "c14n0", rfl⟩, ⟨lit "uX", rfl⟩)]
      (lineOf (.iri ⟨lit "urn:a", rfl⟩) ⟨lit "urn:p", rfl⟩ (.literal ⟨lit "_:c14n0", rfl, .none⟩) rfl)
    revert this
    decide +kernel
  · have := h [(⟨lit "c14n0", rfl⟩, ⟨lit "uX", rfl⟩)]
      (lineOf (.iri ⟨lit "urn:a", rfl⟩) ⟨lit "urn:p", rfl⟩ (.literal ⟨lit "_:c14n0", rfl, .none⟩) rfl)
      (lineOf (.iri ⟨lit "urn:a", rfl⟩) ⟨lit "urn:p", rfl⟩ (.literal ⟨lit "_:uX", rfl, .none⟩) rfl)
      (fun b hb => absurd hb List.not_mem_nil) (by decide +kernel)
    have htext := congrArg Line.object this
    revert htext
    decide +kernel

end OpenVC.EcdsaSd
