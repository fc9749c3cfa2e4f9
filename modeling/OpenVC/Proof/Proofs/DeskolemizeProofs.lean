import OpenVC.Proof.Proofs.SkolemGraphProofs

/-!
# Skolem IRIs taken back from N-Quads

`_deskolemize_nquads` works on the text. On the lines of a document that it is meant for, that is the
same as renaming the nodes.
-/

namespace OpenVC.EcdsaSd

open Python

/-! ## The text, part by part -/

theorem deskolemizeNquads_skip (x y : Str) :
    deskolemizeNquads x.length (x ++ y) = deskolemizeNquads 0 y := by
  induction x with
  | nil => rfl
  | cons a x ih => exact ih

theorem deskolemizeNquads_of_none {a : Nat} {t : Str} (h : skolemAt (a :: t) = none) :
    deskolemizeNquads 0 (a :: t) = a :: deskolemizeNquads 0 t := by
  rw [deskolemizeNquads, h]

theorem skolemAt_of_unprefixed {s : Str} (h : ¬ 60 :: skolemPrefix <+: s) : skolemAt s = none := by
  rw [skolemAt, if_neg]
  rwa [List.isPrefixOf_iff_prefix]

theorem deskolemizeNquads_plain {x : Str} (hx : 60 ∉ x) (y : Str) :
    deskolemizeNquads 0 (x ++ y) = x ++ deskolemizeNquads 0 y := by
  induction x with
  | nil => rfl
  | cons a x ih =>
    rw [List.mem_cons, not_or] at hx
    rw [List.cons_append, deskolemizeNquads_of_none, ih hx.2]
    · rfl
    · refine skolemAt_of_unprefixed fun hp => hx.1 ?_
      obtain ⟨z, hz⟩ := hp
      exact (List.cons.inj hz).1

theorem prefix_of_prefix_append_cons {p x y : Str} {c : Nat} (hc : c ∉ p) (h : p <+: x ++ c :: y) :
    p <+: x := by
  obtain ⟨z, hz⟩ := h
  rcases List.append_eq_append_iff.mp hz with ⟨u, hx, -⟩ | ⟨u, rfl, hu⟩
  · exact ⟨u, hx.symm⟩
  · cases u with
    | nil => simp
    | cons d u =>
      obtain ⟨rfl, -⟩ := List.cons.inj hu
      exact absurd (by simp) hc

theorem deskolemizeNquads_value {x : Str} (hx : ¬ 60 :: skolemPrefix <:+: x) (y : Str) :
    deskolemizeNquads 0 (x ++ 32 :: y) = x ++ deskolemizeNquads 0 (32 :: y) := by
  induction x with
  | nil => rfl
  | cons a x ih =>
    have htail : ¬ 60 :: skolemPrefix <:+: x := fun h => hx (List.infix_cons h)
    rw [List.cons_append, deskolemizeNquads_of_none, ih htail]
    · rfl
    · refine skolemAt_of_unprefixed fun hp => hx ?_
      exact (prefix_of_prefix_append_cons (x := a :: x) (by decide) hp).isInfix

theorem skolemAt_iri {s : Str} (hs : NoAngle s) (y : Str) : skolemAt (60 :: s ++ 62 :: y) =
    if skolemPrefix.isPrefixOf s && s != skolemPrefix then some (s.drop 9) else none := by
  by_cases hp : skolemPrefix <+: s
  · obtain ⟨x, rfl⟩ := hp
    have hx : 62 ∉ x := fun h => hs.2 (List.mem_append_right _ h)
    have hprefix : (60 :: skolemPrefix).isPrefixOf (60 :: (skolemPrefix ++ x) ++ 62 :: y) = true :=
      List.isPrefixOf_iff_prefix.mpr ⟨x ++ 62 :: y, by simp⟩
    have hprefix' : skolemPrefix.isPrefixOf (skolemPrefix ++ x) = true :=
      List.isPrefixOf_iff_prefix.mpr (List.prefix_append _ _)
    have hrest : (60 :: (skolemPrefix ++ x) ++ 62 :: y).drop (skolemPrefix.length + 1) = x ++ 62 :: y := by
      rw [List.cons_append, List.drop_succ_cons, List.append_assoc]
      exact List.drop_left
    rw [skolemAt, if_pos hprefix, hprefix', drop_skolemPrefix]
    simp only [hrest, Bool.true_and]
    cases x with
    | nil => rfl
    | cons c x =>
      have hc : c ≠ 62 := fun h => hx (by rw [h]; exact List.mem_cons_self)
      have htake : (c :: x ++ 62 :: y).takeWhile (· != 62) = c :: x := by
        rw [List.takeWhile_append_of_pos]
        · simp
        · intro d hd
          rw [bne_iff_ne]
          rintro rfl
          exact hx hd
      rw [htake, if_pos, if_pos]
      · simp
      · simp [hc]
  · rw [skolemAt_of_unprefixed, if_neg]
    · rw [Bool.and_eq_true, List.isPrefixOf_iff_prefix]
      exact fun h => hp h.1
    · intro h
      have h' : skolemPrefix <+: s ++ 62 :: y := (List.cons_prefix_cons.mp h).2
      exact hp (prefix_of_prefix_append_cons (by decide) h')

theorem deskolemizeNquads_iri {s : Str} (hs : NoAngle s) (y : Str) :
    deskolemizeNquads 0 ((Node.iri s).text ++ y) =
      (Node.iri s).deskolemize.text ++ deskolemizeNquads 0 y := by
  have htext : (Node.iri s).text ++ y = 60 :: (s ++ 62 :: y) := by
    simp [Node.text]
  have hat := skolemAt_iri hs y
  rw [htext, Node.deskolemize]
  by_cases h : (skolemPrefix.isPrefixOf s && s != skolemPrefix) = true
  · rw [if_pos h] at hat ⊢
    obtain ⟨hp, -⟩ := Bool.and_eq_true_iff.mp h
    obtain ⟨x, rfl⟩ := List.isPrefixOf_iff_prefix.mp hp
    rw [drop_skolemPrefix] at hat ⊢
    rw [List.cons_append] at hat
    rw [deskolemizeNquads, hat]
    have hskip := deskolemizeNquads_skip (skolemPrefix ++ x ++ [62]) y
    simp only [List.length_append, List.length_singleton, List.append_assoc, List.singleton_append]
      at hskip
    dsimp only
    rw [List.append_assoc, Nat.add_assoc, hskip]
    rfl
  · rw [if_neg h] at hat ⊢
    rw [List.cons_append] at hat
    rw [deskolemizeNquads_of_none hat, deskolemizeNquads_plain hs.1]
    have hclose := deskolemizeNquads_plain (x := [62]) (by decide) y
    rw [List.singleton_append] at hclose
    rw [hclose]
    simp [Node.text]

/-! ## The text as a list of pieces -/

/-- A piece of N-Quads: an IRI in its angles, or other text. -/
inductive Piece
  | iri (s : Str)
  | text (x : Str)

def Piece.written : Piece → Str
  | .iri s => (Node.iri s).text
  | .text x => x

/-- The piece that a node is written as. -/
def nodePiece : Node → Piece
  | .iri s => .iri s
  | n => .text n.text

/-- The piece with a skolem IRI taken back. -/
def Piece.deskolemize : Piece → Piece
  | .iri s => nodePiece (Node.iri s).deskolemize
  | .text x => .text x

/-- The angles of an IRI are its own, and other text is copied whatever follows it. -/
def Piece.Good : Piece → Prop
  | .iri s => NoAngle s
  | .text x => ∀ y, deskolemizeNquads 0 (x ++ y) = x ++ deskolemizeNquads 0 y

theorem good_plain {x : Str} (hx : 60 ∉ x) : (Piece.text x).Good := deskolemizeNquads_plain hx

@[simp] theorem written_text (x : Str) : (Piece.text x).written = x := rfl

@[simp] theorem written_iri (s : Str) : (Piece.iri s).written = 60 :: s ++ [62] := rfl

@[simp] theorem written_nodePiece (n : Node) : (nodePiece n).written = n.text := by
  cases n <;> rfl

@[simp] theorem deskolemize_text (x : Str) : (Piece.text x).deskolemize = .text x := rfl

@[simp] theorem deskolemize_nodePiece (n : Node) :
    (nodePiece n).deskolemize = nodePiece n.deskolemize := by
  cases n <;> rfl

theorem deskolemize_skolemIri {s : Str} (hs : SkolemIri s) :
    ∃ x, s = skolemPrefix ++ x ∧ (Piece.iri s).deskolemize = .text (95 :: 58 :: x) := by
  obtain ⟨x, hx, rfl⟩ := hs
  refine ⟨x, rfl, ?_⟩
  rw [Piece.deskolemize, deskolemize_skolem hx]
  rfl

theorem deskolemize_piece_iri {s : Str} (hs : ¬ SkolemIri s) :
    (Piece.iri s).deskolemize = .iri s := by
  rw [Piece.deskolemize, deskolemize_iri hs]
  rfl

theorem Piece.Good.deskolemize {p : Piece} (h : p.Good) : p.deskolemize.Good := by
  cases p with
  | text x => exact h
  | iri s =>
    by_cases hs : SkolemIri s
    · obtain ⟨x, rfl, hp⟩ := deskolemize_skolemIri hs
      rw [hp]
      refine good_plain fun hmem => h.1 (List.mem_append_right _ ?_)
      simpa using hmem
    · rw [deskolemize_piece_iri hs]
      exact h

@[simp] theorem deskolemize_deskolemize (p : Piece) : p.deskolemize.deskolemize = p.deskolemize := by
  cases p with
  | text x => rfl
  | iri s =>
    by_cases hs : SkolemIri s
    · obtain ⟨x, rfl, hp⟩ := deskolemize_skolemIri hs
      rw [hp]
      rfl
    · rw [deskolemize_piece_iri hs, deskolemize_piece_iri hs]

/-- `_deskolemize_nquads` goes over a text piece by piece. -/
theorem deskolemizeNquads_pieces {ps : List Piece} (h : ∀ p ∈ ps, p.Good) :
    deskolemizeNquads 0 (ps.flatMap Piece.written) =
      (ps.map Piece.deskolemize).flatMap Piece.written := by
  induction ps with
  | nil => rfl
  | cons p ps ih =>
    rw [List.forall_mem_cons] at h
    rw [List.flatMap_cons, List.map_cons, List.flatMap_cons, ← ih h.2]
    cases p with
    | text x => exact h.1 _
    | iri s =>
      refine (deskolemizeNquads_iri h.1 _).trans ?_
      rw [Piece.deskolemize, written_nodePiece]

theorem deskolemizeNquads_idem {ps : List Piece} (h : ∀ p ∈ ps, p.Good) :
    deskolemizeNquads 0 (deskolemizeNquads 0 (ps.flatMap Piece.written)) =
      deskolemizeNquads 0 (ps.flatMap Piece.written) := by
  have hgood : ∀ p ∈ ps.map Piece.deskolemize, p.Good := by
    intro p hp
    obtain ⟨p₀, hp₀, rfl⟩ := List.mem_map.mp hp
    exact (h p₀ hp₀).deskolemize
  rw [deskolemizeNquads_pieces h, deskolemizeNquads_pieces hgood, List.map_map]
  congr 1
  exact List.map_congr_left fun p _ => deskolemize_deskolemize p

theorem length_deskolemize (p : Piece) : p.deskolemize.written.length ≤ p.written.length := by
  cases p with
  | text x => exact le_rfl
  | iri s =>
    by_cases hs : SkolemIri s
    · obtain ⟨x, rfl, hp⟩ := deskolemize_skolemIri hs
      simp [hp]
    · rw [deskolemize_piece_iri hs]

theorem length_deskolemize_skolemIri {s : Str} (hs : SkolemIri s) :
    (Piece.iri s).deskolemize.written.length < (Piece.iri s).written.length := by
  obtain ⟨x, rfl, hp⟩ := deskolemize_skolemIri hs
  have hlen : skolemPrefix.length = 9 := rfl
  simp [hp, hlen]

/-- Taking a skolem IRI back shortens the text, so a text that is left alone has none. -/
theorem not_skolemIri_of_fixed {ps : List Piece} (h : ∀ p ∈ ps, p.Good)
    (hfixed : deskolemizeNquads 0 (ps.flatMap Piece.written) = ps.flatMap Piece.written) {s : Str}
    (hs : .iri s ∈ ps) : ¬ SkolemIri s := by
  intro hskolem
  have hle : ∀ l : List Piece, ((l.map Piece.deskolemize).flatMap Piece.written).length ≤
      (l.flatMap Piece.written).length := by
    intro l
    induction l with
    | nil => exact le_rfl
    | cons p l ih =>
      rw [List.map_cons, List.flatMap_cons, List.flatMap_cons, List.length_append,
        List.length_append]
      exact Nat.add_le_add (length_deskolemize p) ih
  obtain ⟨before, after, rfl⟩ := List.append_of_mem hs
  have hlength := congrArg List.length hfixed
  rw [deskolemizeNquads_pieces h, List.map_append, List.map_cons, List.flatMap_append,
    List.flatMap_append, List.flatMap_cons, List.flatMap_cons] at hlength
  simp only [List.length_append] at hlength
  have hbefore := hle before
  have hafter := hle after
  have hlt := length_deskolemize_skolemIri hskolem
  omega

/-! ## The lines of statements -/

def objectPieces (literal : Json → Str) : Object → List Piece
  | .node n => [nodePiece n, .text [32]]
  | .value v => [.text (literal v ++ [32])]

def graphPieces : Option Node → List Piece
  | some n => [nodePiece n, .text [32]]
  | none => []

/-- The pieces of a line. -/
def Quad.pieces (literal : Json → Str) (q : Quad) : List Piece :=
  nodePiece q.subject :: .text [32] :: .iri q.predicate :: .text [32] ::
    (objectPieces literal q.object ++ (graphPieces q.graph ++ [.text [46, 10]]))

section Lines

variable {literal : Json → Str} {q : Quad}

theorem written_pieces : (q.pieces literal).flatMap Piece.written = q.line literal := by
  obtain ⟨s, p, o, g⟩ := q
  unfold Quad.pieces Quad.line
  cases o <;> cases g <;>
    simp [objectPieces, graphPieces, graphPart, Object.text]

theorem flatMap_line (qs : List Quad) : qs.flatMap (Quad.line literal) =
    (qs.flatMap (Quad.pieces literal)).flatMap Piece.written := by
  rw [List.flatMap_assoc]
  exact congrArg qs.flatMap (funext fun q => written_pieces.symm)

/-- The pieces of a line are those of the parts of its statement. -/
theorem good_pieces (hnodes : ∀ n ∈ q.nodes, (nodePiece n).Good) (hpredicate : NoAngle q.predicate)
    (hvalue : ∀ v, q.object = .value v → ¬ 60 :: skolemPrefix <:+: literal v) :
    ∀ p ∈ q.pieces literal, p.Good := by
  obtain ⟨s, p, o, g⟩ := q
  have hspace : (Piece.text [32]).Good := good_plain (by decide)
  have hobject : ∀ p ∈ objectPieces literal o, p.Good := by
    cases o with
    | node n =>
      have hn : (nodePiece n).Good := hnodes n (by simp [Quad.nodes, Object.nodes])
      simpa [objectPieces, hspace] using hn
    | value v =>
      refine List.forall_mem_singleton.mpr fun y => ?_
      have hcopied := deskolemizeNquads_value (hvalue v rfl) y
      rw [List.append_assoc, List.append_assoc]
      refine hcopied.trans (congrArg (literal v ++ ·) ?_)
      exact hspace y
  have hgraph : ∀ p ∈ graphPieces g, p.Good := by
    cases g with
    | none => exact List.forall_mem_nil _
    | some n =>
      have hn : (nodePiece n).Good := hnodes n (by simp [Quad.nodes])
      simpa [graphPieces, hspace] using hn
  have hend : (Piece.text [46, 10]).Good := good_plain (by decide)
  have hsubject : (nodePiece s).Good := hnodes s List.mem_cons_self
  unfold Quad.pieces
  simp only [List.forall_mem_cons, List.forall_mem_append]
  exact ⟨hsubject, hspace, hpredicate, hspace, hobject, hgraph, hend, List.forall_mem_nil _⟩

theorem map_pieces (hpredicate : ¬ SkolemIri q.predicate) :
    (q.pieces literal).map Piece.deskolemize = (q.map Node.deskolemize).pieces literal := by
  obtain ⟨s, p, o, g⟩ := q
  have hp : (Piece.iri p).deskolemize = .iri p := deskolemize_piece_iri hpredicate
  unfold Quad.pieces
  cases o <;> cases g <;>
    simp [objectPieces, graphPieces, Quad.map, Object.map, hp]

theorem iri_mem_pieces {s : Str} (h : s = q.predicate ∨ .iri s ∈ q.nodes) :
    .iri s ∈ q.pieces literal := by
  obtain ⟨subject, p, o, g⟩ := q
  have hnode : ∀ n, Node.iri s = n → nodePiece n = .iri s := fun n hn => by rw [← hn]; rfl
  unfold Quad.pieces
  rcases h with rfl | h
  · simp
  · rcases List.mem_cons.mp h with h | h
    · simp [hnode _ h]
    rcases List.mem_append.mp h with h | h
    · cases o with
      | node n => simp [objectPieces, hnode n (List.mem_singleton.mp h)]
      | value v => cases h
    · obtain rfl := Option.mem_toList.mp h
      simp [graphPieces, hnode _ rfl]

end Lines

/-! ## There and back -/

section RoundTrip

variable {literal : Json → Str} {absolute : Str → Bool} {toRdf : Json → Str} {d : Json}

theorem noAngle_append {x : Str} (hx : NoAngle x) : NoAngle (skolemPrefix ++ x) := by
  have hprefix : NoAngle skolemPrefix := by
    constructor <;> decide
  constructor
  · exact fun hmem => (List.mem_append.mp hmem).elim hprefix.1 hx.1
  · exact fun hmem => (List.mem_append.mp hmem).elim hprefix.2 hx.2

theorem noAngle_number (n : Nat) : NoAngle (98 :: Str.ofNat n) := by
  have hdigit : ∀ c, ¬ Str.isDigit c = true → c ≠ 98 → c ∉ 98 :: Str.ofNat n := by
    intro c hc hne hmem
    rcases List.mem_cons.mp hmem with rfl | hmem
    · exact hne rfl
    · exact hc (Str.isDigit_of_mem_ofNat hmem)
  exact ⟨hdigit 60 (by decide) (by decide), hdigit 62 (by decide) (by decide)⟩

theorem noAngle_of_deskolemize {s : Str} {y : Node} (h : (Node.iri s).deskolemize = y.roundTrip)
    (hiri : ∀ t, y = .iri t → NoAngle t) (hblank : ∀ x, y = .blank x → NoAngle x) : NoAngle s := by
  by_cases hs : SkolemIri s
  · obtain ⟨x, hx, rfl⟩ := hs
    rw [deskolemize_skolem hx] at h
    refine noAngle_append ?_
    cases y with
    | blank x' =>
      cases h
      exact hblank x rfl
    | unnamed n =>
      cases h
      exact noAngle_number n
    | iri t =>
      by_cases ht : SkolemIri t
      · obtain ⟨x', hx', rfl⟩ := ht
        rw [Node.roundTrip, deskolemize_skolem hx'] at h
        cases h
        have hangle := hiri _ rfl
        exact ⟨fun hmem => hangle.1 (List.mem_append_right _ hmem),
          fun hmem => hangle.2 (List.mem_append_right _ hmem)⟩
      · rw [Node.roundTrip, deskolemize_iri ht] at h
        cases h
  · rw [deskolemize_iri hs] at h
    cases y with
    | blank x' => cases h
    | unnamed n => cases h
    | iri t =>
      by_cases ht : SkolemIri t
      · obtain ⟨x', hx', rfl⟩ := ht
        rw [Node.roundTrip, deskolemize_skolem hx'] at h
        cases h
      · rw [Node.roundTrip, deskolemize_iri ht] at h
        cases h
        exact hiri s rfl

/-- The lines of the skolemized document can be told apart from its skolem IRIs. -/
theorem Lexical.good (habsolute : ∀ x, absolute (skolemPrefix ++ x) = true) (hwf : d.WF)
    (hd : Expanded d) (hlexical : Lexical literal absolute d) {q : Quad}
    (hq : q ∈ writtenStatements absolute (skolemize d 0).1) :
    (∀ p ∈ q.pieces literal, p.Good) ∧ ∃ q₀ ∈ writtenStatements absolute d,
      q₀.map Node.roundTrip = q.map Node.deskolemize ∧ q.predicate = q₀.predicate := by
  have hmap := statements_skolemize habsolute (labelled_of_lexical hd hlexical)
  have hmem : q.map Node.deskolemize ∈ (writtenStatements absolute d).map (Quad.map Node.roundTrip) := by
    rw [← hmap]
    exact List.mem_map_of_mem hq
  obtain ⟨q₀, hq₀, heq⟩ := List.mem_map.mp hmem
  have hpredicate : q.predicate = q₀.predicate := (congrArg Quad.predicate heq).symm
  refine ⟨good_pieces (fun y hy => ?_) (hpredicate ▸ hlexical.predicates q₀ hq₀) fun v hv => ?_,
    q₀, hq₀, heq, hpredicate⟩
  · have hyiri := isIri_skolemize hwf hd hlexical.types q (mem_dataset hq) y hy
    cases y with
    | iri s =>
      have hy' : (Node.iri s).deskolemize ∈ q₀.nodes.map Node.roundTrip := by
        rw [← nodes_map, heq, nodes_map]
        exact List.mem_map_of_mem hy
      obtain ⟨y₀, hy₀, hround⟩ := List.mem_map.mp hy'
      refine noAngle_of_deskolemize hround.symm (fun t ht => ?_) fun x hx => ?_
      · exact hlexical.iris q₀ hq₀ t (ht ▸ hy₀)
      · exact (hlexical.labels q₀ hq₀ x (hx ▸ hy₀)).2
    | _ => cases hyiri
  · have hobject : q₀.object.map Node.roundTrip = q.object.map Node.deskolemize :=
      congrArg Quad.object heq
    rw [hv] at hobject
    cases ho : q₀.object with
    | node n =>
      rw [ho] at hobject
      cases hobject
    | value v' =>
      rw [ho] at hobject
      cases hobject
      exact hlexical.values q₀ hq₀ v ho

theorem written_label {y : Node} (h : ∀ x, y = .blank x → x ≠ [] ∧ NoAngle x) : y.label.Written := by
  cases y with
  | iri s => trivial
  | blank x => exact h x rfl
  | unnamed n => exact ⟨List.cons_ne_nil _ _, noAngle_number n⟩

variable (habsolute : ∀ x, absolute (skolemPrefix ++ x) = true) (hwf : d.WF) (hd : Expanded d)
  (hlexical : Lexical literal absolute d)

include habsolute hwf hd hlexical

/-- The lines that are written of the skolemized document. -/
theorem exists_deskolemized (hclear : Clear d)
    (hwrites : Writes toRdf literal absolute (skolemize d 0).1) :
    ∃ qs : List Quad, (∀ q, q ∈ qs ↔ q ∈ writtenStatements absolute (skolemize d 0).1) ∧
      toRdf (skolemize d 0).1 = (qs.flatMap (Quad.pieces literal)).flatMap Piece.written ∧
      ∀ p ∈ qs.flatMap (Quad.pieces literal), p.Good := by
  obtain ⟨qs, hqs, htext⟩ := hwrites (kind_skolemize hd hclear.nodes) fun q hq =>
    isIri_skolemize hwf hd hlexical.types q (mem_dataset hq)
  refine ⟨qs, hqs, by rw [htext, flatMap_line], fun p hp => ?_⟩
  obtain ⟨q, hq, hp⟩ := List.mem_flatMap.mp hp
  exact (hlexical.good habsolute hwf hd ((hqs q).mp hq)).1 p hp

theorem recovered_of_skolemFree (hclear : Clear d)
    (hwrites : Writes toRdf literal absolute (skolemize d 0).1) (hfree : SkolemFree absolute d) :
    Recovered toRdf literal absolute d := by
  obtain ⟨qs, hqs, htext, hgood⟩ := exists_deskolemized habsolute hwf hd hlexical hclear hwrites
  have hmap := statements_skolemize habsolute (labelled_of_lexical hd hlexical)
  refine ⟨_, hclear.isomorphic hwf hd, fun q hq n hn => ?_, qs.map (Quad.map Node.deskolemize),
    fun q => ?_, ?_⟩
  · obtain ⟨q₀, hq₀, rfl⟩ := List.mem_map.mp hq
    rw [nodes_map] at hn
    obtain ⟨y, hy, rfl⟩ := List.mem_map.mp hn
    exact written_label fun x hx => hlexical.labels q₀ hq₀ x (hx ▸ hy)
  · rw [← map_roundTrip hfree, ← hmap, List.mem_map, List.mem_map]
    exact exists_congr fun q' => and_congr_left fun _ => hqs q'
  · rw [htext, deskolemizeNquads_pieces hgood, flatMap_line]
    congr 1
    rw [List.map_flatMap, List.flatMap_map]
    refine List.flatMap_congr fun q hq => map_pieces ?_
    obtain ⟨q₀, hq₀, -, hpredicate⟩ := (hlexical.good habsolute hwf hd ((hqs q).mp hq)).2
    rw [hpredicate]
    exact hfree.predicates q₀ hq₀

/-- N-Quads that are recovered have no skolem IRI in them: none is left after the substitution. -/
theorem Recovered.skolemFree (hclear : Clear d)
    (hwrites : Writes toRdf literal absolute (skolemize d 0).1)
    (h : Recovered toRdf literal absolute d) : SkolemFree absolute d := by
  obtain ⟨qs, hqs, htext, hgood⟩ := exists_deskolemized habsolute hwf hd hlexical hclear hwrites
  obtain ⟨g, ⟨f, hiri, hkind, -, rfl⟩, hwritten, qs', hqs', hlines⟩ := h
  have hpieces : ∀ p ∈ qs'.flatMap (Quad.pieces literal), p.Good := by
    intro p hp
    obtain ⟨q, hq, hp⟩ := List.mem_flatMap.mp hp
    have hmem := (hqs' q).mp hq
    obtain ⟨q₀, hq₀, rfl⟩ := List.mem_map.mp hmem
    refine good_pieces (q := q₀.map f) (fun n hn => ?_) (hlexical.predicates q₀ hq₀)
      (fun v hv => ?_) p hp
    · have hn' := hwritten _ hmem n hn
      cases n with
      | blank x =>
        refine good_plain fun hmem => hn'.2.1 ?_
        simpa [Node.text] using hmem
      | unnamed k => exact hn'.elim
      | iri s =>
        rw [nodes_map] at hn
        obtain ⟨y, hy, heq⟩ := List.mem_map.mp hn
        have hy' := hkind y
        rw [heq] at hy'
        cases y with
        | iri t =>
          rw [hiri] at heq
          cases heq
          exact hlexical.iris q₀ hq₀ s hy
        | _ => cases hy'
    · change q₀.object.map f = .value v at hv
      cases ho : q₀.object with
      | node n =>
        rw [ho] at hv
        cases hv
      | value v' =>
        rw [ho] at hv
        cases hv
        exact hlexical.values q₀ hq₀ v ho
  have hfixed : deskolemizeNquads 0 ((qs'.flatMap (Quad.pieces literal)).flatMap Piece.written) =
      (qs'.flatMap (Quad.pieces literal)).flatMap Piece.written := by
    rw [← flatMap_line, ← hlines, htext, deskolemizeNquads_idem hgood]
  have hnone : ∀ q ∈ writtenStatements absolute d, ∀ s, s = q.predicate ∨ .iri s ∈ q.nodes →
      ¬ SkolemIri s := by
    intro q hq s hs
    refine not_skolemIri_of_fixed hpieces hfixed (List.mem_flatMap.mpr ⟨q.map f, ?_, ?_⟩)
    · exact (hqs' _).mpr (List.mem_map_of_mem hq)
    · refine iri_mem_pieces (hs.imp id fun hs => ?_)
      rw [nodes_map, ← hiri s]
      exact List.mem_map_of_mem hs
  exact ⟨fun q hq s hs => hnone q hq s (.inr hs), fun q hq => hnone q hq _ (.inl rfl)⟩

end RoundTrip

/-- A document whose second node has no `@id`. -/
def unnamedChild (id : String) : Json :=
  .arr [.obj [(lit "@id", .str (lit id)), (lit "urn:p", .arr [.obj [(lit "urn:q",
    .arr [.obj [(lit "@value", .str (lit "x"))]])]])]]

theorem objects_unnamedChild (id : String) : objects false (unnamedChild id) =
    [⟨.node, .null, []⟩, ⟨.node, .str (lit id), []⟩] := rfl

theorem wf_unnamedChild (id : String) : (unnamedChild id).WF := by
  have hmembers : [lit "@id", lit "urn:p"].Nodup := by decide
  exact ⟨⟨hmembers, trivial, ⟨⟨List.nodup_singleton _, ⟨⟨List.nodup_singleton _, trivial, trivial⟩,
    trivial⟩, trivial⟩, trivial⟩, trivial⟩, trivial⟩

theorem expanded_unnamedChild (id : String) : Expanded (unnamedChild id) := by
  intro o ho
  rw [objects_unnamedChild] at ho
  rcases List.mem_cons.mp ho with rfl | ho
  · exact ⟨.inl rfl, fun h => absurd rfl h⟩
  · rw [List.mem_singleton.mp ho]
    exact ⟨.inr ⟨_, rfl⟩, fun h => absurd rfl h⟩

/-- Whether an IRI has a scheme. -/
def hasScheme (s : Str) : Bool := s.contains 58

theorem hasScheme_skolem (x : Str) : hasScheme (skolemPrefix ++ x) = true := by
  have hmem : 58 ∈ skolemPrefix := by decide
  exact List.contains_iff_mem.mpr (List.mem_append_left x hmem)

/-- A processor that writes the statements in their order. -/
def writeLines (literal : Json → Str) (d : Json) : Str :=
  (writtenStatements hasScheme d).flatMap (Quad.line literal)

theorem writes_writeLines (literal : Json → Str) (d : Json) :
    Writes (writeLines literal) literal hasScheme d :=
  fun _ _ => ⟨writtenStatements hasScheme d, fun _ => Iff.rfl, rfl⟩

/-- Every literal is the same string. -/
def oneLiteral (_ : Json) : Str := "\"x\""

section Sample

variable {id : String} (hblank : ∀ x, 95 :: 58 :: x ≠ lit id)

include hblank

theorem clear_unnamedChild (hnumber : skolemName 0 ≠ lit id) : Clear (unnamedChild id) := by
  have hobject : ∀ o ∈ objects false (unnamedChild id), o.kind = .node ∧ o.types = [] ∧
      ∀ s, o.id = .str s → s = lit id := by
    intro o ho
    rw [objects_unnamedChild] at ho
    rcases List.mem_cons.mp ho with rfl | ho
    · exact ⟨rfl, rfl, fun s hs => by cases hs⟩
    · rw [List.mem_singleton.mp ho]
      exact ⟨rfl, rfl, fun s hs => (Json.str.inj hs).symm⟩
  refine ⟨fun o ho => (hobject o ho).1, fun o ho n hn => ?_, fun o ho x hx => ?_⟩
  · obtain ⟨-, htypes, hstr⟩ := hobject o ho
    obtain rfl : n = 0 := Nat.lt_one_iff.mp hn
    rw [htypes]
    exact ⟨fun h => hblank _ (hstr _ h), List.not_mem_nil, fun h => hnumber (hstr _ h),
      List.not_mem_nil⟩
  · exact absurd ((hobject o ho).2.2 _ hx) (hblank x)

variable (hscheme : hasScheme (lit id) = true)

include hscheme

theorem writtenStatements_unnamedChild : writtenStatements hasScheme (unnamedChild id) =
    [⟨.iri (lit id), lit "urn:p", .node (.unnamed 0), none⟩,
      ⟨.unnamed 0, lit "urn:q", .value (.obj [(lit "@value", .str (lit "x"))]), none⟩] := by
  have hdataset : dataset (unnamedChild id) =
      [⟨nodeOf (.str (lit id)) 1, lit "urn:p", .node (.unnamed 0), none⟩,
        ⟨.unnamed 0, lit "urn:q", .value (.obj [(lit "@value", .str (lit "x"))]), none⟩] := rfl
  have hiri : ¬ (lit id).startsWith "_:" = true := fun h =>
    (startsWith_blank.mp h).elim fun x hx => hblank x hx.symm
  have hpredicates : hasScheme (lit "urn:p") = true ∧ hasScheme (lit "urn:q") = true := by decide
  rw [writtenStatements, hdataset, isIri_nodeOf hiri]
  simp [Quad.kept, Quad.nodes, Object.nodes, Node.kept, hscheme, hpredicates]

theorem lexical_unnamedChild (hangle : NoAngle (lit id)) :
    Lexical oneLiteral hasScheme (unnamedChild id) where
  ids o ho := by
    rw [objects_unnamedChild] at ho
    rcases List.mem_cons.mp ho with rfl | ho
    · exact fun h => by cases h
    · rw [List.mem_singleton.mp ho]
      exact fun h => hblank [] (Json.str.inj h).symm
  types o ho x := by
    rw [objects_unnamedChild] at ho
    rcases List.mem_cons.mp ho with rfl | ho
    · exact List.not_mem_nil
    · rw [List.mem_singleton.mp ho]
      exact List.not_mem_nil
  labels q hq x hx := by
    rw [writtenStatements_unnamedChild hblank hscheme] at hq
    rcases List.mem_cons.mp hq with rfl | hq
    · simp [Quad.nodes, Object.nodes] at hx
    · rw [List.mem_singleton.mp hq] at hx
      simp [Quad.nodes, Object.nodes] at hx
  iris q hq s hs := by
    rw [writtenStatements_unnamedChild hblank hscheme] at hq
    rcases List.mem_cons.mp hq with rfl | hq
    · obtain rfl : s = lit id := by simpa [Quad.nodes, Object.nodes] using hs
      exact hangle
    · rw [List.mem_singleton.mp hq] at hs
      simp [Quad.nodes, Object.nodes] at hs
  predicates q hq := by
    have hpredicates : NoAngle (lit "urn:p") ∧ NoAngle (lit "urn:q") := by
      refine ⟨⟨?_, ?_⟩, ?_, ?_⟩ <;> decide
    rw [writtenStatements_unnamedChild hblank hscheme] at hq
    rcases List.mem_cons.mp hq with rfl | hq
    · exact hpredicates.1
    · rw [List.mem_singleton.mp hq]
      exact hpredicates.2
  values q hq v hv := by
    have hnone : ¬ 60 :: skolemPrefix <:+: lit "\"x\"" := by decide
    exact hnone

theorem skolemFree_unnamedChild (hid : ¬ SkolemIri (lit id)) :
    SkolemFree hasScheme (unnamedChild id) where
  iris q hq s hs := by
    rw [writtenStatements_unnamedChild hblank hscheme] at hq
    rcases List.mem_cons.mp hq with rfl | hq
    · obtain rfl : s = lit id := by simpa [Quad.nodes, Object.nodes] using hs
      exact hid
    · rw [List.mem_singleton.mp hq] at hs
      simp [Quad.nodes, Object.nodes] at hs
  predicates q hq := by
    have hpredicates : ¬ SkolemIri (lit "urn:p") ∧ ¬ SkolemIri (lit "urn:q") := by
      rw [skolemIri_iff, skolemIri_iff]
      decide
    rw [writtenStatements_unnamedChild hblank hscheme] at hq
    rcases List.mem_cons.mp hq with rfl | hq
    · exact hpredicates.1
    · rw [List.mem_singleton.mp hq]
      exact hpredicates.2

end Sample

theorem blank_ne_urn (id : String) (h : (lit id).head? = some 117) (x : Str) :
    95 :: 58 :: x ≠ lit id := by
  intro e
  rw [← e] at h
  cases h

end OpenVC.EcdsaSd
