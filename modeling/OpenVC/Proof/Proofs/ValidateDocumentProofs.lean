import OpenVC.Proof.Proofs.CanonicalProofs
import OpenVC.Proof.ValidateDocument
import OpenVC.Proofs.ErrorsProofs

/-!
# Validation of a signed document

What `validate_document` accepts is the compacted form of its expansion, with its status entries in their
place. It refuses with a `ProofMalformed`: the block over `pyld` turns every exception into one, and the
walk after it writes only values that the document has.
-/

namespace OpenVC

open Python JsonText

/-- Expansion makes no number: of a document that can be written as JSON, it gives values that can. -/
def JsonLd.KeepsNumbers (L : JsonLd) : Prop :=
  ∀ document expanded, L.expand document = .ok expanded → (text (.obj document)).isSome →
    ∀ v ∈ expanded, (text v).isSome

theorem imported_eq_ok {α : Type} {x : Except Str α} {a : α} : imported x = .ok a ↔ x = .ok a := by
  unfold imported
  split
  · rw [Except.ok.injEq, Except.ok.injEq]
  · exact ⟨nofun, nofun⟩

namespace ContextValidation

/-! ## What has a canonical form -/

mutual

theorem isSome_text_normalize : ∀ (v : Json) (e : Bool), (text (normalize e v)).isSome ↔ (text v).isSome
  | .null, _ | .bool _, _ | .int _, _ | .float _, _ | .str _, _ => Iff.rfl
  | .arr l, e => by
    have hl := isSome_text_normalizeList l
    rcases normalize_arr e l with heq | ⟨-, x, rfl, -, heq⟩
    · rw [heq, isSome_text_arr, isSome_text_arr, List.forall_mem_map]
      exact forall₂_congr hl
    · rw [heq, isSome_text_arr, List.forall_mem_singleton]
      exact hl x (List.mem_singleton_self x)
  | .obj m, e => by
    have hm := isSome_text_normalizeMembers m
    by_cases href : ∃ x, m = [(lit "id", x)]
    · obtain ⟨x, rfl⟩ := href
      rw [normalize_reference, isSome_text_obj, List.forall_mem_singleton]
      exact hm _ (List.mem_singleton_self _) e
    · rw [normalize_obj e fun x hx => href ⟨x, hx⟩, normalizeMembers_eq_map, isSome_text_obj,
        isSome_text_obj, List.forall_mem_map]
      exact forall₂_congr fun p hp => hm p hp false

theorem isSome_text_normalizeList : ∀ (l : List Json), ∀ v ∈ l,
    (text (normalize true v)).isSome ↔ (text v).isSome
  | [], _, hv => nomatch hv
  | x :: t, v, hv => by
    have hx := isSome_text_normalize x true
    rcases List.mem_cons.mp hv with heq | hv
    · rw [heq]
      exact hx
    · exact isSome_text_normalizeList t v hv

theorem isSome_text_normalizeMembers : ∀ (m : List (Str × Json)), ∀ p ∈ m, ∀ e,
    (text (normalize e p.2)).isSome ↔ (text p.2).isSome
  | [], _, hp => nomatch hp
  | (k, v) :: t, p, hp => by
    have hv := isSome_text_normalize v
    rcases List.mem_cons.mp hp with heq | hp
    · rw [heq]
      exact hv
    · exact isSome_text_normalizeMembers t p hp

end

theorem isSome_canonical {v : Json} : (canonical v).isSome ↔ (text v).isSome := by
  rw [canonical, canonicalAt, sortedText, isSome_text_sorted, isSome_text_normalize]

theorem canonicalOrRaise_eq_ok {v : Json} {s : Str} :
    canonicalOrRaise v = .ok s ↔ canonical v = some s := orRaise_eq_ok

/-! ## The walks over the status entries -/

section Walks

variable {cls : ErrorClass} {v : Json} {l : List Json} {m : List (Str × Json)} {entries : Entries}

theorem typed_canonicalOrRaise (h : (text v).isSome) : Typed cls (canonicalOrRaise v) := by
  rw [← isSome_canonical, Option.isSome_iff_exists] at h
  obtain ⟨s, hs⟩ := h
  rw [canonicalOrRaise_eq_ok.mpr hs]
  exact raisesOnly_ok

theorem typed_addEntry (h : (text (.obj m)).isSome) : Typed cls (addEntry m entries) := by
  unfold addEntry
  split
  · exact (typed_canonicalOrRaise h).bind fun _ _ => raisesOnly_ok
  · exact raisesOnly_ok

mutual

theorem typed_collectStatusEntries : ∀ (v : Json) (entries : Entries), (text v).isSome →
    Typed cls (collectStatusEntries v entries)
  | .null, _, _ | .bool _, _, _ | .int _, _, _ | .float _, _, _ | .str _, _, _ => raisesOnly_ok
  | .arr l, entries, h => typed_collectStatusEntriesList l entries (isSome_text_arr.mp h)
  | .obj m, entries, h => by
    rw [collectStatusEntries]
    split
    · exact raisesOnly_ok
    · split
      · exact typed_collectStatusEntriesListed m entries (isSome_text_obj.mp h)
      · exact typed_addEntry h

theorem typed_collectStatusEntriesList : ∀ (l : List Json) (entries : Entries),
    (∀ v ∈ l, (text v).isSome) → Typed cls (collectStatusEntriesList l entries)
  | [], _, _ => raisesOnly_ok
  | v :: t, entries, h => by
    rw [List.forall_mem_cons] at h
    refine RaisesOnly.bind (typed_collectStatusEntries v entries h.1) fun entries' _ => ?_
    exact typed_collectStatusEntriesList t entries' h.2

theorem typed_collectStatusEntriesListed : ∀ (m : List (Str × Json)) (entries : Entries),
    (∀ p ∈ m, (text p.2).isSome) → Typed cls (collectStatusEntriesListed m entries)
  | [], _, _ => raisesOnly_ok
  | (k, v) :: t, entries, h => by
    rw [List.forall_mem_cons] at h
    rw [collectStatusEntriesListed]
    split
    · exact typed_collectStatusEntries v entries h.1
    · exact typed_collectStatusEntriesListed t entries h.2

end

theorem typed_markMoved {inStatus : Bool} {moved : List Str} (h : (text (.obj m)).isSome) :
    Typed cls (markMoved entries inStatus m moved) := by
  unfold markMoved
  split
  · refine RaisesOnly.bind ?_ fun _ _ => raisesOnly_ok
    unfold isMoved
    split
    · exact (typed_canonicalOrRaise h).bind fun _ _ => raisesOnly_ok
    · exact raisesOnly_ok
  · exact raisesOnly_ok

mutual

theorem typed_collectDescribedElsewhere : ∀ (v : Json) (top inStatus : Bool) (moved : List Str),
    (text v).isSome → Typed cls (collectDescribedElsewhere entries top inStatus v moved)
  | .null, _, _, _, _ | .bool _, _, _, _, _ | .int _, _, _, _, _ | .float _, _, _, _, _
  | .str _, _, _, _, _ => raisesOnly_ok
  | .arr l, _, inStatus, moved, h =>
    typed_collectDescribedElsewhereList l inStatus moved (isSome_text_arr.mp h)
  | .obj m, top, inStatus, moved, h => by
    rw [collectDescribedElsewhere]
    split
    · exact raisesOnly_ok
    · split
      · exact typed_collectDescribedElsewhereListed m inStatus moved (isSome_text_obj.mp h)
      · refine (typed_markMoved h).bind fun moved' _ => ?_
        exact typed_collectDescribedElsewhereMembers m top moved' (isSome_text_obj.mp h)

theorem typed_collectDescribedElsewhereList : ∀ (l : List Json) (inStatus : Bool)
    (moved : List Str), (∀ v ∈ l, (text v).isSome) →
    Typed cls (collectDescribedElsewhereList entries inStatus l moved)
  | [], _, _, _ => raisesOnly_ok
  | v :: t, inStatus, moved, h => by
    rw [List.forall_mem_cons] at h
    refine RaisesOnly.bind (typed_collectDescribedElsewhere v false inStatus moved h.1) ?_
    intro moved' _
    exact typed_collectDescribedElsewhereList t inStatus moved' h.2

theorem typed_collectDescribedElsewhereListed : ∀ (m : List (Str × Json)) (inStatus : Bool)
    (moved : List Str), (∀ p ∈ m, (text p.2).isSome) →
    Typed cls (collectDescribedElsewhereListed entries inStatus m moved)
  | [], _, _, _ => raisesOnly_ok
  | (k, v) :: t, inStatus, moved, h => by
    rw [List.forall_mem_cons] at h
    rw [collectDescribedElsewhereListed]
    split
    · exact typed_collectDescribedElsewhere v false inStatus moved h.1
    · exact typed_collectDescribedElsewhereListed t inStatus moved h.2

theorem typed_collectDescribedElsewhereMembers : ∀ (m : List (Str × Json)) (top : Bool)
    (moved : List Str), (∀ p ∈ m, (text p.2).isSome) →
    Typed cls (collectDescribedElsewhereMembers entries top m moved)
  | [], _, _, _ => raisesOnly_ok
  | (k, v) :: t, top, moved, h => by
    rw [List.forall_mem_cons] at h
    rw [collectDescribedElsewhereMembers]
    split
    · exact typed_collectDescribedElsewhereMembers t top moved h.2
    · refine RaisesOnly.bind (typed_collectDescribedElsewhere v false _ moved h.1) ?_
      intro moved' _
      exact typed_collectDescribedElsewhereMembers t top moved' h.2

end

theorem typed_checkStatusInPlace (what : Str) {node : Dict} (h : (text (.obj node)).isSome) :
    Typed .proofError (checkStatusInPlace what node) := by
  have hstatus : (text (node.get credentialStatus)).isSome := by
    rw [Dict.get]
    cases hget : node.get? credentialStatus with
    | none => rfl
    | some v => exact isSome_text_obj.mp h _ (Dict.mem_of_get?_eq_some hget)
  refine RaisesOnly.bind (typed_collectStatusEntries _ [] hstatus) fun entries _ => ?_
  split
  · exact raisesOnly_ok
  · refine RaisesOnly.bind (typed_collectDescribedElsewhere _ true false [] h) fun moved _ => ?_
    exact typed_raiseIf rfl

end Walks

/-! ## The compacted form -/

variable {L : JsonLd} {what : Str} {document : Dict}

/-- What an accepted document has shown: it has one node, of which the dataset drops nothing, it is the
compacted form of that node, and the status entries of the node are described in their place. -/
structure Compacted (L : JsonLd) (what : Str) (document node : Dict) : Prop where
  expand : L.expand document = .ok [.obj node]
  expanded : checkExpanded what (node.get "@id") true (.obj node) = .ok ()
  compact : ∃ context compacted form, document.get? "@context" = some context ∧
    L.compact [.obj node] context = .ok compacted ∧ canonical (.obj compacted) = some form ∧
    canonical (.obj document) = some form
  inPlace : checkStatusInPlace what node = .ok ()

theorem validating_eq_ok {α : Type} {x : Result α} {a : α} :
    validating what x = .ok a ↔ x = .ok a := by
  rw [validating, tryExcept_eq_ok]
  constructor
  · rintro (h | ⟨e, -, -, h⟩)
    · exact h
    · cases h
  · exact .inl

theorem onlyNode_eq_some {l : List Json} {node : Dict} : onlyNode l = some node ↔ l = [.obj node] := by
  unfold onlyNode
  split
  · simp
  · rename_i h
    exact ⟨nofun, fun heq => absurd heq (h node)⟩

/-- What the guarded block has computed. -/
theorem comparison_eq_ok {c : Comparison} (h : comparison L what document = .ok c) :
    L.expand document = .ok [.obj c.node] ∧
      checkExpanded what (c.node.get "@id") true (.obj c.node) = .ok () ∧
      ∃ context compacted theirs ours, document.get? "@context" = some context ∧
        L.compact [.obj c.node] context = .ok compacted ∧ canonical (.obj compacted) = some theirs ∧
        canonical (.obj document) = some ours ∧ (c.difference = none → theirs = ours) := by
  simp only [comparison, bind_eq_ok, imported_eq_ok, orRaise_eq_ok, onlyNode_eq_some,
    canonicalOrRaise_eq_ok] at h
  obtain ⟨-, hexpand, node, rfl, ⟨⟩, hchecked, context, hcontext, compacted, hcompact, theirs,
    htheirs, ours, hours, h⟩ := h
  split at h
  · cases h
    exact ⟨hexpand, hchecked, context, compacted, theirs, ours, hcontext, hcompact, htheirs, hours,
      fun h => absurd h (Option.some_ne_none _)⟩
  · rename_i hsame
    simp only [bind_eq_ok, pure_eq_ok] at h
    obtain ⟨stubbed, -, index, -, signed, -, rfl⟩ := h
    exact ⟨hexpand, hchecked, context, compacted, theirs, ours, hcontext, hcompact, htheirs, hours,
      fun _ => not_not.mp hsame⟩

theorem compacted_of_checkCompacted (h : checkCompacted L what document = .ok ()) :
    ∃ node, Compacted L what document node := by
  simp only [checkCompacted, bind_eq_ok, raiseIf_eq_ok, validating_eq_ok] at h
  obtain ⟨c, hc, ⟨⟩, hsame, -, -, -, -, hplace⟩ := h
  obtain ⟨hexpand, hchecked, context, compacted, theirs, ours, hcontext, hcompact, htheirs, hours,
    heq⟩ := comparison_eq_ok hc
  have hnone : c.difference = none := by simpa using hsame
  exact ⟨c.node, hexpand, hchecked,
    ⟨context, compacted, ours, hcontext, hcompact, heq hnone ▸ htheirs, hours⟩, hplace⟩

/-- What `validate_document` accepts are two documents in compacted form. -/
theorem compacted_of_validateDocument {unsecured proofConfig : Dict}
    (h : L.validateDocument unsecured proofConfig = .ok ()) :
    checkContext (unsecured.get "@context") = .ok () ∧
      (∃ node, Compacted L "document" (withoutEmbedded unsecured) node) ∧
      ∃ node, Compacted L "proof" proofConfig node := by
  simp only [JsonLd.validateDocument, bind_eq_ok] at h
  obtain ⟨⟨⟩, hcontext, ⟨⟩, hdocument, hproof⟩ := h
  exact ⟨hcontext, compacted_of_checkCompacted hdocument, compacted_of_checkCompacted hproof⟩

/-! ## Typed failure -/

/-- The guard leaves `ProofError`s alone and turns the rest into one. -/
theorem typed_validating {α : Type} (x : Result α) : Typed .proofError (validating what x) := by
  refine raisesOnly_tryExcept.mpr fun e _ => ?_
  change if _ then _ else _
  by_cases hcls : e.cls.isa .proofError = true
  · rw [if_neg (by simpa using hcls)]
    exact hcls
  · rw [if_pos (by simpa using hcls)]
    exact typed_raise rfl

theorem typed_checkContext (context : Json) : Typed .proofError (checkContext context) := by
  unfold checkContext
  split
  · exact typed_raise rfl
  · refine (typed_raiseIf rfl).bind fun _ _ => ?_
    refine (typed_raiseIf rfl).bind fun _ _ => ?_
    refine RaisesOnly.each fun entry _ => ?_
    unfold checkEntry
    split
    · exact raisesOnly_ok
    · exact (typed_orRaise rfl).bind fun _ _ => typed_raiseIf rfl

theorem typed_checkCompacted (hL : L.KeepsNumbers) (what : Str) (document : Dict) :
    Typed .proofError (checkCompacted L what document) := by
  refine (typed_validating _).bind fun c hc => ?_
  refine (typed_raiseIf rfl).bind fun _ _ => ?_
  refine (typed_raiseIf rfl).bind fun _ _ => ?_
  refine (typed_raiseIf rfl).bind fun _ _ => ?_
  -- the node is of a document that was written
  obtain ⟨hexpand, -, -, -, -, ours, -, -, -, hours, -⟩ :=
    comparison_eq_ok (validating_eq_ok.mp hc)
  have hdocument := isSome_canonical.mp (Option.isSome_of_eq_some hours)
  exact typed_checkStatusInPlace what (hL _ _ hexpand hdocument _ List.mem_cons_self)

/-- `validate_document` refuses with a `ProofError`. -/
theorem typed_validateDocument (hL : L.KeepsNumbers) (unsecured proofConfig : Dict) :
    Typed .proofError (L.validateDocument unsecured proofConfig) := by
  refine (typed_checkContext _).bind fun _ _ => ?_
  refine (typed_checkCompacted hL _ _).bind fun _ _ => ?_
  exact typed_checkCompacted hL _ _

end ContextValidation

end OpenVC
