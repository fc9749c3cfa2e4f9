import OpenVC.Proof.EcdsaSdIssue
import OpenVC.Proof.Proofs.ProofValueProofs
import OpenVC.Proof.Proofs.RelabelProofs
import OpenVC.Proof.Proofs.ValidateDocumentProofs

/-!
# The lines of a credential with an `ecdsa-sd-2023` proof

The issuer, the holder and the verifier each sort the statements of another document, with labels that
come from another canonicalization. What they agree on is what a set of lines and the labels of the
issuer determine.
-/

namespace OpenVC

open Python NQuads

namespace NQuads

theorem Term.rename_congr {f g : BlankNode → BlankNode} {t : Term}
    (h : ∀ b ∈ t.nodes, f b = g b) : t.rename f = t.rename g := by
  cases t with
  | blank b => exact congrArg Term.blank (h b List.mem_cons_self)
  | _ => rfl

theorem Line.rename_congr {f g : BlankNode → BlankNode} {l : Line}
    (h : ∀ b ∈ l.nodes, f b = g b) : l.rename f = l.rename g := by
  have hsubject : l.subject.rename f = l.subject.rename g :=
    Term.rename_congr fun b hb => h b (by simp [Line.nodes, hb])
  have hobject : l.object.rename f = l.object.rename g :=
    Term.rename_congr fun b hb => h b (by simp [Line.nodes, hb])
  have hgraph : (l.graph.map fun t => (t.1.rename f, t.2)) =
      l.graph.map fun t => (t.1.rename g, t.2) := by
    cases hg : l.graph with
    | none => rfl
    | some t =>
      have ht : t.1.rename f = t.1.rename g :=
        Term.rename_congr fun b hb => h b (by simp [Line.nodes, hg, hb])
      rw [Option.map_some, Option.map_some, ht]
  exact Line.ext rfl hsubject rfl rfl rfl hobject rfl hgraph rfl

theorem Line.rename_rename (f g : BlankNode → BlankNode) (l : Line) :
    (l.rename f).rename g = l.rename fun b => g (f b) := by
  have hterm : ∀ t : Term, (t.rename f).rename g = t.rename fun b => g (f b) := by
    intro t
    cases t <;> rfl
  refine Line.ext rfl (hterm _) rfl rfl rfl (hterm _) rfl ?_ rfl
  change (l.graph.map _).map _ = l.graph.map _
  rw [Option.map_map]
  exact Option.map_congr fun t _ => Prod.ext (hterm t.1) rfl

end NQuads

namespace EcdsaSd

/-! ## Sorted lines -/

theorem mem_sorted {x : Str} {lines : List Str} : x ∈ sorted lines ↔ x ∈ lines :=
  List.mem_insertionSort _

theorem sortedLE_sorted (lines : List Str) : (sorted lines).SortedLE :=
  List.sortedLE_insertionSort

theorem sortedLE_filter {l : List Str} (h : l.SortedLE) (p : Str → Bool) : (l.filter p).SortedLE :=
  (h.pairwise.filter p).sortedLE

/-! ## The canonicalizer -/

/-- The lines of an N-Quads text. -/
def Reads (text : Str) (lines : List Line) : Prop :=
  (Str.split 10 text).filter (!·.isEmpty) = lines.map Line.text

/-- What the canonicalizer gives for a text: its lines, each once, with canonical labels for their blank
nodes, and the map of the labels. -/
structure Canonicalizes (P : Pyld) (text : Str) (lines : List Line) (ids : LabelMap) : Prop where
  reads : Reads text lines
  existing : P.existing text = ids.entries
  keys : (ids.map Prod.fst).Nodup
  nodes : ∀ b, b ∈ ids.map Prod.fst ↔ ∃ l ∈ lines, b ∈ l.nodes
  labels : (ids.map fun e => e.2.label).Perm
    ((List.range ids.length).map fun n => lit "c14n" ++ Str.ofNat n)
  canonical : ∃ out, P.canonical text = .ok out ∧
    ((Str.split 10 out).filter (!·.isEmpty)).Perm (lines.map fun l => (l.rename ids.node).text).dedup

theorem lookup_graph {α β γ : Type} [BEq α] [LawfulBEq α] (f : β → α) (g : α → γ) {l : List β} {a : α}
    (h : a ∈ l.map f) : List.lookup a (l.map fun e => (f e, g (f e))) = some (g a) := by
  induction l with
  | nil => cases h
  | cons e l ih =>
    rw [List.map_cons, List.lookup_cons]
    by_cases he : a = f e
    · rw [he, beq_self_eq_true]
    · rw [beq_false_of_ne he]
      exact ih ((List.mem_cons.mp h).resolve_left he)

theorem exists_lookup {α β : Type} [BEq α] [LawfulBEq α] {l : List (α × β)} {a : α}
    (h : a ∈ l.map Prod.fst) : ∃ b, List.lookup a l = some b := by
  rw [← Option.isSome_iff_exists, List.lookup_isSome_iff]
  obtain ⟨e, he, rfl⟩ := List.mem_map.mp h
  exact ⟨e, he, beq_self_eq_true _⟩

/-! ## Blinded labels -/

theorem isLabelText_hmacLabel (hmac : Hmac) (hmacKey : Bytes) (label : Str) :
    isLabelText (hmacLabel hmac hmacKey label) = true := by
  have hchar : ∀ n < 64, isInner (Codec.b64Char n) = true ∧ Codec.b64Char n ≠ 46 := by decide
  have hmem : ∀ c ∈ Codec.b64urlEncode (hmac hmacKey label), isInner c = true ∧ c ≠ 46 := by
    intro c hc
    obtain ⟨n, hn, rfl⟩ := Codec.lt_of_mem_b64urlEncode hc
    exact hchar n hn
  have hlast : (117 :: Codec.b64urlEncode (hmac hmacKey label)).getLast? ≠ some 46 := by
    intro hlast
    rcases List.mem_cons.mp (List.mem_of_getLast? hlast) with h | h
    · cases h
    · exact (hmem 46 h).2 rfl
  rw [hmacLabel, mbEncode, isLabelText, Bool.and_eq_true, Bool.and_eq_true]
  refine ⟨⟨rfl, List.all_eq_true.mpr fun c hc => (hmem c hc).1⟩, ?_⟩
  exact bne_iff_ne.mpr hlast

/-- The blank node whose label is the blinded one. -/
def blindNode (hmac : Hmac) (hmacKey : Bytes) (b : BlankNode) : BlankNode :=
  ⟨hmacLabel hmac hmacKey b.label, isLabelText_hmacLabel hmac hmacKey b.label⟩

/-- The map from the labels of a text to the blinded ones. -/
def LabelMap.blind (hmac : Hmac) (hmacKey : Bytes) (ids : LabelMap) : LabelMap :=
  ids.map fun e => (e.1, blindNode hmac hmacKey e.2)

/-- The map from the canonical labels to the blinded ones. -/
def LabelMap.blindCanonical (hmac : Hmac) (hmacKey : Bytes) (ids : LabelMap) : LabelMap :=
  ids.map fun e => (e.2, blindNode hmac hmacKey e.2)

section Blind

variable {hmac : Hmac} {hmacKey : Bytes} {ids : LabelMap} {b : BlankNode}

theorem entries_blind : (ids.blind hmac hmacKey).entries =
    ids.entries.map fun e => (e.1, blinded hmac hmacKey e.2) := by
  rw [LabelMap.blind, LabelMap.entries, LabelMap.entries, List.map_map, List.map_map]
  rfl

theorem entries_blindCanonical : (ids.blindCanonical hmac hmacKey).entries =
    ids.entries.map fun e => (e.2, blinded hmac hmacKey e.2) := by
  rw [LabelMap.blindCanonical, LabelMap.entries, LabelMap.entries, List.map_map, List.map_map]
  rfl

theorem LabelMap.node_mem (h : b ∈ ids.map Prod.fst) : (b, ids.node b) ∈ ids := by
  obtain ⟨c, hc⟩ := exists_lookup h
  rw [LabelMap.node, hc]
  exact mem_of_lookup hc

theorem LabelMap.node_blind (h : b ∈ ids.map Prod.fst) :
    (ids.blind hmac hmacKey).node b = blindNode hmac hmacKey (ids.node b) := by
  obtain ⟨c, hc⟩ := exists_lookup h
  rw [LabelMap.node, LabelMap.blind, lookup_map_snd, LabelMap.node, hc]
  rfl

theorem LabelMap.node_blindCanonical (h : b ∈ ids.map Prod.fst) :
    (ids.blindCanonical hmac hmacKey).node (ids.node b) =
      (ids.blind hmac hmacKey).node b := by
  have hmem : ids.node b ∈ ids.map Prod.snd := List.mem_map_of_mem (LabelMap.node_mem h)
  rw [LabelMap.node_blind h, LabelMap.node, LabelMap.blindCanonical,
    lookup_graph Prod.snd (blindNode hmac hmacKey) hmem]
  rfl

end Blind

section Canonical

variable {P : Pyld} {text : Str} {lines : List Line} {ids : LabelMap}

theorem Canonicalizes.mem_keys (h : Canonicalizes P text lines ids) {l : Line} (hl : l ∈ lines)
    {b : BlankNode} (hb : b ∈ l.nodes) : b ∈ ids.map Prod.fst :=
  (h.nodes b).mpr ⟨l, hl, hb⟩

theorem Canonicalizes.nodup_labels (h : Canonicalizes P text lines ids) :
    (ids.map Prod.snd).Nodup := by
  have hnodup : (ids.map fun e => e.2.label).Nodup := by
    rw [h.labels.nodup_iff]
    refine List.nodup_range.map fun m n hmn => ?_
    exact Str.ofNat_injective (List.append_cancel_left hmn)
  refine List.Nodup.of_map BlankNode.label ?_
  rwa [List.map_map]

theorem Canonicalizes.node_injOn (h : Canonicalizes P text lines ids) {b b' : BlankNode}
    (hb : b ∈ ids.map Prod.fst) (hb' : b' ∈ ids.map Prod.fst) (heq : ids.node b = ids.node b') :
    b = b' :=
  congrArg Prod.fst (List.inj_on_of_nodup_map h.nodup_labels (LabelMap.node_mem hb)
    (LabelMap.node_mem hb') heq)

/-- The statements of a canonicalized text, each once, as a relabelling writes them. -/
def relabelledTexts (lines : List Line) (ids m : LabelMap) : List Str :=
  (lines.map fun l => (l.rename ids.node).text).dedup.map (relabelLine m.entries 0)

/-- The relabelled canonical lines are those texts, sorted. -/
theorem Canonicalizes.relabelled (h : Canonicalizes P text lines ids) {out : Str}
    (hout : P.canonical text = .ok out) (m : LabelMap) :
    (relabel (canonicalLines out) m.entries).SortedLE ∧
      (relabel (canonicalLines out) m.entries).Perm (relabelledTexts lines ids m) := by
  obtain ⟨out', hout', hperm⟩ := h.canonical
  cases hout.symm.trans hout'
  have hsorted : (canonicalLines out).Perm (lines.map fun l => (l.rename ids.node).text).dedup :=
    (List.perm_insertionSort _ _).trans hperm
  exact ⟨sortedLE_sorted _, (List.perm_insertionSort _ _).trans (hsorted.map _)⟩

/-- When the pattern finds the blank nodes, a line is written under the composed labels. -/
theorem Canonicalizes.relabelLine_eq (h : Canonicalizes P text lines ids) {m : LabelMap}
    {f : BlankNode → BlankNode} (hfound : ∀ l ∈ lines, Found m (l.rename ids.node))
    (hm : ∀ b ∈ ids.map Prod.fst, m.node (ids.node b) = f b) :
    ∀ l ∈ lines, relabelLine m.entries 0 (l.rename ids.node).text = (l.rename f).text := by
  intro l hl
  rw [relabelLine_of_found (hfound l hl), Line.rename_rename]
  exact congrArg Line.text (Line.rename_congr fun b hb => hm b (h.mem_keys hl hb))

/-- The texts are then those of the lines. -/
theorem Canonicalizes.mem_relabelledTexts (h : Canonicalizes P text lines ids) {m : LabelMap}
    {f : BlankNode → BlankNode} (hfound : ∀ l ∈ lines, Found m (l.rename ids.node))
    (hm : ∀ b ∈ ids.map Prod.fst, m.node (ids.node b) = f b) {x : Str} :
    x ∈ relabelledTexts lines ids m ↔ ∃ l ∈ lines, x = (l.rename f).text := by
  have hline := h.relabelLine_eq hfound hm
  rw [relabelledTexts, List.mem_map]
  constructor
  · rintro ⟨y, hy, rfl⟩
    obtain ⟨l, hl, rfl⟩ := List.mem_map.mp (List.mem_dedup.mp hy)
    exact ⟨l, hl, hline l hl⟩
  · rintro ⟨l, hl, rfl⟩
    exact ⟨_, List.mem_dedup.mpr (List.mem_map_of_mem hl), hline l hl⟩

/-- Each of them is there once when the composed labels are kept apart. -/
theorem Canonicalizes.nodup_relabelledTexts (h : Canonicalizes P text lines ids) {m : LabelMap}
    {f : BlankNode → BlankNode} (hfound : ∀ l ∈ lines, Found m (l.rename ids.node))
    (hm : ∀ b ∈ ids.map Prod.fst, m.node (ids.node b) = f b)
    (hf : ∀ b ∈ ids.map Prod.fst, ∀ b' ∈ ids.map Prod.fst, f b = f b' → b = b') :
    (relabelledTexts lines ids m).Nodup := by
  have hline := h.relabelLine_eq hfound hm
  refine (List.nodup_dedup _).map_on fun x hx y hy hxy => ?_
  obtain ⟨l, hl, rfl⟩ := List.mem_map.mp (List.mem_dedup.mp hx)
  obtain ⟨l', hl', rfl⟩ := List.mem_map.mp (List.mem_dedup.mp hy)
  rw [hline l hl, hline l' hl'] at hxy
  rw [Line.rename_injOn (fun b hb b' hb' => hf b (h.mem_keys hl hb) b' (h.mem_keys hl' hb'))
    (text_injective hxy)]

end Canonical

/-! ## Indexes and signatures of lines -/

theorem contains_indexesIn {lines selected : List Str} {p : Str × Nat} (hp : p ∈ lines.zipIdx) :
    (indexesIn lines selected).contains p.2 = selected.contains p.1 := by
  rw [Bool.eq_iff_iff, List.contains_iff_mem, indexesIn, List.mem_map]
  constructor
  · rintro ⟨q, hq, hindex⟩
    rw [List.mem_filter] at hq
    have hp' := List.mem_zipIdx_iff_getElem?.mp hp
    have hq' := List.mem_zipIdx_iff_getElem?.mp hq.1
    rw [hindex, hp'] at hq'
    exact Option.some.inj hq' ▸ hq.2
  · intro hcontains
    exact ⟨p, List.mem_filter.mpr ⟨hp, hcontains⟩, rfl⟩

theorem map_fst_filter_zipIdx (lines : List Str) (p : Str → Bool) :
    (lines.zipIdx.filter fun e => p e.1).map Prod.fst = lines.filter p := by
  have hfst : lines.zipIdx.map Prod.fst = lines := List.zipIdx_map_fst 0 lines
  conv_rhs => rw [← hfst]
  rw [List.filter_map]
  rfl

/-- The lines at the indexes of the given ones, and the others. -/
theorem linesAt_indexesIn (lines selected : List Str) :
    linesAt lines (indexesIn lines selected).contains = lines.filter selected.contains ∧
      linesAt lines (!(indexesIn lines selected).contains ·) =
        lines.filter (!selected.contains ·) := by
  rw [← map_fst_filter_zipIdx, ← map_fst_filter_zipIdx]
  constructor
  · refine congrArg _ (List.filter_congr fun p hp => ?_)
    exact contains_indexesIn hp
  · refine congrArg _ (List.filter_congr fun p hp => ?_)
    exact congrArg (!·) (contains_indexesIn hp)

theorem mem_indexesIn_lt {lines selected : List Str} {i : Nat} (h : i ∈ indexesIn lines selected) :
    i < lines.length := by
  obtain ⟨p, hp, rfl⟩ := List.mem_map.mp h
  exact List.snd_lt_of_mem_zipIdx (List.mem_filter.mp hp).1

theorem length_indexesIn_le (lines selected : List Str) :
    (indexesIn lines selected).length ≤ lines.length := by
  rw [indexesIn, List.length_map]
  exact (List.length_filter_le _ _).trans_eq List.length_zipIdx

theorem lookup_of_unique {α β : Type} [BEq α] [LawfulBEq α] {l : List (α × β)} {a : α} {b : β}
    (h : ∀ c, (a, b) ∈ l → (a, c) ∈ l → b = c) : List.lookup a l = some b ↔ (a, b) ∈ l := by
  refine ⟨mem_of_lookup, fun hmem => ?_⟩
  obtain ⟨c, hc⟩ := exists_lookup (List.mem_map_of_mem (f := Prod.fst) hmem)
  rw [hc, h c hmem (mem_of_lookup hc)]

theorem lookup_eq_some_iff {α β : Type} [BEq α] [LawfulBEq α] {l : List (α × β)}
    (h : (l.map Prod.fst).Nodup) {a : α} {b : β} : List.lookup a l = some b ↔ (a, b) ∈ l :=
  lookup_of_unique fun _ hb hc => (Prod.mk.inj (List.inj_on_of_nodup_map h hb hc rfl)).2

/-- The lines that `derive_proof` looks up get the signatures the issuer made for them. -/
theorem collect_signatureOf {lines selected base : List Str} {signatures found : List Bytes}
    (hunique : ∀ line sig sig', (line, sig) ∈ base.zip signatures →
      (line, sig') ∈ base.zip signatures → sig = sig') :
    collect (signatureOf (base.zip signatures).reverse)
        (lines.zipIdx.filter fun e => !(indexesIn lines selected).contains e.2) = .ok found ↔
      List.Forall₂ (fun line sig => (line, sig) ∈ base.zip signatures)
        (lines.filter (!selected.contains ·)) found := by
  have hfilter : (lines.zipIdx.filter fun e => !(indexesIn lines selected).contains e.2) =
      lines.zipIdx.filter fun e => !selected.contains e.1 :=
    List.filter_congr fun p hp => by rw [contains_indexesIn hp]
  rw [collect_eq_ok, hfilter, ← map_fst_filter_zipIdx, List.forall₂_map_left_iff]
  have hiff : ∀ (e : Str × Nat) (sig : Bytes),
      signatureOf (base.zip signatures).reverse e = .ok sig ↔ (e.1, sig) ∈ base.zip signatures := by
    intro e sig
    rw [signatureOf, orRaise_eq_ok, lookup_of_unique, List.mem_reverse]
    intro sig' hsig hsig'
    exact hunique e.1 sig sig' (List.mem_reverse.mp hsig) (List.mem_reverse.mp hsig')
  simp only [hiff]

theorem utf8_eq_ok {text : Str} {e : ErrorClass} {what : String} {data : Bytes} :
    utf8 text e what = .ok data ↔ Codec.encodeUtf8 text = some data := orRaise_eq_ok

theorem pyld_eq_ok {α : Type} {x : Except JsonLdError α} {a : α} : pyld x = .ok a ↔ x = .ok a := by
  unfold pyld
  split
  · rw [Except.ok.injEq, Except.ok.injEq]
  · exact ⟨nofun, nofun⟩
  · exact ⟨nofun, nofun⟩
  · exact ⟨nofun, nofun⟩

theorem processed_eq_ok {x : Except JsonLdError Str} {text : Str} :
    processed x = .ok text ↔ x = .ok text := by
  unfold processed
  split
  · rw [Except.ok.injEq, Except.ok.injEq]
  · exact ⟨nofun, nofun⟩
  · exact ⟨nofun, nofun⟩
  · exact ⟨nofun, nofun⟩

theorem canonicalizing_eq_ok {α : Type} {x : Result α} {a : α} :
    canonicalizing x = .ok a ↔ x = .ok a := by
  rw [canonicalizing, tryExcept_eq_ok]
  constructor
  · rintro (h | ⟨e, -, -, h⟩)
    · exact h
    · cases h
  · exact .inl

theorem relabel_congr {m m' : List (Str × Str)} (h : ∀ k, List.lookup k m = List.lookup k m')
    (lines : List Str) : relabel lines m = relabel lines m' := by
  have hline : ∀ (s : Str) (k : Nat), relabelLine m k s = relabelLine m' k s := by
    intro s
    induction s with
    | nil =>
      intro k
      cases k <;> rfl
    | cons a t ih =>
      intro k
      cases k with
      | succ k => exact ih k
      | zero =>
        rw [relabelLine, relabelLine]
        cases labelAt (a :: t) with
        | none => exact congrArg (a :: ·) (ih 0)
        | some label =>
          change (List.lookup label m).getD label ++ _ = (List.lookup label m').getD label ++ _
          rw [h label, ih]
  rw [relabel, relabel]
  exact congrArg sorted (List.map_congr_left fun l _ => hline l 0)

/-! ## What is issued -/

/-- What `add_base_proof` computed of a credential that it accepted. -/
structure Issued (C : Crypto) (P : Pyld) (hmac : Hmac) (credential : Dict) (a : BaseArgs)
    (secured : Dict) where
  created : Str
  base : BaseStatements
  signatures : List Bytes
  baseSignature : Bytes
  proofValue : Str
  unproven : credential.has "proof" = false
  created_eq : a.created = .ok created
  base_eq : baseStatements C P hmac credential (baseProof a created) a.mandatoryPointers a.hmacKey =
    .ok base
  signatures_eq : collect (signStatement a.ephemeral) base.nonMandatory = .ok signatures
  baseSignature_eq : a.signingKey.sign
    (base.proofHash ++ a.ephemeral.publicKey ++ base.mandatoryHash) = .ok baseSignature
  proofValue_eq : encodeBaseProof
    ⟨baseSignature, a.ephemeral.publicKey, a.hmacKey, signatures, a.mandatoryPointers⟩ =
    .ok proofValue
  secured_eq : secured = credential.set "proof"
    (.obj ((baseProof a created).set "proofValue" (.str proofValue)))

section Issuing

variable {C : Crypto} {P : Pyld} {hmac : Hmac} {credential secured : Dict} {a : BaseArgs}

theorem issued_of_addBaseProof (h : addBaseProof C P hmac credential a = .ok secured) :
    Nonempty (Issued C P hmac credential a secured) := by
  simp only [addBaseProof, bind_eq_ok, raiseIf_eq_ok, pure_eq_ok, canonicalizing_eq_ok] at h
  obtain ⟨⟨⟩, -, ⟨⟩, -, ⟨⟩, hunproven, created, hcreated, base, hbase, signatures, hsignatures,
    baseSignature, hsign, proofValue, hvalue, rfl⟩ := h
  exact ⟨⟨created, base, signatures, baseSignature, proofValue, hunproven, hcreated, hbase,
    hsignatures, hsign, hvalue, rfl⟩⟩

theorem proof?_parts (p : BaseProof) : p.parts.proof? = some p := by
  have hbytes : arrayOf bytes? (.arr (p.signatures.map .bytes)) = some p.signatures :=
    arrayOf_map (f := bytes?) (g := .bytes) (fun _ => rfl) _
  have htexts : arrayOf text? (.arr (p.mandatoryPointers.map .text)) = some p.mandatoryPointers :=
    arrayOf_map (f := text?) (g := .text) (fun _ => rfl) _
  change ((arrayOf bytes? (.arr (p.signatures.map .bytes))).bind fun signatures =>
    (arrayOf text? (.arr (p.mandatoryPointers.map .text))).bind fun mandatoryPointers =>
      some (BaseProof.mk p.baseSignature p.publicKey p.hmacKey signatures mandatoryPointers)) = some p
  rw [hbytes, htexts]
  rfl

theorem proofValue_not_mem (created : Str) : lit "proofValue" ∉ (baseProof a created).keys := by
  change lit "proofValue" ∉
    [lit "type", lit "cryptosuite", lit "created", lit "verificationMethod", lit "proofPurpose"]
  decide

theorem erase_set {d : Dict} {k : Str} (h : k ∉ d.keys) (v : Json) : (d.set k v).erase k = d := by
  rw [Dict.set_of_not_mem h, Dict.erase, List.filter_append]
  have hlast : ([(k, v)] : List (Str × Json)).filter (fun p => p.1 ≠ k) = [] := by simp
  rw [hlast, List.append_nil]
  exact Dict.erase_of_not_mem h

theorem not_mem_keys_of_has {d : Dict} {k : Str} (h : d.has k = false) : k ∉ d.keys := by
  intro hk
  rw [Dict.has_iff.mpr hk] at h
  cases h

/-- `derive_proof` on what `add_base_proof` returned. -/
theorem Issued.deriveProof_eq_ok (I : Issued C P hmac credential a secured)
    {intOther : Str → Option Int} {selective : List Str} {derived : Dict} :
    deriveProof P hmac intOther secured selective = .ok derived ↔ ∃ d signatures proofValue,
      disclosure P hmac credential ⟨I.baseSignature, a.ephemeral.publicKey, a.hmacKey, I.signatures,
        a.mandatoryPointers⟩ (combinedPointers a.mandatoryPointers selective) = .ok d ∧
      collect (signatureOf d.sigByLine)
        (d.view.relabeled.zipIdx.filter fun e => !d.view.mandatoryIdx.contains e.2) =
        .ok signatures ∧
      encodeDerivedProof intOther ⟨I.baseSignature, a.ephemeral.publicKey, signatures,
        d.view.labelMap, d.view.mandatoryIdx.map Int.ofNat⟩ = .ok proofValue ∧
      derived = d.reveal.set "proof"
        (.obj ((baseProof a I.created).set "proofValue" (.str proofValue))) := by
  have hunproven := not_mem_keys_of_has I.unproven
  have hnone := proofValue_not_mem (a := a) I.created
  have herase : secured.erase "proof" = credential := by
    rw [I.secured_eq]
    exact erase_set hunproven _
  have hproof : secured.get "proof" =
      .obj ((baseProof a I.created).set "proofValue" (.str I.proofValue)) := by
    refine (congrArg (Dict.get · "proof") I.secured_eq).trans ?_
    change (Dict.get? (Dict.set _ _ _) _).getD _ = _
    rw [Dict.get?_set, if_pos rfl]
    rfl
  have hsuite : Json.pyEq
      (Dict.get ((baseProof a I.created).set "proofValue" (.str I.proofValue)) "cryptosuite")
      (.str cryptosuite) = true := by
    have hget : Dict.get ((baseProof a I.created).set "proofValue" (.str I.proofValue))
        "cryptosuite" = .str cryptosuite := by
      rw [Dict.set_of_not_mem hnone]
      rfl
    rw [hget]
    decide
  have hvalue : Dict.get? ((baseProof a I.created).set "proofValue" (.str I.proofValue))
      "proofValue" = some (.str I.proofValue) := by
    rw [Dict.get?_set, if_pos rfl]
  have hparts := decodeBaseProof_encode I.proofValue_eq
  have htyped := proof?_parts
    ⟨I.baseSignature, a.ephemeral.publicKey, a.hmacKey, I.signatures, a.mandatoryPointers⟩
  have hbare : Dict.set (Dict.erase ((baseProof a I.created).set "proofValue" (.str I.proofValue))
      "proofValue") "proofValue" = (baseProof a I.created).set "proofValue" := by
    rw [erase_set hnone]
  simp only [deriveProof, bind_eq_ok, orRaise_eq_ok, raiseIf_eq_ok, pure_eq_ok,
    canonicalizing_eq_ok, herase, hproof]
  constructor
  · rintro ⟨proof, hobj, ⟨⟩, -, v, hv, text, htext, parts, hdecode, base, hbase, d, hd, signatures,
      hcollect, proofValue, hencode, rfl⟩
    cases hobj
    cases hvalue.symm.trans hv
    cases htext
    cases hparts.symm.trans hdecode
    cases htyped.symm.trans hbase
    rw [hbare]
    exact ⟨d, signatures, proofValue, hd, hcollect, hencode, rfl⟩
  · rintro ⟨d, signatures, proofValue, hd, hcollect, hencode, rfl⟩
    refine ⟨_, rfl, (), ?_, _, hvalue, _, rfl, _, hparts, _, htyped, d, hd, signatures, hcollect,
      proofValue, hencode, ?_⟩
    · rw [hsuite]
      rfl
    · rw [hbare]

end Issuing

/-! ## The documents of one credential -/

/-- The labels that the holder puts on the canonical blank nodes of the reveal document. -/
def chained (hmac : Hmac) (hmacKey : Bytes) (ids revealIds : LabelMap) : LabelMap :=
  revealIds.map fun e => (e.2, (ids.blind hmac hmacKey).node e.1)

/-- What `pyld` gives for a credential, for what the pointers select of it and for what is revealed: the
lines of each and the labels of their blank nodes. HMAC keeps the canonical labels apart. -/
structure Setting (P : Pyld) (hmac : Hmac) (hmacKey : Bytes) (credential : Dict)
    (mandatory selective : List Str) where
  expanded : List Json
  compacted : Dict
  nquads : Str
  expand : P.expand credential = .ok expanded
  compact : P.compact (skolemizeList expanded 0).1 (credential.get "@context") = .ok compacted
  toRdf : P.toRdfExpanded (skolemizeList expanded 0).1 = .ok nquads
  /-- The lines of the credential, its blank nodes under the labels of skolemization. -/
  document : List Line
  ids : LabelMap
  canonical : Canonicalizes P (deskolemizeNquads 0 nquads) document ids
  /-- The lines that the mandatory pointers select. -/
  required : List Line
  required_nil : mandatory = [] → required = []
  required_reads : mandatory ≠ [] → ∃ selection text,
    selectionOf mandatory compacted = .ok selection ∧ P.toRdf selection = .ok text ∧
      Reads (deskolemizeNquads 0 text) required
  /-- What all the pointers select, and its lines. -/
  selection : Dict
  selectionText : Str
  selected : List Line
  selects : selectionOf (combinedPointers mandatory selective) compacted = .ok selection
  selection_toRdf : P.toRdf selection = .ok selectionText
  selected_reads : Reads (deskolemizeNquads 0 selectionText) selected
  /-- The lines of the reveal document, under the labels that `to_rdf` gave its blank nodes. -/
  revealed : List Line
  revealIds : LabelMap
  revealText : Str
  reveal_toRdf : P.toRdf (deskolemizeMembers selection) = .ok revealText
  reveal_canonical : Canonicalizes P revealText revealed revealIds
  apart : ∀ e ∈ ids, ∀ e' ∈ ids, hmac hmacKey e.2.label = hmac hmacKey e'.2.label →
    e.2.label = e'.2.label
  digests : ∀ e ∈ ids, (hmac hmacKey e.2.label).length < 2 ^ 64
  fits : revealed.length < 2 ^ 64 ∧ revealIds.length < 2 ^ 64

namespace Setting

variable {P : Pyld} {hmac : Hmac} {hmacKey : Bytes} {credential : Dict}
  {mandatory selective : List Str}

/-- The reveal document. -/
def reveal (S : Setting P hmac hmacKey credential mandatory selective) : Dict :=
  deskolemizeMembers S.selection

/-- The name under which a blank node is signed. -/
def name (S : Setting P hmac hmacKey credential mandatory selective) : BlankNode → BlankNode :=
  (S.ids.blind hmac hmacKey).node

/-- The statements of the credential, each once, as the issuer signs them. -/
def signedTexts (S : Setting P hmac hmacKey credential mandatory selective) : List Str :=
  relabelledTexts S.document S.ids (S.ids.blindCanonical hmac hmacKey)

/-- The mandatory statements, and all that the pointers select, as they are looked up among them. -/
def requiredTexts (S : Setting P hmac hmacKey credential mandatory selective) : List Str :=
  S.required.map fun l => relabelLine (S.ids.blind hmac hmacKey).entries 0 l.text

def selectedTexts (S : Setting P hmac hmacKey credential mandatory selective) : List Str :=
  S.selected.map fun l => relabelLine (S.ids.blind hmac hmacKey).entries 0 l.text

/-- The statements of the reveal document, each once, as the holder and the verifier write them. -/
def revealedTexts (S : Setting P hmac hmacKey credential mandatory selective) : List Str :=
  relabelledTexts S.revealed S.revealIds (chained hmac hmacKey S.ids S.revealIds)

variable (S : Setting P hmac hmacKey credential mandatory selective)

theorem name_injOn {b b' : BlankNode} (hb : b ∈ S.ids.map Prod.fst)
    (hb' : b' ∈ S.ids.map Prod.fst) (h : S.name b = S.name b') : b = b' := by
  rw [name, LabelMap.node_blind hb, LabelMap.node_blind hb'] at h
  have hdigest := mbEncode_injective (congrArg BlankNode.label h)
  have hlabel := S.apart _ (LabelMap.node_mem hb) _ (LabelMap.node_mem hb') hdigest
  exact S.canonical.node_injOn hb hb' (BlankNode.ext hlabel)

/-- The transform: the statements of the credential as they are signed, sorted. -/
theorem transform_eq : ∃ relabeled,
    transform P hmac hmacKey credential =
      .ok ⟨relabeled, (S.ids.blind hmac hmacKey).entries, S.compacted⟩ ∧
    relabeled.SortedLE ∧ relabeled.Perm S.signedTexts := by
  obtain ⟨out, hout, -⟩ := S.canonical.canonical
  refine ⟨_, ?_, S.canonical.relabelled hout (S.ids.blindCanonical hmac hmacKey)⟩
  have hcanonicalize : canonicalize P (deskolemizeNquads 0 S.nquads) =
      .ok (canonicalLines out, S.ids.entries) := by
    rw [canonicalize, hout, S.canonical.existing]
    rfl
  simp only [transform, bind_eq_ok, imported_eq_ok, pyld_eq_ok, pure_eq_ok]
  refine ⟨_, S.expand, _, S.compact, _, S.toRdf, _, hcanonicalize, ?_⟩
  rw [entries_blind, entries_blindCanonical]

/-- The lines of a text, relabelled. -/
theorem mem_relabel {text : Str} {lines : List Line} (hreads : Reads text lines)
    {m : List (Str × Str)} {x : Str} :
    x ∈ relabel ((Str.split 10 text).filter (!·.isEmpty)) m ↔
      x ∈ lines.map fun l => relabelLine m 0 l.text := by
  rw [hreads, relabel, mem_sorted, List.map_map]
  rfl

theorem mandatorySet_eq (relabeled : List Str) : ∃ set,
    mandatorySet P mandatory ⟨relabeled, (S.ids.blind hmac hmacKey).entries, S.compacted⟩ =
      .ok set ∧ ∀ x, x ∈ set ↔ x ∈ S.requiredTexts := by
  cases hm : mandatory.isEmpty with
  | true =>
    have hnil := S.required_nil (List.isEmpty_iff.mp hm)
    refine ⟨[], ?_, fun x => ?_⟩
    · rw [mandatorySet, hm]
      rfl
    · rw [requiredTexts, hnil]
      rfl
  | false =>
    have hne : mandatory ≠ [] := by
      rintro rfl
      cases hm
    obtain ⟨selection, text, hselection, htext, hreads⟩ := S.required_reads hne
    refine ⟨_, ?_, fun x => mem_relabel hreads⟩
    rw [mandatorySet, hm]
    simp only [Bool.false_eq_true, if_false, selectionLines, bind_eq_ok, pyld_eq_ok, pure_eq_ok]
    exact ⟨_, hselection, _, htext, rfl⟩

theorem selectionLines_eq : ∃ lines,
    selectionLines P S.selection (S.ids.blind hmac hmacKey).entries = .ok lines ∧
      ∀ x, x ∈ lines ↔ x ∈ S.selectedTexts := by
  refine ⟨_, ?_, fun x => mem_relabel S.selected_reads⟩
  simp only [selectionLines, bind_eq_ok, pyld_eq_ok, pure_eq_ok]
  exact ⟨_, S.selection_toRdf, rfl⟩

/-- The labels of the reveal document are chained when each of its blank nodes has a label of the
document. -/
theorem collect_chainLabel {ids revealIds : LabelMap} {m : List (Str × Str)} :
    collect (chainLabel (ids.blind hmac hmacKey).entries) revealIds.entries = .ok m ↔
      (∀ e ∈ revealIds, e.1 ∈ ids.map Prod.fst) ∧
        m = (chained hmac hmacKey ids revealIds).entries := by
  have hone : ∀ (e : BlankNode × BlankNode) (p : Str × Str),
      chainLabel (ids.blind hmac hmacKey).entries (e.1.text, e.2.text) = .ok p ↔
        e.1 ∈ ids.map Prod.fst ∧ p = (e.2.text, ((ids.blind hmac hmacKey).node e.1).text) := by
    intro e p
    simp only [chainLabel, bind_eq_ok, orRaise_eq_ok, pure_eq_ok, lookup_entries]
    constructor
    · rintro ⟨label, hlabel, rfl⟩
      obtain ⟨c, hc, rfl⟩ := Option.map_eq_some_iff.mp hlabel
      have hmem : e.1 ∈ (ids.blind hmac hmacKey).map Prod.fst :=
        List.mem_map.mpr ⟨(e.1, c), mem_of_lookup hc, rfl⟩
      rw [LabelMap.blind, List.map_map] at hmem
      refine ⟨hmem, ?_⟩
      rw [LabelMap.node, hc]
      rfl
    · rintro ⟨hmem, rfl⟩
      obtain ⟨c, hc⟩ := exists_lookup hmem
      refine ⟨(blindNode hmac hmacKey c).text, ?_, ?_⟩
      · rw [LabelMap.blind, lookup_map_snd, hc]
        rfl
      · rw [LabelMap.node, LabelMap.blind, lookup_map_snd, hc]
        rfl
  have hentries : revealIds.entries = revealIds.map fun e => (e.1.text, e.2.text) := rfl
  rw [collect_eq_ok, hentries, List.forall₂_map_left_iff]
  clear hentries
  induction revealIds generalizing m with
  | nil =>
    rw [List.forall₂_nil_left_iff]
    exact ⟨fun h => ⟨nofun, h⟩, And.right⟩
  | cons e revealIds ih =>
    rw [List.forall₂_cons_left_iff, List.forall_mem_cons]
    constructor
    · rintro ⟨p, m', hp, hm', rfl⟩
      obtain ⟨hmem, rfl⟩ := (hone e p).mp hp
      obtain ⟨hall, rfl⟩ := ih.mp hm'
      exact ⟨⟨hmem, hall⟩, rfl⟩
    · rintro ⟨⟨hmem, hall⟩, rfl⟩
      exact ⟨_, _, (hone e _).mpr ⟨hmem, rfl⟩, ih.mpr ⟨hall, rfl⟩, rfl⟩

/-- The label map of the derived proof. -/
def labelMap : List (Str × Str) :=
  S.revealIds.map fun e => (e.2.label, (S.name e.1).label)

/-- The blank nodes of the reveal document are among those of the document. -/
def Known : Prop := ∀ e ∈ S.revealIds, e.1 ∈ S.ids.map Prod.fst

theorem revealView_eq_ok {out : Str} (hout : P.canonical S.revealText = .ok out) {set : List Str}
    {view : RevealView} :
    revealView P S.reveal (S.ids.blind hmac hmacKey).entries set = .ok view ↔
      S.Known ∧ view =
        ⟨relabel (canonicalLines out) (chained hmac hmacKey S.ids S.revealIds).entries, S.labelMap,
          indexesIn (relabel (canonicalLines out)
            (chained hmac hmacKey S.ids S.revealIds).entries) set⟩ := by
  have hcanonicalize : canonicalize P S.revealText =
      .ok (canonicalLines out, S.revealIds.entries) := by
    rw [canonicalize, hout, S.reveal_canonical.existing]
    rfl
  have hlabels : (chained hmac hmacKey S.ids S.revealIds).entries.map
      (fun e => (e.1.drop 2, e.2.drop 2)) = S.labelMap := by
    rw [LabelMap.entries, chained, labelMap, List.map_map, List.map_map]
    rfl
  simp only [revealView, bind_eq_ok, pyld_eq_ok, pure_eq_ok]
  constructor
  · rintro ⟨text, htext, ⟨lines, ids⟩, hlines, m, hm, rfl⟩
    cases S.reveal_toRdf.symm.trans htext
    cases hcanonicalize.symm.trans hlines
    obtain ⟨hknown, rfl⟩ := collect_chainLabel.mp hm
    rw [hlabels]
    exact ⟨hknown, rfl⟩
  · rintro ⟨hknown, rfl⟩
    refine ⟨_, S.reveal_toRdf, _, hcanonicalize, _, collect_chainLabel.mpr ⟨hknown, rfl⟩, ?_⟩
    rw [hlabels]

theorem canonical_labelMap (hknown : S.Known) : Canonical S.labelMap where
  keys := by
    rw [labelMap, List.map_map]
    change (S.revealIds.map fun e => e.2.label).Nodup
    rw [S.reveal_canonical.labels.nodup_iff]
    exact List.nodup_range.map fun m n hmn => Str.ofNat_injective (List.append_cancel_left hmn)
  labels := by
    rw [labelMap, List.map_map]
    refine List.Nodup.map_on (fun e he e' he' heq => ?_) S.reveal_canonical.keys.of_map
    have hname : S.name e.1 = S.name e'.1 := BlankNode.ext heq
    have hkey := S.name_injOn (hknown e he) (hknown e' he') hname
    exact List.inj_on_of_nodup_map S.reveal_canonical.keys he he' hkey
  entries := by
    intro p hp
    obtain ⟨e, he, rfl⟩ := List.mem_map.mp hp
    have hlabel : e.2.label ∈ S.revealIds.map fun e => e.2.label :=
      List.mem_map_of_mem (f := fun e => e.2.label) he
    rw [S.reveal_canonical.labels.mem_iff] at hlabel
    obtain ⟨n, -, hn⟩ := List.mem_map.mp hlabel
    refine ⟨n, hmac hmacKey (S.ids.node e.1).label, Prod.ext hn.symm ?_⟩
    change (S.name e.1).label = _
    rw [name, LabelMap.node_blind (hknown e he)]
    rfl

theorem labelMap_fits (hknown : S.Known) :
    S.labelMap.length < 2 ^ 64 ∧ ∀ n b,
      (lit "c14n" ++ Str.ofNat n, mbEncode b) ∈ S.labelMap → n < 2 ^ 64 ∧ b.length < 2 ^ 64 := by
  constructor
  · rw [labelMap, List.length_map]
    exact S.fits.2
  · intro n b hmem
    obtain ⟨e, he, heq⟩ := List.mem_map.mp hmem
    obtain ⟨hkey, hvalue⟩ := Prod.mk.inj heq
    constructor
    · have hlabel : e.2.label ∈ S.revealIds.map fun e => e.2.label :=
        List.mem_map_of_mem (f := fun e => e.2.label) he
      rw [S.reveal_canonical.labels.mem_iff] at hlabel
      obtain ⟨m, hm, hmlabel⟩ := List.mem_map.mp hlabel
      have hmn : m = n := Str.ofNat_injective (List.append_cancel_left (hmlabel.trans hkey))
      rw [← hmn]
      exact (List.mem_range.mp hm).trans S.fits.2
    · rw [name, LabelMap.node_blind (hknown e he)] at hvalue
      rw [← mbEncode_injective hvalue]
      exact S.digests _ (LabelMap.node_mem (hknown e he))

theorem lookup_perm {α β : Type} [BEq α] [LawfulBEq α] {l l' : List (α × β)} (h : l.Perm l')
    (hl : (l.map Prod.fst).Nodup) (a : α) : List.lookup a l = List.lookup a l' := by
  have hl' : (l'.map Prod.fst).Nodup := (h.map Prod.fst).nodup_iff.mp hl
  refine Option.ext fun b => ?_
  rw [lookup_eq_some_iff hl, lookup_eq_some_iff hl', h.mem_iff]

/-- The verifier puts the labels on the lines that the holder put on them. -/
theorem relabel_parsed {parsed : List (Str × Str)} (h : parsed.Perm S.labelMap) (lines : List Str) :
    relabel lines (parsed.map fun e => (lit "_:" ++ e.1, lit "_:" ++ e.2)) =
      relabel lines (chained hmac hmacKey S.ids S.revealIds).entries := by
  have hentries : S.labelMap.map (fun e => (lit "_:" ++ e.1, lit "_:" ++ e.2)) =
      (chained hmac hmacKey S.ids S.revealIds).entries := by
    rw [labelMap, LabelMap.entries, chained, List.map_map, List.map_map]
    rfl
  have hperm := h.map fun e => (lit "_:" ++ e.1, lit "_:" ++ e.2)
  rw [hentries] at hperm
  have hkeys : ((chained hmac hmacKey S.ids S.revealIds).entries.map Prod.fst).Nodup := by
    have hmap : (chained hmac hmacKey S.ids S.revealIds).entries.map Prod.fst =
        (S.revealIds.map Prod.snd).map BlankNode.text := by
      rw [LabelMap.entries, chained, List.map_map, List.map_map, List.map_map]
      rfl
    rw [hmap]
    refine S.reveal_canonical.nodup_labels.map fun b b' htext => ?_
    exact BlankNode.ext (List.cons.inj (List.cons.inj htext).2).2
  refine relabel_congr (fun k => ?_) lines
  exact (lookup_perm hperm.symm hkeys k).symm

/-- The statements that the verifier finds: those at the indexes, the others, and the hash of the proof
configuration. -/
theorem statements_eq_ok {C : Crypto} {out : Str} (hout : P.canonical S.revealText = .ok out)
    {p : DerivedParts} {set : List Str} (hmap : p.labelMap = S.labelMap)
    (hindexes : p.mandatoryIndexes = (indexesIn (relabel (canonicalLines out)
      (chained hmac hmacKey S.ids S.revealIds).entries) set).map Int.ofNat)
    {parsed : DerivedProof} (hread : p.ReadAs parsed) {derived proof : Dict}
    (herase : derived.erase "proof" = S.reveal) {st : Statements} :
    statements C P.toJsonLd derived proof parsed = .ok st ↔ ∃ hash,
      proofConfigHash C P.toJsonLd proof (derived.get "@context") = .ok hash ∧
      st = ⟨(relabel (canonicalLines out)
          (chained hmac hmacKey S.ids S.revealIds).entries).filter set.contains,
        (relabel (canonicalLines out)
          (chained hmac hmacKey S.ids S.revealIds).entries).filter (!set.contains ·), hash⟩ := by
  have hsame : parsed.mandatoryIndexes = indexesIn (relabel (canonicalLines out)
      (chained hmac hmacKey S.ids S.revealIds).entries) set := by
    refine List.map_injective_iff.mpr (fun m n hmn => Int.ofNat.inj hmn) ?_
    rw [hread.mandatoryIndexes, hindexes]
  have hlines := linesAt_indexesIn (relabel (canonicalLines out)
    (chained hmac hmacKey S.ids S.revealIds).entries) set
  have hrelabel := S.relabel_parsed (hmap ▸ hread.labelMap) (canonicalLines out)
  simp only [statements, proofConfigHash, bind_eq_ok, processed_eq_ok, pyld_eq_ok, pure_eq_ok,
    herase, hsame]
  constructor
  · rintro ⟨text, htext, lines, hcanonical, config, hconfig, data, hdata, rfl⟩
    cases S.reveal_toRdf.symm.trans htext
    cases hout.symm.trans hcanonical
    exact ⟨_, ⟨config, hconfig, data, hdata, rfl⟩, by rw [hrelabel, hlines.1, hlines.2]⟩
  · rintro ⟨hash, ⟨config, hconfig, data, hdata, rfl⟩, rfl⟩
    exact ⟨_, S.reveal_toRdf, _, hout, config, hconfig, data, hdata,
      by rw [hrelabel, hlines.1, hlines.2]⟩

/-! ### Statements that the pattern reads -/

/-- The pattern finds the blank nodes of all these statements and nothing else that it would change, and
no blank node is labelled as the blinded ones are. -/
structure Clear (S : Setting P hmac hmacKey credential mandatory selective) : Prop where
  document : ∀ l ∈ S.document, Found (S.ids.blindCanonical hmac hmacKey) (l.rename S.ids.node)
  selected : ∀ l ∈ S.required ++ S.selected, Found (S.ids.blind hmac hmacKey) l
  revealed : ∀ l ∈ S.revealed,
    Found (chained hmac hmacKey S.ids S.revealIds) (l.rename S.revealIds.node)
  unblinded : ∀ l ∈ S.required ++ S.selected, ∀ b ∈ l.nodes, ∀ b', b ≠ blindNode hmac hmacKey b'

/-- A line with its blank nodes under the names they are signed by. -/
def blindedText (l : Line) : Str := (l.rename S.name).text

theorem node_chained {b : BlankNode} (hb : b ∈ S.revealIds.map Prod.fst) :
    (chained hmac hmacKey S.ids S.revealIds).node (S.revealIds.node b) = S.name b := by
  have hkeys : ((chained hmac hmacKey S.ids S.revealIds).map Prod.fst).Nodup := by
    rw [chained, List.map_map]
    exact S.reveal_canonical.nodup_labels
  have hmem : (S.revealIds.node b, S.name b) ∈ chained hmac hmacKey S.ids S.revealIds :=
    List.mem_map_of_mem (f := fun e => (e.2, (S.ids.blind hmac hmacKey).node e.1))
      (LabelMap.node_mem hb)
  rw [LabelMap.node, (lookup_eq_some_iff hkeys).mpr hmem]
  rfl

variable {S}

theorem mem_ids (hknown : S.Known) {l : Line} (hl : l ∈ S.revealed) :
    ∀ b ∈ l.nodes, b ∈ S.ids.map Prod.fst := by
  intro b hb
  obtain ⟨e, he, rfl⟩ := List.mem_map.mp (S.reveal_canonical.mem_keys hl hb)
  exact hknown e he

theorem Clear.mem_signedTexts (h : S.Clear) {x : Str} :
    x ∈ S.signedTexts ↔ ∃ l ∈ S.document, x = S.blindedText l :=
  S.canonical.mem_relabelledTexts h.document fun _ hb => LabelMap.node_blindCanonical hb

theorem Clear.nodup_signedTexts (h : S.Clear) : S.signedTexts.Nodup :=
  S.canonical.nodup_relabelledTexts h.document (fun _ hb => LabelMap.node_blindCanonical hb)
    fun _ hb _ hb' => S.name_injOn hb hb'

theorem Clear.mem_revealedTexts (h : S.Clear) {x : Str} :
    x ∈ S.revealedTexts ↔ ∃ l ∈ S.revealed, x = S.blindedText l :=
  S.reveal_canonical.mem_relabelledTexts h.revealed fun _ hb => S.node_chained hb

theorem Clear.nodup_revealedTexts (h : S.Clear) (hknown : S.Known) : S.revealedTexts.Nodup := by
  have hmem : ∀ b ∈ S.revealIds.map Prod.fst, b ∈ S.ids.map Prod.fst := by
    intro b hb
    obtain ⟨e, he, rfl⟩ := List.mem_map.mp hb
    exact hknown e he
  exact S.reveal_canonical.nodup_relabelledTexts h.revealed (fun _ hb => S.node_chained hb)
    fun b hb b' hb' => S.name_injOn (hmem b hb) (hmem b' hb')

theorem Clear.relabelLine_eq (h : S.Clear) {l : Line} (hl : l ∈ S.required ++ S.selected) :
    relabelLine (S.ids.blind hmac hmacKey).entries 0 l.text = S.blindedText l :=
  relabelLine_of_found (h.selected l hl)

theorem Clear.mem_requiredTexts (h : S.Clear) {x : Str} :
    x ∈ S.requiredTexts ↔ ∃ l ∈ S.required, S.blindedText l = x := by
  rw [requiredTexts, List.mem_map]
  refine exists_congr fun l => and_congr_right fun hl => ?_
  rw [h.relabelLine_eq (List.mem_append_left _ hl)]

theorem Clear.mem_selectedTexts (h : S.Clear) {x : Str} :
    x ∈ S.selectedTexts ↔ ∃ l ∈ S.selected, S.blindedText l = x := by
  rw [selectedTexts, List.mem_map]
  refine exists_congr fun l => and_congr_right fun hl => ?_
  rw [h.relabelLine_eq (List.mem_append_right _ hl)]

theorem name_inj {b b' : BlankNode} (hb : b ∈ S.ids.map Prod.fst)
    (hb' : ∀ c, b' ≠ blindNode hmac hmacKey c) (h : S.name b = S.name b') : b = b' := by
  by_cases hmem : b' ∈ S.ids.map Prod.fst
  · exact S.name_injOn hb hmem h
  · exfalso
    have hnone : List.lookup b' (S.ids.blind hmac hmacKey) = none := by
      rw [LabelMap.blind, lookup_map_snd]
      cases hl : List.lookup b' S.ids with
      | none => rfl
      | some c => exact absurd (List.mem_map_of_mem (f := Prod.fst) (mem_of_lookup hl)) hmem
    have hself : S.name b' = b' := by
      rw [name, LabelMap.node, hnone]
      rfl
    rw [hself, name, LabelMap.node_blind hb] at h
    exact hb' _ h.symm

theorem Clear.eq_of_blindedText (h : S.Clear) {l l' : Line}
    (hl : ∀ b ∈ l.nodes, b ∈ S.ids.map Prod.fst) (hl' : l' ∈ S.required ++ S.selected)
    (heq : S.blindedText l = S.blindedText l') : l = l' := by
  refine Line.rename_injOn (fun b hb b' hb' hname => ?_) (text_injective heq)
  exact name_inj (hl b hb) (h.unblinded l' hl' b' hb') hname

theorem Clear.mem_document (h : S.Clear) {l : Line} (hl : l ∈ S.required ++ S.selected) :
    S.blindedText l ∈ S.signedTexts ↔ l ∈ S.document := by
  rw [h.mem_signedTexts]
  constructor
  · rintro ⟨l', hl', heq⟩
    exact h.eq_of_blindedText (fun _ => S.canonical.mem_keys hl') hl heq.symm ▸ hl'
  · intro hdocument
    exact ⟨l, hdocument, rfl⟩

theorem Clear.mem_revealed (h : S.Clear) (hknown : S.Known) {l : Line}
    (hl : l ∈ S.required ++ S.selected) : S.blindedText l ∈ S.revealedTexts ↔ l ∈ S.revealed := by
  rw [h.mem_revealedTexts]
  constructor
  · rintro ⟨l', hl', heq⟩
    exact h.eq_of_blindedText (mem_ids hknown hl') hl heq.symm ▸ hl'
  · intro hrevealed
    exact ⟨l, hrevealed, rfl⟩

end Setting

end EcdsaSd

end OpenVC
