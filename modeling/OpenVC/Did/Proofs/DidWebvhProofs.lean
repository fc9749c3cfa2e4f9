import OpenVC.Did.DidWebvh
import OpenVC.Logic.Chain
import OpenVC.Proofs.JcsProofs
import OpenVC.Proofs.MultibaseProofs

/-!
# What an accepted `did:webvh` log has gone through

A log is read against its own history: the keys that may sign an entry, the commitment they must
hash into and the witness policy in force are functions of the entries before it. `step_accepted`
says once what one iteration of the replay establishes; the invariants of whole replays follow from
it.
-/

namespace OpenVC.Did

open Python Multibase Chain

variable {C : Crypto} {iso : Str → Option DateTime}

/-! ## Reading a log -/

/-- The parameters of an entry. -/
def parameters (e : Dict) : Dict := ((e.get "parameters").obj?).getD []

/-- The `updateKeys` an entry declares. -/
def updateKeys (e : Dict) : Option (List Str) :=
  match (parameters e).get "updateKeys" with
  | .arr l => some (l.filterMap Json.str?)
  | _ => none

/-- The pre-rotation commitment an entry declares; one that is not a list commits to nothing. -/
def nextKeyHashes (e : Dict) : Option (List Json) :=
  ((parameters e).get? "nextKeyHashes").map fun v => (v.arr?).getD []

/-- The witness policy an entry declares; one that is not an object is empty. -/
def witnessPolicy (e : Dict) : Option Dict :=
  ((parameters e).get? "witness").map fun v => (v.obj?).getD []

/-- The `deactivated` value an entry declares. -/
def deactivatedValue (e : Dict) : Option Json := (parameters e).get? "deactivated"

/-- The commitment in force after a history. -/
def commitment (history : List Dict) : List Json := (lastDeclared nextKeyHashes history).getD []

/-- The keys authorised to sign an entry that follows `history`. -/
def authorizedKeys (history : List Dict) (e : Dict) : List Str :=
  if history = [] then (updateKeys e).getD []
  else if commitment history = [] then (lastDeclared updateKeys history).getD []
  else (updateKeys e).getD []

/-- What stands in for an entry's own `versionId` when it is hashed: the `versionId` of the entry
before it, or the SCID for the first. -/
def predecessorOf (history : List Dict) (e : Dict) : Option Str :=
  match history.getLast? with
  | none => ((parameters e).get "scid").str?
  | some p => (p.get "versionId").str?

/-- A proof of an entry that verifies under one of `keys`: an `eddsa-jcs-2022` assertion proof
whose `verificationMethod` names the key and whose signature covers the proof's options and the
entry without its proofs. -/
structure ProofVerifies (C : Crypto) (e proof : Dict) (keys : List Str) : Prop where
  type : proof.get "type" = .str "DataIntegrityProof"
  cryptosuite : proof.get "cryptosuite" = .str "eddsa-jcs-2022"
  purpose : proof.get "proofPurpose" = .str "assertionMethod"
  signed : ∃ vm pv config document sig jwk,
    proof.get "verificationMethod" = .str vm ∧ proofMultikey vm ∈ keys ∧
    webvhMultikeyToJwk (proofMultikey vm) = .ok jwk ∧
    proof.get "proofValue" = .str pv ∧ decodeMultibase pv = .ok sig ∧
    jcs (.obj (proof.erase "proofValue")) = .ok config ∧
    jcs (.obj (entryWithoutProof e)) = .ok document ∧
    verifySignature C "EdDSA" jwk (C.sha256 config ++ C.sha256 document) sig = .ok true

/-- What the replay has established about an entry, given the entries before it. -/
structure EntryAuthorized (C : Crypto) (iso : Str → Option DateTime) (history : List Dict)
    (e : Dict) : Prop where
  /-- The version number counts the entries, and the hash is that of the entry with its
  predecessor's `versionId`. -/
  version : ∃ predecessor b,
    predecessorOf history e = some predecessor ∧ jcs (rehashed e predecessor) = .ok b ∧
    e.get "versionId" =
      .str (Str.ofNat (history.length + 1) ++ [45] ++ multihashB58 C b)
  /-- The first entry declares the hash of itself, the SCID replaced by its placeholder. -/
  scid : history = [] → ∃ scid b, (parameters e).get "scid" = .str scid ∧
    scidPreimage e scid = .ok b ∧ scid = multihashB58 C b
  /-- Its time is not before that of any earlier entry. -/
  time : ∃ t, versionTime iso e = .ok t ∧
    ∀ p ∈ history, ∃ tp, versionTime iso p = .ok tp ∧ tp.instant ≤ t.instant
  /-- Under a commitment the entry declares its own keys, and each hashes into it. -/
  prerotation : history ≠ [] → commitment history ≠ [] → ∃ keys, updateKeys e = some keys ∧
    keys ≠ [] ∧ ∀ key ∈ keys, ∃ h, prerotationHash C key = .ok h ∧ .str h ∈ commitment history
  /-- A proof verifies under an authorised key. -/
  proof : ∃ p, .obj p ∈ entryProofs e ∧ ProofVerifies C e p (authorizedKeys history e)
  /-- No witness policy is in force, from before or from the entry itself. -/
  witness : witnessPolicyActive ((lastDeclared witnessPolicy history).getD []) = false ∧
    witnessPolicyActive ((lastDeclared witnessPolicy (history ++ [e])).getD []) = false

/-! ## One iteration -/

theorem jcs_eq_ok {v : Json} {b : Bytes} : jcs v = .ok b ↔ Jcs.canonicalize v = .ok b :=
  reraise_eq_ok

/-- The declared keys of an accepted entry are those of its parameters. -/
theorem declaredKeys_eq {e params : Dict} {number : Nat} {declared : Option (List Str)}
    (hp : e.get "parameters" = .obj params) (h : declaredKeys number params = .ok declared) :
    updateKeys e = declared := by
  have hparams : parameters e = params := by rw [parameters, hp]; rfl
  have hstr : ∀ {l : List Json} {keys : List Str}, l.mapM asciiStr = some keys →
      l.filterMap Json.str? = keys := by
    intro l
    induction l with
    | nil => intro keys h; cases h; rfl
    | cons v l ih =>
      intro keys h
      simp only [List.mapM_cons, Option.bind_eq_bind, Option.bind_eq_some_iff] at h
      obtain ⟨s, hs, t, ht, hk⟩ := h
      cases hk
      have hv : v = .str s := by
        cases v with
        | str s' =>
          simp only [asciiStr] at hs
          split at hs
          · cases hs; rfl
          · cases hs
        | _ => cases hs
      rw [hv, List.filterMap_cons, ih ht]
      rfl
  unfold declaredKeys at h
  unfold updateKeys
  rw [hparams]
  split at h
  · rename_i hu; rw [hu]; cases h; rfl
  · rename_i l hu
    rw [hu]
    split at h
    · rename_i keys hk; cases h; exact congrArg some (hstr hk)
    · cases h
  · cases h

/-- What one iteration of the loop did when it returned. -/
structure StepAccepted (C : Crypto) (iso : Str → Option DateTime) (st : ReplayState) (index : Nat)
    (e : Dict) (st' : ReplayState) where
  params : Dict
  declared : Option (List Str)
  authorized : List Str
  predecessor : Str
  versionId : Str
  b : Bytes
  vtime : DateTime
  newState : Dict
  params_eq : e.get "parameters" = .obj params
  declared_eq : declaredKeys (index + 1) params = .ok declared
  authorize_eq : authorize C st index params declared = .ok (authorized, predecessor)
  scid_eq : checkScid C index e predecessor = .ok ()
  versionId_eq : e.get "versionId" = .str versionId
  versionId_parse : parseVersionId (.str versionId) (index + 1) = .ok (multihashB58 C b)
  rehashed_eq : jcs (rehashed e predecessor) = .ok b
  vtime_eq : versionTime iso e = .ok vtime
  vtime_le : ∀ p, st.prevTime = some p → p.instant ≤ vtime.instant
  proof_eq : verifyEntryProof C e authorized = .ok ()
  witness_eq : witnessPolicyActive (carryForward st params declared).witness = false
  state_eq : e.get "state" = .obj newState
  result : st' = { carryForward st params declared with
    state := newState, prevVersionId := some versionId, prevTime := some vtime }

theorem step_accepted {st st' : ReplayState} {index : Nat} {e : Dict}
    (h : step C iso st index e = .ok st') : Nonempty (StepAccepted C iso st index e st') := by
  simp only [step, bind_eq_ok, orRaise_eq_ok, raiseIf_eq_ok, pure_eq_ok, Json.obj?_eq_some] at h
  obtain ⟨params, hparams, declared, hdeclared, ⟨authorized, predecessor⟩, hauth, ⟨⟩, hscid, hash,
    hparse, b, hb, -, hne, vtime, hv, -, hle, ⟨⟩, hproof, -, hw, newState, hstate, rfl⟩ := h
  have hvid : ∃ v, e.get "versionId" = .str v := by
    unfold parseVersionId at hparse
    split at hparse
    · rename_i v hv; exact ⟨v, hv⟩
    · cases hparse
  obtain ⟨v, hvid⟩ := hvid
  have hhash : multihashB58 C b = hash := by simpa using hne
  refine ⟨⟨params, declared, authorized, predecessor, v, b, vtime, newState, hparams, hdeclared,
    hauth, hscid, hvid, hhash ▸ hvid ▸ hparse, hb, hv, ?_, hproof, hw, hstate, ?_⟩⟩
  · intro p hp
    rw [hp] at hle
    simpa using hle
  · rw [hvid]; rfl

/-- A `versionId` the parser accepts is the version number, a hyphen and the hash it returns. -/
theorem parseVersionId_eq_ok {v hash : Str} {n : Nat} (h : parseVersionId (.str v) n = .ok hash) :
    v = Str.ofNat n ++ [45] ++ hash := by
  simp only [parseVersionId, bind_eq_ok, raiseIf_eq_ok, pure_eq_ok] at h
  obtain ⟨-, hc, -, hn, rfl⟩ := h
  have hc' : v.contains 45 = true := by simpa using hc
  have hnum : (Str.partition 45 v).1 = Str.ofNat n := by
    simp only [Bool.or_eq_false_iff, bne_eq_false_iff_eq] at hn
    exact hn.1
  have := Str.partition_eq hc'
  rw [hnum] at this
  simpa using this

theorem checkEntryProof_true {keys : List Str} {e proof : Dict} {document : Bytes}
    (hdoc : jcs (.obj (entryWithoutProof e)) = .ok document)
    (h : checkEntryProof C keys (C.sha256 document) proof = .ok true) :
    ProofVerifies C e proof keys := by
  unfold checkEntryProof at h
  split at h
  · rename_i type suite purpose vm pv ht hs hp hvm hpv
    split at h
    · cases h
    rename_i hts
    split at h
    · cases h
    rename_i hpurpose
    split at h
    · cases h
    rename_i hkey
    obtain ⟨config, hconfig, h⟩ := bind_eq_ok.mp h
    split at h
    · split at h
      · cases h
      · cases h
    · rename_i sig hsig
      obtain ⟨jwk, hjwk, h⟩ := bind_eq_ok.mp h
      simp only [not_or, not_not] at hts hpurpose hkey
      exact ⟨ht.trans (congrArg Json.str hts.1), hs.trans (congrArg Json.str hts.2),
        hp.trans (congrArg Json.str hpurpose),
        vm, pv, config, document, sig, jwk, hvm, hkey, hjwk, hpv, hsig, hconfig, hdoc, h⟩
  · cases h

theorem entryProofLoop_eq_ok {keys : List Str} {docHash : Bytes} {l : List Json}
    (h : entryProofLoop C keys docHash l = .ok ()) :
    ∃ p, .obj p ∈ l ∧ checkEntryProof C keys docHash p = .ok true := by
  induction l with
  | nil => cases h
  | cons v l ih =>
    cases v with
    | obj p =>
      simp only [entryProofLoop] at h
      split at h
      · cases h
      · rename_i hp; exact ⟨p, List.mem_cons_self, hp⟩
      · obtain ⟨q, hq, hc⟩ := ih h
        exact ⟨q, List.mem_cons_of_mem _ hq, hc⟩
    | _ =>
      obtain ⟨q, hq, hc⟩ := ih h
      exact ⟨q, List.mem_cons_of_mem _ hq, hc⟩

theorem verifyEntryProof_eq_ok {e : Dict} {keys : List Str}
    (h : verifyEntryProof C e keys = .ok ()) :
    ∃ p, .obj p ∈ entryProofs e ∧ ProofVerifies C e p keys := by
  obtain ⟨-, -, h⟩ := bind_eq_ok.mp h
  obtain ⟨document, hdoc, h⟩ := bind_eq_ok.mp h
  obtain ⟨p, hp, hc⟩ := entryProofLoop_eq_ok h
  exact ⟨p, hp, checkEntryProof_true hdoc hc⟩

/-! ## The state carried from entry to entry -/

/-- The loop's state is a function of the history. -/
structure Carried (iso : Str → Option DateTime) (history : List Dict) (st : ReplayState) : Prop where
  versionId : st.prevVersionId = history.getLast?.bind fun p => (p.get "versionId").str?
  time : ∀ p ∈ history, ∃ tp t, versionTime iso p = .ok tp ∧ st.prevTime = some t ∧
    tp.instant ≤ t.instant
  activeKeys : st.activeKeys = (lastDeclared updateKeys history).getD []
  commitment : st.nextKeyHashes = commitment history
  witness : st.witness = (lastDeclared witnessPolicy history).getD []
  inactive : witnessPolicyActive st.witness = false
  deactivated : st.deactivated =
    ((lastDeclared deactivatedValue history).map Json.truthy).getD false
  state : st.state = (history.getLast?.bind fun p => (p.get "state").obj?).getD []

theorem carried_nil : Carried iso [] {} where
  versionId := rfl
  time := by simp
  activeKeys := rfl
  commitment := rfl
  witness := rfl
  inactive := rfl
  deactivated := rfl
  state := rfl

/-- Overriding a carried value: the declaration when there is one, else what was in force. -/
theorem getD_lastDeclared_append {α β : Type} (f : α → Option β) (history : List α) (a : α) (d : β) :
    (lastDeclared f (history ++ [a])).getD d = (f a).getD ((lastDeclared f history).getD d) := by
  rw [lastDeclared_append]
  cases f a <;> rfl

theorem carryForward_carried {history : List Dict} {st : ReplayState} {e params : Dict}
    {declared : Option (List Str)} (hc : Carried iso history st)
    (hp : e.get "parameters" = .obj params) (hd : updateKeys e = declared) :
    (carryForward st params declared).activeKeys =
        (lastDeclared updateKeys (history ++ [e])).getD [] ∧
      (carryForward st params declared).nextKeyHashes = commitment (history ++ [e]) ∧
      (carryForward st params declared).witness =
        (lastDeclared witnessPolicy (history ++ [e])).getD [] ∧
      (carryForward st params declared).deactivated =
        ((lastDeclared deactivatedValue (history ++ [e])).map Json.truthy).getD false := by
  have hparams : parameters e = params := by rw [parameters, hp]; rfl
  refine ⟨?_, ?_, ?_, ?_⟩
  · rw [getD_lastDeclared_append, hd, ← hc.activeKeys]; rfl
  · rw [commitment, getD_lastDeclared_append, nextKeyHashes, hparams, ← commitment, ← hc.commitment]
    simp only [carryForward]
    cases params.get? "nextKeyHashes" <;> rfl
  · rw [getD_lastDeclared_append, witnessPolicy, hparams, ← hc.witness]
    simp only [carryForward]
    cases params.get? "witness" <;> rfl
  · rw [lastDeclared_append, deactivatedValue, hparams]
    simp only [carryForward]
    cases params.get? "deactivated" with
    | none => exact hc.deactivated
    | some v => rfl

theorem authorizeGenesis_eq_ok {params : Dict} {declared : Option (List Str)} {keys : List Str}
    {scid : Str} (h : authorizeGenesis params declared = .ok (keys, scid)) :
    params.get "scid" = .str scid ∧ scid ≠ [] ∧ declared.getD [] = keys := by
  simp only [authorizeGenesis, bind_eq_ok, raiseIf_eq_ok, pure_eq_ok, Prod.mk.injEq] at h
  obtain ⟨-, -, -, hs, -, -, hk, he⟩ := h
  have hne : ((params.get "scid").str?).getD [] ≠ [] := by
    intro e; rw [e] at hs; cases hs
  rw [he] at hne
  refine ⟨?_, hne, hk⟩
  cases hv : (params.get "scid").str? with
  | none => rw [hv] at he; exact absurd he.symm hne
  | some s =>
    rw [hv] at he
    rw [Json.str?_eq_some] at hv
    rw [hv]
    exact congrArg Json.str he

theorem authorizePrerotated_eq_ok {st : ReplayState} {n : Nat} {declared : Option (List Str)}
    {keys : List Str} {predecessor : Str}
    (h : authorizePrerotated C st n declared = .ok (keys, predecessor)) :
    declared = some keys ∧ keys ≠ [] ∧ st.prevVersionId = some predecessor ∧
      ∀ key ∈ keys, ∃ h, prerotationHash C key = .ok h ∧ .str h ∈ st.nextKeyHashes := by
  simp only [authorizePrerotated, bind_eq_ok, raiseIf_eq_ok, orRaise_eq_ok, pure_eq_ok, each_eq_ok,
    Prod.mk.injEq] at h
  obtain ⟨-, hne, -, hkeys, p, hp, hk, rfl⟩ := h
  rw [hk] at hkeys hne
  have hne' : keys ≠ [] := by
    intro e; rw [e] at hne; cases hne
  refine ⟨?_, hne', hp, fun key hkey => ?_⟩
  · cases declared with
    | none => exact absurd hk.symm hne'
    | some ks => exact congrArg some hk
  · have hck := hkeys key hkey
    simp only [checkPrerotated, bind_eq_ok, raiseIf_eq_ok, Bool.not_eq_false', List.any_eq_true,
      Json.pyEq_str] at hck
    obtain ⟨x, hx, v, hv, rfl⟩ := hck
    exact ⟨x, hx, hv⟩

/-- The keys and the predecessor the loop computes are those the history determines. -/
theorem authorize_eq_ok {history : List Dict} {st : ReplayState} {e params : Dict}
    {declared : Option (List Str)} {keys : List Str} {predecessor : Str}
    (hc : Carried iso history st) (hp : e.get "parameters" = .obj params)
    (hd : updateKeys e = declared)
    (h : authorize C st history.length params declared = .ok (keys, predecessor)) :
    authorizedKeys history e = keys ∧ predecessorOf history e = some predecessor ∧
      (history ≠ [] → commitment history ≠ [] → ∃ keys, updateKeys e = some keys ∧ keys ≠ [] ∧
        ∀ key ∈ keys, ∃ h, prerotationHash C key = .ok h ∧ .str h ∈ commitment history) := by
  have hparams : parameters e = params := by rw [parameters, hp]; rfl
  unfold authorize at h
  split at h
  · rename_i h0
    obtain rfl := List.length_eq_zero_iff.mp h0
    obtain ⟨hs, _, hk⟩ := authorizeGenesis_eq_ok h
    refine ⟨?_, ?_, fun hne => absurd rfl hne⟩
    · rw [authorizedKeys, if_pos rfl, hd, hk]
    · rw [predecessorOf, hparams, hs]; rfl
  rename_i h0
  have hne : history ≠ [] := fun e => h0 (by rw [e]; rfl)
  obtain ⟨last, hlast⟩ := Option.isSome_iff_exists.mp (List.getLast?_isSome.mpr hne)
  have hpred : ∀ {p}, st.prevVersionId = some p → predecessorOf history e = some p := by
    intro p hpv
    rw [hc.versionId, hlast] at hpv
    rw [predecessorOf, hlast]
    exact hpv
  split at h
  · rename_i hcm
    obtain ⟨hdecl, hkne, hpv, hin⟩ := authorizePrerotated_eq_ok h
    have hcom : commitment history ≠ [] := by
      intro e
      rw [hc.commitment, e] at hcm
      simp at hcm
    refine ⟨?_, hpred hpv, fun _ _ => ⟨keys, by rw [hd, hdecl], hkne, ?_⟩⟩
    · rw [authorizedKeys, if_neg hne, if_neg hcom, hd, hdecl]; rfl
    · rw [← hc.commitment]; exact hin
  · rename_i hcm
    have hcom : commitment history = [] := by
      rw [hc.commitment] at hcm
      simpa using hcm
    simp only [authorizeInForce, bind_eq_ok, orRaise_eq_ok, pure_eq_ok, Prod.mk.injEq] at h
    obtain ⟨p, hpv, hk, rfl⟩ := h
    refine ⟨?_, hpred hpv, fun _ hn => absurd hcom hn⟩
    rw [authorizedKeys, if_neg hne, if_pos hcom, ← hk, hc.activeKeys]

theorem checkScid_eq_ok {e : Dict} {scid : Str} (h : checkScid C 0 e scid = .ok ()) :
    ∃ b, scidPreimage e scid = .ok b ∧ scid = multihashB58 C b := by
  simp only [checkScid, if_true, bind_eq_ok, raiseIf_eq_ok, bne_eq_false_iff_eq] at h
  obtain ⟨b, hb, he⟩ := h
  exact ⟨b, hb, he.symm⟩

/-- One iteration keeps the state tied to the history and establishes the entry's authorisation. -/
theorem step_carried {history : List Dict} {st st' : ReplayState} {e : Dict}
    (hc : Carried iso history st) (h : step C iso st history.length e = .ok st') :
    Carried iso (history ++ [e]) st' ∧ EntryAuthorized C iso history e := by
  obtain ⟨a⟩ := step_accepted h
  have hd := declaredKeys_eq a.params_eq a.declared_eq
  obtain ⟨hkeys, hpred, hpre⟩ := authorize_eq_ok hc a.params_eq hd a.authorize_eq
  obtain ⟨hactive, hcom, hwit, hdeact⟩ := carryForward_carried hc a.params_eq hd
  have htime : ∀ p ∈ history, ∃ tp, versionTime iso p = .ok tp ∧ tp.instant ≤ a.vtime.instant := by
    intro p hp
    obtain ⟨tp, t, htp, ht, hle⟩ := hc.time p hp
    have := a.vtime_le t ht
    exact ⟨tp, htp, by omega⟩
  constructor
  · rw [a.result]
    refine ⟨?_, ?_, hactive, hcom, hwit, a.witness_eq, hdeact, ?_⟩
    · simp [a.versionId_eq, Json.str?]
    · intro p hp
      rcases List.mem_append.mp hp with hp | hp
      · obtain ⟨tp, htp, hle⟩ := htime p hp
        exact ⟨tp, a.vtime, htp, rfl, hle⟩
      · rw [List.mem_singleton.mp hp]
        exact ⟨a.vtime, a.vtime, a.vtime_eq, rfl, Int.le_refl _⟩
    · simp [a.state_eq, Json.obj?]
  · refine ⟨⟨a.predecessor, a.b, hpred, a.rehashed_eq, ?_⟩, ?_, ⟨a.vtime, a.vtime_eq, htime⟩, hpre,
      ?_, ?_⟩
    · rw [a.versionId_eq, parseVersionId_eq_ok a.versionId_parse]
    · rintro rfl
      obtain ⟨b, hb, hs⟩ := checkScid_eq_ok a.scid_eq
      exact ⟨a.predecessor, b, Json.str?_eq_some.mp hpred, hb, hs⟩
    · rw [hkeys]; exact verifyEntryProof_eq_ok a.proof_eq
    · refine ⟨?_, ?_⟩
      · rw [← hc.witness]; exact hc.inactive
      · rw [← hwit]; exact a.witness_eq

/-! ## Whole replays -/

theorem parseLines_ne_nil {log : Str} {entries : List Dict} (h : parseLines log = .ok entries) :
    entries ≠ [] := by
  simp only [parseLines, bind_eq_ok, raiseIf_eq_ok, pure_eq_ok] at h
  obtain ⟨es, -, -, hne, rfl⟩ := h
  intro e
  rw [e] at hne
  cases hne

theorem finishReplay_eq_ok {did : Str} {st : ReplayState} {doc : DidDocument}
    (h : finishReplay C did st = .ok doc) :
    doc.raw = st.state ∧ doc.id = did ∧ st.state.get "id" = .str did ∧ st.deactivated = false ∧
      parseDidDocument C (.obj st.state) = .ok doc := by
  simp only [finishReplay, bind_eq_ok, raiseIf_eq_ok, pure_eq_ok, bne_eq_false_iff_eq,
    Json.str?_eq_some] at h
  obtain ⟨-, hid, -, hw, -, hdeact, doc', hparse, -, hdoc, rfl⟩ := h
  exact ⟨(parseDidDocument_raw hparse hw).1, hdoc, hid, hdeact, hparse⟩

/-- Every replay that returned a document read a log each entry of which was authorised by the
entries before it, and returned the state of the last. -/
theorem replay_carried {did log : Str} {doc : DidDocument} (h : replay C iso did log = .ok doc) :
    ∃ entries st, parseLines log = .ok entries ∧ entries ≠ [] ∧ Carried iso entries st ∧
      (∀ history e rest, entries = history ++ e :: rest → EntryAuthorized C iso history e) ∧
      finishReplay C did st = .ok doc := by
  simp only [replay, bind_eq_ok] at h
  obtain ⟨entries, hlines, st, hrun, hfin⟩ := h
  obtain ⟨hc, hall⟩ := enumerateLoop_invariant (fun _ _ _ _ => step_carried) carried_nil hrun
  exact ⟨entries, st, hlines, parseLines_ne_nil hlines, by simpa using hc,
    fun history e rest he => by simpa using hall history e rest he, hfin⟩

/-- The state of the last entry, as the document that is returned. -/
theorem Carried.last_state {entries : List Dict} {st : ReplayState} (hc : Carried iso entries st)
    {did : Str} (hid : st.state.get "id" = .str did) :
    ∃ last, entries.getLast? = some last ∧ last.get "state" = .obj st.state := by
  cases hl : entries.getLast? with
  | none =>
    rw [hc.state, hl] at hid
    cases hid
  | some last =>
    refine ⟨last, rfl, ?_⟩
    have hs := hc.state
    rw [hl] at hs
    cases ho : (last.get "state").obj? with
    | none =>
      rw [Option.bind_some, ho] at hs
      rw [hs] at hid
      cases hid
    | some m =>
      rw [Option.bind_some, ho] at hs
      rw [Json.obj?_eq_some.mp ho, hs]
      rfl

/-- The authorisation invariant of a replayed log: every entry is authorised by its history, the
returned document is the last entry's state, named by the DID, and the log's last word on
deactivation is falsy. -/
theorem replay_authorized {did log : Str} {doc : DidDocument}
    (h : replay C iso did log = .ok doc) :
    ∃ entries, parseLines log = .ok entries ∧
      (∀ history e rest, entries = history ++ e :: rest → EntryAuthorized C iso history e) ∧
      (∃ last, entries.getLast? = some last ∧ last.get "state" = .obj doc.raw) ∧
      doc.raw.get "id" = .str did ∧ doc.id = did ∧ parseDidDocument C (.obj doc.raw) = .ok doc ∧
      ∀ v, lastDeclared deactivatedValue entries = some v → v.truthy = false := by
  obtain ⟨entries, st, hlines, hne, hc, hall, hfin⟩ := replay_carried h
  obtain ⟨hraw, hdoc, hid, hdeact, hparse⟩ := finishReplay_eq_ok hfin
  refine ⟨entries, hlines, hall, ?_, ?_, hdoc, ?_, ?_⟩
  · rw [hraw]; exact hc.last_state hid
  · rw [hraw]; exact hid
  · rw [hraw]; exact hparse
  · intro v hv
    have hd := hc.deactivated
    rw [hdeact, hv] at hd
    exact hd.symm

/-- A log of two entries: the genesis commits to the key that signs the second. -/
def rotatedLog : Str :=
  List.flatMap lit
    ["\x7b\"versionId\":\"1-QmTw2Wp8iUgajACbzDWVgVrTP4QKqzmnrQeWwm7S7ESxt2\",",
     "\"versionTime\":\"2024-01-01T00:00:00Z\",\"parameters\":\x7b\"method\":\"did:webvh:1.0\",",
     "\"updateKeys\":[\"z6Mkon3Necd6NkkyfoGoHxid2znGc59LU3K7mubaRcFbLfLX\"],",
     "\"nextKeyHashes\":[\"Qmf5LPQcHPPWj6jY5etCXum7zJsqT1crW2Ri1aA5zaaFEm\"],",
     "\"scid\":\"QmPediW5Px7f9pS75AasgePkemNJe8FQtDTMTG2aPoVD5j\"\x7d,",
     "\"state\":\x7b\"id\":\"did:webvh:QmPediW5Px7f9pS75AasgePkemNJe8FQtDTMTG2aPoVD5j:a.io\"\x7d",
     ",\"proof\":[\x7b\"type\":\"DataIntegrityProof\",\"cryptosuite\":\"eddsa-jcs-2022\",",
     "\"proofPurpose\":\"assertionMethod\",",
     "\"verificationMethod\":\"did:key:z6Mkon3Necd6NkkyfoGoHxid2znGc59LU3K7mubaRcFbLfLX\",",
     "\"proofValue\":\"z2VFZstNYzciWuMiGpFYj6JXqCDVuw4cVY2VpQJG6DMGipnWEFNVyUfdtZLEzVkTubYMTJyC9",
     "cwky249RS3dFw4pm\"\x7d]\x7d\n",
     "\x7b\"versionId\":\"2-QmdrXBnwZM3sRXNojk6PBm3TCZAMvyZiXS3KojFq358gZB\",",
     "\"versionTime\":\"2024-01-02T00:00:00Z\",",
     "\"parameters\":\x7b\"updateKeys\":[\"z6Mko9hTggMwjSTEaJaPUfE6tqcy2xvU6BnNq3e3o8qVBiyH\"],",
     "\"nextKeyHashes\":[]\x7d,",
     "\"state\":\x7b\"id\":\"did:webvh:QmPediW5Px7f9pS75AasgePkemNJe8FQtDTMTG2aPoVD5j:a.io\"\x7d",
     ",\"proof\":[\x7b\"type\":\"DataIntegrityProof\",\"cryptosuite\":\"eddsa-jcs-2022\",",
     "\"proofPurpose\":\"assertionMethod\",",
     "\"verificationMethod\":\"did:key:z6Mko9hTggMwjSTEaJaPUfE6tqcy2xvU6BnNq3e3o8qVBiyH\",",
     "\"proofValue\":\"z2Pw56wLikvRH4LxwJxT9mEMNcNzVESUcwVZ4ovaBqjVFCHyBudacjZZD1xPAPpBLDtj4n93E",
     "fVgfPM7wF3jAf1Wz\"\x7d]\x7d"]

/-- The DID of `rotatedLog`. -/
def rotatedDid : Str :=
  lit "did:webvh:QmPediW5Px7f9pS75AasgePkemNJe8FQtDTMTG2aPoVD5j:a.io"

/-- The signatures on `rotatedLog`. -/
def rotatedSignatures : List SignatureRow :=
  [(0x8a88e3dd7409f195fd52db2d3cba5d72ca6709bf1d94121bf3748801b40f6f5c,
     (0x4a2251cb733611599f46342820b5af4b0e2ec1d2d26f4f85f336dfb221b129a3,
      0x0d51a01e8a6c745448603122e997b64122e110f5a997b2eea117862bf2c1bd92),
     (0x4a6135547c47c7dc5d287bd19ec8d008c97bf909cef8255b8119ad69940c26e9,
      0x71521124410a489ce35081c04c81466ebc51c87c9f2275b111a41f98baa8470e)),
   (0x8139770ea87d175f56a35466c34c7ecccb8d8a91b4ee37a25df60f5b8fc9b394,
     (0xd38d97839b32951e22ec4c397f56669d675bfdc9e8b18a7f76c707bd37c4408a,
      0x70f2ab12c655a3a63262cb7ee1de69b03beeb683a28d2e46d09c54dfa168b0b3),
     (0x45cafbbd12384ef79dc7aa91f7400de33a8489f2208a465004cfc159cfc8597a,
      0xbb10c2f74720cfe49e1bf2aad61db0e07cb602296e517088c384a21f90297c0b))]

/-- `fromisoformat` on the times of the sample logs. -/
def sampleIso (text : Str) : Option DateTime :=
  if text = lit "2024-01-01T00:00:00+00:00" then some ⟨1704067200000000, some 0⟩
  else if text = lit "2024-01-02T00:00:00+00:00" then some ⟨1704153600000000, some 0⟩
  else none

theorem rotatedLog_replays :
    returned (replay (.ofTable rotatedSignatures) sampleIso rotatedDid rotatedLog) = true := by
  rw [rotatedLog, rotatedDid]
  simp only [List.flatMap_cons, List.flatMap_nil]
  repeat rw [lit_ofList]
  decide +kernel

theorem replay_authorized_rotatedLog : ∃ doc entries,
    replay (.ofTable rotatedSignatures) sampleIso rotatedDid rotatedLog = .ok doc ∧
      parseLines rotatedLog = .ok entries ∧
      ∀ history e rest, entries = history ++ e :: rest →
        EntryAuthorized (.ofTable rotatedSignatures) sampleIso history e := by
  obtain ⟨doc, h⟩ := returned_iff.mp rotatedLog_replays
  obtain ⟨entries, hlines, hall, -⟩ := replay_authorized h
  exact ⟨doc, entries, h, hlines, hall⟩

/-! ## The self-certifying identifier -/

/-- The SCID segment of a DID: the text after `did:webvh:` up to the next colon. -/
def scidSegment (did : Str) : Str := (Str.partition 58 (did.drop (lit "did:webvh:").length)).1

/-- The DID's SCID segment is the SCID its log's genesis entry declares, and the hash of that entry
with the SCID replaced by its placeholder. -/
def ScidBound (C : Crypto) (did log : Str) : Prop :=
  ∃ genesis rest scid b, parseLines log = .ok (genesis :: rest) ∧
    (parameters genesis).get "scid" = .str scid ∧ scidPreimage genesis scid = .ok b ∧
    scidSegment did = scid ∧ scidSegment did = multihashB58 C b

/-- The log's last state names a DID whose SCID segment is the SCID of the log's genesis entry. -/
def SelfNamed (log : Str) : Prop :=
  ∃ genesis rest last state id, parseLines log = .ok (genesis :: rest) ∧
    (genesis :: rest).getLast? = some last ∧ last.get "state" = .obj state ∧
    Dict.get state "id" = .str id ∧ (parameters genesis).get "scid" = .str (scidSegment id)

/-- A resolved DID is bound to its log's genesis exactly when the log's last state names a DID that
carries the log's own SCID: the replay compares the DID with that `id` and with nothing else. -/
theorem replay_scidBound_iff {did log : Str} {doc : DidDocument}
    (h : replay C iso did log = .ok doc) : ScidBound C did log ↔ SelfNamed log := by
  obtain ⟨entries, st, hlines, hne, hc, hall, hfin⟩ := replay_carried h
  obtain ⟨-, -, hid, -, -⟩ := finishReplay_eq_ok hfin
  obtain ⟨last, hlast, hstate⟩ := hc.last_state hid
  obtain ⟨genesis, rest, rfl⟩ := List.exists_cons_of_ne_nil hne
  obtain ⟨scid, b, hscid, hpre, hhash⟩ := (hall [] genesis rest rfl).scid rfl
  constructor
  · rintro ⟨g, r, s, -, hl, hs, -, hseg, -⟩
    rw [hlines] at hl
    cases hl
    exact ⟨genesis, rest, last, st.state, did, hlines, hlast, hstate, hid, by rw [hseg, hs]⟩
  · rintro ⟨g, r, last', state, id, hl, hlast', hstate', hid', hs⟩
    rw [hlines] at hl
    cases hl
    rw [hlast] at hlast'
    cases hlast'
    rw [hstate] at hstate'
    cases hstate'
    rw [hid] at hid'
    cases hid'
    rw [hscid] at hs
    cases hs
    exact ⟨genesis, rest, _, b, hlines, hscid, hpre, rfl, hhash⟩

theorem replay_scidBound_iff_rotatedLog : ∃ doc,
    replay (.ofTable rotatedSignatures) sampleIso rotatedDid rotatedLog = .ok doc ∧
      (ScidBound (.ofTable rotatedSignatures) rotatedDid rotatedLog ↔ SelfNamed rotatedLog) := by
  obtain ⟨doc, h⟩ := returned_iff.mp rotatedLog_replays
  exact ⟨doc, h, replay_scidBound_iff h⟩

/-- A log whose genesis was made for another SCID than the DID its state names. -/
def forgedLog : Str :=
  List.flatMap lit
    ["\x7b\"versionId\":\"1-QmUtGdC1YvQ4Dp1AXogQMCXM4djq9XF56y2RoyHrBag8L5\",",
     "\"versionTime\":\"2024-01-01T00:00:00Z\",\"parameters\":\x7b\"method\":\"did:webvh:1.0\",",
     "\"updateKeys\":[\"z6Mkon3Necd6NkkyfoGoHxid2znGc59LU3K7mubaRcFbLfLX\"],",
     "\"scid\":\"QmQfyGUU2FT4v4VCmrMnc7NaLR9eknPbgfC9dWAVyS4G28\"\x7d,",
     "\"state\":\x7b\"id\":\"did:webvh:QmVictim:a.io\"\x7d,",
     "\"proof\":[\x7b\"type\":\"DataIntegrityProof\",\"cryptosuite\":\"eddsa-jcs-2022\",",
     "\"proofPurpose\":\"assertionMethod\",",
     "\"verificationMethod\":\"did:key:z6Mkon3Necd6NkkyfoGoHxid2znGc59LU3K7mubaRcFbLfLX\",",
     "\"proofValue\":\"zep5xUo9s7HoZnfegf97UKE4VUUNGZuCfLjKR83NE4ranPro4TFBunwpVxXHdUgqaffLEWqqV",
     "jh9WqM581zsBDsp\"\x7d]\x7d"]

/-- The DID `forgedLog` resolves for. -/
def victimDid : Str := "did:webvh:QmVictim:a.io"

/-- The signature on `forgedLog`. -/
def forgedSignatures : List SignatureRow :=
  [(0x8a88e3dd7409f195fd52db2d3cba5d72ca6709bf1d94121bf3748801b40f6f5c,
     (0x4a2251cb733611599f46342820b5af4b0e2ec1d2d26f4f85f336dfb221b129a3,
      0x1cdf765225f12b34aef7169f087e77b3130be0c2ac8c22f6b6a0fc0c6abd96cf),
     (0x209b8398a53e7194905266ed7ec899814a969f630548b08caa90d73e7c69059b,
      0x12ebc202afeb3ca333edb39e6a0e110d0ea849bf8656b76e436c8d8f6c742a03))]

theorem forgedLog_replays :
    returned (replay (.ofTable forgedSignatures) sampleIso victimDid forgedLog) = true := by
  rw [forgedLog]
  simp only [List.flatMap_cons, List.flatMap_nil]
  repeat rw [lit_ofList]
  decide +kernel

/-- The SCID the genesis entry of a log declares. -/
def genesisScid (log : Str) : Option Str :=
  match parseLines log with
  | .ok (genesis :: _) => ((parameters genesis).get "scid").str?
  | _ => none

theorem ScidBound.genesisScid_eq {did log : Str} (h : ScidBound C did log) :
    genesisScid log = some (scidSegment did) := by
  obtain ⟨genesis, rest, scid, _, hlines, hscid, -, hseg, -⟩ := h
  rw [genesisScid, hlines, hseg]
  exact Json.str?_eq_some.mpr hscid

/-- A host serves a log of its own making for a DID that carries another SCID, and it resolves. -/
theorem forgedLog_unbound : ∃ url doc, didWebvhUrl victimDid = .ok url ∧
    replay (.ofTable forgedSignatures) sampleIso victimDid forgedLog = .ok doc ∧
    ¬ ScidBound (.ofTable forgedSignatures) victimDid forgedLog := by
  have hurl : returned (didWebvhUrl victimDid) = true := by decide +kernel
  obtain ⟨url, hurl⟩ := returned_iff.mp hurl
  obtain ⟨doc, h⟩ := returned_iff.mp forgedLog_replays
  refine ⟨url, doc, hurl, h, fun hb => ?_⟩
  have hne : genesisScid forgedLog ≠ some (scidSegment victimDid) := by
    rw [forgedLog]
    simp only [List.flatMap_cons, List.flatMap_nil]
    repeat rw [lit_ofList]
    decide +kernel
  exact hne hb.genesisScid_eq

end OpenVC.Did
