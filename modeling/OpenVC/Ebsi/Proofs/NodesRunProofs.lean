import OpenVC.Ebsi.Proofs.NodesProofs
import OpenVC.Logic.Ratchet

/-!
# Proofs: a caller of the verifier never goes back

The caller persists the accepted pairs of its last successful verification and passes them to the
next one.
-/

namespace OpenVC.Nodes

open Python OpenPgp

/-! ## Digests -/

theorem hexDigitUpper_lower_injective : ∀ m < 16, ∀ n < 16,
    Str.asciiLower [hexDigitUpper m] = Str.asciiLower [hexDigitUpper n] → m = n := by
  decide

theorem hexLower_cons (b : UInt8) (data : Bytes) :
    hexLower (b :: data) = Str.asciiLower [hexDigitUpper (b.toNat / 16)] ++
      (Str.asciiLower [hexDigitUpper (b.toNat % 16)] ++ hexLower data) := rfl

/-- `data.hex()` determines the bytes. -/
theorem hexLower_injective : Function.Injective hexLower := by
  intro a b h
  induction a generalizing b with
  | nil =>
    cases b with
    | nil => rfl
    | cons y b => cases h
  | cons x a ih =>
    cases b with
    | nil => cases h
    | cons y b =>
      rw [hexLower_cons, hexLower_cons] at h
      obtain ⟨hhigh, h⟩ := List.append_inj h rfl
      obtain ⟨hlow, hrest⟩ := List.append_inj h rfl
      have hx := x.toNat_lt
      have hy := y.toNat_lt
      have hd := hexDigitUpper_lower_injective _ (by omega) _ (by omega) hhigh
      have hm := hexDigitUpper_lower_injective _ (by omega) _ (by omega) hlow
      have hxy : x = y := UInt8.toNat_inj.mp (by omega)
      rw [hxy, ih hrest]

/-! ## The caller -/

/-- The inputs of one call. -/
structure Call where
  input : Input
  config : Config

/-- A call after the last successful one returned `last`. -/
def attempt (P : Primitives) (last : Option VerifiedNodeList) (c : Call) :
    Result VerifiedNodeList :=
  verifyNodeList P c.input c.config (last.map VerifiedNodeList.acceptedList)
    (last.map VerifiedNodeList.acceptedKeys)

/-- The successful calls of a sequence, from nothing accepted, with their results. -/
def accepted (P : Primitives) (calls : List Call) : List (Call × VerifiedNodeList) :=
  Ratchet.successes (attempt P) none calls

/-- What the caller passes back after a sequence of calls. -/
def lastAccepted (P : Primitives) (calls : List Call) : Option VerifiedNodeList :=
  Ratchet.after (attempt P) none calls

/-- A pair that may be accepted after another one. -/
def Accepted.Follows (a b : Accepted) : Prop :=
  a.version ≤ b.version ∧ (a.version = b.version → a.sha256 = b.sha256)

theorem Accepted.Follows.trans {a b c : Accepted} (hab : a.Follows b) (hbc : b.Follows c) :
    a.Follows c := by
  refine ⟨hab.1.trans hbc.1, fun hac => ?_⟩
  have h₁ := hab.1
  have h₂ := hbc.1
  exact (hab.2 (by omega)).trans (hbc.2 (by omega))

/-- A result that may be accepted after another one. -/
def VerifiedNodeList.Follows (r r' : VerifiedNodeList) : Prop :=
  r.acceptedList.Follows r'.acceptedList ∧ r.acceptedKeys.Follows r'.acceptedKeys

instance : IsTrans VerifiedNodeList VerifiedNodeList.Follows where
  trans _ _ _ h₁ h₂ := ⟨h₁.1.trans h₂.1, h₁.2.trans h₂.2⟩

/-- What a successful call says of its result, whatever was kept before. -/
structure Recorded (P : Primitives) (c : Call) (r : VerifiedNodeList) : Prop where
  listVersion : r.acceptedList.version = r.version
  listFloor : c.config.listFloor ≤ r.version
  keysFloor : c.config.keysFloor ≤ r.acceptedKeys.version
  listDigest : r.acceptedList.sha256 = hexDigest P c.input.tnl
  keysDigest : r.acceptedKeys.sha256 = hexDigest P c.input.keys

theorem PairOk.follows {version floor : Int} {digest : Str} {last : Option Accepted} {a b : Accepted}
    (h : PairOk version digest floor last) (ha : a ∈ last) (hv : b.version = version)
    (hd : b.sha256 = digest) : a.Follows b := by
  refine ⟨hv ▸ h.last_le a ha, fun heq => ?_⟩
  rw [hd]
  exact h.same a ha (heq.trans hv)

/-- One call: the result is recorded as it was read, and follows what was passed back. -/
theorem attempt_step {P : Primitives} {last : Option VerifiedNodeList} {c : Call}
    {r : VerifiedNodeList} (h : attempt P last c = .ok r) :
    Recorded P c r ∧ ∀ b ∈ last, VerifiedNodeList.Follows b r := by
  obtain ⟨run⟩ := verifyNodeList_eq_ok h
  obtain ⟨_, hkeys⟩ := checkKeyList_eq_ok run.keyList_eq
  obtain ⟨_, _, hlist⟩ := checkList_eq_ok run.document_eq
  obtain ⟨hlv, hld⟩ := Accepted.init_eq_ok run.acceptedList_eq
  obtain ⟨hkv, hkd⟩ := Accepted.init_eq_ok run.acceptedKeys_eq
  obtain ⟨_, hversion, _⟩ := run.fields
  refine ⟨⟨hlv.trans hversion.symm, hversion ▸ hlist.floor_le, hkv ▸ hkeys.floor_le, hld, hkd⟩, ?_⟩
  intro b hb
  have hbl : b.acceptedList ∈ last.map VerifiedNodeList.acceptedList := Option.mem_map_of_mem _ hb
  have hbk : b.acceptedKeys ∈ last.map VerifiedNodeList.acceptedKeys := Option.mem_map_of_mem _ hb
  exact ⟨hlist.follows hbl hlv hld, hkeys.follows hbk hkv hkd⟩

theorem recorded_of_mem {P : Primitives} {calls : List Call} {p : Call × VerifiedNodeList}
    (hp : p ∈ accepted P calls) : p.1 ∈ calls ∧ Recorded P p.1 p.2 := by
  obtain ⟨hmem, last, hlast⟩ := Ratchet.attempt_of_mem_successes hp
  exact ⟨hmem, (attempt_step hlast).1⟩

/-! ## No rollback -/

/-- SHA-256 has no collision among the documents of a sequence of calls. -/
structure CollisionFree (P : Primitives) (calls : List Call) : Prop where
  lists : ∀ c ∈ calls, ∀ c' ∈ calls, P.sha256 c.input.tnl = P.sha256 c'.input.tnl →
    c.input.tnl = c'.input.tnl
  keys : ∀ c ∈ calls, ∀ c' ∈ calls, P.sha256 c.input.keys = P.sha256 c'.input.keys →
    c.input.keys = c'.input.keys

/-- An accepted call and a later one. -/
structure NoRollback (p q : Call × VerifiedNodeList) : Prop where
  list_le : p.2.version ≤ q.2.version
  keys_le : p.2.acceptedKeys.version ≤ q.2.acceptedKeys.version
  same_list : p.2.version = q.2.version → p.1.input.tnl = q.1.input.tnl
  same_keys : p.2.acceptedKeys.version = q.2.acceptedKeys.version → p.1.input.keys = q.1.input.keys

theorem noRollback_of_follows {P : Primitives} {calls : List Call}
    (hcf : CollisionFree P calls) {p q : Call × VerifiedNodeList} (hp : p ∈ accepted P calls)
    (hq : q ∈ accepted P calls) (h : VerifiedNodeList.Follows p.2 q.2) : NoRollback p q := by
  obtain ⟨hpc, rp⟩ := recorded_of_mem hp
  obtain ⟨hqc, rq⟩ := recorded_of_mem hq
  obtain ⟨⟨hll, hls⟩, ⟨hkl, hks⟩⟩ := h
  rw [rp.listVersion, rq.listVersion] at hll hls
  refine ⟨hll, hkl, fun heq => ?_, fun heq => ?_⟩
  · have hdigest := hls heq
    rw [rp.listDigest, rq.listDigest] at hdigest
    exact hcf.lists _ hpc _ hqc (hexLower_injective hdigest)
  · have hdigest := hks heq
    rw [rp.keysDigest, rq.keysDigest] at hdigest
    exact hcf.keys _ hpc _ hqc (hexLower_injective hdigest)

theorem verifyNodeList_no_rollback {P : Primitives} {calls : List Call}
    (hcf : CollisionFree P calls) :
    (accepted P calls).Pairwise NoRollback ∧
    (∀ p ∈ accepted P calls, p.1.config.listFloor ≤ p.2.version ∧
      p.1.config.keysFloor ≤ p.2.acceptedKeys.version) ∧
    (∀ before c later e, calls = before ++ c :: later →
      attempt P (lastAccepted P before) c = .error e →
      lastAccepted P (before ++ [c]) = lastAccepted P before ∧
        accepted P calls = accepted P (before ++ later)) := by
  refine ⟨?_, ?_, ?_⟩
  · have hfollows : (accepted P calls).Pairwise fun p q => VerifiedNodeList.Follows p.2 q.2 :=
      Ratchet.pairwise_successes fun h => (attempt_step h).2
    exact hfollows.imp_of_mem fun hp hq h => noRollback_of_follows hcf hp hq h
  · intro p hp
    obtain ⟨_, hr⟩ := recorded_of_mem hp
    exact ⟨hr.listFloor, hr.keysFloor⟩
  · rintro before c later e rfl herr
    exact ⟨Ratchet.after_append_error herr, Ratchet.successes_erase herr⟩

/-- A pair that was accepted is accepted again. -/
theorem checkPair_again {what digest : Str} {version floor : Int} {last : Option Accepted}
    {a : Accepted} (h : checkPair what version digest floor last = .ok ())
    (hv : a.version = version) (hd : a.sha256 = digest) :
    checkPair what version digest floor (some a) = .ok () := by
  have hfloor := (checkPair_eq_ok h).floor_le
  simp only [checkPair, bind_eq_ok, raiseIf_eq_ok, Option.any_some]
  exact ⟨(), by simpa using hfloor, (), by simp [hv], by simp [hd]⟩

/-- The bytes of an accepted list verify again after it. -/
theorem verifyNodeList_again {P : Primitives} {input : Input} {config : Config}
    {lastList lastKeys : Option Accepted} {r : VerifiedNodeList}
    (h : verifyNodeList P input config lastList lastKeys = .ok r) :
    verifyNodeList P input config (some r.acceptedList) (some r.acceptedKeys) = .ok r := by
  simp only [verifyNodeList, checkKeyList, checkList, bind_eq_ok, raiseIf_eq_ok, orRaise_eq_ok,
    pure_eq_ok] at h ⊢
  obtain ⟨arguments, harg, keyList, ⟨sigs, hsigs, signers, hsigners, ⟨⟩, hanchor, kl, hkl, ⟨⟩, hpair,
    hkeys⟩, ⟨⟩, hthreshold, document, ⟨doc, hdoc, ⟨⟩, hlistPair, hlist⟩, nodes, hnodes, al, hal, ak,
    hak, rfl⟩ := h
  obtain ⟨⟨⟩, _, ⟨⟩, _, rfl⟩ := hkeys
  obtain ⟨⟨⟩, _, ⟨⟩, _, ⟨⟩, _, ⟨⟩, _, rfl⟩ := hlist
  obtain ⟨hkv, hkd⟩ := Accepted.init_eq_ok hak
  obtain ⟨hlv, hld⟩ := Accepted.init_eq_ok hal
  exact ⟨arguments, harg, kl, ⟨sigs, hsigs, signers, hsigners, (), hanchor, kl, hkl, (),
    checkPair_again hpair hkv hkd, (), ‹_›, (), ‹_›, rfl⟩, (), hthreshold, doc, ⟨doc, hdoc, (),
    checkPair_again hlistPair hlv hld, (), ‹_›, (), ‹_›, (), ‹_›, (), ‹_›, rfl⟩, nodes, hnodes, al,
    hal, ak, hak, rfl⟩

/-- A call for an environment there is not. -/
def unknownCall : Call := ⟨sampleInput, { sampleConfig with environment := "test" }⟩

/-- The list of the example, a failed call, and the list again. -/
theorem verifyNodeList_no_rollback_sample :
    ∃ r, accepted samplePrimitives [⟨sampleInput, sampleConfig⟩, unknownCall,
        ⟨sampleInput, sampleConfig⟩] =
        [(⟨sampleInput, sampleConfig⟩, r), (⟨sampleInput, sampleConfig⟩, r)] ∧
      r.version = 4 ∧ (accepted samplePrimitives [⟨sampleInput, sampleConfig⟩, unknownCall,
        ⟨sampleInput, sampleConfig⟩]).Pairwise NoRollback := by
  obtain ⟨r, h, hr⟩ := sample_verified
  have h₁ : attempt samplePrimitives none ⟨sampleInput, sampleConfig⟩ = .ok r := h
  have h₂ : attempt samplePrimitives (some r) unknownCall = .error _ := rfl
  have h₃ : attempt samplePrimitives (some r) ⟨sampleInput, sampleConfig⟩ = .ok r :=
    verifyNodeList_again h
  refine ⟨r, ?_, (Prod.mk.inj hr).2, (verifyNodeList_no_rollback ⟨?_, ?_⟩).1⟩
  · rw [accepted, Ratchet.successes_of_ok h₁, Ratchet.successes_of_error h₂,
      Ratchet.successes_of_ok h₃]
    rfl
  · intro c hc c' hc' _
    simp only [List.mem_cons, List.not_mem_nil, or_false, unknownCall] at hc hc'
    rcases hc with rfl | rfl | rfl <;> rcases hc' with rfl | rfl | rfl <;> rfl
  · intro c hc c' hc' _
    simp only [List.mem_cons, List.not_mem_nil, or_false, unknownCall] at hc hc'
    rcases hc with rfl | rfl | rfl <;> rcases hc' with rfl | rfl | rfl <;> rfl

end OpenVC.Nodes
