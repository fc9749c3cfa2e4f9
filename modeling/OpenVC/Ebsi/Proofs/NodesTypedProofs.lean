import OpenVC.Ebsi.Nodes
import OpenVC.Ebsi.Proofs.NodesProofs
import OpenVC.Ebsi.Proofs.OpenPgpFramingProofs
import OpenVC.Ebsi.Proofs.OpenPgpReadsProofs
import OpenVC.Proofs.ErrorsProofs

/-!
# Typed failure of node-list verification

`verify_node_list` documents that it raises a `NodeListError` and nothing else. Every stage keeps to
it but the messages that show a floor or a minimum of the configuration: an integer of more than 4300
digits cannot be formatted.
-/

namespace OpenVC

open Python

/-! ## The OpenPGP reader -/

namespace OpenPgp

/-- An `OpenPgpError` is a `NodeListError`. -/
theorem typed_nodeListError {α : Type} {x : Result α} (h : Typed .openPgpError x) :
    Typed .nodeListError x := by
  refine h.mono fun e he => ?_
  revert he
  cases e.cls <;> decide

theorem typed_splitV4Signature (body : Bytes) : Typed .nodeListError (splitV4Signature body) := by
  refine (typed_raiseIf rfl).bind fun _ _ => ?_
  refine (typed_raiseIf rfl).bind fun _ _ => ?_
  refine (typed_raiseIf rfl).bind fun _ _ => ?_
  exact (typed_raiseIf rfl).bind fun _ _ => raisesOnly_ok

theorem typed_walkHashed (area : HashedArea) (sub : Subpacket) :
    Typed .nodeListError (walkHashed area sub) := by
  refine (typed_raiseIf rfl).bind fun _ _ => ?_
  refine (typed_raiseIf rfl).bind fun _ _ => ?_
  refine (typed_raiseIf rfl).bind fun _ _ => ?_
  refine RaisesOnly.bind ?_ fun _ _ => raisesOnly_ok
  unfold readSigner
  split
  · refine (typed_raiseIf rfl).bind fun _ _ => ?_
    exact (typed_raiseIf rfl).bind fun _ _ => raisesOnly_ok
  · exact raisesOnly_ok

theorem typed_checkHashedArea (hashed : Bytes) : Typed .nodeListError (checkHashedArea hashed) := by
  refine (typed_nodeListError (typed_subpacketsLoop _ _)).bind fun subs _ => ?_
  refine (RaisesOnly.enumerateLoop (fun area _ sub _ => typed_walkHashed area sub) _ _).bind
    fun area _ => ?_
  exact (typed_raiseIf rfl).bind fun _ _ => raisesOnly_ok

theorem typed_checkKeyBlockHashedArea (hashed : Bytes) :
    Typed .nodeListError (checkKeyBlockHashedArea hashed) := by
  refine (typed_nodeListError (typed_subpacketsLoop _ _)).bind fun subs _ => ?_
  exact RaisesOnly.each fun sub _ => typed_raiseIf rfl

theorem typed_checkUnhashedArea (unhashed : Bytes) :
    Typed .nodeListError (checkUnhashedArea unhashed) := by
  refine (typed_nodeListError (typed_subpacketsLoop _ _)).bind fun subs _ => ?_
  exact RaisesOnly.each fun sub _ => typed_raiseIf rfl

theorem typed_parseSignature (body : Bytes) : Typed .nodeListError (parseSignature body) := by
  refine (typed_splitV4Signature body).bind fun parts _ => ?_
  refine (typed_raiseIf rfl).bind fun _ _ => ?_
  refine (typed_raiseIf rfl).bind fun _ _ => ?_
  refine (typed_raiseIf rfl).bind fun _ _ => ?_
  refine (typed_checkHashedArea _).bind fun signer _ => ?_
  refine (typed_checkUnhashedArea _).bind fun _ _ => ?_
  refine (typed_raiseIf rfl).bind fun _ _ => ?_
  refine (typed_nodeListError (typed_mpi _ _)).bind fun (r, rest) _ => ?_
  refine (typed_nodeListError (typed_mpi _ _)).bind fun (s, rest) _ => ?_
  exact (typed_raiseIf rfl).bind fun _ _ => raisesOnly_ok

theorem typed_readSignatures (data : Bytes) : Typed .nodeListError (readSignatures data) := by
  refine (typed_raiseIf rfl).bind fun _ _ => ?_
  refine (typed_raiseIf rfl).bind fun _ _ => ?_
  refine (typed_nodeListError (typed_packetsLoop _ data)).bind fun ps _ => ?_
  refine RaisesOnly.collect fun p _ => ?_
  exact (typed_raiseIf rfl).bind fun _ _ => typed_parseSignature _

variable {P : Primitives}

theorem typed_verifiedSigners (signatures : List Signature) (document : Bytes) (allowed : Allowed) :
    Typed .nodeListError (verifiedSigners P signatures document allowed) := by
  refine RaisesOnly.enumerateLoop (fun signers _ signature _ => ?_) _ _
  unfold verifySigner
  split
  · exact raisesOnly_ok
  · exact (typed_raiseIf rfl).bind fun _ _ => raisesOnly_ok

theorem typed_makePublicKey (curve : Str) (point : Bytes) (fingerprint : Str) :
    Typed .nodeListError (makePublicKey P curve point fingerprint) := by
  refine (typed_raiseIf rfl).bind fun _ _ => ?_
  refine (typed_raiseIf rfl).bind fun _ _ => ?_
  exact (typed_raiseIf rfl).bind fun _ _ => raisesOnly_ok

theorem typed_parsePrimaryKey (body : Bytes) : Typed .nodeListError (parsePrimaryKey P body) := by
  refine (typed_raiseIf rfl).bind fun _ _ => ?_
  refine (typed_raiseIf rfl).bind fun _ _ => ?_
  refine (typed_raiseIf rfl).bind fun _ _ => ?_
  refine (typed_raiseIf rfl).bind fun _ _ => ?_
  refine (typed_nodeListError (typed_mpi _ _)).bind fun (point, rest) _ => ?_
  refine (typed_raiseIf rfl).bind fun _ _ => ?_
  exact typed_makePublicKey _ _ _

theorem typed_checkKeyPacket (p : Nat × Bytes) : Typed .nodeListError (checkKeyPacket p) := by
  unfold checkKeyPacket
  split
  · refine (typed_splitV4Signature _).bind fun parts _ => ?_
    refine (typed_raiseIf rfl).bind fun _ _ => ?_
    exact typed_checkKeyBlockHashedArea _
  · exact typed_raiseIf rfl

theorem typed_dearmor (armored : Json) : Typed .nodeListError (dearmor armored) := by
  refine (typed_orRaise rfl).bind fun text _ => ?_
  refine (typed_raiseIf rfl).bind fun _ _ => ?_
  refine (typed_raiseIf rfl).bind fun _ _ => ?_
  refine (typed_raiseIf rfl).bind fun _ _ => ?_
  dsimp only
  refine (typed_raiseIf rfl).bind fun _ _ => ?_
  refine RaisesOnly.bind ?_ fun _ _ => ?_
  · refine RaisesOnly.each fun line _ => ?_
    exact (typed_raiseIf rfl).bind fun _ _ => typed_raiseIf rfl
  refine (typed_orRaise rfl).bind fun data _ => ?_
  refine RaisesOnly.bind ?_ fun crc _ => ?_
  · unfold readCrcLine
    split
    · exact raisesOnly_ok
    · refine RaisesOnly.bind ?_ fun _ _ => raisesOnly_ok
      refine (typed_raiseIf rfl).bind fun _ _ => ?_
      exact (typed_orRaise rfl).bind fun _ _ => raisesOnly_ok
  refine (typed_raiseIf rfl).bind fun _ _ => ?_
  exact (typed_raiseIf rfl).bind fun _ _ => raisesOnly_ok

theorem typed_readPublicKeyBlock (armored : Json) :
    Typed .nodeListError (readPublicKeyBlock P armored) := by
  refine (typed_dearmor armored).bind fun data _ => ?_
  refine (typed_nodeListError (typed_packetsLoop _ data)).bind fun ps _ => ?_
  refine (typed_orRaise rfl).bind fun (body, rest) _ => ?_
  refine (typed_parsePrimaryKey body).bind fun key _ => ?_
  refine RaisesOnly.bind ?_ fun _ _ => raisesOnly_ok
  exact RaisesOnly.each fun p _ => typed_checkKeyPacket p

end OpenPgp

/-! ## The two documents -/

namespace Nodes

open OpenPgp

theorem typed_loadObject (raw : Bytes) (name : Str) : Typed .nodeListError (loadObject raw name) := by
  refine (typed_orRaise rfl).bind fun text _ => ?_
  refine (typed_raiseIf rfl).bind fun _ _ => ?_
  refine ((typed_recast rfl).mpr ?_).bind fun value _ => typed_orRaise rfl
  refine RaisesOnly.bind (raisesOnly_orRaise.mpr fun _ => .inl rfl) fun value _ => ?_
  refine RaisesOnly.bind (raisesOnly_raiseIf.mpr fun _ => .inl rfl) fun _ _ => raisesOnly_ok

theorem typed_readInstant (value : Json) (what : Str) :
    Typed .nodeListError (readInstant value what) := by
  refine (typed_orRaise rfl).bind fun text _ => ?_
  exact typed_orRaise rfl

theorem typed_readNode (entry : Json) (environment : Str) (seen : List Str) (what : Str) :
    Typed .nodeListError (readNode entry environment seen what) := by
  refine (typed_orRaise rfl).bind fun entry _ => ?_
  refine RaisesOnly.bind (typed_raiseIf rfl) fun _ _ => ?_
  refine RaisesOnly.bind ?_ fun url _ => ?_
  · refine (typed_orRaise rfl).bind fun start _ => ?_
    refine (typed_orRaise rfl).bind fun origin _ => ?_
    refine (typed_raiseIf rfl).bind fun _ _ => ?_
    exact RaisesOnly.bind (typed_raiseIf rfl) fun _ _ => raisesOnly_ok
  refine (typed_raiseIf rfl).bind fun _ _ => ?_
  refine (typed_orRaise rfl).bind fun country _ => ?_
  refine (typed_orRaise rfl).bind fun organisation _ => ?_
  refine (typed_raiseIf rfl).bind fun _ _ => ?_
  exact (typed_raiseIf rfl).bind fun _ _ => raisesOnly_ok

theorem typed_parseList (raw : Bytes) : Typed .nodeListError (parseList raw) := by
  refine (typed_loadObject raw _).bind fun doc _ => ?_
  refine RaisesOnly.bind (typed_raiseIf rfl) fun _ _ => ?_
  refine RaisesOnly.bind (typed_orRaise rfl) fun version _ => ?_
  refine RaisesOnly.bind (typed_orRaise rfl) fun keysVersion _ => ?_
  refine (typed_readInstant _ _).bind fun issued _ => ?_
  refine (typed_readInstant _ _).bind fun expires _ => ?_
  refine (typed_raiseIf rfl).bind fun _ _ => ?_
  refine (typed_orRaise rfl).bind fun envs _ => ?_
  refine RaisesOnly.bind ?_ fun _ _ => raisesOnly_ok
  refine RaisesOnly.enumerateLoop (fun st _ environment _ => ?_) _ _
  unfold readEnvironment
  split
  · exact raisesOnly_ok
  · refine (typed_orRaise rfl).bind fun entries _ => ?_
    refine (typed_raiseIf rfl).bind fun _ _ => ?_
    refine RaisesOnly.bind ?_ fun _ _ => raisesOnly_ok
    refine RaisesOnly.enumerateLoop (fun st i entry _ => ?_) _ _
    exact (typed_readNode _ _ _ _).bind fun _ _ => raisesOnly_ok

theorem typed_parseKeyList (raw : Bytes) : Typed .nodeListError (parseKeyList raw) := by
  refine (typed_loadObject raw _).bind fun doc _ => ?_
  refine RaisesOnly.bind (typed_raiseIf rfl) fun _ _ => ?_
  refine RaisesOnly.bind (typed_orRaise rfl) fun version _ => ?_
  refine (typed_orRaise rfl).bind fun threshold _ => ?_
  refine (typed_orRaise rfl).bind fun keys _ => ?_
  refine RaisesOnly.bind ?_ fun _ _ => raisesOnly_ok
  refine RaisesOnly.collect fun p _ => ?_
  refine (typed_orRaise rfl).bind fun entry _ => ?_
  refine RaisesOnly.bind (typed_raiseIf rfl) fun _ _ => ?_
  exact (typed_orRaise rfl).bind fun _ _ => raisesOnly_ok

variable {P : Primitives}

theorem typed_readCustodians (custodians : List Custodian) :
    Typed .nodeListError (readCustodians P custodians) := by
  refine RaisesOnly.enumerateLoop (fun allowed i custodian _ => ?_) _ _
  refine (typed_readPublicKeyBlock _).bind fun key _ => ?_
  refine (typed_raiseIf rfl).bind fun _ _ => ?_
  exact (typed_raiseIf rfl).bind fun _ _ => raisesOnly_ok

theorem typed_init (version : Int) (sha256 : Str) :
    Typed .nodeListError (Accepted.init version sha256) := by
  unfold Accepted.init
  split
  · split
    · exact raisesOnly_ok
    · exact typed_raise rfl
  · exact typed_raise rfl

/-! ## The configuration -/

theorem typed_checkArguments (input : Input) (config : Config) :
    Typed .nodeListError (checkArguments P input config) := by
  refine (typed_raiseIf rfl).bind fun _ _ => ?_
  refine RaisesOnly.bind ?_ fun instant _ => ?_
  · refine (typed_orRaise rfl).bind fun now _ => ?_
    exact (typed_raiseIf rfl).bind fun _ _ => raisesOnly_ok
  refine RaisesOnly.bind ?_ fun anchor _ => ?_
  · refine (typed_raiseIf rfl).bind fun _ _ => ?_
    exact (typed_reraise rfl).mpr ((typed_makePublicKey _ _ _).mono fun e he => .inr he)
  refine RaisesOnly.bind (typed_raiseIf rfl) fun _ _ => ?_
  refine RaisesOnly.bind (typed_raiseIf rfl) fun _ _ => ?_
  refine (typed_raiseIf rfl).bind fun _ _ => ?_
  refine RaisesOnly.bind ?_ fun _ _ => ?_
  · unfold checkMinimum
    split
    · exact raisesOnly_ok
    · exact typed_raiseIf rfl
  refine RaisesOnly.bind (typed_raiseIf rfl) fun _ _ => ?_
  refine RaisesOnly.bind (typed_raiseIf rfl) fun _ _ => ?_
  refine RaisesOnly.bind (typed_raiseIf rfl) fun _ _ => ?_
  exact RaisesOnly.bind (typed_raiseIf rfl) fun _ _ => raisesOnly_ok

/-- An integer has too many digits to be formatted. -/
def Unprintable (n : Int) : Prop := 10 ^ maxStrDigits ≤ n.natAbs

theorem isa_formatting_iff {n : Int} {e : Err} (he : e.cls.isa .nodeListError = true) :
    (formatting n e).cls.isa .nodeListError = true ↔ ¬ Unprintable n := by
  unfold formatting
  split
  · rename_i h
    exact iff_of_false (by decide) (not_not_intro h)
  · rename_i h
    exact iff_of_true he h

/-- The rollback rule is typed unless it has to show an unprintable floor. -/
theorem typed_checkPair_iff {what digest : Str} {version floor : Int} {last : Option Accepted} :
    Typed .nodeListError (checkPair what version digest floor last) ↔
      ¬ (version < floor ∧ Unprintable floor) := by
  constructor
  · rintro h ⟨hlt, hfloor⟩
    have hraise := raisesOnly_raiseIf.mp (raisesOnly_bind.mp h).1 (by simpa using hlt)
    exact (isa_formatting_iff rfl).mp hraise hfloor
  · intro h
    refine RaisesOnly.bind ?_ fun _ _ => ?_
    · refine raisesOnly_raiseIf.mpr fun hlt => ?_
      exact (isa_formatting_iff rfl).mpr fun hfloor => h ⟨by simpa using hlt, hfloor⟩
    · exact (typed_raiseIf rfl).bind fun _ _ => typed_raiseIf rfl

/-! ## The verifier -/

/-- The key list was read, signed by the anchor. -/
def KeyListRead (P : Primitives) (input : Input) (anchor : PublicKey) (keyList : KeyList) : Prop :=
  ∃ signatures signers, readSignatures input.keysSig = .ok signatures ∧
    verifiedSigners P signatures input.keys [(anchor.fingerprint, anchor)] = .ok signers ∧
    signers.contains anchor.fingerprint = true ∧ parseKeyList input.keys = .ok keyList

/-- The key list and its version pass up to the configured minimum, which is not met and cannot be
shown. -/
structure MinimumEscape (input : Input) (config : Config) (keyList : KeyList)
    (lastKeys : Option Accepted) (P : Primitives) : Prop where
  pair : checkPair "trusted-keys.json" keyList.version (hexDigest P input.keys) config.keysFloor
    lastKeys = .ok ()
  threshold : 1 ≤ keyList.threshold ∧ keyList.threshold ≤ keyList.custodians.length
  minimum : ∃ m, config.minThreshold = some m ∧ keyList.threshold < m ∧ Unprintable m

theorem typed_checkKeyList_iff {input : Input} {config : Config} {anchor : PublicKey}
    {lastKeys : Option Accepted} :
    Typed .nodeListError (checkKeyList P input config anchor lastKeys) ↔
      ∀ keyList, KeyListRead P input anchor keyList →
        ¬ (keyList.version < config.keysFloor ∧ Unprintable config.keysFloor) ∧
          ¬ MinimumEscape input config keyList lastKeys P := by
  constructor
  · rintro h keyList ⟨signatures, signers, hsignatures, hsigners, hanchor, hparse⟩
    have h := (raisesOnly_bind.mp h).2 signatures hsignatures
    have h := (raisesOnly_bind.mp h).2 signers hsigners
    have h := (raisesOnly_bind.mp h).2 () (raiseIf_eq_ok.mpr (by rw [hanchor]; rfl))
    have h := (raisesOnly_bind.mp h).2 keyList hparse
    obtain ⟨hpair, h⟩ := raisesOnly_bind.mp h
    refine ⟨typed_checkPair_iff.mp hpair, ?_⟩
    rintro ⟨hpair, ⟨hpos, hle⟩, m, hm, hlt, hprint⟩
    have h := (raisesOnly_bind.mp (h () hpair)).2 () (raiseIf_eq_ok.mpr (by simp [hpos, hle]))
    have hraise := raisesOnly_raiseIf.mp (raisesOnly_bind.mp h).1 (by simp [hm, hlt])
    have hraise := (isa_formatting_iff rfl).mp hraise
    rw [hm] at hraise
    exact hraise hprint
  · intro h
    refine (typed_readSignatures _).bind fun signatures hsignatures => ?_
    refine (typed_verifiedSigners _ _ _).bind fun signers hsigners => ?_
    refine (typed_raiseIf rfl).bind fun _ hanchor => ?_
    refine (typed_parseKeyList _).bind fun keyList hparse => ?_
    have hanchor : signers.contains anchor.fingerprint = true := by
      simpa using raiseIf_eq_ok.mp hanchor
    obtain ⟨hfloor, hminimum⟩ := h keyList ⟨signatures, signers, hsignatures, hsigners, hanchor, hparse⟩
    refine (typed_checkPair_iff.mpr hfloor).bind fun _ hpair => ?_
    refine (typed_raiseIf rfl).bind fun _ hthreshold => ?_
    refine RaisesOnly.bind ?_ fun _ _ => raisesOnly_ok
    refine raisesOnly_raiseIf.mpr fun hany => (isa_formatting_iff rfl).mpr fun hprint => ?_
    cases hm : config.minThreshold with
    | none =>
      rw [hm] at hany
      cases hany
    | some m =>
      rw [hm] at hany hprint
      exact hminimum ⟨hpair, by simpa using raiseIf_eq_ok.mp hthreshold, m, hm,
        by simpa using hany, hprint⟩

theorem typed_checkThreshold (input : Input) (keyList : KeyList) :
    Typed .nodeListError (checkThreshold P input keyList) := by
  refine (typed_readCustodians _).bind fun custodians _ => ?_
  refine (typed_readSignatures _).bind fun signatures _ => ?_
  refine (typed_verifiedSigners _ _ _).bind fun signers _ => ?_
  exact typed_raiseIf rfl

theorem typed_checkList_iff {input : Input} {config : Config} {instant : Int} {keyList : KeyList}
    {lastList : Option Accepted} :
    Typed .nodeListError (checkList P input config instant keyList lastList) ↔
      ∀ document, parseList input.tnl = .ok document →
        ¬ (document.version < config.listFloor ∧ Unprintable config.listFloor) := by
  constructor
  · intro h document hparse
    have h := (raisesOnly_bind.mp h).2 document hparse
    exact typed_checkPair_iff.mp (raisesOnly_bind.mp h).1
  · intro h
    refine (typed_parseList _).bind fun document hparse => ?_
    refine (typed_checkPair_iff.mpr (h document hparse)).bind fun _ _ => ?_
    refine (typed_raiseIf rfl).bind fun _ _ => ?_
    refine (typed_raiseIf rfl).bind fun _ _ => ?_
    refine (typed_raiseIf rfl).bind fun _ _ => ?_
    exact (typed_raiseIf rfl).bind fun _ _ => raisesOnly_ok

/-- How a call leaves the family: a floor or the minimum of its configuration has to be shown in a
message and has too many digits. -/
inductive Escape (P : Primitives) (input : Input) (config : Config) (lastKeys : Option Accepted) :
    Prop
  | keysFloor (instant : Int) (anchor : PublicKey) (keyList : KeyList)
      (harguments : checkArguments P input config = .ok (instant, anchor))
      (hread : KeyListRead P input anchor keyList)
      (hfloor : keyList.version < config.keysFloor) (hprint : Unprintable config.keysFloor)
  | minimum (instant : Int) (anchor : PublicKey) (keyList : KeyList)
      (harguments : checkArguments P input config = .ok (instant, anchor))
      (hread : KeyListRead P input anchor keyList)
      (hminimum : MinimumEscape input config keyList lastKeys P)
  | listFloor (instant : Int) (anchor : PublicKey) (keyList : KeyList) (document : Document)
      (harguments : checkArguments P input config = .ok (instant, anchor))
      (hkeyList : checkKeyList P input config anchor lastKeys = .ok keyList)
      (hthreshold : checkThreshold P input keyList = .ok ())
      (hparse : parseList input.tnl = .ok document)
      (hfloor : document.version < config.listFloor) (hprint : Unprintable config.listFloor)

theorem typed_verifyNodeList_iff {input : Input} {config : Config}
    {lastList lastKeys : Option Accepted} :
    Typed .nodeListError (verifyNodeList P input config lastList lastKeys) ↔
      ¬ Escape P input config lastKeys := by
  constructor
  · rintro h (⟨instant, anchor, keyList, harguments, hread, hfloor, hprint⟩ |
      ⟨instant, anchor, keyList, harguments, hread, hminimum⟩ |
      ⟨instant, anchor, keyList, document, harguments, hkeyList, hthreshold, hparse, hfloor, hprint⟩)
    · have h := (raisesOnly_bind.mp h).2 (instant, anchor) harguments
      have h := typed_checkKeyList_iff.mp (raisesOnly_bind.mp h).1 keyList hread
      exact h.1 ⟨hfloor, hprint⟩
    · have h := (raisesOnly_bind.mp h).2 (instant, anchor) harguments
      have h := typed_checkKeyList_iff.mp (raisesOnly_bind.mp h).1 keyList hread
      exact h.2 hminimum
    · have h := (raisesOnly_bind.mp h).2 (instant, anchor) harguments
      have h := (raisesOnly_bind.mp h).2 keyList hkeyList
      have h := (raisesOnly_bind.mp h).2 () hthreshold
      exact typed_checkList_iff.mp (raisesOnly_bind.mp h).1 document hparse ⟨hfloor, hprint⟩
  · intro h
    refine (typed_checkArguments input config).bind fun (instant, anchor) harguments => ?_
    refine RaisesOnly.bind ?_ fun keyList hkeyList => ?_
    · refine typed_checkKeyList_iff.mpr fun keyList hread => ⟨?_, fun hminimum => ?_⟩
      · rintro ⟨hfloor, hprint⟩
        exact h (.keysFloor instant anchor keyList harguments hread hfloor hprint)
      · exact h (.minimum instant anchor keyList harguments hread hminimum)
    refine (typed_checkThreshold input keyList).bind fun _ hthreshold => ?_
    refine RaisesOnly.bind ?_ fun document _ => ?_
    · refine typed_checkList_iff.mpr fun document hparse => ?_
      rintro ⟨hfloor, hprint⟩
      exact h (.listFloor instant anchor keyList document harguments hkeyList hthreshold hparse
        hfloor hprint)
    refine (typed_orRaise rfl).bind fun nodes _ => ?_
    refine (typed_init _ _).bind fun acceptedList _ => ?_
    exact (typed_init _ _).bind fun _ _ => raisesOnly_ok

/-- `verify_node_list` returns or raises a `NodeListError` exactly where it has no unprintable integer
of its configuration to show; and the OpenPGP reader it calls reads inside its buffers. -/
theorem verifyNodeList_typed_iff (P : Primitives) :
    (∀ input config lastList lastKeys,
      Typed .nodeListError (verifyNodeList P input config lastList lastKeys) ↔
        ¬ Escape P input config lastKeys) ∧
    (∀ data, Reads.readSignatures data = readSignatures data) ∧
    (∀ armored, Reads.readPublicKeyBlock P armored = readPublicKeyBlock P armored) ∧
    ∀ curve point fingerprint, Reads.makePublicKey P curve point fingerprint =
      makePublicKey P curve point fingerprint :=
  ⟨fun _ _ _ _ => typed_verifyNodeList_iff, Reads.readSignatures_eq,
    Reads.readPublicKeyBlock_eq P, Reads.makePublicKey_eq P⟩

/-- A call whose floor for the key list has 4301 digits. -/
def unprintableConfig : Config := { sampleConfig with keysFloor := 10 ^ 4300 }

/-- It raises `ValueError`. -/
theorem verifyNodeList_unprintable : ¬ Typed .nodeListError
    (verifyNodeList samplePrimitives sampleInput unprintableConfig none none) := by
  refine not_typed_of_raised (c := .valueError) ?_ rfl
  unfold sampleInput sampleList sampleKeys
  simp only [List.flatMap_cons, List.flatMap_nil]
  repeat rw [lit_ofList]
  decide +kernel

end Nodes

end OpenVC
