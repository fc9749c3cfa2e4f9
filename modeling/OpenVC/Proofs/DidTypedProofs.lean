import OpenVC.Did.DidWebvh
import OpenVC.Proofs.Base58Proofs
import OpenVC.Proofs.ErrorsProofs

/-!
# What the resolution of a document raises

A document and a log are written by whoever hosts them. Parsing the one and replaying the other raises
`DidResolutionError` only, whatever they hold.
-/

namespace Python.Codec

theorem exists_encodeUtf8_of_isAscii {s : Str} (h : s.isAscii = true) :
    ∃ b, encodeUtf8 s = some b := by
  induction s with
  | nil => exact ⟨[], rfl⟩
  | cons c s ih =>
    simp only [Str.isAscii, List.all_cons, Bool.and_eq_true, decide_eq_true_eq] at h
    obtain ⟨r, hr⟩ := ih h.2
    refine ⟨[UInt8.ofNat c] ++ r, ?_⟩
    unfold encodeUtf8 utf8Char
    rw [if_pos h.1, hr]

end Python.Codec

namespace OpenVC.Jcs

open Python

theorem typed_ecmascriptDouble (d : PyFloat) : Typed .jcsError (ecmascriptDouble d) := by
  unfold ecmascriptDouble
  split
  · split <;> exact raisesOnly_ok
  · exact typed_raise rfl

theorem typed_numberInt (n : Int) : Typed .jcsError (numberInt n) := by
  unfold numberInt
  split
  · exact raisesOnly_ok
  split
  · exact typed_ecmascriptDouble _
  · exact typed_raise rfl

theorem typed_joinMembers {l : List (Str × Result Str)} (h : ∀ p ∈ l, Typed .jcsError p.2) :
    Typed .jcsError (joinMembers l) := by
  refine RaisesOnly.collect fun p hp => ?_
  have hmem : p ∈ l := (List.mem_insertionSort _).mp hp
  have hp := h p hmem
  cases hvalue : p.2 with
  | ok t => exact raisesOnly_ok
  | error e => exact raisesOnly_error.mpr (hp e hvalue)

mutual

theorem typed_serialize (depth : Nat) : (v : Json) → Typed .jcsError (serialize depth v)
  | .null | .bool true | .bool false | .str _ => by
    unfold serialize
    split
    · exact typed_raise rfl
    · exact raisesOnly_ok
  | .int n => by
    unfold serialize
    split
    · exact typed_raise rfl
    · exact typed_numberInt n
  | .float d => by
    unfold serialize
    split
    · exact typed_raise rfl
    · exact typed_ecmascriptDouble d
  | .arr l => by
    have hlist := typed_serializeList (depth + 1) l
    unfold serialize
    split
    · exact typed_raise rfl
    dsimp only
    split
    · exact raisesOnly_ok
    · rename_i e he
      exact raisesOnly_error.mpr (hlist e he)
  | .obj m => by
    have hmembers := typed_joinMembers (typed_serializeMembers (depth + 1) m)
    unfold serialize
    split
    · exact typed_raise rfl
    dsimp only
    split
    · exact raisesOnly_ok
    · rename_i e he
      exact raisesOnly_error.mpr (hmembers e he)

theorem typed_serializeList (depth : Nat) :
    (l : List Json) → Typed .jcsError (serializeList depth l)
  | [] => raisesOnly_ok
  | v :: t => by
    have hv := typed_serialize depth v
    have ht := typed_serializeList depth t
    unfold serializeList
    split
    · rename_i e he
      exact raisesOnly_error.mpr (hv e he)
    split
    · rename_i e he
      exact raisesOnly_error.mpr (ht e he)
    · exact raisesOnly_ok

theorem typed_serializeMembers (depth : Nat) : (m : List (Str × Json)) →
    ∀ p ∈ serializeMembers depth m, Typed .jcsError p.2
  | [] => List.forall_mem_nil _
  | (k, v) :: t => by
    unfold serializeMembers
    exact List.forall_mem_cons.mpr ⟨typed_serialize depth v, typed_serializeMembers depth t⟩

end

theorem typed_canonicalize (v : Json) : Typed .jcsError (canonicalize v) :=
  (typed_serialize 0 v).bind fun _ _ => typed_orRaise rfl

end OpenVC.Jcs

namespace OpenVC.Multibase

open Python

theorem typed_decodeMultibase (s : Str) : Typed .multibaseError (decodeMultibase s) := by
  refine (typed_raiseIf rfl).bind fun _ _ => ?_
  refine (typed_raiseIf rfl).bind fun _ _ => ?_
  exact (typed_b58Value 0 _).bind fun _ _ => raisesOnly_pure

theorem typed_readVarintLoop (result shift i : Nat) (data : Bytes) :
    Typed .multibaseError (readVarintLoop result shift i data) := by
  induction data generalizing result shift i with
  | nil => exact typed_raise rfl
  | cons b t ih =>
    unfold readVarintLoop
    split
    · exact typed_raise rfl
    dsimp only
    split
    · exact raisesOnly_ok
    · exact ih _ _ _

end OpenVC.Multibase

namespace OpenVC.Did

open Python Multibase

/-! ## The document -/

theorem typed_array (value : Json) (what : Str) : Typed .didResolutionError (array value what) := by
  unfold array
  split
  · exact raisesOnly_ok
  · exact typed_raise rfl

theorem typed_parseDidDocument (C : Crypto) (raw : Json) :
    Typed .didResolutionError (parseDidDocument C raw) := by
  refine (typed_orRaise rfl).bind fun outer _ => ?_
  refine (typed_raiseIf rfl).bind fun _ _ => ?_
  refine (typed_orRaise rfl).bind fun doc _ => ?_
  refine (typed_array _ _).bind fun methods _ => ?_
  refine RaisesOnly.bind ?_ fun _ _ => raisesOnly_pure
  refine RaisesOnly.collect fun key _ => ?_
  refine RaisesOnly.bind ?_ fun _ _ => raisesOnly_pure
  exact (typed_array _ _).bind fun _ _ => raisesOnly_pure

theorem typed_validatedDocument (C : Crypto) (raw : Dict) (did : Str) :
    Typed .didResolutionError (validatedDocument C raw did) := by
  refine (typed_parseDidDocument C _).bind fun doc _ => ?_
  exact (typed_raiseIf rfl).bind fun _ _ => raisesOnly_pure

theorem typed_checkHost (host did : Str) : Typed .didResolutionError (checkHost host did) := by
  unfold checkHost
  dsimp only
  refine (typed_raiseIf rfl).bind fun _ _ => ?_
  refine (typed_raiseIf rfl).bind fun _ _ => ?_
  refine (typed_raiseIf rfl).bind fun _ _ => ?_
  exact (typed_raiseIf rfl).bind fun _ _ => typed_raiseIf rfl

theorem typed_didWebUrl (did : Str) : Typed .didResolutionError (didWebUrl did) := by
  refine (typed_raiseIf rfl).bind fun _ _ => ?_
  exact (typed_checkHost _ _).bind fun _ _ => raisesOnly_pure

theorem typed_didWebvhUrl (did : Str) : Typed .didResolutionError (didWebvhUrl did) := by
  refine (typed_raiseIf rfl).bind fun _ _ => ?_
  refine ((typed_reraise rfl).mpr ?_).bind fun _ _ => raisesOnly_pure
  exact (typed_didWebUrl _).mono fun e he => .inl he

/-! ## An entry of a log -/

variable {C : Crypto} {iso : Str → Option DateTime}

theorem typed_jcs (v : Json) : Typed .didResolutionError (jcs v) := by
  refine (typed_reraise rfl).mpr ?_
  refine (Jcs.typed_canonicalize v).mono fun e he => .inl ?_
  simp [he]

mutual

theorem typed_deepReplaceScid (scid : Str) (depth : Nat) :
    (v : Json) → Typed .didResolutionError (deepReplaceScid scid depth v)
  | .null | .bool _ | .int _ | .float _ | .str _ => by
    unfold deepReplaceScid
    split
    · exact raisesOnly_error.mpr rfl
    · exact raisesOnly_ok
  | .arr l => by
    have hlist := typed_deepReplaceScidList scid (depth + 1) l
    unfold deepReplaceScid
    split
    · exact raisesOnly_error.mpr rfl
    dsimp only
    split
    · exact raisesOnly_ok
    · rename_i e he
      exact raisesOnly_error.mpr (hlist e he)
  | .obj m => by
    have hmembers := typed_deepReplaceScidMembers scid (depth + 1) m
    unfold deepReplaceScid
    split
    · exact raisesOnly_error.mpr rfl
    dsimp only
    split
    · exact raisesOnly_ok
    · rename_i e he
      exact raisesOnly_error.mpr (hmembers e he)

theorem typed_deepReplaceScidList (scid : Str) (depth : Nat) :
    (l : List Json) → Typed .didResolutionError (deepReplaceScidList scid depth l)
  | [] => raisesOnly_ok
  | v :: t => by
    have hv := typed_deepReplaceScid scid depth v
    have ht := typed_deepReplaceScidList scid depth t
    unfold deepReplaceScidList
    split
    · rename_i e he
      exact raisesOnly_error.mpr (hv e he)
    split
    · rename_i e he
      exact raisesOnly_error.mpr (ht e he)
    · exact raisesOnly_ok

theorem typed_deepReplaceScidMembers (scid : Str) (depth : Nat) : (m : List (Str × Json)) →
    Typed .didResolutionError (deepReplaceScidMembers scid depth m)
  | [] => raisesOnly_ok
  | (k, v) :: t => by
    have hv := typed_deepReplaceScid scid depth v
    have ht := typed_deepReplaceScidMembers scid depth t
    unfold deepReplaceScidMembers
    split
    · rename_i e he
      exact raisesOnly_error.mpr (hv e he)
    split
    · rename_i e he
      exact raisesOnly_error.mpr (ht e he)
    · exact raisesOnly_ok

end

/-- The key of an update is 32 bytes, so its signatures are checked without an exception. -/
theorem webvhMultikeyToJwk_eq_ok {multikey : Str} {jwk : Dict}
    (h : webvhMultikeyToJwk multikey = .ok jwk) :
    ∃ raw : Bytes, raw.length = 32 ∧ jwkBytes jwk "x" = some raw := by
  simp only [webvhMultikeyToJwk, bind_eq_ok, raiseIf_eq_ok, pure_eq_ok] at h
  obtain ⟨⟨raw, code, off⟩, -, ⟨⟩, hkey, rfl⟩ := h
  simp only [Bool.or_eq_false_iff, bne_eq_false_iff_eq] at hkey
  exact ⟨raw.drop off, hkey.2, Codec.b64urlDecodePadded_b64urlEncode _⟩

theorem typed_webvhMultikeyToJwk (multikey : Str) :
    Typed .didResolutionError (webvhMultikeyToJwk multikey) := by
  refine RaisesOnly.bind ((typed_reraise rfl).mpr ?_) fun key _ => ?_
  · refine RaisesOnly.mono ?_ fun e he => .inl he
    refine (typed_decodeMultibase multikey).bind fun raw _ => ?_
    exact (typed_readVarintLoop 0 0 0 raw).bind fun _ _ => raisesOnly_pure
  · exact (typed_raiseIf rfl).bind fun _ _ => raisesOnly_pure

theorem typed_checkEntryProof (activeKeys : List Str) (docHash : Bytes) (proof : Dict) :
    Typed .didResolutionError (checkEntryProof C activeKeys docHash proof) := by
  unfold checkEntryProof
  split
  · split
    · exact raisesOnly_ok
    split
    · exact raisesOnly_ok
    split
    · exact raisesOnly_ok
    refine (typed_jcs _).bind fun config _ => ?_
    split
    · rename_i e he
      rw [typed_decodeMultibase _ e he]
      exact raisesOnly_ok
    · refine (typed_webvhMultikeyToJwk _).bind fun jwk hjwk => ?_
      obtain ⟨raw, hlength, hraw⟩ := webvhMultikeyToJwk_eq_ok hjwk
      rw [verifySignature, if_pos (by decide), hraw]
      refine RaisesOnly.bind raisesOnly_ok fun raw' hsame => ?_
      obtain rfl : raw = raw' := Except.ok.inj hsame
      refine RaisesOnly.bind (raisesOnly_raiseIf.mpr fun hbad => ?_) fun _ _ => raisesOnly_pure
      simp [hlength] at hbad
  · exact raisesOnly_ok

theorem typed_entryProofLoop (activeKeys : List Str) (docHash : Bytes) (l : List Json) :
    Typed .didResolutionError (entryProofLoop C activeKeys docHash l) := by
  induction l with
  | nil => exact raisesOnly_error.mpr rfl
  | cons v t ih =>
    unfold entryProofLoop
    split
    · rename_i hnil
      cases hnil
    · rename_i proof t' heq
      cases heq
      split
      · rename_i e he
        exact raisesOnly_error.mpr (typed_checkEntryProof activeKeys docHash proof e he)
      · exact raisesOnly_ok
      · exact ih
    · rename_i heq
      cases heq
      exact ih

theorem typed_verifyEntryProof (entry : Dict) (activeKeys : List Str) :
    Typed .didResolutionError (verifyEntryProof C entry activeKeys) := by
  refine (typed_raiseIf rfl).bind fun _ _ => ?_
  exact (typed_jcs _).bind fun _ _ => typed_entryProofLoop _ _ _

theorem typed_parseVersionId (versionId : Json) (n : Nat) :
    Typed .didResolutionError (parseVersionId versionId n) := by
  unfold parseVersionId
  split
  · refine (typed_raiseIf rfl).bind fun _ _ => ?_
    exact (typed_raiseIf rfl).bind fun _ _ => raisesOnly_pure
  · exact raisesOnly_error.mpr rfl

theorem isSome_of_parseVersionId {versionId : Json} {n : Nat} {hash : Str}
    (h : parseVersionId versionId n = .ok hash) : versionId.str?.isSome = true := by
  cases versionId with
  | str v => rfl
  | _ => cases h

theorem typed_versionTime (entry : Dict) : Typed .didResolutionError (versionTime iso entry) := by
  unfold versionTime
  split
  · exact (typed_orRaise rfl).bind fun _ _ => raisesOnly_pure
  · exact raisesOnly_error.mpr rfl

theorem typed_declaredKeys (n : Nat) (params : Dict) :
    Typed .didResolutionError (declaredKeys n params) := by
  unfold declaredKeys
  split
  · exact raisesOnly_ok
  · split
    · exact raisesOnly_ok
    · exact raisesOnly_error.mpr rfl
  · exact raisesOnly_error.mpr rfl

theorem isAscii_of_mapM {l : List Json} {keys : List Str} (h : l.mapM asciiStr = some keys) :
    ∀ key ∈ keys, key.isAscii = true := by
  induction l generalizing keys with
  | nil =>
    cases h
    exact List.forall_mem_nil _
  | cons v l ih =>
    rw [List.mapM_cons] at h
    obtain ⟨key, hkey, rest, hrest, rfl⟩ : ∃ key, asciiStr v = some key ∧
        ∃ rest, l.mapM asciiStr = some rest ∧ key :: rest = keys := by
      simpa [Option.bind_eq_some_iff] using h
    refine List.forall_mem_cons.mpr ⟨?_, ih hrest⟩
    unfold asciiStr at hkey
    split at hkey
    · split at hkey
      · cases hkey
        assumption
      · cases hkey
    · cases hkey

/-- The keys that an entry declares are ASCII, so that the hash of each can be taken. -/
theorem isAscii_of_declaredKeys {n : Nat} {params : Dict} {declared : Option (List Str)}
    (h : declaredKeys n params = .ok declared) :
    ∀ key ∈ declared.getD [], key.isAscii = true := by
  unfold declaredKeys at h
  split at h
  · cases h
    exact List.forall_mem_nil _
  · split at h
    · rename_i keys hkeys
      cases h
      exact isAscii_of_mapM hkeys
    · cases h
  · cases h

theorem typed_checkPrerotated {key : Str} (h : key.isAscii = true) (n : Nat)
    (nextKeyHashes : List Json) :
    Typed .didResolutionError (checkPrerotated C n nextKeyHashes key) := by
  obtain ⟨b, hb⟩ := Codec.exists_encodeUtf8_of_isAscii h
  refine RaisesOnly.bind ?_ fun _ _ => typed_raiseIf rfl
  unfold prerotationHash
  rw [hb]
  exact raisesOnly_pure

/-! ## The replay -/

/-- After its first entry a log has a version that the next entry is hashed with. -/
def Linked (st : ReplayState) (index : Nat) : Prop := 0 < index → st.prevVersionId.isSome = true

theorem typed_authorize {st : ReplayState} {index : Nat} (params : Dict)
    {declared : Option (List Str)} (hst : Linked st index)
    (hkeys : ∀ key ∈ declared.getD [], key.isAscii = true) :
    Typed .didResolutionError (authorize C st index params declared) := by
  unfold authorize
  split
  · refine (typed_raiseIf rfl).bind fun _ _ => ?_
    refine (typed_raiseIf rfl).bind fun _ _ => ?_
    exact (typed_raiseIf rfl).bind fun _ _ => raisesOnly_pure
  rename_i hindex
  obtain ⟨version, hversion⟩ := Option.isSome_iff_exists.mp (hst (Nat.pos_of_ne_zero hindex))
  split
  · refine (typed_raiseIf rfl).bind fun _ _ => ?_
    refine RaisesOnly.bind (RaisesOnly.each fun key hkey => ?_) fun _ _ => ?_
    · exact typed_checkPrerotated (hkeys key hkey) _ _
    · rw [hversion]
      exact raisesOnly_pure
  · unfold authorizeInForce
    rw [hversion]
    exact raisesOnly_pure

theorem typed_checkScid (index : Nat) (entry : Dict) (scid : Str) :
    Typed .didResolutionError (checkScid C index entry scid) := by
  unfold checkScid
  split
  · refine RaisesOnly.bind ?_ fun _ _ => typed_raiseIf rfl
    exact (typed_deepReplaceScid _ _ _).bind fun _ _ => typed_jcs _
  · exact raisesOnly_ok

theorem typed_step {st : ReplayState} {index : Nat} (entry : Dict) (hst : Linked st index) :
    Typed .didResolutionError (step C iso st index entry) := by
  refine (typed_orRaise rfl).bind fun params _ => ?_
  refine (typed_declaredKeys _ _).bind fun declared hdeclared => ?_
  refine (typed_authorize params hst (isAscii_of_declaredKeys hdeclared)).bind fun granted _ => ?_
  refine (typed_checkScid _ _ _).bind fun _ _ => ?_
  refine (typed_parseVersionId _ _).bind fun _ _ => ?_
  refine (typed_jcs _).bind fun _ _ => ?_
  refine (typed_raiseIf rfl).bind fun _ _ => ?_
  refine (typed_versionTime _).bind fun _ _ => ?_
  refine (typed_raiseIf rfl).bind fun _ _ => ?_
  refine (typed_verifyEntryProof _ _).bind fun _ _ => ?_
  refine (typed_raiseIf rfl).bind fun _ _ => ?_
  exact (typed_orRaise rfl).bind fun _ _ => raisesOnly_pure

theorem linked_step {st st' : ReplayState} {index : Nat} {entry : Dict}
    (h : step C iso st index entry = .ok st') (n : Nat) : Linked st' n := by
  simp only [step, bind_eq_ok, raiseIf_eq_ok, orRaise_eq_ok, pure_eq_ok] at h
  obtain ⟨_, -, _, -, _, -, ⟨⟩, -, _, hversion, _, -, ⟨⟩, -, _, -, ⟨⟩, -, ⟨⟩, -, ⟨⟩, -, _, -, rfl⟩ := h
  exact fun _ => isSome_of_parseVersionId hversion

theorem typed_enumerateLoop (entries : List Dict) {st : ReplayState} {index : Nat}
    (hst : Linked st index) :
    Typed .didResolutionError (enumerateLoop (step C iso) st index entries) := by
  induction entries generalizing st index with
  | nil => exact raisesOnly_ok
  | cons entry entries ih =>
    exact (typed_step entry hst).bind fun st' hstep => ih (linked_step hstep _)

theorem typed_parseLinesLoop (count : Nat) (lines : List Str) :
    Typed .didResolutionError (parseLinesLoop count lines) := by
  induction lines generalizing count with
  | nil => exact raisesOnly_ok
  | cons line lines ih =>
    unfold parseLinesLoop
    split
    · exact ih count
    refine (typed_raiseIf rfl).bind fun _ _ => ?_
    refine RaisesOnly.bind ?_ fun _ _ => (ih _).bind fun _ _ => raisesOnly_pure
    refine RaisesOnly.bind ((typed_reraise rfl).mpr ?_) fun _ _ => typed_orRaise rfl
    refine RaisesOnly.bind (RaisesOnly.orRaise (.inl rfl)) fun value _ => ?_
    exact RaisesOnly.bind (RaisesOnly.raiseIf (.inl rfl)) fun _ _ => raisesOnly_pure

theorem typed_finishReplay (did : Str) (st : ReplayState) :
    Typed .didResolutionError (finishReplay C did st) := by
  refine (typed_raiseIf rfl).bind fun _ _ => ?_
  refine (typed_raiseIf rfl).bind fun _ _ => ?_
  refine (typed_raiseIf rfl).bind fun _ _ => ?_
  refine (typed_parseDidDocument _ _).bind fun _ _ => ?_
  exact (typed_raiseIf rfl).bind fun _ _ => raisesOnly_pure

/-- The replay of any text raises `DidResolutionError` only. -/
theorem typed_replay (did log : Str) : Typed .didResolutionError (replay C iso did log) := by
  refine RaisesOnly.bind ?_ fun entries _ => ?_
  · exact (typed_parseLinesLoop 0 _).bind fun _ _ => (typed_raiseIf rfl).bind fun _ _ => raisesOnly_pure
  · refine (typed_enumerateLoop entries ?_).bind fun st _ => typed_finishReplay did st
    exact fun hpos => absurd hpos (Nat.lt_irrefl 0)

end OpenVC.Did
