import OpenVC.Did.DidWeb
import OpenVC.Jcs
import OpenVC.Python.Interpreter

/-!
# Replaying a `did:webvh` log (`openvc.did.did_webvh`)

A `did:webvh` document is replayed from a log of JSON lines. `step` is the body of the loop of
`_WebvhReplay._replay`, on the state that loop carries from entry to entry.
-/

namespace OpenVC.Did

open Python Multibase

/-- `_SCID_PLACEHOLDER`. -/
def scidPlaceholder : Str := "\x7bSCID\x7d"

/-- `_MAX_LOG_ENTRIES`. -/
def maxLogEntries : Nat := 1000

/-- `_MAX_SCID_DEPTH`. -/
def maxScidDepth : Nat := 100

/-- A `DidWebvhError`. -/
def webvhError (text : String) (args : List Json) : Err := ⟨.didWebvhError, text, args⟩

/-- `_did_webvh_url(did)`. -/
def didWebvhUrl (did : Str) : Result Str := do
  let msi := did.drop (lit "did:webvh:").length
  let (scid, _, rest) := Str.partition 58 msi
  raiseIf (scid.isEmpty || rest.isEmpty)
    (webvhError "did:webvh must be did:webvh:\x7bscid\x7d:\x7bdomain\x7d[:path...]" [])
  let webUrl ← reraise (didWebUrl (lit "did:web:" ++ rest))
    (·.cls.isa .didResolutionError) .didWebvhError "did:webvh %: " [.str did]
  return webUrl.take (webUrl.length - (lit "did.json").length) ++ lit "did.jsonl"

/-- `_jcs(obj)`. -/
def jcs (obj : Json) : Result Bytes :=
  reraise (Jcs.canonicalize obj)
    (fun e => e.cls.isa .jcsError || e.cls.isa .valueError || e.cls.isa .typeError)
    .didWebvhError "log entry is not JCS-canonicalizable: " []

/-- `_multihash_b58(data)`: the SCID and entry hash, `base58btc(0x12 0x20 ‖ sha256(data))`. -/
def multihashB58 (C : Crypto) (data : Bytes) : Str := b58btcEncode ([0x12, 0x20] ++ C.sha256 data)

mutual

/-- `_deep_replace_scid(obj, scid, depth)`. -/
def deepReplaceScid (scid : Str) (depth : Nat) (obj : Json) : Result Json :=
  if maxScidDepth < depth then
    .error (webvhError "genesis entry nesting exceeds the maximum depth of %" [.int maxScidDepth])
  else
    match obj with
    | .str s => .ok (.str (Str.replace s scid scidPlaceholder))
    | .arr l =>
      match deepReplaceScidList scid (depth + 1) l with
      | .ok l => .ok (.arr l)
      | .error e => .error e
    | .obj m =>
      match deepReplaceScidMembers scid (depth + 1) m with
      | .ok m => .ok (.obj m)
      | .error e => .error e
    | v => .ok v

/-- `_deep_replace_scid` over the elements of a list. -/
def deepReplaceScidList (scid : Str) (depth : Nat) : List Json → Result (List Json)
  | [] => .ok []
  | x :: t =>
    match deepReplaceScid scid depth x with
    | .error e => .error e
    | .ok y =>
      match deepReplaceScidList scid depth t with
      | .error e => .error e
      | .ok r => .ok (y :: r)

/-- `_deep_replace_scid` over the values of an object. -/
def deepReplaceScidMembers (scid : Str) (depth : Nat) :
    List (Str × Json) → Result (List (Str × Json))
  | [] => .ok []
  | (k, x) :: t =>
    match deepReplaceScid scid depth x with
    | .error e => .error e
    | .ok y =>
      match deepReplaceScidMembers scid depth t with
      | .error e => .error e
      | .ok r => .ok ((k, y) :: r)

end

/-- `_prerotation_hash(multikey)`. -/
def prerotationHash (C : Crypto) (multikey : Str) : Result Str := do
  let b ← orRaise (Codec.encodeUtf8 multikey) ⟨.valueError, "UnicodeEncodeError", []⟩
  return multihashB58 C b

/-- `_multikey_to_jwk(multikey)`. -/
def webvhMultikeyToJwk (multikey : Str) : Result Dict := do
  let (raw, code, off) ← reraise
    (do
      let raw ← decodeMultibase multikey
      let (code, off) ← readVarint raw
      return (raw, code, off))
    (·.cls.isa .multibaseError) .didWebvhError "invalid updateKey multikey %: " [.str multikey]
  let key := raw.drop off
  raiseIf (code != 0xED || key.length != 32)
    (webvhError "updateKey % is not an Ed25519 multikey (codec 0x%, % bytes)"
      [.str multikey, .int code, .int key.length])
  return [("kty", .str "OKP"), ("crv", .str "Ed25519"), ("x", .str (Codec.b64urlEncode key))]

/-- `_entry_without_proof(entry)`. -/
def entryWithoutProof (entry : Dict) : Dict := entry.erase "proof"

/-- The key a proof's `verificationMethod` names: the multikey of a `did:key` URL. -/
def proofMultikey (vm : Str) : Str :=
  if vm.startsWith "did:key:" then Str.beforeFirst 35 (vm.drop (lit "did:key:").length) else []

/-- One proof object in the loop of `_verify_entry_proof`: whether it verifies the entry, `false`
where the source continues with the next. -/
def checkEntryProof (C : Crypto) (activeKeys : List Str) (docHash : Bytes) (proof : Dict) :
    Result Bool :=
  match proof.get "type", proof.get "cryptosuite", proof.get "proofPurpose",
    proof.get "verificationMethod", proof.get "proofValue" with
  | .str type, .str suite, .str purpose, .str vm, .str pv =>
    if type ≠ lit "DataIntegrityProof" ∨ suite ≠ lit "eddsa-jcs-2022" then .ok false
    else if purpose ≠ lit "assertionMethod" then .ok false
    else if proofMultikey vm ∉ activeKeys then .ok false
    else do
      let config ← jcs (.obj (proof.erase "proofValue"))
      match decodeMultibase pv with
      | .error e => if e.cls.isa .multibaseError then .ok false else .error e
      | .ok sig => do
        let jwk ← webvhMultikeyToJwk (proofMultikey vm)
        verifySignature C "EdDSA" jwk (C.sha256 config ++ docHash) sig
  | _, _, _, _, _ => .ok false

/-- The loop of `_verify_entry_proof`. -/
def entryProofLoop (C : Crypto) (activeKeys : List Str) (docHash : Bytes) : List Json → Result Unit
  | [] => .error
      (webvhError "no valid eddsa-jcs-2022 proof by an authorized updateKey on this log entry" [])
  | .obj proof :: t =>
    match checkEntryProof C activeKeys docHash proof with
    | .error e => .error e
    | .ok true => .ok ()
    | .ok false => entryProofLoop C activeKeys docHash t
  | _ :: t => entryProofLoop C activeKeys docHash t

/-- The proofs of an entry: a single proof object is tolerated. -/
def entryProofs (entry : Dict) : List Json :=
  match entry.get "proof" with
  | .obj p => [.obj p]
  | .arr l => l
  | _ => []

/-- `_verify_entry_proof(entry, active_keys)`. -/
def verifyEntryProof (C : Crypto) (entry : Dict) (activeKeys : List Str) : Result Unit := do
  raiseIf (entryProofs entry).isEmpty (webvhError "log entry has no proof" [])
  let docBytes ← jcs (.obj (entryWithoutProof entry))
  entryProofLoop C activeKeys (C.sha256 docBytes) (entryProofs entry)

/-- `_parse_version_id(version_id, expected_number)`. -/
def parseVersionId (versionId : Json) (expectedNumber : Nat) : Result Str :=
  match versionId with
  | .str v => do
    raiseIf (!v.contains 45) (webvhError "malformed versionId %" [versionId])
    let (number, _, entryHash) := Str.partition 45 v
    raiseIf (number != Str.ofNat expectedNumber || entryHash.isEmpty)
      (webvhError "versionId % is not version % of the log" [versionId, .int expectedNumber])
    return entryHash
  | v => .error (webvhError "malformed versionId %" [v])

/-- `_witness_policy_active(witness)`. -/
def witnessPolicyActive (witness : Dict) : Bool :=
  if witness.isEmpty then false
  else
    match witness.get "witnesses" with
    | .arr (_ :: _) => true
    | _ =>
      let threshold := witness.get "threshold"
      !threshold.isNull && !threshold.pyEq (.int 0)

/-- `_version_time(entry)`. -/
def versionTime (fromIsoFormat : Str → Option DateTime) (entry : Dict) : Result DateTime :=
  match entry.get "versionTime" with
  | .str raw => do
    let text := if raw.endsWith "Z" || raw.endsWith "z" then raw.dropLast ++ lit "+00:00" else raw
    let dt ← orRaise (fromIsoFormat text) (webvhError "invalid versionTime %: " [.str raw])
    return dt.orUtc
  | _ => .error (webvhError "log entry has no versionTime" [])

/-- What the loop of `_replay` carries from entry to entry. -/
structure ReplayState where
  prevVersionId : Option Str := none
  prevTime : Option DateTime := none
  /-- The `updateKeys` in force. -/
  activeKeys : List Str := []
  /-- The pre-rotation commitment in force. -/
  nextKeyHashes : List Json := []
  /-- The witness policy in force. -/
  witness : Dict := []
  state : Dict := []
  deactivated : Bool := false

/-- The string of an ASCII string value. -/
def asciiStr : Json → Option Str
  | .str s => if s.isAscii then some s else none
  | _ => none

/-- The `updateKeys` an entry declares, checked to be ASCII strings; `null` declares none. -/
def declaredKeys (number : Nat) (params : Dict) : Result (Option (List Str)) :=
  match params.get "updateKeys" with
  | .null => .ok none
  | .arr l =>
    match l.mapM asciiStr with
    | some keys => .ok (some keys)
    | none => .error (webvhError "entry %: updateKeys must be a list of ASCII multikey strings"
        [.int number])
  | _ => .error (webvhError "entry %: updateKeys must be a list of ASCII multikey strings"
      [.int number])

/-- The genesis branch: the keys that may sign the first entry, and the SCID it is hashed with. -/
def authorizeGenesis (params : Dict) (declared : Option (List Str)) : Result (List Str × Str) := do
  raiseIf ((params.get "method").str? != some (lit "did:webvh:1.0"))
    (webvhError "unsupported did:webvh method % (need did:webvh:1.0)" [params.get "method"])
  let scid := ((params.get "scid").str?).getD []
  raiseIf scid.isEmpty (webvhError "genesis entry has no scid" [])
  let keys := declared.getD []
  raiseIf keys.isEmpty (webvhError "genesis entry has no updateKeys" [])
  return (keys, scid)

/-- One key of an entry under pre-rotation: its hash is in the commitment. -/
def checkPrerotated (C : Crypto) (number : Nat) (nextKeyHashes : List Json) (key : Str) :
    Result Unit := do
  let h ← prerotationHash C key
  raiseIf (!nextKeyHashes.any (Json.pyEq (.str h)))
    (webvhError "entry %: updateKey % is not a pre-rotated key (its hash is not in the previous nextKeyHashes)"
      [.int number, .str key])

/-- The keys that may sign an entry under a pre-rotation commitment. -/
def authorizePrerotated (C : Crypto) (st : ReplayState) (number : Nat)
    (declared : Option (List Str)) : Result (List Str × Str) := do
  let keys := declared.getD []
  raiseIf keys.isEmpty
    (webvhError "entry %: pre-rotation is active but it declares no updateKeys" [.int number])
  each (checkPrerotated C number st.nextKeyHashes) keys
  let predecessor ← orRaise st.prevVersionId ⟨.assertionError, "", []⟩
  return (keys, predecessor)

/-- The keys that may sign an entry when no commitment is in force. -/
def authorizeInForce (st : ReplayState) : Result (List Str × Str) := do
  let predecessor ← orRaise st.prevVersionId ⟨.assertionError, "", []⟩
  return (st.activeKeys, predecessor)

/-- The authorised signing keys of an entry, and the value it is hashed with. -/
def authorize (C : Crypto) (st : ReplayState) (index : Nat) (params : Dict)
    (declared : Option (List Str)) : Result (List Str × Str) :=
  if index = 0 then authorizeGenesis params declared
  else if !st.nextKeyHashes.isEmpty then authorizePrerotated C st (index + 1) declared
  else authorizeInForce st

/-- The genesis entry as it was hashed for the SCID. -/
def scidPreimage (entry : Dict) (scid : Str) : Result Bytes := do
  let prelim ← deepReplaceScid scid 0
    (.obj (Dict.set (entryWithoutProof entry) "versionId" (.str scidPlaceholder)))
  jcs prelim

/-- The SCID check, made on the genesis entry only. -/
def checkScid (C : Crypto) (index : Nat) (entry : Dict) (scid : Str) : Result Unit :=
  if index = 0 then do
    let b ← scidPreimage entry scid
    raiseIf (multihashB58 C b != scid)
      (webvhError "SCID does not match the genesis entry (forged inception)" [])
  else .ok ()

/-- An entry as it is hashed: its predecessor's `versionId` in place of its own, no proof. -/
def rehashed (entry : Dict) (predecessor : Str) : Json :=
  .obj (Dict.set (entryWithoutProof entry) "versionId" (.str predecessor))

/-- The parameters carried forward after an entry was accepted. -/
def carryForward (st : ReplayState) (params : Dict) (declared : Option (List Str)) : ReplayState :=
  { st with
    activeKeys := declared.getD st.activeKeys
    nextKeyHashes := match params.get? "nextKeyHashes" with
      | some nkh => (nkh.arr?).getD []
      | none => st.nextKeyHashes
    witness := match params.get? "witness" with
      | some w => (w.obj?).getD []
      | none => st.witness
    deactivated := match params.get? "deactivated" with
      | some d => d.truthy
      | none => st.deactivated }

/-- One iteration of the loop of `_replay`, for the entry at `index`. -/
def step (C : Crypto) (fromIsoFormat : Str → Option DateTime) (st : ReplayState) (index : Nat)
    (entry : Dict) : Result ReplayState := do
  let number := index + 1
  let params ← orRaise (entry.get "parameters").obj?
    (webvhError "entry % has no parameters object" [.int number])
  let declared ← declaredKeys number params
  let (authorized, predecessor) ← authorize C st index params declared
  checkScid C index entry predecessor
  let entryHash ← parseVersionId (entry.get "versionId") number
  let b ← jcs (rehashed entry predecessor)
  raiseIf (multihashB58 C b != entryHash)
    (webvhError "entry %: entryHash mismatch — the log entry has been tampered with" [.int number])
  let vtime ← versionTime fromIsoFormat entry
  raiseIf (st.prevTime.any fun p => vtime.instant < p.instant)
    (webvhError "entry %: versionTime goes backwards" [.int number])
  verifyEntryProof C entry authorized
  let st := carryForward st params declared
  raiseIf (witnessPolicyActive st.witness)
    (webvhError "entry %: a witness policy (%) is declared, but verify-side witness verification is unsupported — refusing to downgrade trust"
      [.int number, .obj st.witness])
  let newState ← orRaise (entry.get "state").obj?
    (webvhError "entry % has no state (DID document)" [.int number])
  return { st with
    state := newState
    prevVersionId := (entry.get "versionId").str?
    prevTime := some vtime }

/-- One line of a log. -/
def parseLine (line : Str) : Result Dict := do
  let obj ← reraise (loads line) (·.cls.isa .valueError) .didWebvhError
    "did.jsonl line is not valid JSON: " []
  orRaise obj.obj? (webvhError "each did.jsonl line must be a JSON object" [])

/-- The loop of `_parse_lines`, with `count` entries read so far. -/
def parseLinesLoop (count : Nat) : List Str → Result (List Dict)
  | [] => .ok []
  | line :: t =>
    if (Str.strip line).isEmpty then parseLinesLoop count t
    else do
      raiseIf (maxLogEntries ≤ count)
        (webvhError "did.jsonl exceeds % entries" [.int maxLogEntries])
      let obj ← parseLine line
      let rest ← parseLinesLoop (count + 1) t
      return obj :: rest

/-- `_parse_lines(log)`. -/
def parseLines (log : Str) : Result (List Dict) := do
  let entries ← parseLinesLoop 0 (Str.splitlines log)
  raiseIf entries.isEmpty (webvhError "did.jsonl is empty" [])
  return entries

/-- What `_replay` does after the loop. -/
def finishReplay (C : Crypto) (did : Str) (st : ReplayState) : Result DidDocument := do
  raiseIf ((st.state.get "id").str? != some did)
    (webvhError "resolved document id % != requested %" [st.state.get "id", .str did])
  raiseIf (st.state.has "didDocument")
    (webvhError "did:webvh %: the log state carries a 'didDocument' member; the state is the DID document itself, so a wrapper is refused"
      [.str did])
  raiseIf st.deactivated (webvhError "did:webvh % is deactivated" [.str did])
  let doc ← parseDidDocument C (.obj st.state)
  raiseIf (doc.id != did)
    (webvhError "resolved document id % != requested %" [.str doc.id, .str did])
  return doc

/-- `_WebvhReplay._replay(did, log)`. -/
def replay (C : Crypto) (fromIsoFormat : Str → Option DateTime) (did log : Str) :
    Result DidDocument := do
  let entries ← parseLines log
  let st ← enumerateLoop (step C fromIsoFormat) {} 0 entries
  finishReplay C did st

end OpenVC.Did
