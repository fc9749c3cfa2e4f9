import OpenVC.Proofs.CredentialRequestProofs
import OpenVC.Proofs.KeysProofs

/-!
# Key proofs: one key a proof

A batch is refused when two of its proofs have one RFC 7638 thumbprint. The thumbprint digests the
members of a JWK as they are spelled, while a signature is verified under what they decode to. So the
keys of an accepted batch are distinct exactly where no key is spelled in two ways.
-/

namespace OpenVC.OpenId4Vci

open Python

variable {C : Crypto} {E : Env} {call : Call E} {input : RequestInput}
  {verified : List VerifiedProof}

/-! ## The key that verifies -/

/-- The prime of the field of a curve. -/
def fieldPrime : Curve → Nat
  | .p256 => 2 ^ 256 - 2 ^ 224 + 2 ^ 192 + 2 ^ 96 - 1
  | .p384 => 2 ^ 384 - 2 ^ 128 - 2 ^ 96 + 2 ^ 32 - 1

/-- A public key as the signature check loads it: a point has its coordinates in the field. -/
inductive PublicKey where
  | ed25519 (raw : Bytes)
  | ec (curve : Curve) (x y : Nat)
  deriving DecidableEq

/-- The key that the members of a JWK decode to, for an algorithm. -/
def loadKey (alg : Str) (jwk : Dict) : Option PublicKey :=
  if alg ∈ ed25519AlgNames then (jwkBytes jwk "x").map .ed25519
  else do
    let curve ← ecdsaCurve alg
    let x ← jwkBytes jwk "x"
    let y ← jwkBytes jwk "y"
    -- the library reduces a coordinate that is not below the prime
    return .ec curve (Codec.intFromBytes x % fieldPrime curve)
      (Codec.intFromBytes y % fieldPrime curve)

/-- Two keys, each with its algorithm, that decode to one. -/
def SameKey (k k' : Str × Dict) : Prop :=
  ∃ key, loadKey k.1 k.2 = some key ∧ loadKey k'.1 k'.2 = some key

/-! ## The keys of a request -/

/-- The algorithm and the key that a proof names. -/
def readKey (call : Call E) (entry : Str × Nat) : Result (Str × Dict) := do
  let jws ← Pipeline.parseCompact entry.1
  let alg ← orRaise (VcJwt.permittedAlg call.allowedAlgs jws.header)
    ⟨.unsupportedAlgorithm, "key proof alg % is not allow-listed", [jws.header.get "alg"]⟩
  let text ← headerAttestation jws.header
  let attestation ← parseAttestation text
  let (jwk, _) ← proofKey call jws.header alg attestation entry.2
  return (alg, jwk)

/-- The keys that the proofs of a request name. -/
def namedKeys (call : Call E) (input : RequestInput) : List (Str × Dict) :=
  match readRequest call input with
  | .ok request => request.proofs.zipIdx.filterMap fun entry => (readKey call entry).toOption
  | .error _ => []

theorem Checked.readKey_eq {entry : Str × Nat} {p : VerifiedProof} {jws : SdJwt.Jws}
    {attestation : Option UnverifiedKeyAttestation} (h : Checked call entry p jws attestation) :
    readKey call entry = .ok (p.alg, p.publicJwk) := by
  simp only [readKey, bind_eq_ok, orRaise_eq_ok, pure_eq_ok]
  exact ⟨jws, h.parse, p.alg, h.alg, p.keyAttestation, h.attestationJwt, attestation, h.parsed, _,
    h.proofKey, rfl⟩

theorem namedKeys_eq (h : verifyEach call input = .ok verified) :
    namedKeys call input = verified.map fun p => (p.alg, p.publicJwk) := by
  obtain ⟨-, request, hread, hproofs⟩ := verifyEach_eq_ok h
  simp only [namedKeys, hread]
  clear h
  generalize request.proofs.zipIdx = entries at hproofs
  induction hproofs with
  | nil => rfl
  | cons hp _ ih =>
    obtain ⟨jws, attestation, hchecked⟩ := verifyOneProof_eq_ok hp
    rw [List.filterMap_cons_some (by rw [hchecked.readKey_eq]; rfl), ih, List.map_cons]

theorem thumbprint_congr {jwk jwk' : Dict} (h : thumbprintForm jwk = thumbprintForm jwk')
    (subject : Str) : thumbprint C jwk subject = thumbprint C jwk' subject := by
  unfold thumbprint jwkThumbprint jwkThumbprintBytes
  rw [h]

/-! ## Distinct keys -/

/-- Keys of which no two decode to one and are spelled differently. -/
def SpelledOnce (keys : List (Str × Dict)) : Prop :=
  keys.Pairwise fun k k' => SameKey k k' → thumbprintForm k.2 = thumbprintForm k'.2

/-- The proofs that a call returns were verified under distinct keys, whatever their encodings,
exactly where the request spells no key in two ways. -/
theorem distinct_keys_iff (call : Call E) (input : RequestInput) (verified : List VerifiedProof)
    (made : List Consumption)
    (h : (verifyCredentialRequestProofs call input).Reaches made (.done (.ok verified))) :
    verified.Pairwise (fun p q => ¬ SameKey (p.alg, p.publicJwk) (q.alg, q.publicJwk)) ↔
      SpelledOnce (namedKeys call input) := by
  obtain ⟨heach, shared, hbatch⟩ := checked_of_returned h
  rw [SpelledOnce, namedKeys_eq heach, List.pairwise_map]
  constructor
  · intro hdistinct
    exact hdistinct.imp fun hne hsame => absurd hsame hne
  · intro hspelled
    have hprints : verified.Pairwise fun p q => p.thumbprint ≠ q.thumbprint :=
      List.pairwise_map.mp (checkBatch_eq_ok hbatch).2.2
    obtain ⟨-, request, -, hproofs⟩ := verifyEach_eq_ok heach
    have hprint : ∀ p ∈ verified,
        thumbprint E.crypto p.publicJwk "the key proof's key" = .ok p.thumbprint := by
      intro p hp
      obtain ⟨entry, -, hentry⟩ := exists_of_mem_left hproofs.flip hp
      obtain ⟨jws, attestation, hchecked⟩ := verifyOneProof_eq_ok hentry
      exact hchecked.thumbprint
    refine (hspelled.and hprints).imp_of_mem fun hp hq ⟨halike, hne⟩ hsame => hne ?_
    have heq := thumbprint_congr (C := E.crypto) (halike hsame) "the key proof's key"
    rw [hprint _ hp, hprint _ hq] at heq
    exact Except.ok.inj heq

/-! ## One key in two spellings -/

/-- The proof of the wallet again, with another last character in the `x` of its key. -/
def respelledSigningInput : Str :=
  List.flatMap lit
    ["eyJ0eXAiOiJvcGVuaWQ0dmNpLXByb29mK2p3dCIsImFsZyI6IkVkRFNBIiwiandr",
     "Ijp7Imt0eSI6Ik9LUCIsImNydiI6IkVkMjU1MTkiLCJ4IjoiX1Jja09GcWd4MXRr",
     "LTNqTllDLWgyWkg5Nl9kckU4V08xd0xxeURYcDloaCJ9fQ.eyJhdWQiOiJpIiwia",
     "WF0IjoxODAwMDAwMDAwLCJub25jZSI6Im4ifQ"]

/-- That proof, signed. -/
def respelledProof : Str :=
  respelledSigningInput ++ List.flatMap lit
    [".5ZV87vxC1QF4Bdkthx6UbbaK3Sqo487ZXebQMyQZjueJkLANLvJMdG-l_ge9SYe",
     "94Ro4pOaexM3mxg7z5HymBw"]

/-- The wallet's signature of it. -/
def respelledRow : Nat × Str × (Nat × Nat) :=
  (0xfd1724385aa0c75b64fb78cd602fa1d991fdebf76b13c58ed702eac835e9f618, respelledSigningInput,
    (0xe5957ceefc42d5017805d92d871e946db68add2aa8e3ced95de6d03324198ee7,
     0x8990b00d2ef24c746fa5fe07bd4987bde11a38a4e69ec4cde6c60ef3e47ca607))

/-- An issuer `i` that takes batches of two. -/
def batchCall : Call (walletEnv [walletRow, respelledRow]) :=
  { credentialIssuer := "i", batchSize := some 2 }

/-- The key of the wallet. -/
def walletKey : PublicKey :=
  .ed25519 (Codec.intToFixed
    0xfd1724385aa0c75b64fb78cd602fa1d991fdebf76b13c58ed702eac835e9f618 32)

/-- The batch is accepted, and its two proofs were verified under the key of the wallet. -/
theorem respelled_accepted : ∃ verified,
    (verifyCredentialRequestProofs batchCall (walletRequest [walletProof, respelledProof])).Reaches
        [⟨lit "n", .ok true⟩] (.done (.ok verified)) ∧
      verified.map (fun p => loadKey p.alg p.publicJwk) = [some walletKey, some walletKey] := by
  obtain ⟨⟨verified, shared⟩, h, hkeys⟩ := exists_ok_of_map
    (x := do
      let verified ← verifyEach batchCall (walletRequest [walletProof, respelledProof])
      let shared ← checkBatch batchCall verified
      return (verified, shared))
    (f := fun out => (out.2, out.1.map fun p => loadKey p.alg p.publicJwk))
    (c := (some (lit "n"), [some walletKey, some walletKey])) (by decide +kernel)
  obtain ⟨rfl, hkeys⟩ : shared = some (lit "n") ∧ _ := Prod.mk.inj hkeys
  simp only [bind_eq_ok, pure_eq_ok, Prod.mk.injEq] at h
  obtain ⟨proofs, heach, _, hbatch, hproofs, rfl⟩ := h
  subst hproofs
  refine ⟨proofs, ?_, hkeys⟩
  rw [verifyCredentialRequestProofs_eq_finish heach hbatch]
  have hstart : (finish batchCall proofs (some (lit "n"))).Reaches []
      (.call (lit "n") fun r => .done (settle (lit "n") proofs r)) := .start
  exact hstart.call (.ok true)

/-- The issuer binds two credentials to the one key of the wallet. -/
theorem distinct_keys_respelled : ∃ verified made,
    (verifyCredentialRequestProofs batchCall (walletRequest [walletProof, respelledProof])).Reaches
        made (.done (.ok verified)) ∧
      ¬ verified.Pairwise fun p q => ¬ SameKey (p.alg, p.publicJwk) (q.alg, q.publicJwk) := by
  obtain ⟨verified, h, hkeys⟩ := respelled_accepted
  refine ⟨verified, _, h, fun hdistinct => ?_⟩
  obtain ⟨p, rest, rfl, hp, hrest⟩ := List.map_eq_cons_iff.mp hkeys
  obtain ⟨q, _, rfl, hq, -⟩ := List.map_eq_cons_iff.mp hrest
  exact (List.pairwise_cons.mp hdistinct).1 q List.mem_cons_self ⟨walletKey, hp, hq⟩

/-- The exact condition, on that batch. -/
theorem distinct_keys_iff_respelled : ∃ verified made,
    (verifyCredentialRequestProofs batchCall (walletRequest [walletProof, respelledProof])).Reaches
        made (.done (.ok verified)) ∧
      (verified.Pairwise (fun p q => ¬ SameKey (p.alg, p.publicJwk) (q.alg, q.publicJwk)) ↔
        SpelledOnce (namedKeys batchCall (walletRequest [walletProof, respelledProof]))) := by
  obtain ⟨verified, h, -⟩ := respelled_accepted
  exact ⟨verified, _, h, distinct_keys_iff _ _ verified _ h⟩

end OpenVC.OpenId4Vci
