import OpenVC.Ebsi.OpenPgp
import Mathlib.Data.List.Perm.Subperm

/-!
# Proofs: what the OpenPGP reader accepts

The issuer of a signature is what its hashed area names and nothing else, `verified_signers` counts
each allowed key once, and the fingerprint of a custodian is recomputed from its key packet.
-/

namespace OpenVC.OpenPgp

open Python

/-! ## The issuer of a signature -/

/-- The issuer that the subpackets of a hashed area name, by their one subpacket of type 33. -/
def IssuerOf (subs : List Subpacket) : Option Str → Prop
  | none => subs.filter (·.kind == 33) = []
  | some fingerprint => ∃ raw : Bytes, raw.length = 20 ∧ hexUpper raw = fingerprint ∧
      (subs.filter (·.kind == 33)).map Subpacket.data = [4 :: raw]

/-- The hashed area of the body of a signature packet. -/
def hashedArea (body : Bytes) : Bytes := (body.drop 6).take (bigEndian (body.drop 4) 2)

/-- A signature packet names an issuer in its hashed area. -/
def NamesIssuer (body : Bytes) (fingerprint : Str) : Prop :=
  ∃ subs, subpackets (hashedArea body) = .ok subs ∧ IssuerOf subs (some fingerprint)

theorem IssuerOf.unique {subs : List Subpacket} {a b : Option Str} (ha : IssuerOf subs a)
    (hb : IssuerOf subs b) : a = b := by
  cases a with
  | none =>
    cases b with
    | none => rfl
    | some f =>
      obtain ⟨raw, _, _, hraw⟩ := hb
      have hnil : subs.filter (·.kind == 33) = [] := ha
      rw [hnil] at hraw
      cases hraw
  | some f =>
    obtain ⟨raw, _, hf, hraw⟩ := ha
    cases b with
    | none =>
      have hnil : subs.filter (·.kind == 33) = [] := hb
      rw [hnil] at hraw
      cases hraw
    | some g =>
      obtain ⟨raw', _, hg, hraw'⟩ := hb
      rw [hraw] at hraw'
      cases hraw'
      rw [← hf, ← hg]

theorem eq_four_cons {data : Bytes} (hlen : data.length = 21) (hfirst : bigEndian data 1 = 4) :
    data = 4 :: data.drop 1 := by
  cases data with
  | nil => cases hlen
  | cons b rest =>
    have hb : b.toNat = 4 := by simpa [bigEndian, Codec.intFromBytes] using hfirst
    have : b = 4 := UInt8.toNat_inj.mp hb
    simp [this]

theorem readSigner_issuer {done : List Subpacket} {sub : Subpacket} {area : HashedArea}
    {signer : Option Str} (hinv : IssuerOf done area.signer)
    (h : readSigner sub area = .ok signer) : IssuerOf (done ++ [sub]) signer := by
  unfold readSigner at h
  split at h
  next hk =>
    simp only [bind_eq_ok, raiseIf_eq_ok, pure_eq_ok] at h
    obtain ⟨⟨⟩, hnone, ⟨⟩, hdata, rfl⟩ := h
    have hsigner : area.signer = none := by simpa using hnone
    rw [hsigner] at hinv
    have hnil : done.filter (·.kind == 33) = [] := hinv
    have hlen : sub.data.length = 21 ∧ bigEndian sub.data 1 = 4 := by simpa using hdata
    refine ⟨sub.data.drop 1, by simp [hlen.1], rfl, ?_⟩
    rw [List.filter_append, hnil]
    simpa [hk] using eq_four_cons hlen.1 hlen.2
  next hk =>
    cases h
    have hfilter : (done ++ [sub]).filter (·.kind == 33) = done.filter (·.kind == 33) := by
      simp [hk]
    cases hs : area.signer with
    | none => rw [hs] at hinv; exact hfilter.trans hinv
    | some f =>
      rw [hs] at hinv
      obtain ⟨raw, hlen, hf, hraw⟩ := hinv
      exact ⟨raw, hlen, hf, by rw [hfilter, hraw]⟩

theorem checkHashedArea_issuer {hashed : Bytes} {signer : Option Str}
    (h : checkHashedArea hashed = .ok signer) :
    ∃ subs, subpackets hashed = .ok subs ∧ IssuerOf subs signer := by
  simp only [checkHashedArea, bind_eq_ok, raiseIf_eq_ok, pure_eq_ok] at h
  obtain ⟨subs, hsubs, area, hloop, ⟨⟩, _, rfl⟩ := h
  have hempty : IssuerOf ([] : List Subpacket) ({} : HashedArea).signer := rfl
  refine ⟨subs, hsubs, ?_⟩
  -- the invariant: the signer is the one the subpackets walked so far name
  refine enumerateLoop_preserves (fun done st => IssuerOf done st.signer) hempty hloop ?_
  intro done st sub st' hinv hwalk
  simp only [walkHashed, bind_eq_ok, raiseIf_eq_ok, pure_eq_ok] at hwalk
  obtain ⟨⟨⟩, _, ⟨⟩, _, ⟨⟩, _, signer, hsigner, rfl⟩ := hwalk
  exact readSigner_issuer hinv hsigner

theorem splitV4Signature_hashed {body : Bytes} {parts : SignatureBody}
    (h : splitV4Signature body = .ok parts) : parts.hashed = hashedArea body := by
  simp only [splitV4Signature, bind_eq_ok, raiseIf_eq_ok, pure_eq_ok] at h
  obtain ⟨⟨⟩, _, ⟨⟩, _, ⟨⟩, _, ⟨⟩, _, rfl⟩ := h
  rfl

theorem parseSignature_signer {body : Bytes} {sig : Signature} (h : parseSignature body = .ok sig)
    (fingerprint : Str) : sig.signer = some fingerprint ↔ NamesIssuer body fingerprint := by
  simp only [parseSignature, bind_eq_ok, raiseIf_eq_ok, pure_eq_ok] at h
  obtain ⟨parts, hparts, ⟨⟩, _, ⟨⟩, _, ⟨⟩, _, signer, hsigner, ⟨⟩, _, ⟨⟩, _, _, _, _, _, ⟨⟩, _, rfl⟩ := h
  obtain ⟨subs, hsubs, hissuer⟩ := checkHashedArea_issuer hsigner
  rw [splitV4Signature_hashed hparts] at hsubs
  constructor
  · intro hs
    have hs : signer = some fingerprint := hs
    exact ⟨subs, hsubs, hs ▸ hissuer⟩
  · rintro ⟨subs', hsubs', hissuer'⟩
    rw [hsubs] at hsubs'
    cases hsubs'
    exact hissuer.unique hissuer'

/-! ## Signature files -/

/-- The packets of a signature file are signature packets. -/
def SignaturePackets (file : Bytes) (bodies : List Bytes) : Prop :=
  packets file = .ok (bodies.map fun body => (2, body))

/-- A signature packet verifies over a document under a key. -/
def Verifies (P : Primitives) (document : Bytes) (key : PublicKey) (body : Bytes) : Prop :=
  ∃ sig, parseSignature body = .ok sig ∧ verify P sig document key = true

theorem forall₂_readSignature {ps : List (Nat × Bytes)} {sigs : List Signature}
    (h : List.Forall₂ (fun p sig => readSignature p = .ok sig) ps sigs) :
    ps = (ps.map Prod.snd).map (fun body => (2, body)) ∧
      List.Forall₂ (fun body sig => parseSignature body = .ok sig) (ps.map Prod.snd) sigs := by
  induction h with
  | nil => exact ⟨rfl, .nil⟩
  | cons hp _ ih =>
    simp only [readSignature, bind_eq_ok, raiseIf_eq_ok] at hp
    obtain ⟨⟨⟩, htag, hsig⟩ := hp
    refine ⟨?_, .cons hsig ih.2⟩
    simp only [List.map_cons, List.cons.injEq]
    exact ⟨Prod.ext (by simpa using htag) rfl, ih.1⟩

theorem readSignatures_eq_ok {file : Bytes} {sigs : List Signature}
    (h : readSignatures file = .ok sigs) :
    ∃ bodies, SignaturePackets file bodies ∧
      List.Forall₂ (fun body sig => parseSignature body = .ok sig) bodies sigs := by
  simp only [readSignatures, bind_eq_ok, raiseIf_eq_ok] at h
  obtain ⟨⟨⟩, _, ⟨⟩, _, ps, hps, hcollect⟩ := h
  obtain ⟨hmap, hparse⟩ := forall₂_readSignature (collect_eq_ok.mp hcollect)
  exact ⟨ps.map Prod.snd, by rw [SignaturePackets, ← hmap]; exact hps, hparse⟩

/-! ## Verified signers -/

/-- The allowed keys are indexed by their own fingerprints, each once. -/
def AllowedByFingerprint (keys : List PublicKey) : Allowed := keys.map fun k => (k.fingerprint, k)

theorem lookup_allowedByFingerprint {keys : List PublicKey}
    (hnodup : (keys.map PublicKey.fingerprint).Nodup) {fingerprint : Str} {key : PublicKey} :
    (AllowedByFingerprint keys).lookup fingerprint = some key ↔
      key ∈ keys ∧ key.fingerprint = fingerprint := by
  induction keys with
  | nil => simp [AllowedByFingerprint]
  | cons k keys ih =>
    simp only [List.map_cons, List.nodup_cons] at hnodup
    have ih := ih hnodup.2
    rw [AllowedByFingerprint] at ih ⊢
    rw [List.map_cons, List.lookup_cons]
    by_cases hk : fingerprint = k.fingerprint
    · subst hk
      simp only [beq_self_eq_true, Option.some.injEq, List.mem_cons]
      constructor
      · rintro rfl; exact ⟨.inl rfl, rfl⟩
      · rintro ⟨rfl | hmem, hf⟩
        · rfl
        · exact absurd (List.mem_map.mpr ⟨key, hmem, hf⟩) hnodup.1
    · have hbeq : (fingerprint == k.fingerprint) = false := by simpa using hk
      rw [hbeq]
      simp only [ih, List.mem_cons]
      constructor
      · rintro ⟨hmem, hf⟩; exact ⟨.inr hmem, hf⟩
      · rintro ⟨rfl | hmem, hf⟩
        · exact absurd hf.symm hk
        · exact ⟨hmem, hf⟩

/-- What the loop of `verified_signers` has established after the signatures of `done`. -/
structure Counted (P : Primitives) (document : Bytes) (allowed : Allowed) (done : List Signature)
    (signers : List Str) : Prop where
  nodup : signers.Nodup
  signed : ∀ f ∈ signers, ∃ sig ∈ done, ∃ key, namedKey allowed sig = some key ∧
    key.fingerprint = f ∧ verify P sig document key = true
  verified : ∀ sig ∈ done, ∀ key, namedKey allowed sig = some key →
    verify P sig document key = true

variable {P : Primitives} {document : Bytes} {allowed : Allowed}

/-- A signature that names no allowed key leaves the count as it is. -/
theorem Counted.skip {done : List Signature} {signers : List Str} {sig : Signature}
    (h : Counted P document allowed done signers) (hnone : namedKey allowed sig = none) :
    Counted P document allowed (done ++ [sig]) signers where
  nodup := h.nodup
  signed := by
    intro f hf
    obtain ⟨s, hs, hrest⟩ := h.signed f hf
    exact ⟨s, List.mem_append_left _ hs, hrest⟩
  verified := by
    intro s hs key hkey
    rcases List.mem_append.mp hs with hs | hs
    · exact h.verified s hs key hkey
    · rw [List.mem_singleton.mp hs, hnone] at hkey
      cases hkey

/-- A verified signature counts its key, once. -/
theorem Counted.count {done : List Signature} {signers : List Str} {sig : Signature}
    {key : PublicKey} (h : Counted P document allowed done signers)
    (hkey : namedKey allowed sig = some key) (hv : verify P sig document key = true) :
    Counted P document allowed (done ++ [sig])
      (if key.fingerprint ∈ signers then signers else signers ++ [key.fingerprint]) where
  nodup := by
    split
    · exact h.nodup
    · next hnew =>
      have hdisj : List.Disjoint signers [key.fingerprint] := by simpa using hnew
      exact List.Nodup.append h.nodup (by simp) hdisj
  signed := by
    intro f hf
    have hcases : f ∈ signers ∨ f = key.fingerprint := by
      split at hf
      · exact .inl hf
      · simpa using hf
    rcases hcases with hf | rfl
    · obtain ⟨s, hs, hrest⟩ := h.signed f hf
      exact ⟨s, List.mem_append_left _ hs, hrest⟩
    · exact ⟨sig, by simp, key, hkey, rfl, hv⟩
  verified := by
    intro s hs k hk
    rcases List.mem_append.mp hs with hs | hs
    · exact h.verified s hs k hk
    · rw [List.mem_singleton.mp hs, hkey] at hk
      cases hk
      rw [List.mem_singleton.mp hs]
      exact hv

theorem verifySigner_counted {done : List Signature} {signers signers' : List Str}
    {sig : Signature} (h : Counted P document allowed done signers)
    (hrun : verifySigner P document allowed signers sig = .ok signers') :
    Counted P document allowed (done ++ [sig]) signers' := by
  unfold verifySigner at hrun
  cases hkey : namedKey allowed sig with
  | none =>
    rw [hkey] at hrun
    cases hrun
    exact h.skip hkey
  | some key =>
    rw [hkey] at hrun
    simp only [bind_eq_ok, raiseIf_eq_ok, pure_eq_ok] at hrun
    obtain ⟨⟨⟩, hv, rfl⟩ := hrun
    exact h.count hkey (by simpa using hv)

theorem verifiedSigners_counted {sigs : List Signature} {signers : List Str}
    (h : verifiedSigners P sigs document allowed = .ok signers) :
    Counted P document allowed sigs signers := by
  have hempty : Counted P document allowed [] [] :=
    ⟨List.nodup_nil, by simp, by simp⟩
  exact enumerateLoop_preserves _ hempty h fun _ _ _ _ hinv hrun => verifySigner_counted hinv hrun

/-- What a signature file and the keys allowed in it give when `verified_signers` returns: the
bodies of its packets, and the keys that signed. -/
structure SignedFile (P : Primitives) (file document : Bytes) (keys signers : List PublicKey) :
    Prop where
  /-- The signers are some of the keys. -/
  sublist : signers.Sublist keys
  /-- Each signer has a packet that names it in its hashed area and verifies. -/
  signed : ∀ key ∈ signers, ∃ bodies, SignaturePackets file bodies ∧ ∃ body ∈ bodies,
    NamesIssuer body key.fingerprint ∧ Verifies P document key body
  /-- No packet that names a key fails to verify under it. -/
  verified : ∀ bodies, SignaturePackets file bodies → ∀ body ∈ bodies, ∀ key ∈ keys,
    NamesIssuer body key.fingerprint → Verifies P document key body

theorem SignaturePackets.unique {file : Bytes} {a b : List Bytes} (ha : SignaturePackets file a)
    (hb : SignaturePackets file b) : a = b := by
  unfold SignaturePackets at ha hb
  rw [ha] at hb
  have hinj : Function.Injective fun body : Bytes => ((2 : Nat), body) :=
    fun x y hxy => (Prod.mk.inj hxy).2
  exact List.map_injective_iff.mpr hinj (Except.ok.inj hb)

/-- A signature file read against keys of distinct fingerprints: as many of the keys signed the
document as fingerprints were counted. -/
theorem signedFile_of_verifiedSigners {file : Bytes} {sigs : List Signature}
    {keys : List PublicKey} {signers : List Str} (hsigs : readSignatures file = .ok sigs)
    (hnodup : (keys.map PublicKey.fingerprint).Nodup)
    (h : verifiedSigners P sigs document (AllowedByFingerprint keys) = .ok signers) :
    SignedFile P file document keys (keys.filter fun k => signers.contains k.fingerprint) ∧
      signers.length ≤ (keys.filter fun k => signers.contains k.fingerprint).length := by
  obtain ⟨bodies, hbodies, hparse⟩ := readSignatures_eq_ok hsigs
  have hcounted := verifiedSigners_counted h
  have hnamed : ∀ {sig : Signature} {key : PublicKey},
      namedKey (AllowedByFingerprint keys) sig = some key ↔
        key ∈ keys ∧ sig.signer = some key.fingerprint := by
    intro sig key
    simp only [namedKey, Option.bind_eq_some_iff, lookup_allowedByFingerprint hnodup]
    constructor
    · rintro ⟨f, hf, hmem, rfl⟩; exact ⟨hmem, hf⟩
    · rintro ⟨hmem, hf⟩; exact ⟨_, hf, hmem, rfl⟩
  have hmem : ∀ f ∈ signers, ∃ key ∈ keys, key.fingerprint = f := by
    intro f hf
    obtain ⟨sig, _, key, hkey, hfp, _⟩ := hcounted.signed f hf
    exact ⟨key, (hnamed.mp hkey).1, hfp⟩
  refine ⟨⟨List.filter_sublist, ?_, ?_⟩, ?_⟩
  · intro key hkey
    obtain ⟨hkeys, hsigner⟩ := List.mem_filter.mp hkey
    have hf : key.fingerprint ∈ signers := by simpa using hsigner
    obtain ⟨sig, hsig, key', hkey', hfp, hv⟩ := hcounted.signed _ hf
    have hsame : key' = key :=
      List.inj_on_of_nodup_map hnodup (hnamed.mp hkey').1 hkeys hfp
    subst hsame
    obtain ⟨body, hbody, hb⟩ := exists_of_mem_right hparse hsig
    exact ⟨bodies, hbodies, body, hbody, (parseSignature_signer hb _).mp (hnamed.mp hkey').2,
      sig, hb, hv⟩
  · intro bodies' hbodies' body hbody key hkey hnames
    rw [hbodies'.unique hbodies] at hbody
    obtain ⟨sig, hsig, hb⟩ := exists_of_mem_left hparse hbody
    have hsigner := (parseSignature_signer hb _).mpr hnames
    exact ⟨sig, hb, hcounted.verified sig hsig key (hnamed.mpr ⟨hkey, hsigner⟩)⟩
  · have hsub : signers ⊆
        (keys.filter fun k => signers.contains k.fingerprint).map PublicKey.fingerprint := by
      intro f hf
      obtain ⟨key, hkey, rfl⟩ := hmem f hf
      exact List.mem_map.mpr ⟨key, List.mem_filter.mpr ⟨hkey, by simpa using hf⟩, rfl⟩
    have := (List.subperm_of_subset hcounted.nodup hsub).length_le
    simpa using this

/-! ## Keys -/

/-- The key of an armored block: its primary key packet is the first packet of the block, and the
fingerprint is the hash of that packet. -/
structure KeyOfBlock (P : Primitives) (armored : Json) (key : PublicKey) : Prop where
  packet : ∃ data body rest, dearmor armored = .ok data ∧ packets data = .ok ((6, body) :: rest) ∧
    key.fingerprint = fingerprintOf P body ∧
    mpi (body.drop (7 + p256Oid.length)) (8 * pointLen) = .ok (key.point, [])
  onCurve : P.onCurve key.point = true

theorem parsePrimaryKey_eq_ok {body : Bytes} {key : PublicKey}
    (h : parsePrimaryKey P body = .ok key) :
    key.fingerprint = fingerprintOf P body ∧
      mpi (body.drop (7 + p256Oid.length)) (8 * pointLen) = .ok (key.point, []) ∧
      P.onCurve key.point = true := by
  simp only [parsePrimaryKey, makePublicKey, bind_eq_ok, raiseIf_eq_ok, pure_eq_ok] at h
  obtain ⟨⟨⟩, _, ⟨⟩, _, ⟨⟩, _, ⟨⟩, hoid, ⟨point, rest⟩, hpoint, ⟨⟩, hrest, ⟨⟩, _, ⟨⟩, _, ⟨⟩, hcurve, rfl⟩ := h
  have hlen : bigEndian (body.drop 6) 1 = p256Oid.length := by
    simp only [Bool.not_eq_false', Bool.and_eq_true, beq_iff_eq] at hoid
    rw [← hoid.1.2, hoid.2]
  have hnil : rest = [] := by simpa using hrest
  rw [hlen, hnil] at hpoint
  exact ⟨rfl, hpoint, by simpa using hcurve⟩

theorem primaryPacket_eq_some {ps : List (Nat × Bytes)} {body : Bytes} {rest : List (Nat × Bytes)}
    (h : primaryPacket ps = some (body, rest)) : ps = (6, body) :: rest := by
  unfold primaryPacket at h
  split at h
  · cases h; rfl
  · cases h

theorem readPublicKeyBlock_eq_ok {armored : Json} {key : PublicKey}
    (h : readPublicKeyBlock P armored = .ok key) : KeyOfBlock P armored key := by
  simp only [readPublicKeyBlock, bind_eq_ok, orRaise_eq_ok, pure_eq_ok] at h
  obtain ⟨data, hdata, ps, hps, ⟨body, rest⟩, hprimary, key', hkey, ⟨⟩, _, rfl⟩ := h
  obtain ⟨hfp, hpoint, hcurve⟩ := parsePrimaryKey_eq_ok hkey
  rw [primaryPacket_eq_some hprimary] at hps
  exact ⟨⟨data, body, rest, hdata, hps, hfp, hpoint⟩, hcurve⟩

end OpenVC.OpenPgp
