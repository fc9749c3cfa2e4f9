import OpenVC.Proof.Proofs.SdJwtProofs
import OpenVC.Proof.Proofs.VcJwtProofs

/-!
# The SD-JWT and VC-JWT lanes are disjoint

An issuer JWT that one lane accepts is no credential for the other, so a holder cannot shed the key
binding of an SD-JWT by dropping its tail. Typed, the issuer JWT names an SD-JWT media type, which the
VC-JWT lane refuses. Untyped, the SD-JWT lane refuses it with a `vc` claim and the VC-JWT lane without.
-/

namespace OpenVC

open Python

namespace SdJwt

variable {C : Crypto} {descend : Descend} {disclosures : ByDigest} {top : Option Str}
  {st st' : Unpacking} {name : Str}

/-- No member of the payload is lost, but for the digests. -/
theorem unpackMembers_has {members result result' : Dict}
    (h : unpackMembers descend top members result st = .ok (result', st'))
    (hn : result.has name = true ∨ (members.has name = true ∧ name ≠ lit "_sd")) :
    result'.has name = true := by
  induction members generalizing result st with
  | nil =>
    cases h
    rcases hn with hn | ⟨hn, -⟩
    · exact hn
    · cases hn
  | cons m members ih =>
    obtain ⟨key, value⟩ := m
    rw [unpackMembers] at h
    simp only [Dict.has, Dict.get?_cons] at hn
    split at h
    · rename_i hsd
      refine ih h ?_
      rcases hn with hn | ⟨hn, hne⟩
      · exact Or.inl hn
      · rw [if_neg (fun e : key = name => hne (e ▸ hsd))] at hn
        exact Or.inr ⟨hn, hne⟩
    · split at h
      · cases h
      · obtain ⟨⟨value', st₁⟩, -, h₂⟩ := bind_eq_ok.mp h
        refine ih h₂ ?_
        rw [Dict.has, Dict.get?_set]
        by_cases hk : key = name
        · rw [if_pos hk]
          exact Or.inl rfl
        · rw [if_neg hk]
          rw [if_neg hk] at hn
          exact hn

theorem unpackDigests_has {digests : List Str} {result result' : Dict}
    (h : unpackDigests disclosures descend top digests result st = .ok (result', st'))
    (hn : result.has name = true) : result'.has name = true := by
  induction digests generalizing result st with
  | nil =>
    cases h
    exact hn
  | cons digest digests ih =>
    rw [unpackDigests] at h
    split at h
    · cases h
    · split at h
      · exact ih h hn
      · obtain ⟨⟨disclosed, value⟩, -, h⟩ := bind_eq_ok.mp h
        obtain ⟨⟨value', st₁⟩, -, h₂⟩ := bind_eq_ok.mp h
        refine ih h₂ ?_
        rw [Dict.has, Dict.get?_set]
        split
        · rfl
        · exact hn

/-- A claim the issuer wrote in the clear is in the processed payload. -/
theorem processPayload_has {hashName : Str} {parts : Parts} {claims unpacked : Dict}
    {placed : List (Option Str × Bool)}
    (h : processPayload C hashName parts claims = .ok (unpacked, placed))
    (hn : claims.has name = true) (hsd : name ≠ lit "_sd") (halg : name ≠ lit "_sd_alg") :
    unpacked.has name = true := by
  simp only [processPayload, bind_eq_ok, raiseIf_eq_ok, orRaise_eq_ok, pure_eq_ok,
    Json.obj?_eq_some, Prod.mk.injEq] at h
  obtain ⟨byDigest, -, ⟨node, st⟩, hunpack, ⟨⟩, -, result, hnode, rfl, rfl⟩ := h
  rw [unpack] at hunpack
  obtain ⟨⟨members, st₁⟩, h₁, h⟩ := bind_eq_ok.mp hunpack
  obtain ⟨digests, -, h⟩ := bind_eq_ok.mp h
  obtain ⟨⟨members', st₂⟩, h₂, h⟩ := bind_eq_ok.mp h
  cases h
  cases hnode
  rw [Dict.has, Dict.get?_erase, if_neg halg]
  exact unpackDigests_has h₂ (unpackMembers_has h₁ (Or.inr ⟨hn, hsd⟩))

theorem decodeJws_eq_ok {s : Str} {jws : Jws} (h : decodeJws s = .ok jws) :
    ∃ segments, threeSegments s = some segments ∧
      loadSegment segments.header = .ok (.obj jws.header) ∧
      loadSegment segments.payload = .ok (.obj jws.payload) := by
  simp only [decodeJws, decodeSegments, recast_eq_ok, bind_eq_ok, orRaise_eq_ok, pure_eq_ok,
    Json.obj?_eq_some] at h
  obtain ⟨_, ⟨segments, hseg, header, hheader, payload, hpayload, signature, -, rfl⟩, header', rfl,
    payload', rfl, _, -, rfl⟩ := h
  exact ⟨segments, hseg, hheader, hpayload⟩

/-- The `typ` of an issuer JWT is absent or one of the accepted names. -/
theorem readTyp_eq_ok {header : Dict} {typ : Option Str} (h : readTyp header = .ok typ) :
    typ = none ∨ ∃ t ∈ acceptedIssuerTyp, header.get "typ" = .str t := by
  rw [readTyp] at h
  split at h
  · cases h
    exact Or.inl rfl
  · rename_i t ht
    split at h
    · rename_i hmem
      exact Or.inr ⟨t, hmem, by rw [Dict.get, ht]; rfl⟩
    · cases h
  · cases h

end SdJwt

namespace VcJwt

variable {I : Interpreter} {C : Crypto} {J : PyJwt} {suite : Suite} {token : Str} {jwk : Json}
  {policy : Policy} {checkTemporal : Bool} {r : Verified}

theorem rejectSdJwtTyp_accepted {header : Dict} {t : Str} (ht : t ∈ SdJwt.acceptedIssuerTyp)
    (hh : header.get "typ" = .str t) : rejectSdJwtTyp I header ≠ .ok () := by
  have hascii : t.isAscii = true ∧
      isSdJwtMedia (dropStart t.asciiLower "application/") = true := by
    simp only [SdJwt.acceptedIssuerTyp, SdJwt.w3cTyps, List.mem_cons, List.not_mem_nil,
      or_false] at ht
    rcases ht with rfl | rfl | rfl <;> decide
  rw [rejectSdJwtTyp, hh]
  simp only [I.lower_ascii t hascii.1, hascii.2]
  intro h
  cases h

end VcJwt

/-- No issuer JWT is accepted by both lanes, whatever the tail, the keys, the suites, the policies and
the clocks of the two runs. -/
theorem lanes_disjoint {I₁ I₂ : Interpreter} {C₁ C₂ : Crypto} {J : PyJwt} (hJ : J.ReturnsPayload)
    {s tail : Str} (hs : 126 ∉ s) {suite₁ : SdJwt.Suite} {suite₂ : VcJwt.Suite} {jwk₁ : Dict}
    {jwk₂ : Json} {policy₁ : SdJwt.Policy} {policy₂ : VcJwt.Policy} {waive₁ waive₂ : Bool} :
    ¬ ((∃ r, SdJwt.verify I₁ C₁ suite₁ (s ++ 126 :: tail) jwk₁ policy₁ waive₁ = .ok r) ∧
      ∃ r, VcJwt.verify I₂ C₂ J suite₂ s jwk₂ policy₂ waive₂ = .ok r) := by
  rintro ⟨⟨r₁, h₁⟩, r₂, h₂⟩
  obtain ⟨run₁⟩ := SdJwt.verify_eq_ok.mp h₁
  obtain ⟨run₂⟩ := VcJwt.verify_eq_ok.mp h₂
  have hsigned := SdJwt.issuerJwt_of_split hs run₁.split ▸ run₁.signed
  simp only [SdJwt.openIssuerJwt, bind_eq_ok, pure_eq_ok, Prod.mk.injEq] at hsigned
  obtain ⟨jws, hdecode, _, -, typ, htyp, ⟨⟩, -, ⟨⟩, -, hjws, htyp₁⟩ := hsigned
  -- both runs read the same header and the same payload
  obtain ⟨segments, hseg, hheader, hpayload⟩ := SdJwt.decodeJws_eq_ok hdecode
  obtain ⟨_, hseg₂, hheader₂⟩ := VcJwt.readHeader_eq_ok run₂.readHeader
  obtain ⟨_, hseg₃, hpayload₂⟩ := VcJwt.peekClaims_eq_ok run₂.readPayload
  rw [hseg] at hseg₂ hseg₃
  cases hseg₂
  cases hseg₃
  rw [hheader] at hheader₂
  rw [hpayload] at hpayload₂
  have hh : jws.header = run₂.header := Json.obj.inj (Except.ok.inj hheader₂)
  have hp : jws.payload = run₂.payload := Json.obj.inj (Except.ok.inj hpayload₂)
  rcases SdJwt.readTyp_eq_ok htyp with rfl | ⟨t, ht, hget⟩
  · -- untyped: the `vc` claim that one lane needs is the one the other refuses
    have hvc : run₁.jws.payload.has "vc" = true := by
      have hcred := run₂.credential
      rw [run₂.claims_eq hJ, ← hp, hjws] at hcred
      rw [Dict.has]
      cases hg : run₁.jws.payload.get? "vc" with
      | some v => rfl
      | none => rw [Dict.get, hg] at hcred; cases hcred
    have hhas := SdJwt.processPayload_has run₁.processed hvc (by decide) (by decide)
    have hw := run₁.w3c
    rw [← htyp₁, SdJwt.checkW3c, if_neg (by decide)] at hw
    simp only [bind_eq_ok, raiseIf_eq_ok, hhas] at hw
    obtain ⟨⟨⟩, -, ⟨⟩, hban, -⟩ := hw
    cases hban
  · -- typed: the name is refused by the VC-JWT lane
    exact VcJwt.rejectSdJwtTyp_accepted ht (hh ▸ hget) run₂.notSdJwtTyp

/-- An SD-JWT with no disclosure sent is accepted; its bare issuer JWT is no VC-JWT. -/
theorem lanes_disjoint_ann :
    (∃ r, SdJwt.verify (.atSecond 1800000000 []) SdJwt.annCrypto SdJwt.defaultSuite
      (SdJwt.annIssuerJwt ++ 126 :: []) SdJwt.annJwk {} true = .ok r) ∧
    ¬ ∃ r, VcJwt.verify (.atSecond 1800000000 []) SdJwt.annCrypto (cardPyJwt 1800000000)
      ⟨60, by decide, false, false⟩ SdJwt.annIssuerJwt cardJwk {} true = .ok r := by
  have hsd : ∃ r, SdJwt.verify (.atSecond 1800000000 []) SdJwt.annCrypto SdJwt.defaultSuite
      (SdJwt.annIssuerJwt ++ 126 :: []) SdJwt.annJwk {} true = .ok r :=
    returned_iff.mp (by decide +kernel)
  have hs : 126 ∉ SdJwt.annIssuerJwt := by decide +kernel
  exact ⟨hsd, fun hvc => lanes_disjoint (signedPyJwt_returnsPayload 1800000000 _) hs ⟨hsd, hvc⟩⟩

end OpenVC
