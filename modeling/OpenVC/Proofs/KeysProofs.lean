import OpenVC.Keys
import OpenVC.Proof.VcJwt

/-!
# Which keys verify under an algorithm

Three places decide whether a JWK may verify under an algorithm: `verify_signature`, the key loader
of the VC-JWT suite and the key-proof check of OpenID4VCI. The last two read the type the JWK names
itself (`kty`, `crv`, `alg`); `verify_signature` reads the key members only.
-/

namespace OpenVC

open Python

variable {C : Crypto} {J : PyJwt} {alg : Str} {jwk : Dict} {input signature : Bytes}

/-- The JWK names the type of key the algorithm verifies with. -/
def NamesKeyType (alg : Str) (jwk : Dict) : Prop :=
  if alg ∈ mldsaAlgs then jwk.get "kty" = .str (lit "AKP") ∧ jwk.get "alg" = .str alg
  else alg ∈ allowedAlgs ∧ jwk.get "kty" = .str (VcJwt.pinnedKind alg).1 ∧
    jwk.get "crv" = .str (VcJwt.pinnedKind alg).2

/-- The lanes that pin a key to its algorithm let this one verify: the key-proof check of OpenID4VCI
and, for the algorithms it loads keys for, the VC-JWT suite. -/
def Pinned (J : PyJwt) (alg : Str) (jwk : Dict) : Prop :=
  OpenId4Vci.checkKeyBindsToAlg jwk alg = .ok () ∧
    (alg ∈ allowedAlgs → ∃ key, VcJwt.jwkToKey J (.obj jwk) alg = .ok key)

/-- The curve of an ECDSA algorithm. -/
def ecdsaCurve (alg : Str) : Option Curve :=
  if alg = lit "ES256" then some .p256 else if alg = lit "ES384" then some .p384 else none

/-- The key members of the JWK hold a key under which some signature of the algorithm verifies. -/
inductive HoldsKey (C : Crypto) (alg : Str) (jwk : Dict) : Prop
  | ed25519 (raw message signature : Bytes) (halg : alg ∈ ed25519AlgNames)
      (hx : jwkBytes jwk "x" = some raw) (hlen : raw.length = 32)
      (h : C.ed25519Verify raw message signature = true)
  | ecdsa (curve : Curve) (x y message r s : Bytes) (halg : ecdsaCurve alg = some curve)
      (hx : jwkBytes jwk "x" = some x) (hy : jwkBytes jwk "y" = some y)
      (hon : C.ecOnCurve curve (Codec.intFromBytes x) (Codec.intFromBytes y) = true)
      (hr : r.length = curve.coordBytes) (hs : s.length = curve.coordBytes)
      (h : C.ecdsaVerify curve (Codec.intFromBytes x, Codec.intFromBytes y) message
        (Codec.intFromBytes r, Codec.intFromBytes s) = true)
  | mldsa (pub message signature : Bytes) (halg : alg ∈ mldsaAlgs)
      (hinstalled : (C.mldsaKey alg []).isSome = true) (hpub : jwkBytes jwk "pub" = some pub)
      (hkey : C.mldsaKey alg pub = some true) (h : C.mldsaVerify alg pub message signature = true)

/-! ## `verify_signature` reads the key members only -/

theorem verifyEcdsa_eq_true {curve : Curve} {text : String} :
    verifyEcdsa C curve alg text jwk input signature = .ok true ↔
      signature.length = 2 * curve.coordBytes ∧ ∃ x y, jwkBytes jwk "x" = some x ∧
        jwkBytes jwk "y" = some y ∧
        C.ecOnCurve curve (Codec.intFromBytes x) (Codec.intFromBytes y) = true ∧
        C.ecdsaVerify curve (Codec.intFromBytes x, Codec.intFromBytes y) input
          (Codec.intFromBytes (signature.take curve.coordBytes),
            Codec.intFromBytes (signature.drop curve.coordBytes)) = true := by
  simp only [verifyEcdsa, bind_eq_ok, raiseIf_eq_ok, orRaise_eq_ok, pure_eq_ok]
  constructor
  · rintro ⟨⟨⟩, hlen, x, hx, y, hy, ⟨⟩, hon, h⟩
    exact ⟨by simpa using hlen, x, y, hx, hy, by simpa using hon, h⟩
  · rintro ⟨hlen, x, y, hx, hy, hon, h⟩
    exact ⟨(), by simpa using hlen, x, hx, y, hy, (), by simpa using hon, h⟩

theorem exists_verifySignature_iff :
    (∃ input signature, verifySignature C alg jwk input signature = .ok true) ↔
      HoldsKey C alg jwk := by
  constructor
  · rintro ⟨input, signature, h⟩
    unfold verifySignature at h
    split at h
    · rename_i halg
      simp only [bind_eq_ok, raiseIf_eq_ok, orRaise_eq_ok, pure_eq_ok] at h
      obtain ⟨raw, hx, ⟨⟩, hlen, h⟩ := h
      exact .ed25519 raw input signature halg hx (by simpa using hlen) h
    · split at h
      · rename_i halg
        obtain ⟨hlen, x, y, hx, hy, hon, h⟩ := verifyEcdsa_eq_true.mp h
        refine .ecdsa .p256 x y input _ _ (by rw [ecdsaCurve, if_pos halg]) hx hy hon ?_ ?_ h
        · rw [List.length_take]; omega
        · rw [List.length_drop]; omega
      · split at h
        · rename_i hne halg
          obtain ⟨hlen, x, y, hx, hy, hon, h⟩ := verifyEcdsa_eq_true.mp h
          refine .ecdsa .p384 x y input _ _ (by rw [ecdsaCurve, if_neg hne, if_pos halg]) hx hy hon
            ?_ ?_ h
          · rw [List.length_take]; omega
          · rw [List.length_drop]; omega
        · split at h
          · rename_i halg
            simp only [bind_eq_ok, raiseIf_eq_ok, orRaise_eq_ok, pure_eq_ok] at h
            obtain ⟨⟨⟩, hinst, pub, hpub, ⟨⟩, hkey, h⟩ := h
            refine .mldsa pub input signature halg ?_ hpub (by simpa using hkey) h
            simpa [Option.isSome_iff_ne_none] using hinst
          · cases h
  · rintro (⟨raw, message, signature, halg, hx, hlen, h⟩ |
      ⟨curve, x, y, message, r, s, halg, hx, hy, hon, hr, hs, h⟩ |
      ⟨pub, message, signature, halg, hinst, hpub, hkey, h⟩)
    · refine ⟨message, signature, ?_⟩
      rw [verifySignature, if_pos halg]
      simp only [bind_eq_ok, raiseIf_eq_ok, orRaise_eq_ok, pure_eq_ok]
      exact ⟨raw, hx, (), by simpa using hlen, h⟩
    · have htake : (r ++ s).take curve.coordBytes = r := by rw [← hr]; exact List.take_left
      have hdrop : (r ++ s).drop curve.coordBytes = s := by rw [← hr]; exact List.drop_left
      have hlen : (r ++ s).length = 2 * curve.coordBytes := by
        rw [List.length_append]
        omega
      refine ⟨message, r ++ s, ?_⟩
      have hv : ∀ text, verifyEcdsa C curve alg text jwk message (r ++ s) = .ok true := by
        intro text
        rw [verifyEcdsa_eq_true, htake, hdrop]
        exact ⟨hlen, x, y, hx, hy, hon, h⟩
      unfold ecdsaCurve at halg
      split at halg
      · rename_i he
        cases halg
        have hed : alg ∉ ed25519AlgNames := by rw [he]; decide
        rw [verifySignature, if_neg hed, if_pos he]
        exact hv _
      · rename_i hne
        split at halg
        · rename_i he
          cases halg
          have hed : alg ∉ ed25519AlgNames := by rw [he]; decide
          rw [verifySignature, if_neg hed, if_neg hne, if_pos he]
          exact hv _
        · cases halg
    · refine ⟨message, signature, ?_⟩
      have hclassic : alg ∉ ed25519AlgNames ∧ alg ≠ lit "ES256" ∧ alg ≠ lit "ES384" := by
        have : ∀ a ∈ mldsaAlgs, a ∉ ed25519AlgNames ∧ a ≠ lit "ES256" ∧ a ≠ lit "ES384" := by
          decide
        exact this alg halg
      rw [verifySignature, if_neg hclassic.1, if_neg hclassic.2.1, if_neg hclassic.2.2, if_pos halg]
      simp only [bind_eq_ok, raiseIf_eq_ok, orRaise_eq_ok, pure_eq_ok]
      exact ⟨(), by simpa [Option.isSome_iff_ne_none] using hinst, pub, hpub, (),
        by simpa using hkey, h⟩

/-! ## The pinning lanes read the type -/

theorem isKind_iff {kty crv : Str} :
    VcJwt.isKind jwk kty crv = true ↔ jwk.get "kty" = .str kty ∧ jwk.get "crv" = .str crv := by
  rw [VcJwt.isKind, Bool.and_eq_true, Json.pyEq_str_right, Json.pyEq_str_right]

theorem algKeyBinding_lookup : OpenId4Vci.algKeyBinding.lookup alg =
    if alg ∈ allowedAlgs then some (VcJwt.pinnedKind alg) else none := by
  by_cases halg : alg ∈ allowedAlgs
  · have : ∀ a ∈ allowedAlgs,
        OpenId4Vci.algKeyBinding.lookup a = some (VcJwt.pinnedKind a) := by decide
    rw [if_pos halg, this alg halg]
  · rw [if_neg halg]
    simp only [allowedAlgs, List.mem_cons, List.not_mem_nil, or_false, not_or] at halg
    obtain ⟨h₁, h₂, h₃, h₄⟩ := halg
    simp only [OpenId4Vci.algKeyBinding, List.lookup_cons, List.lookup_nil, beq_false_of_ne h₁,
      beq_false_of_ne h₂, beq_false_of_ne h₃, beq_false_of_ne h₄]

theorem checkKeyBindsToAlg_iff :
    OpenId4Vci.checkKeyBindsToAlg jwk alg = .ok () ↔ NamesKeyType alg jwk := by
  have hdisjoint : ∀ a ∈ mldsaAlgs, a ∉ allowedAlgs := by decide
  rw [OpenId4Vci.checkKeyBindsToAlg, NamesKeyType, algKeyBinding_lookup]
  by_cases halg : alg ∈ allowedAlgs
  · have hpq : alg ∉ mldsaAlgs := fun h => hdisjoint alg h halg
    rw [if_pos halg]
    simp only [raiseIf_eq_ok, Bool.or_eq_false_iff, Bool.not_eq_false', Json.pyEq_str_right,
      if_neg hpq, halg, true_and]
  · rw [if_neg halg]
    by_cases hpq : alg ∈ mldsaAlgs
    · simp only [if_pos hpq, raiseIf_eq_ok, Bool.or_eq_false_iff, Bool.not_eq_false',
        Json.pyEq_str_right]
    · simp only [if_neg hpq, halg, false_and, iff_false]
      exact fun h => nomatch h

/-- The VC-JWT suite loads a key exactly when the JWK names the algorithm's type and PyJWT accepts
its members. -/
theorem jwkToKey_iff (halg : alg ∈ allowedAlgs) :
    (∃ key, VcJwt.jwkToKey J (.obj jwk) alg = .ok key) ↔
      NamesKeyType alg jwk ∧ ∃ key, J.fromJwk alg jwk = .ok key := by
  have hother : ∀ a ∈ allowedAlgs, a ∉ mldsaAlgs ∧ a ≠ lit "ES256K" := by decide
  obtain ⟨hpq, hk⟩ := hother alg halg
  have hloaded : ∀ key, VcJwt.loaded alg (J.fromJwk alg jwk) = .ok key ↔
      J.fromJwk alg jwk = .ok key := by
    intro key
    cases J.fromJwk alg jwk with
    | ok k => simp [VcJwt.loaded]
    | error text => simp [VcJwt.loaded, raise]
  simp only [VcJwt.jwkToKey, if_neg hk, VcJwt.classicKey, bind_eq_ok, raiseIf_eq_ok,
    Bool.not_eq_false', isKind_iff, hloaded, NamesKeyType, if_neg hpq, halg, true_and]
  constructor
  · rintro ⟨key, ⟨⟩, hkind, hkey⟩
    exact ⟨hkind, key, hkey⟩
  · rintro ⟨hkind, key, hkey⟩
    exact ⟨key, (), hkind, hkey⟩

/-- `verify_signature` agrees with the pinning lanes on a JWK exactly when the type the JWK names is
the algorithm's and PyJWT loads it, or when its key members hold no key of the algorithm: it reads
`x`, `y` and `pub` and never `kty`, `crv` or `alg`. -/
theorem verifySignature_pinned_iff (C : Crypto) (J : PyJwt) (alg : Str) (jwk : Dict) :
    (∀ input signature, verifySignature C alg jwk input signature = .ok true →
      NamesKeyType alg jwk ∧ Pinned J alg jwk) ↔
    (NamesKeyType alg jwk ∧ (alg ∈ allowedAlgs → ∃ key, J.fromJwk alg jwk = .ok key)) ∨
      ¬ HoldsKey C alg jwk := by
  have hpinned : (NamesKeyType alg jwk ∧ Pinned J alg jwk) ↔
      NamesKeyType alg jwk ∧ (alg ∈ allowedAlgs → ∃ key, J.fromJwk alg jwk = .ok key) := by
    constructor
    · rintro ⟨hname, -, hload⟩
      exact ⟨hname, fun halg => ((jwkToKey_iff halg).mp (hload halg)).2⟩
    · rintro ⟨hname, hload⟩
      exact ⟨hname, checkKeyBindsToAlg_iff.mpr hname,
        fun halg => (jwkToKey_iff halg).mpr ⟨hname, hload halg⟩⟩
  constructor
  · intro h
    by_cases hkey : HoldsKey C alg jwk
    · obtain ⟨input, signature, hv⟩ := exists_verifySignature_iff.mpr hkey
      exact .inl (hpinned.mp (h input signature hv))
    · exact .inr hkey
  · rintro (h | hkey) input signature hv
    · exact hpinned.mpr h
    · exact absurd (exists_verifySignature_iff.mp ⟨input, signature, hv⟩) hkey

/-- An Ed25519 key in a JWK that calls itself an EC key. -/
def mislabelledJwk : Dict :=
  [("kty", .str (lit "EC")), ("crv", .str (lit "P-256")),
   ("x", .str (lit "11qYAYKxCrfVS_7TyWQHOg7hcvPapiMlrwIaaPcHURo"))]

/-- That key's signature of the empty message. -/
def emptyMessageRow : Nat × Str × (Nat × Nat) :=
  (0xd75a980182b10ab7d54bfed3c964073a0ee172f3daa62325af021a68f707511a, [],
    (0xe5564300c360ac729086e2cc806e828a84877f1eb8e5d974d873e06522490155,
     0x5fb8821590a33bacc61e39701cf9b46bd25bf5f0595bbe24655141438e7a100b))

/-- `verify_signature` accepts the mislabelled key, which both pinning lanes refuse. -/
theorem mislabelledJwk_accepted :
    ¬ ∀ (J : PyJwt) (alg : Str) (jwk : Dict) (input signature : Bytes),
      verifySignature (Crypto.ofTexts [emptyMessageRow]) alg jwk input signature = .ok true →
        NamesKeyType alg jwk ∧ Pinned J alg jwk := by
  intro h
  have hv : (verifySignature (Crypto.ofTexts [emptyMessageRow]) "EdDSA" mislabelledJwk []
      (Codec.intToFixed emptyMessageRow.2.2.1 32 ++
        Codec.intToFixed emptyMessageRow.2.2.2 32)).toOption.map id = some true := by
    decide +kernel
  obtain ⟨b, hb, rfl⟩ := exists_ok_of_map hv
  have hname := (h ⟨Unit, fun _ _ => .ok (), fun _ _ => .ok (), fun _ _ => .ok []⟩ _ _ _ _ hb).1
  rw [NamesKeyType, if_neg (by decide)] at hname
  exact absurd (Json.str.inj hname.2.1) (by decide)

end OpenVC
