import OpenVC.Proof.Proofs.SdJwtProofs
import OpenVC.Python.Text

/-!
# What a Key Binding JWT binds

A KB-JWT is verified under the `cnf` key of the signed issuer JWT, against one audience and one
nonce, within a window of time, and its `sd_hash` is over the issuer JWT and the disclosures as they
were presented. `split` drops empty parts, so the presentation itself is not determined by its
parts; the issuer JWT and the sequence of disclosures are determined by the text that is hashed.
-/

namespace Python.PyFloat

theorem sub_fin_ne_nan (a b : Rat) : sub (.fin a) (.fin b) ≠ .nan := by
  rw [sub, ofRat]
  split
  · split <;> simp
  · simp

theorem le_of_not_lt {a : Rat} {x : PyFloat} (hx : x ≠ .nan) (h : lt (.fin a) x = false) :
    le x (.fin a) = true := by
  cases x with
  | nan => exact absurd rfl hx
  | posInf => simp [lt] at h
  | negInf => rfl
  | fin b =>
    simp only [lt, decide_eq_false_iff_not, not_lt] at h
    simp only [le, lt, eq, Bool.or_eq_true, decide_eq_true_eq, beq_iff_eq]
    exact lt_or_eq_of_le h

end Python.PyFloat

namespace OpenVC

open Python

/-- An `iat` that lies in the closed window around an instant: a finite number, not older than
`maxAge` plus the leeway and not further in the future than the leeway. -/
structure InWindow (iat current : Json) (maxAge leeway : Int) : Prop where
  numeric : isNumericDate iat = true
  notOld : Json.le (Json.sub current iat) (.int (maxAge + leeway)) = true
  notFuture : Json.le (Json.sub iat current) (.int leeway) = true

theorem toFloat_of_isNumericDate {v : Json} (h : isNumericDate v = true) :
    ∃ q, v.toFloat = .fin q := by
  cases v with
  | int n =>
    simp only [isNumericDate, PyFloat.ofInt] at h
    rw [Json.toFloat]
    cases hn : PyFloat.ofRat (n : Rat) with
    | fin q => exact ⟨q, rfl⟩
    | nan | posInf | negInf => simp [hn] at h
  | float f =>
    cases f with
    | fin q => exact ⟨q, rfl⟩
    | nan | posInf | negInf => simp [isNumericDate, PyFloat.isFinite] at h
  | null | bool | str | arr | obj => simp [isNumericDate] at h

theorem sub_le_of_not_lt {x y : Json} {n : Int} (hx : isNumericDate x = true)
    (hy : isNumericDate y = true) (h : Json.lt (.int n) (Json.sub x y) = false) :
    Json.le (Json.sub x y) (.int n) = true := by
  obtain ⟨a, ha⟩ := toFloat_of_isNumericDate hx
  obtain ⟨b, hb⟩ := toFloat_of_isNumericDate hy
  have hcases : (∃ k, Json.sub x y = .int k) ∨
      Json.sub x y = .float (PyFloat.sub (.fin a) (.fin b)) := by
    rw [← ha, ← hb]
    cases x <;> cases y <;> simp [Json.sub]
  rcases hcases with ⟨k, hk⟩ | hf
  · rw [hk] at h ⊢
    exact PyFloat.le_of_not_lt (by simp) h
  · rw [hf] at h ⊢
    exact PyFloat.le_of_not_lt (PyFloat.sub_fin_ne_nan a b) h

theorem inWindow_of_checkIatFreshness {iat current : Json} {maxAge leeway n : Int} {subject : Str}
    (hc : isNumericDate current = true)
    (h : checkIatFreshness iat maxAge leeway current subject = .ok n) :
    InWindow iat current maxAge leeway := by
  simp only [checkIatFreshness, bind_eq_ok, raiseIf_eq_ok, pure_eq_ok, leewaySeconds_eq_ok] at h
  obtain ⟨_, ⟨-, rfl⟩, ⟨⟩, -, ⟨⟩, hnum, ⟨⟩, hold, ⟨⟩, hfut, -⟩ := h
  have hnum' : isNumericDate iat = true := by simpa using hnum
  exact ⟨hnum', sub_le_of_not_lt hc hnum' hold, sub_le_of_not_lt hnum' hc hfut⟩

namespace SdJwt

variable {I : Interpreter} {C : Crypto} {suite : Suite} {parts : Parts} {cnf : Json} {hashName : Str}
  {policy : Policy} {current : Json} {presentation : Str} {jwk : Dict} {checkTemporal : Bool}
  {r : Verified}

/-! ## A verified KB-JWT -/

/-- What `_verify_key_binding` established about a KB-JWT it accepted. -/
structure Bound (C : Crypto) (suite : Suite) (parts : Parts) (cnf : Json) (hashName : Str)
    (policy : Policy) (current : Json) where
  kb : Jws
  alg : Str
  holder : Dict
  holderJwk : Dict
  hasher : Bytes → Bytes
  data : Bytes
  decoded : decodeJws parts.kbJwt = .ok kb
  permitted : VcJwt.permittedAlg suite.algs kb.header = some alg
  confirmation : cnf = .obj holder
  named : holder.get "jwk" = .obj holderJwk
  signed : verifySignature C alg holderJwk kb.signingInput kb.signature = .ok true
  fresh : ∃ n, checkIatFreshness (kb.payload.get "iat") policy.kbMaxAgeS suite.leeway current
    "KB-JWT" = .ok n
  audience : ∀ a, policy.audience = some a → kb.payload.get "aud" = .str a
  nonce : ∀ n, policy.nonce = some n → kb.payload.get "nonce" = .str n
  hash : hashes C hashName = some hasher
  ascii : Codec.encodeAscii (presented parts) = some data
  sdHash : kb.payload.get "sd_hash" = .str (Codec.b64urlEncode (hasher data))

theorem checkSignature_eq_ok {alg : Str} {jws : Jws} {what : Str} :
    checkSignature C alg jwk jws what = .ok () ↔
      verifySignature C alg jwk jws.signingInput jws.signature = .ok true := by
  simp only [checkSignature, bind_eq_ok, reraise_eq_ok, raiseIf_eq_ok]
  constructor
  · rintro ⟨ok, h, hok⟩
    rw [h, Except.ok.injEq]
    simpa using hok
  · intro h
    exact ⟨true, h, rfl⟩

theorem cnfJwk_eq_some {holderJwk : Dict} (h : cnfJwk cnf = some holderJwk) :
    ∃ holder, cnf = .obj holder ∧ Dict.get holder "jwk" = .obj holderJwk := by
  cases cnf with
  | obj holder => exact ⟨holder, rfl, Json.obj?_eq_some.mp h⟩
  | null | bool | int | float | str | arr => cases h

theorem eq_of_not_any_ne {expected : Option Str} {v : Json}
    (h : (expected.any fun e => !Json.pyEq v (.str e)) = false) :
    ∀ e, expected = some e → v = .str e := by
  rintro e rfl
  simp only [Option.any_some, Bool.not_eq_false'] at h
  exact Json.pyEq_str_right.mp h

theorem bound_of_checkKbJwt {b : Bool}
    (h : checkKbJwt I C suite parts cnf hashName policy current = .ok b) :
    Nonempty (Bound C suite parts cnf hashName policy current) := by
  simp only [checkKbJwt, bind_eq_ok, raiseIf_eq_ok, orRaise_eq_ok, pure_eq_ok, recast_eq_ok] at h
  obtain ⟨⟨⟩, -, ⟨⟩, -, kb, hkb, ⟨⟩, -, alg, halg, ⟨⟩, -, holderJwk, hjwk, ⟨⟩, hsig, n, hiat, ⟨⟩, -,
    -, -, ⟨⟩, haud, ⟨⟩, hnonce, hasher, hhash, data, hdata, ⟨⟩, hsd, -⟩ := h
  obtain ⟨holder, hcnf, hnamed⟩ := cnfJwk_eq_some hjwk
  exact ⟨{ kb, alg, holder, holderJwk, hasher, data, decoded := hkb, permitted := halg,
           confirmation := hcnf, named := hnamed, signed := checkSignature_eq_ok.mp hsig, fresh := ⟨n, hiat⟩,
           audience := eq_of_not_any_ne haud, nonce := eq_of_not_any_ne hnonce, hash := hhash, ascii := hdata,
           sdHash := Json.pyEq_str_right.mp (by simpa using hsd) }⟩

theorem bound_of_verifyKeyBinding {required : Bool}
    (h : verifyKeyBinding I C suite parts cnf hashName policy required current = .ok true) :
    Nonempty (Bound C suite parts cnf hashName policy current) := by
  simp only [verifyKeyBinding, bind_eq_ok, raiseIf_eq_ok] at h
  obtain ⟨⟨⟩, -, ⟨⟩, -, h⟩ := h
  split at h
  · cases h
  · exact bound_of_checkKbJwt h

/-- A presentation accepted as key bound, required or not, carries a KB-JWT that passed. -/
theorem Run.bound (run : Run I C suite presentation jwk policy checkTemporal r)
    (hb : r.keyBound = true) :
    Nonempty (Bound C suite run.parts (run.jws.payload.get "cnf") run.envelope.hashName policy
      (kbInstant I policy.now)) := by
  have hbinding := binding_eq_ok.mp
    ⟨(checkEnvelope_eq_ok.mp run.checkedEnvelope).2.2, run.binding⟩
  rw [hb] at hbinding
  exact bound_of_verifyKeyBinding hbinding.1

theorem checkKbJwt_eq_true {b : Bool}
    (h : checkKbJwt I C suite parts cnf hashName policy current = .ok b) : b = true := by
  simp only [checkKbJwt, bind_eq_ok, pure_eq_ok] at h
  obtain ⟨-, -, -, -, -, -, -, -, -, -, -, -, -, -, -, -, -, -, -, -, -, -, -, -, -, -, -, -, -, -,
    -, -, h⟩ := h
  exact h.symm

theorem Run.keyBound (run : Run I C suite presentation jwk policy checkTemporal r)
    (hr : policy.requireKeyBinding = true) : r.keyBound = true := by
  have hbinding := (binding_eq_ok.mp
    ⟨(checkEnvelope_eq_ok.mp run.checkedEnvelope).2.2, run.binding⟩).1
  simp only [hr, verifyKeyBinding, bind_eq_ok, raiseIf_eq_ok, Bool.true_and] at hbinding
  obtain ⟨⟨⟩, -, ⟨⟩, hkb, h⟩ := hbinding
  rw [hkb, if_neg (by simp)] at h
  exact checkKbJwt_eq_true h

theorem Run.kbJwt_eq_nil (run : Run I C suite presentation jwk policy checkTemporal r)
    (hb : r.keyBound = false) : run.parts.kbJwt = [] := by
  have hbinding := (binding_eq_ok.mp
    ⟨(checkEnvelope_eq_ok.mp run.checkedEnvelope).2.2, run.binding⟩).1
  simp only [hb, verifyKeyBinding, bind_eq_ok, raiseIf_eq_ok] at hbinding
  obtain ⟨⟨⟩, -, ⟨⟩, -, h⟩ := hbinding
  split at h
  · rename_i hnil
    exact List.isEmpty_iff.mp hnil
  · exact absurd (checkKbJwt_eq_true h) (by simp)

/-! ## The hashed text -/

theorem split_eq_ok (h : split presentation = .ok parts) :
    126 ∉ parts.issuerJwt ∧ ∀ d ∈ parts.disclosures, 126 ∉ d := by
  rw [split] at h
  split at h
  · rename_i issuerJwt part ps hs
    cases h
    have hmem : ∀ p ∈ issuerJwt :: part :: ps, 126 ∉ p := by
      intro p hp
      exact Str.not_mem_of_mem_split (hs ▸ hp)
    refine ⟨hmem _ List.mem_cons_self, fun d hd => hmem d (List.mem_cons_of_mem _ ?_)⟩
    exact List.dropLast_subset _ (List.mem_of_mem_filter hd)
  · cases h

/-- The text that is hashed determines the issuer JWT and the sequence of disclosures. -/
theorem eq_of_presented_eq {presentation' : Str} {parts' : Parts}
    (h : split presentation = .ok parts) (h' : split presentation' = .ok parts')
    (heq : presented parts = presented parts') :
    parts.issuerJwt = parts'.issuerJwt ∧ parts.disclosures = parts'.disclosures := by
  have hsplit : ∀ {q : Str} {p : Parts}, split q = .ok p →
      Str.split 126 (presented p) = p.issuerJwt :: (p.disclosures ++ [[]]) := by
    intro q p hq
    obtain ⟨hj, hd⟩ := split_eq_ok hq
    have hrest := Str.split_flatMap hd
    rw [Str.split] at hrest
    rw [presented, Str.split, List.splitOn_append_cons_self_of_not_mem hj, hrest]
  have hparts := (hsplit h).symm.trans (heq ▸ hsplit h')
  obtain ⟨hj, hd⟩ := List.cons.inj hparts
  exact ⟨hj, List.append_cancel_right hd⟩

/-- The `_sd_alg` that an issuer JWT's payload names. -/
def sdAlg (payload : Dict) : Json := (payload.get? "_sd_alg").getD (.str (lit "sha-256"))

theorem issAndHash_hashName {jws : Jws} {iss : Str} (h : issAndHash C jws = .ok (iss, hashName)) :
    sdAlg jws.payload = .str hashName := by
  simp only [issAndHash, bind_eq_ok, orRaise_eq_ok, pure_eq_ok, Prod.mk.injEq] at h
  obtain ⟨_, -, name, hname, -, rfl⟩ := h
  exact Json.str?_eq_some.mp (Option.filter_eq_some_iff.mp hname).1

theorem openIssuerJwt_eq_ok {issuerJwt : Str} {jws : Jws} {typ : Option Str}
    (h : openIssuerJwt C suite issuerJwt jwk = .ok (jws, typ)) :
    decodeJws issuerJwt = .ok jws ∧
      ∃ alg, verifySignature C alg jwk jws.signingInput jws.signature = .ok true := by
  simp only [openIssuerJwt, bind_eq_ok, orRaise_eq_ok, pure_eq_ok, Prod.mk.injEq] at h
  obtain ⟨jws', hjws, alg, -, _, -, ⟨⟩, -, ⟨⟩, hsig, rfl, -⟩ := h
  exact ⟨hjws, alg, checkSignature_eq_ok.mp hsig⟩

/-- No two of the texts hashed for these presentations collide. -/
def CollisionFree (C : Crypto) (parts parts' : Parts) : Prop :=
  ∀ name hasher data data', hashes C name = some hasher →
    Codec.encodeAscii (presented parts) = some data →
    Codec.encodeAscii (presented parts') = some data' → hasher data = hasher data' → data = data'

/-- A KB-JWT binds one presentation to one verifier. Where the binding is required, the KB-JWT of an
accepted presentation is signed by the `cnf` key of the signed issuer JWT, for the audience and the
nonce asked for, within the window. Two presentations accepted as key bound that carry the same
KB-JWT, under issuer JWTs that name the same digest algorithm, have the same issuer JWT and the same
disclosures in the same order. -/
theorem verify_binds_presentation (C : Crypto) :
    (∀ {I : Interpreter} {suite : Suite} {presentation : Str} {jwk : Dict} {policy : Policy}
        {checkTemporal : Bool} {r : Verified} {a n : Str},
      -- the clock and `datetime` give finite numbers
      isNumericDate (kbInstant I policy.now) = true →
      policy.requireKeyBinding = true → policy.audience = some a → policy.nonce = some n →
      verify I C suite presentation jwk policy checkTemporal = .ok r →
      r.keyBound = true ∧ ∃ parts jws issuerAlg cnf holderJwk kb alg,
        split presentation = .ok parts ∧ decodeJws parts.issuerJwt = .ok jws ∧
        verifySignature C issuerAlg jwk jws.signingInput jws.signature = .ok true ∧
        decodeJws parts.kbJwt = .ok kb ∧ jws.payload.get "cnf" = .obj cnf ∧
        Dict.get cnf "jwk" = .obj holderJwk ∧
        verifySignature C alg holderJwk kb.signingInput kb.signature = .ok true ∧
        kb.payload.get "aud" = .str a ∧ kb.payload.get "nonce" = .str n ∧
        InWindow (kb.payload.get "iat") (kbInstant I policy.now) policy.kbMaxAgeS suite.leeway) ∧
    (∀ {I I' : Interpreter} {suite suite' : Suite} {presentation presentation' : Str}
        {jwk jwk' : Dict} {policy policy' : Policy} {checkTemporal checkTemporal' : Bool}
        {r r' : Verified} {parts parts' : Parts} {jws jws' : Jws},
      verify I C suite presentation jwk policy checkTemporal = .ok r →
      verify I' C suite' presentation' jwk' policy' checkTemporal' = .ok r' →
      r.keyBound = true → r'.keyBound = true →
      split presentation = .ok parts → split presentation' = .ok parts' →
      decodeJws parts.issuerJwt = .ok jws → decodeJws parts'.issuerJwt = .ok jws' →
      parts.kbJwt = parts'.kbJwt → sdAlg jws.payload = sdAlg jws'.payload →
      CollisionFree C parts parts' →
      parts.issuerJwt = parts'.issuerJwt ∧ parts.disclosures = parts'.disclosures) := by
  constructor
  · intro I suite presentation jwk policy checkTemporal r a n hcurrent hr ha hn h
    obtain ⟨run⟩ := verify_eq_ok.mp h
    have hkb := run.keyBound hr
    obtain ⟨b⟩ := run.bound hkb
    obtain ⟨hjws, issuerAlg, hsig⟩ := openIssuerJwt_eq_ok run.signed
    obtain ⟨i, hiat⟩ := b.fresh
    exact ⟨hkb, run.parts, run.jws, issuerAlg, b.holder, b.holderJwk, b.kb, b.alg, run.split, hjws,
      hsig, b.decoded, b.confirmation, b.named, b.signed, b.audience a ha, b.nonce n hn,
      inWindow_of_checkIatFreshness hcurrent hiat⟩
  · intro I I' suite suite' presentation presentation' jwk jwk' policy policy' ct ct' r r' parts
      parts' jws jws' h h' hb hb' hs hs' hj hj' hkb halg hcf
    obtain ⟨run⟩ := verify_eq_ok.mp h
    obtain ⟨run'⟩ := verify_eq_ok.mp h'
    obtain rfl : run.parts = parts := Except.ok.inj (run.split.symm.trans hs)
    obtain rfl : run'.parts = parts' := Except.ok.inj (run'.split.symm.trans hs')
    obtain rfl : run.jws = jws := Except.ok.inj ((openIssuerJwt_eq_ok run.signed).1.symm.trans hj)
    obtain rfl : run'.jws = jws' :=
      Except.ok.inj ((openIssuerJwt_eq_ok run'.signed).1.symm.trans hj')
    obtain ⟨b⟩ := run.bound hb
    obtain ⟨b'⟩ := run'.bound hb'
    -- one KB-JWT, one `sd_hash`
    have hkb' : b.kb = b'.kb := by
      have hd := b.decoded
      rw [hkb, b'.decoded] at hd
      exact (Except.ok.inj hd).symm
    have hname : run.envelope.hashName = run'.envelope.hashName := by
      have hn := issAndHash_hashName (checkEnvelope_eq_ok.mp run.checkedEnvelope).1
      have hn' := issAndHash_hashName (checkEnvelope_eq_ok.mp run'.checkedEnvelope).1
      rw [halg, hn'] at hn
      exact (Json.str.inj hn).symm
    have hhasher : b.hasher = b'.hasher :=
      Option.some.inj (b.hash.symm.trans ((congrArg (hashes C) hname).trans b'.hash))
    have hdigest : b.hasher b.data = b.hasher b'.data := by
      have hsd := b.sdHash
      rw [hkb', b'.sdHash, ← hhasher] at hsd
      exact (Codec.b64urlEncode_injective (Json.str.inj hsd)).symm
    have hdata : b.data = b'.data := hcf _ _ _ _ b.hash b.ascii b'.ascii hdigest
    exact eq_of_presented_eq hs hs' (Codec.encodeAscii_inj b.ascii (hdata ▸ b'.ascii))

/-- The signing input of an issuer JWT bound to a holder's key, with one disclosable claim. -/
def boundSigningInput : Str :=
  List.flatMap lit
    ["eyJhbGciOiJFZERTQSIsInR5cCI6ImRjK3NkLWp3dCJ9.eyJpc3MiOiJpIiwidmN0IjoidiIsImNuZiI6eyJqd2si",
     "Onsia3R5IjoiT0tQIiwiY3J2IjoiRWQyNTUxOSIsIngiOiI2a3BzWS1LY1VncS05VkI3RXk3Ri1aVkhkcTYtdm51U1",
     "FoN3FhUlJHMGl3In19LCJfc2QiOlsiT0VubjZqVDJHbW95UTVCVVVUOE9QdFk5SjRqQ3lkSUlXMVdMVk1rcmZ4RSJd",
     "fQ"]

/-- The credential as it was issued, with its disclosure. -/
def boundCredential : Str :=
  boundSigningInput ++ List.flatMap lit
    [".c5pcAOIQYv9G7LNElAck0CnHJMlpFLon3ZYbk-YfL8iWuDiqy0WbWIIso-MD1lnhhba",
     "AQvXsH71neC73MzSfDQ"] ++ 126 :: annClaim

/-- The signing input of a KB-JWT for the audience `rp` and the nonce `n-1`. -/
def kbSigningInput : Str :=
  List.flatMap lit
    ["eyJ0eXAiOiJrYitqd3QiLCJhbGciOiJFZERTQSJ9.eyJpYXQiOjE4MDAwMDAwMDAsImF1ZCI6InJwIiwibm9uY2Ui",
     "OiJuLTEiLCJzZF9oYXNoIjoiQW9nYkVPR2o3U1NBNUVVdGNqZGYxM09zd3FtVVhMY0JrZnJoZTkzSkxoMCJ9"]

/-- That KB-JWT. -/
def kbJwt : Str :=
  kbSigningInput ++ List.flatMap lit
    [".4afj4-KYWuianUbicfBfU9itLiotAzeaKr0BJKLZtUBtyvn5p1xNYYaJ5kR1CshJukxOvH",
     "034zh7GQK0ZiQ3AQ"]

/-- The signatures of the issuer and of the holder. -/
def boundCrypto : Crypto :=
  Crypto.ofTexts
    [(0x03a107bff3ce10be1d70dd18e74bc09967e4d6309ba50d5f1ddc8664125531b8, boundSigningInput,
      (0x739a5c00e21062ff46ecb344940724d029c724c96914ba27dd961b93e61f2fc8,
       0x96b838aacb459b58822ca3e303d659e185b68042f5ec1fbd67782ef733349f0d)),
     (0xea4a6c63e29c520abef5507b132ec5f9954776aebebe7b92421eea691446d22c, kbSigningInput,
      (0xe1a7e3e3e2985ae89a9d46e271f05f53d8ad2e2a2d03379a2abd0124a2d9b540,
       0x6dcaf9f9a75c4d618689e644750ac849ba4c4ebc7d37e3387b1902b466243701))]

/-- A verifier that requires the binding. -/
def boundPolicy : Policy :=
  { audience := some (lit "rp"), nonce := some (lit "n-1"), requireKeyBinding := true }

/-- The credential presented with the KB-JWT, and again with an empty part before it. -/
theorem verify_binds_presentation_ann :
    ∃ r r' parts parts',
      verify (.atSecond 1800000001 []) boundCrypto defaultSuite
        (boundCredential ++ 126 :: kbJwt) annJwk boundPolicy true = .ok r ∧
      verify (.atSecond 1800000001 []) boundCrypto defaultSuite
        (boundCredential ++ 126 :: 126 :: kbJwt) annJwk boundPolicy true = .ok r' ∧
      split (boundCredential ++ 126 :: kbJwt) = .ok parts ∧
      split (boundCredential ++ 126 :: 126 :: kbJwt) = .ok parts' ∧ r.keyBound = true ∧
      parts.issuerJwt = parts'.issuerJwt ∧ parts.disclosures = parts'.disclosures := by
  obtain ⟨r, h, -⟩ := exists_ok_of_map
    (x := verify (.atSecond 1800000001 []) boundCrypto defaultSuite
      (boundCredential ++ 126 :: kbJwt) annJwk boundPolicy true)
    (f := fun r => r.keyBound) (c := true) (by
      unfold boundCredential kbJwt boundCrypto boundSigningInput kbSigningInput
      simp only [List.flatMap_cons, List.flatMap_nil]
      repeat rw [lit_ofList]
      decide +kernel)
  obtain ⟨r', h', hb'⟩ := exists_ok_of_map
    (x := verify (.atSecond 1800000001 []) boundCrypto defaultSuite
      (boundCredential ++ 126 :: 126 :: kbJwt) annJwk boundPolicy true)
    (f := fun r => r.keyBound) (c := true) (by
      unfold boundCredential kbJwt boundCrypto boundSigningInput kbSigningInput
      simp only [List.flatMap_cons, List.flatMap_nil]
      repeat rw [lit_ofList]
      decide +kernel)
  obtain ⟨run⟩ := verify_eq_ok.mp h
  obtain ⟨run'⟩ := verify_eq_ok.mp h'
  have hparts : run.parts = run'.parts := by
    have hs : (split (boundCredential ++ 126 :: kbJwt)).toOption.map
          (fun p => (p.issuerJwt, p.disclosures, p.kbJwt)) =
        (split (boundCredential ++ 126 :: 126 :: kbJwt)).toOption.map
          (fun p => (p.issuerJwt, p.disclosures, p.kbJwt)) := by
      unfold boundCredential kbJwt boundSigningInput kbSigningInput
      simp only [List.flatMap_cons, List.flatMap_nil]
      repeat rw [lit_ofList]
      decide +kernel
    rw [run.split, run'.split] at hs
    have hs' := Option.some.inj hs
    simp only [Prod.mk.injEq] at hs'
    cases hp : run.parts
    cases hp' : run'.parts
    simp_all
  obtain ⟨hj, -⟩ := openIssuerJwt_eq_ok run.signed
  have hj' : decodeJws run'.parts.issuerJwt = .ok run.jws := hparts ▸ hj
  have hcf : CollisionFree boundCrypto run.parts run'.parts := by
    intro name hasher data data' _ hd hd' _
    rw [hparts, hd'] at hd
    exact (Option.some.inj hd).symm
  have hb := ((verify_binds_presentation boundCrypto).1 (by decide) rfl rfl rfl h).1
  exact ⟨r, r', run.parts, run'.parts, h, h', run.split, run'.split, hb,
    (verify_binds_presentation boundCrypto).2 h h' hb hb' run.split run'.split hj hj'
      (congrArg Parts.kbJwt hparts) rfl hcf⟩

end SdJwt

end OpenVC
