import OpenVC.Cose
import OpenVC.Proofs.CborProofs
import OpenVC.Proofs.ErrorsProofs
import OpenVC.Proofs.KeysProofs

/-!
# What the CBOR, COSE and signature layers raise

The decoder raises `CborError` only, the readers of COSE structures `CoseError` only, and
`verify_signature` `InvalidKey` only: exactly where the signature or the key does not fit the
algorithm.
-/

namespace OpenVC

open Python

namespace Cbor

variable {item : Bytes → Result (Cbor × Bytes)}

theorem typed_readHead (data : Bytes) : Typed .cborError (readHead data) := by
  unfold readHead
  split
  · exact typed_raise rfl
  · split
    · exact raisesOnly_ok
    · refine (typed_raiseIf rfl).bind fun _ _ => ?_
      refine (typed_orRaise rfl).bind fun nbytes _ => ?_
      exact (typed_raiseIf rfl).bind fun _ _ => raisesOnly_ok

theorem typed_readBytes (n : Nat) (data : Bytes) (what : String) :
    Typed .cborError (readBytes n data what) :=
  (typed_raiseIf rfl).bind fun _ _ => raisesOnly_ok

theorem typed_readText (n : Nat) (data : Bytes) : Typed .cborError (readText n data) := by
  refine (typed_readBytes _ _ _).bind fun (b, data) _ => ?_
  exact (typed_orRaise rfl).bind fun _ _ => raisesOnly_ok

theorem typed_simple (info : Nat) : Typed .cborError (simple info) := by
  unfold simple
  split
  · exact raisesOnly_ok
  · split
    · exact raisesOnly_ok
    · split
      · exact raisesOnly_ok
      · exact typed_raise rfl

theorem typed_readItems (h : ∀ data, Typed .cborError (item data)) (n : Nat) (data : Bytes) :
    Typed .cborError (readItems item n data) := by
  induction n generalizing data with
  | zero => exact raisesOnly_ok
  | succ n ih =>
    refine (h data).bind fun (v, data) _ => ?_
    exact (ih data).bind fun _ _ => raisesOnly_ok

theorem typed_readEntries (h : ∀ data, Typed .cborError (item data)) (n : Nat)
    (entries : List (CborKey × Cbor)) (data : Bytes) :
    Typed .cborError (readEntries item n entries data) := by
  induction n generalizing entries data with
  | zero => exact raisesOnly_ok
  | succ n ih =>
    refine (h data).bind fun (key, data) _ => ?_
    refine (h data).bind fun (val, data) _ => ?_
    refine (typed_orRaise rfl).bind fun key _ => ?_
    exact (typed_raiseIf rfl).bind fun _ _ => ih _ _

theorem typed_decodeBody (h : ∀ data, Typed .cborError (item data)) (start : Bytes) (hd : Head) :
    Typed .cborError (decodeBody item start hd) := by
  unfold decodeBody
  split
  · exact raisesOnly_ok
  · exact raisesOnly_ok
  · exact (typed_readBytes _ _ _).bind fun _ _ => raisesOnly_ok
  · exact typed_readText _ _
  · exact (typed_readItems h _ _).bind fun _ _ => raisesOnly_ok
  · exact (typed_readEntries h _ _ _).bind fun _ _ => raisesOnly_ok
  · exact (h _).bind fun _ _ => raisesOnly_ok
  · exact (typed_simple _).bind fun _ _ => raisesOnly_ok

theorem typed_decodeAt (left : Nat) (data : Bytes) : Typed .cborError (decodeAt left data) := by
  induction left generalizing data with
  | zero => exact typed_raise rfl
  | succ left ih => exact (typed_readHead data).bind fun hd _ => typed_decodeBody ih data hd

/-- `decode` raises nothing but `CborError`. -/
theorem typed_decode (data : Bytes) : Typed .cborError (decode data) := by
  refine (typed_decodeAt _ data).bind fun (item, rest) _ => ?_
  exact (typed_raiseIf rfl).bind fun _ _ => raisesOnly_ok

/-! ## What the encoder raises -/

/-- A value the encoder refuses: it has no 64-bit length or no UTF-8. -/
def Refused (e : Err) : Prop := e.cls = .cborError ∨ e.cls = .valueError

theorem refused_head (major n : Nat) : RaisesOnly Refused (head major n) := by
  unfold head
  repeat' split
  all_goals first | exact raisesOnly_ok | exact raisesOnly_raise.mpr (.inl rfl)

theorem refused_encodeBytes (b : Bytes) : RaisesOnly Refused (encode (.bytes b)) := by
  rw [encode]
  exact (refused_head _ _).bind fun _ _ => raisesOnly_ok

theorem refused_encodeText (s : Str) : RaisesOnly Refused (encode (.text s)) := by
  rw [encode]
  refine (RaisesOnly.orRaise (P := Refused) (.inr rfl)).bind fun raw _ => ?_
  exact (refused_head _ _).bind fun _ _ => raisesOnly_ok

theorem refused_encodeRaw (b : Bytes) : RaisesOnly Refused (encode (.raw b)) := by
  rw [encode]
  exact raisesOnly_ok

theorem refused_encodeItems {l : List Cbor} (h : ∀ v ∈ l, RaisesOnly Refused (encode v)) :
    RaisesOnly Refused (encodeItems l) := by
  induction l with
  | nil =>
    rw [encodeItems]
    exact raisesOnly_ok
  | cons v l ih =>
    rw [List.forall_mem_cons] at h
    rw [encodeItems]
    refine h.1.bind fun b _ => ?_
    exact (ih h.2).bind fun _ _ => raisesOnly_ok

theorem refused_encodeArr {l : List Cbor} (h : ∀ v ∈ l, RaisesOnly Refused (encode v)) :
    RaisesOnly Refused (encode (.arr l)) := by
  rw [encode]
  refine (refused_head _ _).bind fun _ _ => ?_
  exact (refused_encodeItems h).bind fun _ _ => raisesOnly_ok

end Cbor

/-! ## Signatures -/

/-- The signature and the key members fit the algorithm. -/
inductive Fits (C : Crypto) (alg : Str) (jwk : Dict) (signature : Bytes) : Prop
  | ed25519 (raw : Bytes) (halg : alg ∈ ed25519AlgNames) (hx : jwkBytes jwk "x" = some raw)
      (hlen : raw.length = 32)
  | ecdsa (curve : Curve) (x y : Bytes) (halg : ecdsaCurve alg = some curve)
      (hlen : signature.length = 2 * curve.coordBytes) (hx : jwkBytes jwk "x" = some x)
      (hy : jwkBytes jwk "y" = some y)
      (hon : C.ecOnCurve curve (Codec.intFromBytes x) (Codec.intFromBytes y) = true)
  | mldsa (pub : Bytes) (halg : alg ∈ mldsaAlgs) (hinstalled : (C.mldsaKey alg []).isSome = true)
      (hpub : jwkBytes jwk "pub" = some pub) (hkey : C.mldsaKey alg pub = some true)

variable {C : Crypto} {alg : Str} {jwk : Dict} {input signature : Bytes}

/-- The exceptions of `verify_signature`. -/
def IsInvalidKey (e : Err) : Prop := e.cls = .invalidKey

theorem invalidKey_raiseIf {c : Bool} {e : Err} (h : e.cls = .invalidKey) :
    RaisesOnly IsInvalidKey (raiseIf c e) := RaisesOnly.raiseIf h

theorem invalidKey_orRaise {α : Type} {x : Option α} {e : Err} (h : e.cls = .invalidKey) :
    RaisesOnly IsInvalidKey (orRaise x e) := RaisesOnly.orRaise h

theorem invalidKey_verifyEcdsa {curve : Curve} {text : String} :
    RaisesOnly IsInvalidKey (verifyEcdsa C curve alg text jwk input signature) := by
  refine (invalidKey_raiseIf rfl).bind fun _ _ => ?_
  refine (invalidKey_orRaise rfl).bind fun x _ => ?_
  refine (invalidKey_orRaise rfl).bind fun y _ => ?_
  exact (invalidKey_raiseIf rfl).bind fun _ _ => raisesOnly_ok

theorem invalidKey_verifySignature :
    RaisesOnly IsInvalidKey (verifySignature C alg jwk input signature) := by
  unfold verifySignature
  split
  · refine (invalidKey_orRaise rfl).bind fun raw _ => ?_
    exact (invalidKey_raiseIf rfl).bind fun _ _ => raisesOnly_ok
  · split
    · exact invalidKey_verifyEcdsa
    · split
      · exact invalidKey_verifyEcdsa
      · split
        · refine (invalidKey_raiseIf rfl).bind fun _ _ => ?_
          refine (invalidKey_orRaise rfl).bind fun pub _ => ?_
          exact (invalidKey_raiseIf rfl).bind fun _ _ => raisesOnly_ok
        · exact raisesOnly_raise.mpr rfl

theorem verifyEcdsa_returns_iff {curve : Curve} {text : String} :
    (∃ ok, verifyEcdsa C curve alg text jwk input signature = .ok ok) ↔
      signature.length = 2 * curve.coordBytes ∧ ∃ x y, jwkBytes jwk "x" = some x ∧
        jwkBytes jwk "y" = some y ∧
        C.ecOnCurve curve (Codec.intFromBytes x) (Codec.intFromBytes y) = true := by
  simp only [verifyEcdsa, bind_eq_ok, raiseIf_eq_ok, orRaise_eq_ok, pure_eq_ok]
  constructor
  · rintro ⟨_, ⟨⟩, hlen, x, hx, y, hy, ⟨⟩, hon, -⟩
    exact ⟨by simpa using hlen, x, y, hx, hy, by simpa using hon⟩
  · rintro ⟨hlen, x, y, hx, hy, hon⟩
    exact ⟨_, (), by simpa using hlen, x, hx, y, hy, (), by simpa using hon, rfl⟩

/-- `verify_signature` comes to a verdict exactly where the signature and the key fit. -/
theorem verifySignature_returns_iff :
    (∃ ok, verifySignature C alg jwk input signature = .ok ok) ↔ Fits C alg jwk signature := by
  have hclassic : ∀ a ∈ mldsaAlgs, a ∉ ed25519AlgNames ∧ a ≠ lit "ES256" ∧ a ≠ lit "ES384" := by
    decide
  have hnist : ∀ a, a ∈ ed25519AlgNames → ecdsaCurve a = none := by decide
  unfold verifySignature
  split
  · rename_i halg
    simp only [bind_eq_ok, raiseIf_eq_ok, orRaise_eq_ok, pure_eq_ok]
    constructor
    · rintro ⟨_, raw, hx, ⟨⟩, hlen, -⟩
      exact .ed25519 raw halg hx (by simpa using hlen)
    · rintro (⟨raw, -, hx, hlen⟩ | ⟨curve, x, y, hcurve, -, -, -, -⟩ | ⟨pub, hml, -, -, -⟩)
      · exact ⟨_, raw, hx, (), by simpa using hlen, rfl⟩
      · rw [hnist alg halg] at hcurve
        cases hcurve
      · exact absurd halg (hclassic alg hml).1
  · rename_i hed
    split
    · rename_i halg
      rw [verifyEcdsa_returns_iff]
      constructor
      · rintro ⟨hlen, x, y, hx, hy, hon⟩
        exact .ecdsa .p256 x y (by rw [ecdsaCurve, if_pos halg]) hlen hx hy hon
      · rintro (⟨raw, hed', -, -⟩ | ⟨curve, x, y, hcurve, hlen, hx, hy, hon⟩ | ⟨pub, hml, -, -, -⟩)
        · exact absurd hed' hed
        · rw [ecdsaCurve, if_pos halg] at hcurve
          cases hcurve
          exact ⟨hlen, x, y, hx, hy, hon⟩
        · exact absurd halg (hclassic alg hml).2.1
    · rename_i hne
      split
      · rename_i halg
        rw [verifyEcdsa_returns_iff]
        constructor
        · rintro ⟨hlen, x, y, hx, hy, hon⟩
          exact .ecdsa .p384 x y (by rw [ecdsaCurve, if_neg hne, if_pos halg]) hlen hx hy hon
        · rintro (⟨raw, hed', -, -⟩ | ⟨curve, x, y, hcurve, hlen, hx, hy, hon⟩ | ⟨pub, hml, -, -, -⟩)
          · exact absurd hed' hed
          · rw [ecdsaCurve, if_neg hne, if_pos halg] at hcurve
            cases hcurve
            exact ⟨hlen, x, y, hx, hy, hon⟩
          · exact absurd halg (hclassic alg hml).2.2
      · rename_i hne'
        have hcurve : ecdsaCurve alg = none := by rw [ecdsaCurve, if_neg hne, if_neg hne']
        split
        · rename_i halg
          simp only [bind_eq_ok, raiseIf_eq_ok, orRaise_eq_ok, pure_eq_ok]
          constructor
          · rintro ⟨_, ⟨⟩, hinst, pub, hpub, ⟨⟩, hkey, -⟩
            refine .mldsa pub halg ?_ hpub (by simpa using hkey)
            simpa [Option.isSome_iff_ne_none] using hinst
          · rintro (⟨raw, hed', -, -⟩ | ⟨curve, x, y, hcurve', -, -, -, -⟩ |
              ⟨pub, -, hinst, hpub, hkey⟩)
            · exact absurd hed' hed
            · rw [hcurve] at hcurve'
              cases hcurve'
            · exact ⟨_, (), by simpa [Option.isSome_iff_ne_none] using hinst, pub, hpub, (),
                by simpa using hkey, rfl⟩
        · rename_i hml
          constructor
          · rintro ⟨_, h⟩
            cases h
          · rintro (⟨raw, hed', -, -⟩ | ⟨curve, x, y, hcurve', -, -, -, -⟩ | ⟨pub, hml', -, -, -⟩)
            · exact absurd hed' hed
            · rw [hcurve] at hcurve'
              cases hcurve'
            · exact absurd hml' hml

/-- Where `InvalidKey` is not caught, the key and the signature have to fit. -/
theorem raisesOnly_verifySignature_iff {P : Err → Prop} (hP : ∀ e, IsInvalidKey e → ¬ P e) :
    RaisesOnly P (verifySignature C alg jwk input signature) ↔ Fits C alg jwk signature := by
  rw [← verifySignature_returns_iff]
  constructor
  · intro h
    cases hv : verifySignature C alg jwk input signature with
    | ok verdict => exact ⟨verdict, rfl⟩
    | error e => exact absurd (h e hv) (hP e (invalidKey_verifySignature e hv))
  · rintro ⟨verdict, h⟩
    rw [h]
    exact raisesOnly_ok

/-! ## COSE structures -/

namespace Cose

open Cbor

theorem typed_unwrap (kind : Kind) (obj : Cbor) : Typed .coseError (unwrap kind obj) := by
  refine RaisesOnly.bind ?_ fun v _ => ?_
  · unfold untag
    split
    · split
      · exact raisesOnly_ok
      · exact typed_raise rfl
    · exact raisesOnly_ok
  · split
    · exact raisesOnly_ok
    · exact typed_raise rfl

theorem typed_checkCrit (kind : Kind) (crit : Cbor) : Typed .coseError (checkCrit kind crit) := by
  refine (typed_orRaise rfl).bind fun labels _ => ?_
  refine (typed_orRaise rfl).bind fun labels _ => ?_
  exact typed_raiseIf rfl

theorem typed_parseProtected (kind : Kind) (item : Cbor) :
    Typed .coseError (parseProtected kind item) := by
  refine (typed_orRaise rfl).bind fun encoded _ => ?_
  refine RaisesOnly.bind ?_ fun _ _ => raisesOnly_ok
  unfold protectedHeader
  split
  · exact raisesOnly_ok
  · refine ((typed_reraise rfl).mpr ?_).bind fun header _ => ?_
    · exact (typed_decode encoded).mono fun e he => .inl he
    · refine (typed_orRaise rfl).bind fun header _ => ?_
      refine RaisesOnly.bind ?_ fun _ _ => raisesOnly_ok
      unfold rejectUnhandledCrit
      split
      · exact raisesOnly_ok
      · exact typed_checkCrit _ _

/-- `parse_sign1` and `parse_mac0` raise nothing but `CoseError`. -/
theorem typed_parse (kind : Kind) (obj : Cbor) : Typed .coseError (parse kind obj) := by
  refine (typed_unwrap kind obj).bind fun (p, u, payload, a) _ => ?_
  refine (typed_parseProtected kind p).bind fun (encoded, header) _ => ?_
  refine (typed_orRaise rfl).bind fun unprotected _ => ?_
  refine RaisesOnly.bind ?_ fun payload _ => ?_
  · unfold parsePayload
    split
    · exact raisesOnly_ok
    · exact raisesOnly_ok
    · exact typed_raise rfl
  · exact (typed_orRaise rfl).bind fun _ _ => raisesOnly_ok

theorem typed_x5chainDers (s : Structure) : Typed .coseError (x5chainDers s) := by
  unfold x5chainDers
  split
  · exact typed_raise rfl
  · exact raisesOnly_ok
  · exact typed_orRaise rfl

theorem typed_coseKeyToJwk (key : Cbor) : Typed .coseError (coseKeyToJwk key) := by
  refine (typed_orRaise rfl).bind fun key _ => ?_
  split
  · refine (typed_orRaise rfl).bind fun (name, size) _ => ?_
    refine (typed_orRaise rfl).bind fun x _ => ?_
    refine (typed_orRaise rfl).bind fun y _ => ?_
    exact (typed_raiseIf rfl).bind fun _ _ => raisesOnly_ok
  · split
    · refine (typed_raiseIf rfl).bind fun _ _ => ?_
      exact (typed_orRaise rfl).bind fun x _ => raisesOnly_ok
    · exact typed_raise rfl

theorem typed_requireAlg (header : List (CborKey × Cbor)) : Typed .coseError (requireAlg header) :=
  typed_orRaise rfl

theorem typed_effectivePayload (kind : Kind) (attached detached : Option Bytes) :
    Typed .coseError (effectivePayload kind attached detached) := by
  unfold effectivePayload
  split
  · exact typed_raise rfl
  · exact raisesOnly_ok
  · exact raisesOnly_ok
  · exact typed_raise rfl

theorem refused_tbs (context : Str) (protectedRaw externalAad payload : Bytes) :
    RaisesOnly Refused (tbs context protectedRaw externalAad payload) := by
  refine refused_encodeArr fun v hv => ?_
  simp only [List.mem_cons, List.not_mem_nil, or_false] at hv
  rcases hv with rfl | rfl | rfl | rfl
  · exact refused_encodeText _
  · exact refused_encodeBytes _
  · exact refused_encodeBytes _
  · exact refused_encodeBytes _

/-- A caller's `except CoseError` with what the caller may raise itself: it lets `InvalidKey` and the
encoder's refusals through. -/
structure Catches (P : Err → Prop) : Prop where
  coseError : ∀ e : Err, e.cls.isa .coseError = true → P e
  invalidKey : ∀ e, IsInvalidKey e → ¬ P e
  refused : ∀ e, Refused e → ¬ P e

/-- What it takes for the check of a `COSE_Sign1` to come to a verdict or to a `CoseError`: the bytes
to be signed have an encoding, and the signature and the key fit the algorithm. -/
def Checkable (C : Crypto) (s : Structure) (jwk : Dict) (detached : Option Bytes) : Prop :=
  ∀ alg joseAlg payload, requireAlg s.protectedHeader = .ok alg → coseAlgToJose alg = some joseAlg →
    effectivePayload sign1 s.payload detached = .ok payload →
    (∃ input, tbs "Signature1" s.protectedRaw [] payload = .ok input) ∧
      Fits C joseAlg jwk s.authenticator

variable {P : Err → Prop} {s : Structure} {detached : Option Bytes}

theorem returns_of_refused {α : Type} {x : Result α} (hP : Catches P)
    (hx : RaisesOnly Refused x) : RaisesOnly P x ↔ ∃ a, x = .ok a := by
  constructor
  · intro h
    cases hv : x with
    | ok a => exact ⟨a, rfl⟩
    | error e => exact absurd (h e hv) (hP.refused e (hx e hv))
  · rintro ⟨a, rfl⟩
    exact raisesOnly_ok

/-- A `COSE_Sign1` is checked in the family of its caller exactly where it is checkable. -/
theorem raisesOnly_verifySign1_iff (hP : Catches P) :
    RaisesOnly P (verifySign1 C s jwk detached []) ↔ Checkable C s jwk detached := by
  constructor
  · intro h alg joseAlg payload halg hjose hpayload
    have hrest := (raisesOnly_bind.mp h).2 alg halg
    have hrest := (raisesOnly_bind.mp hrest).2 joseAlg (orRaise_eq_ok.mpr hjose)
    have hrest := (raisesOnly_bind.mp hrest).2 payload hpayload
    obtain ⟨hinput, hverify⟩ := raisesOnly_bind.mp hrest
    obtain ⟨input, hinput⟩ := (returns_of_refused hP (refused_tbs _ _ _ _)).mp hinput
    refine ⟨⟨input, hinput⟩, ?_⟩
    exact (raisesOnly_verifySignature_iff hP.invalidKey).mp (hverify input hinput)
  · intro h
    refine ((typed_requireAlg _).mono hP.coseError).bind fun alg halg => ?_
    refine RaisesOnly.bind ?_ fun joseAlg hjose => ?_
    · exact raisesOnly_orRaise.mpr fun _ => hP.coseError _ rfl
    · refine ((typed_effectivePayload _ _ _).mono hP.coseError).bind fun payload hpayload => ?_
      obtain ⟨⟨input, hinput⟩, hfits⟩ := h alg joseAlg payload halg (orRaise_eq_ok.mp hjose) hpayload
      refine ((returns_of_refused hP (refused_tbs _ _ _ _)).mpr ⟨input, hinput⟩).bind fun _ _ => ?_
      exact (raisesOnly_verifySignature_iff hP.invalidKey).mpr hfits

/-- The same of a `COSE_Mac0`, which no key can misfit. -/
def CheckableMac (s : Structure) (detached : Option Bytes) : Prop :=
  ∀ payload, requireAlg s.protectedHeader = .ok coseHmac256 →
    effectivePayload mac0 s.payload detached = .ok payload →
    ∃ input, tbs "MAC0" s.protectedRaw [] payload = .ok input

theorem raisesOnly_verifyMac0_iff {key : Bytes} (hP : Catches P) :
    RaisesOnly P (verifyMac0 C s key detached []) ↔ CheckableMac s detached := by
  constructor
  · intro h payload halg hpayload
    have hrest := (raisesOnly_bind.mp h).2 _ halg
    have hrest := (raisesOnly_bind.mp hrest).2 () (raiseIf_eq_ok.mpr (bne_self_eq_false _))
    have hrest := (raisesOnly_bind.mp hrest).2 payload hpayload
    exact (returns_of_refused hP (refused_tbs _ _ _ _)).mp (raisesOnly_bind.mp hrest).1
  · intro h
    refine ((typed_requireAlg _).mono hP.coseError).bind fun alg halg => ?_
    refine RaisesOnly.bind ?_ fun _ heq => ?_
    · exact raisesOnly_raiseIf.mpr fun _ => hP.coseError _ rfl
    · obtain rfl : alg = coseHmac256 := by simpa using raiseIf_eq_ok.mp heq
      refine ((typed_effectivePayload _ _ _).mono hP.coseError).bind fun payload hpayload => ?_
      obtain ⟨input, hinput⟩ := h payload halg hpayload
      refine ((returns_of_refused hP (refused_tbs _ _ _ _)).mpr ⟨input, hinput⟩).bind fun _ _ => ?_
      exact raisesOnly_ok

end Cose

end OpenVC
