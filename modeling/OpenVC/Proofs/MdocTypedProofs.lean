import OpenVC.Mdoc
import OpenVC.Proof.Proofs.VerifyCommonProofs
import OpenVC.Proofs.CoseTypedProofs
import OpenVC.Proofs.MdocProofs

/-!
# Typed failure of mdoc verification

`verify_device_response` documents that it raises `MdocError` only. A document's check leaves that
family exactly where a signature or a key that does not fit its algorithm reaches `verify_signature`
(`InvalidKey` is no `CoseError`), or where the signer's certificate raises an exception of its own.
-/

namespace OpenVC.Mdoc

open Python Cbor Cose

/-! ## The stages that are typed -/

theorem typed_parseResponse (data : Bytes) : Typed .mdocError (parseResponse data) := by
  refine ((typed_reraise rfl).mpr ((typed_decode data).mono fun e he => .inl he)).bind fun v _ => ?_
  refine (typed_orRaise rfl).bind fun m _ => ?_
  refine (typed_orRaise rfl).bind fun status _ => ?_
  refine (typed_raiseIf rfl).bind fun _ _ => ?_
  exact typed_orRaise rfl

theorem typed_decodeMso (payload : Bytes) : Typed .mdocError (decodeMso payload) := by
  refine ((typed_reraise rfl).mpr ((typed_decode payload).mono fun e he => .inl he)).bind
    fun v _ => ?_
  refine (typed_orRaise rfl).bind fun value _ => ?_
  refine (typed_orRaise rfl).bind fun value _ => ?_
  refine ((typed_reraise rfl).mpr ((typed_decode value).mono fun e he => .inl he)).bind
    fun mso _ => ?_
  exact typed_orRaise rfl

theorem typed_verifyItem (hasher : Bytes → Bytes) (space : Str) (nsDigests : List (CborKey × Cbor))
    (item : Cbor) : Typed .mdocError (verifyItem hasher space nsDigests item) := by
  refine (typed_orRaise rfl).bind fun (value, received) _ => ?_
  refine ((typed_reraise rfl).mpr ((typed_decode value).mono fun e he => .inl he)).bind
    fun v _ => ?_
  refine (typed_orRaise rfl).bind fun issuerItem _ => ?_
  refine (typed_orRaise rfl).bind fun digestId _ => ?_
  refine (typed_orRaise rfl).bind fun expected _ => ?_
  refine (typed_raiseIf rfl).bind fun _ _ => ?_
  exact (typed_orRaise rfl).bind fun _ _ => raisesOnly_ok

theorem typed_verifyItems (hasher : Bytes → Bytes) (space : Str)
    (nsDigests : List (CborKey × Cbor)) (claims : Named Cbor) (items : List Cbor) :
    Typed .mdocError (verifyItems hasher space nsDigests claims items) := by
  induction items generalizing claims with
  | nil => exact raisesOnly_ok
  | cons item items ih =>
    exact (typed_verifyItem hasher space nsDigests item).bind fun (elementId, value) _ => ih _

theorem typed_verifySpace (hasher : Bytes → Bytes) (valueDigests : List (CborKey × Cbor))
    (entry : CborKey × Cbor) : Typed .mdocError (verifySpace hasher valueDigests entry) := by
  refine (typed_orRaise rfl).bind fun space _ => ?_
  refine (typed_orRaise rfl).bind fun items _ => ?_
  refine (typed_orRaise rfl).bind fun nsDigests _ => ?_
  exact (typed_verifyItems hasher space nsDigests [] items).bind fun _ _ => raisesOnly_ok

theorem typed_verifySpaces (hasher : Bytes → Bytes) (valueDigests : List (CborKey × Cbor))
    (disclosed : Named (Named Cbor)) (entries : List (CborKey × Cbor)) :
    Typed .mdocError (verifySpaces hasher valueDigests disclosed entries) := by
  induction entries generalizing disclosed with
  | nil => exact raisesOnly_ok
  | cons entry entries ih =>
    exact (typed_verifySpace hasher valueDigests entry).bind fun (space, claims) _ => ih _

theorem typed_verifyValueDigests (issuerSigned mso : List (CborKey × Cbor))
    (hasher : Bytes → Bytes) :
    Typed .mdocError (verifyValueDigests issuerSigned mso hasher) := by
  refine (typed_orRaise rfl).bind fun valueDigests _ => ?_
  split
  · exact raisesOnly_ok
  · exact typed_verifySpaces _ _ _ _
  · exact typed_raise rfl

variable {E : Env}

theorem typed_parseRfc3339 (value : Cbor) : Typed .mdocError (parseRfc3339 E value) := by
  refine (typed_orRaise rfl).bind fun text _ => ?_
  exact (typed_orRaise rfl).bind fun _ _ => raisesOnly_ok

theorem typed_parseFullDate (value : Cbor) : Typed .mdocError (parseFullDate E value) := by
  refine (typed_orRaise rfl).bind fun text _ => ?_
  exact (typed_orRaise rfl).bind fun _ _ => raisesOnly_ok

theorem typed_parseDate (value : Cbor) : Typed .mdocError (parseDate E value) := by
  unfold parseDate
  split
  · exact raisesOnly_ok
  · split
    · exact raisesOnly_map.mpr (typed_parseRfc3339 _)
    · split
      · exact raisesOnly_map.mpr (typed_parseFullDate _)
      · exact typed_raise rfl
  · exact raisesOnly_map.mpr (typed_parseRfc3339 _)
  · exact typed_raise rfl

theorem typed_checkValidity (mso : List (CborKey × Cbor)) (instant leeway : Int) :
    Typed .mdocError (checkValidity E mso instant leeway) := by
  refine (typed_orRaise rfl).bind fun info _ => ?_
  refine (typed_parseDate _).bind fun signed _ => ?_
  refine (typed_parseDate _).bind fun validFrom _ => ?_
  refine (typed_parseDate _).bind fun validUntil _ => ?_
  refine (typed_orRaise rfl).bind fun signed _ => ?_
  refine (typed_orRaise rfl).bind fun validFrom _ => ?_
  refine (typed_orRaise rfl).bind fun validUntil _ => ?_
  refine (typed_raiseIf rfl).bind fun _ _ => ?_
  exact (typed_raiseIf rfl).bind fun _ _ => raisesOnly_ok

theorem typed_utcWindow (now : Option DateTime) (leewayS : Int) :
    Typed .mdocError (utcWindow E now leewayS) := by
  refine (typed_utcInstant rfl _).bind fun instant _ => ?_
  exact (typed_leewaySeconds rfl leewayS _).bind fun _ _ => raisesOnly_ok

theorem typed_parseIssuerAuth (obj : Cbor) : Typed .coseError (parseIssuerAuth obj) := by
  refine (typed_parse sign1 obj).bind fun issuerAuth _ => ?_
  exact (typed_x5chainDers issuerAuth).bind fun _ _ => raisesOnly_ok

/-! ## The signer's certificate -/

variable {X : SignerX509}

theorem typed_loadDer (der : Bytes) : Typed .x5cError (X5c.loadDer X der) := by
  unfold X5c.loadDer
  split
  · exact raisesOnly_ok
  · exact typed_raise rfl

theorem typed_loadDerChain (ders : List Bytes) : Typed .x5cError (X5c.loadDerChain X ders) := by
  unfold X5c.loadDerChain
  split
  · exact typed_raise rfl
  · refine (typed_loadDer _).bind fun leaf _ => ?_
    exact (RaisesOnly.collect fun der _ => typed_loadDer der).bind fun _ _ => raisesOnly_ok

theorem typed_validateCertChain {I : Interpreter} (chain : X5c.Chain X.toX509)
    (anchors : List X.Certificate) (now : Option DateTime) :
    Typed .x5cError (X5c.validateCertChain X.toX509 I chain anchors now) := by
  refine (typed_raiseIf rfl).bind fun _ _ => ?_
  refine (typed_utcInstant rfl _).bind fun instant _ => ?_
  split
  · exact raisesOnly_ok
  · exact typed_raise rfl

theorem typed_checkMdocSignedWithinDsValidity (ders : List Bytes) (signed : DateTime) :
    Typed .x5cError (X5c.checkMdocSignedWithinDsValidity X ders signed) := by
  refine (typed_loadDerChain ders).bind fun chain _ => ?_
  exact typed_raiseIf rfl

/-- The certificate raises an exception of its own where its usage or its key is read. -/
inductive Raises (X : SignerX509) (leaf : X.Certificate) (e : Err) : Prop
  | usage (h : X.extendedKeyUsage leaf = .error e)
  | key (husage : X5c.requireMdocDsEku X leaf = .ok ()) (h : X.publicKey leaf = .unloadable e)

theorem raisesOnly_requireMdocDsEku_iff {P : Err → Prop}
    (hP : ∀ e : Err, e.cls.isa .x5cError = true → P e) (leaf : X.Certificate) :
    RaisesOnly P (X5c.requireMdocDsEku X leaf) ↔ ∀ e, X.extendedKeyUsage leaf = .error e → P e := by
  constructor
  · intro h
    exact (raisesOnly_bind.mp h).1
  · intro h
    refine RaisesOnly.bind h fun eku _ => ?_
    refine (RaisesOnly.orRaise (hP _ rfl)).bind fun eku _ => ?_
    exact RaisesOnly.raiseIf (hP _ rfl)

theorem raisesOnly_leafPublicJwk_iff {P : Err → Prop}
    (hP : ∀ e : Err, e.cls.isa .x5cError = true → P e) (leaf : X.Certificate) :
    RaisesOnly P (X5c.leafPublicJwk X leaf) ↔ ∀ e, X.publicKey leaf = .unloadable e → P e := by
  unfold X5c.leafPublicJwk
  cases X.publicKey leaf with
  | ec curve x y => simp
  | ed25519 raw => simp
  | other => exact iff_of_true (raisesOnly_raise.mpr (hP _ rfl)) nofun
  | unloadable e => simp

/-- The key of a chain's leaf is resolved up to `X5cError` and what the certificate raises. -/
theorem raisesOnly_resolveMdocSignerKey_iff {P : Err → Prop} {I : Interpreter} {ders : List Bytes}
    {anchors : List X.Certificate} {now : Option DateTime}
    (hP : ∀ e : Err, e.cls.isa .x5cError = true → P e) :
    RaisesOnly P (X5c.resolveMdocSignerKey X I ders anchors now) ↔
      ∀ chain, X5c.loadDerChain X ders = .ok chain →
        X5c.validateCertChain X.toX509 I chain anchors now = .ok () →
          ∀ e, Raises X chain.1 e → P e := by
  constructor
  · intro h chain hchain hvalid e he
    have hrest := (raisesOnly_bind.mp h).2 chain hchain
    have hrest := (raisesOnly_bind.mp hrest).2 () hvalid
    obtain ⟨husage, hrest⟩ := raisesOnly_bind.mp hrest
    cases he with
    | usage h => exact (raisesOnly_requireMdocDsEku_iff hP _).mp husage e h
    | key hok h => exact (raisesOnly_leafPublicJwk_iff hP _).mp (hrest () hok) e h
  · intro h
    refine ((typed_loadDerChain ders).mono hP).bind fun chain hchain => ?_
    refine ((typed_validateCertChain chain anchors now).mono hP).bind fun _ hvalid => ?_
    have hraises := h chain hchain hvalid
    refine RaisesOnly.bind ?_ fun _ hok => ?_
    · exact (raisesOnly_requireMdocDsEku_iff hP _).mpr fun e he => hraises e (.usage he)
    · exact (raisesOnly_leafPublicJwk_iff hP _).mpr fun e he => hraises e (.key hok he)

/-! ## The issuer's side of a document -/

/-- What a document presents of its issuer: the `IssuerAuth`, its certificates, and the instant at
which they are judged. -/
def Presents (E : Env) (call : Call E) (document : Cbor) (issuerAuth : Structure)
    (chain : List Bytes) (instant : Int) : Prop :=
  ∃ entries docType issuerSigned leeway, document = .map entries ∧
    field entries "docType" = .text docType ∧ docType ≠ [] ∧
    call.expectedDocType.any (docType != ·) = false ∧
    field entries "issuerSigned" = .map issuerSigned ∧
    parseIssuerAuth (field issuerSigned "issuerAuth") = .ok (issuerAuth, chain) ∧
    utcWindow E call.now call.leewayS = .ok (instant, leeway)

/-- How the issuer's side of a document leaves the family. -/
inductive IssuerEscape (E : Env) (call : Call E) (document : Cbor) : Prop
  | certificate (issuerAuth : Structure) (ders : List Bytes) (instant : Int)
      (chain : X5c.Chain E.x509.toX509) (e : Err)
      (hread : Presents E call document issuerAuth ders instant)
      (hchain : X5c.loadDerChain E.x509 ders = .ok chain)
      (hvalid : X5c.validateCertChain E.x509.toX509 E.interpreter chain call.trustAnchors
        (some (atInstant instant)) = .ok ())
      (he : Raises E.x509 chain.1 e)
      (huncaught : ¬ (e.cls.isa .x5cError = true ∨ e.cls.isa .mdocError = true))
  | signature (issuerAuth : Structure) (ders : List Bytes) (instant : Int) (key : Dict)
      (payload : Bytes) (hread : Presents E call document issuerAuth ders instant)
      (hkey : X5c.resolveMdocSignerKey E.x509 E.interpreter ders call.trustAnchors
        (some (atInstant instant)) = .ok key)
      (hpayload : issuerAuth.payload = some payload)
      (huncheckable : ¬ Checkable E.crypto issuerAuth key none)

/-- The clauses `except CoseError` of the verifier. -/
theorem catches : Catches fun e => e.cls.isa .coseError = true ∨ e.cls.isa .mdocError = true where
  coseError _ he := .inl he
  invalidKey e he := by
    rw [IsInvalidKey] at he
    rw [he]
    decide
  refused e he := by
    rcases he with he | he <;> rw [he] <;> decide

theorem nonEmptyText_eq_some {v : Cbor} {s : Str} :
    v.text?.filter (!·.isEmpty) = some s ↔ v = .text s ∧ s ≠ [] := by
  rw [Option.filter_eq_some_iff, text?_eq_some]
  simp

/-- What the stages after the reading of a document have to be for its check to be typed. -/
theorem stages_of_typed {call : Call E} {document : Cbor} {issuerAuth : Structure}
    {ders : List Bytes} {instant : Int}
    (h : Typed .mdocError (verifyIssuerParts E call document))
    (hread : Presents E call document issuerAuth ders instant) :
    RaisesOnly (fun e => e.cls.isa .x5cError = true ∨ e.cls.isa .mdocError = true)
        (X5c.resolveMdocSignerKey E.x509 E.interpreter ders call.trustAnchors
          (some (atInstant instant))) ∧
      ∀ key payload, X5c.resolveMdocSignerKey E.x509 E.interpreter ders call.trustAnchors
          (some (atInstant instant)) = .ok key → issuerAuth.payload = some payload →
        RaisesOnly (fun e => e.cls.isa .coseError = true ∨ e.cls.isa .mdocError = true)
          (verifySign1 E.crypto issuerAuth key none []) := by
  obtain ⟨entries, docType, issuerSigned, leeway, rfl, hdoc, hne, hexpected, hsigned, hauth,
    hwindow⟩ := hread
  have h := (raisesOnly_bind.mp h).2 entries (orRaise_eq_ok.mpr rfl)
  have h := (raisesOnly_bind.mp h).2 docType
    (orRaise_eq_ok.mpr (nonEmptyText_eq_some.mpr ⟨hdoc, hne⟩))
  have h := (raisesOnly_bind.mp h).2 () (raiseIf_eq_ok.mpr hexpected)
  have h := (raisesOnly_bind.mp h).2 issuerSigned (orRaise_eq_ok.mpr (map?_eq_some.mpr hsigned))
  have h := (raisesOnly_bind.mp h).2 (issuerAuth, ders) (reraise_eq_ok.mpr hauth)
  have h := (raisesOnly_bind.mp h).2 (instant, leeway) hwindow
  obtain ⟨hkey, h⟩ := raisesOnly_bind.mp h
  refine ⟨(typed_reraise rfl).mp hkey, fun key payload hkey hpayload => ?_⟩
  have h := (raisesOnly_bind.mp (h key (reraise_eq_ok.mpr hkey))).2 payload
    (orRaise_eq_ok.mpr hpayload)
  exact (typed_reraise rfl).mp (raisesOnly_bind.mp h).1

theorem typed_verifyIssuerParts_iff {call : Call E} {document : Cbor} :
    Typed .mdocError (verifyIssuerParts E call document) ↔ ¬ IssuerEscape E call document := by
  constructor
  · rintro h (⟨issuerAuth, ders, instant, chain, e, hread, hchain, hvalid, he, huncaught⟩ |
      ⟨issuerAuth, ders, instant, key, payload, hread, hkey, hpayload, huncheckable⟩)
    · have hkey := (stages_of_typed h hread).1
      have hcaught := (raisesOnly_resolveMdocSignerKey_iff fun e he => .inl he).mp hkey
      exact huncaught (hcaught chain hchain hvalid e he)
    · have hverify := (stages_of_typed h hread).2 key payload hkey hpayload
      exact huncheckable ((raisesOnly_verifySign1_iff catches).mp hverify)
  · intro h
    refine (typed_orRaise rfl).bind fun entries hentries => ?_
    refine (typed_orRaise rfl).bind fun docType hdoc => ?_
    refine (typed_raiseIf rfl).bind fun _ hexpected => ?_
    refine (typed_orRaise rfl).bind fun issuerSigned hsigned => ?_
    refine ((typed_reraise rfl).mpr ((typed_parseIssuerAuth _).mono fun e he => .inl he)).bind
      fun (issuerAuth, ders) hauth => ?_
    refine (typed_utcWindow _ _).bind fun (instant, leeway) hwindow => ?_
    obtain ⟨hdoc, hne⟩ := nonEmptyText_eq_some.mp (orRaise_eq_ok.mp hdoc)
    have hread : Presents E call document issuerAuth ders instant :=
      ⟨entries, docType, issuerSigned, leeway, map?_eq_some.mp (orRaise_eq_ok.mp hentries), hdoc,
        hne, raiseIf_eq_ok.mp hexpected, map?_eq_some.mp (orRaise_eq_ok.mp hsigned),
        reraise_eq_ok.mp hauth, hwindow⟩
    refine ((typed_reraise rfl).mpr ?_).bind fun key hkey => ?_
    · refine (raisesOnly_resolveMdocSignerKey_iff fun e he => .inl he).mpr ?_
      intro chain hchain hvalid e he
      by_contra huncaught
      exact h (.certificate issuerAuth ders instant chain e hread hchain hvalid he huncaught)
    refine (typed_orRaise rfl).bind fun payload hpayload => ?_
    refine ((typed_reraise rfl).mpr ?_).bind fun ok _ => ?_
    · refine (raisesOnly_verifySign1_iff catches).mpr ?_
      by_contra huncheckable
      exact h (.signature issuerAuth ders instant key payload hread (reraise_eq_ok.mp hkey)
        (orRaise_eq_ok.mp hpayload) huncheckable)
    -- what follows the signature raises `MdocError` only
    refine (typed_raiseIf rfl).bind fun _ _ => ?_
    refine (typed_decodeMso payload).bind fun mso _ => ?_
    refine (typed_raiseIf rfl).bind fun _ _ => ?_
    refine (typed_orRaise rfl).bind fun hasher _ => ?_
    refine (typed_checkValidity mso instant leeway).bind fun validity _ => ?_
    refine ((typed_reraise rfl).mpr
      ((typed_checkMdocSignedWithinDsValidity _ _).mono fun e he => .inl he)).bind fun _ _ => ?_
    exact (typed_verifyValueDigests issuerSigned mso hasher).bind fun _ _ => raisesOnly_ok

/-! ## The device's side of a document -/

/-- What a document presents of its device: the `DeviceAuth`, the key it is checked under and the
encoded `DeviceAuthentication`, where that has an encoding. -/
def PresentsDevice (entries : List (CborKey × Cbor)) (parts : IssuerParts)
    (sessionTranscript : Bytes) (deviceAuth : List (CborKey × Cbor)) (key : Dict)
    (detached : Bytes) : Prop :=
  ∃ deviceSigned deviceNs deviceInfo, field entries "deviceSigned" = .map deviceSigned ∧
    deviceNameSpacesRaw (field deviceSigned "nameSpaces") = some deviceNs ∧
    field deviceSigned "deviceAuth" = .map deviceAuth ∧
    deviceAuthenticationBytes sessionTranscript parts.docType deviceNs = .ok detached ∧
    field parts.mso "deviceKeyInfo" = .map deviceInfo ∧
    coseKeyToJwk (field deviceInfo "deviceKey") = .ok key

/-- How the device's side of a document leaves the family. -/
inductive DeviceEscape (E : Env) (entries : List (CborKey × Cbor)) (parts : IssuerParts)
    (sessionTranscript : Bytes) (deviceMacKey : Option Bytes) : Prop
  | authentication (deviceSigned deviceAuth : List (CborKey × Cbor)) (deviceNs : Bytes) (e : Err)
      (hsigned : field entries "deviceSigned" = .map deviceSigned)
      (hns : deviceNameSpacesRaw (field deviceSigned "nameSpaces") = some deviceNs)
      (hauth : field deviceSigned "deviceAuth" = .map deviceAuth)
      (hlong : deviceAuthenticationBytes sessionTranscript parts.docType deviceNs = .error e)
  | signature (deviceAuth : List (CborKey × Cbor)) (key : Dict) (detached : Bytes)
      (sign1 : Structure)
      (hread : PresentsDevice entries parts sessionTranscript deviceAuth key detached)
      (hpresent : field deviceAuth "deviceSignature" ≠ .null)
      (hparse : parseSign1 (field deviceAuth "deviceSignature") = .ok sign1)
      (huncheckable : ¬ Checkable E.crypto sign1 key (some detached))
  | mac (deviceAuth : List (CborKey × Cbor)) (key : Dict) (detached macKey : Bytes)
      (mac0 : Structure)
      (hread : PresentsDevice entries parts sessionTranscript deviceAuth key detached)
      (habsent : field deviceAuth "deviceSignature" = .null)
      (hparse : parseMac0 (field deviceAuth "deviceMac") = .ok mac0)
      (hkey : deviceMacKey = some macKey) (huncheckable : ¬ CheckableMac mac0 (some detached))

theorem refused_deviceAuthenticationBytes (sessionTranscript : Bytes) (docType : Str)
    (deviceNs : Bytes) :
    RaisesOnly Refused (deviceAuthenticationBytes sessionTranscript docType deviceNs) := by
  refine RaisesOnly.bind ?_ fun authentication _ => ?_
  · refine refused_encodeArr fun v hv => ?_
    simp only [List.mem_cons, List.not_mem_nil, or_false] at hv
    rcases hv with rfl | rfl | rfl | rfl
    · exact refused_encodeText _
    · exact refused_encodeRaw _
    · exact refused_encodeText _
    · exact refused_encodeRaw _
  · rw [encode]
    refine (refused_head _ _).bind fun _ _ => ?_
    exact (refused_encodeBytes _).bind fun _ _ => raisesOnly_ok

theorem typed_verifyDeviceSignature_iff {C : Crypto} {signature : Cbor} {key : Dict}
    {detached : Bytes} : Typed .mdocError (verifyDeviceSignature C signature key detached) ↔
      ∀ s, parseSign1 signature = .ok s → Checkable C s key (some detached) := by
  constructor
  · intro h s hs
    have h := (typed_reraise rfl).mp (raisesOnly_bind.mp h).1
    exact (raisesOnly_verifySign1_iff catches).mp ((raisesOnly_bind.mp h).2 s hs)
  · intro h
    refine ((typed_reraise rfl).mpr ?_).bind fun _ _ => typed_raiseIf rfl
    refine ((typed_parse sign1 signature).mono fun e he => .inl he).bind fun s hs => ?_
    exact (raisesOnly_verifySign1_iff catches).mpr (h s hs)

theorem typed_verifyDeviceMac_iff {C : Crypto} {mac : Cbor} {deviceMacKey : Option Bytes}
    {detached : Bytes} : Typed .mdocError (verifyDeviceMac C mac deviceMacKey detached) ↔
      ∀ s macKey, parseMac0 mac = .ok s → deviceMacKey = some macKey →
        CheckableMac s (some detached) := by
  constructor
  · intro h s macKey hs hkey
    have h := (raisesOnly_bind.mp h).2 macKey (orRaise_eq_ok.mpr hkey)
    have h := (typed_reraise rfl).mp (raisesOnly_bind.mp h).1
    exact (raisesOnly_verifyMac0_iff catches).mp ((raisesOnly_bind.mp h).2 s hs)
  · intro h
    refine (typed_orRaise rfl).bind fun macKey hkey => ?_
    refine ((typed_reraise rfl).mpr ?_).bind fun _ _ => typed_raiseIf rfl
    refine ((typed_parse mac0 mac).mono fun e he => .inl he).bind fun s hs => ?_
    exact (raisesOnly_verifyMac0_iff catches).mpr (h s macKey hs (orRaise_eq_ok.mp hkey))

theorem typed_verifyDeviceBinding_iff {C : Crypto} {deviceAuth : List (CborKey × Cbor)} {key : Dict}
    {deviceMacKey : Option Bytes} {detached : Bytes} :
    Typed .mdocError (verifyDeviceBinding C deviceAuth key deviceMacKey detached) ↔
      (field deviceAuth "deviceSignature" ≠ .null →
        ∀ s, parseSign1 (field deviceAuth "deviceSignature") = .ok s →
          Checkable C s key (some detached)) ∧
      (field deviceAuth "deviceSignature" = .null →
        ∀ s macKey, parseMac0 (field deviceAuth "deviceMac") = .ok s →
          deviceMacKey = some macKey → CheckableMac s (some detached)) := by
  unfold verifyDeviceBinding
  split
  · rename_i hsignature hmac
    rw [hsignature, hmac]
    refine iff_of_true (typed_raise rfl) ⟨fun h => absurd rfl h, fun _ s macKey hs => ?_⟩
    cases hs
  · rename_i hsignature _
    rw [hsignature, typed_verifyDeviceMac_iff]
    exact ⟨fun h => ⟨fun hne => absurd rfl hne, fun _ => h⟩, fun h => h.2 rfl⟩
  · rename_i hsignature _
    rw [typed_verifyDeviceSignature_iff]
    exact ⟨fun h => ⟨fun _ => h, fun heq => absurd heq hsignature⟩, fun h => h.1 hsignature⟩

/-- What the binding has to be for the check of the device's side to be typed. -/
theorem bound_of_typed {entries : List (CborKey × Cbor)} {parts : IssuerParts}
    {sessionTranscript : Bytes} {deviceMacKey : Option Bytes} {deviceAuth : List (CborKey × Cbor)}
    {key : Dict} {detached : Bytes}
    (h : Typed .mdocError (verifyDeviceAuth E entries parts sessionTranscript deviceMacKey))
    (hread : PresentsDevice entries parts sessionTranscript deviceAuth key detached) :
    (field deviceAuth "deviceSignature" ≠ .null →
      ∀ s, parseSign1 (field deviceAuth "deviceSignature") = .ok s →
        Checkable E.crypto s key (some detached)) ∧
    (field deviceAuth "deviceSignature" = .null →
      ∀ s macKey, parseMac0 (field deviceAuth "deviceMac") = .ok s →
        deviceMacKey = some macKey → CheckableMac s (some detached)) := by
  obtain ⟨deviceSigned, deviceNs, deviceInfo, hsigned, hns, hauth, hdetached, hinfo, hkey⟩ := hread
  have h := (raisesOnly_bind.mp h).2 deviceSigned (orRaise_eq_ok.mpr (map?_eq_some.mpr hsigned))
  have h := (raisesOnly_bind.mp h).2 deviceNs (orRaise_eq_ok.mpr hns)
  have h := (raisesOnly_bind.mp h).2 deviceAuth (orRaise_eq_ok.mpr (map?_eq_some.mpr hauth))
  have h := (raisesOnly_bind.mp h).2 detached hdetached
  have h := (raisesOnly_bind.mp h).2 deviceInfo (orRaise_eq_ok.mpr (map?_eq_some.mpr hinfo))
  have h := (raisesOnly_bind.mp h).2 key (reraise_eq_ok.mpr hkey)
  exact typed_verifyDeviceBinding_iff.mp h

theorem typed_verifyDeviceAuth_iff {entries : List (CborKey × Cbor)} {parts : IssuerParts}
    {sessionTranscript : Bytes} {deviceMacKey : Option Bytes} :
    Typed .mdocError (verifyDeviceAuth E entries parts sessionTranscript deviceMacKey) ↔
      ¬ DeviceEscape E entries parts sessionTranscript deviceMacKey := by
  constructor
  · rintro h (⟨deviceSigned, deviceAuth, deviceNs, e, hsigned, hns, hauth, hlong⟩ |
      ⟨deviceAuth, key, detached, s, hread, hpresent, hparse, huncheckable⟩ |
      ⟨deviceAuth, key, detached, macKey, s, hread, habsent, hparse, hkey, huncheckable⟩)
    · have h := (raisesOnly_bind.mp h).2 deviceSigned (orRaise_eq_ok.mpr (map?_eq_some.mpr hsigned))
      have h := (raisesOnly_bind.mp h).2 deviceNs (orRaise_eq_ok.mpr hns)
      have h := (raisesOnly_bind.mp h).2 deviceAuth (orRaise_eq_ok.mpr (map?_eq_some.mpr hauth))
      have hcaught := (raisesOnly_bind.mp h).1 e hlong
      exact catches.refused e (refused_deviceAuthenticationBytes _ _ _ e hlong) (.inr hcaught)
    · exact huncheckable ((bound_of_typed h hread).1 hpresent s hparse)
    · exact huncheckable ((bound_of_typed h hread).2 habsent s macKey hparse hkey)
  · intro h
    refine (typed_orRaise rfl).bind fun deviceSigned hsigned => ?_
    refine (typed_orRaise rfl).bind fun deviceNs hns => ?_
    refine (typed_orRaise rfl).bind fun deviceAuth hauth => ?_
    refine RaisesOnly.bind ?_ fun detached hdetached => ?_
    · intro e he
      exact absurd (.authentication deviceSigned deviceAuth deviceNs e
        (map?_eq_some.mp (orRaise_eq_ok.mp hsigned)) (orRaise_eq_ok.mp hns)
        (map?_eq_some.mp (orRaise_eq_ok.mp hauth)) he) h
    refine (typed_orRaise rfl).bind fun deviceInfo hinfo => ?_
    refine ((typed_reraise rfl).mpr ((typed_coseKeyToJwk _).mono fun e he => .inl he)).bind
      fun key hkey => ?_
    have hread : PresentsDevice entries parts sessionTranscript deviceAuth key detached :=
      ⟨deviceSigned, deviceNs, deviceInfo, map?_eq_some.mp (orRaise_eq_ok.mp hsigned),
        orRaise_eq_ok.mp hns, map?_eq_some.mp (orRaise_eq_ok.mp hauth), hdetached,
        map?_eq_some.mp (orRaise_eq_ok.mp hinfo), reraise_eq_ok.mp hkey⟩
    refine typed_verifyDeviceBinding_iff.mpr ⟨fun hpresent s hparse => ?_,
      fun habsent s macKey hparse hkey => ?_⟩
    · by_contra huncheckable
      exact h (.signature deviceAuth key detached s hread hpresent hparse huncheckable)
    · by_contra huncheckable
      exact h (.mac deviceAuth key detached macKey s hread habsent hparse hkey huncheckable)

/-! ## A response -/

/-- How a document that is reached leaves the family: on the issuer's side, or, under a valid seal, on
the device's. -/
inductive Escapes (E : Env) (call : Call E) (sessionTranscript : Bytes)
    (deviceMacKey : Option Bytes) (document : Cbor) : Prop
  | issuer (h : IssuerEscape E call document)
  | device (entries : List (CborKey × Cbor)) (parts : IssuerParts) (hmap : document = .map entries)
      (hparts : verifyIssuerParts E call document = .ok parts)
      (h : DeviceEscape E entries parts sessionTranscript deviceMacKey)

theorem typed_verifyDocument_iff {call : Call E} {sessionTranscript : Bytes}
    {deviceMacKey : Option Bytes} {document : Cbor} :
    Typed .mdocError (verifyDocument E call sessionTranscript deviceMacKey document) ↔
      ¬ Escapes E call sessionTranscript deviceMacKey document := by
  constructor
  · rintro h (⟨hescape⟩ | ⟨entries, parts, rfl, hparts, hescape⟩)
    · exact typed_verifyIssuerParts_iff.mp (raisesOnly_bind.mp h).1 hescape
    · have h := (raisesOnly_bind.mp h).2 parts hparts
      exact typed_verifyDeviceAuth_iff.mp (raisesOnly_bind.mp h).1 hescape
  · intro h
    refine RaisesOnly.bind ?_ fun parts hparts => ?_
    · exact typed_verifyIssuerParts_iff.mpr fun hescape => h (.issuer hescape)
    · obtain ⟨entries, hentries, -⟩ := bind_eq_ok.mp hparts
      obtain rfl := map?_eq_some.mp (orRaise_eq_ok.mp hentries)
      refine RaisesOnly.bind ?_ fun _ _ => raisesOnly_ok
      exact typed_verifyDeviceAuth_iff.mpr fun hescape => h (.device entries parts rfl hparts hescape)

theorem leewaySeconds_of_utcWindow {now : Option DateTime} {leewayS : Int} {window : Int × Int}
    (h : utcWindow E now leewayS = .ok window) :
    ∃ n, leewaySeconds leewayS "leeway_s" .mdocError = .ok n := by
  simp only [utcWindow, bind_eq_ok] at h
  obtain ⟨_, -, leeway, hleeway, -⟩ := h
  exact ⟨leeway, hleeway⟩

/-- A document that is reached is judged with a valid leeway. -/
theorem leewaySeconds_of_escapes {call : Call E} {sessionTranscript : Bytes}
    {deviceMacKey : Option Bytes} {document : Cbor}
    (h : Escapes E call sessionTranscript deviceMacKey document) :
    ∃ n, leewaySeconds call.leewayS "leeway_s" .mdocError = .ok n := by
  rcases h with ⟨⟨_, _, _, _, _, hread, _, _, _, _⟩ | ⟨_, _, _, _, _, hread, _, _, _⟩⟩ |
    ⟨entries, parts, rfl, hparts, -⟩
  · obtain ⟨_, _, _, _, _, _, _, _, _, _, hwindow⟩ := hread
    exact leewaySeconds_of_utcWindow hwindow
  · obtain ⟨_, _, _, _, _, _, _, _, _, _, hwindow⟩ := hread
    exact leewaySeconds_of_utcWindow hwindow
  · simp only [verifyIssuerParts, bind_eq_ok] at hparts
    obtain ⟨_, -, _, -, _, -, _, -, _, -, _, hwindow, -⟩ := hparts
    exact leewaySeconds_of_utcWindow hwindow

/-- `verify_device_response` returns or raises an `MdocError` exactly where no document that it
reaches leaves the family. -/
theorem verifyDeviceResponse_typed_iff (E : Env) (call : Call E) (deviceResponse : Bytes)
    (sessionTranscript : Bytes) (deviceMacKey : Option Bytes) :
    Typed .mdocError
        (verifyDeviceResponse E call deviceResponse sessionTranscript deviceMacKey) ↔
      ∀ documents before document after, parseResponse deviceResponse = .ok documents →
        documents = before ++ document :: after →
        (∀ d ∈ before, ∃ m, verifyDocument E call sessionTranscript deviceMacKey d = .ok m) →
          ¬ Escapes E call sessionTranscript deviceMacKey document := by
  constructor
  · intro h documents before document after hparse hsplit hbefore hescape
    obtain ⟨leeway, hleeway⟩ := leewaySeconds_of_escapes hescape
    have h := (raisesOnly_bind.mp h).2 leeway hleeway
    have h := (raisesOnly_bind.mp h).2 documents hparse
    have hdocument := raisesOnly_collect.mp h before document after hsplit hbefore
    exact typed_verifyDocument_iff.mp hdocument hescape
  · intro h
    refine (typed_leewaySeconds rfl _ _).bind fun leeway _ => ?_
    refine (typed_parseResponse _).bind fun documents hparse => ?_
    refine raisesOnly_collect.mpr fun before document after hsplit hbefore => ?_
    exact typed_verifyDocument_iff.mpr (h documents before document after hparse hsplit hbefore)

/-- A response with one document, whose `IssuerAuth` has a signature of one byte. -/
def responseShort : Bytes :=
  ofWords
    [0xA2667374617475730069646F63756D656E747381A267646F6354797065636D44,
     0x4C6C6973737565725369676E6564A16A697373756572417574688443A10126A1]
    5 0x1821590127 ++ signerDer ++ [0x40, 0x41, 0x00]

/-- It raises `InvalidKey`. -/
theorem verifyDeviceResponse_short : ¬ Typed .mdocError
    (verifyDeviceResponse signerEnv signerCall responseShort sessionTranscript none) := by
  refine not_typed_of_raised (c := .invalidKey) ?_ rfl
  decide +kernel

end OpenVC.Mdoc
