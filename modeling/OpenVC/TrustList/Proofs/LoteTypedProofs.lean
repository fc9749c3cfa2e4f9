import OpenVC.Proofs.CoseTypedProofs
import OpenVC.Proofs.MdocTypedProofs
import OpenVC.TrustList.Lote

/-!
# What the consumption of a list raises

`consume_lote` raises `TrustListError` only, unless the signing certificate of the list raises an
exception of its own, or the profile's window leaves the years of a C `int`.
-/

namespace OpenVC.Lote

open Python TrustList

/-! ## The strict parse -/

section Parse

theorem typed_requireMapping (value : Json) (ctx : Str) :
    Typed .trustListError (requireMapping value ctx) := typed_orRaise rfl

theorem typed_requireList (value : Json) (ctx : Str) :
    Typed .trustListError (requireList value ctx) := typed_orRaise rfl

theorem typed_requireStr (value : Json) (ctx : Str) :
    Typed .trustListError (requireStr value ctx) := typed_orRaise rfl

theorem typed_requireInt (value : Json) (ctx : Str) :
    Typed .trustListError (requireInt value ctx) := typed_orRaise rfl

theorem typed_requireItems (value : Json) (ctx : Str) :
    Typed .trustListError (requireItems value ctx) := by
  refine (typed_requireList value ctx).bind fun items _ => ?_
  exact (typed_raiseIf rfl).bind fun _ _ => raisesOnly_pure

theorem typed_checkKeys (obj : Dict) (allowed required : List Str) (ctx : Str) :
    Typed .trustListError (checkKeys obj allowed required ctx) :=
  (typed_raiseIf rfl).bind fun _ _ => typed_raiseIf rfl

theorem typed_optional {α : Type} {read : Json → Result α} (obj : Dict) (key : Str)
    (h : ∀ value, Typed .trustListError (read value)) :
    Typed .trustListError (optional obj key read) := by
  unfold optional
  split
  · exact raisesOnly_ok
  · exact (h _).bind fun _ _ => raisesOnly_pure

theorem typed_mlEntry (textKey ctx : Str) (item : Json × Nat) :
    Typed .trustListError (mlEntry textKey ctx item) := by
  refine (typed_requireMapping _ _).bind fun entry _ => ?_
  refine (typed_checkKeys _ _ _ _).bind fun _ _ => ?_
  refine (typed_requireStr _ _).bind fun lang _ => ?_
  exact (typed_requireStr _ _).bind fun _ _ => raisesOnly_pure

theorem typed_mlEntries (textKey : Str) (value : Json) (ctx : Str) :
    Typed .trustListError (mlEntries textKey value ctx) := by
  refine (typed_requireItems value ctx).bind fun items _ => ?_
  exact RaisesOnly.collect fun item _ => typed_mlEntry textKey ctx item

theorem typed_mlStrings (I : Interpreter) (value : Json) (ctx : Str) :
    Typed .trustListError (mlStrings I value ctx) :=
  (typed_mlEntries "value" value ctx).bind fun _ _ => raisesOnly_pure

theorem typed_mlUris (value : Json) (ctx : Str) : Typed .trustListError (mlUris value ctx) :=
  (typed_mlEntries "uriValue" value ctx).bind fun _ _ => raisesOnly_pure

theorem typed_rejectCriticalExtensions (value : Json) (ctx : Str) :
    Typed .trustListError (rejectCriticalExtensions value ctx) := by
  refine (typed_requireItems value ctx).bind fun items _ => ?_
  exact RaisesOnly.each fun item _ => typed_raiseIf rfl

variable {E : Env}

theorem typed_datetimeZ (value : Json) (ctx : Str) :
    Typed .trustListError (datetimeZ E value ctx) := by
  refine (typed_requireStr value ctx).bind fun text _ => ?_
  exact (typed_raiseIf rfl).bind fun _ _ => typed_orRaise rfl

theorem typed_readCertificate (ctx : Str) (item : Json × Nat) :
    Typed .trustListError (readCertificate E ctx item) := by
  refine (typed_requireMapping _ _).bind fun ob _ => ?_
  refine (typed_checkKeys _ _ _ _).bind fun _ _ => ?_
  exact (typed_requireStr _ _).bind fun _ _ => raisesOnly_pure

theorem typed_readCertificates (ctx : Str) (value : Json) :
    Typed .trustListError (readCertificates E ctx value) := by
  refine (typed_requireItems value ctx).bind fun entries _ => ?_
  refine RaisesOnly.bind ?_ fun _ _ => raisesOnly_pure
  exact RaisesOnly.collect fun item _ => typed_readCertificate ctx item

theorem typed_certsFromSdi (value : Json) (ctx : Str) :
    Typed .trustListError (certsFromSdi E value ctx) := by
  refine (typed_requireMapping value ctx).bind fun sdi _ => ?_
  refine (typed_checkKeys _ _ _ _).bind fun _ _ => ?_
  exact (typed_optional sdi _ (typed_readCertificates _)).bind fun _ _ => raisesOnly_pure

theorem typed_firstOf {current : Option Str} {read : Result (Option Str)}
    (h : Typed .trustListError read) : Typed .trustListError (firstOf current read) := by
  unfold firstOf
  split
  · exact raisesOnly_ok
  · exact h

theorem typed_readQualifier (ctx : Str) (st : Qualifiers) (i : Nat) (q : Json) :
    Typed .trustListError (readQualifier ctx st i q) := by
  refine (typed_requireMapping _ _).bind fun qual _ => ?_
  refine (typed_checkKeys _ _ _ _).bind fun _ _ => ?_
  have htext : ∀ key : Str, Typed .trustListError
      (optional qual key fun value => requireStr value (memberCtx (entryCtx ctx i) key)) :=
    fun key => typed_optional qual key fun value => typed_requireStr value _
  refine (typed_firstOf (htext _)).bind fun loteType _ => ?_
  refine (typed_firstOf (htext _)).bind fun mimeType _ => ?_
  exact (typed_firstOf (htext _)).bind fun _ _ => raisesOnly_pure

theorem typed_parsePointer (value : Json) (ctx : Str) :
    Typed .trustListError (parsePointer E value ctx) := by
  refine (typed_requireMapping value ctx).bind fun ptr _ => ?_
  refine (typed_checkKeys _ _ _ _).bind fun _ _ => ?_
  refine (typed_requireStr _ _).bind fun location _ => ?_
  refine (typed_requireItems _ _).bind fun sdis _ => ?_
  refine (RaisesOnly.collect fun sdi _ => typed_certsFromSdi _ _).bind fun certs _ => ?_
  refine (typed_requireItems _ _).bind fun qualifiers _ => ?_
  refine RaisesOnly.bind ?_ fun _ _ => raisesOnly_pure
  exact RaisesOnly.enumerateLoop (fun st i q _ => typed_readQualifier _ st i q) _ _

theorem typed_parseService (teName territory : Option Str) (value : Json) (ctx : Str) :
    Typed .trustListError (parseService E teName territory value ctx) := by
  refine (typed_requireMapping value ctx).bind fun svc _ => ?_
  refine (typed_checkKeys _ _ _ _).bind fun _ _ => ?_
  refine (typed_requireMapping _ _).bind fun info _ => ?_
  refine (typed_checkKeys _ _ _ _).bind fun _ _ => ?_
  refine (typed_mlStrings _ _ _).bind fun names _ => ?_
  refine (typed_optional info _ fun v => typed_requireStr v _).bind fun serviceType _ => ?_
  refine (typed_optional info _ fun v => typed_requireStr v _).bind fun serviceStatus _ => ?_
  refine (typed_optional info _ fun v => typed_datetimeZ v _).bind fun _ _ => ?_
  refine (typed_optional info _ fun v => typed_rejectCriticalExtensions v _).bind fun _ _ => ?_
  exact (typed_certsFromSdi _ _).bind fun _ _ => raisesOnly_pure

theorem typed_parseEntity (territory : Option Str) (value : Json) (ctx : Str) :
    Typed .trustListError (parseEntity E territory value ctx) := by
  refine (typed_requireMapping value ctx).bind fun entity _ => ?_
  refine (typed_checkKeys _ _ _ _).bind fun _ _ => ?_
  refine (typed_requireMapping _ _).bind fun info _ => ?_
  refine (typed_checkKeys _ _ _ _).bind fun _ _ => ?_
  refine (typed_mlStrings _ _ _).bind fun names _ => ?_
  refine (typed_requireMapping _ _).bind fun _ _ => ?_
  refine (typed_mlUris _ _).bind fun _ _ => ?_
  refine (typed_optional info _ fun v => typed_rejectCriticalExtensions v _).bind fun _ _ => ?_
  refine (typed_requireItems _ _).bind fun rawServices _ => ?_
  refine RaisesOnly.bind ?_ fun _ _ => raisesOnly_pure
  exact RaisesOnly.collect fun s _ => typed_parseService _ _ _ _

theorem typed_checkDistributionPoints (value : Json) :
    Typed .trustListError (checkDistributionPoints value) := by
  refine (typed_requireItems _ _).bind fun points _ => ?_
  exact RaisesOnly.each fun p _ => raisesOnly_map.mpr (typed_requireStr _ _)

theorem typed_checkScheme (scheme : Dict) : Typed .trustListError (checkScheme E scheme) := by
  refine (typed_optional scheme _ fun v => typed_requireInt v _).bind fun _ _ => ?_
  refine (typed_optional scheme _ fun v => typed_requireStr v _).bind fun _ _ => ?_
  refine (typed_optional scheme _ fun v => typed_mlUris v _).bind fun _ _ => ?_
  refine (typed_optional scheme _ fun v => typed_mlStrings _ v _).bind fun _ _ => ?_
  refine (typed_optional scheme _ fun v => typed_mlUris v _).bind fun _ _ => ?_
  refine (typed_optional scheme _ fun v => typed_requireMapping v _).bind fun _ _ => ?_
  refine (typed_optional scheme _ fun v => typed_requireList v _).bind fun _ _ => ?_
  refine (typed_optional scheme _ typed_checkDistributionPoints).bind fun _ _ => ?_
  refine (typed_optional scheme _ fun v => typed_rejectCriticalExtensions v _).bind fun _ _ => ?_
  exact raisesOnly_pure

theorem typed_readNextUpdate (value : Json) : Typed .trustListError (readNextUpdate E value) := by
  unfold readNextUpdate
  split
  · exact raisesOnly_ok
  · exact (typed_datetimeZ value _).bind fun _ _ => raisesOnly_pure

theorem typed_readPointers (value : Json) : Typed .trustListError (readPointers E value) := by
  refine (typed_requireItems value _).bind fun rawPtrs _ => ?_
  exact RaisesOnly.collect fun p _ => typed_parsePointer _ _

theorem typed_readEntities (territory : Option Str) (value : Json) :
    Typed .trustListError (readEntities E territory value) := by
  refine (typed_requireItems value _).bind fun entities _ => ?_
  exact RaisesOnly.collect fun e _ => typed_parseEntity _ _ _

/-- The strict parse raises `TrustListError` only. -/
theorem typed_parseLoteObject (decoded : Json) :
    Typed .trustListError (parseLoteObject E decoded) := by
  refine (typed_requireMapping decoded _).bind fun root _ => ?_
  refine (typed_checkKeys _ _ _ _).bind fun _ _ => ?_
  refine (typed_requireMapping _ _).bind fun lote _ => ?_
  refine (typed_checkKeys _ _ _ _).bind fun _ _ => ?_
  refine (typed_requireMapping _ _).bind fun scheme _ => ?_
  refine (typed_checkKeys _ _ _ _).bind fun _ _ => ?_
  refine (typed_requireInt _ _).bind fun version _ => ?_
  refine (typed_requireInt _ _).bind fun sequence _ => ?_
  refine (typed_mlStrings _ _ _).bind fun operatorNames _ => ?_
  refine (typed_optional scheme _ fun v => typed_requireStr v _).bind fun loteType _ => ?_
  refine (typed_optional scheme _ fun v => typed_requireStr v _).bind fun territory _ => ?_
  refine (typed_checkScheme scheme).bind fun _ _ => ?_
  refine (typed_datetimeZ _ _).bind fun issue _ => ?_
  refine (typed_readNextUpdate _).bind fun nextUpdate _ => ?_
  refine (typed_optional scheme _ typed_readPointers).bind fun pointers _ => ?_
  exact (typed_optional lote _ (typed_readEntities territory)).bind fun _ _ => raisesOnly_pure

end Parse

/-! ## The envelope -/

section Envelope

theorem valueError_loadsBytes (data : Bytes) :
    RaisesOnly (fun e => e.cls = .valueError) (loadsBytes data) := by
  refine RaisesOnly.bind (RaisesOnly.orRaise rfl) fun value _ => ?_
  exact RaisesOnly.bind (RaisesOnly.raiseIf rfl) fun _ _ => raisesOnly_pure

theorem valueError_loadSegment (segment : Str) :
    RaisesOnly (fun e => e.cls = .valueError) (loadSegment segment) :=
  RaisesOnly.bind (RaisesOnly.orRaise rfl) fun data _ => valueError_loadsBytes data

theorem valueError_decodeSegments (jws : Str) :
    RaisesOnly (fun e => e.cls = .valueError) (SdJwt.decodeSegments jws) := by
  refine RaisesOnly.bind (RaisesOnly.orRaise rfl) fun segments _ => ?_
  refine (valueError_loadSegment _).bind fun header _ => ?_
  refine (valueError_loadSegment _).bind fun payload _ => ?_
  exact RaisesOnly.bind (RaisesOnly.orRaise rfl) fun signature _ => raisesOnly_pure

/-- The text that `base64` decoded is ASCII. -/
theorem isAscii_of_loadSegment {segment : Str} {v : Json}
    (h : loadSegment segment = .ok v) : segment.isAscii = true := by
  unfold loadSegment at h
  obtain ⟨bytes, hbytes, -⟩ := bind_eq_ok.mp h
  have hdecoded := orRaise_eq_ok.mp hbytes
  unfold Codec.b64urlDecodePadded Codec.urlsafeB64Decode at hdecoded
  split at hdecoded
  · rename_i hascii
    rw [Str.isAscii, List.all_append, Bool.and_eq_true] at hascii
    exact hascii.1
  · cases hdecoded

theorem isAscii_of_decodeSegments {jws : Str} {segments : Segments} {header payload : Json}
    {signature : Bytes} (h : SdJwt.decodeSegments jws = .ok (segments, header, payload, signature)) :
    Str.isAscii (segments.header ++ 46 :: segments.payload) = true := by
  unfold SdJwt.decodeSegments at h
  obtain ⟨segments', -, h⟩ := bind_eq_ok.mp h
  obtain ⟨header', hheader, h⟩ := bind_eq_ok.mp h
  obtain ⟨payload', hpayload, h⟩ := bind_eq_ok.mp h
  obtain ⟨signature', -, h⟩ := bind_eq_ok.mp h
  cases h
  have hh := isAscii_of_loadSegment hheader
  have hp := isAscii_of_loadSegment hpayload
  rw [Str.isAscii] at hh hp ⊢
  rw [List.all_append, List.all_cons, hh, hp]
  rfl

/-- The reader of a compact JWS raises `ProofError` only: what `base64` decoded has an ASCII text. -/
theorem typed_parseCompact (token : Str) : Typed .proofError (Pipeline.parseCompact token) := by
  refine RaisesOnly.bind ?_ fun (segments, header, payload, signature) hsegments => ?_
  · refine (typed_recast rfl).mpr ?_
    refine (valueError_decodeSegments token).mono fun e he => .inl ?_
    rw [he]
    rfl
  · have hascii := isAscii_of_decodeSegments (recast_eq_ok.mp hsegments)
    refine (typed_orRaise rfl).bind fun header _ => ?_
    refine (typed_orRaise rfl).bind fun payload _ => ?_
    refine RaisesOnly.bind ?_ fun _ _ => raisesOnly_pure
    rw [Codec.encodeAscii, if_pos hascii]
    exact raisesOnly_ok

theorem typed_readToken (token : Token) (maxBytes : Int) :
    Typed .trustListError (readToken token maxBytes) := by
  have htext : Typed .trustListError token.text := by
    cases token with
    | str s => exact raisesOnly_ok
    | bytes b => exact (typed_raiseIf rfl).bind fun _ _ => raisesOnly_pure
  refine htext.bind fun text _ => ?_
  refine (typed_raiseIf rfl).bind fun _ _ => ?_
  exact (typed_reraise rfl).mpr ((typed_parseCompact text).mono fun e he => .inl he)

theorem typed_rejectUnknownCrit (header : Dict) :
    Typed .trustListError (rejectUnknownCrit header) := by
  unfold rejectUnknownCrit
  split
  · exact raisesOnly_ok
  · refine (typed_orRaise rfl).bind fun names _ => ?_
    exact (typed_raiseIf rfl).bind fun _ _ => typed_raiseIf rfl

end Envelope

/-! ## The signer -/

section Signer

variable {E : Env}

theorem typed_loadEntry (X : X509) (entry : Json) : Typed .x5cError (X5c.loadEntry X entry) := by
  refine (typed_orRaise rfl).bind fun text _ => ?_
  refine (typed_orRaise rfl).bind fun der _ => ?_
  split
  · exact raisesOnly_ok
  · exact typed_raise rfl

theorem typed_loadX5cChain (X : X509) (x5c : Json) : Typed .x5cError (X5c.loadX5cChain X x5c) := by
  unfold X5c.loadX5cChain
  split
  · refine (typed_loadEntry X _).bind fun leaf _ => ?_
    refine RaisesOnly.bind ?_ fun _ _ => raisesOnly_pure
    exact RaisesOnly.collect fun entry _ => typed_loadEntry X entry
  · exact typed_raise rfl

theorem typed_signerChain (header : Dict) : Typed .trustListError (signerChain E header) := by
  refine (typed_raiseIf rfl).bind fun _ _ => ?_
  exact (typed_reraise rfl).mpr ((typed_loadX5cChain _ _).mono fun e he => .inl he)

theorem typed_authenticateSigner (chain : X5c.Chain E.x509.toX509) (expected : List (Cert E))
    (now : Option DateTime) : Typed .trustListError (authenticateSigner E chain expected now) := by
  refine (typed_raiseIf rfl).bind fun _ _ => ?_
  split
  · refine (typed_utcInstant rfl _).bind fun instant _ => ?_
    exact typed_raiseIf rfl
  · exact (typed_reraise rfl).mpr ((Mdoc.typed_validateCertChain chain expected now).mono fun e he => .inl he)

/-- The certificate raises nothing where its key and its subject are read. -/
structure Readable (E : Env) (leaf : Cert E) : Prop where
  key : ∀ e, E.x509.publicKey leaf ≠ .unloadable e
  organization : ∀ e, E.organizationNames leaf ≠ .error e
  country : ∀ e, E.countryNames leaf ≠ .error e

theorem typed_checkLoteSignature {leaf : Cert E} (hleaf : Readable E leaf) (alg : Str)
    (jws : SdJwt.Jws) : Typed .trustListError (checkLoteSignature E alg leaf jws) := by
  refine RaisesOnly.bind ((typed_reraise rfl).mpr ?_) fun jwk _ => ?_
  · have hkey : Typed .x5cError (X5c.leafPublicJwk E.x509 leaf) :=
      (Mdoc.raisesOnly_leafPublicJwk_iff (fun _ he => he) leaf).mpr
        fun e he => absurd he (hleaf.key e)
    exact hkey.mono fun e he => .inl he
  · refine RaisesOnly.bind ((typed_reraise rfl).mpr ?_) fun ok _ => typed_raiseIf rfl
    refine invalidKey_verifySignature.mono fun e he => .inl ?_
    have hcls : e.cls = .invalidKey := he
    rw [hcls]
    rfl

theorem typed_checkSignerDn {leaf : Cert E} (hleaf : Readable E leaf) (scheme : Dict)
    (territory : Option Str) : Typed .trustListError (checkSignerDn E leaf scheme territory) := by
  refine (typed_mlStrings _ _ _).bind fun names _ => ?_
  refine RaisesOnly.bind (fun e he => absurd he (hleaf.organization e)) fun orgs _ => ?_
  refine (typed_raiseIf rfl).bind fun _ _ => ?_
  split
  · exact raisesOnly_ok
  · refine RaisesOnly.bind (fun e he => absurd he (hleaf.country e)) fun countries _ => ?_
    exact typed_raiseIf rfl

end Signer

/-! ## The profile -/

section Profile

variable {E : Env}

/-- The months of a profile lead from any year of a `datetime` to one that fits a C `int`. -/
def WindowFits (profile : LoteProfile) : Prop :=
  -25769803788 ≤ profile.maxUpdateMonths ∧ profile.maxUpdateMonths ≤ 25769683776

theorem valueError_plusMonths {profile : LoteProfile} (hfits : WindowFits profile)
    (dt : UtcDateTime) :
    RaisesOnly (fun e => e.cls.isa .valueError = true) (plusMonths dt profile.maxUpdateMonths) := by
  obtain ⟨hlo, hhi⟩ := hfits
  unfold plusMonths replaceDate
  dsimp only
  split
  · rename_i hyear
    obtain ⟨⟨hy1, hy2⟩, ⟨hm1, hm2⟩, -⟩ := UtcDateTime.validFields_iff.mp dt.valid
    omega
  · split
    · exact typed_raise rfl
    · exact typed_orRaise rfl

theorem typed_checkNextUpdate {profile : LoteProfile} (hfits : WindowFits profile)
    (issue : UtcDateTime) (next : Option DateTime) :
    Typed .trustListError (checkNextUpdate profile issue next) := by
  unfold checkNextUpdate
  split
  · exact raisesOnly_ok
  · refine RaisesOnly.bind ((typed_recast rfl).mpr ?_) fun ceiling _ => typed_raiseIf rfl
    exact (valueError_plusMonths hfits issue).mono fun e he => .inl he

theorem typed_schemeRulesOf (scheme : Dict) : Typed .trustListError (schemeRulesOf scheme) :=
  (typed_optional scheme _ fun v => typed_mlUris v _).bind fun _ _ => raisesOnly_pure

theorem typed_checkProfileScheme {Cert : Type} (list : TrustedList Cert) (scheme : Dict)
    (profile : LoteProfile) : Typed .trustListError (checkProfileScheme list scheme profile) := by
  refine (typed_raiseIf rfl).bind fun _ _ => ?_
  refine (typed_raiseIf rfl).bind fun _ _ => ?_
  refine (typed_raiseIf rfl).bind fun _ _ => ?_
  refine (typed_schemeRulesOf scheme).bind fun rules _ => ?_
  refine (typed_raiseIf rfl).bind fun _ _ => ?_
  exact (typed_raiseIf rfl).bind fun _ _ => typed_raiseIf rfl

theorem typed_checkProfile {profile : LoteProfile} (hfits : WindowFits profile)
    (list : TrustedList (Cert E)) (loteObj : Dict) :
    Typed .trustListError (checkProfile E list loteObj profile) := by
  refine (typed_checkProfileScheme list _ profile).bind fun _ _ => ?_
  refine (typed_orRaise rfl).bind fun issue _ => ?_
  refine (typed_checkNextUpdate hfits issue _).bind fun _ _ => ?_
  refine RaisesOnly.bind ?_ fun _ _ => ?_
  · exact RaisesOnly.each fun provider _ => RaisesOnly.each fun svc _ => typed_raiseIf rfl
  · refine RaisesOnly.each fun info _ => ?_
    exact (typed_raiseIf rfl).bind fun _ _ => typed_raiseIf rfl

theorem typed_checkProfileIfGiven {profile : Option LoteProfile}
    (hfits : ∀ p, profile = some p → WindowFits p) (list : TrustedList (Cert E)) (loteObj : Dict) :
    Typed .trustListError (checkProfileIfGiven E list loteObj profile) := by
  unfold checkProfileIfGiven
  split
  · exact raisesOnly_ok
  · exact typed_checkProfile (hfits _ rfl) list loteObj

end Profile

/-- The consumption of a token raises `TrustListError` only, when the certificate that it is
authenticated under can be read and the profile's window stays in the range of the years. -/
theorem typed_consumeLote {E : Env} {call : Call E} {token : Token}
    (hfits : ∀ p, call.profile = some p → WindowFits p)
    (hleaf : ∀ jws chain, readToken token call.maxBytes = .ok jws →
      signerChain E jws.header = .ok chain →
      authenticateSigner E chain call.expectedSignerCerts call.now = .ok () →
      Readable E chain.1) :
    Typed .trustListError (consumeLote E call token) := by
  refine (typed_readToken token _).bind fun jws hjws => ?_
  refine (typed_orRaise rfl).bind fun alg _ => ?_
  refine (typed_rejectUnknownCrit _).bind fun _ _ => ?_
  refine (typed_signerChain _).bind fun chain hchain => ?_
  refine (typed_authenticateSigner chain _ _).bind fun _ hsigner => ?_
  have hreadable := hleaf jws chain hjws hchain hsigner
  refine (typed_checkLoteSignature hreadable alg jws).bind fun _ _ => ?_
  refine (typed_parseLoteObject _).bind fun list _ => ?_
  refine (typed_checkSignerDn hreadable _ _).bind fun _ _ => ?_
  refine (typed_checkProfileIfGiven hfits list _).bind fun _ _ => ?_
  exact raisesOnly_pure

end OpenVC.Lote
