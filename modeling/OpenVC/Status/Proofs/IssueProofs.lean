import OpenVC.Proof.Proofs.VcJwtProofs
import OpenVC.Python.Numeral
import OpenVC.Status.Issue
import OpenVC.Status.Proofs.PackedListProofs

/-!
# What is issued is what is checked

A pointer reads back as the index, the purpose and the URL it was built for, and the check of a list
that was built and published reads at each index what the issuer last wrote there.
-/

namespace OpenVC.Status.Issue

open Python Packed

variable {v index url purpose uri id : Json} {field s : Str} {i : Nat}
  {entry vc credential : Dict} {Z : Zlib} {D : Deflate}

/-! ## Arguments -/

theorem text_eq_ok : text v field = .ok s ↔ v = .str s ∧ s ≠ [] := by
  rw [text, orRaise_eq_ok, Option.filter_eq_some_iff, Json.str?_eq_some, Bool.not_eq_true',
    List.isEmpty_eq_false_iff]

theorem statusIndex_eq_ok (h : statusIndex v field false = .ok i) :
    v = .int i ∧ i < maxStatusIndex := by
  simp only [statusIndex, bind_eq_ok, raiseIf_eq_ok, pure_eq_ok, decide_eq_false_iff_not,
    not_le] at h
  obtain ⟨k, hk, ⟨⟩, hlt, rfl⟩ := h
  refine ⟨?_, hlt⟩
  cases v with
  | int n =>
    simp only [indexValue, indexOfInt, bind_eq_ok, raiseIf_eq_ok, pure_eq_ok,
      decide_eq_false_iff_not, not_lt] at hk
    obtain ⟨⟨⟩, hneg, rfl⟩ := hk
    rw [Int.toNat_of_nonneg hneg]
  | _ => cases hk

theorem statusIndex_int (h : i < maxStatusIndex) : statusIndex (.int i) field false = .ok i := by
  simp only [statusIndex, indexValue, indexOfInt, bind_eq_ok, raiseIf_eq_ok, pure_eq_ok,
    decide_eq_false_iff_not, not_le, not_lt]
  exact ⟨i, ⟨(), Int.natCast_nonneg i, Int.toNat_natCast i⟩, (), h, rfl⟩

theorem statusIndex_ofNat (h : i < maxStatusIndex) :
    statusIndex (.str (Str.ofNat i)) field true = .ok i := by
  have hdigits : (Str.ofNat i).all Str.isDigit = true :=
    List.all_eq_true.mpr fun c hc => Str.isDigit_of_mem_ofNat hc
  have hascii : (Str.ofNat i).isAscii = true := by
    refine List.all_eq_true.mpr fun c hc => ?_
    have hdigit := Str.isDigit_of_mem_ofNat hc
    simp only [Str.isDigit, Bool.and_eq_true, decide_eq_true_eq] at hdigit
    exact decide_eq_true (by omega)
  have hlen : (Str.ofNat i).length ≤ maxDigits := by
    refine (Str.length_ofNat_le_iff (by decide)).mpr (h.trans ?_)
    exact Str.lt_pow_length_ofNat maxStatusIndex
  have hstripped := (List.dropWhile_suffix (l := Str.ofNat i) (· == 48)).length_le
  simp only [statusIndex, indexValue, if_true, indexOfDigits, bind_eq_ok, raiseIf_eq_ok, pure_eq_ok,
    decide_eq_false_iff_not, not_le, not_lt, Str.toNat_ofNat]
  refine ⟨i, ⟨(), ?_, (), by omega, rfl⟩, (), h, rfl⟩
  rw [hascii, hdigits, List.isEmpty_eq_false_iff.mpr (Str.ofNat_ne_nil i)]
  rfl

/-! ## Pointers -/

/-- A credential whose status is the entry, by itself or in an array. -/
def Carries (credential entry : Dict) : Prop :=
  credential.get "credentialStatus" = .obj entry ∨
    credential.get "credentialStatus" = .arr [.obj entry]

/-- The members that an entry is read from. -/
theorem parseEntry_of_get {u p : Str} (htype : entry.get "type" = .str bitstringEntryType)
    (hpurpose : entry.get? "statusPurpose" = some (.str p))
    (hindex : entry.get "statusListIndex" = .str (Str.ofNat i))
    (hurl : entry.get "statusListCredential" = .str u) (hu : u ≠ []) (hi : i < maxStatusIndex) :
    parseEntry entry = .ok [⟨u, i, p⟩] := by
  have hstatus : isStatusEntry entry = true := by
    rw [isStatusEntry, htype]
    decide
  have hlacks : lacksType (entry.get "type") = false := by
    rw [htype]
    decide
  have hread : readEntry entry = .ok ⟨u, i, p⟩ := by
    simp only [readEntry, hurl, hindex, hpurpose, bind_eq_ok, raiseIf_eq_ok, orRaise_eq_ok,
      pure_eq_ok]
    refine ⟨(), ?_, u, rfl, p, rfl, i, statusIndex_ofNat hi, rfl⟩
    simp [Json.truthy, Json.isNull, hu]
  rw [parseEntry, hlacks, hread, if_pos hstatus]
  rfl

/-- An entry that was built reads as what it was built for. -/
theorem buildStatusListEntry_eq_ok (h : buildStatusListEntry url index purpose id = .ok entry) :
    ∃ u i p, url = .str u ∧ index = .int (i : Nat) ∧ purpose = .str p ∧ p ≠ [] ∧
      parseEntry entry = .ok [⟨u, i, p⟩] := by
  simp only [buildStatusListEntry, bind_eq_ok, text_eq_ok, pure_eq_ok] at h
  obtain ⟨i, hindex, u, ⟨rfl, hu⟩, p, ⟨rfl, hp⟩, id', -, rfl⟩ := h
  obtain ⟨rfl, hlt⟩ := statusIndex_eq_ok hindex
  exact ⟨u, i, p, rfl, rfl, rfl, hp, parseEntry_of_get rfl rfl rfl rfl hu hlt⟩

/-- And so the status of a credential that carries it. -/
theorem parseStatusEntries_of_carries {e : Entry} (h : Carries credential entry)
    (hparse : parseEntry entry = .ok [e]) : parseStatusEntries credential = .ok [e] := by
  have hraws : asEntryList (credential.get "credentialStatus") = .ok [entry] := by
    rcases h with h | h <;> rw [h] <;> rfl
  rw [parseStatusEntries, hraws]
  change (collect parseEntry [entry] >>= _) = _
  rw [collect_eq_ok.mpr (List.Forall₂.cons hparse .nil)]
  rfl

theorem readTokenStatusRef_of_get {ref : Dict} {u : Str} (huri : ref.get "uri" = .str u)
    (hidx : ref.get "idx" = .int i) (hu : u ≠ []) (hi : i < maxStatusIndex) :
    readTokenStatusRef ref = .ok ⟨u, i⟩ := by
  simp only [readTokenStatusRef, huri, hidx, bind_eq_ok, raiseIf_eq_ok, orRaise_eq_ok, pure_eq_ok]
  refine ⟨(), ?_, u, rfl, i, statusIndex_int hi, rfl⟩
  simp [Json.truthy, Json.isNull, hu]

/-- A reference that was built reads as what it was built for. -/
theorem buildTokenStatusReference_eq_ok {reference claims : Dict}
    (h : buildTokenStatusReference uri index = .ok reference)
    (hclaims : claims.get "status" = reference.get "status") :
    ∃ u i, uri = .str u ∧ index = .int (i : Nat) ∧
      parseTokenStatusRef claims = .ok (some ⟨u, i⟩) := by
  simp only [buildTokenStatusReference, bind_eq_ok, text_eq_ok, pure_eq_ok] at h
  obtain ⟨i, hindex, u, ⟨rfl, hu⟩, rfl⟩ := h
  obtain ⟨rfl, hlt⟩ := statusIndex_eq_ok hindex
  refine ⟨u, i, rfl, rfl, ?_⟩
  have hclaim : ∃ ref, statusListClaim claims = some ref ∧ ref.get "uri" = .str u ∧
      ref.get "idx" = .int i := by
    rw [statusListClaim, hclaims]
    exact ⟨_, rfl, rfl, rfl⟩
  obtain ⟨ref, hclaim, huri, hidx⟩ := hclaim
  rw [parseTokenStatusRef, hclaim]
  simp only [readTokenStatusRef_of_get huri hidx hu hlt]
  rfl

/-! ## Lists -/

/-- What is compressed within the ceiling is decompressed to itself. -/
structure Inverts (D : Deflate) (Z : Zlib) : Prop where
  gunzip : ∀ data : Bytes, data.length ≤ maxDecompressedBytes → Z.gunzip (D.gzip data) = some data
  inflate : ∀ data : Bytes, data.length ≤ maxDecompressedBytes →
    Z.inflate (D.zlib data) = some data

theorem bounded_eq_ok {out : Bytes} {a b : String} (h : out.length ≤ maxDecompressedBytes) :
    bounded (some out) a b = .ok out := by
  simp only [bounded, bind_eq_ok, orRaise_eq_ok, raiseIf_eq_ok, pure_eq_ok, decide_eq_false_iff_not,
    not_lt]
  exact ⟨out, rfl, (), h, rfl⟩

theorem decodeBitstring_encodeBitstring (hD : Inverts D Z) {data : Bytes}
    (h : data.length ≤ maxDecompressedBytes) :
    decodeBitstring Z (encodeBitstring D data) = .ok data := by
  simp only [decodeBitstring, encodeBitstring, dropMultibase, Codec.b64urlDecodePadded_b64urlEncode,
    bind_eq_ok, orRaise_eq_ok]
  refine ⟨_, rfl, ?_⟩
  rw [hD.gunzip data h]
  exact bounded_eq_ok h

theorem decodeStatusList_encodeStatusList (hD : Inverts D Z) {data : Bytes}
    (h : data.length ≤ maxDecompressedBytes) :
    decodeStatusList Z (encodeStatusList D data) = .ok data := by
  simp only [decodeStatusList, encodeStatusList, Codec.b64urlDecodePadded_b64urlEncode, bind_eq_ok,
    orRaise_eq_ok]
  refine ⟨_, rfl, ?_⟩
  rw [hD.inflate data h]
  exact bounded_eq_ok h

theorem packed_eq_ok {data out : Bytes} :
    packed data field = .ok out ↔ data.length ≤ maxDecompressedBytes ∧ out = data := by
  simp only [packed, bind_eq_ok, raiseIf_eq_ok, pure_eq_ok, decide_eq_false_iff_not, not_lt]
  constructor
  · rintro ⟨⟨⟩, hlen, rfl⟩
    exact ⟨hlen, rfl⟩
  · rintro ⟨hlen, rfl⟩
    exact ⟨(), hlen, rfl⟩

/-! ## The check of a credential -/

theorem getStatusBit_of_get {data : Bytes} {status : Nat}
    (h : bitstring.get data (.int i) = .ok status) : Status.getStatusBit data i = .ok status := by
  change Packed.getStatusBit data (.int i) = _ at h
  simp only [Packed.getStatusBit, locate, listIndex_nat, byteAt, bind_eq_ok, orRaise_eq_ok,
    pure_eq_ok, Option.map_eq_some_iff] at h
  obtain ⟨⟨byte, bit⟩, ⟨k, hk, hlocate⟩, x, ⟨b, hb, rfl⟩, rfl⟩ := h
  obtain rfl := Except.ok.inj hk
  simp only [Status.getStatusBit, bind_eq_ok, pure_eq_ok]
  refine ⟨(byte, bit), hlocate, ?_⟩
  rw [List.getD_eq_getElem?_getD, hb, Option.getD_some]

theorem getStatusBit_refused {data : Bytes} (h : data.length * 8 ≤ i) :
    ∃ e, Status.getStatusBit data i = .error e ∧ e.cls = .statusListError := by
  have hrefused : ∃ e, locateStatus i 8 data.length (lit "bit") = .error e ∧
      e.cls = .statusListError := locateStatus_refused (by decide) (Nat.not_lt.mpr h)
  obtain ⟨e, he, hcls⟩ := hrefused
  refine ⟨e, ?_, hcls⟩
  rw [Status.getStatusBit, he]
  rfl

/-- What the check reads of a credential that was built. -/
theorem buildStatusListCredential_eq_ok {args : CredentialArgs}
    (h : buildStatusListCredential D args = .ok vc) :
    ∃ (p : Str) (subject : Dict), args.statusPurpose = .str p ∧
      args.bitstring.length ≤ maxDecompressedBytes ∧
      vc.get "credentialSubject" = .obj subject ∧ subject.get "statusPurpose" = .str p ∧
      subject.get "encodedList" = .str (encodeBitstring D args.bitstring) := by
  simp only [buildStatusListCredential, bind_eq_ok, text_eq_ok, packed_eq_ok, pure_eq_ok] at h
  obtain ⟨id, -, p, ⟨hpurpose, hne⟩, issuer, -, subjectId, -, context, -, bits, ⟨hlen, rfl⟩, ttl, -,
    validFrom, -, validUntil, -, rfl⟩ := h
  exact ⟨p, _, hpurpose, hlen, rfl, rfl, rfl⟩

/-- The check of a credential that carries one entry is the access to its list. -/
theorem checkCredentialStatus_of_carries {args : CredentialArgs} {e : Entry} {resolve : Resolver}
    (hD : Inverts D Z) (hbuild : buildStatusListCredential D args = .ok vc)
    (hpurpose : args.statusPurpose = .str e.purpose) (hcarries : Carries credential entry)
    (hparse : parseEntry entry = .ok [e])
    (hresolve : resolve 0 e.statusListCredential = .ok (.obj vc)) :
    checkCredentialStatus Z credential resolve =
      (Status.getStatusBit args.bitstring e.index).map fun bit => tallyStatus [⟨e, bit != 0⟩] := by
  obtain ⟨p, subject, hp, hlen, hsubject, hpurpose', hencoded⟩ :=
    buildStatusListCredential_eq_ok hbuild
  obtain rfl : e.purpose = p := Json.str.inj (hpurpose.symm.trans hp)
  have hlist : encodedList (.obj vc) e = .ok (encodeBitstring D args.bitstring) := by
    simp only [encodedList, Json.obj?_eq_some, bind_eq_ok, orRaise_eq_ok, raiseIf_eq_ok]
    refine ⟨vc, rfl, subject, ?_, (), ?_, ?_⟩
    · rw [hsubject]
    · rw [hpurpose']
      simp [Json.pyEq]
    · rw [hencoded]
      rfl
  rw [checkCredentialStatus, parseStatusEntries_of_carries hcarries hparse]
  change (enumerateLoop (checkEntry Z resolve) [] 0 [e] >>= _) = _
  have hread : readStatusBit Z (.obj vc) e =
      (Status.getStatusBit args.bitstring e.index).map fun bit => ⟨e, bit != 0⟩ := by
    rw [readStatusBit, hlist]
    change (decodeBitstring Z (encodeBitstring D args.bitstring) >>= _) = _
    rw [decodeBitstring_encodeBitstring hD hlen]
    change (Status.getStatusBit args.bitstring e.index >>= _) = _
    cases Status.getStatusBit args.bitstring e.index <;> rfl
  have hcheck : checkEntry Z resolve [] 0 e =
      (Status.getStatusBit args.bitstring e.index).map fun bit => [⟨e, bit != 0⟩] := by
    rw [checkEntry, hresolve]
    change (readStatusBit Z (.obj vc) e >>= _) = _
    rw [hread]
    cases Status.getStatusBit args.bitstring e.index <;> rfl
  rw [enumerateLoop, hcheck]
  cases Status.getStatusBit args.bitstring e.index <;> rfl

/-! ## The check of a token -/

theorem getStatus_of_get {data : Bytes} {bits : Int} {status : Nat}
    (h : (tokenList bits).get data (.int i) = .ok status) :
    Status.getStatus data i bits = .ok status := by
  change Packed.getStatus data (.int i) bits = _ at h
  simp only [Packed.getStatus, locate, listIndex_nat, byteAt, bind_eq_ok, orRaise_eq_ok,
    pure_eq_ok, Option.map_eq_some_iff] at h
  obtain ⟨width, hwidth, ⟨byte, pos⟩, ⟨k, hk, hlocate⟩, x, ⟨b, hb, rfl⟩, rfl⟩ := h
  obtain rfl := Except.ok.inj hk
  simp only [Status.getStatus, bind_eq_ok, pure_eq_ok]
  refine ⟨width, hwidth, (byte, pos), hlocate, ?_⟩
  rw [List.getD_eq_getElem?_getD, hb, Option.getD_some]

theorem getStatus_refused {data : Bytes} {bits : Nat}
    (hbits : bits = 1 ∨ bits = 2 ∨ bits = 4 ∨ bits = 8) (h : data.length * (8 / bits) ≤ i) :
    ∃ e, Status.getStatus data i bits = .error e ∧ e.cls = .statusListError := by
  have hrefused : ∃ e, locateStatus i (8 / bits) data.length (lit "status") = .error e ∧
      e.cls = .statusListError :=
    locateStatus_refused (tokenLayout bits hbits).perWord_pos (Nat.not_lt.mpr h)
  obtain ⟨e, he, hcls⟩ := hrefused
  refine ⟨e, ?_, hcls⟩
  rw [Status.getStatus, checkBits_of_width hbits]
  change (locateStatus i (8 / bits) data.length (lit "status") >>= _) = _
  rw [show locateStatus i (8 / bits) data.length (lit "status") = .error e from he]
  rfl

/-- The claims of a token that was built. -/
structure Published (D : Deflate) (args : TokenArgs) (payload : Dict) : Prop where
  sub : ∃ u, args.uri = .str u ∧ payload.get "sub" = .str u
  width : ∃ bits : Nat, args.bits = bits ∧ (bits = 1 ∨ bits = 2 ∨ bits = 4 ∨ bits = 8)
  length : args.statusList.length ≤ maxDecompressedBytes
  list : ∃ sl : Dict, payload.get "status_list" = .obj sl ∧ sl.get "bits" = .int args.bits ∧
    sl.get "lst" = .str (encodeStatusList D args.statusList)

theorem tokenPayload_eq_ok {I : Interpreter} {args : TokenArgs} {payload : Dict}
    (h : tokenPayload I D args = .ok payload) : Published D args payload := by
  simp only [tokenPayload, bind_eq_ok, text_eq_ok, packed_eq_ok, pure_eq_ok] at h
  obtain ⟨u, ⟨huri, -⟩, issuer, -, bits, hbits, data, ⟨hlen, rfl⟩, iat, -, exp, -, ttl, -, rfl⟩ := h
  obtain ⟨hwidth, hcases⟩ := width_of_checkBits hbits
  exact ⟨⟨u, huri, rfl⟩, ⟨bits, hwidth, hcases⟩, hlen, ⟨_, rfl, hwidth ▸ rfl, rfl⟩⟩

/-- The check of a token with a reference is the access to its list. -/
theorem checkTokenClaims_of_ref {args : TokenArgs} {payload claims : Dict} {ref : TokenStatusRef}
    {resolve : Resolver} (hD : Inverts D Z) (hpayload : Published D args payload)
    (hparse : parseTokenStatusRef claims = .ok (some ref))
    (hresolve : resolve 0 ref.uri = .ok (.obj payload)) :
    checkTokenClaims Z claims resolve = (Status.getStatus args.statusList ref.index args.bits).map
      fun v => some ⟨ref, v, v == statusInvalid, v == statusSuspended⟩ := by
  obtain ⟨sl, hsl, hbits, hlst⟩ := hpayload.list
  have hlist : statusListOfToken (.obj payload) =
      .ok (args.bits, encodeStatusList D args.statusList) := by
    simp only [statusListOfToken, Json.obj?_eq_some, bind_eq_ok, orRaise_eq_ok, pure_eq_ok]
    refine ⟨payload, rfl, sl, hsl, args.bits, ?_, _, ?_, rfl⟩
    · rw [hbits]
      rfl
    · rw [hlst]
      rfl
  rw [checkTokenClaims, hparse]
  change (checkTokenStatus Z ref resolve).map some = _
  rw [checkTokenStatus, hresolve]
  change (tokenStatusResult Z ref (.obj payload)).map some = _
  rw [tokenStatusResult, hlist]
  change (decodeStatusList Z (encodeStatusList D args.statusList) >>= _).map some = _
  rw [decodeStatusList_encodeStatusList hD hpayload.length]
  change (Status.getStatus args.statusList ref.index args.bits >>= _).map some = _
  cases Status.getStatus args.statusList ref.index args.bits <;> rfl

/-- A token whose signature layer gives back what was signed is refused for its dates only. -/
theorem verifyStatusListToken_of_built {I : Interpreter} {C : Crypto} {key : SigningKey}
    {args : TokenArgs} {payload jwk : Dict} {token u : Str} {input signature : Bytes}
    {leeway : Int} {b : Bool} (hpayload : Published D args payload) (hu : args.uri = .str u)
    (hverify : VpJwt.verifyCompact C token jwk = .ok ⟨tokenHeader key, payload, input, signature⟩)
    (hdates : checkJwtTemporal I payload leeway "status list token" none true = .ok b) :
    verifyStatusListToken I C token jwk u leeway = .ok payload := by
  obtain ⟨hleeway, hjwt, -, -⟩ := checkJwtTemporal_eq_ok.mp hdates
  obtain ⟨u', hu', hsub⟩ := hpayload.sub
  obtain rfl : u = u' := Json.str.inj (hu.symm.trans hu')
  have htyp : (tokenHeader key).get "typ" = .str statusListJwtTyp := rfl
  simp only [verifyStatusListToken, bind_eq_ok, raiseIf_eq_ok, reraise_eq_ok, pure_eq_ok,
    leewaySeconds_eq_ok, hverify]
  refine ⟨leeway, ⟨hleeway, rfl⟩, _, rfl, (), ?_, (), ?_, (), ?_, b, hdates, rfl⟩
  · rw [htyp]
    simp [Json.pyEq]
  · rw [hsub]
    simp [Json.pyEq]
  · -- the shape of the dates is checked again by the temporal rule
    refine each_eq_ok.mpr fun name hname => ?_
    have hshape := each_eq_ok.mp hjwt.shape name hname
    rw [raiseIf_eq_ok] at hshape
    rw [checkTokenDate, raiseIf_eq_ok]
    exact hshape

/-! ## The round trip -/

/-- What becomes of a bitstring of `n` statuses: it is published, and an entry built for an index
reads the status there, or is refused when the list has no such index. -/
structure BitstringRoundTrip (Z : Zlib) (D : Deflate) (data : Bytes) (n : Nat)
    (status : Nat → Nat) : Prop where
  published : packed data "bitstring" = .ok data
  checked : ∀ args vc, args.bitstring = data → buildStatusListCredential D args = .ok vc →
    ∀ u i p id entry, buildStatusListEntry (.str u) (.int (i : Nat)) (.str p) id = .ok entry →
      args.statusPurpose = .str p →
    ∀ credential resolve, Carries credential entry → resolve 0 u = .ok (.obj vc) →
      (i < n → checkCredentialStatus Z credential resolve =
        .ok (tallyStatus [⟨⟨u, i, p⟩, status i != 0⟩])) ∧
      (n ≤ i → ∃ e, checkCredentialStatus Z credential resolve = .error e ∧
        e.cls = .statusListError)

/-- The same for a token list of statuses of some width. A token whose signature layer gives back
what was signed is refused for its dates only, and returns the claims. -/
structure TokenListRoundTrip (Z : Zlib) (D : Deflate) (data : Bytes) (bits : Int) (n : Nat)
    (status : Nat → Nat) : Prop where
  published : packed data "status_list" = .ok data
  checked : ∀ I args payload, args.statusList = data → args.bits = bits →
      tokenPayload I D args = .ok payload →
    ∀ u i reference claims, buildTokenStatusReference (.str u) (.int (i : Nat)) = .ok reference →
      claims.get "status" = reference.get "status" →
    ∀ resolve, resolve 0 u = .ok (.obj payload) →
      (i < n → checkTokenClaims Z claims resolve =
        .ok (some ⟨⟨u, i⟩, status i, status i == statusInvalid, status i == statusSuspended⟩)) ∧
      (n ≤ i → ∃ e, checkTokenClaims Z claims resolve = .error e ∧ e.cls = .statusListError)
  verified : ∀ I key args token, args.statusList = data → args.bits = bits →
      buildStatusListToken I D key args = .ok token →
    ∃ payload u, tokenPayload I D args = .ok payload ∧ args.uri = .str u ∧
      ∀ I' C jwk input signature leeway b,
        VpJwt.verifyCompact C token jwk = .ok ⟨tokenHeader key, payload, input, signature⟩ →
        checkJwtTemporal I' payload leeway "status list token" none true = .ok b →
          verifyStatusListToken I' C token jwk u leeway = .ok payload

theorem packedLength_le {size : Json} {perByte length : Nat}
    (h : packedLength size perByte = .ok length) : length ≤ maxDecompressedBytes := by
  simp only [packedLength, bind_eq_ok, raiseIf_eq_ok, pure_eq_ok, decide_eq_false_iff_not,
    not_lt] at h
  obtain ⟨-, -, m, -, ⟨⟩, hle, rfl⟩ := h
  exact hle

theorem bitstringRoundTrip (hD : Inverts D Z) {size : Json} {data : Bytes} (ops : List Op)
    (h : newBitstring size = .ok data) :
    BitstringRoundTrip Z D (bitstring.run data ops).2 (data.length * 8)
      fun i => lastSet bitValue (data.length * 8) i ops := by
  simp only [newBitstring, bind_eq_ok, pure_eq_ok] at h
  obtain ⟨length, hlength, rfl⟩ := h
  have harray := implements_bitstring.behavesAsArray length
  have hcapacity : bitLayout.capacity length = length * 8 := rfl
  rw [List.length_replicate]
  have hlen := harray.length ops
  rw [List.length_replicate] at hlen
  refine ⟨packed_eq_ok.mpr ⟨hlen.trans_le (packedLength_le hlength), rfl⟩, ?_⟩
  intro args vc hdata hbuild u i p id entry hentry hpurpose credential resolve hcarries hresolve
  obtain ⟨u', i', p', hu, hi, hp, -, hparse⟩ := buildStatusListEntry_eq_ok hentry
  obtain rfl := Json.str.inj hu
  obtain rfl := Json.str.inj hp
  obtain rfl : i = i' := by exact_mod_cast Json.int.inj hi
  have hcheck := checkCredentialStatus_of_carries (e := ⟨u, i, p⟩) hD hbuild hpurpose hcarries
    hparse hresolve
  rw [hdata] at hcheck
  constructor
  · intro hlt
    rw [hcheck, getStatusBit_of_get (harray.contents ops i (hcapacity ▸ hlt))]
    rfl
  · intro hge
    have hpast : (bitstring.run (List.replicate length 0) ops).2.length * 8 ≤ i := by
      rw [hlen]
      exact hge
    obtain ⟨e, he, hcls⟩ := getStatusBit_refused hpast
    refine ⟨e, ?_, hcls⟩
    rw [hcheck, he]
    rfl

theorem tokenListRoundTrip (hD : Inverts D Z) {size : Json} {bits : Int} {data : Bytes}
    (ops : List Op) (h : newStatusList size bits = .ok data) :
    TokenListRoundTrip Z D ((tokenList bits).run data ops).2 bits (data.length * (8 / bits.toNat))
      fun i => lastSet (statusValue bits.toNat) (data.length * (8 / bits.toNat)) i ops := by
  simp only [newStatusList, bind_eq_ok, pure_eq_ok] at h
  obtain ⟨width, hbits, length, hlength, rfl⟩ := h
  obtain ⟨rfl, hwidth⟩ := width_of_checkBits hbits
  have harray := (implements_tokenList hwidth).behavesAsArray length
  have hcapacity : (tokenLayout width hwidth).capacity length = length * (8 / width) := rfl
  rw [List.length_replicate, Int.toNat_natCast]
  have hlen := harray.length ops
  rw [List.length_replicate] at hlen
  refine ⟨packed_eq_ok.mpr ⟨hlen.trans_le (packedLength_le hlength), rfl⟩, ?_, ?_⟩
  · intro I args payload hdata hargs hbuild u i reference claims href hclaims resolve hresolve
    obtain ⟨u', i', hu, hi, hparse⟩ := buildTokenStatusReference_eq_ok href hclaims
    obtain rfl := Json.str.inj hu
    obtain rfl : i = i' := by exact_mod_cast Json.int.inj hi
    have hcheck := checkTokenClaims_of_ref hD (tokenPayload_eq_ok hbuild) hparse hresolve
    rw [hdata, hargs] at hcheck
    constructor
    · intro hlt
      rw [hcheck, getStatus_of_get (harray.contents ops i (hcapacity ▸ hlt))]
      rfl
    · intro hge
      have hpast : ((tokenList width).run (List.replicate length 0) ops).2.length *
          (8 / width) ≤ i := by
        rw [hlen]
        exact hge
      obtain ⟨e, he, hcls⟩ := getStatus_refused hwidth hpast
      refine ⟨e, ?_, hcls⟩
      rw [hcheck, he]
      rfl
  · intro I key args token hdata hargs hbuild
    obtain ⟨payload, hpayload, -⟩ := bind_eq_ok.mp hbuild
    have hpublished := tokenPayload_eq_ok hpayload
    obtain ⟨u, hu, -⟩ := hpublished.sub
    exact ⟨payload, u, hpayload, hu, fun I' C jwk input signature leeway b hverify hdates =>
      verifyStatusListToken_of_built hpublished hu hverify hdates⟩

/-- A pointer reads back as it was built. The check of a list that was built, over whatever
operations in sequence, reads at each index it has what was last written there; an index past its end
is refused. -/
theorem status_issue_roundTrip (hD : Inverts D Z) :
    (∀ url index purpose id entry, buildStatusListEntry url index purpose id = .ok entry →
      ∃ u i p, url = .str u ∧ index = .int (i : Nat) ∧ purpose = .str p ∧
        ∀ credential, Carries credential entry → parseStatusEntries credential = .ok [⟨u, i, p⟩]) ∧
    (∀ uri index reference, buildTokenStatusReference uri index = .ok reference →
      ∃ u i, uri = .str u ∧ index = .int (i : Nat) ∧
        ∀ claims, claims.get "status" = reference.get "status" →
          parseTokenStatusRef claims = .ok (some ⟨u, i⟩)) ∧
    (∀ size data ops, newBitstring size = .ok data →
      BitstringRoundTrip Z D (bitstring.run data ops).2 (data.length * 8)
        fun i => lastSet bitValue (data.length * 8) i ops) ∧
    ∀ size (bits : Int) data ops, newStatusList size bits = .ok data →
      TokenListRoundTrip Z D ((tokenList bits).run data ops).2 bits
        (data.length * (8 / bits.toNat))
        fun i => lastSet (statusValue bits.toNat) (data.length * (8 / bits.toNat)) i ops := by
  refine ⟨?_, ?_, fun size data ops h => bitstringRoundTrip hD ops h,
    fun size bits data ops h => tokenListRoundTrip hD ops h⟩
  · intro url index purpose id entry h
    obtain ⟨u, i, p, hu, hi, hp, -, hparse⟩ := buildStatusListEntry_eq_ok h
    exact ⟨u, i, p, hu, hi, hp, fun credential hcarries =>
      parseStatusEntries_of_carries hcarries hparse⟩
  · intro uri index reference h
    obtain ⟨u, i, hu, hi, -⟩ := buildTokenStatusReference_eq_ok h rfl
    refine ⟨u, i, hu, hi, fun claims hclaims => ?_⟩
    obtain ⟨u', i', hu', hi', hparse⟩ := buildTokenStatusReference_eq_ok h hclaims
    rw [hparse, Json.str.inj (hu.symm.trans hu')]
    have hii : (i : Int) = i' := Json.int.inj (hi.symm.trans hi')
    rw [Int.natCast_inj.mp hii]

/-! ## Lists of two bytes and of one -/

/-- Compressed bytes of a list. -/
structure Sample where
  data : Bytes
  compressed : Bytes

/-- The sample compresses as it says, any other list is stored behind a zero. -/
def Sample.compress (s : Sample) (data : Bytes) : Bytes :=
  if data = s.data then s.compressed else 0 :: data

/-- The decompression of such bytes. -/
def Sample.decompress (s : Sample) (compressed : Bytes) : Option Bytes :=
  if compressed = s.compressed then some s.data
  else match compressed with
    | 0 :: data => some data
    | _ => none

theorem Sample.decompress_compress {s : Sample} (h : s.compressed.head? ≠ some 0) (data : Bytes) :
    s.decompress (s.compress data) = some data := by
  rw [compress]
  split
  · rename_i heq
    unfold decompress
    rw [if_pos rfl, heq]
  · have hne : 0 :: data ≠ s.compressed := fun heq => h (by rw [← heq]; rfl)
    unfold decompress
    rw [if_neg hne]
    rfl

/-- The compression of a bitstring and of a token list. -/
def deflateOf (bits list : Sample) : Deflate := ⟨bits.compress, list.compress⟩

/-- And their decompression. -/
def zlibOf (bits list : Sample) : Zlib := ⟨bits.decompress, list.decompress⟩

theorem inverts_deflateOf {bits list : Sample} (hbits : bits.compressed.head? ≠ some 0)
    (hlist : list.compressed.head? ≠ some 0) : Inverts (deflateOf bits list) (zlibOf bits list) :=
  ⟨fun data _ => Sample.decompress_compress hbits data,
    fun data _ => Sample.decompress_compress hlist data⟩

/-- Sixteen bits, the one at index 9 set. -/
def ninthBit : Sample :=
  ⟨[0, 64], [31, 139, 8, 0, 0, 0, 0, 0, 2, 3, 99, 112, 0, 0, 111, 83, 5, 55, 2, 0, 0, 0]⟩

/-- Eight bits, none set. -/
def eightBits : Sample :=
  ⟨[0], [31, 139, 8, 0, 0, 0, 0, 0, 2, 3, 99, 0, 0, 141, 239, 2, 210, 1, 0, 0, 0]⟩

/-- Four statuses of two bits, the last one suspended. -/
def lastSuspended : Sample := ⟨[128], [120, 218, 107, 0, 0, 0, 129, 0, 129]⟩

/-- The URL of the lists. -/
def listUrl : Str := "https://l/1"

/-- The arguments of their credential. -/
def listArgs (bits : Bytes) : CredentialArgs :=
  { id := .str listUrl, issuer := .str "did:web:l", bitstring := bits }

/-- The arguments of the token. -/
def tokenArgs : TokenArgs := { uri := .str listUrl, statusList := [128], bits := 2 }

/-- A credential that was revoked at index 9, and a token that was suspended at index 3. -/
theorem status_issue_roundTrip_sample :
    (∃ entry vc, buildStatusListEntry (.str listUrl) (.int 9) (.str purposeRevocation) .null =
        .ok entry ∧
      buildStatusListCredential (deflateOf ninthBit lastSuspended) (listArgs [0, 64]) = .ok vc ∧
      checkCredentialStatus (zlibOf ninthBit lastSuspended) [("credentialStatus", .obj entry)]
        (fun _ _ => .ok (.obj vc)) =
          .ok ⟨true, false, [⟨⟨listUrl, 9, purposeRevocation⟩, true⟩]⟩) ∧
    ∃ reference payload, buildTokenStatusReference (.str listUrl) (.int 3) = .ok reference ∧
      tokenPayload (.atSecond 1800000000 []) (deflateOf ninthBit lastSuspended) tokenArgs =
        .ok payload ∧
      checkTokenClaims (zlibOf ninthBit lastSuspended) reference (fun _ _ => .ok (.obj payload)) =
        .ok (some ⟨⟨listUrl, 3⟩, 2, false, true⟩) := by
  obtain ⟨-, -, hbits, htokens⟩ := status_issue_roundTrip (D := deflateOf ninthBit lastSuspended)
    (Z := zlibOf ninthBit lastSuspended) (inverts_deflateOf (by decide) (by decide))
  constructor
  · obtain ⟨entry, hentry, -⟩ := exists_ok_of_map (f := fun _ => ()) (c := ())
      (x := buildStatusListEntry (.str listUrl) (.int 9) (.str purposeRevocation) .null) (by
        decide +kernel)
    obtain ⟨vc, hvc, -⟩ := exists_ok_of_map (f := fun _ => ()) (c := ())
      (x := buildStatusListCredential (deflateOf ninthBit lastSuspended) (listArgs [0, 64])) (by
        decide +kernel)
    refine ⟨entry, vc, hentry, hvc, ?_⟩
    have hlist := hbits (.int 16) [0, 0] [.set (.int 9) (.bool true)] rfl
    exact (hlist.checked (listArgs [0, 64]) vc rfl hvc listUrl 9 purposeRevocation .null entry hentry rfl _ _ (.inl rfl) rfl).1 (by decide)
  · obtain ⟨reference, href, -⟩ := exists_ok_of_map (f := fun _ => ()) (c := ())
      (x := buildTokenStatusReference (.str listUrl) (.int 3)) (by decide +kernel)
    obtain ⟨payload, hpayload, -⟩ := exists_ok_of_map (f := fun _ => ()) (c := ())
      (x := tokenPayload (.atSecond 1800000000 []) (deflateOf ninthBit lastSuspended) tokenArgs) (by
        decide +kernel)
    refine ⟨reference, payload, href, hpayload, ?_⟩
    have hlist := htokens (.int 4) 2 [0] [.set (.int 3) (.int 2)] rfl
    exact (hlist.checked (.atSecond 1800000000 []) tokenArgs payload (by decide +kernel) rfl hpayload
      listUrl 3 reference reference href rfl _ rfl).1 (by decide)

/-- The builders take index 8 for a list of eight bits, and the check refuses it. -/
theorem entry_past_end_refused :
    Inverts (deflateOf eightBits lastSuspended) (zlibOf eightBits lastSuspended) ∧
    newBitstring (.int 8) = .ok [0] ∧
    ∃ entry vc, buildStatusListEntry (.str listUrl) (.int 8) (.str purposeRevocation) .null =
        .ok entry ∧
      buildStatusListCredential (deflateOf eightBits lastSuspended) (listArgs [0]) = .ok vc ∧
      ∃ e, checkCredentialStatus (zlibOf eightBits lastSuspended) [("credentialStatus", .obj entry)]
        (fun _ _ => .ok (.obj vc)) = .error e := by
  have hD : Inverts (deflateOf eightBits lastSuspended) (zlibOf eightBits lastSuspended) :=
    inverts_deflateOf (by decide) (by decide)
  obtain ⟨entry, hentry, -⟩ := exists_ok_of_map (f := fun _ => ()) (c := ())
    (x := buildStatusListEntry (.str listUrl) (.int 8) (.str purposeRevocation) .null) (by
      decide +kernel)
  obtain ⟨vc, hvc, -⟩ := exists_ok_of_map (f := fun _ => ()) (c := ())
    (x := buildStatusListCredential (deflateOf eightBits lastSuspended) (listArgs [0])) (by
      decide +kernel)
  have hempty : newBitstring (.int 8) = .ok [0] := rfl
  obtain ⟨e, he, -⟩ := ((bitstringRoundTrip hD [] hempty).checked (listArgs [0]) vc rfl hvc listUrl 8
    purposeRevocation .null entry hentry rfl [("credentialStatus", .obj entry)]
    (fun _ _ => .ok (.obj vc)) (.inl rfl) rfl).2 (by decide)
  exact ⟨hD, hempty, entry, vc, hentry, hvc, e, he⟩

end OpenVC.Status.Issue
