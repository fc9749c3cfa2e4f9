import OpenVC.Proof.Proofs.SdJwtRoundTripProofs

/-!
# Issue, present and verify

A holder signs a Key Binding JWT over an issued credential with `create_presentation`, which hashes
with the algorithm of the holder's own suite; `verify` hashes with the one the credential names. The
presentation of a credential that verifies by itself is accepted as key bound exactly when the two
agree and the audience and the nonce are read back as they were given.
-/

namespace Python.JsonDumps

open JsonLoads

theorem joinSurrogates_eq_iff {s k : Str} (hk : ∀ c ∈ k, c < 0xD800) :
    joinSurrogates s = k ↔ s = k := by
  constructor
  · intro h
    suffices joinSurrogates s = s from this.symm.trans h
    rw [← h] at hk
    clear h
    induction s using joinSurrogates.induct with
    | case1 => rfl
    | case2 u => rfl
    | case3 u w t hp ih =>
      rw [joinSurrogates.eq_3, if_pos hp] at hk
      have := hk _ List.mem_cons_self
      omega
    | case4 u w t hp ih =>
      rw [joinSurrogates.eq_3, if_neg hp] at hk ⊢
      rw [ih fun c hc => hk c (List.mem_cons_of_mem _ hc)]
  · rintro rfl
    exact joinSurrogates_eq_self_iff.mpr (hasPair_of_lt hk)

/-- What an object is read back as. -/
def rereadDict (m : Dict) : Dict := Dict.ofPairs (rereadMembers m)

theorem get?_rereadDict {m : Dict} {k : Str} (hm : m.keys.Nodup) (hk : ∀ c ∈ k, c < 0xD800) :
    (rereadDict m).get? k = (m.get? k).map reread := by
  have key : ∀ (m d : Dict), m.keys.Nodup →
      Dict.get? ((rereadMembers m).foldl (fun d p => Dict.set d p.1 p.2) d) k =
        ((m.get? k).map reread).or (d.get? k) := by
    intro m
    induction m with
    | nil => exact fun d _ => rfl
    | cons p m ih =>
      intro d hm
      obtain ⟨k', v⟩ := p
      rw [Dict.keys_cons, List.nodup_cons] at hm
      rw [rereadMembers, List.foldl_cons, ih _ hm.2, Dict.get?_set, Dict.get?_cons]
      dsimp only
      by_cases hkk : k' = k
      · subst hkk
        rw [if_pos rfl, if_pos (joinSurrogates_eq_self_iff.mpr (hasPair_of_lt hk)),
          Dict.get?_eq_none_iff.mpr hm.1]
        rfl
      · rw [if_neg hkk, if_neg fun e => hkk ((joinSurrogates_eq_iff hk).mp e)]
  have h := key m [] hm
  rw [rereadDict, Dict.ofPairs, h]
  cases (m.get? k).map reread <;> rfl

end Python.JsonDumps

namespace OpenVC.SdJwt

open Python JsonDumps

/-! ## The credential, as it is read back -/

theorem eq_reread_of_loadSegment {v w : Json} {b : Bytes} (hv : Representable v)
    (h : jsonBytes v = .ok b) (hw : loadSegment (Codec.b64urlEncode b) = .ok w) : w = reread v := by
  obtain ⟨s, hs, hb⟩ := jsonBytes_eq_ok.mp h
  simp only [loadSegment, Codec.b64urlDecodePadded_b64urlEncode, bind_eq_ok, orRaise_eq_ok,
    Option.some.injEq] at hw
  obtain ⟨b', rfl, hw⟩ := hw
  have hload := (boundedDepth_eq_ok.mp hw).1
  rw [loadsBytes_dumps hv hs hb] at hload
  exact (Option.some.inj hload).symm

theorem Signed.payload_eq {header payload : Dict} {key : SigningKey} {jwt : Str}
    (s : Signed header payload key jwt) (hp : Representable (.obj payload)) {jws : Jws}
    (h : SdJwt.decodeJws jwt = .ok jws) : jws.payload = rereadDict payload := by
  simp only [SdJwt.decodeJws, decodeSegments, s.segments, bind_eq_ok, recast_eq_ok, orRaise_eq_ok,
    pure_eq_ok, Option.some.injEq] at h
  obtain ⟨_, ⟨_, rfl, _, -, v, hv, _, -, rfl⟩, _, -, payload', hobj, _, -, rfl⟩ := h
  have hread := eq_reread_of_loadSegment hp s.payloadOk hv
  have hobj' := Json.obj?_eq_some.mp hobj
  dsimp only at hobj'
  rw [hobj', reread] at hread
  exact Json.obj.inj hread

section Issued

variable {C : Crypto} {random : TokenBytes} {suite : HashingSuite C} {key : SigningKey}
  {a : Issuance} {full : Dict} {token : Str}

theorem nodup_keys_withDigests {plain : Dict} {digests : List Str} {hashName : Str}
    (h : plain.keys.Nodup) : (withDigests plain digests hashName).keys.Nodup := by
  unfold withDigests
  split
  · exact h
  · exact Dict.nodup_keys_set (Dict.nodup_keys_set h)

theorem Issued.payload_representable (s : Issued C random suite key a full token)
    (hfull : Representable (.obj full)) :
    Representable (.obj (withDigests s.st.payload s.digests suite.hashName)) := by
  have hplain : ∀ p ∈ s.st.payload, IsStr p.1 ∧ Representable p.2 := fun p hp =>
    representableMembers_iff.mp hfull p (s.discloses.kept.subset hp)
  have hlit : ∀ k ∈ [lit "_sd", lit "_sd_alg"], ∀ c ∈ k, c < 128 := by decide
  have hstr : ∀ {t : Str}, (∀ c ∈ t, c < 128) → IsStr t := fun ht =>
    (stable_str.mp (stable_ascii ht)).1
  refine representableMembers_iff.mpr fun p hp => ?_
  unfold withDigests at hp
  split at hp
  · exact hplain p hp
  · rcases mem_set hp with rfl | hp
    · exact ⟨hstr (hlit _ (by simp)), hstr (isAscii_hashName suite)⟩
    · rcases mem_set hp with rfl | hp
      · refine ⟨hstr (hlit _ (by simp)), representableList_iff.mpr fun v hv => ?_⟩
        obtain ⟨d, hd, rfl⟩ := List.mem_map.mp hv
        exact hstr (s.isAscii_digests d ((List.perm_insertionSort _ _).mem_iff.mp hd))
      · exact hplain p hp

/-- A claim that is not disclosable stays in the payload. -/
theorem Issued.get?_plain (s : Issued C random suite key a full token) (hfull : full.keys.Nodup)
    {k : Str} {v : Json} (hk : k ∉ a.disclosable) (hv : full.get? k = some v) :
    s.st.payload.get? k = some v := by
  have hmem := s.discloses.split.mem_iff.mp (Dict.mem_of_get?_eq_some hv)
  refine Dict.get?_of_mem (hfull.sublist (s.discloses.kept.map _)) ?_
  rcases List.mem_append.mp hmem with hmem | hmem
  · exact hmem
  · obtain ⟨e, he, hclaim⟩ := List.mem_map.mp hmem
    refine absurd ?_ hk
    rw [← s.discloses.names, ← (Prod.mk.inj hclaim).1]
    exact List.mem_map_of_mem he

theorem Issued.cnf_not_mem (s : Issued C random suite key a full token) :
    lit "cnf" ∉ a.disclosable := by
  intro hmem
  obtain ⟨vcdm, h⟩ := s.refused
  have := each_eq_ok.mp h _ hmem
  rw [raiseIf_eq_ok] at this
  cases this

theorem Issued.digests_eq_nil_iff (s : Issued C random suite key a full token) :
    s.digests = [] ↔ a.disclosable = [] ∧ a.decoys ≤ 0 := by
  rw [s.digests_eq, List.append_eq_nil_iff, List.map_eq_nil_iff, decoyDigests, List.map_eq_nil_iff,
    List.range_eq_nil, ← s.discloses.names, List.map_eq_nil_iff]
  exact and_congr_right fun _ => Int.toNat_eq_zero

/-- The `_sd_alg` of the signed payload, from what `issue` was given. -/
theorem Issued.sdAlg_payload (s : Issued C random suite key a full token) :
    sdAlg (withDigests s.st.payload s.digests suite.hashName) =
      if a.disclosable = [] ∧ a.decoys ≤ 0 then sdAlg full else .str suite.hashName := by
  by_cases hne : s.digests = []
  · have hnil := s.digests_eq_nil_iff.mp hne
    have hentries : s.entries = [] := by
      have := s.discloses.names
      rw [hnil.1, List.map_eq_nil_iff] at this
      exact this
    have hplain : s.st.payload = full := by
      have hsplit := s.discloses.split
      rw [hentries, List.map_nil, List.append_nil] at hsplit
      exact s.discloses.kept.eq_of_length hsplit.length_eq.symm
    rw [if_pos hnil, hne, hplain]
    rfl
  · rw [if_neg fun h => hne (s.digests_eq_nil_iff.mpr h), withDigests, if_neg (by simpa using hne),
      sdAlg, Dict.get?_set, if_pos rfl]
    rfl

end Issued

/-! ## The Key Binding JWT -/

section Binding

variable {I : Interpreter} {C : Crypto} {holder : HashingSuite C} {verifier : Suite}
  {key : SigningKey} {audience nonce sdHash kbJwt : Str} {now : Nat} {q : Rat}

/-- The header that `create_presentation` signs. -/
def kbHeader (key : SigningKey) : Dict := [("typ", .str kbTyp), ("alg", .str key.alg)]

/-- The payload that `create_presentation` signs. -/
def kbPayload (now : Int) (audience nonce sdHash : Str) : Dict :=
  [("iat", .int now), ("aud", .str audience), ("nonce", .str nonce), ("sd_hash", .str sdHash)]

/-- A verifier that requires the binding to its audience and its nonce. -/
def kbPolicy (audience nonce : Str) : Policy :=
  { audience := some audience, nonce := some nonce, requireKeyBinding := true }

theorem isStr_lits : ∀ s ∈ [lit "typ", lit "alg", lit "iat", lit "aud", lit "nonce", lit "sd_hash",
    lit "crit", lit "exp", lit "nbf", kbTyp], ∀ c ∈ s, c < 128 := by decide

theorem isStr_of_ascii {s : Str} (h : ∀ c ∈ s, c < 128) : IsStr s :=
  (stable_str.mp (stable_ascii h)).1

theorem lt_surrogates_of_ascii {s : Str} (h : ∀ c ∈ s, c < 128) : ∀ c ∈ s, c < 0xD800 :=
  fun c hc => (h c hc).trans (by omega)

theorem kbHeader_representable (halg : ∀ c ∈ key.alg, c < 128) :
    Representable (.obj (kbHeader key)) := by
  refine representableMembers_iff.mpr fun p hp => ?_
  simp only [kbHeader, List.mem_cons, List.not_mem_nil, or_false] at hp
  rcases hp with rfl | rfl
  · exact ⟨isStr_of_ascii (isStr_lits _ (by simp)), isStr_of_ascii (isStr_lits _ (by simp))⟩
  · exact ⟨isStr_of_ascii (isStr_lits _ (by simp)), isStr_of_ascii halg⟩

theorem kbPayload_representable {now : Int} (haud : IsStr audience) (hnonce : IsStr nonce)
    (hhash : ∀ c ∈ sdHash, c < 128) : Representable (.obj (kbPayload now audience nonce sdHash)) := by
  refine representableMembers_iff.mpr fun p hp => ?_
  simp only [kbPayload, List.mem_cons, List.not_mem_nil, or_false] at hp
  rcases hp with rfl | rfl | rfl | rfl
  · exact ⟨isStr_of_ascii (isStr_lits _ (by simp)), trivial⟩
  · exact ⟨isStr_of_ascii (isStr_lits _ (by simp)), haud⟩
  · exact ⟨isStr_of_ascii (isStr_lits _ (by simp)), hnonce⟩
  · exact ⟨isStr_of_ascii (isStr_lits _ (by simp)), isStr_of_ascii hhash⟩

theorem jsonBytes_of_dumps {v : Json} {s : Str} (hv : Representable v) (h : dumps v = some s) :
    ∃ b, jsonBytes v = .ok b :=
  ⟨_, jsonBytes_eq_ok.mpr ⟨s, h, encodeUtf8_printable (printable_dumps hv h)⟩⟩

theorem dumpsInt_of_lt {k : Nat} (h : now < 2 ^ k) (hk : k ≤ JsonLoads.maxStrDigits) :
    dumpsInt now = some (Str.ofInt now) := by
  have hlen : (Str.ofNat (now : Int).natAbs).length ≤ JsonLoads.maxStrDigits := by
    refine (Str.length_ofNat_le_iff (by decide)).mpr ?_
    calc (now : Int).natAbs = now := Int.natAbs_natCast now
      _ < 2 ^ k := h
      _ ≤ 10 ^ k := Nat.pow_le_pow_left (by omega) k
      _ ≤ 10 ^ JsonLoads.maxStrDigits := Nat.pow_le_pow_right (by omega) hk
  rw [dumpsInt, if_neg (not_lt.mpr hlen)]

/-- The KB-JWT of a holder whose key signs. -/
theorem signCompact_kb (halg : ∀ c ∈ key.alg, c < 128) (haud : IsStr audience)
    (hnonce : IsStr nonce) (hhash : ∀ c ∈ sdHash, c < 128) (hnow : now < 2 ^ 1024)
    (hsign : ∀ data, ∃ sig, key.sign data = .ok sig) :
    ∃ jwt, signCompact (kbHeader key) (kbPayload now audience nonce sdHash) key = .ok jwt := by
  have hheader : ∃ s, dumps (.obj (kbHeader key)) = some s := ⟨_, rfl⟩
  have hpayload : ∃ s, dumps (.obj (kbPayload now audience nonce sdHash)) = some s := by
    rw [kbPayload, dumps, dumps, dumpsInt_of_lt hnow (by decide)]
    exact ⟨_, rfl⟩
  obtain ⟨s, hs⟩ := hheader
  obtain ⟨b, hb⟩ := jsonBytes_of_dumps (kbHeader_representable halg) hs
  obtain ⟨s', hs'⟩ := hpayload
  obtain ⟨b', hb'⟩ := jsonBytes_of_dumps (kbPayload_representable haud hnonce hhash) hs'
  obtain ⟨sig, hsig⟩ := hsign ((Codec.b64urlEncode b ++ 46 :: Codec.b64urlEncode b').map UInt8.ofNat)
  have hsigned : Signed (kbHeader key) (kbPayload now audience nonce sdHash) key _ :=
    ⟨b, b', sig, hb, hb', hsig, rfl⟩
  exact ⟨_, hsigned.signCompact⟩

/-- The header and the payload of the KB-JWT, as they are read back. -/
theorem decodeJws_kb (s : Signed (kbHeader key) (kbPayload now audience nonce sdHash) key kbJwt)
    (halg : ∀ c ∈ key.alg, c < 128) (haud : IsStr audience) (hnonce : IsStr nonce)
    (hhash : ∀ c ∈ sdHash, c < 128) :
    decodeJws kbJwt = .ok ⟨rereadDict (kbHeader key), rereadDict (kbPayload now audience nonce sdHash),
      s.input, s.signature⟩ := by
  have hflat : ∀ m : Dict, (∀ p ∈ m, p.2.depth = 0) → (Json.obj (rereadDict m)).depth ≤ 1 := by
    intro m hm
    refine (depth_reread_le (.obj m)).trans ?_
    have hzero : Json.depthMembers m = 0 := by
      by_contra hne
      rw [Json.depthMembers_eq] at hne
      obtain ⟨v, hv, hlt⟩ := Json.lt_depthList_iff.mp (Nat.pos_of_ne_zero hne)
      obtain ⟨p, hp, rfl⟩ := List.mem_map.mp hv
      have := hm p hp
      omega
    rw [Json.depth, hzero]
  have hmax : OpenVC.maxDepth = 100 := rfl
  refine s.decodeJws (kbHeader_representable halg) (kbPayload_representable haud hnonce hhash) rfl rfl
    ((hflat _ ?_).trans (by omega)) ((hflat _ ?_).trans (by omega))
  · intro p hp
    simp only [kbHeader, List.mem_cons, List.not_mem_nil, or_false] at hp
    rcases hp with rfl | rfl <;> rfl
  · intro p hp
    simp only [kbPayload, List.mem_cons, List.not_mem_nil, or_false] at hp
    rcases hp with rfl | rfl | rfl | rfl <;> rfl

theorem get?_kbHeader {k : Str} (hk : ∀ c ∈ k, c < 128) :
    (rereadDict (kbHeader key)).get? k = ((kbHeader key).get? k).map reread :=
  get?_rereadDict (show [lit "typ", lit "alg"].Nodup by decide) (lt_surrogates_of_ascii hk)

theorem get?_kbPayload {now : Int} {k : Str} (hk : ∀ c ∈ k, c < 128) :
    (rereadDict (kbPayload now audience nonce sdHash)).get? k =
      ((kbPayload now audience nonce sdHash).get? k).map reread :=
  get?_rereadDict (show [lit "iat", lit "aud", lit "nonce", lit "sd_hash"].Nodup by decide)
    (lt_surrogates_of_ascii hk)

/-- At the clock of its signature, an `iat` is neither old nor in the future. -/
structure AtClock (current : Json) (now : Int) : Prop where
  numeric : isNumericDate (.int now) = true
  notOld : ∀ n, 1 ≤ n → Json.lt (.int n) (Json.sub current (.int now)) = false
  notFuture : ∀ n, 0 ≤ n → Json.lt (.int n) (Json.sub (.int now) current) = false

theorem currentSecond_atClock (hq : I.time = .fin q) (hd : PyFloat.IsDouble q) (hpos : 0 ≤ q) :
    ∃ now : Nat, currentSecond I = .ok now ∧ now < 2 ^ 1024 ∧ AtClock (.float I.time) now := by
  obtain ⟨n, hn, hle, hlt, hmax, hint, hfrac⟩ := hd.trunc hpos
  have hfloat : PyFloat.ofRat ((n : Int) : Rat) = .fin n := by
    rw [Int.cast_natCast]
    exact hint
  have hneg : PyFloat.ofRat ((n : Rat) - q) = .fin (n - q) := by
    have := hfrac.neg_of_nonneg (sub_nonneg.mpr hle)
    rwa [neg_sub] at this
  have hmax' : n < 2 ^ 1024 := by
    refine Nat.cast_lt (α := Rat) |>.mp ?_
    rwa [Nat.cast_pow, Nat.cast_ofNat]
  refine ⟨n, ?_, hmax', ?_, fun k hk => ?_, fun k hk => ?_⟩
  · rw [currentSecond, hq, ← hn]
  · rw [isNumericDate, PyFloat.ofInt, hfloat]
    rfl
  · have hk' : (1 : Rat) ≤ k := by exact_mod_cast hk
    have hsub : Json.sub (.float I.time) (.int n) = .float (.fin (q - n)) := by
      rw [hq]
      change Json.float (PyFloat.sub (.fin q) (PyFloat.ofRat ((n : Int) : Rat))) = _
      rw [hfloat]
      exact congrArg Json.float hfrac
    rw [hsub]
    simp only [Json.lt, Json.num?, PyFloat.lt, decide_eq_false_iff_not, not_lt]
    linarith
  · have hk' : (0 : Rat) ≤ k := by exact_mod_cast hk
    have hsub : Json.sub (.int n) (.float I.time) = .float (.fin (n - q)) := by
      rw [hq]
      change Json.float (PyFloat.sub (PyFloat.ofRat ((n : Int) : Rat)) (.fin q)) = _
      rw [hfloat]
      exact congrArg Json.float hneg
    rw [hsub]
    simp only [Json.lt, Json.num?, PyFloat.lt, decide_eq_false_iff_not, not_lt]
    linarith

theorem checkNumericDates_of_absent {claims : Dict} {names : List Str} {subject : Str}
    (h : ∀ name ∈ names, claims.has name = true → isNumericDate (claims.get name) = true) :
    checkNumericDates claims names subject = .ok () := by
  refine each_eq_ok.mpr fun name hname => raiseIf_eq_ok.mpr ?_
  rw [Bool.and_eq_false_iff, Bool.not_eq_false']
  rcases Bool.eq_false_or_eq_true (claims.has name) with hhas | hhas
  · exact .inr (h name hname hhas)
  · exact .inl hhas

/-- A KB-JWT of `create_presentation`, at its clock, is accepted exactly when the verifier permits
its algorithm, the audience and the nonce were read back, and the hashes agree. -/
theorem checkKbJwt_kb {parts : Parts} {cnf : Json} {hashName : Str} {jwk : Dict} {current : Json}
    {hasher : Bytes → Bytes} {data : Bytes}
    (s : Signed (kbHeader key) (kbPayload now audience nonce sdHash) key parts.kbJwt)
    (halg : ∀ c ∈ key.alg, c < 128) (haud : IsStr audience) (hnonce : IsStr nonce)
    (hne : audience ≠ [] ∧ nonce ≠ []) (hhash : ∀ c ∈ sdHash, c < 128)
    (hclock : AtClock current now) (hcnf : cnfJwk cnf = some jwk)
    (hsig : verifySignature C key.alg jwk s.input s.signature = .ok true)
    (hhasher : hashes C hashName = some hasher)
    (hdata : Codec.encodeAscii (presented parts) = some data) :
    checkKbJwt I C verifier parts cnf hashName (kbPolicy audience nonce) current = .ok true ↔
      key.alg ∈ verifier.algs ∧ hasPair audience = false ∧ hasPair nonce = false ∧
        sdHash = Codec.b64urlEncode (hasher data) := by
  have hdecode := decodeJws_kb s halg haud hnonce hhash
  have hlits := fun k hk => isStr_lits k hk
  have hself : ∀ {t : Str}, (∀ c ∈ t, c < 128) → reread (.str t) = .str t := fun ht =>
    (stable_ascii ht).reread
  have htyp : (rereadDict (kbHeader key)).get "typ" = .str kbTyp := by
    rw [Dict.get, get?_kbHeader (hlits _ (by simp))]
    exact hself (hlits _ (by simp))
  have hkalg : (rereadDict (kbHeader key)).get "alg" = .str key.alg := by
    rw [Dict.get, get?_kbHeader (hlits _ (by simp))]
    exact hself halg
  have hcrit : (rereadDict (kbHeader key)).has "crit" = false := by
    rw [Dict.has, get?_kbHeader (hlits _ (by simp))]
    rfl
  have hiat : (rereadDict (kbPayload now audience nonce sdHash)).get "iat" = .int now := by
    rw [Dict.get, get?_kbPayload (hlits _ (by simp))]
    rfl
  have hkaud : (rereadDict (kbPayload now audience nonce sdHash)).get "aud" =
      .str (JsonLoads.joinSurrogates audience) := by
    rw [Dict.get, get?_kbPayload (hlits _ (by simp))]
    rfl
  have hknonce : (rereadDict (kbPayload now audience nonce sdHash)).get "nonce" =
      .str (JsonLoads.joinSurrogates nonce) := by
    rw [Dict.get, get?_kbPayload (hlits _ (by simp))]
    rfl
  have hkhash : (rereadDict (kbPayload now audience nonce sdHash)).get "sd_hash" = .str sdHash := by
    rw [Dict.get, get?_kbPayload (hlits _ (by simp))]
    exact hself hhash
  have hnexp : (rereadDict (kbPayload now audience nonce sdHash)).has "exp" = false := by
    rw [Dict.has, get?_kbPayload (hlits _ (by simp))]
    rfl
  have hnnbf : (rereadDict (kbPayload now audience nonce sdHash)).has "nbf" = false := by
    rw [Dict.has, get?_kbPayload (hlits _ (by simp))]
    rfl
  have hleeway := verifier.leeway_ok
  have hfresh : checkIatFreshness (.int now) defaultKbMaxAgeS verifier.leeway current "KB-JWT" =
      .ok (Json.int now).trunc := by
    simp only [checkIatFreshness, bind_eq_ok, raiseIf_eq_ok, pure_eq_ok, leewaySeconds_eq_ok]
    refine ⟨_, ⟨hleeway, rfl⟩, (), rfl, (), by rw [hclock.numeric]; rfl, (), hclock.notOld _ ?_, (),
      hclock.notFuture _ hleeway.1, trivial⟩
    have hage : defaultKbMaxAgeS = 300 := rfl
    omega
  have hnumeric : ∀ names : List Str, (∀ name ∈ names, name ∈ [lit "exp", lit "nbf", lit "iat"]) →
      checkNumericDates (rereadDict (kbPayload now audience nonce sdHash)) names "KB-JWT" = .ok () := by
    intro names hnames
    refine checkNumericDates_of_absent fun name hname hhas => ?_
    have hmem := hnames name hname
    simp only [List.mem_cons, List.not_mem_nil, or_false] at hmem
    rcases hmem with rfl | rfl | rfl
    · rw [hnexp] at hhas
      cases hhas
    · rw [hnnbf] at hhas
      cases hhas
    · rw [hiat]
      exact hclock.numeric
  have htemporal : checkJwtTemporal I (rereadDict (kbPayload now audience nonce sdHash))
      verifier.leeway "KB-JWT" (some current) true = .ok false := by
    have hexp : expPassed (rereadDict (kbPayload now audience nonce sdHash)) verifier.leeway
        current = false := by rw [expPassed, hnexp, Bool.false_and]
    have hnbf : isFuture (rereadDict (kbPayload now audience nonce sdHash)) "nbf" verifier.leeway
        current = false := by rw [isFuture, hnnbf, Bool.false_and]
    have hfut : isFuture (rereadDict (kbPayload now audience nonce sdHash)) "iat" verifier.leeway
        current = false := by rw [isFuture, hiat, hclock.notFuture _ hleeway.1, Bool.and_false]
    simp only [checkJwtTemporal, bind_eq_ok, raiseIf_eq_ok, pure_eq_ok, leewaySeconds_eq_ok,
      Option.getD_some]
    refine ⟨_, ⟨hleeway, rfl⟩, (), hnumeric _ (by simp), (), ?_, (), hnbf, (), hfut, hexp⟩
    rw [hexp]
    rfl
  have hstr : ∀ {x y : Str}, Json.pyEq (.str x) (.str y) = true ↔ x = y := fun {x y} => by
    rw [Json.pyEq_str_right, Json.str.injEq]
  have haudEq : (!Json.pyEq (.str (JsonLoads.joinSurrogates audience)) (.str audience)) = false ↔
      hasPair audience = false := by
    rw [Bool.not_eq_false', hstr, joinSurrogates_eq_self_iff]
  have hnonceEq : (!Json.pyEq (.str (JsonLoads.joinSurrogates nonce)) (.str nonce)) = false ↔
      hasPair nonce = false := by
    rw [Bool.not_eq_false', hstr, joinSurrogates_eq_self_iff]
  have hhashEq : (!Json.pyEq (.str sdHash) (.str (Codec.b64urlEncode (hasher data)))) = false ↔
      sdHash = Codec.b64urlEncode (hasher data) := by
    rw [Bool.not_eq_false', hstr]
  have hpermitted : ∀ alg, VcJwt.permittedAlg verifier.algs (rereadDict (kbHeader key)) = some alg ↔
      key.alg ∈ verifier.algs ∧ alg = key.alg := by
    intro alg
    rw [VcJwt.permittedAlg, hkalg, Option.filter_eq_some_iff]
    constructor
    · rintro ⟨h, hmem⟩
      cases h
      exact ⟨by simpa using hmem, rfl⟩
    · rintro ⟨hmem, rfl⟩
      exact ⟨rfl, by simpa using hmem⟩
  obtain ⟨hne, hne'⟩ := hne
  have hgiven : (nonEmpty (some audience) && nonEmpty (some nonce)) = true := by
    simp [nonEmpty, hne, hne']
  rw [kbPolicy]
  simp only [checkKbJwt, bind_eq_ok, raiseIf_eq_ok, orRaise_eq_ok, pure_eq_ok, recast_eq_ok,
    hdecode, hcnf, hhasher, hdata, Except.ok.injEq, Option.some.injEq, Option.any_some]
  constructor
  · rintro ⟨⟨⟩, -, ⟨⟩, -, kb, rfl, ⟨⟩, -, alg, hper, ⟨⟩, -, _, -, ⟨⟩, -, _, -, ⟨⟩, -, _, -, ⟨⟩, ha,
      ⟨⟩, hn, _, rfl, _, rfl, ⟨⟩, hs, -⟩
    rw [hkaud] at ha
    rw [hknonce] at hn
    rw [hkhash] at hs
    exact ⟨((hpermitted alg).mp hper).1, haudEq.mp ha, hnonceEq.mp hn, hhashEq.mp hs⟩
  · rintro ⟨hper, ha, hn, hs⟩
    refine ⟨(), rfl, (), by rw [hgiven]; rfl, _, rfl, (), ?_, key.alg, (hpermitted _).mpr ⟨hper, rfl⟩,
      (), raiseIf_eq_ok.mpr hcrit, jwk, rfl, (), checkSignature_eq_ok.mpr hsig,
      (Json.int now).trunc, ?_, (), hnumeric _ (by simp), _, htemporal, (), ?_, (), ?_, hasher, rfl,
      data, rfl, (), ?_, trivial⟩
    · rw [htyp, Bool.not_eq_false', hstr]
    · rw [hiat]
      exact hfresh
    · rw [hkaud]
      exact haudEq.mpr ha
    · rw [hknonce]
      exact hnonceEq.mpr hn
    · rw [hkhash]
      exact hhashEq.mpr hs

end Binding

/-! ## The presentation -/

section Presentation

variable {I : Interpreter} {C : Crypto} {random : TokenBytes} {issuer holder : HashingSuite C}
  {verifier : Suite} {issuerKey key : SigningKey} {a : Issuance} {full jwk : Dict}
  {sdJwt presentation credential audience nonce kb : Str} {parts : Parts}

theorem verify_keyBound_iff (hkb : parts.kbJwt ≠ []) (hp : split presentation = .ok parts)
    (hc : split credential = .ok { parts with kbJwt := [] }) :
    (∃ v, verify I C verifier presentation jwk (kbPolicy audience nonce) true = .ok v ∧
      v.keyBound = true) ↔
    (∃ v, verify I C verifier credential jwk { audience := some audience } true = .ok v) ∧
    ∃ jws typ iss hashName, openIssuerJwt C verifier parts.issuerJwt jwk = .ok (jws, typ) ∧
      issAndHash C jws = .ok (iss, hashName) ∧
      checkKbJwt I C verifier parts (jws.payload.get "cnf") hashName (kbPolicy audience nonce)
        (.float I.time) = .ok true := by
  have hempty : parts.kbJwt.isEmpty = false := by simpa using hkb
  constructor
  · rintro ⟨v, hv, -⟩
    obtain ⟨run⟩ := verify_eq_ok.mp hv
    obtain rfl : parts = run.parts := Except.ok.inj (hp.symm.trans run.split)
    obtain ⟨hiss, hexp, hbound⟩ := checkEnvelope_eq_ok.mp run.checkedEnvelope
    refine ⟨⟨{ v with keyBound := false }, verify_eq_ok.mpr ⟨?_⟩⟩, run.jws, v.typ, _, _, run.signed,
      hiss, ?_⟩
    · exact
        { parts := { run.parts with kbJwt := [] }, jws := run.jws,
          envelope := { run.envelope with keyBound := false }, placed := run.placed,
          processedExpired := run.processedExpired, windowExpired := run.windowExpired,
          maxAge := run.maxAge, split := hc, signed := run.signed,
          checkedEnvelope := checkEnvelope_eq_ok.mpr ⟨hiss, hexp, rfl⟩, processed := run.processed,
          notRefused := run.notRefused, w3c := run.w3c, hasVct := run.hasVct,
          temporal := run.temporal, audience := run.audience, window := run.window,
          expectedVct := run.expectedVct, akaVcts := run.akaVcts, binding := rfl,
          issuer := run.issuer, vct := run.vct, confirmation := run.confirmation,
          expired := run.expired, vcdm := run.vcdm }
    · have hrequired : (kbPolicy audience nonce).requireKeyBinding = true := rfl
      rw [hrequired, if_pos rfl, verifyKeyBinding] at hbound
      simp only [bind_eq_ok, raiseIf_eq_ok, hempty] at hbound
      obtain ⟨⟨⟩, -, ⟨⟩, -, hcheck⟩ := hbound
      rw [if_neg (by simp)] at hcheck
      rw [checkKbJwt_eq_true hcheck] at hcheck
      exact hcheck
  · rintro ⟨⟨v, hv⟩, jws, typ, iss, hashName, hopen, hiss', hcheck⟩
    obtain ⟨run⟩ := verify_eq_ok.mp hv
    obtain ⟨runParts, runJws, envelope, placed, pe, we, hage, hsplit, hsigned, henv, hproc, hrefuse,
      hw3c, hvct, htemp, haud, hwin, hexpv, haka, hbind, hi, hvc, hconf, hex, hvcdm⟩ := run
    obtain rfl : { parts with kbJwt := [] } = runParts := Except.ok.inj (hc.symm.trans hsplit)
    obtain ⟨hiss, hexp, -⟩ := checkEnvelope_eq_ok.mp henv
    obtain ⟨rfl, rfl⟩ := Prod.mk.inj (Except.ok.inj (hsigned.symm.trans hopen))
    obtain ⟨rfl, rfl⟩ := Prod.mk.inj (Except.ok.inj (hiss.symm.trans hiss'))
    have hbound : verifyKeyBinding I C verifier parts (runJws.payload.get "cnf") envelope.hashName
        (kbPolicy audience nonce) true (.float I.time) = .ok true := by
      rw [verifyKeyBinding]
      simp only [bind_eq_ok, raiseIf_eq_ok, hempty]
      exact ⟨(), rfl, (), rfl, hcheck⟩
    refine ⟨{ v with keyBound := true }, verify_eq_ok.mpr ⟨?_⟩, rfl⟩
    exact
      { parts, jws := runJws, envelope := { envelope with keyBound := true }, placed,
        processedExpired := pe, windowExpired := we, maxAge := hage, split := hp, signed := hsigned,
        checkedEnvelope := checkEnvelope_eq_ok.mpr ⟨hiss, hexp, hbound⟩, processed := hproc,
        notRefused := hrefuse, w3c := hw3c, hasVct := hvct, temporal := htemp, audience := haud,
        window := hwin, expectedVct := hexpv, akaVcts := haka, binding := rfl, issuer := hi,
        vct := hvc, confirmation := hconf, expired := hex, vcdm := hvcdm }

theorem b64urlEncode_ne_nil {b : Bytes} (h : b ≠ []) : Codec.b64urlEncode b ≠ [] := by
  intro hnil
  have hdecode := Codec.b64urlDecodePadded_b64urlEncode b
  rw [hnil] at hdecode
  exact h (Option.some.inj hdecode).symm

/-- A disclosure is a text that the split keeps. -/
theorem Issued.text_part (s : Issued C random issuer issuerKey a full sdJwt)
    (hfull : Representable (.obj full)) {e : Disclosed} (he : e ∈ s.entries) :
    e.text ≠ [] ∧ 126 ∉ e.text ∧ ∀ c ∈ e.text, c < 128 := by
  obtain ⟨⟨b, hsalt⟩, data, hdata, htext⟩ := s.discloses.made e he
  obtain ⟨hname, hvalue⟩ := representableMembers_iff.mp hfull _ (s.claim_mem he)
  have hparsed : Representable (.arr e.parsed) := by
    refine ⟨?_, hname, hvalue, trivial⟩
    rw [hsalt]
    exact isStr_of_ascii fun c hc => (mem_b64urlEncode hc).2.2
  obtain ⟨t, ht, hb⟩ := jsonBytes_eq_ok.mp hdata
  obtain ⟨c, t', rfl, -⟩ := dumps_head hparsed ht
  rw [encodeUtf8_printable (printable_dumps hparsed ht)] at hb
  have hne : data ≠ [] := by
    rintro rfl
    cases hb
  rw [htext]
  exact ⟨b64urlEncode_ne_nil hne, tilde_not_mem_b64urlEncode _, fun c hc => (mem_b64urlEncode hc).2.2⟩

theorem Issued.split_token (s : Issued C random issuer issuerKey a full sdJwt) (kb : Str)
    (hfull : Representable (.obj full)) (hkb : 126 ∉ kb) :
    split (sdJwt ++ kb) = .ok ⟨s.jwt, s.entries.map Disclosed.text, kb⟩ := by
  have hparts : ∀ d ∈ s.entries.map Disclosed.text, d ≠ [] ∧ 126 ∉ d := by
    intro d hd
    obtain ⟨e, he, rfl⟩ := List.mem_map.mp hd
    exact ⟨(s.text_part hfull he).1, (s.text_part hfull he).2.1⟩
  have hsplit := split_presentationOf s.signed.tilde_not_mem hparts hkb
  rw [presentationOf, ← List.cons_append, ← List.append_assoc, ← s.text] at hsplit
  exact hsplit

theorem Issued.isAscii_token (s : Issued C random issuer issuerKey a full sdJwt)
    (hfull : Representable (.obj full)) : ∀ c ∈ sdJwt, c < 128 := by
  rw [s.text]
  intro c hc
  rcases List.mem_append.mp hc with hc | hc
  · exact s.signed.isAscii c hc
  · rcases List.mem_cons.mp hc with rfl | hc
    · omega
    · obtain ⟨d, hd, hc⟩ := List.mem_flatMap.mp hc
      obtain ⟨e, he, rfl⟩ := List.mem_map.mp hd
      rcases List.mem_append.mp hc with hc | hc
      · exact (s.text_part hfull he).2.2 c hc
      · rw [List.mem_singleton.mp hc]
        omega

/-- The digests of the three algorithms have their three sizes. -/
def DigestSizes (C : Crypto) : Prop := ∀ data, (C.sha256 data).length = 32 ∧
  (C.sha384 data).length = 48 ∧ (C.sha512 data).length = 64

/-- Of two supported algorithms, only one gives a digest. -/
theorem hashName_eq_iff (hsizes : DigestSizes C) {name : Str} {hasher : Bytes → Bytes}
    (h : hashes C name = some hasher) (data : Bytes) :
    holder.hasher data = hasher data ↔ holder.hashName = name := by
  constructor
  · intro heq
    obtain ⟨h256, h384, h512⟩ := hsizes data
    have hlen := congrArg List.length heq
    have hok := holder.hash_ok
    unfold hashes at h hok
    split_ifs at h with h1 h2 h3 <;> split_ifs at hok with g1 g2 g3 <;>
      obtain rfl := Option.some.inj h <;> rw [← Option.some.inj hok] at hlen
    · exact g1.trans h1.symm
    · omega
    · omega
    · omega
    · exact g2.trans h2.symm
    · omega
    · omega
    · omega
    · exact g3.trans h3.symm
  · intro heq
    have hok := holder.hash_ok
    rw [heq, h] at hok
    rw [Option.some.inj hok]

theorem Issued.presented_parts (s : Issued C random issuer issuerKey a full sdJwt) (kb : Str) :
    presented ⟨s.jwt, s.entries.map Disclosed.text, kb⟩ = sdJwt := by
  rw [presented]
  exact s.text.symm

/-- The key that an issued credential confirms. -/
theorem Issued.cnfJwk_eq {now : Int} {holderJwk : Dict} {jws : Jws}
    (s : Issued C random issuer issuerKey a (a.full now) sdJwt) (hkeys : (a.full now).keys.Nodup)
    (hjwk : a.holderJwk = some holderJwk)
    (hpayload : jws.payload = rereadDict (withDigests s.st.payload s.digests issuer.hashName)) :
    cnfJwk (jws.payload.get "cnf") = some (rereadDict holderJwk) := by
  have hfull : (a.full now).get? "cnf" = some (.obj [("jwk", .obj holderJwk)]) := by
    rw [Issuance.full, hjwk]
    dsimp only
    rw [Dict.get?_set, if_pos rfl]
  have hplain := s.get?_plain hkeys s.cnf_not_mem hfull
  have hget : (withDigests s.st.payload s.digests issuer.hashName).get? "cnf" =
      some (.obj [("jwk", .obj holderJwk)]) := by
    unfold withDigests
    split
    · exact hplain
    · rw [Dict.get?_set, if_neg (by decide), Dict.get?_set, if_neg (by decide)]
      exact hplain
  have hnodup : (withDigests s.st.payload s.digests issuer.hashName).keys.Nodup :=
    nodup_keys_withDigests (hkeys.sublist (s.discloses.kept.map _))
  have hname : ∀ c ∈ lit "cnf", c < 0xD800 := by decide
  have hcnf : jws.payload.get "cnf" = reread (.obj [("jwk", .obj holderJwk)]) := by
    rw [hpayload, Dict.get, get?_rereadDict hnodup hname, hget]
    rfl
  rw [hcnf]
  rfl

/-- The hash that `verify` reads from the credential is the holder's exactly when the credential
names it. -/
theorem Issued.hashName_iff {jws : Jws} {iss hashName : Str}
    (s : Issued C random issuer issuerKey a full sdJwt) (hkeys : full.keys.Nodup)
    (hpayload : jws.payload = rereadDict (withDigests s.st.payload s.digests issuer.hashName))
    (hiss : issAndHash C jws = .ok (iss, hashName)) :
    holder.hashName = hashName ↔
      (if a.disclosable = [] ∧ a.decoys ≤ 0 then sdAlg full else .str issuer.hashName) =
        .str holder.hashName := by
  have halg := issAndHash_hashName hiss
  have hnodup : (withDigests s.st.payload s.digests issuer.hashName).keys.Nodup :=
    nodup_keys_withDigests (hkeys.sublist (s.discloses.kept.map _))
  have hname : ∀ c ∈ lit "_sd_alg", c < 0xD800 := by decide
  have hread : sdAlg jws.payload =
      reread (sdAlg (withDigests s.st.payload s.digests issuer.hashName)) := by
    have hget := get?_rereadDict hnodup hname
    rw [hpayload, sdAlg, hget, sdAlg]
    cases Dict.get? (withDigests s.st.payload s.digests issuer.hashName) (lit "_sd_alg") <;> rfl
  rw [halg, s.sdAlg_payload] at hread
  generalize (if a.disclosable = [] ∧ a.decoys ≤ 0 then sdAlg full
    else Json.str issuer.hashName) = named at hread ⊢
  have hascii := lt_surrogates_of_ascii (isAscii_hashName holder)
  cases named with
  | str t =>
    rw [reread, Json.str.injEq] at hread
    rw [hread, Json.str.injEq, eq_comm, joinSurrogates_eq_iff hascii]
  | null | bool | int | float | arr | obj => cases hread

/-- What an issued credential verifies to when its holder presents it. At one clock, the holder's
presentation of a credential that was issued for their key is accepted as key bound exactly when the
credential alone is accepted, the verifier permits the holder's algorithm, the hash that the holder's
suite is configured with is the one the credential names, or the default where it names none, and the
audience and the nonce are read back as they were given. -/
theorem createPresentation_accepted_iff {now : Int} {q : Rat} {holderJwk : Dict}
    (hclock : I.time = .fin q) (hdouble : PyFloat.IsDouble q) (hepoch : 0 ≤ q)
    (hnow : currentSecond I = .ok now) (hsizes : DigestSizes C)
    (hissue : issue I C random issuer issuerKey a = .ok sdJwt)
    (hkeys : (a.full now).keys.Nodup) (hclaims : Representable (.obj (a.full now)))
    (hjwk : a.holderJwk = some holderJwk) (hpermit : key.alg ∈ holder.algs)
    (hmatch : ∀ data, ∃ sig, key.sign data = .ok sig ∧
      verifySignature C key.alg (rereadDict holderJwk) data sig = .ok true)
    (haud : IsStr audience) (hnonce : IsStr nonce) (hne : audience ≠ [] ∧ nonce ≠ []) :
    ∃ presentation, createPresentation I holder sdJwt key audience nonce = .ok presentation ∧
      ((∃ v, verify I C verifier presentation jwk (kbPolicy audience nonce) true = .ok v ∧
          v.keyBound = true) ↔
        (∃ v, verify I C verifier sdJwt jwk { audience := some audience } true = .ok v) ∧
        key.alg ∈ verifier.algs ∧
        (if a.disclosable = [] ∧ a.decoys ≤ 0 then sdAlg (a.full now) else .str issuer.hashName) =
          .str holder.hashName ∧
        hasPair audience = false ∧ hasPair nonce = false) := by
  obtain ⟨second, hsecond, hmax, hat⟩ := currentSecond_atClock hclock hdouble hepoch
  obtain rfl : now = second := Except.ok.inj (hnow.symm.trans hsecond)
  obtain ⟨s⟩ := issued_of_issue hnow hkeys hissue
  have halg := isAscii_of_mem_algs hpermit
  have hdata := encodeAscii_of_lt (s.isAscii_token hclaims)
  set data := sdJwt.map UInt8.ofNat
  have hhash : ∀ c ∈ Codec.b64urlEncode (holder.hasher data), c < 128 := fun c hc =>
    (mem_b64urlEncode hc).2.2
  obtain ⟨kbJwt, hkbJwt⟩ : ∃ kbJwt, signCompact (kbHeader key) (kbPayload second audience nonce
      (Codec.b64urlEncode (holder.hasher data))) key = .ok kbJwt :=
    signCompact_kb halg haud hnonce hhash hmax fun data => (hmatch data).imp fun sig h => h.1
  obtain ⟨signed⟩ := signCompact_eq_ok hkbJwt
  have htext : kbJwt ≠ [] := by
    intro hnil
    exact absurd (signed.text.symm.trans hnil) (by simp)
  have hsplit := s.split_token kbJwt hclaims signed.tilde_not_mem
  have hsplit' := s.split_token [] hclaims List.not_mem_nil
  rw [List.append_nil] at hsplit'
  refine ⟨sdJwt ++ kbJwt, ?_, ?_⟩
  · have hdata' : Codec.encodeAscii (presented ⟨s.jwt, s.entries.map Disclosed.text, []⟩) =
        some data := by
      rw [s.presented_parts]
      exact hdata
    simp only [createPresentation, bind_eq_ok, raiseIf_eq_ok, orRaise_eq_ok, pure_eq_ok]
    refine ⟨(), by simpa using hpermit, _, hsplit', data, hdata', second, hnow, kbJwt, hkbJwt, ?_⟩
    rw [s.presented_parts]
  · have hsig : verifySignature C key.alg (rereadDict holderJwk) signed.input signed.signature =
        .ok true := by
      obtain ⟨sig, hsign, hverify⟩ := hmatch signed.input
      have hsame : signed.signature = sig := Except.ok.inj (signed.signed.symm.trans hsign)
      rw [hsame]
      exact hverify
    have hdata' : Codec.encodeAscii (presented ⟨s.jwt, s.entries.map Disclosed.text, kbJwt⟩) =
        some data := by
      rw [s.presented_parts]
      exact hdata
    have hcheck : ∀ {jws : Jws} {typ : Option Str} {iss hashName : Str},
        openIssuerJwt C verifier s.jwt jwk = .ok (jws, typ) →
        issAndHash C jws = .ok (iss, hashName) →
        (checkKbJwt I C verifier ⟨s.jwt, s.entries.map Disclosed.text, kbJwt⟩
            (jws.payload.get "cnf") hashName (kbPolicy audience nonce) (.float I.time) = .ok true ↔
          key.alg ∈ verifier.algs ∧
          (if a.disclosable = [] ∧ a.decoys ≤ 0 then sdAlg (a.full second)
            else .str issuer.hashName) = .str holder.hashName ∧
          hasPair audience = false ∧ hasPair nonce = false) := by
      intro jws typ iss hashName hopen hiss
      have hpayload := s.signed.payload_eq (s.payload_representable hclaims)
        (openIssuerJwt_eq_ok hopen).1
      have hcnf := s.cnfJwk_eq hkeys hjwk hpayload
      obtain ⟨hasher, hhasher⟩ : ∃ hasher, hashes C hashName = some hasher := by
        simp only [issAndHash, bind_eq_ok, orRaise_eq_ok, pure_eq_ok, Prod.mk.injEq] at hiss
        obtain ⟨_, -, name, hname, -, rfl⟩ := hiss
        exact Option.isSome_iff_exists.mp (Option.filter_eq_some_iff.mp hname).2
      have hkb : checkKbJwt I C verifier ⟨s.jwt, s.entries.map Disclosed.text, kbJwt⟩
          (jws.payload.get "cnf") hashName (kbPolicy audience nonce) (.float I.time) = .ok true ↔
          key.alg ∈ verifier.algs ∧ hasPair audience = false ∧ hasPair nonce = false ∧
            Codec.b64urlEncode (holder.hasher data) = Codec.b64urlEncode (hasher data) :=
        checkKbJwt_kb signed halg haud hnonce hne hhash hat hcnf hsig hhasher hdata'
      have hhashes : Codec.b64urlEncode (holder.hasher data) = Codec.b64urlEncode (hasher data) ↔
          (if a.disclosable = [] ∧ a.decoys ≤ 0 then sdAlg (a.full second)
            else .str issuer.hashName) = .str holder.hashName := by
        rw [Codec.b64urlEncode_injective.eq_iff, hashName_eq_iff hsizes hhasher,
          s.hashName_iff hkeys hpayload hiss]
      rw [hkb, hhashes]
      exact and_congr_right fun _ => ⟨fun h => ⟨h.2.2, h.1, h.2.1⟩, fun h => ⟨h.2.1, h.2.2, h.1⟩⟩
    rw [verify_keyBound_iff htext hsplit hsplit']
    refine and_congr_right ?_
    rintro ⟨v, hv⟩
    obtain ⟨run⟩ := verify_eq_ok.mp hv
    have hparts := Except.ok.inj (hsplit'.symm.trans run.split)
    have hopen := run.signed
    rw [← hparts] at hopen
    obtain ⟨hiss, -, -⟩ := checkEnvelope_eq_ok.mp run.checkedEnvelope
    constructor
    · rintro ⟨jws, typ, iss, hashName, hopen', hiss', hkb⟩
      exact (hcheck hopen' hiss').mp hkb
    · intro h
      exact ⟨run.jws, v.typ, _, _, hopen, hiss, (hcheck hopen hiss).mpr h⟩

end Presentation

/-! ## A credential without disclosures -/

/-- The holder's public key. -/
def boundHolderJwk : Dict :=
  [("kty", .str "OKP"), ("crv", .str "Ed25519"),
    ("x", .str (lit "Kay64UG8yvCyLhqU000LxzYeUm0L_hLIl5S8kyKWbdc"))]

/-- Three claims and the holder's key, nothing disclosable. -/
def plainIssuance : Issuance :=
  { claims := [("iss", .str "i"), ("vct", .str "v"), ("iat", .int 1)], holderJwk := some boundHolderJwk }

/-- The signatures of the holder over the two Key Binding JWTs, with SHA-256 and with SHA-384. -/
def holderSignatures : List (Str × Nat × Nat) :=
  [(List.flatMap lit
    ["eyJ0eXAiOiJrYitqd3QiLCJhbGciOiJFZERTQSJ9.eyJpYXQiOjE4MDAwMDAwMDA",
     "sImF1ZCI6InJwIiwibm9uY2UiOiJuLTEiLCJzZF9oYXNoIjoiMWlMRnV2cE1EN3d",
     "UaGc5Y1d4dVFsVEYyTl91dFp0SG1MemI4ZDI4T190RSJ9"],
    0x95bf6e3554e4ea52dd7ca8510c7923d9a15b84cde6cd9fc0714278a866664397,
    0x67e0f12a1ab8ae9b7d93ebe150b83ed6126a2650ad789c47ff69d44708d2a80b),
   (List.flatMap lit
     ["eyJ0eXAiOiJrYitqd3QiLCJhbGciOiJFZERTQSJ9.eyJpYXQiOjE4MDAwMDAwMDA",
      "sImF1ZCI6InJwIiwibm9uY2UiOiJuLTEiLCJzZF9oYXNoIjoiZHV5VkJ4NzQ5TU9",
      "HQTlaeVJXUGg0MDMzdUJ4TTNTNTRZMXFMbElhb2dmeXNMWDZQX3BvRWhDVGhMSVd",
      "rXzhTSSJ9"],
    0xa103f8f7dd7859e79e57b039cbb03bd89e00a3406a14035e939019704c03e0e0,
    0x77eff969bff045983a46ac1c974781c61b10e40a95fc28ddcc03aca7ae48ce0c)]

/-- The holder's signature of a message. -/
def holderSign (message : Bytes) : Bytes :=
  match holderSignatures.find? fun row => Codec.encodeAscii row.1 == some message with
  | some row => Codec.intToFixed row.2.1 32 ++ Codec.intToFixed row.2.2 32
  | none => List.replicate 64 0

/-- The signature of the issuer over its credential. -/
def plainSignature : Bytes :=
  Codec.intToFixed 0xfd276f0753b8af190879fa30e1ef30e7e903af0fcac53f6eb01b79a658f40b0b 32 ++
    Codec.intToFixed 0xafe904d3ca21d4044a3fe62ddf4e2a68bf48de8b7b95c5e55f01184e1beb2709 32

/-- The SHA-384 digest of the credential. -/
def plainDigest : Bytes :=
  Codec.intToFixed 0x76ec95071ef8f4c38603d6724563e1e34df7b81c4cdd2e78 24 ++
    Codec.intToFixed 0x635a8b9486a881fcac2d7e8ffe9a048424e12c85a4ffc488 24

/-- The primitives on these inputs: SHA-256, the SHA-384 digest of the credential, and the signatures
of the two keys. -/
def plainCrypto : Crypto :=
  { Crypto.ofTable [] with
    sha384 := fun _ => plainDigest
    sha512 := fun _ => List.replicate 64 0
    ed25519Verify := fun key message signature =>
      if key = Codec.intToFixed 0x03a107bff3ce10be1d70dd18e74bc09967e4d6309ba50d5f1ddc8664125531b8 32
      then signature == plainSignature else signature == holderSign message }

/-- A suite configured with SHA-256, and one configured with SHA-384. -/
def plainSuite (sha384 : Bool) : HashingSuite plainCrypto :=
  if sha384 then
    { defaultSuite with hashName := "sha-384", hasher := plainCrypto.sha384, hash_ok := rfl }
  else { defaultSuite with hashName := "sha-256", hasher := plainCrypto.sha256, hash_ok := rfl }

/-- The issuer's key. -/
def plainIssuerKey : SigningKey := ⟨"EdDSA", "k", fun _ => .ok plainSignature⟩

/-- The holder's key. -/
def plainHolderKey : SigningKey := ⟨"EdDSA", "h", fun message => .ok (holderSign message)⟩

/-- With one suite configured with SHA-384 the presentation is refused: the credential has no digests,
so it does not name the hash, and the verifier assumes SHA-256. -/
theorem createPresentation_refused_sha384 :
    ∃ sdJwt presentation, issue (.atSecond 1800000000 []) plainCrypto givenRandom (plainSuite true)
        plainIssuerKey plainIssuance = .ok sdJwt ∧
      (∃ v, verify (.atSecond 1800000000 []) plainCrypto (plainSuite true).toSuite sdJwt annJwk
        { audience := some "rp" } true = .ok v) ∧
      createPresentation (.atSecond 1800000000 []) (plainSuite true) sdJwt plainHolderKey "rp" "n-1" =
        .ok presentation ∧
      ∀ v, verify (.atSecond 1800000000 []) plainCrypto (plainSuite true).toSuite presentation annJwk
        (kbPolicy "rp" "n-1") true ≠ .ok v := by
  obtain ⟨sdJwt, hissue, hfacts⟩ := exists_ok_of_map
    (x := issue (.atSecond 1800000000 []) plainCrypto givenRandom (plainSuite true) plainIssuerKey
      plainIssuance)
    (f := fun sdJwt =>
      ((verify (.atSecond 1800000000 []) plainCrypto (plainSuite true).toSuite sdJwt annJwk
          { audience := some "rp" } true).toOption.isSome,
        (createPresentation (.atSecond 1800000000 []) (plainSuite true) sdJwt plainHolderKey "rp"
          "n-1").toOption.map fun presentation =>
          (verify (.atSecond 1800000000 []) plainCrypto (plainSuite true).toSuite presentation annJwk
            (kbPolicy "rp" "n-1") true).toOption.isSome))
    (c := (true, some false)) (by decide +kernel)
  obtain ⟨halone, hpresent⟩ := Prod.mk.inj hfacts
  obtain ⟨v, hv, -⟩ := exists_ok_of_map (f := fun _ => ()) (c := ())
    (x := verify (.atSecond 1800000000 []) plainCrypto (plainSuite true).toSuite sdJwt annJwk
      { audience := some "rp" } true) (by
        obtain ⟨v, hv⟩ := Option.isSome_iff_exists.mp halone
        rw [hv]
        rfl)
  obtain ⟨presentation, hcreate, hrefused⟩ := exists_ok_of_map hpresent
  refine ⟨sdJwt, presentation, hissue, ⟨v, hv⟩, hcreate, fun v hv => ?_⟩
  rw [hv] at hrefused
  cases hrefused

theorem plainHolderKey_matches (data : Bytes) : ∃ sig, plainHolderKey.sign data = .ok sig ∧
    verifySignature plainCrypto plainHolderKey.alg (rereadDict boundHolderJwk) data sig = .ok true := by
  obtain ⟨raw, hraw, hlen, hne⟩ : ∃ raw, jwkBytes (rereadDict boundHolderJwk) "x" = some raw ∧
      raw.length = 32 ∧ raw ≠
        Codec.intToFixed 0x03a107bff3ce10be1d70dd18e74bc09967e4d6309ba50d5f1ddc8664125531b8 32 :=
    ⟨Codec.intToFixed 0x29acbae141bccaf0b22e1a94d34d0bc7361e526d0bfe12c89794bc9322966dd7 32,
      by decide +kernel, by decide +kernel, by decide +kernel⟩
  refine ⟨holderSign data, rfl, ?_⟩
  have halg : plainHolderKey.alg ∈ ed25519AlgNames := by decide
  rw [verifySignature, if_pos halg, hraw]
  refine bind_eq_ok.mpr ⟨raw, rfl, bind_eq_ok.mpr ⟨(), raiseIf_eq_ok.mpr (by rw [hlen]; rfl), ?_⟩⟩
  have hverify : plainCrypto.ed25519Verify raw data (holderSign data) = true := by
    change (if raw = _ then holderSign data == plainSignature else holderSign data == holderSign data) =
      true
    rw [if_neg hne]
    exact beq_self_eq_true _
  rw [hverify]
  rfl

/-- With SHA-256 the holder's presentation is accepted. -/
theorem createPresentation_accepted_sha256 :
    ∃ sdJwt presentation, issue (.atSecond 1800000000 []) plainCrypto givenRandom (plainSuite false)
        plainIssuerKey plainIssuance = .ok sdJwt ∧
      createPresentation (.atSecond 1800000000 []) (plainSuite false) sdJwt plainHolderKey "rp" "n-1" =
        .ok presentation ∧
      ∃ v, verify (.atSecond 1800000000 []) plainCrypto (plainSuite false).toSuite presentation annJwk
        (kbPolicy "rp" "n-1") true = .ok v ∧ v.keyBound = true := by
  obtain ⟨sdJwt, hissue, halone⟩ := exists_ok_of_map
    (x := issue (.atSecond 1800000000 []) plainCrypto givenRandom (plainSuite false) plainIssuerKey
      plainIssuance)
    (f := fun sdJwt =>
      (verify (.atSecond 1800000000 []) plainCrypto (plainSuite false).toSuite sdJwt annJwk
          { audience := some "rp" } true).toOption.isSome) (c := true) (by decide +kernel)
  have hv : ∃ v, verify (.atSecond 1800000000 []) plainCrypto (plainSuite false).toSuite sdJwt annJwk
      { audience := some "rp" } true = .ok v := by
    cases h : verify (.atSecond 1800000000 []) plainCrypto (plainSuite false).toSuite sdJwt annJwk
        { audience := some "rp" } true with
    | ok v => exact ⟨v, rfl⟩
    | error e =>
      rw [h] at halone
      cases halone
  have hclaims : Representable (.obj (plainIssuance.full 1800000000)) := by
    have hstr : ∀ t ∈ [lit "iss", lit "i", lit "vct", lit "v", lit "iat", lit "cnf", lit "jwk",
        lit "kty", lit "OKP", lit "crv", lit "Ed25519", lit "x",
        lit "Kay64UG8yvCyLhqU000LxzYeUm0L_hLIl5S8kyKWbdc"],
        ∀ c ∈ t, c < 0x110000 := by decide +kernel
    have hjwk : RepresentableMembers boundHolderJwk :=
      ⟨⟨hstr _ (by simp), hstr _ (by simp)⟩, ⟨hstr _ (by simp), hstr _ (by simp)⟩,
        ⟨hstr _ (by simp), hstr _ (by simp)⟩, trivial⟩
    exact ⟨⟨hstr _ (by simp), hstr _ (by simp)⟩, ⟨hstr _ (by simp), hstr _ (by simp)⟩,
      ⟨hstr _ (by simp), trivial⟩, ⟨hstr (lit "cnf") (by simp), ⟨hstr (lit "jwk") (by simp), hjwk⟩,
        trivial⟩, trivial⟩
  have h384 : plainDigest.length = 48 := by decide +kernel
  have hsizes : DigestSizes plainCrypto := fun data =>
    ⟨Hashlib.sha256_length data, h384, List.length_replicate⟩
  have haud : IsStr (lit "rp") := isStr_of_ascii (by decide)
  have hnonce : IsStr (lit "n-1") := isStr_of_ascii (by decide)
  have hpermit : plainHolderKey.alg ∈ (plainSuite false).algs := by decide
  have hmain : ∃ presentation, createPresentation (.atSecond 1800000000 []) (plainSuite false) sdJwt
      plainHolderKey "rp" "n-1" = .ok presentation ∧
      ((∃ v, verify (.atSecond 1800000000 []) plainCrypto (plainSuite false).toSuite presentation annJwk
        (kbPolicy "rp" "n-1") true = .ok v ∧ v.keyBound = true) ↔ _) :=
    createPresentation_accepted_iff rfl (by decide +kernel) (by decide +kernel) rfl hsizes hissue
      (by decide +kernel) hclaims rfl hpermit plainHolderKey_matches haud hnonce (by decide)
  obtain ⟨presentation, hcreate, hiff⟩ := hmain
  refine ⟨sdJwt, presentation, hissue, hcreate, hiff.mpr ⟨hv, by decide, ?_, by decide, by decide⟩⟩
  rw [if_pos (by decide)]
  rfl

end OpenVC.SdJwt
