import OpenVC.Proof.Proofs.KeyBindingProofs
import OpenVC.Proof.SdJwtIssue
import OpenVC.Proofs.JsonInputProofs
import OpenVC.Python.Proofs.JsonDumpsProofs

/-!
# What an issued SD-JWT holds

The segments of a JWT that `_sign_compact` wrote are read back as the header and the payload it was
given, and the disclosures of `issue` are the claims it took out of the payload.
-/

namespace OpenVC.SdJwt

open Python JsonDumps

/-! ## Segments -/

theorem jsonBytes_eq_ok {v : Json} {b : Bytes} :
    jsonBytes v = .ok b ↔ ∃ s, dumps v = some s ∧ Codec.encodeUtf8 s = some b := by
  simp only [jsonBytes, bind_eq_ok, orRaise_eq_ok]

theorem mem_b64urlEncode {b : Bytes} {c : Nat} (h : c ∈ Codec.b64urlEncode b) :
    c ≠ 46 ∧ c ≠ 126 ∧ c < 128 := by
  obtain ⟨n, hn, rfl⟩ := Codec.lt_of_mem_b64urlEncode h
  have : ∀ n < 64, Codec.b64Char n ≠ 46 ∧ Codec.b64Char n ≠ 126 ∧ Codec.b64Char n < 128 := by decide
  exact this n hn

theorem dot_not_mem_b64urlEncode (b : Bytes) : 46 ∉ Codec.b64urlEncode b := fun h =>
  (mem_b64urlEncode h).1 rfl

theorem tilde_not_mem_b64urlEncode (b : Bytes) : 126 ∉ Codec.b64urlEncode b := fun h =>
  (mem_b64urlEncode h).2.1 rfl

theorem mem_set {d : Dict} {k : Str} {v : Json} {p : Str × Json} (h : p ∈ d.set k v) :
    p = (k, v) ∨ p ∈ d := by
  induction d with
  | nil => exact .inl (List.mem_singleton.mp h)
  | cons q d ih =>
    obtain ⟨k', v'⟩ := q
    rw [Dict.set] at h
    split at h
    · rename_i hk
      rcases List.mem_cons.mp h with rfl | h
      · exact .inl (by rw [hk])
      · exact .inr (List.mem_cons_of_mem _ h)
    · rcases List.mem_cons.mp h with rfl | h
      · exact .inr List.mem_cons_self
      · exact (ih h).imp id (List.mem_cons_of_mem _)

theorem mem_ofPairs {l : List (Str × Json)} {p : Str × Json} (h : p ∈ Dict.ofPairs l) :
    ∃ q ∈ l, q.2 = p.2 := by
  have key : ∀ (l d : List (Str × Json)), p ∈ l.foldl (fun d p => Dict.set d p.1 p.2) d →
      p ∈ d ∨ ∃ q ∈ l, q.2 = p.2 := by
    intro l
    induction l with
    | nil => exact fun d h => .inl h
    | cons q l ih =>
      intro d h
      rcases ih _ h with h | ⟨q', hq', he⟩
      · rcases mem_set h with rfl | h
        · exact .inr ⟨q, List.mem_cons_self, rfl⟩
        · exact .inl h
      · exact .inr ⟨q', List.mem_cons_of_mem _ hq', he⟩
  exact (key l [] h).resolve_left List.not_mem_nil

mutual

/-- Reading back does not nest a value deeper. -/
theorem depth_reread_le : ∀ v : Json, (reread v).depth ≤ v.depth
  | .null => Nat.le_refl _
  | .bool _ => Nat.le_refl _
  | .int _ => Nat.le_refl _
  | .float _ => Nat.le_refl _
  | .str _ => Nat.le_refl _
  | .arr l => Nat.succ_le_succ (depth_rereadList_le l)
  | .obj m => by
    have hmembers : Json.depthMembers (Dict.ofPairs (rereadMembers m)) ≤
        Json.depthMembers (rereadMembers m) := by
      rw [Json.depthMembers_eq, Json.depthMembers_eq]
      by_contra hlt
      obtain ⟨v, hv, hlt⟩ := Json.lt_depthList_iff.mp (not_le.mp hlt)
      obtain ⟨p, hp, rfl⟩ := List.mem_map.mp hv
      obtain ⟨q, hq, he⟩ := mem_ofPairs hp
      exact Nat.lt_irrefl _ (Json.lt_depthList_iff.mpr ⟨q.2, List.mem_map_of_mem hq, he ▸ hlt⟩)
    exact Nat.succ_le_succ (hmembers.trans (depth_rereadMembers_le m))

theorem depth_rereadList_le : ∀ l : List Json, Json.depthList (rereadList l) ≤ Json.depthList l
  | [] => Nat.le_refl _
  | v :: t => by
    have hv := depth_reread_le v
    have ht := depth_rereadList_le t
    rw [rereadList, Json.depthList, Json.depthList]
    omega

theorem depth_rereadMembers_le : ∀ m : List (Str × Json),
    Json.depthMembers (rereadMembers m) ≤ Json.depthMembers m
  | [] => Nat.le_refl _
  | (k, v) :: t => by
    have hv := depth_reread_le v
    have ht := depth_rereadMembers_le t
    rw [rereadMembers, Json.depthMembers, Json.depthMembers]
    omega

end

theorem loadSegment_b64urlEncode {v : Json} {b : Bytes} (hv : Representable v)
    (h : jsonBytes v = .ok b) (hd : (reread v).depth ≤ OpenVC.maxDepth) :
    loadSegment (Codec.b64urlEncode b) = .ok (reread v) := by
  obtain ⟨s, hs, hb⟩ := jsonBytes_eq_ok.mp h
  simp only [loadSegment, Codec.b64urlDecodePadded_b64urlEncode, bind_eq_ok, orRaise_eq_ok]
  refine ⟨b, rfl, boundedDepth_eq_ok.mpr ⟨loadsBytes_dumps hv hs hb, ?_⟩⟩
  rw [nestingExceeds_eq]
  exact decide_eq_false (by omega)

theorem encodeAscii_of_lt {s : Str} (h : ∀ c ∈ s, c < 128) :
    Codec.encodeAscii s = some (s.map UInt8.ofNat) := by
  have hascii : s.isAscii = true := List.all_eq_true.mpr fun c hc => decide_eq_true (h c hc)
  rw [Codec.encodeAscii, if_pos hascii]

theorem threeSegments_append {h p s : Str} (hh : 46 ∉ h) (hp : 46 ∉ p) (hs : 46 ∉ s) :
    threeSegments (h ++ 46 :: (p ++ 46 :: s)) = some ⟨h, p, s⟩ := by
  rw [threeSegments, Str.split, List.splitOn_append_cons_self_of_not_mem hh,
    List.splitOn_append_cons_self_of_not_mem hp, List.splitOn_eq_singleton hs]

/-- A compact JWS that was signed, and what it decodes to. -/
structure Signed (header payload : Dict) (key : SigningKey) (jwt : Str) where
  headerBytes : Bytes
  payloadBytes : Bytes
  signature : Bytes
  headerOk : jsonBytes (.obj header) = .ok headerBytes
  payloadOk : jsonBytes (.obj payload) = .ok payloadBytes
  signed : key.sign ((Codec.b64urlEncode headerBytes ++ 46 :: Codec.b64urlEncode payloadBytes).map
    UInt8.ofNat) = .ok signature
  text : jwt = Codec.b64urlEncode headerBytes ++ 46 :: (Codec.b64urlEncode payloadBytes ++
    46 :: Codec.b64urlEncode signature)

variable {header payload : Dict} {key : SigningKey} {jwt : Str}

/-- The bytes a JWS is signed over. -/
def Signed.input (s : Signed header payload key jwt) : Bytes :=
  (Codec.b64urlEncode s.headerBytes ++ 46 :: Codec.b64urlEncode s.payloadBytes).map UInt8.ofNat

theorem encodeAscii_signingInput (a b : Bytes) :
    Codec.encodeAscii (Codec.b64urlEncode a ++ 46 :: Codec.b64urlEncode b) =
      some ((Codec.b64urlEncode a ++ 46 :: Codec.b64urlEncode b).map UInt8.ofNat) := by
  refine encodeAscii_of_lt fun c hc => ?_
  rcases List.mem_append.mp hc with hc | hc
  · exact (mem_b64urlEncode hc).2.2
  · rcases List.mem_cons.mp hc with rfl | hc
    · omega
    · exact (mem_b64urlEncode hc).2.2

theorem signCompact_eq_ok (h : signCompact header payload key = .ok jwt) :
    Nonempty (Signed header payload key jwt) := by
  simp only [signCompact, bind_eq_ok, orRaise_eq_ok, pure_eq_ok, encodeAscii_signingInput,
    Option.some.injEq] at h
  obtain ⟨hb, hheader, pb, hpayload, data, rfl, sig, hsig, rfl⟩ := h
  exact ⟨⟨hb, pb, sig, hheader, hpayload, hsig, by simp⟩⟩

theorem Signed.signCompact (s : Signed header payload key jwt) :
    signCompact header payload key = .ok jwt := by
  simp only [SdJwt.signCompact, bind_eq_ok, orRaise_eq_ok, pure_eq_ok, encodeAscii_signingInput,
    Option.some.injEq]
  refine ⟨_, s.headerOk, _, s.payloadOk, _, rfl, _, s.signed, ?_⟩
  rw [List.append_assoc]
  exact s.text.symm

theorem Signed.tilde_not_mem (s : Signed header payload key jwt) : 126 ∉ jwt := by
  rw [s.text]
  intro h
  simp only [List.mem_append, List.mem_cons] at h
  rcases h with h | h | h | h | h
  · exact tilde_not_mem_b64urlEncode _ h
  · omega
  · exact tilde_not_mem_b64urlEncode _ h
  · omega
  · exact tilde_not_mem_b64urlEncode _ h

theorem Signed.isAscii (s : Signed header payload key jwt) : ∀ c ∈ jwt, c < 128 := by
  rw [s.text]
  intro c h
  simp only [List.mem_append, List.mem_cons] at h
  rcases h with h | rfl | h | rfl | h
  · exact (mem_b64urlEncode h).2.2
  · omega
  · exact (mem_b64urlEncode h).2.2
  · omega
  · exact (mem_b64urlEncode h).2.2

theorem Signed.segments (s : Signed header payload key jwt) : threeSegments jwt =
    some ⟨Codec.b64urlEncode s.headerBytes, Codec.b64urlEncode s.payloadBytes,
      Codec.b64urlEncode s.signature⟩ := by
  refine (congrArg threeSegments s.text).trans ?_
  exact threeSegments_append (dot_not_mem_b64urlEncode _) (dot_not_mem_b64urlEncode _)
    (dot_not_mem_b64urlEncode _)

/-- The header and the payload of a signed JWS, as they are read back. -/
theorem Signed.decodeJws (s : Signed header payload key jwt) {header' payload' : Dict}
    (hh : Representable (.obj header)) (hp : Representable (.obj payload))
    (hh' : reread (.obj header) = .obj header') (hp' : reread (.obj payload) = .obj payload')
    (hhd : (Json.obj header').depth ≤ OpenVC.maxDepth)
    (hpd : (Json.obj payload').depth ≤ OpenVC.maxDepth) :
    decodeJws jwt = .ok ⟨header', payload', s.input, s.signature⟩ := by
  have hload := loadSegment_b64urlEncode hh s.headerOk (hh' ▸ hhd)
  have hload' := loadSegment_b64urlEncode hp s.payloadOk (hp' ▸ hpd)
  simp only [SdJwt.decodeJws, decodeSegments, s.segments, bind_eq_ok, recast_eq_ok, orRaise_eq_ok,
    pure_eq_ok]
  refine ⟨_, ⟨_, rfl, _, hload, _, hload', _, Codec.b64urlDecodePadded_b64urlEncode _, rfl⟩,
    header', ?_, payload', ?_, s.input, ?_, rfl⟩
  · exact Json.obj?_eq_some.mpr hh'
  · exact Json.obj?_eq_some.mpr hp'
  · exact encodeAscii_signingInput _ _

/-! ## The disclosures -/

/-- A disclosure that `issue` built, with the claim it took out of the payload. -/
structure Disclosed where
  salt : Str
  name : Str
  value : Json
  text : Str

/-- The claim of a disclosure. -/
def Disclosed.claim (e : Disclosed) : Str × Json := (e.name, e.value)

/-- What a disclosure is read back as. -/
def Disclosed.parsed (e : Disclosed) : List Json := [.str e.salt, .str e.name, e.value]

theorem perm_cons_erase {d : Dict} {k : Str} {v : Json} (hd : d.keys.Nodup)
    (h : d.get? k = some v) : d.Perm ((k, v) :: d.erase k) := by
  induction d with
  | nil => cases h
  | cons p d ih =>
    rw [Dict.keys_cons, List.nodup_cons] at hd
    rw [Dict.get?_cons] at h
    by_cases hp : p.1 = k
    · rw [if_pos hp] at h
      have hp' : p = (k, v) := Prod.ext hp (Option.some.inj h)
      have herase : Dict.erase (p :: d) k = d := by
        rw [Dict.erase, List.filter_cons_of_neg (by simpa using hp), List.filter_eq_self]
        intro q hq
        have : q.1 ≠ k := fun e => hd.1 (hp ▸ e ▸ List.mem_map_of_mem hq)
        simpa using this
      rw [herase, hp']
    · rw [if_neg hp] at h
      have herase : Dict.erase (p :: d) k = p :: Dict.erase d k := by
        rw [Dict.erase, List.filter_cons_of_pos (by simpa using hp)]
        rfl
      rw [herase]
      exact ((ih hd.2 h).cons p).trans (List.Perm.swap _ _ _)

/-- What the disclosure loop has done with the claims `full` for the names of a list. -/
structure Discloses (C : Crypto) (hashName : Str) (full : Dict) (names : List Str)
    (entries : List Disclosed) (st : Disclosing) : Prop where
  names : entries.map Disclosed.name = names
  split : full.Perm (st.payload ++ entries.map Disclosed.claim)
  kept : st.payload.Sublist full
  texts : st.disclosures = entries.map Disclosed.text
  digests : entries.map (fun e => disclosureDigest C e.text hashName) = st.digests.map .ok
  made : ∀ e ∈ entries, (∃ b, e.salt = Codec.b64urlEncode b) ∧
    ∃ data, jsonBytes (.arr e.parsed) = .ok data ∧ e.text = Codec.b64urlEncode data

theorem Discloses.nil (C : Crypto) (hashName : Str) (full : Dict) :
    Discloses C hashName full [] [] ⟨full, [], []⟩ where
  names := rfl
  split := by simp
  kept := List.Sublist.refl full
  texts := rfl
  digests := rfl
  made := fun e he => nomatch he

/-- One iteration takes one claim out. -/
theorem Discloses.step {C : Crypto} {hashName : Str} {full : Dict} {names : List Str}
    {entries : List Disclosed} {random : TokenBytes} {st st' : Disclosing} {i : Nat} {name : Str}
    (hfull : full.keys.Nodup) (h : Discloses C hashName full names entries st)
    (hstep : disclose C random hashName st i name = .ok st') :
    ∃ e, Discloses C hashName full (names ++ [name]) (entries ++ [e]) st' := by
  simp only [disclose, makeObjectDisclosure, bind_eq_ok, orRaise_eq_ok, pure_eq_ok] at hstep
  obtain ⟨value, hvalue, text, ⟨data, hdata, rfl⟩, digest, hdigest, rfl⟩ := hstep
  have hnodup : st.payload.keys.Nodup := hfull.sublist (h.kept.map _)
  refine ⟨⟨Codec.b64urlEncode (random i saltBytes), name, value, Codec.b64urlEncode data⟩,
    ⟨?_, ?_, ?_, ?_, ?_, ?_⟩⟩
  · rw [List.map_append, h.names]
    rfl
  · refine h.split.trans ?_
    rw [List.map_append, ← List.append_assoc]
    refine ((perm_cons_erase hnodup hvalue).append_right _).trans ?_
    exact @List.perm_append_comm _ [(name, value)] _
  · exact List.filter_sublist.trans h.kept
  · rw [h.texts, List.map_append]
    rfl
  · rw [List.map_append, h.digests, List.map_append, List.map_singleton, List.map_singleton, hdigest]
  · intro e he
    rcases List.mem_append.mp he with he | he
    · exact h.made e he
    · obtain rfl := List.mem_singleton.mp he
      exact ⟨⟨_, rfl⟩, data, hdata, rfl⟩

theorem discloses_of_loop {C : Crypto} {hashName : Str} {full : Dict} {names : List Str}
    {random : TokenBytes} {st : Disclosing} (hfull : full.keys.Nodup)
    (h : enumerateLoop (disclose C random hashName) ⟨full, [], []⟩ 0 names = .ok st) :
    ∃ entries, Discloses C hashName full names entries st := by
  refine enumerateLoop_preserves (fun done st => ∃ entries, Discloses C hashName full done entries st)
    ⟨[], Discloses.nil C hashName full⟩ h ?_
  rintro done st name st' ⟨entries, hd⟩ hstep
  obtain ⟨e, he⟩ := hd.step hfull hstep
  exact ⟨entries ++ [e], he⟩

/-! ## Values without markers -/

mutual

/-- No member name at any depth is `_sd`, `...` or `_sd_alg`. -/
def Unmarked : Json → Prop
  | .arr l => UnmarkedList l
  | .obj m => UnmarkedMembers m
  | _ => True

/-- `Unmarked`, over a list. -/
def UnmarkedList : List Json → Prop
  | [] => True
  | v :: t => Unmarked v ∧ UnmarkedList t

/-- `Unmarked`, over the members of an object. -/
def UnmarkedMembers : List (Str × Json) → Prop
  | [] => True
  | (k, v) :: t => (k ≠ lit "_sd" ∧ k ≠ lit "..." ∧ k ≠ lit "_sd_alg" ∧ Unmarked v) ∧
      UnmarkedMembers t

end

theorem unmarkedMembers_iff {m : Dict} : UnmarkedMembers m ↔
    ∀ p ∈ m, p.1 ≠ lit "_sd" ∧ p.1 ≠ lit "..." ∧ p.1 ≠ lit "_sd_alg" ∧ Unmarked p.2 := by
  induction m with
  | nil => simp [UnmarkedMembers]
  | cons p m ih => simp [UnmarkedMembers, ih]

theorem unmarkedList_iff {l : List Json} : UnmarkedList l ↔ ∀ v ∈ l, Unmarked v := by
  induction l with
  | nil => simp [UnmarkedList]
  | cons v l ih => simp [UnmarkedList, ih]

section Unpack

variable {D : ByDigest} {descend : Descend} {top : Option Str} {st : Unpacking}

/-- The members of an object whose values are left as they are, before others. -/
theorem unpackMembers_append {members : Dict} (top : Option Str) (rest result : Dict)
    (hkeys : ∀ p ∈ members, p.1 ≠ lit "_sd" ∧ p.1 ≠ lit "...")
    (hvals : ∀ p ∈ members, ∀ top, descend top p.2 st = .ok (p.2, st))
    (hnodup : (Dict.keys (result ++ members)).Nodup) :
    unpackMembers descend top (members ++ rest) result st =
      unpackMembers descend top rest (result ++ members) st := by
  induction members generalizing result with
  | nil => rw [List.nil_append, List.append_nil]
  | cons p members ih =>
    obtain ⟨key, value⟩ := p
    obtain ⟨hsd, hdots⟩ := hkeys _ List.mem_cons_self
    have hnew : key ∉ result.keys := by
      rw [Dict.keys, List.map_append, List.map_cons, List.nodup_append] at hnodup
      exact fun hmem => hnodup.2.2 _ hmem _ List.mem_cons_self rfl
    have hih := @ih (result ++ [(key, value)])
      (fun q hq => hkeys q (List.mem_cons_of_mem _ hq))
      (fun q hq => hvals q (List.mem_cons_of_mem _ hq)) (by simpa using hnodup)
    have hvalue := hvals _ List.mem_cons_self (some (top.getD key))
    rw [List.cons_append, unpackMembers, if_neg hsd, if_neg hdots, hvalue]
    change unpackMembers descend top (members ++ rest) (result.set key value) st = _
    rw [Dict.set_of_not_mem hnew, hih, List.append_assoc]
    rfl

theorem unpackMembers_self {members : Dict}
    (hkeys : ∀ p ∈ members, p.1 ≠ lit "_sd" ∧ p.1 ≠ lit "...")
    (hvals : ∀ p ∈ members, ∀ top, descend top p.2 st = .ok (p.2, st))
    (hnodup : (Dict.keys members).Nodup) :
    unpackMembers descend top members [] st = .ok (members, st) := by
  have h := unpackMembers_append top [] [] hkeys hvals hnodup
  rw [List.append_nil] at h
  rw [h]
  rfl

theorem unpackElements_self {elements : List Json} (hmark : ∀ v ∈ elements, elementDigest v = none)
    (hvals : ∀ v ∈ elements, descend top v st = .ok (v, st)) :
    unpackElements D descend top elements st = .ok (elements, st) := by
  induction elements with
  | nil => rfl
  | cons v elements ih =>
    have hih := ih (fun w hw => hmark w (List.mem_cons_of_mem _ hw))
      fun w hw => hvals w (List.mem_cons_of_mem _ hw)
    have hone : unpackElement D descend top v st = .ok ([v], st) := by
      unfold unpackElement
      rw [hmark v List.mem_cons_self]
      exact bind_eq_ok.mpr ⟨(v, st), hvals v List.mem_cons_self, rfl⟩
    rw [unpackElements]
    exact bind_eq_ok.mpr ⟨_, hone, bind_eq_ok.mpr ⟨_, hih, rfl⟩⟩

theorem elementDigest_unmarked {v : Json} (h : Unmarked v) : elementDigest v = none := by
  unfold elementDigest
  split
  · rename_i key digest
    rw [if_neg (unmarkedMembers_iff.mp h _ List.mem_cons_self).2.1]
  · rfl

end Unpack

/-- A value without markers is left as it is. -/
theorem unpack_unmarked (D : ByDigest) (levels : Nat) (top : Option Str) {v : Json} (st : Unpacking)
    (hwf : v.WF) (hm : Unmarked v) (hd : v.depth < levels) :
    unpack D levels top v st = .ok (v, st) := by
  induction levels generalizing top v st with
  | zero => omega
  | succ levels ih =>
    cases v with
    | obj m =>
      have hmem := unmarkedMembers_iff.mp hm
      have hmembers : unpackMembers (unpack D levels) top m [] st = .ok (m, st) := by
        refine unpackMembers_self (fun p hp => ⟨(hmem p hp).1, (hmem p hp).2.1⟩) ?_ hwf.1
        intro p hp top
        refine ih top st (Json.wfMembers_iff.mp hwf.2 p hp) (hmem p hp).2.2.2 ?_
        have hlt : p.2.depth ≤ Json.depthList (m.map Prod.snd) := by
          by_contra hgt
          exact absurd (Json.lt_depthList_iff.mpr ⟨p.2, List.mem_map_of_mem hp, not_le.mp hgt⟩)
            (Nat.lt_irrefl _)
        rw [Json.depth, Json.depthMembers_eq] at hd
        omega
      have hsd : Dict.get m (lit "_sd") = .null := by
        have : Dict.get? m (lit "_sd") = none := by
          rw [Dict.get?_eq_none_iff]
          intro hk
          obtain ⟨p, hp, hpk⟩ := List.mem_map.mp hk
          exact (hmem p hp).1 hpk
        rw [Dict.get, this]
        rfl
      rw [unpack]
      refine bind_eq_ok.mpr ⟨_, hmembers, ?_⟩
      rw [hsd]
      rfl
    | arr l =>
      have hmem := unmarkedList_iff.mp hm
      have helements : unpackElements D (unpack D levels) top l st = .ok (l, st) := by
        refine unpackElements_self (fun v hv => elementDigest_unmarked (hmem v hv)) ?_
        intro v hv
        refine ih top st (Json.wfList_iff.mp hwf v hv) (hmem v hv) ?_
        have hlt : v.depth ≤ Json.depthList l := by
          by_contra hgt
          exact absurd (Json.lt_depthList_iff.mpr ⟨v, hv, not_le.mp hgt⟩) (Nat.lt_irrefl _)
        rw [Json.depth] at hd
        omega
      rw [unpack]
      exact bind_eq_ok.mpr ⟨_, helements, rfl⟩
    | null | bool | int | float | str => rfl

end OpenVC.SdJwt
