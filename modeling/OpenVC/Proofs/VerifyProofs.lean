import OpenVC.Verify

/-!
# The status gate fails closed

If `_check_status` returns under a policy that requires status and forbids revocation, then every
status the credential declares was read: each recognised entry at its own index inside its list, with
no revocation or suspension bit set, and the IETF reference with a status that is neither.
-/

namespace OpenVC

open Python Status

variable {Z : Zlib} {policy : VerificationPolicy} {resolvers : Resolvers}

/-! ## The indices -/

/-- `value` spells the index: a JSON integer, or a string of ASCII digits. -/
def Spells (value : Json) (index : Nat) : Prop :=
  value = .int index ∨
    ∃ digits : Str, value = .str digits ∧ digits ≠ [] ∧ digits.all Str.isDigit = true ∧
      digits.toNat = index

theorem statusIndex_eq_ok {value : Json} {field : Str} {allowString : Bool} {index : Nat}
    (h : statusIndex value field allowString = .ok index) :
    Spells value index ∧ index < maxStatusIndex ∧ (allowString = false → value = .int index) := by
  simp only [statusIndex, bind_eq_ok, raiseIf_eq_ok, pure_eq_ok] at h
  obtain ⟨n, hn, ⟨⟩, hmax, rfl⟩ := h
  have hlt : n < maxStatusIndex := by simpa using hmax
  cases value with
  | str digits =>
    rw [indexValue] at hn
    split at hn
    · rename_i hallow
      simp only [indexOfDigits, bind_eq_ok, raiseIf_eq_ok, pure_eq_ok] at hn
      obtain ⟨⟨⟩, hd, ⟨⟩, -, rfl⟩ := hn
      simp only [Bool.not_eq_eq_eq_not, Bool.not_false, Bool.and_eq_true] at hd
      have hne : digits ≠ [] := by
        rintro rfl
        simp at hd
      refine ⟨Or.inr ⟨digits, rfl, hne, hd.2, rfl⟩, hlt, fun ha => ?_⟩
      rw [hallow] at ha
      cases ha
    · cases hn
  | int k =>
    simp only [indexValue, indexOfInt, bind_eq_ok, raiseIf_eq_ok, pure_eq_ok] at hn
    obtain ⟨⟨⟩, hk, rfl⟩ := hn
    have hk : 0 ≤ k := by simpa using hk
    have hval : Json.int k = .int (k.toNat : Int) := by rw [Int.toNat_of_nonneg hk]
    exact ⟨Or.inl hval, hlt, fun _ => hval⟩
  | null | bool | float | arr | obj => cases hn

/-! ## The W3C lists -/

/-- The bit of a status list at an index, the most significant bit of a byte first. -/
def bitAt (bits : Bytes) (index : Nat) : Bool :=
  (bits.getD (index / 8) 0).toNat.testBit (7 - index % 8)

/-- The bitstring a status-list credential publishes. -/
def Publishes (Z : Zlib) (list : Json) (bits : Bytes) : Prop :=
  ∃ vc subject encoded, list = .obj vc ∧ Dict.get vc "credentialSubject" = .obj subject ∧
    Dict.get subject "encodedList" = .str encoded ∧ decodeBitstring Z encoded = .ok bits

theorem locateStatus_eq_ok {index perByte length : Nat} {unit : Str} {p : Nat × Nat} :
    locateStatus index perByte length unit = .ok p ↔
      index / perByte < length ∧ p = (index / perByte, index % perByte) := by
  simp only [locateStatus, bind_eq_ok, raiseIf_eq_ok, pure_eq_ok]
  constructor
  · rintro ⟨⟨⟩, h, rfl⟩; exact ⟨by simpa using h, rfl⟩
  · rintro ⟨h, rfl⟩; exact ⟨(), by simpa using h, rfl⟩

theorem getStatusBit_eq_ok {bits : Bytes} {index n : Nat} (h : getStatusBit bits index = .ok n) :
    index / 8 < bits.length ∧ (n != 0) = bitAt bits index := by
  simp only [getStatusBit, bind_eq_ok, pure_eq_ok, locateStatus_eq_ok] at h
  obtain ⟨_, ⟨hlt, rfl⟩, rfl⟩ := h
  refine ⟨hlt, ?_⟩
  rw [bitAt, Nat.testBit, Nat.and_comm]

theorem readStatusBit_eq_ok {list : Json} {entry : Entry} {result : EntryResult}
    (h : readStatusBit Z list entry = .ok result) :
    ∃ bits, Publishes Z list bits ∧ entry.index / 8 < bits.length ∧
      result = ⟨entry, bitAt bits entry.index⟩ := by
  simp only [readStatusBit, bind_eq_ok, pure_eq_ok] at h
  obtain ⟨encoded, henc, bits, hbits, bit, hbit, rfl⟩ := h
  simp only [encodedList, bind_eq_ok, orRaise_eq_ok, raiseIf_eq_ok, Json.obj?_eq_some,
    Option.filter_eq_some_iff, Json.str?_eq_some] at henc
  obtain ⟨vc, rfl, subject, hsubject, ⟨⟩, -, hencoded, -⟩ := henc
  obtain ⟨hlt, hset⟩ := getStatusBit_eq_ok hbit
  exact ⟨bits, ⟨vc, subject, encoded, rfl, hsubject, hencoded, hbits⟩, hlt, by rw [hset]⟩

/-- A run of the loop consulted a list for every entry, in order. -/
theorem checkEntries_eq_ok {resolve : Resolver} {entries : List Entry} {results : List EntryResult}
    (h : enumerateLoop (checkEntry Z resolve) [] 0 entries = .ok results) :
    ∀ n entry, entries[n]? = some entry → ∃ list result,
      resolve n entry.statusListCredential = .ok list ∧ readStatusBit Z list entry = .ok result ∧
      result ∈ results := by
  let Inv (done : List Entry) (results : List EntryResult) : Prop :=
    ∀ n entry, done[n]? = some entry → ∃ list result,
      resolve n entry.statusListCredential = .ok list ∧ readStatusBit Z list entry = .ok result ∧
      result ∈ results
  have hstep : ∀ done st entry st', Inv done st →
      checkEntry Z resolve st done.length entry = .ok st' → Inv (done ++ [entry]) st' ∧ True := by
    intro done st entry st' hinv hbody
    simp only [checkEntry, bind_eq_ok, pure_eq_ok] at hbody
    obtain ⟨list, hlist, result, hresult, rfl⟩ := hbody
    refine ⟨fun n e he => ?_, trivial⟩
    rw [List.getElem?_append] at he
    split at he
    · obtain ⟨l, r, hl, hr, hmem⟩ := hinv n e he
      exact ⟨l, r, hl, hr, List.mem_append_left _ hmem⟩
    · rename_i hn
      rw [List.getElem?_singleton] at he
      split at he
      · rename_i hz
        cases he
        have : n = done.length := by omega
        exact ⟨list, result, this ▸ hlist, hresult, by simp⟩
      · cases he
  have hinit : Inv [] [] := by
    intro n e he
    simp at he
  exact (enumerateLoop_invariant hstep hinit h).1

/-! ## The entries of a credential -/

/-- The members of a `credentialStatus`: an array's elements, or the value itself. -/
def statusMembers : Json → List Json
  | .null => []
  | .arr l => l
  | v => [v]

theorem asEntryList_eq_ok {v : Json} {raws : List Dict} (h : asEntryList v = .ok raws) :
    statusMembers v = raws.map .obj := by
  cases v with
  | null => cases h; rfl
  | obj m => cases h; rfl
  | arr l =>
    simp only [asEntryList, orRaise_eq_ok] at h
    split at h
    · rename_i hall
      cases h
      rw [statusMembers]
      induction l with
      | nil => rfl
      | cons v l ih =>
        rw [List.all_cons, Bool.and_eq_true] at hall
        obtain ⟨m, hm⟩ := Option.isSome_iff_exists.mp hall.1
        rw [List.filterMap_cons_some hm, List.map_cons, ← ih hall.2, Json.obj?_eq_some.mp hm]
    · cases h
  | bool | int | float | str => cases h

/-- Every object of a `credentialStatus` has a type, and the recognised ones are read in order. -/
theorem parseEntries_eq_ok {raws : List Dict} {lists : List (List Entry)}
    (h : List.Forall₂ (fun raw es => parseEntry raw = .ok es) raws lists) :
    (∀ raw ∈ raws, lacksType (raw.get "type") = false) ∧
      List.Forall₂ (fun raw e => readEntry raw = .ok e) (raws.filter isStatusEntry) lists.flatten := by
  induction h with
  | nil => exact ⟨by simp, .nil⟩
  | cons hparse _ ih =>
    obtain ⟨htyped, hread⟩ := ih
    simp only [parseEntry, bind_eq_ok, raiseIf_eq_ok] at hparse
    obtain ⟨⟨⟩, htype, hparse⟩ := hparse
    refine ⟨List.forall_mem_cons.mpr ⟨htype, htyped⟩, ?_⟩
    split at hparse
    · rename_i hentry
      obtain ⟨e, he, hes⟩ := bind_eq_ok.mp hparse
      cases hes
      rw [List.filter_cons_of_pos hentry]
      exact .cons he hread
    · rename_i hentry
      cases hparse
      rw [List.filter_cons_of_neg hentry]
      exact hread

/-- A recognised entry is read with its own URL, index and purpose. -/
structure EntryOf (raw : Dict) (entry : Entry) : Prop where
  url : raw.get "statusListCredential" = .str entry.statusListCredential
  url_ne : entry.statusListCredential ≠ []
  index : Spells (raw.get "statusListIndex") entry.index
  index_lt : entry.index < maxStatusIndex
  purpose : raw.get? "statusPurpose" = some (.str entry.purpose) ∨
    raw.get? "statusPurpose" = none ∧ entry.purpose = purposeRevocation

theorem readEntry_eq_ok {raw : Dict} {entry : Entry} (h : readEntry raw = .ok entry) :
    EntryOf raw entry := by
  simp only [readEntry, bind_eq_ok, orRaise_eq_ok, raiseIf_eq_ok, pure_eq_ok,
    Json.str?_eq_some] at h
  obtain ⟨⟨⟩, hpresent, url, hurl, purpose, hpurpose, index, hindex, rfl⟩ := h
  obtain ⟨hspells, hlt, -⟩ := statusIndex_eq_ok hindex
  refine ⟨hurl, ?_, hspells, hlt, ?_⟩
  · rintro rfl
    rw [hurl] at hpresent
    simp [Json.truthy] at hpresent
  · cases hp : raw.get? "statusPurpose" with
    | none =>
      rw [hp, Option.getD_none] at hpurpose
      exact Or.inr ⟨rfl, (Json.str.inj hpurpose).symm⟩
    | some v =>
      rw [hp, Option.getD_some] at hpurpose
      exact Or.inl (by rw [hpurpose])

/-! ## The issuer of a list -/

/-- The resolved list names `si` as its issuer. -/
def NamesIssuer (list : Json) (field si : Str) : Prop :=
  ∃ m, list = .obj m ∧ (Dict.get m field = .str si ∨
    ∃ issuer, Dict.get m field = .obj issuer ∧ Dict.get issuer "id" = .str si)

/-- The issuer of a list is the credential's, or an allow-listed one. -/
def TrustedIssuer (policy : VerificationPolicy) (credentialIssuer : Option Str) (list : Json)
    (field : Str) : Prop :=
  ∃ si, si ≠ [] ∧ NamesIssuer list field si ∧
    (credentialIssuer = some si ∨ ∃ allowed, policy.statusIssuerAllowlist = some allowed ∧ si ∈ allowed)

theorem namesIssuer_of_listIssuer {list : Json} {field si : Str}
    (h : listIssuer list field = .str si) : NamesIssuer list field si := by
  cases list with
  | obj m =>
    rw [listIssuer] at h
    split at h
    · rename_i issuer hissuer
      exact ⟨m, rfl, Or.inr ⟨issuer, hissuer, h⟩⟩
    · exact ⟨m, rfl, Or.inl h⟩
  | null | bool | int | float | str | arr => cases h

theorem enforceStatusIssuer_eq_ok {list : Json} {field issuer : Str}
    (h : enforceStatusIssuer list field issuer policy = .ok ()) :
    TrustedIssuer policy (some issuer) list field := by
  simp only [enforceStatusIssuer, bind_eq_ok, orRaise_eq_ok, raiseIf_eq_ok,
    Option.filter_eq_some_iff, Json.str?_eq_some] at h
  obtain ⟨si, ⟨hsi, hne⟩, htrust⟩ := h
  refine ⟨si, by simpa using hne, namesIssuer_of_listIssuer hsi, ?_⟩
  rw [Bool.and_eq_false_iff] at htrust
  rcases htrust with h | h
  · have : si = issuer := by simpa using h
    exact Or.inl (by rw [this])
  · rw [Bool.not_eq_false', Option.any_eq_true] at h
    obtain ⟨allowed, hallowed, hmem⟩ := h
    exact Or.inr ⟨allowed, hallowed, by simpa using hmem⟩

/-- What a resolver of the gate returned: the caller's resolver returned it, and with the binding on
its issuer is trusted. -/
structure Consulted (policy : VerificationPolicy) (credentialIssuer : Option Str)
    (resolver : Option Resolver) (field : Str) (n : Nat) (uri : Str) (list : Json) : Prop where
  resolved : ∃ resolve, resolver = some resolve ∧ resolve n uri = .ok list
  trusted : policy.requireStatusIssuerBinding = true →
    TrustedIssuer policy credentialIssuer list field

theorem consulted_of_bind {inner : Resolver} {issuer field uri : Str} {n : Nat} {list : Json}
    (h : bindStatusIssuer inner issuer policy field n uri = .ok list) :
    Consulted policy (some issuer) (some inner) field n uri list := by
  simp only [bindStatusIssuer, bind_eq_ok, pure_eq_ok] at h
  obtain ⟨list, hlist, ⟨⟩, henforce, rfl⟩ := h
  exact ⟨⟨inner, rfl, hlist⟩, fun _ => enforceStatusIssuer_eq_ok henforce⟩

/-- The resolvers of the gate consult the caller's. -/
theorem boundResolvers_eq_ok {bound : Resolvers} {credentialIssuer : Option Str}
    (h : boundResolvers policy resolvers credentialIssuer = .ok bound) :
    (∀ resolve n uri list, bound.statusList = some resolve → resolve n uri = .ok list →
      Consulted policy credentialIssuer resolvers.statusList "issuer" n uri list) ∧
    (∀ resolve n uri list, bound.statusListToken = some resolve → resolve n uri = .ok list →
      Consulted policy credentialIssuer resolvers.statusListToken "iss" n uri list) := by
  rw [boundResolvers] at h
  split at h
  · simp only [bind_eq_ok, orRaise_eq_ok, pure_eq_ok, Option.filter_eq_some_iff] at h
    obtain ⟨issuer, ⟨rfl, -⟩, rfl⟩ := h
    constructor
    · intro resolve n uri list hr hl
      obtain ⟨inner, hinner, rfl⟩ := Option.map_eq_some_iff.mp hr
      rw [hinner]
      exact consulted_of_bind hl
    · intro resolve n uri list hr hl
      obtain ⟨inner, hinner, rfl⟩ := Option.map_eq_some_iff.mp hr
      rw [hinner]
      exact consulted_of_bind hl
  · rename_i hoff
    cases h
    exact ⟨fun resolve n uri list hr hl => ⟨⟨resolve, hr, hl⟩, fun hon => absurd hon hoff⟩,
      fun resolve n uri list hr hl => ⟨⟨resolve, hr, hl⟩, fun hon => absurd hon hoff⟩⟩

/-! ## The W3C half -/

/-- The `n`-th recognised entry was resolved, its bit read inside the list, and no revocation or
suspension bit is set. -/
def EntryClear (Z : Zlib) (policy : VerificationPolicy) (credentialIssuer : Option Str)
    (resolver : Option Resolver) (n : Nat) (raw : Dict) : Prop :=
  ∃ entry list bits, EntryOf raw entry ∧
    Consulted policy credentialIssuer resolver "issuer" n entry.statusListCredential list ∧
    Publishes Z list bits ∧ entry.index / 8 < bits.length ∧
    (entry.purpose = purposeRevocation ∨ entry.purpose = purposeSuspension →
      bitAt bits entry.index = false)

/-- The W3C status of a credential: every member of `credentialStatus` is an object with a type, one
of them is recognised if there are any, and all the recognised ones are clear. -/
def W3cClear (Z : Zlib) (policy : VerificationPolicy) (credentialIssuer : Option Str)
    (resolver : Option Resolver) (w3cSource : Dict) : Prop :=
  ∃ raws : List Dict, statusMembers (w3cSource.get "credentialStatus") = raws.map .obj ∧
    (∀ raw ∈ raws, lacksType (raw.get "type") = false) ∧
    ((w3cSource.get "credentialStatus").truthy = true → raws.filter isStatusEntry ≠ []) ∧
    ∀ n raw, (raws.filter isStatusEntry)[n]? = some raw →
      EntryClear Z policy credentialIssuer resolver n raw

/-- Neither disposition is left in a tally that was not refused. -/
theorem refuseW3c_eq_ok (hrev : policy.requireNotRevoked = true) {w3cSource : Dict}
    {results : List EntryResult} (h : refuseW3c policy w3cSource (tallyStatus results) = .ok ())
    {result : EntryResult} (hmem : result ∈ results)
    (hp : result.entry.purpose = purposeRevocation ∨ result.entry.purpose = purposeSuspension) :
    result.isSet = false := by
  simp only [refuseW3c, bind_eq_ok, raiseIf_eq_ok, tallyStatus, hrev, Bool.and_true] at h
  obtain ⟨⟨⟩, hr, hs⟩ := h
  cases hset : result.isSet with
  | false => rfl
  | true =>
    rcases hp with hp | hp
    · have := List.any_eq_false.mp hr result hmem
      simp [hset, hp] at this
    · have := List.any_eq_false.mp hs result hmem
      simp [hset, hp] at this

theorem checkW3cStatus_eq_ok (hreq : policy.requireStatus = true)
    (hrev : policy.requireNotRevoked = true) {w3cSource : Dict} {credentialIssuer : Option Str}
    {bound resolver : Option Resolver} {out : Option StatusResult}
    (hbound : ∀ resolve n uri list, bound = some resolve → resolve n uri = .ok list →
      Consulted policy credentialIssuer resolver "issuer" n uri list)
    (h : checkW3cStatus Z w3cSource policy bound = .ok out) :
    W3cClear Z policy credentialIssuer resolver w3cSource := by
  simp only [checkW3cStatus, bind_eq_ok] at h
  obtain ⟨entries, hparse, h⟩ := h
  have hentries := hparse
  simp only [parseStatusEntries, bind_eq_ok, pure_eq_ok, collect_eq_ok] at hparse
  obtain ⟨raws, hraws, lists, hlists, rfl⟩ := hparse
  obtain ⟨htyped, hread⟩ := parseEntries_eq_ok hlists
  refine ⟨raws, asEntryList_eq_ok hraws, htyped, ?_⟩
  split at h
  · -- no recognised entry: then nothing was declared
    rename_i hempty
    have hnil : raws.filter isStatusEntry = [] := by
      rw [List.isEmpty_iff.mp hempty] at hread
      exact List.forall₂_nil_right_iff.mp hread
    obtain ⟨⟨⟩, hrefuse, -⟩ := bind_eq_ok.mp h
    have hfalsy := raiseIf_eq_ok.mp hrefuse
    rw [hreq, Bool.and_true] at hfalsy
    rw [hnil]
    refine ⟨fun ht => ?_, fun n raw hn => ?_⟩
    · rw [hfalsy] at ht
      cases ht
    · simp at hn
  · rename_i hne
    have hfilter : raws.filter isStatusEntry ≠ [] := by
      intro hnil
      rw [hnil] at hread
      rw [List.forall₂_nil_left_iff.mp hread] at hne
      exact hne rfl
    refine ⟨fun _ => hfilter, fun n raw hn => ?_⟩
    cases bound with
    | none =>
      -- no resolver: the gate raised
      simp only [checkW3cEntries, failClosed, bind_eq_ok, raiseIf_eq_ok, hreq] at h
      obtain ⟨⟨⟩, hfalse, -⟩ := h
      cases hfalse
    | some resolve =>
      simp only [checkW3cEntries, checkCredentialStatus, bind_eq_ok, pure_eq_ok] at h
      obtain ⟨_, ⟨entries', hentries', results, hloop, rfl⟩, ⟨⟩, hrefuse, -⟩ := h
      rw [hentries] at hentries'
      cases hentries'
      obtain ⟨hlen, hzip⟩ := List.forall₂_iff_get.mp hread
      obtain ⟨hlt, hget⟩ := List.getElem?_eq_some_iff.mp hn
      have hlt' : n < lists.flatten.length := hlen ▸ hlt
      have hentry := readEntry_eq_ok (hzip n hlt hlt')
      simp only [List.get_eq_getElem, hget] at hentry
      obtain ⟨list, result, hlist, hbit, hmem⟩ :=
        checkEntries_eq_ok hloop n _ (List.getElem?_eq_getElem hlt')
      obtain ⟨bits, hpub, hin, rfl⟩ := readStatusBit_eq_ok hbit
      exact ⟨_, list, bits, hentry, hbound resolve n _ list rfl hlist, hpub, hin,
        fun hp => refuseW3c_eq_ok hrev hrefuse hmem hp⟩

/-! ## The IETF half -/

/-- The status of a packed list at an index, the least significant bits of a byte first. -/
def statusAt (data : Bytes) (bits index : Nat) : Nat :=
  (data.getD (index / (8 / bits)) 0).toNat / 2 ^ (index % (8 / bits) * bits) % 2 ^ bits

/-- The packed list a status list token publishes, and the width of a status in it. -/
def TokenPublishes (Z : Zlib) (list : Json) (bits : Nat) (data : Bytes) : Prop :=
  (bits = 1 ∨ bits = 2 ∨ bits = 4 ∨ bits = 8) ∧
    ∃ claims sl lst, list = .obj claims ∧ Dict.get claims "status_list" = .obj sl ∧
      Dict.get sl "bits" = .int bits ∧ Dict.get sl "lst" = .str lst ∧
      decodeStatusList Z lst = .ok data

theorem checkBits_eq_ok {bits : Int} {n : Nat} (h : checkBits bits = .ok n) :
    bits = n ∧ (n = 1 ∨ n = 2 ∨ n = 4 ∨ n = 8) := by
  rw [checkBits, orRaise_eq_ok] at h
  split at h
  · rename_i hb
    cases h
    omega
  · cases h

theorem getStatus_eq_ok {data : Bytes} {index value : Nat} {bits : Int}
    (h : getStatus data index bits = .ok value) :
    ∃ n : Nat, bits = n ∧ (n = 1 ∨ n = 2 ∨ n = 4 ∨ n = 8) ∧ index / (8 / n) < data.length ∧
      value = statusAt data n index := by
  simp only [getStatus, bind_eq_ok, pure_eq_ok, locateStatus_eq_ok] at h
  obtain ⟨n, hn, _, ⟨hlt, rfl⟩, rfl⟩ := h
  obtain ⟨rfl, hwidth⟩ := checkBits_eq_ok hn
  refine ⟨n, rfl, hwidth, hlt, ?_⟩
  rw [statusAt, Nat.shiftRight_eq_div_pow, Nat.and_two_pow_sub_one_eq_mod]

/-- The reference was resolved, its status read inside the list, and it is neither revoked nor
suspended. -/
def RefClear (Z : Zlib) (policy : VerificationPolicy) (credentialIssuer : Option Str)
    (resolver : Option Resolver) (ref : Dict) : Prop :=
  ∃ uri index list bits data, ref.get "uri" = .str uri ∧ uri ≠ [] ∧
    ref.get "idx" = .int (index : Nat) ∧ index < maxStatusIndex ∧
    Consulted policy credentialIssuer resolver "iss" 0 uri list ∧
    TokenPublishes Z list bits data ∧ index / (8 / bits) < data.length ∧
    statusAt data bits index ≠ statusInvalid ∧ statusAt data bits index ≠ statusSuspended

/-- The IETF status of a token: there is none, or it is a reference that is clear. -/
def IetfClear (Z : Zlib) (policy : VerificationPolicy) (credentialIssuer : Option Str)
    (resolver : Option Resolver) (ietfSource : Dict) : Prop :=
  ietfSource.get "status" = .null ∨
    ∃ status ref, ietfSource.get "status" = .obj status ∧ Dict.get status "status_list" = .obj ref ∧
      RefClear Z policy credentialIssuer resolver ref

theorem tokenStatusResult_eq_ok {ref : TokenStatusRef} {list : Json} {result : TokenStatusResult}
    (h : tokenStatusResult Z ref list = .ok result) :
    ∃ bits data, TokenPublishes Z list bits data ∧ ref.index / (8 / bits) < data.length ∧
      result = ⟨ref, statusAt data bits ref.index, statusAt data bits ref.index == statusInvalid,
        statusAt data bits ref.index == statusSuspended⟩ := by
  simp only [tokenStatusResult, statusListOfToken, bind_eq_ok, orRaise_eq_ok, pure_eq_ok,
    Json.obj?_eq_some, Json.str?_eq_some] at h
  obtain ⟨_, ⟨claims, rfl, sl, hsl, bits, hbits, lst, hlst, rfl⟩, data, hdata, value, hvalue, rfl⟩ := h
  obtain ⟨n, rfl, hn, hlt, rfl⟩ := getStatus_eq_ok hvalue
  have hint : Dict.get sl "bits" = .int (n : Int) := by
    cases hv : Dict.get sl "bits" with
    | int k => rw [hv] at hbits; exact congrArg Json.int (Option.some.inj hbits)
    | null | bool | float | str | arr | obj => rw [hv] at hbits; cases hbits
  exact ⟨n, data, ⟨hn, claims, sl, lst, rfl, hsl, hint, hlst, hdata⟩, hlt, rfl⟩

theorem checkIetfRef_eq_ok (hreq : policy.requireStatus = true)
    (hrev : policy.requireNotRevoked = true) {ref : Dict} {tokenRef : TokenStatusRef}
    {credentialIssuer : Option Str} {bound resolver : Option Resolver}
    {out : Option TokenStatusResult}
    (hbound : ∀ resolve n uri list, bound = some resolve → resolve n uri = .ok list →
      Consulted policy credentialIssuer resolver "iss" n uri list)
    (hread : readTokenStatusRef ref = .ok tokenRef)
    (h : checkIetfRef Z tokenRef policy bound = .ok out) :
    RefClear Z policy credentialIssuer resolver ref := by
  simp only [readTokenStatusRef, bind_eq_ok, orRaise_eq_ok, raiseIf_eq_ok, pure_eq_ok,
    Json.str?_eq_some] at hread
  obtain ⟨⟨⟩, hpresent, uri, huri, index, hindex, rfl⟩ := hread
  obtain ⟨-, hlt, hint⟩ := statusIndex_eq_ok hindex
  have hne : uri ≠ [] := by
    rintro rfl
    rw [huri] at hpresent
    simp [Json.truthy] at hpresent
  cases bound with
  | none =>
    simp only [checkIetfRef, failClosed, bind_eq_ok, raiseIf_eq_ok, hreq] at h
    obtain ⟨⟨⟩, hfalse, -⟩ := h
    cases hfalse
  | some resolve =>
    simp only [checkIetfRef, checkTokenStatus, refuseIetf, bind_eq_ok, raiseIf_eq_ok, pure_eq_ok,
      hrev, Bool.and_true] at h
    obtain ⟨result, ⟨list, hlist, hresult⟩, ⟨⟩, ⟨⟨⟩, hrevoked, hsuspended⟩, -⟩ := h
    obtain ⟨bits, data, hpub, hin, rfl⟩ := tokenStatusResult_eq_ok hresult
    exact ⟨uri, index, list, bits, data, huri, hne, hint rfl, hlt,
      hbound resolve 0 uri list rfl hlist, hpub, hin, by simpa using hrevoked,
      by simpa using hsuspended⟩

theorem checkIetfSource_eq_ok (hreq : policy.requireStatus = true)
    (hrev : policy.requireNotRevoked = true) {ietfSource : Dict} {credentialIssuer : Option Str}
    {bound resolver : Option Resolver} {out : Option TokenStatusResult}
    (hbound : ∀ resolve n uri list, bound = some resolve → resolve n uri = .ok list →
      Consulted policy credentialIssuer resolver "iss" n uri list)
    (h : checkIetfSource Z ietfSource policy bound = .ok out) :
    IetfClear Z policy credentialIssuer resolver ietfSource := by
  simp only [checkIetfSource, bind_eq_ok] at h
  obtain ⟨tokenRef, hparse, h⟩ := h
  rw [parseTokenStatusRef] at hparse
  cases hclaim : statusListClaim ietfSource with
  | none =>
    -- no reference: a `status` that is present was refused
    rw [hclaim] at hparse
    cases hparse
    obtain ⟨⟨⟩, hrefuse, -⟩ := bind_eq_ok.mp h
    have hnull := raiseIf_eq_ok.mp hrefuse
    rw [hreq, Bool.and_true, Bool.not_eq_false'] at hnull
    left
    cases hs : ietfSource.get "status" with
    | null => rfl
    | bool | int | float | str | arr | obj => rw [hs] at hnull; cases hnull
  | some ref =>
    rw [hclaim] at hparse
    obtain ⟨tokenRef', hread, hsome⟩ := bind_eq_ok.mp hparse
    cases hsome
    simp only [statusListClaim, Option.bind_eq_some_iff, Json.obj?_eq_some] at hclaim
    obtain ⟨status, hstatus, hlist⟩ := hclaim
    exact Or.inr ⟨status, ref, hstatus, hlist, checkIetfRef_eq_ok hreq hrev hbound hread h⟩

/-- The status gate fails closed: under a policy that requires status and forbids revocation it
returns only when every status the credential declares was resolved, read inside its list from a
trusted issuer, and is clear. -/
theorem checkStatus_failClosed (hreq : policy.requireStatus = true)
    (hrev : policy.requireNotRevoked = true) {w3cSource : Dict} {ietfSource : Option Dict}
    {credentialIssuer : Option Str} {out : Option StatusOutcome}
    (h : checkStatus Z w3cSource ietfSource policy resolvers credentialIssuer = .ok out) :
    W3cClear Z policy credentialIssuer resolvers.statusList w3cSource ∧
      ∀ claims, ietfSource = some claims →
        IetfClear Z policy credentialIssuer resolvers.statusListToken claims := by
  simp only [checkStatus, bind_eq_ok] at h
  obtain ⟨bound, hbound, w3c, hw3c, ietf, hietf, -⟩ := h
  obtain ⟨hlist, htoken⟩ := boundResolvers_eq_ok hbound
  refine ⟨checkW3cStatus_eq_ok hreq hrev hlist hw3c, ?_⟩
  rintro claims rfl
  exact checkIetfSource_eq_ok hreq hrev htoken hietf

/-- The two lists of the example below, decompressed: bit 2 of the W3C list is set, and status 2 of
the IETF list. -/
def exampleZlib : Zlib where
  gunzip data :=
    if data = Codec.intToFixed 0x1f8b0800000000000203536000005d365dd402000000 22 then some [32, 0]
    else none
  inflate data := if data = Codec.intToFixed 0x78da63010000050005 9 then some [4] else none

/-- A credential with a W3C revocation entry, an unrelated status and an IETF reference. -/
def exampleCredential : Dict :=
  [("credentialStatus", .arr [
    .obj [("type", .str "BitstringStatusListEntry"), ("statusPurpose", .str "revocation"),
      ("statusListCredential", .str "https://i/1"), ("statusListIndex", .str "5")],
    .obj [("type", .str "OtherStatus")]]),
   ("status", .obj [("status_list", .obj [("uri", .str "https://i/2"), ("idx", .int 1)])])]

/-- The lists published by the credential's issuer. -/
def exampleResolvers : Resolvers where
  statusList := some fun _ _ => .ok (.obj [("issuer", .obj [("id", .str "did:i")]),
    ("credentialSubject", .obj [("statusPurpose", .str "revocation"),
      ("encodedList", .str "uH4sIAAAAAAACA1NgAABdNl3UAgAAAA")])])
  statusListToken := some fun _ _ => .ok (.obj [("iss", .str "did:i"),
    ("status_list", .obj [("bits", .int 1), ("lst", .str "eNpjAQAABQAF")])])

/-- The policy of the example: the defaults, with the issuer binding on. -/
def bindingPolicy : VerificationPolicy := { requireStatusIssuerBinding := true }

theorem checkStatus_failClosed_example :
    W3cClear exampleZlib bindingPolicy (some "did:i") exampleResolvers.statusList
        exampleCredential ∧
      IetfClear exampleZlib bindingPolicy (some "did:i") exampleResolvers.statusListToken
        exampleCredential := by
  obtain ⟨out, hout⟩ := (returned_iff (x := checkStatus exampleZlib exampleCredential
    (some exampleCredential) bindingPolicy exampleResolvers (some "did:i"))).mp (by decide +kernel)
  have h := checkStatus_failClosed rfl rfl hout
  exact ⟨h.1, h.2 _ rfl⟩

end OpenVC
