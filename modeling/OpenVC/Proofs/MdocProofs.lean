import OpenVC.Mdoc
import OpenVC.Proofs.CborProofs

/-!
# What an accepted mdoc is

The digests are over the bytes that were received, so the account starts with the slices that the
decoder records. Over it, each check of the verifier is inverted once, and the two seals of a document
are assembled from them.
-/

namespace OpenVC.Cbor

open Python PrefixReader

/-! ## The recorded bytes -/

section Loops

variable {item item' : Bytes → Result (Cbor × Bytes)} (h : Extends item item')

include h

theorem extends_readItems (n : Nat) : Extends (readItems item n) (readItems item' n) := by
  induction n with
  | zero => exact fun _ _ hx => hx
  | succ n ih =>
    rintro data ⟨l, rest⟩ hx
    obtain ⟨v, vs, data₁, hv, hvs, rfl⟩ := readItems_succ.mp hx
    exact readItems_succ.mpr ⟨v, vs, data₁, h _ _ hv, ih _ _ hvs, rfl⟩

theorem extends_readEntries (n : Nat) (entries : List (CborKey × Cbor)) :
    Extends (readEntries item n entries) (readEntries item' n entries) := by
  induction n generalizing entries with
  | zero => exact fun _ _ hx => hx
  | succ n ih =>
    rintro data ⟨m, rest⟩ hx
    obtain ⟨k, key, v, data₁, data₂, hk, hv, hkey, hnew, hrest⟩ := readEntries_succ.mp hx
    exact readEntries_succ.mpr
      ⟨k, key, v, data₁, data₂, h _ _ hk, h _ _ hv, hkey, hnew, ih _ _ _ hrest⟩

theorem Body.extend {start rest : Bytes} {hd : Head} {v : Cbor} (hb : Body item start hd v rest) :
    Body item' start hd v rest := by
  cases hb with
  | uint hm => exact .uint hm
  | nint hm => exact .nint hm
  | bytes hm hr hlen => exact .bytes hm hr hlen
  | text hm hr hlen hs => exact .text hm hr hlen hs
  | arr hm hl => exact .arr hm (extends_readItems h _ _ _ hl)
  | map hm he => exact .map hm (extends_readEntries h _ _ _ _ he)
  | tag hm hv => exact .tag hm (h _ _ hv)
  | simple hm hv => exact .simple hm hv

end Loops

theorem extends_decodeAt_succ (left : Nat) : Extends (decodeAt left) (decodeAt (left + 1)) := by
  induction left with
  | zero =>
    intro data x hx
    cases hx
  | succ left ih =>
    rintro data ⟨v, rest⟩ hx
    obtain ⟨hd, hhead, hbody⟩ := decodeAt_succ.mp hx
    exact decodeAt_succ.mpr
      ⟨hd, hhead, decodeBody_eq_ok.mpr ((decodeBody_eq_ok.mp hbody).extend ih)⟩

theorem extends_decodeAt {left left' : Nat} (h : left ≤ left') :
    Extends (decodeAt left) (decodeAt left') := by
  induction h with
  | refl => exact fun _ _ hx => hx
  | step _ ih => exact fun data x hx => extends_decodeAt_succ _ data x (ih data x hx)

mutual

/-- Each tag of the value has its own bytes recorded: a slice of the data that is read as that
tag. -/
def Received (data : Bytes) : Cbor → Prop
  | .arr l => ReceivedList data l
  | .map m => ReceivedEntries data m
  | .tag n v r => (∃ c, r = some c ∧ c <:+: data ∧ decode c = .ok (.tag n v r)) ∧ Received data v
  | .raw _ => False
  | _ => True

/-- `Received`, over a list. -/
def ReceivedList (data : Bytes) : List Cbor → Prop
  | [] => True
  | v :: t => Received data v ∧ ReceivedList data t

/-- `Received`, over the values of a map. -/
def ReceivedEntries (data : Bytes) : List (CborKey × Cbor) → Prop
  | [] => True
  | (_, v) :: t => Received data v ∧ ReceivedEntries data t

end

theorem receivedList_iff {data : Bytes} {l : List Cbor} :
    ReceivedList data l ↔ ∀ v ∈ l, Received data v := by
  induction l with
  | nil => simp [ReceivedList]
  | cons v l ih => simp [ReceivedList, ih]

theorem receivedEntries_iff {data : Bytes} {m : List (CborKey × Cbor)} :
    ReceivedEntries data m ↔ ∀ p ∈ m, Received data p.2 := by
  induction m with
  | nil => simp [ReceivedEntries]
  | cons p m ih => simp [ReceivedEntries, ih]

/-- The decoder records the bytes of each tag. -/
theorem received_of_decodeAt {left : Nat} {full data rest : Bytes} {v : Cbor}
    (hleft : left ≤ maxDepth + 1) (hdata : data <:+ full)
    (h : decodeAt left data = .ok (v, rest)) : Received full v ∧ rest <:+ full := by
  induction left generalizing data rest v with
  | zero => cases h
  | succ left ih =>
    obtain ⟨c, hc, hreads⟩ := delimits_decodeAt _ _ _ _ h
    have hrest : rest <:+ full := (hc ▸ List.suffix_append c rest).trans hdata
    refine ⟨?_, hrest⟩
    obtain ⟨hd, hhead, hbody⟩ := decodeAt_succ.mp h
    obtain ⟨-, c₀, hc₀, -⟩ := readHead_eq_ok hhead
    have hbelow : hd.rest <:+ full := (hc₀ ▸ List.suffix_append c₀ hd.rest).trans hdata
    have hitem : ∀ data v rest, data <:+ full → decodeAt left data = .ok (v, rest) →
        Received full v ∧ rest <:+ full := fun _ _ _ hd h => ih (by omega) hd h
    rw [decodeBody_eq_ok] at hbody
    cases hbody with
    | uint | nint | bytes | text => trivial
    | arr hm hl => exact receivedList_iff.mpr (readItems_spec hitem hbelow hl).2.1
    | map hm he =>
      obtain ⟨-, -, hall, -⟩ := readEntries_spec hitem hbelow he (by simp) List.nodup_nil
      exact receivedEntries_iff.mpr fun p hp => (hall p hp).2
    | tag hm hv =>
      refine ⟨⟨c, ?_, ?_, ?_⟩, (hitem _ _ _ hbelow hv).1⟩
      · rw [hc, take_sub_length]
      · exact (hc ▸ (List.prefix_append c rest).isInfix).trans hdata.isInfix
      · have hcode := hreads []
        rw [List.append_nil] at hcode
        exact decode_eq_ok.mpr (extends_decodeAt hleft _ _ hcode)
    | simple hm hv =>
      unfold simple at hv
      split_ifs at hv
      all_goals cases hv
      all_goals trivial

theorem received_of_decode {data : Bytes} {v : Cbor} (h : decode data = .ok v) : Received data v :=
  (received_of_decodeAt le_rfl List.suffix_rfl (decode_eq_ok.mp h)).1

theorem mem_of_lookup {m : List (CborKey × Cbor)} {k : CborKey} {v : Cbor}
    (h : m.lookup k = some v) : (k, v) ∈ m := by
  obtain ⟨l, r, rfl, -⟩ := List.lookup_eq_some_iff.mp h
  simp

theorem mem_of_get {m : List (CborKey × Cbor)} {k : CborKey} {v : Cbor} (h : CborKey.get m k = v)
    (hv : v ≠ .null) : (k, v) ∈ m := by
  unfold CborKey.get at h
  cases hl : m.lookup k with
  | none =>
    rw [hl] at h
    exact absurd h.symm hv
  | some w =>
    rw [hl] at h
    cases h
    exact mem_of_lookup hl

theorem Received.field {data : Bytes} {m : List (CborKey × Cbor)} {name : String} {v : Cbor}
    (h : Received data (.map m)) (hv : field m name = v) (hne : v ≠ .null) : Received data v :=
  receivedEntries_iff.mp h _ (mem_of_get hv hne)

end OpenVC.Cbor

namespace OpenVC.Mdoc

open Python Cbor Cose

/-! ## Items and namespaces -/

section Values

variable {v : Cbor}

theorem map?_eq_some {m : List (CborKey × Cbor)} : v.map? = some m ↔ v = .map m := by
  cases v <;> simp [map?]

theorem int?_eq_some {n : Int} : v.int? = some n ↔ v = .int n := by
  cases v <;> simp [int?]

theorem bytes?_eq_some {b : Bytes} : v.bytes? = some b ↔ v = .bytes b := by
  cases v <;> simp [bytes?]

theorem text?_eq_some {s : Str} : v.text? = some s ↔ v = .text s := by
  cases v <;> simp [text?]

theorem arr?_eq_some {l : List Cbor} : v.arr? = some l ↔ v = .arr l := by
  cases v <;> simp [arr?]

theorem embedded_eq_some {value received : Bytes} :
    embedded v = some (value, received) ↔
      v = .tag tagEncodedCbor (.bytes value) (some received) := by
  constructor
  · intro h
    unfold embedded at h
    split at h
    · rename_i n b r
      split_ifs at h with hn
      cases h
      rw [hn]
    · cases h
  · rintro rfl
    rfl

theorem encodedCbor?_eq_some {w : Cbor} :
    encodedCbor? v = some w ↔ ∃ r, v = .tag tagEncodedCbor w r := by
  constructor
  · intro h
    unfold encodedCbor? at h
    split at h
    · rename_i n w' r
      split_ifs at h with hn
      cases h
      exact ⟨r, by rw [hn]⟩
    · cases h
  · rintro ⟨r, rfl⟩
    rfl

end Values

/-- The item discloses the element, and its received bytes have the digest that the issuer sealed for
its `digestID`. -/
def SealedItem (hasher : Bytes → Bytes) (nsDigests : List (CborKey × Cbor)) (item : Cbor)
    (element : Str × Cbor) : Prop :=
  ∃ value received fields digestId,
    item = .tag tagEncodedCbor (.bytes value) (some received) ∧ decode value = .ok (.map fields) ∧
    field fields "digestID" = .int digestId ∧
    labelled nsDigests digestId = .bytes (hasher received) ∧
    field fields "elementIdentifier" = .text element.1 ∧ element.1 ≠ [] ∧
    element.2 = plain (field fields "elementValue")

section Spaces

variable {hasher : Bytes → Bytes} {space : Str} {nsDigests valueDigests : List (CborKey × Cbor)}

theorem verifyItem_eq_ok {item : Cbor} {element : Str × Cbor} :
    verifyItem hasher space nsDigests item = .ok element ↔
      SealedItem hasher nsDigests item element := by
  simp only [verifyItem, bind_eq_ok, orRaise_eq_ok, reraise_eq_ok, raiseIf_eq_ok, pure_eq_ok,
    Prod.exists, embedded_eq_some, map?_eq_some, int?_eq_some, bytes?_eq_some,
    Option.filter_eq_some_iff, text?_eq_some, bne_eq_false_iff_eq]
  constructor
  · rintro ⟨value, received, hitem, _, hdecode, fields, rfl, digestId, hid, expected, hexpected, ⟨⟩,
      rfl, elementId, ⟨hname, hne⟩, rfl⟩
    exact ⟨value, received, fields, digestId, hitem, hdecode, hid, hexpected, hname, by simpa using hne,
      rfl⟩
  · rintro ⟨value, received, fields, digestId, hitem, hdecode, hid, hexpected, hname, hne, hvalue⟩
    exact ⟨value, received, hitem, _, hdecode, fields, rfl, digestId, hid, _, hexpected, (), rfl,
      element.1, ⟨hname, by simpa using hne⟩, by rw [← hvalue]⟩

/-- The elements, assigned one after the other. -/
def assignAll {α : Type} (d : Named α) (elements : Named α) : Named α :=
  elements.foldl (fun d e => assign d e.1 e.2) d

theorem verifyItems_eq_ok {items : List Cbor} {claims out : Named Cbor} :
    verifyItems hasher space nsDigests claims items = .ok out ↔ ∃ elements,
      List.Forall₂ (SealedItem hasher nsDigests) items elements ∧
      out = assignAll claims elements := by
  induction items generalizing claims with
  | nil => simp [verifyItems, assignAll, eq_comm]
  | cons item items ih =>
    simp only [verifyItems, bind_eq_ok, Prod.exists, ih]
    constructor
    · rintro ⟨id, value, hitem, elements, hall, rfl⟩
      exact ⟨(id, value) :: elements, .cons (verifyItem_eq_ok.mp hitem) hall, rfl⟩
    · rintro ⟨elements, hall, rfl⟩
      cases hall with
      | cons hitem hrest => exact ⟨_, _, verifyItem_eq_ok.mpr hitem, _, hrest, rfl⟩

/-- A namespace of the document with the claims that its items disclose. -/
def SealedSpace (hasher : Bytes → Bytes) (valueDigests : List (CborKey × Cbor))
    (entry : CborKey × Cbor) (out : Str × Named Cbor) : Prop :=
  ∃ items nsDigests elements, entry = (.text out.1, .arr items) ∧
    CborKey.get valueDigests (.text out.1) = .map nsDigests ∧
    List.Forall₂ (SealedItem hasher nsDigests) items elements ∧ out.2 = assignAll [] elements

theorem spaceName_eq_some {k : CborKey} {s : Str} : spaceName k = some s ↔ k = .text s := by
  cases k <;> simp [spaceName]

theorem verifySpace_eq_ok {entry : CborKey × Cbor} {out : Str × Named Cbor} :
    verifySpace hasher valueDigests entry = .ok out ↔
      SealedSpace hasher valueDigests entry out := by
  obtain ⟨key, value⟩ := entry
  simp only [verifySpace, bind_eq_ok, orRaise_eq_ok, pure_eq_ok, map?_eq_some, arr?_eq_some,
    spaceName_eq_some, verifyItems_eq_ok]
  constructor
  · rintro ⟨space, rfl, items, rfl, nsDigests, hdigests, claims, ⟨elements, hall, rfl⟩, rfl⟩
    exact ⟨items, nsDigests, elements, rfl, hdigests, hall, rfl⟩
  · rintro ⟨items, nsDigests, elements, heq, hdigests, hall, hout⟩
    obtain ⟨rfl, rfl⟩ := Prod.mk.inj heq
    exact ⟨out.1, rfl, items, rfl, nsDigests, hdigests, _, ⟨elements, hall, rfl⟩, by rw [← hout]⟩

theorem verifySpaces_eq_ok {entries : List (CborKey × Cbor)} {disclosed out : Named (Named Cbor)} :
    verifySpaces hasher valueDigests disclosed entries = .ok out ↔ ∃ spaces,
      List.Forall₂ (SealedSpace hasher valueDigests) entries spaces ∧
      out = assignAll disclosed spaces := by
  induction entries generalizing disclosed with
  | nil => simp [verifySpaces, assignAll, eq_comm]
  | cons entry entries ih =>
    simp only [verifySpaces, bind_eq_ok, Prod.exists, ih]
    constructor
    · rintro ⟨space, claims, hspace, spaces, hall, rfl⟩
      exact ⟨(space, claims) :: spaces, .cons (verifySpace_eq_ok.mp hspace) hall, rfl⟩
    · rintro ⟨spaces, hall, rfl⟩
      cases hall with
      | cons hspace hrest => exact ⟨_, _, verifySpace_eq_ok.mpr hspace, _, hrest, rfl⟩

/-- The namespaces of a document, none if it discloses nothing. -/
def spacesOf (issuerSigned : List (CborKey × Cbor)) : List (CborKey × Cbor) :=
  ((field issuerSigned "nameSpaces").map?).getD []

theorem verifyValueDigests_eq_ok {issuerSigned mso : List (CborKey × Cbor)}
    {out : Named (Named Cbor)} :
    verifyValueDigests issuerSigned mso hasher = .ok out ↔ ∃ valueDigests spaces,
      field mso "valueDigests" = .map valueDigests ∧
      (field issuerSigned "nameSpaces" = .null ∨
        ∃ m, field issuerSigned "nameSpaces" = .map m) ∧
      List.Forall₂ (SealedSpace hasher valueDigests) (spacesOf issuerSigned) spaces ∧
      out = assignAll [] spaces := by
  simp only [verifyValueDigests, bind_eq_ok, orRaise_eq_ok, map?_eq_some, spacesOf]
  constructor
  · rintro ⟨valueDigests, hdigests, h⟩
    split at h
    · rename_i hnull
      cases h
      exact ⟨valueDigests, [], hdigests, .inl hnull, by rw [hnull]; exact .nil, rfl⟩
    · rename_i m hm
      obtain ⟨spaces, hall, rfl⟩ := verifySpaces_eq_ok.mp h
      exact ⟨valueDigests, spaces, hdigests, .inr ⟨m, hm⟩, by rw [hm]; exact hall, rfl⟩
    · cases h
  · rintro ⟨valueDigests, spaces, hdigests, hshape, hall, rfl⟩
    refine ⟨valueDigests, hdigests, ?_⟩
    rcases hshape with hnull | ⟨m, hm⟩
    · rw [hnull] at hall ⊢
      cases hall
      rfl
    · rw [hm] at hall ⊢
      exact verifySpaces_eq_ok.mpr ⟨spaces, hall, rfl⟩

end Spaces

section Assign

variable {α : Type} {d : Named α} {name : Str} {value : α}

theorem mem_assign {e : Str × α} (h : e ∈ assign d name value) : e ∈ d ∨ e = (name, value) := by
  induction d with
  | nil => exact .inr (List.mem_singleton.mp h)
  | cons p d ih =>
    obtain ⟨n, v⟩ := p
    rw [assign] at h
    split at h
    · rename_i hn
      rcases List.mem_cons.mp h with rfl | h
      · exact .inr (by rw [hn])
      · exact .inl (List.mem_cons_of_mem _ h)
    · rcases List.mem_cons.mp h with rfl | h
      · exact .inl List.mem_cons_self
      · exact (ih h).imp_left (List.mem_cons_of_mem _)

theorem mem_assignAll {elements : Named α} {e : Str × α} (h : e ∈ assignAll d elements) :
    e ∈ d ∨ e ∈ elements := by
  induction elements generalizing d with
  | nil => exact .inl h
  | cons p elements ih =>
    rcases ih h with h | h
    · rcases mem_assign h with h | rfl
      · exact .inl h
      · exact .inr List.mem_cons_self
    · exact .inr (List.mem_cons_of_mem _ h)

end Assign

theorem forall₂_of_mem {α β : Type} {R S : α → β → Prop} {l : List α} {l' : List β}
    (h : List.Forall₂ R l l') (hS : ∀ a ∈ l, ∀ b, R a b → S a b) : List.Forall₂ S l l' := by
  induction h with
  | nil => exact .nil
  | cons hab _ ih =>
    exact .cons (hS _ List.mem_cons_self _ hab) (ih fun a ha => hS a (List.mem_cons_of_mem _ ha))

/-! ## The issuer's seal -/

/-- A certificate chain that leads to an anchor at the instant, with the key of its leaf. -/
structure Anchored (E : Env) (call : Call E) (instant : Int) (ders : List Bytes) (key : Dict) where
  chain : X5c.Chain E.x509.toX509
  loaded : X5c.loadDerChain E.x509 ders = .ok chain
  path : E.x509.verifyPath call.trustAnchors instant chain.1 chain.2 = .ok ()
  documentSigner : X5c.requireMdocDsEku E.x509 chain.1 = .ok ()
  leafKey : X5c.leafPublicJwk E.x509 chain.1 = .ok key

/-- The signature of a `COSE_Sign1` over a payload verifies under a key. -/
def SignatureVerifies (C : Crypto) (sign1 : Structure) (key : Dict) (payload : Bytes) : Prop :=
  ∃ alg joseAlg input, requireAlg sign1.protectedHeader = .ok alg ∧
    coseAlgToJose alg = some joseAlg ∧
    tbs (lit "Signature1") sign1.protectedRaw [] payload = .ok input ∧
    verifySignature C joseAlg key input sign1.authenticator = .ok true

/-- The tag of a `COSE_Mac0` over a payload verifies under a key. -/
def TagVerifies (C : Crypto) (mac0 : Structure) (key payload : Bytes) : Prop :=
  ∃ input, tbs (lit "MAC0") mac0.protectedRaw [] payload = .ok input ∧
    Hashlib.hmac C.sha256 64 key input = mac0.authenticator

/-- The payload is a Mobile Security Object under a tag 24. -/
def IsMso (payload : Bytes) (mso : List (CborKey × Cbor)) : Prop :=
  ∃ value r, decode payload = .ok (.tag tagEncodedCbor (.bytes value) r) ∧
    decode value = .ok (.map mso)

/-- The instant is in the window of the object, up to the leeway. -/
def InWindow (E : Env) (mso : List (CborKey × Cbor)) (instant leewayS : Int)
    (validity : Validity) : Prop :=
  ∃ info, field mso "validityInfo" = .map info ∧
    parseDate E (field info "signed") = .ok (some validity.signed) ∧
    parseDate E (field info "validFrom") = .ok (some validity.validFrom) ∧
    parseDate E (field info "validUntil") = .ok (some validity.validUntil) ∧
    validity.validFrom.instant - instant ≤ leewayS * 1000000 ∧
    instant - validity.validUntil.instant ≤ leewayS * 1000000

/-- The item was received in the data: its recorded bytes are a slice that is read as the item. -/
def ReceivedItem (data : Bytes) (item : Cbor) : Prop :=
  ∃ n v c, item = .tag n v (some c) ∧ c <:+: data ∧ decode c = .ok item

/-- The issuer's seal on a document of the data: the signed object, and the items under it. -/
structure Seal (E : Env) (call : Call E) (data : Bytes) (document : Cbor) (out : VerifiedMdoc)
    (mso : List (CborKey × Cbor)) where
  entries : List (CborKey × Cbor)
  document_eq : document = .map entries
  docType : field entries "docType" = .text out.docType
  issuerSigned : List (CborKey × Cbor)
  issuerSigned_eq : field entries "issuerSigned" = .map issuerSigned
  issuerAuth : Structure
  parsed : parseSign1 (field issuerSigned "issuerAuth") = .ok issuerAuth
  ders : List Bytes
  x5chain : x5chainDers issuerAuth = .ok ders
  instant : Int
  evaluatedAt : utcInstant E.interpreter call.now .mdocError = .ok instant
  anchored : Anchored E call instant ders out.issuerKey
  payload : Bytes
  attached : issuerAuth.payload = some payload
  signed : SignatureVerifies E.crypto issuerAuth out.issuerKey payload
  isMso : IsMso payload mso
  msoDocType : field mso "docType" = .text out.docType
  window : InWindow E mso instant call.leewayS out.validity
  algorithm : Str
  digestAlgorithm : field mso "digestAlgorithm" = .text algorithm
  hasher : Bytes → Bytes
  hashes : digestAlg E.crypto algorithm = some hasher
  valueDigests : List (CborKey × Cbor)
  valueDigests_eq : field mso "valueDigests" = .map valueDigests
  /-- No item is without its digest. -/
  itemsSealed : ∀ space items, (.text space, .arr items) ∈ spacesOf issuerSigned →
    ∃ nsDigests, CborKey.get valueDigests (.text space) = .map nsDigests ∧
      ∀ item ∈ items, ReceivedItem data item ∧ ∃ element, SealedItem hasher nsDigests item element
  /-- What is returned is what such an item discloses. -/
  returned : ∀ space claims, (space, claims) ∈ out.namespaces → ∀ element ∈ claims,
    ∃ items nsDigests item, (.text space, .arr items) ∈ spacesOf issuerSigned ∧
      CborKey.get valueDigests (.text space) = .map nsDigests ∧ item ∈ items ∧
      ReceivedItem data item ∧ SealedItem hasher nsDigests item element

theorem effectivePayload_attached {kind : Kind} {s : Structure} {payload p : Bytes}
    (hs : s.payload = some payload) (h : effectivePayload kind s.payload none = .ok p) :
    p = payload := by
  rw [hs] at h
  exact (Except.ok.inj h).symm

theorem effectivePayload_detached {kind : Kind} {s : Structure} {detached p : Bytes}
    (h : effectivePayload kind s.payload (some detached) = .ok p) : p = detached := by
  cases hs : s.payload with
  | none =>
    rw [hs] at h
    exact (Except.ok.inj h).symm
  | some _ =>
    rw [hs] at h
    cases h

theorem verifySign1_eq_ok {C : Crypto} {s : Structure} {key : Dict} {detached : Option Bytes}
    (h : verifySign1 C s key detached [] = .ok true) :
    ∃ payload, effectivePayload sign1 s.payload detached = .ok payload ∧
      SignatureVerifies C s key payload := by
  simp only [verifySign1, bind_eq_ok, orRaise_eq_ok] at h
  obtain ⟨alg, halg, joseAlg, hjose, payload, hpayload, input, hinput, hverify⟩ := h
  exact ⟨payload, hpayload, alg, joseAlg, input, halg, hjose, hinput, hverify⟩

theorem resolveMdocSignerKey_eq_ok {E : Env} {call : Call E} {instant : Int} {ders : List Bytes}
    {key : Dict} (h : X5c.resolveMdocSignerKey E.x509 E.interpreter ders call.trustAnchors
      (some (atInstant instant)) = .ok key) : Nonempty (Anchored E call instant ders key) := by
  simp only [X5c.resolveMdocSignerKey, bind_eq_ok] at h
  obtain ⟨chain, hchain, ⟨⟩, hvalid, ⟨⟩, heku, hkey⟩ := h
  simp only [X5c.validateCertChain, bind_eq_ok, raiseIf_eq_ok, utcInstant, pure_eq_ok] at hvalid
  obtain ⟨⟨⟩, -, i, ⟨⟨⟩, -, rfl⟩, hpath⟩ := hvalid
  have hi : (atInstant instant).orUtc.instant = instant := by
    simp [atInstant, DateTime.orUtc, DateTime.instant]
  rw [hi] at hpath
  split at hpath
  · rename_i hok
    exact ⟨chain, hchain, hok, heku, hkey⟩
  · cases hpath

theorem decodeMso_eq_ok {payload : Bytes} {mso : List (CborKey × Cbor)}
    (h : decodeMso payload = .ok mso) : IsMso payload mso := by
  simp only [decodeMso, bind_eq_ok, orRaise_eq_ok, reraise_eq_ok, encodedCbor?_eq_some,
    bytes?_eq_some, map?_eq_some] at h
  obtain ⟨_, hpayload, _, ⟨r, rfl⟩, value, rfl, _, hvalue, rfl⟩ := h
  exact ⟨value, r, hpayload, hvalue⟩

theorem checkValidity_eq_ok {E : Env} {mso : List (CborKey × Cbor)} {instant leewayS : Int}
    {validity : Validity} (h : checkValidity E mso instant (leewayS * 1000000) = .ok validity) :
    InWindow E mso instant leewayS validity := by
  simp only [checkValidity, bind_eq_ok, orRaise_eq_ok, raiseIf_eq_ok, pure_eq_ok, map?_eq_some,
    decide_eq_false_iff_not, not_lt] at h
  obtain ⟨info, hinfo, _, hsigned, _, hfrom, _, huntil, signed, rfl, validFrom, rfl, validUntil, rfl,
    ⟨⟩, hyet, ⟨⟩, hexpired, rfl⟩ := h
  exact ⟨info, hinfo, hsigned, hfrom, huntil, hyet, hexpired⟩

theorem receivedItem_of_received {data : Bytes} {item : Cbor} {hasher : Bytes → Bytes}
    {nsDigests : List (CborKey × Cbor)} {element : Str × Cbor} (h : Received data item)
    (hs : SealedItem hasher nsDigests item element) : ReceivedItem data item := by
  obtain ⟨value, received, -, -, rfl, -⟩ := hs
  obtain ⟨⟨c, hc, hin, hdecode⟩, -⟩ := h
  cases hc
  exact ⟨_, _, _, rfl, hin, hdecode⟩

/-- The result of the parts. -/
def IssuerParts.result (parts : IssuerParts) (deviceSigned : Bool) : VerifiedMdoc :=
  ⟨parts.docType, parts.namespaces, deviceSigned, parts.issuerKey, parts.validity⟩

theorem received_items {data : Bytes} {issuerSigned : List (CborKey × Cbor)}
    (h : Received data (.map issuerSigned)) {key : CborKey} {items : List Cbor}
    (hmem : (key, .arr items) ∈ spacesOf issuerSigned) : ∀ item ∈ items, Received data item := by
  unfold spacesOf at hmem
  cases hm : (field issuerSigned "nameSpaces").map? with
  | none =>
    rw [hm] at hmem
    exact absurd hmem List.not_mem_nil
  | some m =>
    rw [hm] at hmem
    rw [map?_eq_some] at hm
    have hspaces := h.field hm (by simp)
    exact receivedList_iff.mp (receivedEntries_iff.mp hspaces _ hmem)

/-- An accepted document carries the issuer's seal. -/
theorem seal_of_verifyIssuerParts {E : Env} {call : Call E} {data : Bytes} {document : Cbor}
    {parts : IssuerParts} (hreceived : Received data document)
    (h : verifyIssuerParts E call document = .ok parts) (deviceSigned : Bool) :
    Nonempty (Seal E call data document (parts.result deviceSigned) parts.mso) := by
  simp only [verifyIssuerParts, bind_eq_ok, orRaise_eq_ok, raiseIf_eq_ok, reraise_eq_ok, pure_eq_ok,
    map?_eq_some, Option.filter_eq_some_iff, text?_eq_some, parseIssuerAuth, utcWindow,
    Prod.exists, Prod.mk.injEq, Option.bind_eq_some_iff, bne_eq_false_iff_eq,
    verifyValueDigests_eq_ok] at h
  obtain ⟨entries, rfl, docType, ⟨hdocType, -⟩, ⟨⟩, -, issuerSigned, hissuerSigned, _, _,
    ⟨issuerAuth, hparsed, ders, hders, rfl, rfl⟩, _, _,
    ⟨instant, hinstant, leewayS, hleeway, rfl, rfl⟩,
    issuerKey, hkey, payload, hpayload, ok, hverify, ⟨⟩, hok, mso, hmso, ⟨⟩, hmsoDocType, hasher,
    ⟨algorithm, halgorithm, hhasher⟩, validity, hvalidity, ⟨⟩, -, namespaces,
    ⟨valueDigests, spaces, hdigests, -, hspaces, rfl⟩, rfl⟩ := h
  obtain ⟨anchored⟩ := resolveMdocSignerKey_eq_ok hkey
  have hleewayS : leewayS = call.leewayS := by
    simp only [leewaySeconds, bind_eq_ok, pure_eq_ok] at hleeway
    obtain ⟨-, -, rfl⟩ := hleeway
    rfl
  rw [Bool.not_eq_false'] at hok
  rw [hok] at hverify
  obtain ⟨p, hp, hsigned⟩ := verifySign1_eq_ok hverify
  rw [effectivePayload_attached hpayload hp] at hsigned
  rw [hleewayS] at hvalidity
  have hsignedItems : Received data (.map issuerSigned) := hreceived.field hissuerSigned (by simp)
  refine ⟨{
    entries := entries
    document_eq := rfl
    docType := hdocType
    issuerSigned := issuerSigned
    issuerSigned_eq := hissuerSigned
    issuerAuth := issuerAuth
    parsed := hparsed
    ders := ders
    x5chain := hders
    instant := instant
    evaluatedAt := hinstant
    anchored := anchored
    payload := payload
    attached := hpayload
    signed := hsigned
    isMso := decodeMso_eq_ok hmso
    msoDocType := hmsoDocType
    window := checkValidity_eq_ok hvalidity
    algorithm := algorithm
    digestAlgorithm := halgorithm
    hasher := hasher
    hashes := hhasher
    valueDigests := valueDigests
    valueDigests_eq := hdigests
    itemsSealed := ?_
    returned := ?_ }⟩
  · intro space items hmem
    obtain ⟨out, -, items', nsDigests, elements, heq, hns, hall, -⟩ :=
      exists_of_mem_left hspaces hmem
    obtain ⟨hs, hl⟩ := Prod.mk.inj heq
    cases hs
    cases hl
    refine ⟨nsDigests, hns, fun item hitem => ?_⟩
    obtain ⟨element, -, hsealed⟩ := exists_of_mem_left hall hitem
    exact ⟨receivedItem_of_received (received_items hsignedItems hmem item hitem) hsealed, element,
      hsealed⟩
  · intro space claims hmem element helement
    rcases mem_assignAll hmem with hmem | hmem
    · exact absurd hmem List.not_mem_nil
    obtain ⟨entry, hentry, items, nsDigests, elements, rfl, hns, hall, rfl⟩ :=
      exists_of_mem_left hspaces.flip hmem
    rcases mem_assignAll helement with helement | helement
    · exact absurd helement List.not_mem_nil
    obtain ⟨item, hitem, hsealed⟩ := exists_of_mem_left hall.flip helement
    exact ⟨items, nsDigests, item, hentry, hns, hitem,
      receivedItem_of_received (received_items hsignedItems hentry item hitem) hsealed, hsealed⟩

/-! ## The device's seal -/

/-- The device authenticated the document for the session: its key is the one in the object, and what
it covers is the transcript, the document type and the device's namespaces as they were received. -/
def DeviceBound (E : Env) (data : Bytes) (document : Cbor) (docType : Str)
    (mso : List (CborKey × Cbor)) (sessionTranscript : Bytes) (deviceMacKey : Option Bytes) : Prop :=
  ∃ entries deviceSigned deviceAuth deviceNs nsValue detached, document = .map entries ∧
    field entries "deviceSigned" = .map deviceSigned ∧
    field deviceSigned "deviceAuth" = .map deviceAuth ∧
    field deviceSigned "nameSpaces" = .tag tagEncodedCbor nsValue (some deviceNs) ∧
    ReceivedItem data (field deviceSigned "nameSpaces") ∧
    deviceAuthenticationBytes sessionTranscript docType deviceNs = .ok detached ∧
    ((∃ deviceInfo deviceKey sign1, field mso "deviceKeyInfo" = .map deviceInfo ∧
        coseKeyToJwk (field deviceInfo "deviceKey") = .ok deviceKey ∧
        parseSign1 (field deviceAuth "deviceSignature") = .ok sign1 ∧
        SignatureVerifies E.crypto sign1 deviceKey detached) ∨
      (∃ macKey mac0, deviceMacKey = some macKey ∧
        parseMac0 (field deviceAuth "deviceMac") = .ok mac0 ∧
        TagVerifies E.crypto mac0 macKey detached))

theorem deviceNameSpacesRaw_eq_some {v : Cbor} {raw : Bytes} :
    deviceNameSpacesRaw v = some raw ↔ ∃ w, v = .tag tagEncodedCbor w (some raw) := by
  constructor
  · intro h
    unfold deviceNameSpacesRaw at h
    split at h
    · rename_i n w r
      split_ifs at h with hn
      exact ⟨w, by rw [hn, h]⟩
    · cases h
  · rintro ⟨w, rfl⟩
    rfl

theorem verifyMac0_eq_ok {C : Crypto} {s : Structure} {key detached : Bytes}
    (h : verifyMac0 C s key (some detached) [] = .ok true) : TagVerifies C s key detached := by
  simp only [verifyMac0, bind_eq_ok, raiseIf_eq_ok, pure_eq_ok, beq_iff_eq] at h
  obtain ⟨alg, -, ⟨⟩, -, payload, hpayload, input, hinput, htag⟩ := h
  rw [effectivePayload_detached hpayload] at hinput
  exact ⟨input, hinput, htag⟩

theorem verifyDeviceSignature_eq_ok {C : Crypto} {signature : Cbor} {key : Dict} {detached : Bytes}
    (h : verifyDeviceSignature C signature key detached = .ok ()) :
    ∃ sign1, parseSign1 signature = .ok sign1 ∧ SignatureVerifies C sign1 key detached := by
  simp only [verifyDeviceSignature, checkDeviceSignature, bind_eq_ok, reraise_eq_ok, raiseIf_eq_ok,
    Bool.not_eq_false'] at h
  obtain ⟨_, ⟨sign1, hparse, hverify⟩, rfl⟩ := h
  obtain ⟨payload, hpayload, hsigned⟩ := verifySign1_eq_ok hverify
  rw [effectivePayload_detached hpayload] at hsigned
  exact ⟨sign1, hparse, hsigned⟩

theorem verifyDeviceMac_eq_ok {C : Crypto} {mac : Cbor} {deviceMacKey : Option Bytes}
    {detached : Bytes} (h : verifyDeviceMac C mac deviceMacKey detached = .ok ()) :
    ∃ macKey mac0, deviceMacKey = some macKey ∧ parseMac0 mac = .ok mac0 ∧
      TagVerifies C mac0 macKey detached := by
  simp only [verifyDeviceMac, checkDeviceMac, bind_eq_ok, orRaise_eq_ok, reraise_eq_ok,
    raiseIf_eq_ok, Bool.not_eq_false'] at h
  obtain ⟨macKey, hkey, _, ⟨mac0, hparse, hverify⟩, rfl⟩ := h
  exact ⟨macKey, mac0, hkey, hparse, verifyMac0_eq_ok hverify⟩

theorem deviceBound_of_verifyDeviceAuth {E : Env} {data : Bytes} {entries : List (CborKey × Cbor)}
    {parts : IssuerParts} {sessionTranscript : Bytes} {deviceMacKey : Option Bytes}
    (hreceived : Received data (.map entries))
    (h : verifyDeviceAuth E entries parts sessionTranscript deviceMacKey = .ok ()) :
    DeviceBound E data (.map entries) parts.docType parts.mso sessionTranscript deviceMacKey := by
  simp only [verifyDeviceAuth, bind_eq_ok, orRaise_eq_ok, reraise_eq_ok, map?_eq_some,
    deviceNameSpacesRaw_eq_some] at h
  obtain ⟨deviceSigned, hsigned, deviceNs, ⟨nsValue, hns⟩, deviceAuth, hauth, detached, hdetached,
    deviceInfo, hinfo, deviceKey, hkey, hbinding⟩ := h
  have hreceivedNs : ReceivedItem data (field deviceSigned "nameSpaces") := by
    rw [hns]
    obtain ⟨⟨c, hc, hin, hdecode⟩, -⟩ := (hreceived.field hsigned (by simp)).field hns (by simp)
    cases hc
    exact ⟨_, _, _, rfl, hin, hdecode⟩
  refine ⟨entries, deviceSigned, deviceAuth, deviceNs, nsValue, detached, rfl, hsigned, hauth, hns,
    hreceivedNs, hdetached, ?_⟩
  unfold verifyDeviceBinding at hbinding
  split at hbinding
  · cases hbinding
  · exact .inr (verifyDeviceMac_eq_ok hbinding)
  · obtain ⟨sign1, hparse, hverify⟩ := verifyDeviceSignature_eq_ok hbinding
    exact .inl ⟨deviceInfo, deviceKey, sign1, hinfo, hkey, hparse, hverify⟩

theorem parseResponse_eq_ok {deviceResponse : Bytes} {documents : List Cbor}
    (h : parseResponse deviceResponse = .ok documents) : ∃ m, decode deviceResponse = .ok (.map m) ∧
      field m "documents" = .arr documents := by
  simp only [parseResponse, bind_eq_ok, orRaise_eq_ok, reraise_eq_ok, map?_eq_some,
    Option.filter_eq_some_iff, arr?_eq_some] at h
  obtain ⟨_, hdecode, m, rfl, status, -, ⟨⟩, -, hdocuments, -⟩ := h
  exact ⟨m, hdecode, hdocuments⟩

/-- What the verifier returns is under the issuer's seal, and from a response also under the
device's. -/
theorem verifyMdoc_sealed (E : Env) (call : Call E) :
    (∀ data document out, decode data = .ok document →
      verifyIssuerSigned E call document = .ok out →
        ∃ mso, Nonempty (Seal E call data document out mso)) ∧
    ∀ deviceResponse sessionTranscript deviceMacKey results,
      verifyDeviceResponse E call deviceResponse sessionTranscript deviceMacKey = .ok results →
        ∃ m documents, decode deviceResponse = .ok (.map m) ∧
          field m "documents" = .arr documents ∧
          List.Forall₂ (fun document out => out.deviceSigned = true ∧
            ∃ mso, Nonempty (Seal E call deviceResponse document out mso) ∧
              DeviceBound E deviceResponse document out.docType mso sessionTranscript deviceMacKey)
            documents results := by
  constructor
  · intro data document out hdata h
    simp only [verifyIssuerSigned, bind_eq_ok, pure_eq_ok] at h
    obtain ⟨-, -, parts, hparts, rfl⟩ := h
    exact ⟨parts.mso, seal_of_verifyIssuerParts (received_of_decode hdata) hparts false⟩
  · intro deviceResponse sessionTranscript deviceMacKey results h
    simp only [verifyDeviceResponse, bind_eq_ok, collect_eq_ok] at h
    obtain ⟨-, -, documents, hdocuments, hall⟩ := h
    obtain ⟨m, hdecode, hm⟩ := parseResponse_eq_ok hdocuments
    refine ⟨m, documents, hdecode, hm, ?_⟩
    have hreceived := receivedList_iff.mp ((received_of_decode hdecode).field hm (by simp))
    refine forall₂_of_mem hall fun document hmem out hout => ?_
    simp only [verifyDocument, bind_eq_ok, pure_eq_ok] at hout
    obtain ⟨parts, hparts, ⟨⟩, hdevice, rfl⟩ := hout
    have hseal := seal_of_verifyIssuerParts (hreceived document hmem) hparts true
    refine ⟨rfl, parts.mso, hseal, ?_⟩
    obtain ⟨issued⟩ := hseal
    rw [issued.document_eq] at hdevice ⊢
    exact deviceBound_of_verifyDeviceAuth (issued.document_eq ▸ hreceived document hmem) hdevice

/-! ## A response -/

/-- Bytes in blocks of 32, with the length and the value of the last. -/
def ofWords (words : List Nat) (n last : Nat) : Bytes :=
  ((words.flatMap fun w => Hashlib.bigEndian w 32) ++ Hashlib.bigEndian last n).map UInt8.ofNat

/-- The certificate of a document signer. -/
def signerDer : Bytes := ofWords
    [0x308201233081CAA003020102020101300A06082A8648CE3D040302300F310D30,
     0x0B06035504030C0449414341301E170D3236303130313030303030305A170D32,
     0x38303130313030303030305A300D310B300906035504030C0244533059301306,
     0x072A8648CE3D020106082A8648CE3D0301070342000444C53668C0981F0534BC,
     0x27606B6F101B2D0F6FB9073A8D23DF58E34F4311618B22B78093949BE47165E7,
     0x0FF231EBF23A49BABA60F59CE7CFA56C1EEC85E07094A319301730150603551D,
     0x250101FF040B3009060728818C5D050102300A06082A8648CE3D040302034800,
     0x304502207DD87EF51F815E24B15DF309CB1C4243B35FA5D84C0AA60D884F6A3D,
     0x780A2B24022100D3DC55833EE1F068F41F16F57112103FABB80EEE518950DCD7]
    7 0x4F720218E426C0

/-- A document of the signer up to its items: the device's signature, and the issuer's over the digests
of three items. -/
def documentHead : Bytes :=
  ofWords
    [0xA367646F6354797065756F72672E69736F2E31383031332E352E312E6D444C6C,
     0x6465766963655369676E6564A26A64657669636541757468A16F646576696365,
     0x5369676E61747572658443A10126A0F65840306898F89EA3F4E8823A09E2E735,
     0xD0AC1D03DC89EDE2F960B03E8CF04750E91A08CDF2CE7CD16A6646A9B66E0249,
     0xAA4635EBF4CAF0F7DD31E4420772EC4045EB6A6E616D65537061636573D81841,
     0xA06C6973737565725369676E6564A26A697373756572417574688443A10126A1]
    5 0x1821590127 ++ signerDer ++
  ofWords
    [0x5901A2D81859019DA667646F6354797065756F72672E69736F2E31383031332E,
     0x352E312E6D444C6776657273696F6E63312E306C76616C6964697479496E666F,
     0xA3667369676E6564C074323032362D30362D30315430303A30303A30305A6976,
     0x616C696446726F6DC074323032362D30362D30315430303A30303A30305A6A76,
     0x616C6964556E74696CC074323032372D30362D30315430303A30303A30305A6C,
     0x76616C756544696765737473A1716F72672E69736F2E31383031332E352E31A3,
     0x005820D4DE454D868DF362EBF400045EA6B5711D07AC3B74EC93AD37E4516EC1,
     0x34A66801582091F8F5071B9FB00AC5D111E0A8F24C9A8F67EEDC8620E00FBA42,
     0x84527C472256025820EE3C9E4969345D7A3628DD4332A6737DF3A68D6B18C7ED,
     0x1744923AA1BF469FCA6D6465766963654B6579496E666FA1696465766963654B,
     0x6579A4010220012158209D5B32BECEE5CF4E81EFCABC9F4B67EEF945881F2DA5,
     0xC2EE1D7A5AF4C98C14EC225820C1AF33FB060242E6BCD34410D9D439CCD7A33D,
     0xA8FCD0669A77B1964B62822DC16F646967657374416C676F726974686D675348,
     0x412D3235365840104C909FC69F7617E32EC789704BB55E3A3839F8953314DC70,
     0x7F98E796A7E7DE38576D82F1F80341D020652AF7078298F0E24D03D0A26F8DE1,
     0xA2910C376F27006A6E616D65537061636573A1716F72672E69736F2E31383031]
    5 0x332E352E31

/-- The item that says that the holder is over 18. -/
def itemYes : Bytes := ofWords
    [0xD818584FA46672616E646F6D50000102030405060708090A0B0C0D0E0F686469,
     0x676573744944006C656C656D656E7456616C7565F571656C656D656E74496465]
    19 0x6E7469666965726B6167655F6F7665725F3138

/-- The item that says that the holder is not. -/
def itemNo : Bytes := ofWords
    [0xD818584FA46672616E646F6D50101112131415161718191A1B1C1D1E1F686469,
     0x676573744944016C656C656D656E7456616C7565F471656C656D656E74496465]
    19 0x6E7469666965726B6167655F6F7665725F3138

/-- The item that says that the holder is not over 21. -/
def itemYoung : Bytes := ofWords
    [0xD818584FA46672616E646F6D50202122232425262728292A2B2C2D2E2F686469,
     0x676573744944026C656C656D656E7456616C7565F471656C656D656E74496465]
    19 0x6E7469666965726B6167655F6F7665725F3231

/-- The document that discloses the two about 18. -/
def documentBoth : Bytes := documentHead ++ 0x82 :: (itemYes ++ itemNo)

/-- The document that discloses the first. -/
def documentYes : Bytes := documentHead ++ 0x81 :: itemYes

/-- The document that discloses the first and the third. -/
def documentYoung : Bytes := documentHead ++ 0x82 :: (itemYes ++ itemYoung)

/-- The ECDSA signatures of the signer and of the device: the key, the digest and the signature. -/
def signatures : List ((Nat × Nat) × Nat × (Nat × Nat)) :=
  [((0x44C53668C0981F0534BC27606B6F101B2D0F6FB9073A8D23DF58E34F4311618B,
      0x22B78093949BE47165E70FF231EBF23A49BABA60F59CE7CFA56C1EEC85E07094),
     0x9E51801C0C9E02F1DD674443A50DDEB13C5D6E5B37C77BE914F5A84C97409AFF,
     (0x104C909FC69F7617E32EC789704BB55E3A3839F8953314DC707F98E796A7E7DE,
      0x38576D82F1F80341D020652AF7078298F0E24D03D0A26F8DE1A2910C376F2700)),
   ((0x9D5B32BECEE5CF4E81EFCABC9F4B67EEF945881F2DA5C2EE1D7A5AF4C98C14EC,
      0xC1AF33FB060242E6BCD34410D9D439CCD7A33DA8FCD0669A77B1964B62822DC1),
     0x272AD1298645DD01C67D01EC3BBF457D806AF5D703515B59CD1763FF7346B99F,
     (0x306898F89EA3F4E8823A09E2E735D0AC1D03DC89EDE2F960B03E8CF04750E91A,
      0x08CDF2CE7CD16A6646A9B66E0249AA4635EBF4CAF0F7DD31E4420772EC4045EB))]

/-- The primitives on these inputs; ECDSA covers the digest of the message. -/
def signerCrypto : Crypto :=
  { Crypto.ofTable [] with
    ecOnCurve := fun _ x y => signatures.any fun row => row.1 == (x, y)
    ecdsaVerify := fun _ point message rs => signatures.any fun row =>
      row.1 == point && row.2.1 == Codec.intFromBytes (Hashlib.sha256 message) && row.2.2 == rs }

/-- The certificates: the signer's, and the anchor that issued it. -/
inductive Cert where
  | signer
  | anchor
  deriving DecidableEq

/-- The certificates as X.509 has them: valid from 2026 to 2028. -/
def signerX509 : SignerX509 where
  Certificate := Cert
  loadDer der := if der = signerDer then .ok .signer else .error "ASN.1"
  verifyPath anchors instant leaf rest :=
    if anchors.contains .anchor && leaf == .signer && rest.isEmpty &&
      1767225600000000 ≤ instant && instant ≤ 1830297600000000 then .ok ()
    else .error "validation failed"
  subjectAltName _ := .ok none
  publicKey _ := .ec .p256 0x44C53668C0981F0534BC27606B6F101B2D0F6FB9073A8D23DF58E34F4311618B
    0x22B78093949BE47165E70FF231EBF23A49BABA60F59CE7CFA56C1EEC85E07094
  extendedKeyUsage leaf := .ok (if leaf = .signer then some ["1.0.18013.5.1.2"] else none)
  notValidBefore _ := 1767225600000000
  notValidAfter _ := 1830297600000000

/-- The host, in January 2027. -/
def signerEnv : Env where
  interpreter := .atSecond 1800000000
    [("2026-06-01T00:00:00+00:00", ⟨1780272000000000, some 0⟩),
     ("2027-06-01T00:00:00+00:00", ⟨1811808000000000, some 0⟩)]
  crypto := signerCrypto
  x509 := signerX509
  dateFromIsoFormat _ := none

/-- A call with that anchor. -/
def signerCall : Call signerEnv where
  trustAnchors := [Cert.anchor]

/-- The transcript of the session: `https://a.example` and the nonce `n`. -/
def sessionTranscript : Bytes := ofWords
    [0x83F6F682764F70656E4944345650444341504948616E646F76657258206830FB]
    29 0xE446B61786EF1D6DC13951AC29A886944115BD96426F72C381D2B28825

/-- The response with the document that discloses the first item. -/
def responseYes : Bytes :=
  ofWords
    [0xA366737461747573006776657273696F6E63312E3069646F63756D656E747381]
    0 0 ++ documentYes

/-- That response is accepted, and its document is under both seals. -/
theorem verifyMdoc_sealed_response : ∃ results m documents,
    verifyDeviceResponse signerEnv signerCall responseYes sessionTranscript none = .ok results ∧
      results.length = 1 ∧ decode responseYes = .ok (.map m) ∧
      field m "documents" = .arr documents ∧
      List.Forall₂ (fun document out => out.deviceSigned = true ∧
        ∃ mso, Nonempty (Seal signerEnv signerCall responseYes document out mso) ∧
          DeviceBound signerEnv responseYes document out.docType mso sessionTranscript none)
        documents results := by
  obtain ⟨results, hresults, hlength⟩ := exists_ok_of_map
    (x := verifyDeviceResponse signerEnv signerCall responseYes sessionTranscript none)
    (f := List.length) (c := 1) (by decide +kernel)
  obtain ⟨m, documents, hdecode, hm, hall⟩ :=
    (verifyMdoc_sealed signerEnv signerCall).2 responseYes sessionTranscript none results hresults
  exact ⟨results, m, documents, hresults, hlength, hdecode, hm, hall⟩

end OpenVC.Mdoc
