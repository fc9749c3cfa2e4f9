import OpenVC.Mdoc
import OpenVC.OpenId4Vp.Presentation
import OpenVC.Proofs.CborProofs

/-!
# The bytes that COSE and mdoc verification authenticate

A `Sig_structure` and a `MAC_structure` are arrays that the encoder writes whole. A
`DeviceAuthentication` splices in two fragments as they are; it determines them because a well-formed
CBOR item is a prefix code, also beyond the profile that the decoder supports (indefinite lengths and
floats included).
-/

namespace OpenVC.Cbor

open Python PrefixReader

/-! ## Well-formed items -/

/-- A reader that only moves over a part of its input. -/
abbrev Skip := Bytes → Result (Unit × Bytes)

/-- The first byte. -/
def nextByte : Bytes → Result (UInt8 × Bytes)
  | [] => raise .cborError "CBOR: truncated" []
  | b :: data => .ok (b, data)

/-- Moves over `n` bytes. -/
def skipBytes (n : Nat) : Skip := fun data =>
  readBytes n data "string" >>= fun x => .ok ((), x.2)

/-- The argument of an initial byte that gives a definite length. -/
def argumentOf (ib : UInt8) (data : Bytes) : Result (Nat × Bytes) :=
  if ib.toNat % 32 < 24 then .ok (ib.toNat % 32, data)
  else match argumentBytes (ib.toNat % 32) with
    | some n => readBytes n data "argument" >>= fun x => .ok (Codec.intFromBytes x.1, x.2)
    | none => raise .cborError "CBOR: reserved" []

/-- An item, given how to go on after its initial byte. -/
def skipItem (after : UInt8 → Skip) : Skip := fun data =>
  nextByte data >>= fun x => after x.1 x.2

/-- The reader `n` times. -/
def times (skip : Skip) : Nat → Skip
  | 0 => fun data => .ok ((), data)
  | n + 1 => fun data => skip data >>= fun x => times skip n x.2

/-- After an initial byte: a break, or an item and what is to follow it. -/
def orBreak (after : UInt8 → Skip) (next : Skip) (ib : UInt8) : Skip :=
  if ib = 0xFF then fun data => .ok ((), data) else fun data => after ib data >>= fun x => next x.2

/-- Items up to a break, at most as many as the bound. -/
def untilBreak (after : UInt8 → Skip) : Nat → Skip
  | 0 => fun _ => raise .cborError "CBOR: no break" []
  | n + 1 => skipItem (orBreak after (untilBreak after n))

/-- A chunk of a string of indefinite length: a string of the same major type with a definite
length. -/
def chunkAfter (major : Nat) (ib : UInt8) : Skip :=
  if ib.toNat / 32 = major ∧ ib.toNat % 32 ≠ 31 then fun data =>
    argumentOf ib data >>= fun x => skipBytes x.1 x.2
  else fun _ => raise .cborError "CBOR: not a chunk" []

/-- A key, given its initial byte, and its value. -/
def pairAfter (after : UInt8 → Skip) (ib : UInt8) : Skip := fun data =>
  after ib data >>= fun x => skipItem after x.2

/-- The content of an item with a definite length. -/
def skipDefinite (after : UInt8 → Skip) (ib : UInt8) (n : Nat) : Skip :=
  match ib.toNat / 32 with
  | 0 | 1 => fun data => .ok ((), data)
  | 2 | 3 => skipBytes n
  | 4 => times (skipItem after) n
  | 5 => times (skipItem after) (2 * n)
  | 6 => skipItem after
  | _ =>
    if ib.toNat % 32 = 24 ∧ n < 32 then fun _ => raise .cborError "CBOR: bad simple value" []
    else fun data => .ok ((), data)

/-- The content of an item with an indefinite length. -/
def skipIndefinite (after : UInt8 → Skip) (bound : Nat) (ib : UInt8) : Skip :=
  match ib.toNat / 32 with
  | 2 => untilBreak (chunkAfter 2) bound
  | 3 => untilBreak (chunkAfter 3) bound
  | 4 => untilBreak after bound
  | 5 => untilBreak (pairAfter after) bound
  | _ => fun _ => raise .cborError "CBOR: not an item" []

/-- An item after its initial byte, up to a nesting and a number of elements. -/
def skipAfter : Nat → UInt8 → Skip
  | 0, _ => fun _ => raise .cborError "CBOR: too deep" []
  | bound + 1, ib =>
    if ib.toNat % 32 = 31 then skipIndefinite (skipAfter bound) bound ib
    else fun data => argumentOf ib data >>= fun x => skipDefinite (skipAfter bound) ib x.1 x.2

/-- The bytes are one well-formed CBOR item of RFC 8949. -/
def WellFormed (b : Bytes) : Prop := ∃ bound, skipItem (skipAfter bound) b = .ok ((), [])

/-! ### It is a prefix code -/

theorem delimits_nextByte : Delimits nextByte := by
  intro data b rest h
  cases data with
  | nil => cases h
  | cons b data =>
    cases h
    exact ⟨[b], rfl, fun r => rfl⟩

theorem delimits_readBytes (n : Nat) (what : String) :
    Delimits fun data => readBytes n data what := by
  intro data b rest h
  obtain ⟨rfl, hlen⟩ := readBytes_eq_ok.mp h
  exact ⟨b, rfl, fun r => readBytes_eq_ok.mpr ⟨rfl, hlen⟩⟩

theorem delimits_skipBytes (n : Nat) : Delimits (skipBytes n) :=
  (delimits_readBytes n _).bind fun _ => delimits_pure ()

theorem delimits_argumentOf (ib : UInt8) : Delimits (argumentOf ib) := by
  unfold argumentOf
  split
  · exact delimits_pure _
  · split
    · exact (delimits_readBytes _ _).bind fun b => delimits_pure (Codec.intFromBytes b)
    · exact delimits_error _

section Readers

variable {after after' : UInt8 → Skip}

theorem delimits_skipItem (h : ∀ ib, Delimits (after ib)) : Delimits (skipItem after) :=
  delimits_nextByte.bind h

theorem delimits_times {skip : Skip} (h : Delimits skip) (n : Nat) : Delimits (times skip n) := by
  induction n with
  | zero => exact delimits_pure ()
  | succ n ih => exact h.bind fun _ => ih

theorem delimits_untilBreak (h : ∀ ib, Delimits (after ib)) (n : Nat) :
    Delimits (untilBreak after n) := by
  induction n with
  | zero => exact delimits_error _
  | succ n ih =>
    refine delimits_skipItem fun ib => ?_
    unfold orBreak
    split
    · exact delimits_pure ()
    · exact (h ib).bind fun _ => ih

theorem delimits_chunkAfter (major : Nat) (ib : UInt8) : Delimits (chunkAfter major ib) := by
  unfold chunkAfter
  split
  · exact (delimits_argumentOf ib).bind fun n => delimits_skipBytes n
  · exact delimits_error _

theorem delimits_skipDefinite (h : ∀ ib, Delimits (after ib)) (ib : UInt8) (n : Nat) :
    Delimits (skipDefinite after ib n) := by
  unfold skipDefinite
  split
  · exact delimits_pure ()
  · exact delimits_pure ()
  · exact delimits_skipBytes n
  · exact delimits_skipBytes n
  · exact delimits_times (delimits_skipItem h) n
  · exact delimits_times (delimits_skipItem h) (2 * n)
  · exact delimits_skipItem h
  · split
    · exact delimits_error _
    · exact delimits_pure ()

theorem delimits_skipIndefinite (h : ∀ ib, Delimits (after ib)) (bound : Nat) (ib : UInt8) :
    Delimits (skipIndefinite after bound ib) := by
  unfold skipIndefinite
  split
  · exact delimits_untilBreak (delimits_chunkAfter 2) bound
  · exact delimits_untilBreak (delimits_chunkAfter 3) bound
  · exact delimits_untilBreak h bound
  · exact delimits_untilBreak (fun ib => (h ib).bind fun _ => delimits_skipItem h) bound
  · exact delimits_error _

theorem delimits_skipAfter (bound : Nat) (ib : UInt8) : Delimits (skipAfter bound ib) := by
  induction bound generalizing ib with
  | zero => exact delimits_error _
  | succ bound ih =>
    unfold skipAfter
    split
    · exact delimits_skipIndefinite ih bound ib
    · exact (delimits_argumentOf ib).bind fun n => delimits_skipDefinite ih ib n

/-! ### A larger bound reads no less -/

theorem extends_refl (skip : Skip) : Extends skip skip := fun _ _ h => h

theorem extends_skipItem (h : ∀ ib, Extends (after ib) (after' ib)) :
    Extends (skipItem after) (skipItem after') :=
  Extends.bind (fun _ _ h => h) h

theorem extends_times {skip skip' : Skip} (h : Extends skip skip') (n : Nat) :
    Extends (times skip n) (times skip' n) := by
  induction n with
  | zero => exact extends_refl _
  | succ n ih => exact h.bind fun _ => ih

theorem extends_untilBreak (h : ∀ ib, Extends (after ib) (after' ib)) (n : Nat) :
    Extends (untilBreak after n) (untilBreak after' (n + 1)) := by
  induction n with
  | zero =>
    intro data x hx
    cases hx
  | succ n ih =>
    refine extends_skipItem fun ib => ?_
    unfold orBreak
    split
    · exact extends_refl _
    · exact (h ib).bind fun _ => ih

theorem extends_skipDefinite (h : ∀ ib, Extends (after ib) (after' ib)) (ib : UInt8) (n : Nat) :
    Extends (skipDefinite after ib n) (skipDefinite after' ib n) := by
  unfold skipDefinite
  split
  · exact extends_refl _
  · exact extends_refl _
  · exact extends_refl _
  · exact extends_refl _
  · exact extends_times (extends_skipItem h) n
  · exact extends_times (extends_skipItem h) (2 * n)
  · exact extends_skipItem h
  · exact extends_refl _

theorem extends_skipIndefinite (h : ∀ ib, Extends (after ib) (after' ib)) (bound : Nat)
    (ib : UInt8) :
    Extends (skipIndefinite after bound ib) (skipIndefinite after' (bound + 1) ib) := by
  unfold skipIndefinite
  split
  · exact extends_untilBreak (fun _ => extends_refl _) bound
  · exact extends_untilBreak (fun _ => extends_refl _) bound
  · exact extends_untilBreak h bound
  · exact extends_untilBreak (fun ib => (h ib).bind fun _ => extends_skipItem h) bound
  · exact extends_refl _

end Readers

theorem extends_skipAfter_succ (bound : Nat) (ib : UInt8) :
    Extends (skipAfter bound ib) (skipAfter (bound + 1) ib) := by
  induction bound generalizing ib with
  | zero =>
    intro data x hx
    cases hx
  | succ bound ih =>
    rw [skipAfter, skipAfter]
    split
    · exact extends_skipIndefinite ih bound ib
    · exact Extends.bind (fun _ _ h => h) fun n => extends_skipDefinite ih ib n

theorem extends_skipAfter {bound bound' : Nat} (h : bound ≤ bound') (ib : UInt8) :
    Extends (skipAfter bound ib) (skipAfter bound' ib) := by
  induction h with
  | refl => exact extends_refl _
  | step _ ih => exact fun data x hx => extends_skipAfter_succ _ ib data x (ih data x hx)

theorem WellFormed.unique {b b' r r' : Bytes} (h : WellFormed b) (h' : WellFormed b')
    (heq : b ++ r = b' ++ r') : b = b' ∧ r = r' := by
  obtain ⟨n, hn⟩ := h
  obtain ⟨n', hn'⟩ := h'
  have hd := delimits_skipItem (delimits_skipAfter (max n n'))
  have hb := hd.reads (extends_skipItem (extends_skipAfter (le_max_left n n')) _ _ hn)
  have hb' := hd.reads (extends_skipItem (extends_skipAfter (le_max_right n n')) _ _ hn')
  exact (hb.unique hb' heq).2

end OpenVC.Cbor

namespace OpenVC

open Python Cbor PrefixReader

/-! ## COSE -/

namespace Cose

theorem wf_strings (context : Str) (p aad payload : Bytes) :
    WF (.arr [.text context, .bytes p, .bytes aad, .bytes payload]) := by
  simp [WF, WFList]

/-- A `Sig_structure` or a `MAC_structure` determines its parts. -/
theorem tbs_inj {context context' : Str} {p p' aad aad' payload payload' b : Bytes}
    (h : tbs context p aad payload = .ok b) (h' : tbs context' p' aad' payload' = .ok b) :
    context = context' ∧ p = p' ∧ aad = aad' ∧ payload = payload' := by
  have hsame := same_of_encode_eq (wf_strings _ _ _ _) (wf_strings _ _ _ _) h h'
  obtain ⟨hc, hp, ha, hl, -⟩ := hsame
  exact ⟨hc, hp, ha, hl⟩

end Cose

/-! ## mdoc -/

namespace Mdoc

/-- A `DeviceAuthentication` is its head, its context, the transcript, the document type and the
device's namespaces, one after the other. -/
theorem deviceAuthentication_eq_ok {st ns b : Bytes} {docType : Str}
    (h : deviceAuthentication st docType ns = .ok b) : ∃ lead code,
      encodeText (lit "DeviceAuthentication") = .ok lead ∧ encodeText docType = .ok code ∧
      b = byte 132 :: (lead ++ (st ++ (code ++ ns))) := by
  simp only [deviceAuthentication, encode, encodeItems, bind_eq_ok, pure_eq_ok,
    Except.ok.injEq] at h
  obtain ⟨hd, hhead, items, ⟨lead, hlead, r₁, ⟨_, rfl, r₂, ⟨code, hcode, r₃, ⟨_, rfl, r₄, rfl, rfl⟩,
    rfl⟩, rfl⟩, rfl⟩, rfl⟩ := h
  refine ⟨lead, code, hlead, hcode, ?_⟩
  cases hhead
  simp

/-- A `DeviceAuthentication` over well-formed transcripts determines its parts. -/
theorem deviceAuthentication_inj {st st' ns ns' b : Bytes} {docType docType' : Str}
    (hst : WellFormed st) (hst' : WellFormed st') (h : deviceAuthentication st docType ns = .ok b)
    (h' : deviceAuthentication st' docType' ns' = .ok b) :
    st = st' ∧ docType = docType' ∧ ns = ns' := by
  obtain ⟨lead, code, hlead, hcode, rfl⟩ := deviceAuthentication_eq_ok h
  obtain ⟨lead', code', hlead', hcode', heq⟩ := deviceAuthentication_eq_ok h'
  rw [hlead] at hlead'
  cases hlead'
  have hrest := List.append_cancel_left (List.cons.inj heq).2
  obtain ⟨rfl, htail⟩ := hst.unique hst' hrest
  obtain ⟨htext, -, rfl⟩ := (reads_text hcode 0).unique (reads_text hcode' 0) htail
  exact ⟨rfl, Cbor.text.inj htext, rfl⟩

theorem deviceAuthenticationBytes_inj {st st' ns ns' b : Bytes} {docType docType' : Str}
    (hst : WellFormed st) (hst' : WellFormed st')
    (h : deviceAuthenticationBytes st docType ns = .ok b)
    (h' : deviceAuthenticationBytes st' docType' ns' = .ok b) :
    st = st' ∧ docType = docType' ∧ ns = ns' := by
  obtain ⟨a, ha, hb⟩ := bind_eq_ok.mp h
  obtain ⟨a', ha', hb'⟩ := bind_eq_ok.mp h'
  have hwf : ∀ a : Bytes, WF (.tag Cose.tagEncodedCbor (.bytes a) none) := fun _ => trivial
  have heq : a = a' := (same_of_encode_eq (hwf a) (hwf a') hb hb').2
  rw [← heq] at ha'
  exact deviceAuthentication_inj hst hst' ha ha'

end Mdoc

/-! ## Session transcripts of the Digital Credentials API -/

namespace OpenId4Vp

/-- The value that the handover hashes. -/
def handoverInfo (origin nonce : Str) (jwkThumbprint : Option Bytes) : Cbor :=
  .arr [.text origin, .text nonce, (jwkThumbprint.map Cbor.bytes).getD .null]

theorem wf_handoverInfo (origin nonce : Str) (thumbprint : Option Bytes) :
    WF (handoverInfo origin nonce thumbprint) := by
  cases thumbprint <;> simp [handoverInfo, WF, WFList]

theorem handoverInfo_inj {origin origin' nonce nonce' : Str} {thumb thumb' : Option Bytes}
    (h : Same (handoverInfo origin nonce thumb) (handoverInfo origin' nonce' thumb')) :
    origin = origin' ∧ nonce = nonce' ∧ thumb = thumb' := by
  obtain ⟨ho, hn, ht, -⟩ := h
  refine ⟨ho, hn, ?_⟩
  cases thumb <;> cases thumb'
  · rfl
  · exact ht.elim
  · exact ht.elim
  · exact congrArg some ht

/-- No two of the inputs have one digest. -/
def CollisionFree (C : Crypto) (inputs : List Bytes) : Prop :=
  ∀ x ∈ inputs, ∀ y ∈ inputs, C.sha256 x = C.sha256 y → x = y

theorem wf_handover (digest : Bytes) :
    WF (.arr [.null, .null, .arr [.text (lit "OpenID4VPDCAPIHandover"), .bytes digest]]) := by
  simp [WF, WFList]

/-- A session transcript determines the origin, the nonce and the thumbprint, unless two handovers
collide. -/
theorem dcapiSessionTranscript_inj {C : Crypto} {origin origin' nonce nonce' : Str}
    {thumb thumb' : Option Bytes} {info info' t : Bytes}
    (hi : encode (handoverInfo origin nonce thumb) = .ok info)
    (hi' : encode (handoverInfo origin' nonce' thumb') = .ok info')
    (hcf : CollisionFree C [info, info'])
    (h : dcapiSessionTranscript C origin nonce thumb = .ok t)
    (h' : dcapiSessionTranscript C origin' nonce' thumb' = .ok t) :
    origin = origin' ∧ nonce = nonce' ∧ thumb = thumb' := by
  obtain ⟨i, hinfo, ht⟩ := bind_eq_ok.mp h
  obtain ⟨i', hinfo', ht'⟩ := bind_eq_ok.mp h'
  cases hi.symm.trans hinfo
  cases hi'.symm.trans hinfo'
  obtain ⟨-, -, ⟨-, hdigest, -⟩, -⟩ := same_of_encode_eq (wf_handover _) (wf_handover _) ht ht'
  have heq : info = info' := hcf info (by simp) info' (by simp) hdigest
  rw [← heq] at hi'
  exact handoverInfo_inj
    (same_of_encode_eq (wf_handoverInfo _ _ _) (wf_handoverInfo _ _ _) hi hi')

end OpenId4Vp

/-! ## No replay across contexts -/

/-- What a signature or a tag covers determines all that it is meant to cover: the structures of COSE
(so that no signature input is a tag input), the device authentication over well-formed transcripts,
and the transcript itself unless two handovers collide. -/
theorem signed_structures_injective (C : Crypto) :
    (∀ context p aad payload context' p' aad' payload' b,
      Cose.tbs context p aad payload = .ok b → Cose.tbs context' p' aad' payload' = .ok b →
        context = context' ∧ p = p' ∧ aad = aad' ∧ payload = payload') ∧
    (∀ p aad payload p' aad' payload' b b', Cose.tbs (lit "Signature1") p aad payload = .ok b →
      Cose.tbs (lit "MAC0") p' aad' payload' = .ok b' → b ≠ b') ∧
    (∀ st docType ns st' docType' ns' b, WellFormed st → WellFormed st' →
      Mdoc.deviceAuthentication st docType ns = .ok b →
      Mdoc.deviceAuthentication st' docType' ns' = .ok b →
        st = st' ∧ docType = docType' ∧ ns = ns') ∧
    (∀ st docType ns st' docType' ns' b, WellFormed st → WellFormed st' →
      Mdoc.deviceAuthenticationBytes st docType ns = .ok b →
      Mdoc.deviceAuthenticationBytes st' docType' ns' = .ok b →
        st = st' ∧ docType = docType' ∧ ns = ns') ∧
    (∀ origin nonce thumb origin' nonce' thumb' info info' t,
      encode (OpenId4Vp.handoverInfo origin nonce thumb) = .ok info →
      encode (OpenId4Vp.handoverInfo origin' nonce' thumb') = .ok info' →
      OpenId4Vp.CollisionFree C [info, info'] →
      OpenId4Vp.dcapiSessionTranscript C origin nonce thumb = .ok t →
      OpenId4Vp.dcapiSessionTranscript C origin' nonce' thumb' = .ok t →
        origin = origin' ∧ nonce = nonce' ∧ thumb = thumb') := by
  refine ⟨fun _ _ _ _ _ _ _ _ _ => Cose.tbs_inj, ?_,
    fun _ _ _ _ _ _ _ => Mdoc.deviceAuthentication_inj,
    fun _ _ _ _ _ _ _ => Mdoc.deviceAuthenticationBytes_inj,
    fun _ _ _ _ _ _ _ _ _ => OpenId4Vp.dcapiSessionTranscript_inj⟩
  rintro p aad payload p' aad' payload' b b' h h' rfl
  exact absurd (Cose.tbs_inj h h').1 (by decide)

/-- The handover that `https://a.example` hashes. -/
def infoA : Bytes :=
  [0x83, 0x71, 0x68, 0x74, 0x74, 0x70, 0x73, 0x3A, 0x2F, 0x2F, 0x61, 0x2E, 0x65, 0x78, 0x61,
    0x6D, 0x70, 0x6C, 0x65, 0x61, 0x6E, 0xF6]

/-- The handover that `https://b.example` hashes. -/
def infoB : Bytes :=
  [0x83, 0x71, 0x68, 0x74, 0x74, 0x70, 0x73, 0x3A, 0x2F, 0x2F, 0x62, 0x2E, 0x65, 0x78, 0x61,
    0x6D, 0x70, 0x6C, 0x65, 0x61, 0x6E, 0xF6]

/-- A session transcript with the handover `"a"`. -/
def transcriptA : Bytes := [0x83, 0xF6, 0xF6, 0x61, 0x61]

/-- A session transcript with the handover `"b"`. -/
def transcriptB : Bytes := [0x83, 0xF6, 0xF6, 0x61, 0x62]

theorem wellFormed_transcriptA : WellFormed transcriptA := ⟨2, rfl⟩

theorem wellFormed_transcriptB : WellFormed transcriptB := ⟨2, rfl⟩

/-- Two payloads have two signature inputs, and neither is the tag input of its payload; two session
transcripts have two device authentications; and a transcript for `https://a.example` is not one for
`https://b.example`. -/
theorem signed_structures_injective_origins :
    (∃ b b' m, Cose.tbs (lit "Signature1") [0xA0] [] [1] = .ok b ∧
      Cose.tbs (lit "Signature1") [0xA0] [] [2] = .ok b' ∧
      Cose.tbs (lit "MAC0") [0xA0] [] [1] = .ok m ∧ b ≠ b' ∧ b ≠ m) ∧
    (∃ b b', Mdoc.deviceAuthentication transcriptA (lit "d") [0xA0] = .ok b ∧
      Mdoc.deviceAuthentication transcriptB (lit "d") [0xA0] = .ok b' ∧ b ≠ b') ∧
    (∃ b b', Mdoc.deviceAuthenticationBytes transcriptA (lit "d") [0xA0] = .ok b ∧
      Mdoc.deviceAuthenticationBytes transcriptB (lit "d") [0xA0] = .ok b' ∧ b ≠ b') ∧
    OpenId4Vp.CollisionFree (.ofTable []) [infoA, infoB] ∧
      ∃ t t', OpenId4Vp.dcapiSessionTranscript (.ofTable []) (lit "https://a.example") (lit "n") none
          = .ok t ∧
        OpenId4Vp.dcapiSessionTranscript (.ofTable []) (lit "https://b.example") (lit "n") none
          = .ok t' ∧ t ≠ t' := by
  obtain ⟨hcose, hmac, hauth, hbytes, hinj⟩ := signed_structures_injective (.ofTable [])
  refine ⟨?_, ?_, ?_, ?_⟩
  · obtain ⟨b, hb⟩ := returned_iff.mp
      (show returned (Cose.tbs (lit "Signature1") [0xA0] [] [1]) = true by decide +kernel)
    obtain ⟨b', hb'⟩ := returned_iff.mp
      (show returned (Cose.tbs (lit "Signature1") [0xA0] [] [2]) = true by decide +kernel)
    obtain ⟨m, hm⟩ := returned_iff.mp
      (show returned (Cose.tbs (lit "MAC0") [0xA0] [] [1]) = true by decide +kernel)
    refine ⟨b, b', m, hb, hb', hm, ?_, hmac _ _ _ _ _ _ b m hb hm⟩
    rintro rfl
    exact absurd (hcose _ _ _ _ _ _ _ _ b hb hb').2.2.2 (by decide)
  · obtain ⟨b, hb⟩ := returned_iff.mp
      (show returned (Mdoc.deviceAuthentication transcriptA (lit "d") [0xA0]) = true by
        decide +kernel)
    obtain ⟨b', hb'⟩ := returned_iff.mp
      (show returned (Mdoc.deviceAuthentication transcriptB (lit "d") [0xA0]) = true by
        decide +kernel)
    refine ⟨b, b', hb, hb', ?_⟩
    rintro rfl
    exact absurd (hauth _ _ _ _ _ _ b wellFormed_transcriptA wellFormed_transcriptB hb hb').1
      (by decide)
  · obtain ⟨b, hb⟩ := returned_iff.mp
      (show returned (Mdoc.deviceAuthenticationBytes transcriptA (lit "d") [0xA0]) = true by
        decide +kernel)
    obtain ⟨b', hb'⟩ := returned_iff.mp
      (show returned (Mdoc.deviceAuthenticationBytes transcriptB (lit "d") [0xA0]) = true by
        decide +kernel)
    refine ⟨b, b', hb, hb', ?_⟩
    rintro rfl
    exact absurd (hbytes _ _ _ _ _ _ b wellFormed_transcriptA wellFormed_transcriptB hb hb').1
      (by decide)
  have hinfo : encode (OpenId4Vp.handoverInfo (lit "https://a.example") (lit "n") none) =
      .ok infoA := rfl
  have hinfo' : encode (OpenId4Vp.handoverInfo (lit "https://b.example") (lit "n") none) =
      .ok infoB := rfl
  have hcf : OpenId4Vp.CollisionFree (.ofTable []) [infoA, infoB] := by
    unfold OpenId4Vp.CollisionFree
    decide +kernel
  obtain ⟨t, ht⟩ := returned_iff.mp (show returned (OpenId4Vp.dcapiSessionTranscript (.ofTable [])
    (lit "https://a.example") (lit "n") none) = true by decide +kernel)
  obtain ⟨t', ht'⟩ := returned_iff.mp (show returned (OpenId4Vp.dcapiSessionTranscript (.ofTable [])
    (lit "https://b.example") (lit "n") none) = true by decide +kernel)
  refine ⟨hcf, t, t', ht, ht', ?_⟩
  rintro rfl
  exact absurd (hinj _ _ _ _ _ _ _ _ t hinfo hinfo' hcf ht ht').1 (by decide)

end OpenVC
