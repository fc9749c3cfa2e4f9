import OpenVC.Ebsi.HttpBody
import OpenVC.Python.Raises

/-!
# The bounded read does not depend on the chunks

The decompression object has consumed the bytes read so far, the body is what they decode to, and the
bytes are within the bounds. Whether a body is accepted and what is returned are then a matter of the
concatenation of its chunks.
-/

namespace OpenVC.Ebsi.Http

open Python

/-- The wire bytes. -/
def wireBytes (chunks : List Chunk) : Bytes := chunks.flatMap Chunk.data

/-- The chunks come before the deadline, and none is empty. -/
def Timely (deadline : PyFloat) (chunks : List Chunk) : Prop :=
  ∀ c ∈ chunks, PyFloat.lt deadline c.now = false ∧ c.data ≠ []

instance (deadline : PyFloat) (chunks : List Chunk) : Decidable (Timely deadline chunks) :=
  inferInstanceAs (Decidable (∀ c ∈ chunks, PyFloat.lt deadline c.now = false ∧ c.data ≠ []))

theorem Timely.tail {deadline : PyFloat} {c : Chunk} {chunks : List Chunk}
    (h : Timely deadline (c :: chunks)) : Timely deadline chunks :=
  fun d hd => h d (List.mem_cons_of_mem _ hd)

theorem extend_eq_ok {body piece out : Bytes} :
    extend body piece = .ok out ↔ body.length + piece.length < maxsize ∧ out = body ++ piece := by
  simp only [extend, bind_eq_ok, raiseIf_eq_ok, pure_eq_ok, decide_eq_false_iff_not, not_le]
  constructor
  · rintro ⟨⟨⟩, hlt, rfl⟩
    exact ⟨hlt, rfl⟩
  · rintro ⟨hlt, rfl⟩
    exact ⟨(), hlt, rfl⟩

section Loop

variable {σ : Type} {Z : Decompressor σ} {url : Str} {cap : Int} {deadline : PyFloat}

/-- One turn of the loop. -/
theorem readChunks_cons {decoder : Option σ} {wire : Nat} {body : Bytes} {c : Chunk}
    {chunks : List Chunk} {out : Option σ × Bytes} (hnow : PyFloat.lt deadline c.now = false) :
    readChunks Z url cap deadline decoder wire body (c :: chunks) = .ok out ↔
      ((wire + c.data.length : Nat) : Int) ≤ cap ∧
      ∃ d b, takeChunk Z url cap decoder body c.data = .ok (d, b) ∧
        readChunks Z url cap deadline d (wire + c.data.length) b chunks = .ok out := by
  simp only [readChunks, bind_eq_ok, raiseIf_eq_ok, hnow, decide_eq_false_iff_not, not_lt]
  constructor
  · rintro ⟨⟨⟩, -, ⟨⟩, hcap, ⟨d, b⟩, htake, hrest⟩
    exact ⟨hcap, d, b, htake, hrest⟩
  · rintro ⟨hcap, d, b, htake, hrest⟩
    exact ⟨(), trivial, (), hcap, (d, b), htake, hrest⟩

/-! ## A body without a coding -/

theorem takeChunk_none {body chunk b : Bytes} {d : Option σ} :
    takeChunk Z url cap none body chunk = .ok (d, b) ↔
      d = none ∧ body.length + chunk.length < maxsize ∧ b = body ++ chunk := by
  simp only [takeChunk, bind_eq_ok, pure_eq_ok, extend_eq_ok, Prod.mk.injEq]
  constructor
  · rintro ⟨_, ⟨hlt, rfl⟩, rfl, rfl⟩
    exact ⟨rfl, hlt, rfl⟩
  · rintro ⟨rfl, hlt, rfl⟩
    exact ⟨_, ⟨hlt, rfl⟩, rfl, rfl⟩

/-- Without a coding the loop appends the wire bytes, as far as they are within the bounds. -/
theorem readChunks_none {chunks : List Chunk} (h : Timely deadline chunks) {wire : Nat}
    {body b : Bytes} {d : Option σ} :
    readChunks Z url cap deadline none wire body chunks = .ok (d, b) ↔
      d = none ∧ b = body ++ wireBytes chunks ∧
      (wireBytes chunks ≠ [] → ((wire + (wireBytes chunks).length : Nat) : Int) ≤ cap ∧
        body.length + (wireBytes chunks).length < maxsize) := by
  induction chunks generalizing wire body with
  | nil =>
    simp only [readChunks, wireBytes, List.flatMap_nil, List.append_nil, Except.ok.injEq,
      Prod.mk.injEq, ne_eq, not_true_eq_false, false_implies, and_true]
    constructor
    · rintro ⟨rfl, rfl⟩
      exact ⟨rfl, rfl⟩
    · rintro ⟨rfl, rfl⟩
      exact ⟨rfl, rfl⟩
  | cons c chunks ih =>
    obtain ⟨hnow, hne⟩ := h c List.mem_cons_self
    have hwire : wireBytes (c :: chunks) = c.data ++ wireBytes chunks := List.flatMap_cons
    have hcons : wireBytes (c :: chunks) ≠ [] := by simp [hwire, hne]
    rw [readChunks_cons hnow, hwire]
    constructor
    · rintro ⟨hcap, d', b', htake, hrest⟩
      obtain ⟨rfl, hlt, rfl⟩ := takeChunk_none.mp htake
      obtain ⟨rfl, rfl, hbound⟩ := (ih h.tail).mp hrest
      refine ⟨rfl, List.append_assoc _ _ _, fun _ => ?_⟩
      by_cases hnil : wireBytes chunks = []
      · rw [hnil, List.append_nil]
        exact ⟨hcap, hlt⟩
      · obtain ⟨hcap', hlt'⟩ := hbound hnil
        rw [List.length_append] at hlt' ⊢
        exact ⟨by omega, by omega⟩
    · rintro ⟨rfl, rfl, hbound⟩
      obtain ⟨hcap, hlt⟩ := hbound (hwire ▸ hcons)
      rw [List.length_append] at hcap hlt
      refine ⟨by omega, none, body ++ c.data, takeChunk_none.mpr ⟨rfl, by omega, rfl⟩, ?_⟩
      refine (ih h.tail).mpr ⟨rfl, (List.append_assoc _ _ _).symm, fun _ => ?_⟩
      rw [List.length_append]
      exact ⟨by omega, by omega⟩

/-! ## A coded body -/

section Coded

variable {wbits : Nat} (S : Z.ChunkAgnostic wbits)

/-- The bytes that may have been read without a refusal. -/
structure Within (cap : Int) (w : Bytes) : Prop where
  wire : (w.length : Int) ≤ cap
  decoded : ((S.output w).length : Int) ≤ cap
  fits : (S.output w).length < maxsize
  valid : ¬ S.Corrupt w
  clean : ∀ r, S.remainder w = some r → r = []

variable {S}

theorem output_length_le (w c : Bytes) : (S.output w).length ≤ (S.output (w ++ c)).length :=
  (S.output_prefix w c).length_le

theorem Within.remainder_eq_none {w c : Bytes} (h : Within S cap (w ++ c)) (hne : c ≠ []) :
    S.remainder w = none := by
  cases hr : S.remainder w with
  | none => rfl
  | some r =>
    have hnil := h.clean _ (S.remainder_append w c r hr)
    exact absurd (List.append_eq_nil_iff.mp hnil).2 hne

theorem Within.of_append {w c : Bytes} (h : Within S cap (w ++ c)) : Within S cap w := by
  have hout := output_length_le (S := S) w c
  have hwire := h.wire
  have hdecoded := h.decoded
  rw [List.length_append] at hwire
  refine ⟨by omega, by omega, lt_of_le_of_lt hout h.fits,
    fun hc => h.valid (S.corrupt_append w c hc), fun r hr => ?_⟩
  have hnil := h.clean _ (S.remainder_append w c r hr)
  exact (List.append_eq_nil_iff.mp hnil).1

/-- A chunk that is decoded leaves the bytes within the bounds. -/
theorem within_of_inflate {d e : σ} {fed chunk b : Bytes} (hd : S.Consumed d fed)
    (hroom : ((S.output fed).length : Int) ≤ cap)
    (hwire : ((fed.length + chunk.length : Nat) : Int) ≤ cap) :
    inflate Z url cap d (S.output fed) chunk = .ok (e, b) →
      Within S cap (fed ++ chunk) ∧ S.Consumed e (fed ++ chunk) ∧ b = S.output (fed ++ chunk) := by
  simp only [inflate, bind_eq_ok, raiseIf_eq_ok, orRaise_eq_ok, pure_eq_ok, extend_eq_ok,
    decide_eq_false_iff_not, not_lt, Prod.mk.injEq, Bool.not_eq_false', List.isEmpty_iff]
  rintro ⟨⟨⟩, heof, ⟨piece, d'⟩, hdec, ⟨⟩, hpiece, _, ⟨hfits, rfl⟩, ⟨⟩, hunused, rfl, rfl⟩
  dsimp only at hpiece hfits hunused
  have hpos : (0 : Int) < min (cap - (S.output fed).length + 1) maxsize := by
    rw [lt_min_iff, maxsize]
    omega
  have hlt : (piece.length : Int) < min (cap - (S.output fed).length + 1) maxsize := by
    rw [lt_min_iff]
    omega
  obtain ⟨hconsumed, hvalid, hout⟩ := S.consumed_of_lt d fed chunk _ piece d' hd heof hpos hdec hlt
  refine ⟨⟨by rw [List.length_append]; exact hwire, ?_, ?_, hvalid, fun r hr => ?_⟩, hconsumed,
    hout.symm⟩
  · rw [hout, List.length_append]
    omega
  · rw [hout, List.length_append]
    exact hfits
  · rw [S.unusedData_eq d' _ hconsumed, hr] at hunused
    exact hunused

variable (url) in
/-- A chunk that leaves the bytes within the bounds is decoded. -/
theorem exists_inflate {d : σ} {fed chunk : Bytes} (hd : S.Consumed d fed) (hne : chunk ≠ [])
    (h : Within S cap (fed ++ chunk)) :
    ∃ e, S.Consumed e (fed ++ chunk) ∧
      inflate Z url cap d (S.output fed) chunk = .ok (e, S.output (fed ++ chunk)) := by
  have hdecoded := h.decoded
  have hroom := h.of_append.decoded
  have hpos : (0 : Int) < min (cap - (S.output fed).length + 1) maxsize := by
    rw [lt_min_iff, maxsize]
    omega
  have heof : Z.eof d = false := by
    rw [S.eof_eq d fed hd, h.remainder_eq_none hne]
    rfl
  cases hdec : Z.decompress d chunk (min (cap - (S.output fed).length + 1) maxsize) with
  | none => exact absurd (S.error_corrupt d fed chunk _ hd heof hpos hdec) h.valid
  | some p =>
    obtain ⟨piece, e⟩ := p
    -- the piece is a part of what the bytes decode to, which is within the cap
    have hprefix := (S.piece_prefix d fed chunk _ piece e hd heof hpos hdec).length_le
    rw [List.length_append] at hprefix
    have hfits := h.fits
    have hlt : (piece.length : Int) < min (cap - (S.output fed).length + 1) maxsize := by
      rw [lt_min_iff]
      omega
    obtain ⟨hconsumed, -, hout⟩ := S.consumed_of_lt d fed chunk _ piece e hd heof hpos hdec hlt
    have hunused : Z.unusedData e = [] := by
      rw [S.unusedData_eq e _ hconsumed]
      cases hr : S.remainder (fed ++ chunk) with
      | none => rfl
      | some r => exact h.clean r hr
    refine ⟨e, hconsumed, ?_⟩
    simp only [inflate, bind_eq_ok, raiseIf_eq_ok, orRaise_eq_ok, pure_eq_ok, extend_eq_ok,
      decide_eq_false_iff_not, not_lt, Prod.mk.injEq, Bool.not_eq_false', List.isEmpty_iff]
    exact ⟨(), heof, (piece, e), hdec, (), by dsimp only; omega, _, ⟨by dsimp only; omega, rfl⟩, (),
      hunused, rfl, hout.symm⟩

theorem takeChunk_some {d : σ} {body chunk b : Bytes} {d' : Option σ} :
    takeChunk Z url cap (some d) body chunk = .ok (d', b) ↔
      ∃ e, inflate Z url cap d body chunk = .ok (e, b) ∧ d' = some e := by
  simp only [takeChunk, bind_eq_ok, pure_eq_ok, Prod.mk.injEq]
  constructor
  · rintro ⟨⟨e, _⟩, hinf, rfl, rfl⟩
    exact ⟨e, hinf, rfl⟩
  · rintro ⟨e, hinf, rfl⟩
    exact ⟨(e, b), hinf, rfl, rfl⟩

/-- What the loop has read when it returns. -/
theorem readChunks_some {chunks : List Chunk} (h : Timely deadline chunks) {d : σ} {fed b : Bytes}
    {d' : Option σ} (hd : S.Consumed d fed)
    (hroom : ((S.output fed).length : Int) ≤ max cap 0)
    (hread : readChunks Z url cap deadline (some d) fed.length (S.output fed) chunks = .ok (d', b)) :
    ∃ e, d' = some e ∧ S.Consumed e (fed ++ wireBytes chunks) ∧
      b = S.output (fed ++ wireBytes chunks) ∧
      (chunks ≠ [] → Within S cap (fed ++ wireBytes chunks)) := by
  induction chunks generalizing d fed with
  | nil =>
    cases hread
    rw [wireBytes, List.flatMap_nil, List.append_nil]
    exact ⟨d, rfl, hd, rfl, fun hne => absurd rfl hne⟩
  | cons c chunks ih =>
    obtain ⟨hnow, hne⟩ := h c List.mem_cons_self
    have hwire : wireBytes (c :: chunks) = c.data ++ wireBytes chunks := List.flatMap_cons
    obtain ⟨hcap, d1, b1, htake, hrest⟩ := (readChunks_cons hnow).mp hread
    obtain ⟨e1, hinf, rfl⟩ := takeChunk_some.mp htake
    have hin : ((S.output fed).length : Int) ≤ cap := by omega
    obtain ⟨hwithin, hconsumed, rfl⟩ := within_of_inflate hd hin hcap hinf
    have hwithin1 := hwithin.decoded
    rw [← List.length_append] at hrest
    obtain ⟨e, rfl, he, rfl, hall⟩ := ih h.tail hconsumed (by omega) hrest
    rw [hwire, ← List.append_assoc]
    refine ⟨e, rfl, he, rfl, fun _ => ?_⟩
    by_cases hnil : chunks = []
    · subst hnil
      rw [wireBytes, List.flatMap_nil, List.append_nil]
      exact hwithin
    · exact hall hnil

variable (url) in
/-- Bytes within the bounds are read to their end. -/
theorem exists_readChunks {chunks : List Chunk} (h : Timely deadline chunks) {d : σ} {fed : Bytes}
    (hd : S.Consumed d fed) (hwithin : chunks ≠ [] → Within S cap (fed ++ wireBytes chunks)) :
    ∃ e, S.Consumed e (fed ++ wireBytes chunks) ∧
      readChunks Z url cap deadline (some d) fed.length (S.output fed) chunks =
        .ok (some e, S.output (fed ++ wireBytes chunks)) := by
  induction chunks generalizing d fed with
  | nil =>
    rw [wireBytes, List.flatMap_nil, List.append_nil]
    exact ⟨d, hd, rfl⟩
  | cons c chunks ih =>
    obtain ⟨hnow, hne⟩ := h c List.mem_cons_self
    have hwire : wireBytes (c :: chunks) = c.data ++ wireBytes chunks := List.flatMap_cons
    have hall := hwithin (List.cons_ne_nil _ _)
    rw [hwire, ← List.append_assoc] at hall
    have hone : Within S cap (fed ++ c.data) := hall.of_append
    obtain ⟨e1, hconsumed, hinf⟩ := exists_inflate url hd hne hone
    obtain ⟨e, he, hrest⟩ := ih h.tail hconsumed fun _ => hall
    rw [hwire, ← List.append_assoc]
    refine ⟨e, he, (readChunks_cons hnow).mpr ⟨?_, _, _, takeChunk_some.mpr ⟨e1, hinf, rfl⟩, ?_⟩⟩
    · have hcap := hone.wire
      rw [List.length_append] at hcap
      exact hcap
    · rw [← List.length_append]
      exact hrest

end Coded

end Loop

/-! ## The read -/

section Read

variable {σ : Type} {I : Interpreter} {Z : Decompressor σ} {timeoutS started : PyFloat} {url : Str}
  {cap : Int} {until_ : Option PyFloat} {resp : Response}

/-- The window of the decoder that reads a response, `none` when its body needs no decoding. -/
def codedBits (I : Interpreter) (resp : Response) : Option Nat :=
  if resp.isStreamConsumed then none else windowBits (codingOf I resp.contentEncoding)

/-- What a response whose body is read means: the wire bytes, or the stream they hold. -/
def Accepted (S : ∀ wbits, Z.ChunkAgnostic wbits) (cap : Int) (wire body : Bytes) :
    Option Nat → Prop
  | none => body = wire ∧ (wire ≠ [] → (wire.length : Int) ≤ cap ∧ wire.length < maxsize)
  | some wbits => body = (S wbits).output wire ∧ (S wbits).remainder wire = some [] ∧
      Within (S wbits) cap wire

theorem decoderFor_eq_ok {encoding : Option Str} {decoder : Option σ}
    (h : decoderFor I Z encoding url = .ok decoder) :
    decoder = (windowBits (codingOf I encoding)).map Z.decompressobj := by
  unfold decoderFor at h
  split at h
  · rename_i hplain
    cases h
    rcases hplain with hc | hc <;> rw [hc] <;> rfl
  · split at h
    · rename_i wbits hbits
      cases h
      rw [hbits]
      rfl
    · cases h

theorem usedDecoder_eq {decoder : Option σ}
    (h : decoderFor I Z resp.contentEncoding url = .ok decoder) :
    usedDecoder resp decoder = (codedBits I resp).map Z.decompressobj := by
  rw [usedDecoder, codedBits, decoderFor_eq_ok h]
  split <;> rfl

variable (url) in
/-- The loop and the check behind it, on a body that is read with a decoder or without one. -/
theorem readChunks_accepted (S : ∀ wbits, Z.ChunkAgnostic wbits) {deadline : PyFloat}
    {chunks : List Chunk} (h : Timely deadline chunks) (bits : Option Nat) {body : Bytes} :
    (∃ d, readChunks Z url cap deadline (bits.map Z.decompressobj) 0 [] chunks = .ok (d, body) ∧
      (d.any fun d => !Z.eof d) = false) ↔ Accepted S cap (wireBytes chunks) body bits := by
  cases bits with
  | none =>
    simp only [Option.map_none, readChunks_none h, List.nil_append, List.length_nil, Nat.zero_add,
      Accepted]
    constructor
    · rintro ⟨d, ⟨rfl, rfl, hbound⟩, -⟩
      exact ⟨rfl, hbound⟩
    · rintro ⟨rfl, hbound⟩
      exact ⟨none, ⟨rfl, rfl, hbound⟩, rfl⟩
  | some wbits =>
    have hstart := (S wbits).start
    have hnil := (S wbits).output_nil
    constructor
    · rintro ⟨d, hread, heof⟩
      rw [Option.map_some, ← hnil] at hread
      obtain ⟨e, rfl, he, rfl, hwithin⟩ := readChunks_some h hstart (by rw [hnil]; simp) hread
      rw [List.nil_append] at he hwithin ⊢
      have hend : ((S wbits).remainder (wireBytes chunks)).isSome = true := by
        rw [← (S wbits).eof_eq e _ he]
        simpa using heof
      obtain ⟨r, hr⟩ := Option.isSome_iff_exists.mp hend
      have hne : chunks ≠ [] := by
        rintro rfl
        rw [wireBytes, List.flatMap_nil, (S wbits).remainder_nil] at hr
        cases hr
      have hbounds := hwithin hne
      exact ⟨rfl, by rw [hr, hbounds.clean r hr], hbounds⟩
    · rintro ⟨rfl, hend, hwithin⟩
      obtain ⟨e, he, hread⟩ := exists_readChunks url h hstart fun _ => hwithin
      rw [List.nil_append, hnil] at hread
      rw [List.nil_append] at he
      refine ⟨some e, hread, ?_⟩
      rw [Option.any_some, (S wbits).eof_eq e _ he, hend]
      rfl

variable (I url cap resp) in
/-- A body is read exactly when the response is and its wire bytes are accepted. -/
theorem readVerbatim_eq_ok (S : ∀ wbits, Z.ChunkAgnostic wbits)
    (h : Timely (earlier (PyFloat.add started timeoutS) until_) resp.chunks) (body : Bytes) :
    readVerbatim I Z timeoutS resp url cap until_ started = .ok body ↔
      (∃ decoder, decoderFor I Z resp.contentEncoding url = .ok decoder) ∧
      ((declaredLength resp.contentLength).any fun n => cap < (n : Int)) = false ∧
      ended resp.failure = .ok () ∧ Accepted S cap (wireBytes resp.chunks) body (codedBits I resp) := by
  rw [← readChunks_accepted url S h (codedBits I resp)]
  simp only [readVerbatim, bind_eq_ok, raiseIf_eq_ok, pure_eq_ok]
  constructor
  · rintro ⟨decoder, hdecoder, ⟨⟩, hdeclared, ⟨d, b⟩, hread, ⟨⟩, hended, ⟨⟩, heof, rfl⟩
    rw [usedDecoder_eq hdecoder] at hread
    exact ⟨⟨decoder, hdecoder⟩, hdeclared, hended, d, hread, heof⟩
  · rintro ⟨⟨decoder, hdecoder⟩, hdeclared, hended, d, hread, heof⟩
    rw [← usedDecoder_eq hdecoder] at hread
    exact ⟨decoder, hdecoder, (), hdeclared, (d, body), hread, (), hended, (), heof, rfl⟩

end Read

theorem toOption_congr {x y : Result Bytes} (h : ∀ body, x = .ok body ↔ y = .ok body) :
    x.toOption = y.toOption := by
  cases x with
  | ok body => rw [(h body).mp rfl]
  | error e =>
    cases y with
    | ok body => cases (h body).mpr rfl
    | error e' => rfl

/-- However the wire bytes are cut, `_read_verbatim` accepts both responses or neither and returns
the same bytes: the wire bytes, or the whole stream they hold and nothing more, neither above the
cap. -/
theorem readVerbatim_chunking {σ : Type} (I : Interpreter) (Z : Decompressor σ)
    (S : ∀ wbits, Z.ChunkAgnostic wbits) (timeoutS : PyFloat) (url : Str) (cap : Int)
    (resp : Response) (first second : List Chunk) (until₁ until₂ : Option PyFloat)
    (started₁ started₂ : PyFloat)
    (h₁ : Timely (earlier (PyFloat.add started₁ timeoutS) until₁) first)
    (h₂ : Timely (earlier (PyFloat.add started₂ timeoutS) until₂) second)
    (hwire : wireBytes first = wireBytes second) :
    (readVerbatim I Z timeoutS { resp with chunks := first } url cap until₁ started₁).toOption =
      (readVerbatim I Z timeoutS { resp with chunks := second } url cap until₂ started₂).toOption ∧
    ∀ body, readVerbatim I Z timeoutS { resp with chunks := first } url cap until₁ started₁ =
        .ok body →
      (0 ≤ cap → ((wireBytes first).length : Int) ≤ cap ∧ (body.length : Int) ≤ cap) ∧
      match codedBits I resp with
      | none => body = wireBytes first
      | some wbits => body = (S wbits).output (wireBytes first) ∧
          (S wbits).remainder (wireBytes first) = some [] ∧ ¬ (S wbits).Corrupt (wireBytes first) := by
  have hfirst := readVerbatim_eq_ok I url cap { resp with chunks := first } S h₁
  have hsecond := readVerbatim_eq_ok I url cap { resp with chunks := second } S h₂
  constructor
  · refine toOption_congr fun body => ?_
    rw [hfirst body, hsecond body]
    dsimp only
    rw [hwire]
    rfl
  · intro body hread
    obtain ⟨-, -, -, haccepted⟩ := (hfirst body).mp hread
    change Accepted S cap (wireBytes first) body (codedBits I resp) at haccepted
    cases hbits : codedBits I resp with
    | none =>
      rw [hbits] at haccepted
      obtain ⟨rfl, hbound⟩ := haccepted
      refine ⟨fun hcap => ?_, rfl⟩
      by_cases hnil : wireBytes first = []
      · rw [hnil]
        exact ⟨hcap, hcap⟩
      · exact ⟨(hbound hnil).1, (hbound hnil).1⟩
    | some wbits =>
      rw [hbits] at haccepted
      obtain ⟨rfl, hend, hwithin⟩ := haccepted
      exact ⟨fun _ => ⟨hwithin.wire, hwithin.decoded⟩, rfl, hend, hwithin.valid⟩

/-! ## A decompressor of two streams -/

section Stored

/-- `zlib.compress(b"hi", 0)` and, for `wbits` 31, the `gzip` stream of the same block. -/
def storedStream (wbits : Nat) : Bytes :=
  if wbits = 31 then
    [31, 139, 8, 0, 0, 0, 0, 0, 4, 3, 1, 2, 0, 253, 255, 104, 105, 172, 42, 147, 216, 2, 0, 0, 0]
  else [120, 1, 1, 2, 0, 253, 255, 104, 105, 1, 59, 0, 210]

/-- The bytes before the text of the stream. -/
def storedLead (wbits : Nat) : Nat := if wbits = 31 then 15 else 7

/-- The number of bytes in which a text begins as another. -/
def agree : Bytes → Bytes → Nat
  | a :: as, b :: bs => if a = b then agree as bs + 1 else 0
  | _, _ => 0

theorem agree_le_append (w c s : Bytes) : agree w s ≤ agree (w ++ c) s := by
  induction w generalizing s with
  | nil => exact Nat.zero_le _
  | cons a w ih =>
    cases s with
    | nil => exact Nat.le_refl _
    | cons b s =>
      rw [List.cons_append, agree, agree]
      split
      · exact Nat.succ_le_succ (ih s)
      · exact Nat.le_refl _

/-- The text of the stream, as far as it has come. -/
def storedOutput (wbits : Nat) (w : Bytes) : Bytes :=
  List.take (agree w (storedStream wbits) - storedLead wbits) [104, 105]

/-- The bytes are neither a part of the stream nor begin with it. -/
def StoredCorrupt (wbits : Nat) (w : Bytes) : Prop :=
  ¬ (w <+: storedStream wbits ∨ storedStream wbits <+: w)

instance (wbits : Nat) (w : Bytes) : Decidable (StoredCorrupt wbits w) :=
  inferInstanceAs (Decidable (¬ _))

/-- What follows the stream. -/
def storedRemainder (wbits : Nat) (w : Bytes) : Option Bytes :=
  if storedStream wbits <+: w then some (w.drop (storedStream wbits).length) else none

/-- `zlib`, on the two streams: the object keeps its `wbits` and what it was handed. -/
def storedZlib : Decompressor (Nat × Bytes) where
  decompressobj wbits := (wbits, [])
  decompress d c n :=
    if StoredCorrupt d.1 (d.2 ++ c) then none
    else some (((storedOutput d.1 (d.2 ++ c)).drop (storedOutput d.1 d.2).length).take n.toNat,
      (d.1, d.2 ++ c))
  eof d := (storedRemainder d.1 d.2).isSome
  unusedData d := (storedRemainder d.1 d.2).getD []

theorem storedOutput_prefix (wbits : Nat) (w c : Bytes) :
    storedOutput wbits w <+: storedOutput wbits (w ++ c) := by
  have hle := agree_le_append w c (storedStream wbits)
  exact List.take_prefix_take_left (by omega)

theorem storedCorrupt_append (wbits : Nat) (w c : Bytes) (h : StoredCorrupt wbits w) :
    StoredCorrupt wbits (w ++ c) := by
  rintro (hpart | hwhole)
  · exact h (.inl ((List.prefix_append w c).trans hpart))
  · exact h (List.prefix_or_prefix_of_prefix (List.prefix_append w c) hwhole)

theorem storedRemainder_append (wbits : Nat) (w c r : Bytes)
    (h : storedRemainder wbits w = some r) : storedRemainder wbits (w ++ c) = some (r ++ c) := by
  unfold storedRemainder at h ⊢
  split at h
  · rename_i hstream
    cases h
    rw [if_pos (hstream.trans (List.prefix_append w c)),
      List.drop_append_of_le_length hstream.length_le]
  · cases h

/-- What the object returns is the part of the text that is new, within the limit. -/
theorem storedZlib_decompress {d d' : Nat × Bytes} {c piece : Bytes} {n : Int}
    (h : storedZlib.decompress d c n = some (piece, d')) :
    ¬ StoredCorrupt d.1 (d.2 ++ c) ∧ d' = (d.1, d.2 ++ c) ∧
      ∃ new, storedOutput d.1 (d.2 ++ c) = storedOutput d.1 d.2 ++ new ∧
        piece = new.take n.toNat := by
  obtain ⟨new, hnew⟩ := storedOutput_prefix d.1 d.2 c
  simp only [storedZlib] at h
  split at h
  · cases h
  · rename_i hvalid
    cases h
    refine ⟨hvalid, rfl, new, hnew.symm, ?_⟩
    rw [← hnew, List.drop_left]

/-- Of the two streams the object says what `zlib` does. -/
def storedChunkAgnostic (wbits : Nat) : storedZlib.ChunkAgnostic wbits where
  output := storedOutput wbits
  Corrupt := StoredCorrupt wbits
  remainder := storedRemainder wbits
  Consumed d w := d = (wbits, w)
  output_prefix := storedOutput_prefix wbits
  corrupt_append := storedCorrupt_append wbits
  remainder_append := storedRemainder_append wbits
  output_nil := by
    unfold storedOutput agree
    rw [Nat.zero_sub, List.take_zero]
  remainder_nil := by
    unfold storedRemainder storedStream
    split <;> rfl
  start := rfl
  eof_eq := by
    rintro d w rfl
    rfl
  unusedData_eq := by
    rintro d w rfl
    rfl
  error_corrupt := by
    rintro d w c n rfl - - hnone
    simp only [storedZlib] at hnone
    split at hnone
    · rename_i hcorrupt
      exact hcorrupt
    · cases hnone
  length_le := by
    intro d c n piece d' hpos h
    obtain ⟨-, -, new, -, rfl⟩ := storedZlib_decompress h
    rw [List.length_take]
    omega
  piece_prefix := by
    rintro d w c n piece d' rfl - - h
    obtain ⟨-, -, new, hnew, rfl⟩ := storedZlib_decompress h
    dsimp only at hnew
    rw [hnew, List.prefix_append_right_inj]
    exact List.take_prefix _ _
  consumed_of_lt := by
    rintro d w c n piece d' rfl - hpos h hlt
    obtain ⟨hvalid, rfl, new, hnew, rfl⟩ := storedZlib_decompress h
    rw [List.length_take] at hlt
    refine ⟨rfl, hvalid, ?_⟩
    rw [List.take_of_length_le (by omega)]
    exact hnew

end Stored

/-- The stream in one chunk, and with its trailer in a chunk of its own. -/
def whole : List Chunk := [⟨.fin 1, [120, 1, 1, 2, 0, 253, 255, 104, 105, 1, 59, 0, 210]⟩]

def apart : List Chunk :=
  [⟨.fin 1, [120, 1, 1, 2, 0, 253, 255, 104]⟩, ⟨.fin 2, [105]⟩, ⟨.fin 3, [1, 59, 0, 210]⟩]

theorem readVerbatim_apart :
    (readVerbatim (.atSecond 0 []) storedZlib (.fin 10) ⟨some (lit "deflate"), none, false, apart, none⟩
      (lit "u") 13 none (.fin 0)).toOption = some [104, 105] := by
  have hsame := (readVerbatim_chunking (.atSecond 0 []) storedZlib storedChunkAgnostic (.fin 10)
    (lit "u") 13 ⟨some (lit "deflate"), none, false, apart, none⟩ apart whole none none (.fin 0)
    (.fin 0) (by decide +kernel) (by decide +kernel) (by decide)).1
  rw [hsame]
  decide +kernel

end OpenVC.Ebsi.Http
