import OpenVC.Logic.Bitfield
import OpenVC.Status.PackedList

/-!
# Packed lists are arrays

The bytes of a list are words of fields, so that an access reads or writes one field; the operations in
sequence follow those on the array of the fields.
-/

namespace OpenVC.Status.Packed

open Python Bitfield

variable {n i : Nat} {index value : Json} {data : Bytes}

/-! ## Positions -/

theorem position_eq_some : position n index = some i ↔ index = .int i ∧ i < n := by
  cases index with
  | int k =>
    simp only [position, Option.ite_none_right_eq_some, Option.some.injEq, Json.int.injEq]
    omega
  | _ => simp [position]

theorem position_int (h : i < n) : position n (.int i) = some i := position_eq_some.mpr ⟨rfl, h⟩

theorem listIndex_nat (i : Nat) : listIndex (.int i) = .ok i := rfl

theorem listIndex_refused (h : ∀ i : Nat, index ≠ .int i) :
    ∃ e, listIndex index = .error e ∧ e.cls = .statusListError := by
  cases index with
  | int k =>
    have hneg : k < 0 := by
      rcases lt_or_ge k 0 with hk | hk
      · exact hk
      · exact absurd (by rw [Int.toNat_of_nonneg hk]) (h k.toNat)
    have hraise : listIndex (.int k) = raise .statusListError "% must be non-negative, got %"
        [.str "status index", .int k] := by
      rw [listIndex, indexValue, indexOfInt, decide_eq_true hneg]
      rfl
    exact ⟨_, hraise, rfl⟩
  | _ => exact ⟨_, rfl, rfl⟩

theorem locateStatus_of_lt {perByte length : Nat} {unit : Str} (hpos : 0 < perByte)
    (h : i < length * perByte) :
    locateStatus i perByte length unit = .ok (i / perByte, i % perByte) := by
  have hlen : ¬ length ≤ i / perByte := by
    rw [Nat.not_le]
    exact (Nat.div_lt_iff_lt_mul hpos).mpr h
  rw [locateStatus, decide_eq_false hlen]
  rfl

theorem locateStatus_refused {perByte length : Nat} {unit : Str} (hpos : 0 < perByte)
    (h : ¬ i < length * perByte) :
    ∃ e, locateStatus i perByte length unit = .error e ∧ e.cls = .statusListError := by
  have hlen : length ≤ i / perByte := by
    rw [Nat.le_div_iff_mul_le hpos]
    omega
  have hraise : locateStatus i perByte length unit = raise .statusListError
      "status index % out of range for a %-% list" [.int i, .int (length * perByte), .str unit] := by
    rw [locateStatus, decide_eq_true hlen]
    rfl
  exact ⟨_, hraise, rfl⟩

theorem locate_of_position {perByte length : Nat} {unit : Str} (hpos : 0 < perByte)
    (h : position (length * perByte) index = some i) :
    locate index perByte length unit = .ok (i / perByte, i % perByte) := by
  obtain ⟨rfl, hi⟩ := position_eq_some.mp h
  exact locateStatus_of_lt hpos hi

theorem locate_refused {perByte length : Nat} {unit : Str} (hpos : 0 < perByte)
    (h : position (length * perByte) index = none) :
    ∃ e, locate index perByte length unit = .error e ∧ e.cls = .statusListError := by
  by_cases hnat : ∃ i : Nat, index = .int i
  · obtain ⟨i, rfl⟩ := hnat
    have hi : ¬ i < length * perByte := by
      intro hi
      rw [position_int hi] at h
      cases h
    exact locateStatus_refused hpos hi
  · obtain ⟨e, he, hcls⟩ := listIndex_refused fun i hi => hnat ⟨i, hi⟩
    refine ⟨e, ?_, hcls⟩
    rw [locate, he]
    rfl

/-! ## Bytes -/

/-- The bytes as words of eight bits. -/
def words (data : Bytes) : List Nat := data.map UInt8.toNat

@[simp] theorem length_words (data : Bytes) : (words data).length = data.length := List.length_map _

theorem words_lt : ∀ x ∈ words data, x < 2 ^ 8 := by
  intro x hx
  obtain ⟨b, -, rfl⟩ := List.mem_map.mp hx
  exact b.toNat_lt

theorem words_getD_lt (i : Nat) : (words data).getD i 0 < 2 ^ 8 := by
  rw [List.getD_eq_getElem?_getD]
  cases h : (words data)[i]? with
  | none => decide
  | some x => exact words_lt x (List.mem_of_getElem? h)

theorem byteAt_of_lt (h : i < data.length) : byteAt data i = .ok ((words data).getD i 0) := by
  rw [byteAt, words, List.getD_eq_getElem?_getD, List.getElem?_map, List.getElem?_eq_getElem h]
  rfl

theorem setByte_of_lt {x : Nat} (h : i < data.length) (hx : x < 256) :
    ∃ data', setByte data i x = .ok data' ∧ words data' = (words data).set i x := by
  refine ⟨data.set i (UInt8.ofNat x), ?_, ?_⟩
  · rw [setByte, decide_eq_false (Nat.not_le.mpr hx), decide_eq_false (Nat.not_le.mpr h)]
    rfl
  · rw [words, List.map_set, UInt8.toNat_ofNat_of_lt' (by simpa using hx)]
    rfl

/-! ## Fields -/

/-- The accesses read and write the fields of a layout; `value` says what a value writes. -/
structure Implements (A : Access) (L : Layout 8) (value : Json → Option Nat) : Prop where
  get : ∀ data index i, position (L.capacity data.length) index = some i →
    A.get data index = .ok (L.get (words data) i)
  get_refused : ∀ data index, position (L.capacity data.length) index = none →
    ∃ e, A.get data index = .error e ∧ e.cls = .statusListError
  set : ∀ data index v i status, assignment value (L.capacity data.length) index v = some (i, status) →
    ∃ data', A.set data index v = .ok data' ∧ words data' = L.set (words data) i status
  set_refused : ∀ data index v, assignment value (L.capacity data.length) index v = none →
    ∃ e, A.set data index v = .error e ∧ e.cls = .statusListError
  value_lt : ∀ v status, value v = some status → status < 2 ^ L.width

theorem assignment_eq_some {value : Json → Option Nat} {v : Json} {status : Nat} :
    assignment value n index v = some (i, status) ↔
      position n index = some i ∧ value v = some status := by
  simp only [assignment, Option.bind_eq_some_iff, Option.map_eq_some_iff, Prod.mk.injEq]
  constructor
  · rintro ⟨j, hj, s, hs, rfl, rfl⟩
    exact ⟨hj, hs⟩
  · rintro ⟨hi, hs⟩
    exact ⟨i, hi, status, hs, rfl, rfl⟩

theorem assignment_eq_none {value : Json → Option Nat} {v : Json} :
    assignment value n index v = none ↔ position n index = none ∨ value v = none := by
  rw [assignment]
  cases position n index with
  | none => exact ⟨fun _ => .inl rfl, fun _ => rfl⟩
  | some i => cases value v <;> simp

namespace Implements

variable {A : Access} {L : Layout 8} {value : Json → Option Nat} (h : Implements A L value)

include h

/-- An operation on the list is that on the array of its fields. -/
theorem step (data : Bytes) (op : Op) :
    (A.step data op).1 = (arrayStep value (L.fields (words data)) op).1 ∧
      L.fields (words (A.step data op).2) = (arrayStep value (L.fields (words data)) op).2 ∧
      (A.step data op).2.length = data.length := by
  have hlength : (L.fields (words data)).length = L.capacity data.length := by
    rw [L.length_fields, length_words]
  cases op with
  | get index =>
    rw [Access.step, arrayStep, hlength]
    cases hp : position (L.capacity data.length) index with
    | none =>
      obtain ⟨e, he, hcls⟩ := h.get_refused data index hp
      rw [he]
      exact ⟨by rw [← hcls], rfl, rfl⟩
    | some i =>
      have hi : i < L.capacity (words data).length := by
        rw [length_words]
        exact (position_eq_some.mp hp).2
      rw [h.get data index i hp]
      refine ⟨?_, rfl, rfl⟩
      dsimp only
      rw [List.getD_eq_getElem?_getD, L.getElem?_fields hi, Option.getD_some]
  | set index v =>
    rw [Access.step, arrayStep, hlength]
    cases ha : assignment value (L.capacity data.length) index v with
    | none =>
      obtain ⟨e, he, hcls⟩ := h.set_refused data index v ha
      rw [he]
      exact ⟨by rw [← hcls], rfl, rfl⟩
    | some p =>
      obtain ⟨hp, hv⟩ := assignment_eq_some.mp ha
      have hi : p.1 < L.capacity (words data).length := by
        rw [length_words]
        exact (position_eq_some.mp hp).2
      obtain ⟨data', hset, hwords⟩ := h.set data index v p.1 p.2 ha
      rw [hset]
      refine ⟨rfl, ?_, ?_⟩
      · exact hwords ▸ L.fields_set (h.value_lt v p.2 hv) hi
      · have := congrArg List.length hwords
        rw [length_words, L.length_set, length_words] at this
        exact this

/-- Operations in sequence on the list are those on the array of its fields. -/
theorem run (data : Bytes) (ops : List Op) :
    (A.run data ops).1 = (arrayRun value (L.fields (words data)) ops).1 ∧
      L.fields (words (A.run data ops).2) = (arrayRun value (L.fields (words data)) ops).2 ∧
      (A.run data ops).2.length = data.length := by
  induction ops generalizing data with
  | nil => exact ⟨rfl, rfl, rfl⟩
  | cons op ops ih =>
    obtain ⟨hout, hfields, hlen⟩ := h.step data op
    obtain ⟨houts, hfields', hlen'⟩ := ih (A.step data op).2
    rw [hfields] at houts hfields'
    refine ⟨?_, hfields', hlen'.trans hlen⟩
    rw [Access.run, arrayRun]
    exact List.cons_eq_cons.mpr ⟨hout, houts⟩

end Implements

/-! ## Arrays -/

theorem length_arrayStep (value : Json → Option Nat) (a : List Nat) (op : Op) :
    (arrayStep value a op).2.length = a.length := by
  cases op with
  | get index =>
    rw [arrayStep]
    cases position a.length index <;> rfl
  | set index v =>
    rw [arrayStep]
    cases assignment value a.length index v with
    | none => rfl
    | some p => exact List.length_set

theorem getD_arrayStep (value : Json → Option Nat) {a : List Nat} (op : Op) (hi : i < a.length) :
    (arrayStep value a op).2.getD i 0 = statusAfter value a.length i (a.getD i 0) op := by
  cases op with
  | get index =>
    rw [arrayStep, statusAfter]
    cases position a.length index <;> rfl
  | set index v =>
    rw [arrayStep, statusAfter]
    cases assignment value a.length index v with
    | none => rfl
    | some p =>
      dsimp only
      rw [List.getD_eq_getElem?_getD]
      by_cases hj : p.1 = i
      · rw [if_pos hj, hj, List.getElem?_set_self hi, Option.getD_some]
      · rw [if_neg hj, List.getElem?_set_ne hj, List.getD_eq_getElem?_getD]

theorem getD_arrayRun (value : Json → Option Nat) (a : List Nat) (ops : List Op) (hi : i < a.length) :
    (arrayRun value a ops).2.getD i 0 = ops.foldl (statusAfter value a.length i) (a.getD i 0) := by
  induction ops generalizing a with
  | nil => rfl
  | cons op ops ih =>
    have hlen := length_arrayStep value a op
    change (arrayRun value (arrayStep value a op).2 ops).2.getD i 0 = _
    rw [ih _ (by rw [hlen]; exact hi), getD_arrayStep value op hi, hlen, List.foldl_cons]

theorem Implements.behavesAsArray {A : Access} {L : Layout 8} {value : Json → Option Nat}
    (h : Implements A L value) (length : Nat) :
    BehavesAsArray A value (L.capacity length) (List.replicate length 0) := by
  have hfields : L.fields (words (List.replicate length 0)) =
      List.replicate (L.capacity length) 0 := by
    rw [words, List.map_replicate]
    exact L.fields_replicate_zero length
  have hlength : ∀ ops, (A.run (List.replicate length 0) ops).2.length = length := by
    intro ops
    rw [(h.run _ ops).2.2, List.length_replicate]
  constructor
  · intro ops
    rw [(h.run _ ops).1, hfields]
  · intro ops i hi
    have hget := h.get (A.run (List.replicate length 0) ops).2 (.int i) i
      (position_int (by rw [hlength]; exact hi))
    rw [hget]
    have hi' : i < L.capacity (words (A.run (List.replicate length 0) ops).2).length := by
      rw [length_words, hlength]
      exact hi
    have hentry := L.getElem?_fields hi'
    rw [(h.run _ ops).2.1, hfields] at hentry
    have hrun := getD_arrayRun value (List.replicate (L.capacity length) 0) ops
      (by rw [List.length_replicate]; exact hi)
    rw [List.getD_eq_getElem?_getD, hentry, Option.getD_some, List.length_replicate] at hrun
    rw [hrun, lastSet, List.getD_eq_getElem?_getD, List.getElem?_replicate, if_pos hi]
    rfl
  · intro ops
    rw [hlength, List.length_replicate]
  · intro ops index
    have hcap : ∀ p, position (L.capacity (A.run (List.replicate length 0) ops).2.length) index = p ↔
        position (L.capacity length) index = p := by
      intro p
      rw [hlength]
    cases hp : position (L.capacity length) index with
    | none =>
      obtain ⟨e, he, -⟩ := h.get_refused _ _ ((hcap _).mpr hp)
      simp [he]
    | some i =>
      exact ⟨fun _ => rfl, fun _ => ⟨_, h.get _ _ i ((hcap _).mpr hp)⟩⟩
  · intro ops index v ha
    obtain ⟨e, he, hcls⟩ := h.set_refused (A.run (List.replicate length 0) ops).2 index v
      (by rw [hlength]; exact ha)
    rw [Access.step, he]
    exact Prod.ext (congrArg Outcome.raised hcls) rfl

/-! ## The bitstring -/

/-- A byte of a bitstring, the most significant bit first. -/
def bitLayout : Layout 8 where
  perWord := 8
  width := 1
  offset p := 7 - p
  perWord_pos := by decide
  fits := by omega
  apart := by omega

theorem writeBit_eq (byte s : Nat) (v : Json) :
    writeBit byte (1 <<< s) v = write byte s 1 (if v.truthy then 1 else 0) := by
  by_cases hv : v.truthy = true
  · rw [writeBit, if_pos hv, if_pos hv]
    refine Nat.eq_of_testBit_eq fun i => ?_
    rw [testBit_write, Nat.testBit_or, Nat.testBit_shiftLeft]
    by_cases hi : s ≤ i
    · by_cases h0 : i - s = 0
      · simp [hi, h0]
      · have h1 : ¬ i - s < 1 := by omega
        simp [hi, h1]
    · simp [hi]
  · rw [writeBit, if_neg hv, if_neg hv, write, Nat.zero_shiftLeft, Nat.or_zero]
    rfl

theorem implements_bitstring : Implements bitstring bitLayout bitValue where
  get data index i hp := by
    have hi : i / 8 < data.length := bitLayout.word_lt_iff.mpr (position_eq_some.mp hp).2
    have hloc : locate index 8 data.length (lit "bit") = .ok (i / 8, i % 8) :=
      locate_of_position (by decide) hp
    change getStatusBit data index = _
    unfold getStatusBit
    rw [hloc]
    change (byteAt data (i / 8) >>= _) = _
    rw [byteAt_of_lt hi]
    rfl
  get_refused data index hp := by
    obtain ⟨e, he, hcls⟩ : ∃ e, locate index 8 data.length (lit "bit") = .error e ∧
        e.cls = .statusListError := locate_refused (by decide) hp
    refine ⟨e, ?_, hcls⟩
    change getStatusBit data index = _
    unfold getStatusBit
    rw [he]
    rfl
  set data index v i status ha := by
    obtain ⟨hp, hv⟩ := assignment_eq_some.mp ha
    cases hv
    have hi : i / 8 < data.length := bitLayout.word_lt_iff.mpr (position_eq_some.mp hp).2
    have hloc : locate index 8 data.length (lit "bit") = .ok (i / 8, i % 8) :=
      locate_of_position (by decide) hp
    have hlt : writeBit ((words data).getD (i / 8) 0) (1 <<< (7 - i % 8)) v < 256 := by
      rw [writeBit_eq]
      refine write_lt (words_getD_lt _) ?_ (by omega)
      split_ifs <;> decide
    obtain ⟨data', hset, hwords⟩ := setByte_of_lt hi hlt
    refine ⟨data', ?_, ?_⟩
    · change setStatusBit data index v = _
      unfold setStatusBit
      rw [hloc]
      change (byteAt data (i / 8) >>= _) = _
      rw [byteAt_of_lt hi]
      exact hset
    · rw [hwords, writeBit_eq]
      rfl
  set_refused data index v ha := by
    have hp : position (data.length * 8) index = none := by
      rcases assignment_eq_none.mp ha with hp | hv
      · exact hp
      · cases hv
    obtain ⟨e, he, hcls⟩ : ∃ e, locate index 8 data.length (lit "bit") = .error e ∧
        e.cls = .statusListError := locate_refused (by decide) hp
    refine ⟨e, ?_, hcls⟩
    change setStatusBit data index v = _
    unfold setStatusBit
    rw [he]
    rfl
  value_lt v status hv := by
    cases hv
    split_ifs <;> decide

/-! ## The token status list -/

/-- A byte of a token status list, the least significant bits first. -/
def tokenLayout (bits : Nat) (h : bits = 1 ∨ bits = 2 ∨ bits = 4 ∨ bits = 8) : Layout 8 where
  perWord := 8 / bits
  width := bits
  offset p := p * bits
  perWord_pos := by rcases h with rfl | rfl | rfl | rfl <;> decide
  fits p hp := by rcases h with rfl | rfl | rfl | rfl <;> omega
  apart p _ q _ hne := by rcases h with rfl | rfl | rfl | rfl <;> omega

theorem checkBits_of_width {bits : Nat} (h : bits = 1 ∨ bits = 2 ∨ bits = 4 ∨ bits = 8) :
    checkBits bits = .ok bits := by
  rcases h with rfl | rfl | rfl | rfl <;> rfl

theorem width_of_checkBits {bits : Int} {b : Nat} (h : checkBits bits = .ok b) :
    bits = b ∧ (b = 1 ∨ b = 2 ∨ b = 4 ∨ b = 8) := by
  rw [checkBits, orRaise_eq_ok, Option.ite_none_right_eq_some, Option.some.injEq] at h
  omega

theorem statusValue_lt {bits status : Nat} {v : Json} (h : statusValue bits v = some status) :
    status < 2 ^ bits := by
  obtain ⟨k, hk, rfl⟩ := Option.map_eq_some_iff.mp h
  obtain ⟨-, hle⟩ := Option.filter_eq_some_iff.mp hk
  have hle' := (Bool.and_eq_true_iff.mp hle).2
  rw [decide_eq_true_eq] at hle'
  have := Nat.two_pow_pos bits
  omega

/-- The write of a status of an accepted width. -/
theorem setStatus_of_width {bits : Nat} (h : bits = 1 ∨ bits = 2 ∨ bits = 4 ∨ bits = 8) (data : Bytes)
    (index v : Json) : setStatus data index v bits = (do
      let _ ← listIndex index
      let value ← orRaise (statusValue bits v) ⟨.statusListError,
        "status value % does not fit in % bit(s)", [v, .int bits]⟩
      let (byteIndex, pos) ← locate index (8 / bits) data.length "status"
      let byte ← byteAt data byteIndex
      setByte data byteIndex (byte.ldiff ((2 ^ bits - 1) <<< (pos * bits)) ||| value <<< (pos * bits))) := by
  unfold setStatus
  rw [checkBits_of_width h]
  rfl

theorem implements_tokenList {bits : Nat} (h : bits = 1 ∨ bits = 2 ∨ bits = 4 ∨ bits = 8) :
    Implements (tokenList bits) (tokenLayout bits h) (statusValue bits) where
  get data index i hp := by
    have hi : i / (8 / bits) < data.length :=
      (tokenLayout bits h).word_lt_iff.mpr (position_eq_some.mp hp).2
    have hloc : locate index (8 / bits) data.length (lit "status") = .ok (i / (8 / bits), i % (8 / bits)) :=
      locate_of_position (tokenLayout bits h).perWord_pos hp
    change getStatus data index bits = _
    unfold getStatus
    rw [checkBits_of_width h]
    change (locate index (8 / bits) data.length (lit "status") >>= _) = _
    rw [hloc]
    change (byteAt data (i / (8 / bits)) >>= _) = _
    rw [byteAt_of_lt hi]
    rfl
  get_refused data index hp := by
    obtain ⟨e, he, hcls⟩ : ∃ e, locate index (8 / bits) data.length (lit "status") = .error e ∧
        e.cls = .statusListError := locate_refused (tokenLayout bits h).perWord_pos hp
    refine ⟨e, ?_, hcls⟩
    change getStatus data index bits = _
    unfold getStatus
    rw [checkBits_of_width h]
    change (locate index (8 / bits) data.length (lit "status") >>= _) = _
    rw [he]
    rfl
  set data index v i status ha := by
    obtain ⟨hp, hv⟩ := assignment_eq_some.mp ha
    have hi : i / (8 / bits) < data.length :=
      (tokenLayout bits h).word_lt_iff.mpr (position_eq_some.mp hp).2
    have hloc : locate index (8 / bits) data.length (lit "status") = .ok (i / (8 / bits), i % (8 / bits)) :=
      locate_of_position (tokenLayout bits h).perWord_pos hp
    have hlt : write ((words data).getD (i / (8 / bits)) 0) (i % (8 / bits) * bits) bits status < 2 ^ 8 :=
      write_lt (words_getD_lt _) (statusValue_lt hv)
        ((tokenLayout bits h).fits _ (Nat.mod_lt i (tokenLayout bits h).perWord_pos))
    obtain ⟨data', hset, hwords⟩ := setByte_of_lt hi hlt
    refine ⟨data', ?_, hwords⟩
    obtain ⟨rfl, -⟩ := position_eq_some.mp hp
    change setStatus data (.int i) v bits = _
    rw [setStatus_of_width h, hv]
    change (locate (.int i) (8 / bits) data.length (lit "status") >>= _) = _
    rw [hloc]
    change (byteAt data (i / (8 / bits)) >>= _) = _
    rw [byteAt_of_lt hi]
    exact hset
  set_refused data index v ha := by
    change ∃ e, setStatus data index v bits = .error e ∧ _
    by_cases hnat : ∃ i : Nat, index = .int i
    · obtain ⟨i, rfl⟩ := hnat
      cases hv : statusValue bits v with
      | none =>
        have hraise : setStatus data (.int i) v bits = raise .statusListError
            "status value % does not fit in % bit(s)" [v, .int bits] := by
          rw [setStatus_of_width h, hv]
          rfl
        exact ⟨_, hraise, rfl⟩
      | some status =>
        have hp : position (data.length * (8 / bits)) (.int i) = none := by
          rcases assignment_eq_none.mp ha with hp | hv'
          · exact hp
          · rw [hv] at hv'
            cases hv'
        obtain ⟨e, he, hcls⟩ : ∃ e, locate (.int i) (8 / bits) data.length (lit "status") = .error e ∧
            e.cls = .statusListError := locate_refused (tokenLayout bits h).perWord_pos hp
        refine ⟨e, ?_, hcls⟩
        rw [setStatus_of_width h, hv]
        change (locate (.int i) (8 / bits) data.length (lit "status") >>= _) = _
        rw [he]
        rfl
    · obtain ⟨e, he, hcls⟩ := listIndex_refused fun i hi => hnat ⟨i, hi⟩
      refine ⟨e, ?_, hcls⟩
      rw [setStatus_of_width h]
      rw [he]
      rfl
  value_lt v status hv := statusValue_lt hv

/-! ## New lists -/

theorem packedLength_eq_ok {size : Json} {perByte length : Nat}
    (h : packedLength size perByte = .ok length) :
    ∃ k : Nat, size = .int k ∧ length = (k + perByte - 1) / perByte := by
  simp only [packedLength, indexOfInt, bind_eq_ok, orRaise_eq_ok, raiseIf_eq_ok, pure_eq_ok,
    decide_eq_false_iff_not, not_lt] at h
  obtain ⟨k, hk, m, ⟨-, hneg, rfl⟩, -, -, rfl⟩ := h
  refine ⟨k.toNat, ?_, rfl⟩
  cases size with
  | int k' =>
    cases hk
    rw [Int.toNat_of_nonneg hneg]
  | _ => cases hk

theorem le_capacity {k perByte : Nat} (hpos : 0 < perByte) :
    k ≤ (k + perByte - 1) / perByte * perByte := by
  have h := Nat.div_add_mod (k + perByte - 1) perByte
  have hlt := Nat.mod_lt (k + perByte - 1) hpos
  rw [Nat.mul_comm] at h
  omega

/-- A new status list, of bits or of one, two, four or eight bits a status, behaves as an array of zeros
with room for at least the statuses asked for, over every sequence of reads and writes. -/
theorem packed_lists_are_arrays (size : Json) (data : Bytes) :
    (newBitstring size = .ok data →
      (∃ k : Nat, size = .int k ∧ k ≤ data.length * 8) ∧
        BehavesAsArray bitstring bitValue (data.length * 8) data) ∧
    ∀ bits : Int, newStatusList size bits = .ok data →
      (∃ k : Nat, size = .int k ∧ k ≤ data.length * (8 / bits.toNat)) ∧
        BehavesAsArray (tokenList bits) (statusValue bits.toNat) (data.length * (8 / bits.toNat))
          data := by
  constructor
  · intro h
    simp only [newBitstring, bind_eq_ok, pure_eq_ok] at h
    obtain ⟨length, hlength, rfl⟩ := h
    obtain ⟨k, rfl, rfl⟩ := packedLength_eq_ok hlength
    rw [List.length_replicate]
    exact ⟨⟨k, rfl, le_capacity (by decide)⟩, implements_bitstring.behavesAsArray _⟩
  · intro bits h
    simp only [newStatusList, bind_eq_ok, pure_eq_ok] at h
    obtain ⟨b, hb, length, hlength, rfl⟩ := h
    obtain ⟨rfl, hwidth⟩ := width_of_checkBits hb
    obtain ⟨k, rfl, rfl⟩ := packedLength_eq_ok hlength
    rw [List.length_replicate, Int.toNat_natCast]
    exact ⟨⟨k, rfl, le_capacity (tokenLayout b hwidth).perWord_pos⟩,
      (implements_tokenList hwidth).behavesAsArray _⟩

/-- Lists with room for nine statuses: of bits, and of two bits each. -/
theorem packed_lists_are_arrays_nine :
    BehavesAsArray bitstring bitValue 16 [0, 0] ∧
      BehavesAsArray (tokenList 2) (statusValue 2) 12 [0, 0, 0] :=
  ⟨((packed_lists_are_arrays (.int 9) [0, 0]).1 rfl).2,
    ((packed_lists_are_arrays (.int 9) [0, 0, 0]).2 2 rfl).2⟩

end OpenVC.Status.Packed
