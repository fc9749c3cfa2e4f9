import OpenVC.CborWire
import OpenVC.Proofs.CborProofs

/-!
# What the CBOR decoder reads

The decoder reads the items of the profile and nothing else, each up to its last byte. A syntax tree of
the input carries the positions: every tag of the result records the bytes that the tree has at its
place.
-/

namespace OpenVC.Cbor

open Python PrefixReader

/-! ## Heads -/

theorem Argument.info_lt (a : Argument) : a.info < 28 := by
  rcases a.wf with h | h
  · omega
  · unfold argumentBytes at h
    split_ifs at h <;> omega

theorem readHead_argument (a : Argument) {major : Nat} (hm : major < 8) (r : Bytes) :
    readHead (a.head major ++ r) = .ok ⟨32 * major + a.info, a.value, r⟩ := by
  have hinfo := a.info_lt
  have hib : (byte (32 * major + a.info)).toNat = 32 * major + a.info := Codec.toNat_byte (by omega)
  have hmod : (32 * major + a.info) % 32 = a.info := by omega
  by_cases hshort : a.info < 24
  · have hbytes : a.bytes = [] := by
      rcases a.wf with h | h
      · exact h.2
      · unfold argumentBytes at h
        split_ifs at h <;> omega
    rw [Argument.head, hbytes, List.singleton_append, readHead, hib, hmod, if_pos hshort,
      Argument.value, if_pos hshort]
  · have hlen : argumentBytes a.info = some a.bytes.length := by
      rcases a.wf with h | h
      · exact absurd h.1 hshort
      · exact h
    have h31 : (a.info == 31) = false := by simpa using (by omega : a.info ≠ 31)
    have hlong : decide ((a.bytes ++ r).length < a.bytes.length) = false := by
      rw [decide_eq_false_iff_not, List.length_append]
      omega
    rw [Argument.head, List.cons_append, readHead, hib, hmod, if_neg hshort, readArgument, hmod, hlen,
      Argument.value, if_neg hshort]
    refine bind_eq_ok.mpr ⟨(), raiseIf_eq_ok.mpr h31, bind_eq_ok.mpr ⟨_, rfl,
      bind_eq_ok.mpr ⟨(), raiseIf_eq_ok.mpr hlong, ?_⟩⟩⟩
    rw [List.take_left, List.drop_left]
    rfl

theorem exists_argument {data : Bytes} {h : Head} (hh : readHead data = .ok h) :
    ∃ a : Argument, h.major < 8 ∧ h.info = a.info ∧ h.argument = a.value ∧
      data = a.head h.major ++ h.rest := by
  cases data with
  | nil => cases hh
  | cons ib data =>
    have hlt := ib.toNat_lt
    have hbyte : byte (32 * (ib.toNat / 32) + ib.toNat % 32) = ib := by
      rw [Nat.div_add_mod]
      exact UInt8.toNat_inj.mp (Codec.toNat_byte hlt)
    rw [readHead] at hh
    split at hh
    · rename_i hshort
      cases hh
      refine ⟨⟨ib.toNat % 32, [], .inl ⟨hshort, rfl⟩⟩, ?_, rfl, (if_pos hshort).symm, ?_⟩
      · unfold Head.major
        dsimp only
        omega
      · rw [Argument.head, Head.major, hbyte]
        rfl
    · rename_i hlong
      simp only [readArgument, bind_eq_ok, raiseIf_eq_ok, orRaise_eq_ok, pure_eq_ok] at hh
      obtain ⟨⟨⟩, -, nbytes, hb, ⟨⟩, hlen, rfl⟩ := hh
      rw [decide_eq_false_iff_not, not_lt] at hlen
      have htake := List.length_take_of_le hlen
      refine ⟨⟨ib.toNat % 32, data.take nbytes, .inr (by rw [hb, htake])⟩, ?_, rfl,
        (if_neg hlong).symm, ?_⟩
      · unfold Head.major
        dsimp only
        omega
      · rw [Argument.head, Head.major, hbyte, List.cons_append, List.take_append_drop]

namespace Wire

/-! ## Syntax trees -/

/-- Induction over syntax trees, with the elements and the entries at hand. -/
@[elab_as_elim]
theorem wire_induction {P : Wire → Prop} (uint : ∀ a, P (.uint a)) (nint : ∀ a, P (.nint a))
    (bytes : ∀ a b, P (.bytes a b)) (text : ∀ a b, P (.text a b))
    (arr : ∀ a l, (∀ w ∈ l, P w) → P (.arr a l))
    (map : ∀ a m, (∀ e ∈ m, P e.1 ∧ P e.2) → P (.map a m))
    (tag : ∀ a c, P c → P (.tag a c)) (special : ∀ a, P (.special a))
    (indefinite : ∀ major l, P (.indefinite major l)) : ∀ w, P w
  | .uint a => uint a
  | .nint a => nint a
  | .bytes a b => bytes a b
  | .text a b => text a b
  | .arr a l => arr a l fun w _ =>
      wire_induction uint nint bytes text arr map tag special indefinite w
  | .map a m => map a m fun e _ =>
      ⟨wire_induction uint nint bytes text arr map tag special indefinite e.1,
        wire_induction uint nint bytes text arr map tag special indefinite e.2⟩
  | .tag a c => tag a c (wire_induction uint nint bytes text arr map tag special indefinite c)
  | .special a => special a
  | .indefinite major l => indefinite major l
termination_by w => sizeOf w
decreasing_by
  · rename_i hw
    have := List.sizeOf_lt_of_mem hw
    simp only [Wire.arr.sizeOf_spec]
    omega
  · rename_i he
    have := List.sizeOf_lt_of_mem he
    cases e
    simp only [Wire.map.sizeOf_spec, Prod.mk.sizeOf_spec] at this ⊢
    omega
  · rename_i he
    have := List.sizeOf_lt_of_mem he
    cases e
    simp only [Wire.map.sizeOf_spec, Prod.mk.sizeOf_spec] at this ⊢
    omega
  · simp only [Wire.tag.sizeOf_spec]
    omega

theorem writtenList_iff {l : List Wire} : WrittenList l ↔ ∀ w ∈ l, Written w := by
  induction l with
  | nil => simp [WrittenList]
  | cons w l ih => simp [WrittenList, ih]

theorem writtenEntries_iff {m : List (Wire × Wire)} :
    WrittenEntries m ↔ ∀ e ∈ m, Written e.1 ∧ Written e.2 := by
  induction m with
  | nil => simp [WrittenEntries]
  | cons e m ih => simp [WrittenEntries, ih]

theorem values_cons {w : Wire} {l : List Wire} {vs : List Cbor} :
    values (w :: l) = some vs ↔ ∃ v t, value w = some v ∧ values l = some t ∧ vs = v :: t := by
  simp only [values, Option.bind_eq_some_iff, Option.map_eq_some_iff]
  constructor
  · rintro ⟨v, hv, t, ht, rfl⟩
    exact ⟨v, t, hv, ht, rfl⟩
  · rintro ⟨v, t, hv, ht, rfl⟩
    exact ⟨v, hv, t, ht, rfl⟩

theorem entryValues_cons {k w : Wire} {m : List (Wire × Wire)} {es : List (CborKey × Cbor)} :
    entryValues ((k, w) :: m) = some es ↔ ∃ kv key v t, value k = some kv ∧ kv.key? = some key ∧
      value w = some v ∧ entryValues m = some t ∧ es = (key, v) :: t := by
  simp only [entryValues, Option.bind_eq_some_iff, Option.map_eq_some_iff]
  constructor
  · rintro ⟨key, ⟨kv, hk, hkey⟩, v, hv, t, ht, rfl⟩
    exact ⟨kv, key, v, t, hk, hkey, hv, ht, rfl⟩
  · rintro ⟨kv, key, v, t, hk, hkey, hv, ht, rfl⟩
    exact ⟨key, ⟨kv, hk, hkey⟩, v, hv, t, ht, rfl⟩

theorem mapOf_eq_some {m : List (CborKey × Cbor)} {v : Cbor} :
    mapOf m = some v ↔ (m.map Prod.fst).Nodup ∧ v = .map m := by
  unfold mapOf
  split
  · rename_i h
    simp [h, eq_comm]
  · rename_i h
    simp [h]

/-! ## The decoder reads the items of the profile -/

section Loops

variable {item : Bytes → Result (Cbor × Bytes)}

theorem readItems_codes {l : List Wire} {vs : List Cbor} (hvs : values l = some vs)
    (hitem : ∀ w ∈ l, ∀ v ∈ vs, value w = some v → Reads item (code w) v) :
    Reads (readItems item l.length) (codes l) vs := by
  induction l generalizing vs with
  | nil =>
    cases hvs
    exact fun rest => rfl
  | cons w l ih =>
    obtain ⟨v, t, hv, ht, rfl⟩ := values_cons.mp hvs
    have hl := ih ht fun u hu x hx => hitem u (List.mem_cons_of_mem _ hu) x (List.mem_cons_of_mem _ hx)
    intro rest
    rw [codes, List.append_assoc, List.length_cons]
    exact readItems_succ.mpr ⟨v, t, _, hitem w List.mem_cons_self v List.mem_cons_self hv _, hl rest, rfl⟩

theorem readEntries_codes {m : List (Wire × Wire)} {entries es : List (CborKey × Cbor)}
    (hes : entryValues m = some es) (hnodup : ((entries ++ es).map Prod.fst).Nodup)
    (hkey : ∀ e ∈ m, ∀ v, value e.1 = some v → (v.key?).isSome → Reads item (code e.1) v)
    (hval : ∀ e ∈ m, ∀ x ∈ es, value e.2 = some x.2 → Reads item (code e.2) x.2) :
    ∀ rest, readEntries item m.length entries (entryCodes m ++ rest) = .ok (entries ++ es, rest) := by
  induction m generalizing entries es with
  | nil =>
    cases hes
    intro rest
    rw [List.append_nil]
    rfl
  | cons e m ih =>
    obtain ⟨k, w⟩ := e
    obtain ⟨kv, key, v, t, hk, hkv, hv, ht, rfl⟩ := entryValues_cons.mp hes
    have hshift : entries ++ (key, v) :: t = (entries ++ [(key, v)]) ++ t := by simp
    have hnew : key ∉ entries.map Prod.fst := by
      rw [List.map_append, List.map_cons] at hnodup
      intro hmem
      exact (List.nodup_append.mp hnodup).2.2 key hmem key List.mem_cons_self rfl
    rw [hshift] at hnodup ⊢
    have hm := ih ht hnodup (fun e he => hkey e (List.mem_cons_of_mem _ he))
      fun e he x hx => hval e (List.mem_cons_of_mem _ he) x (List.mem_cons_of_mem _ hx)
    intro rest
    rw [entryCodes, List.append_assoc, List.append_assoc, List.length_cons]
    have hk' := hkey _ List.mem_cons_self kv hk (by rw [hkv]; rfl) (code w ++ (entryCodes m ++ rest))
    have hv' := hval _ List.mem_cons_self _ List.mem_cons_self hv (entryCodes m ++ rest)
    exact readEntries_succ.mpr ⟨kv, key, v, _, _, hk', hv', hkv, hnew, hm rest⟩

end Loops

theorem depth_of_key {v : Cbor} (h : (v.key?).isSome) : depth v = 0 := by
  cases v <;> first | rfl | cases h

/-- The body after a head of the given major type. -/
theorem decodeAt_argument {left : Nat} (a : Argument) {major : Nat} (hm : major < 8) {v : Cbor}
    {r rest : Bytes}
    (hbody : Body (decodeAt left) (a.head major ++ r) ⟨32 * major + a.info, a.value, r⟩ v rest) :
    decodeAt (left + 1) (a.head major ++ r) = .ok (v, rest) :=
  decodeAt_succ.mpr ⟨_, readHead_argument a hm r, decodeBody_eq_ok.mpr hbody⟩

theorem decodeBody_of_argument {left : Nat} {a : Argument} {major : Nat} (hm : major < 8) {v : Cbor}
    {r rest : Bytes} (h : decodeAt left (a.head major ++ r) = .ok (v, rest)) :
    ∃ k, left = k + 1 ∧ decodeBody (decodeAt k) (a.head major ++ r)
      ⟨32 * major + a.info, a.value, r⟩ = .ok (v, rest) := by
  cases left with
  | zero => cases h
  | succ k =>
    obtain ⟨hd, hread, hbody⟩ := decodeAt_succ.mp h
    rw [readHead_argument a hm] at hread
    cases hread
    exact ⟨k, rfl, hbody⟩

theorem head_major (a : Argument) (major v : Nat) (r : Bytes) :
    Head.major ⟨32 * major + a.info, v, r⟩ = major := by
  have := a.info_lt
  unfold Head.major
  dsimp only
  omega

theorem head_info (a : Argument) (major v : Nat) (r : Bytes) :
    Head.info ⟨32 * major + a.info, v, r⟩ = a.info := by
  have := a.info_lt
  unfold Head.info
  dsimp only
  omega

theorem reads_code {w : Wire} {v : Cbor} {left : Nat} (hw : Written w) (hv : value w = some v)
    (hdepth : depth v < left) : Reads (decodeAt left) (code w) v := by
  obtain ⟨left, rfl⟩ : ∃ k, left = k + 1 := ⟨left - 1, by omega⟩
  induction w using wire_induction generalizing v left with
  | uint a =>
    cases hv
    intro rest
    exact decodeAt_argument a (by omega) (.uint (head_major a 0 _ _))
  | nint a =>
    cases hv
    intro rest
    exact decodeAt_argument a (by omega) (.nint (head_major a 1 _ _))
  | bytes a b =>
    cases hv
    intro rest
    rw [code, List.append_assoc]
    exact decodeAt_argument a (by omega) (.bytes (head_major a 2 _ _) rfl hw)
  | text a b =>
    obtain ⟨s, hs, rfl⟩ := Option.map_eq_some_iff.mp hv
    intro rest
    rw [code, List.append_assoc]
    exact decodeAt_argument a (by omega) (.text (head_major a 3 _ _) rfl hw hs)
  | arr a l ih =>
    obtain ⟨vs, hvs, rfl⟩ := Option.map_eq_some_iff.mp hv
    have hall := (depthList_lt_iff (by omega)).mp hdepth
    have hread : Reads (readItems (decodeAt left) l.length) (codes l) vs := by
      refine readItems_codes hvs fun w hw' v hv' hval => ?_
      have hlt := hall v hv'
      obtain ⟨k, rfl⟩ : ∃ k, left = k + 1 := ⟨left - 1, by omega⟩
      exact ih w hw' (writtenList_iff.mp hw.2 w hw') hval k (by omega)
    intro rest
    rw [code, List.append_assoc]
    refine decodeAt_argument a (by omega) (.arr (head_major a 4 _ _) ?_)
    dsimp only
    rw [← hw.1]
    exact hread rest
  | map a m ih =>
    obtain ⟨es, hes, hmap⟩ := Option.bind_eq_some_iff.mp hv
    obtain ⟨hnodup, rfl⟩ := mapOf_eq_some.mp hmap
    have hall := (depthEntries_lt_iff (by omega)).mp hdepth
    have hwritten := writtenEntries_iff.mp hw.2
    have hread : ∀ rest, readEntries (decodeAt left) m.length [] (entryCodes m ++ rest) =
        .ok (es, rest) := by
      refine readEntries_codes hes hnodup (fun e he v hval hkey => ?_) fun e he x hx hval => ?_
      · have hdepth0 := depth_of_key hkey
        have hpos : 0 < left := by
          cases m with
          | nil => cases he
          | cons e' m =>
            obtain ⟨kv, key, v', t, -, -, -, -, rfl⟩ := entryValues_cons.mp hes
            have := hall _ List.mem_cons_self
            omega
        obtain ⟨k, rfl⟩ : ∃ k, left = k + 1 := ⟨left - 1, by omega⟩
        exact (ih e he).1 (hwritten e he).1 hval k (by omega)
      · have hlt := hall x hx
        obtain ⟨k, rfl⟩ : ∃ k, left = k + 1 := ⟨left - 1, by omega⟩
        exact (ih e he).2 (hwritten e he).2 hval k (by omega)
    intro rest
    rw [code, List.append_assoc]
    refine decodeAt_argument a (by omega) (.map (head_major a 5 _ _) ?_)
    dsimp only
    rw [← hw.1]
    exact hread rest
  | tag a c ih =>
    obtain ⟨x, hx, rfl⟩ := Option.map_eq_some_iff.mp hv
    have hlt : depth x < left := by
      rw [depth] at hdepth
      omega
    obtain ⟨k, rfl⟩ : ∃ k, left = k + 1 := ⟨left - 1, by omega⟩
    have hread := ih hw hx k hlt
    intro rest
    have htake : (a.head 6 ++ (code c ++ rest)).take
        ((a.head 6 ++ (code c ++ rest)).length - rest.length) = a.head 6 ++ code c := by
      rw [← List.append_assoc, take_sub_length]
    rw [code, List.append_assoc, ← htake]
    exact decodeAt_argument a (by omega) (.tag (head_major a 6 _ _) (hread rest))
  | special a =>
    intro rest
    rw [code]
    refine decodeAt_argument a (by omega) (.simple ?_ ?_)
    · rw [head_major]
    · rw [head_info]
      rw [value] at hv
      cases hs : simple a.info with
      | ok x =>
        rw [hs] at hv
        cases hv
        rfl
      | error e =>
        rw [hs] at hv
        cases hv
  | indefinite major l => cases hv

/-! ## And nothing else -/

section Loops

variable {item : Bytes → Result (Cbor × Bytes)}

theorem values_of_readItems {l : List Wire} {vs : List Cbor} {rest r : Bytes}
    (hitem : ∀ w ∈ l, ∀ v rest r, item (code w ++ rest) = .ok (v, r) → value w = some v ∧ r = rest)
    (h : readItems item l.length (codes l ++ rest) = .ok (vs, r)) : values l = some vs ∧ r = rest := by
  induction l generalizing vs rest with
  | nil =>
    cases h
    exact ⟨rfl, rfl⟩
  | cons w l ih =>
    rw [codes, List.append_assoc, List.length_cons] at h
    obtain ⟨v, t, mid, hv, ht, rfl⟩ := readItems_succ.mp h
    obtain ⟨hval, rfl⟩ := hitem w List.mem_cons_self _ _ _ hv
    obtain ⟨hvals, rfl⟩ := ih (fun u hu => hitem u (List.mem_cons_of_mem _ hu)) ht
    exact ⟨values_cons.mpr ⟨v, t, hval, hvals, rfl⟩, rfl⟩

theorem entryValues_of_readEntries {m : List (Wire × Wire)} {entries es : List (CborKey × Cbor)}
    {rest r : Bytes}
    (hitem : ∀ e ∈ m, ∀ w, w = e.1 ∨ w = e.2 → ∀ v rest r,
      item (code w ++ rest) = .ok (v, r) → value w = some v ∧ r = rest)
    (hnodup : (entries.map Prod.fst).Nodup)
    (h : readEntries item m.length entries (entryCodes m ++ rest) = .ok (es, r)) :
    ∃ t, entryValues m = some t ∧ es = entries ++ t ∧ (es.map Prod.fst).Nodup ∧ r = rest := by
  induction m generalizing entries rest with
  | nil =>
    cases h
    exact ⟨[], rfl, (List.append_nil _).symm, hnodup, rfl⟩
  | cons e m ih =>
    obtain ⟨k, w⟩ := e
    rw [entryCodes, List.append_assoc, List.append_assoc, List.length_cons] at h
    obtain ⟨kv, key, v, mid, mid', hk, hv, hkey, hnew, hrest⟩ := readEntries_succ.mp h
    obtain ⟨hkval, rfl⟩ := hitem _ List.mem_cons_self k (.inl rfl) _ _ _ hk
    obtain ⟨hval, rfl⟩ := hitem _ List.mem_cons_self w (.inr rfl) _ _ _ hv
    have hnodup' : ((entries ++ [(key, v)]).map Prod.fst).Nodup := by
      rw [List.map_append, List.map_singleton, List.nodup_append_comm, List.singleton_append,
        List.nodup_cons]
      exact ⟨hnew, hnodup⟩
    obtain ⟨t, ht, rfl, hes, rfl⟩ :=
      ih (fun e he => hitem e (List.mem_cons_of_mem _ he)) hnodup' hrest
    refine ⟨(key, v) :: t, ?_, by simp, hes, rfl⟩
    exact entryValues_cons.mpr ⟨kv, key, v, t, hkval, hkey, hval, ht, rfl⟩

/-- Items that are read are items of a syntax. -/
theorem exists_codes {n : Nat} {vs : List Cbor} {data rest : Bytes}
    (hitem : ∀ data v rest, item data = .ok (v, rest) →
      ∃ w, Written w ∧ data = code w ++ rest ∧ value w = some v)
    (h : readItems item n data = .ok (vs, rest)) :
    ∃ l, l.length = n ∧ (∀ w ∈ l, Written w) ∧ data = codes l ++ rest ∧ values l = some vs := by
  induction n generalizing vs data with
  | zero =>
    cases h
    exact ⟨[], rfl, nofun, rfl, rfl⟩
  | succ n ih =>
    obtain ⟨v, t, mid, hv, ht, rfl⟩ := readItems_succ.mp h
    obtain ⟨w, hw, rfl, hval⟩ := hitem _ _ _ hv
    obtain ⟨l, rfl, hl, rfl, hvals⟩ := ih ht
    refine ⟨w :: l, rfl, List.forall_mem_cons.mpr ⟨hw, hl⟩, ?_, ?_⟩
    · rw [codes, List.append_assoc]
    · exact values_cons.mpr ⟨v, t, hval, hvals, rfl⟩

theorem exists_entryCodes {n : Nat} {entries es : List (CborKey × Cbor)} {data rest : Bytes}
    (hitem : ∀ data v rest, item data = .ok (v, rest) →
      ∃ w, Written w ∧ data = code w ++ rest ∧ value w = some v)
    (hnodup : (entries.map Prod.fst).Nodup)
    (h : readEntries item n entries data = .ok (es, rest)) :
    ∃ m t, m.length = n ∧ (∀ e ∈ m, Written e.1 ∧ Written e.2) ∧ data = entryCodes m ++ rest ∧
      entryValues m = some t ∧ es = entries ++ t ∧ (es.map Prod.fst).Nodup := by
  induction n generalizing entries data with
  | zero =>
    cases h
    exact ⟨[], [], rfl, nofun, rfl, rfl, (List.append_nil _).symm, hnodup⟩
  | succ n ih =>
    obtain ⟨kv, key, v, mid, mid', hk, hv, hkey, hnew, hrest⟩ := readEntries_succ.mp h
    obtain ⟨k, hkw, rfl, hkval⟩ := hitem _ _ _ hk
    obtain ⟨w, hw, rfl, hval⟩ := hitem _ _ _ hv
    have hnodup' : ((entries ++ [(key, v)]).map Prod.fst).Nodup := by
      rw [List.map_append, List.map_singleton, List.nodup_append_comm, List.singleton_append,
        List.nodup_cons]
      exact ⟨hnew, hnodup⟩
    obtain ⟨m, t, rfl, hm, rfl, ht, rfl, hes⟩ := ih hnodup' hrest
    refine ⟨(k, w) :: m, (key, v) :: t, rfl, List.forall_mem_cons.mpr ⟨⟨hkw, hw⟩, hm⟩, ?_, ?_, by simp,
      hes⟩
    · rw [entryCodes, List.append_assoc, List.append_assoc]
    · exact entryValues_cons.mpr ⟨kv, key, v, t, hkval, hkey, hval, ht, rfl⟩

end Loops

theorem value_of_decodeAt {w : Wire} {v : Cbor} {left : Nat} {rest r : Bytes} (hw : Written w)
    (h : decodeAt left (code w ++ rest) = .ok (v, r)) : value w = some v ∧ r = rest := by
  induction w using wire_induction generalizing v left rest r with
  | uint a =>
    obtain ⟨k, rfl, hb⟩ := decodeBody_of_argument (by omega) h
    unfold decodeBody at hb
    rw [head_major] at hb
    cases hb
    exact ⟨rfl, rfl⟩
  | nint a =>
    obtain ⟨k, rfl, hb⟩ := decodeBody_of_argument (by omega) h
    unfold decodeBody at hb
    rw [head_major] at hb
    cases hb
    exact ⟨rfl, rfl⟩
  | bytes a b =>
    rw [code, List.append_assoc] at h
    obtain ⟨k, rfl, hb⟩ := decodeBody_of_argument (by omega) h
    unfold decodeBody at hb
    rw [head_major] at hb
    simp only [bind_eq_ok, pure_eq_ok, Prod.exists, Prod.mk.injEq, readBytes_eq_ok] at hb
    obtain ⟨b', r', ⟨heq, hlen⟩, rfl, rfl⟩ := hb
    obtain ⟨rfl, rfl⟩ := List.append_inj heq (hw.trans hlen.symm)
    exact ⟨rfl, rfl⟩
  | text a b =>
    rw [code, List.append_assoc] at h
    obtain ⟨k, rfl, hb⟩ := decodeBody_of_argument (by omega) h
    unfold decodeBody at hb
    rw [head_major] at hb
    obtain ⟨b', s, heq, hlen, hs, rfl⟩ := readText_eq_ok.mp hb
    obtain ⟨rfl, rfl⟩ := List.append_inj heq (hw.trans hlen.symm)
    exact ⟨Option.map_eq_some_iff.mpr ⟨s, hs, rfl⟩, rfl⟩
  | arr a l ih =>
    rw [code, List.append_assoc] at h
    obtain ⟨k, rfl, hb⟩ := decodeBody_of_argument (by omega) h
    unfold decodeBody at hb
    rw [head_major] at hb
    simp only [bind_eq_ok, pure_eq_ok, Prod.exists, Prod.mk.injEq] at hb
    obtain ⟨vs, r', hl, rfl, rfl⟩ := hb
    rw [← hw.1] at hl
    have hwritten := writtenList_iff.mp hw.2
    obtain ⟨hvals, rfl⟩ := values_of_readItems (fun w hmem v rest r => ih w hmem (hwritten w hmem)) hl
    exact ⟨Option.map_eq_some_iff.mpr ⟨vs, hvals, rfl⟩, rfl⟩
  | map a m ih =>
    rw [code, List.append_assoc] at h
    obtain ⟨k, rfl, hb⟩ := decodeBody_of_argument (by omega) h
    unfold decodeBody at hb
    rw [head_major] at hb
    simp only [bind_eq_ok, pure_eq_ok, Prod.exists, Prod.mk.injEq] at hb
    obtain ⟨es, r', hm, rfl, rfl⟩ := hb
    rw [← hw.1] at hm
    have hwritten := writtenEntries_iff.mp hw.2
    have hitem : ∀ e ∈ m, ∀ w, w = e.1 ∨ w = e.2 → ∀ v rest r,
        decodeAt k (code w ++ rest) = .ok (v, r) → value w = some v ∧ r = rest := by
      rintro e he w (rfl | rfl) v rest r h
      · exact (ih e he).1 (hwritten e he).1 h
      · exact (ih e he).2 (hwritten e he).2 h
    have hnil : (([] : List (CborKey × Cbor)).map Prod.fst).Nodup := List.nodup_nil
    obtain ⟨t, ht, hes, hnodup, rfl⟩ := entryValues_of_readEntries hitem hnil hm
    rw [List.nil_append] at hes
    refine ⟨Option.bind_eq_some_iff.mpr ⟨t, ht, ?_⟩, rfl⟩
    exact mapOf_eq_some.mpr ⟨hes ▸ hnodup, by rw [hes]⟩
  | tag a c ih =>
    rw [code, List.append_assoc] at h
    obtain ⟨k, rfl, hb⟩ := decodeBody_of_argument (by omega) h
    unfold decodeBody at hb
    rw [head_major] at hb
    simp only [bind_eq_ok, pure_eq_ok, Prod.exists, Prod.mk.injEq] at hb
    obtain ⟨x, r', hx, rfl, rfl⟩ := hb
    obtain ⟨hval, rfl⟩ := ih hw hx
    rw [← List.append_assoc, take_sub_length]
    exact ⟨Option.map_eq_some_iff.mpr ⟨x, hval, rfl⟩, rfl⟩
  | special a =>
    obtain ⟨k, rfl, hb⟩ := decodeBody_of_argument (by omega) h
    unfold decodeBody at hb
    rw [head_major] at hb
    simp only [bind_eq_ok, pure_eq_ok, Prod.mk.injEq] at hb
    obtain ⟨x, hx, rfl, rfl⟩ := hb
    rw [head_info] at hx
    exact ⟨by rw [value, hx]; rfl, rfl⟩
  | indefinite major l =>
    cases left with
    | zero => cases h
    | succ k =>
      obtain ⟨hd, hread, -⟩ := decodeAt_succ.mp h
      have hib : (byte (32 * major + 31)).toNat = 32 * major + 31 :=
        Codec.toNat_byte (by have := hw.2.1; omega)
      have hmod : (32 * major + 31) % 32 = 31 := by omega
      rw [code, List.cons_append, readHead, hib, hmod, if_neg (by omega), readArgument, hmod] at hread
      cases hread

theorem exists_wire {left : Nat} {data rest : Bytes} {v : Cbor}
    (h : decodeAt left data = .ok (v, rest)) :
    ∃ w, Written w ∧ data = code w ++ rest ∧ value w = some v := by
  induction left generalizing data v rest with
  | zero => cases h
  | succ left ih =>
    obtain ⟨hd, hread, hbody⟩ := decodeAt_succ.mp h
    obtain ⟨a, hlt, hinfo, harg, hdata⟩ := exists_argument hread
    have hitem : ∀ data v rest, decodeAt left data = .ok (v, rest) →
        ∃ w, Written w ∧ data = code w ++ rest ∧ value w = some v := fun _ _ _ h => ih h
    cases decodeBody_eq_ok.mp hbody with
    | uint hm =>
      rw [hm] at hdata
      exact ⟨.uint a, trivial, hdata, by rw [harg]; rfl⟩
    | nint hm =>
      rw [hm] at hdata
      exact ⟨.nint a, trivial, hdata, by rw [harg]; rfl⟩
    | @bytes hm b rest hr hlen =>
      rw [hm, hr] at hdata
      refine ⟨.bytes a b, hlen.trans harg, ?_, rfl⟩
      rw [hdata, code, List.append_assoc]
    | @text hm b rest s hr hlen hs =>
      rw [hm, hr] at hdata
      refine ⟨.text a b, hlen.trans harg, ?_, Option.map_eq_some_iff.mpr ⟨s, hs, rfl⟩⟩
      rw [hdata, code, List.append_assoc]
    | @arr hm vs rest hl =>
      obtain ⟨l, hlen, hwritten, hcodes, hvals⟩ := exists_codes hitem hl
      rw [hm, hcodes] at hdata
      refine ⟨.arr a l, ⟨hlen.trans harg, writtenList_iff.mpr hwritten⟩, ?_,
        Option.map_eq_some_iff.mpr ⟨vs, hvals, rfl⟩⟩
      rw [hdata, code, List.append_assoc]
    | @map hm es rest he =>
      have hnil : (([] : List (CborKey × Cbor)).map Prod.fst).Nodup := List.nodup_nil
      obtain ⟨m, t, hlen, hwritten, hcodes, ht, hes, hnodup⟩ := exists_entryCodes hitem hnil he
      rw [List.nil_append] at hes
      rw [hm, hcodes] at hdata
      refine ⟨.map a m, ⟨hlen.trans harg, writtenEntries_iff.mpr hwritten⟩, ?_,
        Option.bind_eq_some_iff.mpr ⟨t, ht, mapOf_eq_some.mpr ⟨hes ▸ hnodup, by rw [hes]⟩⟩⟩
      rw [hdata, code, List.append_assoc]
    | @tag hm x rest hv =>
      obtain ⟨c, hc, hcode, hval⟩ := hitem _ _ _ hv
      rw [hm, hcode] at hdata
      refine ⟨.tag a c, hc, by rw [hdata, code, List.append_assoc],
        Option.map_eq_some_iff.mpr ⟨x, hval, ?_⟩⟩
      rw [hdata, ← List.append_assoc, take_sub_length, harg]
    | simple hm hv =>
      have h7 : hd.major = 7 := by omega
      rw [h7] at hdata
      refine ⟨.special a, trivial, hdata, ?_⟩
      rw [value, ← hinfo, hv]
      rfl

/-! ## The places of the parts -/

theorem key?_eq_some {v : Cbor} {key : CborKey} : v.key? = some key ↔ v = key.item := by
  constructor
  · intro h
    cases v <;> cases h <;> rfl
  · rintro rfl
    cases key <;> rfl

theorem forall₂_values {l : List Wire} {vs : List Cbor} (h : values l = some vs) :
    List.Forall₂ (fun w v => value w = some v) l vs := by
  induction l generalizing vs with
  | nil =>
    cases h
    exact .nil
  | cons w l ih =>
    obtain ⟨v, t, hv, ht, rfl⟩ := values_cons.mp h
    exact .cons hv (ih ht)

theorem forall₂_entryValues {m : List (Wire × Wire)} {es : List (CborKey × Cbor)}
    (h : entryValues m = some es) :
    List.Forall₂ (fun w v => value w = some v) (m.flatMap fun e => [e.1, e.2])
      (es.flatMap fun e => [CborKey.item e.1, e.2]) := by
  induction m generalizing es with
  | nil =>
    cases h
    exact .nil
  | cons e m ih =>
    obtain ⟨k, w⟩ := e
    obtain ⟨kv, key, v, t, hk, hkey, hv, ht, rfl⟩ := entryValues_cons.mp h
    rw [key?_eq_some.mp hkey] at hk
    exact .cons hk (.cons hv (ih ht))

theorem forall₂_placed {l : List Wire} {vs : List Cbor}
    (h : List.Forall₂ (fun w v => value w = some v) l vs) (i : Nat) :
    List.Forall₂ (fun p v => value p.2 = some v) (placed i l) vs := by
  induction h generalizing i with
  | nil => exact .nil
  | cons hv _ ih => exact .cons hv (ih _)

theorem forall₂_parts {w : Wire} {v : Cbor} (h : value w = some v) :
    List.Forall₂ (fun p x => value p.2 = some x) (parts w) (Cbor.parts v) := by
  cases w with
  | uint a | nint a | bytes a b =>
    cases h
    exact .nil
  | text a b =>
    obtain ⟨s, -, rfl⟩ := Option.map_eq_some_iff.mp h
    exact .nil
  | arr a l =>
    obtain ⟨vs, hvs, rfl⟩ := Option.map_eq_some_iff.mp h
    exact forall₂_placed (forall₂_values hvs) _
  | map a m =>
    obtain ⟨es, hes, hmap⟩ := Option.bind_eq_some_iff.mp h
    obtain ⟨-, rfl⟩ := mapOf_eq_some.mp hmap
    exact forall₂_placed (forall₂_entryValues hes) _
  | tag a c =>
    obtain ⟨x, hx, rfl⟩ := Option.map_eq_some_iff.mp h
    exact .cons hx .nil
  | special a =>
    rw [value] at h
    unfold simple at h
    split_ifs at h
    all_goals cases h
    all_goals exact .nil
  | indefinite major l => cases h

theorem forall₂_getElem? {α β : Type} {R : α → β → Prop} {l : List α} {l' : List β}
    (h : List.Forall₂ R l l') {k : Nat} {y : β} (hy : l'[k]? = some y) :
    ∃ x, l[k]? = some x ∧ R x y := by
  obtain ⟨hk, rfl⟩ := List.getElem?_eq_some_iff.mp hy
  have hk' : k < l.length := h.length_eq ▸ hk
  exact ⟨l[k], List.getElem?_eq_getElem hk', h.get hk' hk⟩

theorem at?_value {path : List Nat} {w : Wire} {v x : Cbor} (hw : value w = some v)
    (hx : Cbor.at? path v = some x) : ∃ i u, at? path w = some (i, u) ∧ value u = some x := by
  induction path generalizing w v with
  | nil =>
    cases hx
    exact ⟨0, w, rfl, hw⟩
  | cons k path ih =>
    rw [Cbor.at?] at hx
    obtain ⟨y, hy, hx⟩ := Option.bind_eq_some_iff.mp hx
    obtain ⟨⟨i, u⟩, hiu, hu⟩ := forall₂_getElem? (forall₂_parts hw) hy
    obtain ⟨j, z, hz, hzx⟩ := ih hu hx
    refine ⟨i + j, z, ?_, hzx⟩
    rw [at?, hiu]
    exact Option.map_eq_some_iff.mpr ⟨(j, z), hz, rfl⟩

theorem codes_append (l l' : List Wire) : codes (l ++ l') = codes l ++ codes l' := by
  induction l with
  | nil => rfl
  | cons w l ih => rw [List.cons_append, codes, codes, ih, List.append_assoc]

theorem codes_entries (m : List (Wire × Wire)) :
    codes (m.flatMap fun e => [e.1, e.2]) = entryCodes m := by
  induction m with
  | nil => rfl
  | cons e m ih =>
    rw [List.flatMap_cons, codes_append, ih]
    simp [codes, entryCodes]

theorem code_of_mem_placed {l : List Wire} {i j : Nat} {u : Wire} (h : (i, u) ∈ placed j l) :
    ∃ before after, codes l = before ++ (code u ++ after) ∧ j + before.length = i := by
  induction l generalizing j with
  | nil => cases h
  | cons w l ih =>
    rcases List.mem_cons.mp h with heq | h
    · cases heq
      exact ⟨[], codes l, rfl, rfl⟩
    · obtain ⟨before, after, hcodes, hlen⟩ := ih h
      refine ⟨code w ++ before, after, ?_, ?_⟩
      · rw [codes, hcodes, List.append_assoc]
      · rw [List.length_append]
        omega

theorem code_of_mem_parts {w u : Wire} {i : Nat} (h : (i, u) ∈ parts w) :
    ∃ before after, code w = before ++ (code u ++ after) ∧ before.length = i := by
  cases w with
  | arr a l =>
    obtain ⟨before, after, hcodes, hlen⟩ := code_of_mem_placed h
    exact ⟨a.head 4 ++ before, after, by rw [code, hcodes, List.append_assoc],
      by rw [List.length_append, hlen]⟩
  | map a m =>
    obtain ⟨before, after, hcodes, hlen⟩ := code_of_mem_placed h
    rw [codes_entries] at hcodes
    exact ⟨a.head 5 ++ before, after, by rw [code, hcodes, List.append_assoc],
      by rw [List.length_append, hlen]⟩
  | tag a c =>
    cases List.mem_singleton.mp h
    exact ⟨a.head 6, [], by rw [code, List.append_nil], rfl⟩
  | indefinite major l =>
    obtain ⟨before, after, hcodes, hlen⟩ := code_of_mem_placed h
    refine ⟨byte (32 * major + 31) :: before, after ++ [0xFF], ?_, ?_⟩
    · rw [code, hcodes, List.cons_append, List.append_assoc, List.append_assoc]
    · rw [List.length_cons]
      omega
  | _ => cases h

theorem code_at {path : List Nat} {w u : Wire} {i : Nat} (h : at? path w = some (i, u)) :
    ∃ before after, code w = before ++ (code u ++ after) ∧ before.length = i := by
  induction path generalizing w i with
  | nil =>
    cases h
    exact ⟨[], [], (List.append_nil _).symm, rfl⟩
  | cons k path ih =>
    rw [at?] at h
    obtain ⟨⟨j, x⟩, hx, h⟩ := Option.bind_eq_some_iff.mp h
    obtain ⟨⟨n, y⟩, hy, heq⟩ := Option.map_eq_some_iff.mp h
    cases heq
    obtain ⟨before, after, hw, hlen⟩ := code_of_mem_parts (List.mem_of_getElem? hx)
    obtain ⟨before', after', hx', hlen'⟩ := ih hy
    refine ⟨before ++ before', after' ++ after, ?_, by rw [List.length_append, hlen, hlen']⟩
    rw [hw, hx']
    simp only [List.append_assoc]

theorem written_of_mem_placed {l : List Wire} {i j : Nat} {u : Wire} (h : (i, u) ∈ placed j l) :
    u ∈ l := by
  induction l generalizing j with
  | nil => cases h
  | cons w l ih =>
    rcases List.mem_cons.mp h with heq | h
    · cases heq
      exact List.mem_cons_self
    · exact List.mem_cons_of_mem _ (ih h)

theorem written_of_mem_parts {w u : Wire} {i : Nat} (hw : Written w) (h : (i, u) ∈ parts w) :
    Written u := by
  cases w with
  | arr a l => exact writtenList_iff.mp hw.2 u (written_of_mem_placed h)
  | map a m =>
    obtain ⟨e, he, hu⟩ := List.mem_flatMap.mp (written_of_mem_placed h)
    have hwritten := writtenEntries_iff.mp hw.2 e he
    rcases List.mem_pair.mp hu with rfl | rfl
    · exact hwritten.1
    · exact hwritten.2
  | tag a c =>
    cases List.mem_singleton.mp h
    exact hw
  | indefinite major l => exact writtenList_iff.mp hw.2.2 u (written_of_mem_placed h)
  | _ => cases h

theorem written_at {path : List Nat} {w u : Wire} {i : Nat} (hw : Written w)
    (h : at? path w = some (i, u)) : Written u := by
  induction path generalizing w i with
  | nil =>
    cases h
    exact hw
  | cons k path ih =>
    rw [at?] at h
    obtain ⟨⟨j, x⟩, hx, h⟩ := Option.bind_eq_some_iff.mp h
    obtain ⟨⟨n, y⟩, hy, heq⟩ := Option.map_eq_some_iff.mp h
    cases heq
    exact ih (written_of_mem_parts hw (List.mem_of_getElem? hx)) hy

/-! ## What is refused -/

theorem entryValues_append {m m' : List (Wire × Wire)} {es : List (CborKey × Cbor)}
    (h : entryValues (m ++ m') = some es) : ∃ t t', entryValues m = some t ∧
      entryValues m' = some t' ∧ es = t ++ t' := by
  induction m generalizing es with
  | nil => exact ⟨[], es, rfl, h, rfl⟩
  | cons e m ih =>
    obtain ⟨k, w⟩ := e
    obtain ⟨kv, key, v, t, hk, hkey, hv, ht, rfl⟩ := entryValues_cons.mp h
    obtain ⟨s, s', hs, hs', rfl⟩ := ih ht
    exact ⟨(key, v) :: s, s', entryValues_cons.mpr ⟨kv, key, v, s, hk, hkey, hv, hs, rfl⟩, hs', rfl⟩

theorem Refused.value_eq_none {w : Wire} (h : Refused w) : value w = none := by
  cases h with
  | indefinite major l => rfl
  | float a hinfo =>
    rw [value, simple, if_neg (by omega), if_neg (by omega), if_neg (by omega)]
    rfl
  | duplicate a m₁ m₂ m₃ k k' v v' key hk hk' =>
    rw [Option.eq_none_iff_forall_ne_some]
    intro x hx
    obtain ⟨es, hes, hmap⟩ := Option.bind_eq_some_iff.mp hx
    obtain ⟨hnodup, -⟩ := mapOf_eq_some.mp hmap
    obtain ⟨t₁, t, -, ht, rfl⟩ := entryValues_append hes
    obtain ⟨_, key₁, _, s, hk₁, hkey₁, -, hs, rfl⟩ := entryValues_cons.mp ht
    obtain ⟨t₂, t', -, ht', rfl⟩ := entryValues_append hs
    obtain ⟨_, key₂, _, _, hk₂, hkey₂, -, -, rfl⟩ := entryValues_cons.mp ht'
    rw [hk₁, Option.bind_some, hkey₁] at hk
    rw [hk₂, Option.bind_some, hkey₂] at hk'
    cases hk
    cases hk'
    simp [List.nodup_append] at hnodup

theorem value_at {path : List Nat} {w u : Wire} {v : Cbor} {i : Nat} (hw : value w = some v)
    (h : at? path w = some (i, u)) : ∃ x, value u = some x := by
  induction path generalizing w v i with
  | nil =>
    cases h
    exact ⟨v, hw⟩
  | cons k path ih =>
    rw [at?] at h
    obtain ⟨⟨j, x⟩, hx, h⟩ := Option.bind_eq_some_iff.mp h
    obtain ⟨⟨n, y⟩, hy, heq⟩ := Option.map_eq_some_iff.mp h
    cases heq
    obtain ⟨hk, hxk⟩ := List.getElem?_eq_some_iff.mp hx
    have hparts := forall₂_parts hw
    have hval := hparts.get hk (hparts.length_eq ▸ hk)
    simp only [List.get_eq_getElem, hxk] at hval
    exact ih hval hy

end Wire

theorem depth_at {path : List Nat} {v x : Cbor} (h : at? path v = some x) : depth x ≤ depth v := by
  induction path generalizing v with
  | nil =>
    cases h
    exact Nat.le_refl _
  | cons k path ih =>
    rw [at?] at h
    obtain ⟨y, hy, h⟩ := Option.bind_eq_some_iff.mp h
    refine (ih h).trans ?_
    have hmem := List.mem_of_getElem? hy
    cases v with
    | arr l =>
      have hlt := (depthList_lt_iff (Nat.succ_pos (depth (.arr l)))).mp (Nat.lt_succ_self _) y hmem
      omega
    | map m =>
      obtain ⟨e, he, hye⟩ := List.mem_flatMap.mp hmem
      rcases List.mem_pair.mp hye with rfl | rfl
      · cases e.1 <;> exact Nat.zero_le _
      · have hlt := (depthEntries_lt_iff (Nat.succ_pos (depth (.map m)))).mp (Nat.lt_succ_self _) e he
        omega
    | tag n c r =>
      cases List.mem_singleton.mp hmem
      exact Nat.le_succ _
    | _ => cases hmem

end OpenVC.Cbor
