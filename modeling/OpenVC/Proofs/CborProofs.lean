import OpenVC.Cbor
import OpenVC.Logic.PrefixReader
import OpenVC.Python.Proofs.CodecProofs

/-!
# The CBOR codec

Each reader of the decoder has two lemmas: what it accepts (`…_eq_ok`), and that it reads what the
encoder wrote (`reads_…`). The decoder inverts the encoder up to the order of map entries, the
encodings are prefix-free, and what the decoder accepts has one canonical encoding.
-/

namespace OpenVC.Cbor

open Python PrefixReader

/-! ## Heads -/

theorem exists_head (major : Nat) {n : Nat} (h : n < 2 ^ 64) : ∃ b, head major n = .ok b := by
  unfold head
  split_ifs
  all_goals exact ⟨_, rfl⟩

theorem readHead_long {major info n nbytes : Nat} {r : Bytes} (hm : major < 8)
    (hi : 24 ≤ info ∧ info < 28) (hb : argumentBytes info = some nbytes) (hn : n < 256 ^ nbytes) :
    readHead (byte (32 * major + info) :: Codec.intToFixed n nbytes ++ r) =
      .ok ⟨32 * major + info, n, r⟩ := by
  have hib : (byte (32 * major + info)).toNat = 32 * major + info := Codec.toNat_byte (by omega)
  have hmod : (32 * major + info) % 32 = info := by omega
  have hlen := Codec.length_intToFixed hn
  rw [List.cons_append, readHead, hib, hmod, if_neg (by omega), readArgument, hmod, hb]
  have h31 : (info == 31) = false := by simpa using (by omega : info ≠ 31)
  have hlong : decide ((Codec.intToFixed n nbytes ++ r).length < nbytes) = false := by
    rw [decide_eq_false_iff_not, List.length_append, hlen]
    omega
  refine bind_eq_ok.mpr ⟨(), raiseIf_eq_ok.mpr h31, bind_eq_ok.mpr ⟨nbytes, rfl,
    bind_eq_ok.mpr ⟨(), raiseIf_eq_ok.mpr hlong, ?_⟩⟩⟩
  rw [List.take_left' hlen, List.drop_left' hlen, Codec.intFromBytes_intToFixed]
  rfl

/-- A head is read back: its major type, its argument and what follows. -/
theorem readHead_head {major n : Nat} {h : Bytes} (hm : major < 8) (hh : head major n = .ok h) :
    ∃ info < 32, (24 ≤ info ∨ info = n) ∧
      ∀ r, readHead (h ++ r) = .ok ⟨32 * major + info, n, r⟩ := by
  unfold head at hh
  split_ifs at hh with h1 h2 h3 h4 h5
  · cases hh
    refine ⟨n, by omega, .inr rfl, fun r => ?_⟩
    have hib : (byte (32 * major + n)).toNat = 32 * major + n := Codec.toNat_byte (by omega)
    have hmod : (32 * major + n) % 32 = n := by omega
    rw [List.singleton_append, readHead, hib, hmod, if_pos h1]
  · cases hh
    exact ⟨24, by omega, .inl (by omega), fun r => readHead_long hm (by omega) rfl (by omega)⟩
  · cases hh
    exact ⟨25, by omega, .inl (by omega), fun r => readHead_long hm (by omega) rfl (by omega)⟩
  · cases hh
    exact ⟨26, by omega, .inl (by omega), fun r => readHead_long hm (by omega) rfl (by omega)⟩
  · cases hh
    exact ⟨27, by omega, .inl (by omega), fun r => readHead_long hm (by omega) rfl (by omega)⟩
  · cases hh

/-- What a head that was read is: a part of the input with an argument of 64 bits. -/
theorem readHead_eq_ok {data : Bytes} {h : Head} (hh : readHead data = .ok h) :
    h.argument < 2 ^ 64 ∧ ∃ c, data = c ++ h.rest ∧
      ∀ more, readHead (c ++ more) = .ok { h with rest := more } := by
  cases data with
  | nil => cases hh
  | cons ib data =>
    rw [readHead] at hh
    split at hh
    · rename_i hshort
      cases hh
      refine ⟨by dsimp only; omega, [ib], rfl, fun more => ?_⟩
      rw [List.singleton_append, readHead, if_pos hshort]
    · rename_i hlong
      simp only [readArgument, bind_eq_ok, raiseIf_eq_ok, orRaise_eq_ok, pure_eq_ok] at hh
      obtain ⟨⟨⟩, h31, nbytes, hb, ⟨⟩, hlen, rfl⟩ := hh
      rw [decide_eq_false_iff_not, not_lt] at hlen
      have hn8 : nbytes ≤ 8 := by
        unfold argumentBytes at hb
        split_ifs at hb <;> cases hb <;> omega
      have hval := Codec.intFromBytes_lt (data.take nbytes)
      rw [List.length_take_of_le hlen] at hval
      have hpow : 256 ^ nbytes ≤ 256 ^ 8 := Nat.pow_le_pow_right (by omega) hn8
      have htake := List.length_take_of_le hlen
      refine ⟨by dsimp only; omega, ib :: data.take nbytes, ?_, fun more => ?_⟩
      · rw [List.cons_append, List.take_append_drop]
      · rw [List.cons_append, readHead, if_neg hlong, readArgument]
        have hlen' : decide ((data.take nbytes ++ more).length < nbytes) = false := by
          rw [decide_eq_false_iff_not, List.length_append, htake]
          omega
        refine bind_eq_ok.mpr ⟨(), raiseIf_eq_ok.mpr h31, bind_eq_ok.mpr ⟨nbytes, ?_,
          bind_eq_ok.mpr ⟨(), raiseIf_eq_ok.mpr hlen', ?_⟩⟩⟩
        · rw [hb]
          rfl
        · rw [List.take_left' htake, List.drop_left' htake]
          rfl

/-! ## Readers -/

theorem readBytes_eq_ok {n : Nat} {data b rest : Bytes} {what : String} :
    readBytes n data what = .ok (b, rest) ↔ data = b ++ rest ∧ b.length = n := by
  simp only [readBytes, bind_eq_ok, raiseIf_eq_ok, pure_eq_ok, decide_eq_false_iff_not, not_lt,
    Prod.mk.injEq]
  constructor
  · rintro ⟨⟨⟩, hlen, rfl, rfl⟩
    exact ⟨(List.take_append_drop n data).symm, List.length_take_of_le hlen⟩
  · rintro ⟨rfl, rfl⟩
    exact ⟨(), by simp, List.take_left, List.drop_left⟩

theorem readText_eq_ok {n : Nat} {data rest : Bytes} {v : Cbor} :
    readText n data = .ok (v, rest) ↔ ∃ b s, data = b ++ rest ∧ b.length = n ∧
      Codec.decodeUtf8 false b = some s ∧ v = .text s := by
  simp only [readText, bind_eq_ok, orRaise_eq_ok, pure_eq_ok, Prod.mk.injEq, Prod.exists,
    readBytes_eq_ok]
  constructor
  · rintro ⟨b, rest', ⟨hdata, hlen⟩, s, hs, rfl, rfl⟩
    exact ⟨b, s, hdata, hlen, hs, rfl⟩
  · rintro ⟨b, s, hdata, hlen, hs, rfl⟩
    exact ⟨b, rest, ⟨hdata, hlen⟩, s, hs, rfl, rfl⟩

section Loops

variable {item : Bytes → Result (Cbor × Bytes)} {n : Nat}

theorem readItems_succ {l : List Cbor} {data rest : Bytes} :
    readItems item (n + 1) data = .ok (l, rest) ↔ ∃ v vs data₁, item data = .ok (v, data₁) ∧
      readItems item n data₁ = .ok (vs, rest) ∧ l = v :: vs := by
  simp only [readItems, bind_eq_ok, pure_eq_ok, Prod.exists, Prod.mk.injEq]
  constructor
  · rintro ⟨v, data₁, hv, vs, rest', hvs, rfl, rfl⟩
    exact ⟨v, vs, data₁, hv, hvs, rfl⟩
  · rintro ⟨v, vs, data₁, hv, hvs, rfl⟩
    exact ⟨v, data₁, hv, vs, rest, hvs, rfl, rfl⟩

theorem delimits_readItems (hitem : Delimits item) : Delimits (readItems item n) := by
  induction n with
  | zero =>
    intro data l rest h
    cases h
    exact ⟨[], rfl, fun r => rfl⟩
  | succ n ih =>
    intro data l rest h
    obtain ⟨v, vs, data₁, hv, hvs, rfl⟩ := readItems_succ.mp h
    obtain ⟨c₁, rfl, hc₁⟩ := hitem _ _ _ hv
    obtain ⟨c₂, rfl, hc₂⟩ := ih _ _ _ hvs
    refine ⟨c₁ ++ c₂, (List.append_assoc _ _ _).symm, fun r => ?_⟩
    rw [List.append_assoc]
    exact readItems_succ.mpr ⟨v, vs, _, hc₁ _, hc₂ r, rfl⟩

/-- One entry more was read. -/
theorem readEntries_succ {entries m : List (CborKey × Cbor)} {data rest : Bytes} :
    readEntries item (n + 1) entries data = .ok (m, rest) ↔ ∃ k key v data₁ data₂,
      item data = .ok (k, data₁) ∧ item data₁ = .ok (v, data₂) ∧ k.key? = some key ∧
      key ∉ entries.map Prod.fst ∧ readEntries item n (entries ++ [(key, v)]) data₂ = .ok (m, rest) := by
  simp only [readEntries, bind_eq_ok, orRaise_eq_ok, raiseIf_eq_ok, Prod.exists]
  constructor
  · rintro ⟨k, data₁, hk, v, data₂, hv, key, hkey, ⟨⟩, hnew, hrest⟩
    refine ⟨k, key, v, data₁, data₂, hk, hv, hkey, ?_, hrest⟩
    rw [Option.isSome_eq_false_iff, Option.isNone_iff_eq_none, List.lookup_eq_none_iff] at hnew
    intro hmem
    obtain ⟨p, hp, rfl⟩ := List.mem_map.mp hmem
    simpa using hnew p hp
  · rintro ⟨k, key, v, data₁, data₂, hk, hv, hkey, hnew, hrest⟩
    refine ⟨k, data₁, hk, v, data₂, hv, key, hkey, (), ?_, hrest⟩
    rw [Option.isSome_eq_false_iff, Option.isNone_iff_eq_none, List.lookup_eq_none_iff]
    intro p hp
    have hne : key ≠ p.1 := fun e => hnew (e ▸ List.mem_map_of_mem hp)
    simpa using hne

theorem delimits_readEntries (hitem : Delimits item) :
    ∀ entries, Delimits (readEntries item n entries) := by
  induction n with
  | zero =>
    intro entries data l rest h
    cases h
    exact ⟨[], rfl, fun r => rfl⟩
  | succ n ih =>
    intro entries data l rest h
    obtain ⟨k, key, v, data₁, data₂, hk, hv, hkey, hnew, hrest⟩ := readEntries_succ.mp h
    obtain ⟨c₁, rfl, hc₁⟩ := hitem _ _ _ hk
    obtain ⟨c₂, rfl, hc₂⟩ := hitem _ _ _ hv
    obtain ⟨c₃, rfl, hc₃⟩ := ih _ _ _ _ hrest
    refine ⟨c₁ ++ (c₂ ++ c₃), by simp, fun r => ?_⟩
    rw [List.append_assoc, List.append_assoc]
    exact readEntries_succ.mpr ⟨k, key, v, _, _, hc₁ _, hc₂ _, hkey, hnew, hc₃ r⟩

end Loops

/-! ## Items -/

theorem take_sub_length {c rest : Bytes} :
    (c ++ rest).take ((c ++ rest).length - rest.length) = c := by
  rw [List.length_append, Nat.add_sub_cancel, List.take_left]

theorem decodeAt_succ {left : Nat} {data rest : Bytes} {v : Cbor} :
    decodeAt (left + 1) data = .ok (v, rest) ↔ ∃ h, readHead data = .ok h ∧
      decodeBody (decodeAt left) data h = .ok (v, rest) := by
  rw [decodeAt, bind_eq_ok]

/-- The body of an item, by the major type of its head. -/
inductive Body (item : Bytes → Result (Cbor × Bytes)) (start : Bytes) (h : Head) :
    Cbor → Bytes → Prop
  | uint (hm : h.major = 0) : Body item start h (.int h.argument) h.rest
  | nint (hm : h.major = 1) : Body item start h (.int (-1 - h.argument)) h.rest
  | bytes (hm : h.major = 2) {b rest : Bytes} (hr : h.rest = b ++ rest)
      (hlen : b.length = h.argument) : Body item start h (.bytes b) rest
  | text (hm : h.major = 3) {b rest : Bytes} {s : Str} (hr : h.rest = b ++ rest)
      (hlen : b.length = h.argument) (hs : Codec.decodeUtf8 false b = some s) :
      Body item start h (.text s) rest
  | arr (hm : h.major = 4) {l : List Cbor} {rest : Bytes}
      (hl : readItems item h.argument h.rest = .ok (l, rest)) : Body item start h (.arr l) rest
  | map (hm : h.major = 5) {m : List (CborKey × Cbor)} {rest : Bytes}
      (he : readEntries item h.argument [] h.rest = .ok (m, rest)) : Body item start h (.map m) rest
  | tag (hm : h.major = 6) {v : Cbor} {rest : Bytes} (hv : item h.rest = .ok (v, rest)) :
      Body item start h (.tag h.argument v (some (start.take (start.length - rest.length)))) rest
  | simple (hm : 7 ≤ h.major) {v : Cbor} (hv : simple h.info = .ok v) : Body item start h v h.rest

theorem decodeBody_eq_ok {item : Bytes → Result (Cbor × Bytes)} {start rest : Bytes} {h : Head}
    {v : Cbor} : decodeBody item start h = .ok (v, rest) ↔ Body item start h v rest := by
  constructor
  · intro hb
    unfold decodeBody at hb
    split at hb
    · rename_i hm
      cases hb
      exact .uint hm
    · rename_i hm
      cases hb
      exact .nint hm
    · rename_i hm
      simp only [bind_eq_ok, pure_eq_ok, Prod.exists, Prod.mk.injEq, readBytes_eq_ok] at hb
      obtain ⟨b, r, ⟨hr, hlen⟩, rfl, rfl⟩ := hb
      exact .bytes hm hr hlen
    · rename_i hm
      obtain ⟨b, s, hr, hlen, hs, rfl⟩ := readText_eq_ok.mp hb
      exact .text hm hr hlen hs
    · rename_i hm
      simp only [bind_eq_ok, pure_eq_ok, Prod.exists, Prod.mk.injEq] at hb
      obtain ⟨l, r, hl, rfl, rfl⟩ := hb
      exact .arr hm hl
    · rename_i hm
      simp only [bind_eq_ok, pure_eq_ok, Prod.exists, Prod.mk.injEq] at hb
      obtain ⟨m, r, he, rfl, rfl⟩ := hb
      exact .map hm he
    · rename_i hm
      simp only [bind_eq_ok, pure_eq_ok, Prod.exists, Prod.mk.injEq] at hb
      obtain ⟨w, r, hw, rfl, rfl⟩ := hb
      exact .tag hm hw
    · rename_i h0 h1 h2 h3 h4 h5 h6
      simp only [bind_eq_ok, pure_eq_ok, Prod.mk.injEq] at hb
      obtain ⟨w, hw, rfl, rfl⟩ := hb
      refine .simple ?_ hw
      by_contra hlt
      obtain ⟨k, hk⟩ : ∃ k, h.major = k := ⟨_, rfl⟩
      have hk7 : k < 7 := by omega
      interval_cases k
      · exact h0 hk
      · exact h1 hk
      · exact h2 hk
      · exact h3 hk
      · exact h4 hk
      · exact h5 hk
      · exact h6 hk
  · intro hb
    cases hb with
    | uint hm =>
      rw [decodeBody, hm]
      rfl
    | nint hm =>
      rw [decodeBody, hm]
      rfl
    | bytes hm hr hlen =>
      rw [decodeBody, hm]
      exact bind_eq_ok.mpr ⟨_, readBytes_eq_ok.mpr ⟨hr, hlen⟩, rfl⟩
    | text hm hr hlen hs =>
      rw [decodeBody, hm]
      exact readText_eq_ok.mpr ⟨_, _, hr, hlen, hs, rfl⟩
    | arr hm hl =>
      rw [decodeBody, hm]
      exact bind_eq_ok.mpr ⟨_, hl, rfl⟩
    | map hm he =>
      rw [decodeBody, hm]
      exact bind_eq_ok.mpr ⟨_, he, rfl⟩
    | tag hm hv =>
      rw [decodeBody, hm]
      exact bind_eq_ok.mpr ⟨_, hv, rfl⟩
    | simple hm hv =>
      unfold decodeBody
      split
      all_goals first
        | (rename_i h0; omega)
        | exact bind_eq_ok.mpr ⟨_, hv, rfl⟩

/-- The body of an item is a code of what follows the head; a tag records the bytes of the whole. -/
theorem exists_body {left : Nat} {start rest : Bytes} {h : Head} {v : Cbor}
    (hitem : Delimits (decodeAt left)) (hb : Body (decodeAt left) start h v rest) {c : Bytes}
    (hstart : start = c ++ h.rest) : ∃ c', h.rest = c' ++ rest ∧
      ∀ more, Body (decodeAt left) (c ++ (c' ++ more)) { h with rest := c' ++ more } v more := by
  cases hb with
  | uint hm => exact ⟨[], rfl, fun more => Body.uint (h := { h with rest := more }) hm⟩
  | nint hm => exact ⟨[], rfl, fun more => Body.nint (h := { h with rest := more }) hm⟩
  | bytes hm hr hlen => exact ⟨_, hr, fun more => Body.bytes (h := ⟨_, _, _ ++ more⟩) hm rfl hlen⟩
  | text hm hr hlen hs => exact ⟨_, hr, fun more => Body.text (h := ⟨_, _, _ ++ more⟩) hm rfl hlen hs⟩
  | arr hm hl =>
    obtain ⟨c', hc', hreads⟩ := delimits_readItems hitem _ _ _ hl
    exact ⟨c', hc', fun more => Body.arr (h := ⟨_, _, c' ++ more⟩) hm (hreads more)⟩
  | map hm he =>
    obtain ⟨c', hc', hreads⟩ := delimits_readEntries hitem [] _ _ _ he
    exact ⟨c', hc', fun more => Body.map (h := ⟨_, _, c' ++ more⟩) hm (hreads more)⟩
  | tag hm hv =>
    obtain ⟨c', hc', hreads⟩ := hitem _ _ _ hv
    refine ⟨c', hc', fun more => ?_⟩
    have htake : ∀ more : Bytes, (c ++ (c' ++ more)).take
        ((c ++ (c' ++ more)).length - more.length) = c ++ c' := by
      intro more
      rw [← List.append_assoc, take_sub_length]
    rw [hstart, hc', htake rest, ← htake more]
    exact Body.tag (h := ⟨_, _, c' ++ more⟩) hm (hreads more)
  | simple hm hv => exact ⟨[], rfl, fun more => Body.simple (h := { h with rest := more }) hm hv⟩

theorem delimits_decodeAt (left : Nat) : Delimits (decodeAt left) := by
  induction left with
  | zero =>
    intro data v rest h
    cases h
  | succ left ih =>
    intro data v rest h
    obtain ⟨hd, hhead, hbody⟩ := decodeAt_succ.mp h
    obtain ⟨-, c, hdata, hmore⟩ := readHead_eq_ok hhead
    obtain ⟨c', hc', hbody'⟩ := exists_body ih (decodeBody_eq_ok.mp hbody) hdata
    refine ⟨c ++ c', by rw [hdata, hc', List.append_assoc], fun more => ?_⟩
    rw [List.append_assoc]
    exact decodeAt_succ.mpr ⟨_, hmore _, decodeBody_eq_ok.mpr (hbody' more)⟩

/-! ## Values -/

/-- Induction over items, with the elements of a list and the values of a map at hand. -/
@[elab_as_elim]
theorem items_induction {P : Cbor → Prop} (null : P .null) (bool : ∀ b, P (.bool b))
    (int : ∀ n, P (.int n)) (bytes : ∀ b, P (.bytes b)) (text : ∀ s, P (.text s))
    (arr : ∀ l, (∀ v ∈ l, P v) → P (.arr l)) (map : ∀ m, (∀ p ∈ m, P p.2) → P (.map m))
    (tag : ∀ n v r, P v → P (.tag n v r)) (raw : ∀ b, P (.raw b)) : ∀ v, P v
  | .null => null
  | .bool b => bool b
  | .int n => int n
  | .bytes b => bytes b
  | .text s => text s
  | .arr l => arr l fun v _ => items_induction null bool int bytes text arr map tag raw v
  | .map m => map m fun p _ => items_induction null bool int bytes text arr map tag raw p.2
  | .tag n v r => tag n v r (items_induction null bool int bytes text arr map tag raw v)
  | .raw b => raw b
termination_by v => sizeOf v
decreasing_by
  · rename_i hv
    have := List.sizeOf_lt_of_mem hv
    simp only [Cbor.arr.sizeOf_spec]
    omega
  · rename_i hp
    have := List.sizeOf_lt_of_mem hp
    cases p
    simp only [Cbor.map.sizeOf_spec, Prod.mk.sizeOf_spec] at this ⊢
    omega
  · simp only [Cbor.tag.sizeOf_spec]
    omega

mutual

/-- The value is `CborRaw`-free and its maps have no key twice. -/
def WF : Cbor → Prop
  | .arr l => WFList l
  | .map m => (m.map Prod.fst).Nodup ∧ WFEntries m
  | .tag _ v _ => WF v
  | .raw _ => False
  | _ => True

/-- `WF`, over a list. -/
def WFList : List Cbor → Prop
  | [] => True
  | v :: t => WF v ∧ WFList t

/-- `WF`, over the values of a map. -/
def WFEntries : List (CborKey × Cbor) → Prop
  | [] => True
  | (_, v) :: t => WF v ∧ WFEntries t

end

mutual

/-- The nesting that the decoder counts: how far the deepest item is below the top. -/
def depth : Cbor → Nat
  | .arr l => depthList l
  | .map m => depthEntries m
  | .tag _ v _ => depth v + 1
  | _ => 0

/-- The depth of an array with these elements. -/
def depthList : List Cbor → Nat
  | [] => 0
  | v :: t => max (depth v + 1) (depthList t)

/-- The depth of a map with these entries. -/
def depthEntries : List (CborKey × Cbor) → Nat
  | [] => 0
  | (_, v) :: t => max (depth v + 1) (depthEntries t)

end

mutual

/-- Equality of values, as Python has it: the order of map entries and the recorded bytes of a tag do
not count. -/
def Same : Cbor → Cbor → Prop
  | .arr l, .arr l' => SameList l l'
  | .map m, .map m' => ∃ m'', SameEntries m m'' ∧ m''.Perm m'
  | .tag n v _, .tag n' v' _ => n = n' ∧ Same v v'
  | .null, .null => True
  | .bool b, .bool b' => b = b'
  | .int n, .int n' => n = n'
  | .bytes b, .bytes b' => b = b'
  | .text s, .text s' => s = s'
  | .raw b, .raw b' => b = b'
  | _, _ => False

/-- `Same`, element by element. -/
def SameList : List Cbor → List Cbor → Prop
  | [], [] => True
  | v :: t, v' :: t' => Same v v' ∧ SameList t t'
  | _, _ => False

/-- `Same`, entry by entry. -/
def SameEntries : List (CborKey × Cbor) → List (CborKey × Cbor) → Prop
  | [], [] => True
  | (k, v) :: t, (k', v') :: t' => (k = k' ∧ Same v v') ∧ SameEntries t t'
  | _, _ => False

end

theorem wfList_iff {l : List Cbor} : WFList l ↔ ∀ v ∈ l, WF v := by
  induction l with
  | nil => simp [WFList]
  | cons v l ih => simp [WFList, ih]

theorem wfEntries_iff {m : List (CborKey × Cbor)} : WFEntries m ↔ ∀ p ∈ m, WF p.2 := by
  induction m with
  | nil => simp [WFEntries]
  | cons p m ih => simp [WFEntries, ih]

theorem depthList_lt_iff {l : List Cbor} {k : Nat} (hk : 0 < k) :
    depthList l < k ↔ ∀ v ∈ l, depth v + 1 < k := by
  induction l with
  | nil => simp [depthList, hk]
  | cons v l ih => simp [depthList, ih]

theorem depthEntries_lt_iff {m : List (CborKey × Cbor)} {k : Nat} (hk : 0 < k) :
    depthEntries m < k ↔ ∀ p ∈ m, depth p.2 + 1 < k := by
  induction m with
  | nil => simp [depthEntries, hk]
  | cons p m ih => simp [depthEntries, ih]

theorem sameList_iff {l l' : List Cbor} : SameList l l' ↔ List.Forall₂ Same l l' := by
  induction l generalizing l' with
  | nil => cases l' <;> simp [SameList]
  | cons v l ih => cases l' <;> simp [SameList, ih]

/-- Two entries with one key and values that are the same. -/
def SameEntry (p p' : CborKey × Cbor) : Prop := p.1 = p'.1 ∧ Same p.2 p'.2

theorem sameEntries_iff {m m' : List (CborKey × Cbor)} :
    SameEntries m m' ↔ List.Forall₂ SameEntry m m' := by
  induction m generalizing m' with
  | nil => cases m' <;> simp [SameEntries]
  | cons p m ih => cases m' <;> simp [SameEntries, SameEntry, ih]

theorem forall₂_comp {α β γ : Type} {R : α → β → Prop} {S : β → γ → Prop} {T : α → γ → Prop}
    {l : List α} {l' : List β} {l'' : List γ} (h : List.Forall₂ R l l') (h' : List.Forall₂ S l' l'')
    (hT : ∀ a ∈ l, ∀ b c, R a b → S b c → T a c) : List.Forall₂ T l l'' := by
  induction h generalizing l'' with
  | nil =>
    cases h'
    exact .nil
  | cons hab _ ih =>
    cases h' with
    | cons hbc hrest =>
      exact .cons (hT _ List.mem_cons_self _ _ hab hbc)
        (ih hrest fun a ha => hT a (List.mem_cons_of_mem _ ha))

theorem forall₂_flip {α β : Type} {R : α → β → Prop} {S : β → α → Prop} {l : List α} {l' : List β}
    (h : List.Forall₂ R l l') (hS : ∀ a ∈ l, ∀ b, R a b → S b a) : List.Forall₂ S l' l := by
  induction h with
  | nil => exact .nil
  | cons hab _ ih =>
    exact .cons (hS _ List.mem_cons_self _ hab) (ih fun a ha => hS a (List.mem_cons_of_mem _ ha))

theorem exists_forall₂_perm {α : Type} {R : α → α → Prop} {l l' l'' : List α} (hp : l.Perm l')
    (h : List.Forall₂ R l' l'') : ∃ m, List.Forall₂ R l m ∧ m.Perm l'' := by
  have hcomp : Relation.Comp List.Perm (List.Forall₂ R) l l'' := ⟨l', hp, h⟩
  rw [← List.forall₂_comp_perm_eq_perm_comp_forall₂] at hcomp
  exact hcomp

theorem Same.refl (v : Cbor) : Same v v := by
  induction v using items_induction with
  | arr l ih => exact sameList_iff.mpr (List.forall₂_same.mpr ih)
  | map m ih =>
    exact ⟨m, sameEntries_iff.mpr (List.forall₂_same.mpr fun p hp => ⟨rfl, ih p hp⟩), .refl m⟩
  | tag n v r ih => exact ⟨rfl, ih⟩
  | null => trivial
  | bool b | int b | bytes b | text b | raw b => rfl

theorem Same.symm {v w : Cbor} (h : Same v w) : Same w v := by
  induction v using items_induction generalizing w with
  | arr l ih =>
    cases w with
    | arr l' => exact sameList_iff.mpr (forall₂_flip (sameList_iff.mp h) fun v hv w hw => ih v hv hw)
    | _ => exact h.elim
  | map m ih =>
    cases w with
    | map m' =>
      obtain ⟨m'', hm, hp⟩ := h
      have hflip : List.Forall₂ SameEntry m'' m := forall₂_flip (sameEntries_iff.mp hm)
        fun p hmem q hq => ⟨hq.1.symm, ih p hmem hq.2⟩
      obtain ⟨n, hn, hperm⟩ := exists_forall₂_perm hp.symm hflip
      exact ⟨n, sameEntries_iff.mpr hn, hperm⟩
    | _ => exact h.elim
  | tag n v r ih =>
    cases w with
    | tag n' v' r' => exact ⟨h.1.symm, ih h.2⟩
    | _ => exact h.elim
  | null => cases w <;> exact h
  | bool b | int b | bytes b | text b | raw b =>
    cases w <;> first | exact Eq.symm h | exact h.elim

theorem Same.trans {v w u : Cbor} (h : Same v w) (h' : Same w u) : Same v u := by
  induction v using items_induction generalizing w u with
  | arr l ih =>
    cases w with
    | arr l' =>
      cases u with
      | arr l'' => exact sameList_iff.mpr (forall₂_comp (sameList_iff.mp h) (sameList_iff.mp h')
          fun v hv w u hw hu => ih v hv hw hu)
      | _ => exact h'.elim
    | _ => exact h.elim
  | map m ih =>
    cases w with
    | map m' =>
      cases u with
      | map m₂ =>
        obtain ⟨a, ha, hpa⟩ := h
        obtain ⟨b, hb, hpb⟩ := h'
        obtain ⟨c, hc, hpc⟩ := exists_forall₂_perm hpa (sameEntries_iff.mp hb)
        refine ⟨c, sameEntries_iff.mpr (forall₂_comp (sameEntries_iff.mp ha) hc ?_), hpc.trans hpb⟩
        exact fun p hmem q r hq hr => ⟨hq.1.trans hr.1, ih p hmem hq.2 hr.2⟩
      | _ => exact h'.elim
    | _ => exact h.elim
  | tag n v r ih =>
    cases w with
    | tag n' v' r' =>
      cases u with
      | tag n'' v'' r'' => exact ⟨h.1.trans h'.1, ih h.2 h'.2⟩
      | _ => exact h'.elim
    | _ => exact h.elim
  | null =>
    cases w with
    | null => exact h'
    | _ => exact h.elim
  | bool b | int b | bytes b | text b | raw b =>
    cases w <;> first | exact h.elim | (cases u <;> first | exact h'.elim | exact Eq.trans h h')

/-! ## Reading what was written -/

/-- An item whose head was written by `head` is read by its body. -/
theorem decodeAt_of_head {n left : Nat} {h r rest : Bytes} {v : Cbor} (major : Nat) (hm : major < 7)
    (hh : head major n = .ok h)
    (hbody : ∀ hd : Head, hd.major = major → hd.argument = n → hd.rest = r →
      Body (decodeAt left) (h ++ r) hd v rest) : decodeAt (left + 1) (h ++ r) = .ok (v, rest) := by
  obtain ⟨info, hinfo, -, hread⟩ := readHead_head (by omega) hh
  refine decodeAt_succ.mpr ⟨_, hread r, decodeBody_eq_ok.mpr (hbody _ ?_ rfl rfl)⟩
  change (32 * major + info) / 32 = major
  omega

theorem reads_int {n : Int} {b : Bytes} (h : encodeInt n = .ok b) (left : Nat) :
    Reads (decodeAt (left + 1)) b (.int n) := by
  intro r
  cases n with
  | ofNat n =>
    refine decodeAt_of_head 0 (by omega) h fun hd hm ha hr => ?_
    have hbody : Body (decodeAt left) (b ++ r) hd _ _ := .uint hm
    rw [ha, hr] at hbody
    exact hbody
  | negSucc n =>
    refine decodeAt_of_head 1 (by omega) h fun hd hm ha hr => ?_
    have hneg : Int.negSucc n = -1 - (n : Int) := by omega
    have hbody : Body (decodeAt left) (b ++ r) hd _ _ := .nint hm
    rw [ha, hr, ← hneg] at hbody
    exact hbody

theorem reads_bytes {b c : Bytes} (h : encodeBytes b = .ok c) (left : Nat) :
    Reads (decodeAt (left + 1)) c (.bytes b) := by
  intro r
  simp only [encodeBytes, bind_eq_ok, pure_eq_ok] at h
  obtain ⟨hd, hhead, rfl⟩ := h
  rw [List.append_assoc]
  exact decodeAt_of_head 2 (by omega) hhead fun hd hm ha hr => .bytes hm hr ha.symm

theorem reads_text {s : Str} {c : Bytes} (h : encodeText s = .ok c) (left : Nat) :
    Reads (decodeAt (left + 1)) c (.text s) := by
  intro r
  simp only [encodeText, bind_eq_ok, orRaise_eq_ok, pure_eq_ok] at h
  obtain ⟨raw, hraw, hd, hhead, rfl⟩ := h
  rw [List.append_assoc]
  exact decodeAt_of_head 3 (by omega) hhead fun hd hm ha hr =>
    .text hm hr ha.symm (Codec.decodeUtf8_encodeUtf8 false hraw)

theorem reads_simple {v : Cbor} (info : Nat) (hi : info < 24) (hv : simple info = .ok v)
    (left : Nat) : Reads (decodeAt (left + 1)) [byte (224 + info)] v := by
  intro r
  have hib : (byte (224 + info)).toNat = 224 + info := Codec.toNat_byte (by omega)
  have hmod : (224 + info) % 32 = info := by omega
  refine decodeAt_succ.mpr ⟨⟨224 + info, info, r⟩, ?_, decodeBody_eq_ok.mpr (.simple ?_ ?_)⟩
  · rw [List.singleton_append, readHead, hib, hmod, if_pos hi]
  · change 7 ≤ (224 + info) / 32
    omega
  · rw [Head.info, hmod]
    exact hv

/-- The item of a key. -/
def keyItem : CborKey → Cbor
  | .int n => .int n
  | .bytes b => .bytes b
  | .text s => .text s

theorem key?_keyItem (k : CborKey) : (keyItem k).key? = some k := by cases k <;> rfl

theorem reads_key {k : CborKey} {c : Bytes} (h : encodeKey k = .ok c) (left : Nat) :
    Reads (decodeAt (left + 1)) c (keyItem k) := by
  cases k with
  | int n => exact reads_int h left
  | bytes b => exact reads_bytes h left
  | text s => exact reads_text h left

theorem encodeKey_inj {k k' : CborKey} {c : Bytes} (h : encodeKey k = .ok c)
    (h' : encodeKey k' = .ok c) : k = k' := by
  have heq : keyItem k = keyItem k' := (reads_key h 0).eq_of_code (reads_key h' 0)
  have := congrArg key? heq
  rw [key?_keyItem, key?_keyItem] at this
  exact Option.some.inj this

/-- The encoding of a key. -/
def keyCode (k : CborKey) : Bytes := (encodeKey k).toOption.getD []

/-- The encoding of a value. -/
def valueCode (v : Cbor) : Bytes := (encode v).toOption.getD []

/-- The encoding of an entry. -/
def entryCode (p : CborKey × Cbor) : Bytes := keyCode p.1 ++ valueCode p.2

theorem keyCode_eq {k : CborKey} {c : Bytes} (h : encodeKey k = .ok c) : keyCode k = c := by
  rw [keyCode, h]
  rfl

theorem valueCode_eq {v : Cbor} {c : Bytes} (h : encode v = .ok c) : valueCode v = c := by
  rw [valueCode, h]
  rfl

/-- The order of the entries of a map in its encoding. -/
def entryLe (p q : CborKey × Cbor) : Prop :=
  (keyCode p.1).map UInt8.toNat ≤ (keyCode q.1).map UInt8.toNat

instance : DecidableRel entryLe := fun p q =>
  inferInstanceAs (Decidable ((keyCode p.1).map UInt8.toNat ≤ (keyCode q.1).map UInt8.toNat))

instance : Std.Total entryLe := ⟨fun _ _ => le_total (α := List Nat) _ _⟩

instance : IsTrans (CborKey × Cbor) entryLe := ⟨fun _ _ _ => le_trans (α := List Nat)⟩

/-- The entries of a map in that order. -/
def ordered (m : List (CborKey × Cbor)) : List (CborKey × Cbor) := m.insertionSort entryLe

theorem ordered_perm (m : List (CborKey × Cbor)) : (ordered m).Perm m :=
  List.perm_insertionSort entryLe m

theorem pairwise_ordered (m : List (CborKey × Cbor)) : (ordered m).Pairwise entryLe :=
  List.pairwise_insertionSort entryLe m

theorem encodeEntries_eq_ok {m : List (CborKey × Cbor)} {entries : List (Bytes × Result Bytes)} :
    encodeEntries m = .ok entries ↔ (∀ p ∈ m, ∃ c, encodeKey p.1 = .ok c) ∧
      entries = m.map fun p => (keyCode p.1, encode p.2) := by
  induction m generalizing entries with
  | nil => simp [encodeEntries, eq_comm]
  | cons p m ih =>
    obtain ⟨k, v⟩ := p
    simp only [encodeEntries, bind_eq_ok, pure_eq_ok, ih, List.forall_mem_cons, List.map_cons]
    constructor
    · rintro ⟨c, hc, rest, ⟨hkeys, rfl⟩, rfl⟩
      exact ⟨⟨⟨c, hc⟩, hkeys⟩, by rw [keyCode_eq hc]⟩
    · rintro ⟨⟨⟨c, hc⟩, hkeys⟩, rfl⟩
      exact ⟨c, hc, _, ⟨hkeys, rfl⟩, by rw [keyCode_eq hc]⟩

theorem joinEntries_eq_ok {m : List (CborKey × Cbor)} {b : Bytes} :
    joinEntries (m.map fun p => (keyCode p.1, encode p.2)) = .ok b ↔
      (∀ p ∈ m, ∃ c, encode p.2 = .ok c) ∧ b = m.flatMap entryCode := by
  induction m generalizing b with
  | nil => simp [joinEntries, eq_comm]
  | cons p m ih =>
    simp only [List.map_cons, joinEntries, bind_eq_ok, pure_eq_ok, ih, List.forall_mem_cons,
      List.flatMap_cons]
    constructor
    · rintro ⟨c, hc, rest, ⟨hvals, rfl⟩, rfl⟩
      exact ⟨⟨⟨c, hc⟩, hvals⟩, by rw [entryCode, valueCode_eq hc, List.append_assoc]⟩
    · rintro ⟨⟨⟨c, hc⟩, hvals⟩, rfl⟩
      exact ⟨c, hc, _, ⟨hvals, rfl⟩, by rw [entryCode, valueCode_eq hc, List.append_assoc]⟩

/-- A map is encoded as its head and the encodings of its entries, in the order of the keys. -/
theorem encode_map_eq_ok {m : List (CborKey × Cbor)} {b : Bytes} :
    encode (.map m) = .ok b ↔ (∀ p ∈ m, ∃ c, encodeKey p.1 = .ok c) ∧
      (∀ p ∈ m, ∃ c, encode p.2 = .ok c) ∧
      ∃ h, head 5 m.length = .ok h ∧ b = h ++ (ordered m).flatMap entryCode := by
  have hsort : (m.map fun p => (keyCode p.1, encode p.2)).insertionSort keyLe =
      (ordered m).map fun p => (keyCode p.1, encode p.2) :=
    (List.map_insertionSort entryLe keyLe _ m fun _ _ _ _ => Iff.rfl).symm
  simp only [encode, bind_eq_ok, pure_eq_ok, encodeEntries_eq_ok]
  constructor
  · rintro ⟨entries, ⟨hkeys, rfl⟩, h, hh, body, hbody, rfl⟩
    rw [hsort, joinEntries_eq_ok] at hbody
    obtain ⟨hvals, rfl⟩ := hbody
    rw [List.length_map] at hh
    exact ⟨hkeys, fun p hp => hvals p ((ordered_perm m).mem_iff.mpr hp), h, hh, rfl⟩
  · rintro ⟨hkeys, hvals, h, hh, rfl⟩
    refine ⟨_, ⟨hkeys, rfl⟩, h, by rw [List.length_map]; exact hh, _, ?_, rfl⟩
    rw [hsort]
    exact joinEntries_eq_ok.mpr ⟨fun p hp => hvals p ((ordered_perm m).mem_iff.mp hp), rfl⟩

theorem encodeItems_eq_ok {l : List Cbor} {b : Bytes} :
    encodeItems l = .ok b ↔ (∀ v ∈ l, ∃ c, encode v = .ok c) ∧ b = l.flatMap valueCode := by
  induction l generalizing b with
  | nil => simp [encodeItems, eq_comm]
  | cons v l ih =>
    simp only [encodeItems, bind_eq_ok, pure_eq_ok, ih, List.forall_mem_cons, List.flatMap_cons]
    constructor
    · rintro ⟨c, hc, rest, ⟨hvals, rfl⟩, rfl⟩
      exact ⟨⟨⟨c, hc⟩, hvals⟩, by rw [valueCode_eq hc]⟩
    · rintro ⟨⟨⟨c, hc⟩, hvals⟩, rfl⟩
      exact ⟨c, hc, _, ⟨hvals, rfl⟩, by rw [valueCode_eq hc]⟩

/-- A list of items is read back if each of its items is. -/
theorem reads_items {item : Bytes → Result (Cbor × Bytes)} {l : List Cbor}
    (h : ∀ v ∈ l, ∃ w, Reads item (valueCode v) w ∧ Same v w) :
    ∃ l', Reads (readItems item l.length) (l.flatMap valueCode) l' ∧ List.Forall₂ Same l l' := by
  induction l with
  | nil => exact ⟨[], fun r => rfl, .nil⟩
  | cons v l ih =>
    rw [List.forall_mem_cons] at h
    obtain ⟨⟨w, hw, hsame⟩, hl⟩ := h
    obtain ⟨l', hread, hall⟩ := ih hl
    refine ⟨w :: l', fun r => ?_, .cons hsame hall⟩
    rw [List.flatMap_cons, List.append_assoc]
    exact readItems_succ.mpr ⟨w, l', _, hw _, hread r, rfl⟩

/-- The entries of a map are read back if their values are, after entries with other keys. -/
theorem reads_entries {item : Bytes → Result (Cbor × Bytes)} {m entries : List (CborKey × Cbor)}
    (hkeys : ∀ p ∈ m, Reads item (keyCode p.1) (keyItem p.1))
    (hvals : ∀ p ∈ m, ∃ w, Reads item (valueCode p.2) w ∧ Same p.2 w)
    (hnodup : (m.map Prod.fst).Nodup) (hnew : ∀ p ∈ m, p.1 ∉ entries.map Prod.fst) :
    ∃ m', Reads (readEntries item m.length entries) (m.flatMap entryCode) (entries ++ m') ∧
      List.Forall₂ SameEntry m m' := by
  induction m generalizing entries with
  | nil => exact ⟨[], fun r => by rw [List.append_nil]; rfl, .nil⟩
  | cons p m ih =>
    obtain ⟨k, v⟩ := p
    rw [List.forall_mem_cons] at hkeys hvals hnew
    rw [List.map_cons, List.nodup_cons] at hnodup
    obtain ⟨hk, hkeys⟩ := hkeys
    obtain ⟨⟨w, hw, hsame⟩, hvals⟩ := hvals
    have hnew' : ∀ p ∈ m, p.1 ∉ (entries ++ [(k, w)]).map Prod.fst := by
      intro p hp hmem
      rw [List.map_append, List.mem_append, List.map_singleton, List.mem_singleton] at hmem
      rcases hmem with hmem | heq
      · exact hnew.2 p hp hmem
      · exact hnodup.1 (heq ▸ List.mem_map_of_mem hp)
    obtain ⟨m', hread, hall⟩ := ih hkeys hvals hnodup.2 hnew'
    refine ⟨(k, w) :: m', fun r => ?_, .cons ⟨rfl, hsame⟩ hall⟩
    rw [List.flatMap_cons, entryCode, List.append_assoc, List.append_assoc]
    refine readEntries_succ.mpr ⟨keyItem k, k, w, _, _, hk _, hw _, key?_keyItem k, hnew.1, ?_⟩
    rw [hread r, List.append_assoc]
    rfl

theorem reads_encode {v : Cbor} {b : Bytes} {left : Nat} (hwf : WF v) (hdepth : depth v < left)
    (h : encode v = .ok b) : ∃ w, Reads (decodeAt left) b w ∧ Same v w := by
  obtain ⟨left, rfl⟩ : ∃ left', left = left' + 1 := Nat.exists_eq_succ_of_ne_zero (by omega)
  induction v using items_induction generalizing b left with
  | null =>
    cases h
    exact ⟨.null, reads_simple 22 (by omega) rfl left, trivial⟩
  | bool x =>
    cases x <;> cases h
    · exact ⟨.bool false, reads_simple 20 (by omega) rfl left, rfl⟩
    · exact ⟨.bool true, reads_simple 21 (by omega) rfl left, rfl⟩
  | int n => exact ⟨.int n, reads_int (by simpa only [encode] using h) left, rfl⟩
  | bytes x => exact ⟨.bytes x, reads_bytes (by simpa only [encode] using h) left, rfl⟩
  | text s => exact ⟨.text s, reads_text (by simpa only [encode] using h) left, rfl⟩
  | arr l ih =>
    have hbelow := (depthList_lt_iff (Nat.succ_pos left)).mp hdepth
    have hwfs := wfList_iff.mp hwf
    simp only [encode, bind_eq_ok, pure_eq_ok, encodeItems_eq_ok] at h
    obtain ⟨hd, hhead, items, ⟨hvals, rfl⟩, rfl⟩ := h
    obtain ⟨l', hread, hall⟩ : ∃ l', Reads (readItems (decodeAt left) l.length)
        (l.flatMap valueCode) l' ∧ List.Forall₂ Same l l' := by
      refine reads_items fun v hv => ?_
      obtain ⟨c, hc⟩ := hvals v hv
      obtain ⟨left, rfl⟩ := Nat.exists_eq_add_of_lt (Nat.lt_of_succ_lt_succ (hbelow v hv))
      rw [valueCode_eq hc]
      exact ih v hv (hwfs v hv) hc _ (by omega)
    refine ⟨.arr l', fun r => ?_, sameList_iff.mpr hall⟩
    rw [List.append_assoc]
    refine decodeAt_of_head 4 (by omega) hhead fun hd hm ha hr => .arr hm ?_
    rw [ha, hr]
    exact hread r
  | map m ih =>
    have hbelow := (depthEntries_lt_iff (Nat.succ_pos left)).mp hdepth
    have hwfs := wfEntries_iff.mp hwf.2
    obtain ⟨hkeys, hvals, hd, hhead, rfl⟩ := encode_map_eq_ok.mp h
    have hmem : ∀ p, p ∈ ordered m ↔ p ∈ m := fun p => (ordered_perm m).mem_iff
    obtain ⟨m', hread, hall⟩ : ∃ m', Reads (readEntries (decodeAt left) (ordered m).length [])
        ((ordered m).flatMap entryCode) ([] ++ m') ∧ List.Forall₂ SameEntry (ordered m) m' := by
      refine reads_entries (fun p hp => ?_) (fun p hp => ?_) ?_ fun p _ => List.not_mem_nil
      all_goals try rw [hmem] at hp
      · obtain ⟨c, hc⟩ := hkeys p hp
        obtain ⟨left, rfl⟩ := Nat.exists_eq_add_of_lt (Nat.lt_of_succ_lt_succ (hbelow p hp))
        rw [keyCode_eq hc]
        exact reads_key hc _
      · obtain ⟨c, hc⟩ := hvals p hp
        obtain ⟨left, rfl⟩ := Nat.exists_eq_add_of_lt (Nat.lt_of_succ_lt_succ (hbelow p hp))
        rw [valueCode_eq hc]
        exact ih p hp (hwfs p hp) hc _ (by omega)
      · exact (((ordered_perm m).map Prod.fst).nodup_iff).mpr hwf.1
    obtain ⟨m'', hsame, hperm⟩ := exists_forall₂_perm (ordered_perm m).symm hall
    refine ⟨.map m', fun r => ?_, m'', sameEntries_iff.mpr hsame, hperm⟩
    rw [List.append_assoc]
    refine decodeAt_of_head 5 (by omega) hhead fun hd hm ha hr => .map hm ?_
    rw [ha, hr, ← (ordered_perm m).length_eq]
    exact hread r
  | tag n v r ih =>
    simp only [encode, bind_eq_ok, pure_eq_ok] at h
    obtain ⟨hd, hhead, c, hc, rfl⟩ := h
    have hlt : depth v < left := Nat.lt_of_succ_lt_succ hdepth
    obtain ⟨left, rfl⟩ := Nat.exists_eq_add_of_lt hlt
    obtain ⟨w, hread, hsame⟩ := ih hwf hc _ hlt
    refine ⟨.tag n w (some (hd ++ c)), fun rest => ?_, rfl, hsame⟩
    have htake : (hd ++ (c ++ rest)).take ((hd ++ (c ++ rest)).length - rest.length) = hd ++ c := by
      rw [← List.append_assoc, take_sub_length]
    rw [List.append_assoc, ← htake]
    refine decodeAt_of_head 6 (by omega) hhead fun hd hm ha hr => ?_
    rw [← ha]
    exact .tag hm (by rw [hr]; exact hread rest)
  | raw x => exact hwf.elim

/-! ## What the decoder accepts -/

theorem exists_encodeInt {n : Int} (h : -2 ^ 64 ≤ n ∧ n < 2 ^ 64) : ∃ c, encodeInt n = .ok c := by
  cases n with
  | ofNat n =>
    rw [Int.ofNat_eq_natCast] at h
    exact exists_head 0 (by omega)
  | negSucc n => exact exists_head 1 (by omega)

theorem exists_encodeBytes {b : Bytes} (h : b.length < 2 ^ 64) : ∃ c, encodeBytes b = .ok c := by
  obtain ⟨c, hc⟩ := exists_head 2 h
  exact ⟨c ++ b, bind_eq_ok.mpr ⟨c, hc, rfl⟩⟩

theorem exists_encodeText {s : Str} {b : Bytes} (hs : Codec.encodeUtf8 s = some b)
    (h : b.length < 2 ^ 64) : ∃ c, encodeText s = .ok c := by
  obtain ⟨c, hc⟩ := exists_head 3 h
  exact ⟨c ++ b, bind_eq_ok.mpr ⟨b, by rw [hs]; rfl, bind_eq_ok.mpr ⟨c, hc, rfl⟩⟩⟩

/-- A value is writable if it is well formed and the encoder accepts it. -/
def Writable (v : Cbor) : Prop := WF v ∧ ∃ c, encode v = .ok c

theorem encode_of_key {v : Cbor} {k : CborKey} (h : v.key? = some k) : encode v = encodeKey k := by
  cases v <;> cases h <;> simp only [encode, encodeKey]

section Loops

variable {item : Bytes → Result (Cbor × Bytes)} {At : Bytes → Prop} {P : Cbor → Prop}
  (hitem : ∀ data v rest, At data → item data = .ok (v, rest) → P v ∧ At rest)

include hitem

theorem readItems_spec {n : Nat} {l : List Cbor} {data rest : Bytes} (hdata : At data)
    (h : readItems item n data = .ok (l, rest)) : l.length = n ∧ (∀ v ∈ l, P v) ∧ At rest := by
  induction n generalizing l data with
  | zero =>
    cases h
    exact ⟨rfl, fun v hv => absurd hv List.not_mem_nil, hdata⟩
  | succ n ih =>
    obtain ⟨v, vs, data₁, hv, hvs, rfl⟩ := readItems_succ.mp h
    obtain ⟨hP, hdata₁⟩ := hitem _ _ _ hdata hv
    obtain ⟨hlen, hall, hrest⟩ := ih hdata₁ hvs
    exact ⟨by rw [List.length_cons, hlen], List.forall_mem_cons.mpr ⟨hP, hall⟩, hrest⟩

/-- What the entries of a map have in common, read after entries that have it. -/
theorem readEntries_spec {n : Nat} {entries m : List (CborKey × Cbor)} {data rest : Bytes}
    (hdata : At data) (h : readEntries item n entries data = .ok (m, rest))
    (hentries : ∀ p ∈ entries, (∃ k, P k ∧ k.key? = some p.1) ∧ P p.2)
    (hnodup : (entries.map Prod.fst).Nodup) :
    m.length = entries.length + n ∧ (m.map Prod.fst).Nodup ∧
      (∀ p ∈ m, (∃ k, P k ∧ k.key? = some p.1) ∧ P p.2) ∧ At rest := by
  induction n generalizing entries data with
  | zero =>
    cases h
    exact ⟨rfl, hnodup, hentries, hdata⟩
  | succ n ih =>
    obtain ⟨k, key, v, data₁, data₂, hk, hv, hkey, hnew, hread⟩ := readEntries_succ.mp h
    obtain ⟨hPk, hdata₁⟩ := hitem _ _ _ hdata hk
    obtain ⟨hPv, hdata₂⟩ := hitem _ _ _ hdata₁ hv
    have hall : ∀ p ∈ entries ++ [(key, v)], (∃ k, P k ∧ k.key? = some p.1) ∧ P p.2 := by
      intro p hp
      rcases List.mem_append.mp hp with hp | hp
      · exact hentries p hp
      · rw [List.mem_singleton.mp hp]
        exact ⟨⟨k, hPk, hkey⟩, hPv⟩
    have hnodup' : ((entries ++ [(key, v)]).map Prod.fst).Nodup := by
      rw [List.map_append, List.map_singleton, List.nodup_append_comm, List.singleton_append,
        List.nodup_cons]
      exact ⟨hnew, hnodup⟩
    obtain ⟨hlen, hspec⟩ := ih hdata₂ hread hall hnodup'
    refine ⟨?_, hspec⟩
    rw [hlen, List.length_append, List.length_singleton]
    omega

end Loops

theorem decodeAt_spec {left : Nat} {data rest : Bytes} {w : Cbor}
    (h : decodeAt left data = .ok (w, rest)) : Writable w ∧ depth w < left := by
  induction left generalizing data rest w with
  | zero => cases h
  | succ left ih =>
    obtain ⟨hd, hread, hbody⟩ := decodeAt_succ.mp h
    obtain ⟨harg, -⟩ := readHead_eq_ok hread
    rw [decodeBody_eq_ok] at hbody
    have hitem : ∀ data w rest, True → decodeAt left data = .ok (w, rest) →
        (Writable w ∧ depth w < left) ∧ True := fun _ _ _ _ hw => ⟨ih hw, trivial⟩
    cases hbody with
    | uint hm =>
      exact ⟨⟨trivial, by simpa only [encode] using exists_encodeInt (by omega)⟩, Nat.succ_pos left⟩
    | nint hm =>
      exact ⟨⟨trivial, by simpa only [encode] using exists_encodeInt (by omega)⟩, Nat.succ_pos left⟩
    | bytes hm hr hlen =>
      refine ⟨⟨trivial, ?_⟩, Nat.succ_pos left⟩
      simpa only [encode] using exists_encodeBytes (by omega)
    | text hm hr hlen hs =>
      refine ⟨⟨trivial, ?_⟩, Nat.succ_pos left⟩
      simpa only [encode] using exists_encodeText (Codec.encodeUtf8_of_decodeUtf8 hs) (by omega)
    | arr hm hl =>
      rename_i l
      obtain ⟨hlen, hall, -⟩ := readItems_spec hitem trivial hl
      obtain ⟨c, hc⟩ := exists_head 4 (n := l.length) (by omega)
      refine ⟨⟨wfList_iff.mpr fun v hv => (hall v hv).1.1, c ++ l.flatMap valueCode, ?_⟩, ?_⟩
      · simp only [encode, bind_eq_ok, pure_eq_ok, encodeItems_eq_ok]
        exact ⟨c, hc, _, ⟨fun v hv => (hall v hv).1.2, rfl⟩, rfl⟩
      · exact (depthList_lt_iff (Nat.succ_pos left)).mpr fun v hv => Nat.succ_lt_succ (hall v hv).2
    | map hm he =>
      rename_i m
      obtain ⟨hlen, hnodup, hall, -⟩ := readEntries_spec hitem trivial he (by simp) List.nodup_nil
      obtain ⟨c, hc⟩ := exists_head 5 (n := m.length) (by rw [hlen, List.length_nil]; omega)
      have hkeys : ∀ p ∈ m, ∃ c, encodeKey p.1 = .ok c := by
        intro p hp
        obtain ⟨⟨k, hk, hkey⟩, -⟩ := hall p hp
        rw [← encode_of_key hkey]
        exact hk.1.2
      refine ⟨⟨⟨hnodup, wfEntries_iff.mpr fun p hp => (hall p hp).2.1.1⟩,
        c ++ (ordered m).flatMap entryCode, ?_⟩, ?_⟩
      · exact encode_map_eq_ok.mpr ⟨hkeys, fun p hp => (hall p hp).2.1.2, c, hc, rfl⟩
      · exact (depthEntries_lt_iff (Nat.succ_pos left)).mpr fun p hp =>
          Nat.succ_lt_succ (hall p hp).2.2
    | tag hm hv =>
      obtain ⟨⟨hwf, c, hc⟩, hlt⟩ := ih hv
      obtain ⟨h6, hh6⟩ := exists_head 6 harg
      refine ⟨⟨hwf, h6 ++ c, ?_⟩, Nat.succ_lt_succ hlt⟩
      simp only [encode, bind_eq_ok, pure_eq_ok]
      exact ⟨h6, hh6, c, hc, rfl⟩
    | simple hm hv =>
      unfold simple at hv
      split_ifs at hv
      all_goals cases hv
      all_goals exact ⟨⟨trivial, _, rfl⟩, Nat.succ_pos left⟩

/-! ## One encoding for one value -/

theorem map_eq_of_forall₂ {α β : Type} {R : α → α → Prop} {f : α → β} {l l' : List α}
    (h : List.Forall₂ R l l') (hf : ∀ a ∈ l, ∀ b, R a b → f a = f b) : l.map f = l'.map f := by
  induction h with
  | nil => rfl
  | cons hab _ ih =>
    rw [List.map_cons, List.map_cons, hf _ List.mem_cons_self _ hab,
      ih fun a ha => hf a (List.mem_cons_of_mem _ ha)]

/-- A key with the encoding of its entry. -/
def coded (p : CborKey × Cbor) : CborKey × Bytes := (p.1, entryCode p)

/-- Two maps with the same entries in two orders are written in one order. -/
theorem flatMap_ordered_eq {m m' : List (CborKey × Cbor)} (hnodup : (m.map Prod.fst).Nodup)
    (hkeys : ∀ p ∈ m, ∃ c, encodeKey p.1 = .ok c) (hperm : (m.map coded).Perm (m'.map coded)) :
    (ordered m).flatMap entryCode = (ordered m').flatMap entryCode := by
  have hcoded : ∀ m, (ordered m).flatMap entryCode = ((ordered m).map coded).flatMap Prod.snd :=
    fun m => by rw [List.flatMap_map]; rfl
  have hsorted : ∀ m, ((ordered m).map coded).Pairwise fun x y =>
      (keyCode x.1).map UInt8.toNat ≤ (keyCode y.1).map UInt8.toNat :=
    fun m => List.pairwise_map.mpr ((pairwise_ordered m).imp fun h => h)
  have hperm' : ((ordered m).map coded).Perm ((ordered m').map coded) :=
    ((ordered_perm m).map coded).trans (hperm.trans ((ordered_perm m').map coded).symm)
  rw [hcoded, hcoded]
  refine congrArg _ (hperm'.eq_of_pairwise (fun x y hx hy hxy hyx => ?_) (hsorted m) (hsorted m'))
  -- two entries with one encoded key have one key, and the map has it once
  rw [← hperm'.mem_iff] at hy
  obtain ⟨p, hp, rfl⟩ := List.mem_map.mp hx
  obtain ⟨q, hq, rfl⟩ := List.mem_map.mp hy
  rw [(ordered_perm m).mem_iff] at hp hq
  obtain ⟨c, hc⟩ := hkeys p hp
  obtain ⟨d, hd⟩ := hkeys q hq
  have hcodes : keyCode p.1 = keyCode q.1 :=
    List.map_injective_iff.mpr (fun _ _ => UInt8.toNat_inj.mp) (le_antisymm hxy hyx)
  rw [keyCode_eq hc, keyCode_eq hd] at hcodes
  rw [hcodes] at hc
  rw [List.inj_on_of_nodup_map hnodup hp hq (encodeKey_inj hc hd)]

theorem encodeItems_congr {l l' : List Cbor} (h : l.map encode = l'.map encode) :
    encodeItems l = encodeItems l' := by
  induction l generalizing l' with
  | nil =>
    rw [List.map_eq_nil_iff.mp h.symm]
  | cons v l ih =>
    obtain ⟨w, t, rfl, hw, ht⟩ := List.map_eq_cons_iff.mp h.symm
    rw [encodeItems, encodeItems, hw, ih ht.symm]

theorem encode_congr {v w : Cbor} {b : Bytes} (hwf : WF v) (hsame : Same v w)
    (h : encode v = .ok b) : encode w = .ok b := by
  induction v using items_induction generalizing w b with
  | arr l ih =>
    cases w with
    | arr l' =>
      have hwfs := wfList_iff.mp hwf
      simp only [encode, bind_eq_ok, pure_eq_ok] at h ⊢
      obtain ⟨hd, hhead, items, hitems, rfl⟩ := h
      have hvals := (encodeItems_eq_ok.mp hitems).1
      have hmap : l.map encode = l'.map encode := by
        refine map_eq_of_forall₂ (sameList_iff.mp hsame) fun v hv w hw => ?_
        obtain ⟨c, hc⟩ := hvals v hv
        rw [hc, ih v hv (hwfs v hv) hw hc]
      have hlen : l'.length = l.length := by simpa using congrArg List.length hmap.symm
      exact ⟨hd, by rw [hlen]; exact hhead, items, by rw [← encodeItems_congr hmap]; exact hitems, rfl⟩
    | _ => exact hsame.elim
  | map m ih =>
    cases w with
    | map m' =>
      obtain ⟨m'', hentries, hperm⟩ := hsame
      have hwfs := wfEntries_iff.mp hwf.2
      obtain ⟨hkeys, hvals, hd, hhead, rfl⟩ := encode_map_eq_ok.mp h
      have hmap : m.map (fun p => (p.1, encode p.2)) = m''.map fun p => (p.1, encode p.2) := by
        refine map_eq_of_forall₂ (sameEntries_iff.mp hentries) fun p hp q hq => ?_
        obtain ⟨c, hc⟩ := hvals p hp
        rw [hq.1, hc, ih p hp (hwfs p hp) hq.2 hc]
      have hback : ∀ p ∈ m', ∃ q ∈ m, q.1 = p.1 ∧ encode q.2 = encode p.2 := by
        intro p hp
        have hmem : (p.1, encode p.2) ∈ m.map fun p => (p.1, encode p.2) := by
          rw [hmap]
          exact List.mem_map_of_mem (hperm.mem_iff.mpr hp)
        obtain ⟨q, hq, heq⟩ := List.mem_map.mp hmem
        exact ⟨q, hq, (Prod.mk.inj heq).1, (Prod.mk.inj heq).2⟩
      have hcoded : (m.map coded).Perm (m'.map coded) := by
        have hm : m.map coded = m''.map coded := by
          have := congrArg (List.map fun x : CborKey × Result Bytes =>
            (x.1, keyCode x.1 ++ x.2.toOption.getD [])) hmap
          rw [List.map_map, List.map_map] at this
          exact this
        rw [hm]
        exact hperm.map coded
      have hlen : m'.length = m.length := by simpa using hcoded.length_eq.symm
      refine encode_map_eq_ok.mpr ⟨fun p hp => ?_, fun p hp => ?_, hd, by rw [hlen]; exact hhead, ?_⟩
      · obtain ⟨q, hq, hkey, -⟩ := hback p hp
        exact hkey ▸ hkeys q hq
      · obtain ⟨q, hq, -, hval⟩ := hback p hp
        exact hval ▸ hvals q hq
      · rw [flatMap_ordered_eq hwf.1 hkeys hcoded]
    | _ => exact hsame.elim
  | tag n v r ih =>
    cases w with
    | tag n' v' r' =>
      obtain ⟨rfl, hsame⟩ := hsame
      simp only [encode, bind_eq_ok, pure_eq_ok] at h ⊢
      obtain ⟨hd, hhead, c, hc, rfl⟩ := h
      exact ⟨hd, hhead, c, ih hwf hsame hc, rfl⟩
    | _ => exact hsame.elim
  | null =>
    cases w with
    | null => exact h
    | _ => exact hsame.elim
  | bool x | int x | bytes x | text x =>
    cases w <;> first | exact hsame.elim | (cases hsame; exact h)
  | raw x => exact hwf.elim

/-! ## The codec -/

theorem decode_eq_ok {b : Bytes} {w : Cbor} :
    decode b = .ok w ↔ decodeAt (maxDepth + 1) b = .ok (w, []) := by
  simp only [decode, bind_eq_ok, raiseIf_eq_ok, pure_eq_ok, Prod.exists]
  constructor
  · rintro ⟨v, rest, h, ⟨⟩, hrest, rfl⟩
    rw [Bool.not_eq_false', List.isEmpty_iff] at hrest
    rw [h, hrest]
  · intro h
    exact ⟨w, [], h, (), rfl, rfl⟩

theorem decode_of_reads {b : Bytes} {w : Cbor} (h : Reads (decodeAt (maxDepth + 1)) b w) :
    decode b = .ok w := by
  have hb := h []
  rw [List.append_nil] at hb
  exact decode_eq_ok.mpr hb

/-- Two values, one encoding: read at a depth that is enough for both. -/
theorem same_of_encode_eq {v w : Cbor} {b : Bytes} (hv : WF v) (hw : WF w) (hb : encode v = .ok b)
    (hb' : encode w = .ok b) : Same v w := by
  obtain ⟨x, hx, hvx⟩ := @reads_encode _ _ (max (depth v) (depth w) + 1) hv (by omega) hb
  obtain ⟨y, hy, hwy⟩ := @reads_encode _ _ (max (depth v) (depth w) + 1) hw (by omega) hb'
  rw [← hx.eq_of_code hy] at hwy
  exact hvx.trans hwy.symm

theorem eq_nil_of_encode_append {v w : Cbor} {b r : Bytes} (hv : WF v) (hw : WF w)
    (hb : encode v = .ok b) (hb' : encode w = .ok (b ++ r)) : r = [] := by
  obtain ⟨x, hx, -⟩ := @reads_encode _ _ (max (depth v) (depth w) + 1) hv (by omega) hb
  obtain ⟨y, hy, -⟩ := @reads_encode _ _ (max (depth v) (depth w) + 1) hw (by omega) hb'
  exact hx.eq_nil hy

/-- The codec is a canonical bijection. A value that the encoder accepts is decoded to itself; two
values have one encoding only if they are the same, and no encoding is a proper prefix of another;
what the decoder accepts is re-encoded as the one encoding of that value, which is decoded to it. -/
theorem codec_canonical :
    (∀ v b, WF v → depth v ≤ maxDepth → encode v = .ok b → ∃ w, decode b = .ok w ∧ Same v w) ∧
    (∀ v w b, WF v → WF w → encode v = .ok b → encode w = .ok b → Same v w) ∧
    (∀ v w b r, WF v → WF w → encode v = .ok b → encode w = .ok (b ++ r) → r = []) ∧
    (∀ b w, decode b = .ok w → WF w ∧ depth w ≤ maxDepth ∧ ∃ c, encode w = .ok c ∧
      (∀ v, WF v → (encode v = .ok c ↔ Same v w)) ∧ ∃ w', decode c = .ok w' ∧ Same w w') := by
  have hround : ∀ v b, WF v → depth v ≤ maxDepth → encode v = .ok b →
      ∃ w, decode b = .ok w ∧ Same v w := by
    intro v b hwf hdepth hb
    obtain ⟨w, hread, hsame⟩ := reads_encode hwf (Nat.lt_succ_of_le hdepth) hb
    exact ⟨w, decode_of_reads hread, hsame⟩
  refine ⟨hround, fun v w b => same_of_encode_eq, fun v w b r => eq_nil_of_encode_append, ?_⟩
  intro b w hb
  obtain ⟨⟨hwf, c, hc⟩, hdepth⟩ := decodeAt_spec (decode_eq_ok.mp hb)
  have hdepth' : depth w ≤ maxDepth := Nat.le_of_lt_succ hdepth
  refine ⟨hwf, hdepth', c, hc, fun v hv => ⟨fun h => ?_, fun h => ?_⟩, hround w c hwf hdepth' hc⟩
  · exact same_of_encode_eq hv hwf h hc
  · exact encode_congr hwf h.symm hc

/-- A map with a text key, an integer key and a tag, and its encoding. -/
theorem codec_canonical_map :
    encode (.map [(.text "alg", .int (-7)), (.int 1, .tag 24 (.bytes [0xF6]) none)]) =
        .ok [0xA2, 0x01, 0xD8, 0x18, 0x41, 0xF6, 0x63, 0x61, 0x6C, 0x67, 0x26] ∧
      ∃ w, decode [0xA2, 0x01, 0xD8, 0x18, 0x41, 0xF6, 0x63, 0x61, 0x6C, 0x67, 0x26] = .ok w ∧
        Same (.map [(.text "alg", .int (-7)), (.int 1, .tag 24 (.bytes [0xF6]) none)]) w := by
  have henc : encode (.map [(.text "alg", .int (-7)), (.int 1, .tag 24 (.bytes [0xF6]) none)]) =
      .ok [0xA2, 0x01, 0xD8, 0x18, 0x41, 0xF6, 0x63, 0x61, 0x6C, 0x67, 0x26] := by
    obtain ⟨b, hb, heq⟩ := exists_ok_of_map (x := encode (.map [(.text "alg", .int (-7)),
        (.int 1, .tag 24 (.bytes [0xF6]) none)])) (f := id)
      (c := [0xA2, 0x01, 0xD8, 0x18, 0x41, 0xF6, 0x63, 0x61, 0x6C, 0x67, 0x26]) (by decide +kernel)
    rw [hb, ← heq]
    rfl
  refine ⟨henc, codec_canonical.1 _ _ ?_ ?_ henc⟩
  · simp [WF, WFEntries]
  · decide +kernel

end OpenVC.Cbor
