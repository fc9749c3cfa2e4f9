import OpenVC.Cache
import OpenVC.Python.Proofs.FloatOrderProofs

/-!
# The cache over a sequence of operations

The entries of a `TtlCache` are the values held and not known to be stale, in the order of their writes,
which on a clock that does not go back is the order in which they expire.
-/

namespace Python.PyFloat

theorem lt_posInf (x : PyFloat) : lt .posInf x = false := by cases x <;> rfl

theorem lt_negInf_right (x : PyFloat) : lt x .negInf = false := by cases x <;> rfl

theorem lt_self (x : PyFloat) : lt x x = false := by
  cases x with
  | fin q => exact decide_eq_false (lt_irrefl q)
  | _ => rfl

theorem not_lt_add {a b : PyFloat} (h : le a b = true) (c : PyFloat) :
    lt (add b c) (add a c) = false := by
  cases a with
  | nan => cases b <;> cases h
  | posInf =>
    cases b with
    | posInf => cases c <;> rfl
    | _ => cases h
  | negInf =>
    cases b with
    | nan => cases h
    | posInf => cases c <;> rfl
    | negInf => cases c <;> rfl
    | fin q =>
      cases c with
      | nan => rfl
      | posInf => rfl
      | negInf => rfl
      | fin r => exact lt_negInf_right _
  | fin p =>
    cases b with
    | nan => cases h
    | negInf => cases h
    | posInf =>
      cases c with
      | nan => rfl
      | posInf => rfl
      | negInf => rfl
      | fin r => exact lt_posInf _
    | fin q =>
      cases c with
      | nan => rfl
      | posInf => rfl
      | negInf => rfl
      | fin r =>
        have hpq : p ≤ q := by
          simp only [le, lt, eq, Bool.or_eq_true, decide_eq_true_eq, beq_iff_eq] at h
          rcases h with h | h
          · exact h.le
          · exact h.le
        exact not_lt_ofRat (by linarith)

end Python.PyFloat

namespace OpenVC

open Python

namespace TtlCache

variable {V : Type} {c : TtlCache V} {key k : Str} {now t e : PyFloat} {v : V}

/-- What is not older than `ttl` by the exact difference of the readings is fresh; where the sum is a
float, nothing else is. -/
theorem fresh_iff {ttl t now : Rat} (hnow : PyFloat.IsDouble now) :
    (now - t ≤ ttl → Fresh (.fin ttl) (.fin t) (.fin now)) ∧
      (PyFloat.IsDouble (t + ttl) → (Fresh (.fin ttl) (.fin t) (.fin now) ↔ now - t ≤ ttl)) := by
  constructor
  · intro h
    have hround := PyFloat.not_lt_ofRat (x := now) (y := t + ttl) (by linarith)
    rw [PyFloat.IsDouble] at hnow
    rw [hnow] at hround
    exact hround
  · intro hsum
    rw [PyFloat.IsDouble] at hsum
    rw [Fresh, PyFloat.add, hsum, PyFloat.lt, decide_eq_false_iff_not, not_lt]
    constructor <;> intro h <;> linarith

/-! ## Lookups -/

theorem mem_of_find (h : c.find key = some (e, v)) : (key, e, v) ∈ c.data := by
  obtain ⟨⟨key', p⟩, hfind, rfl⟩ := Option.map_eq_some_iff.mp h
  have hkey : key' = key := by simpa using List.find?_some hfind
  exact hkey ▸ List.mem_of_find?_eq_some hfind

theorem find_of_mem (hnodup : (c.data.map (·.1)).Nodup) (h : (key, e, v) ∈ c.data) :
    c.find key = some (e, v) := by
  cases hfind : c.find key with
  | none =>
    rw [find, Option.map_eq_none_iff, List.find?_eq_none] at hfind
    exact absurd (beq_self_eq_true key) (hfind _ h)
  | some p =>
    have hp := mem_of_find hfind
    have heq := List.inj_on_of_nodup_map hnodup hp h rfl
    exact congrArg some (Prod.mk.inj heq).2

theorem find_eq_none_iff : c.find key = none ↔ key ∉ c.data.map (·.1) := by
  rw [find, Option.map_eq_none_iff, List.find?_eq_none, List.mem_map]
  constructor
  · rintro h ⟨e, he, rfl⟩
    exact h e he (beq_self_eq_true _)
  · intro h e he heq
    exact h ⟨e, he, by simpa using heq⟩

theorem mem_others {data : List (Str × PyFloat × V)} {x : Str × PyFloat × V} :
    x ∈ others data key ↔ x ∈ data ∧ x.1 ≠ key := by
  simp [others]

/-! ## What an operation does -/

theorem mem_of_get (h : (c.get now key).1 = some v) :
    ∃ e, (key, e, v) ∈ c.data ∧ PyFloat.lt e now = false := by
  unfold get at h
  cases hfind : c.find key with
  | none =>
    rw [hfind] at h
    cases h
  | some p =>
    rw [hfind] at h
    dsimp only at h
    split at h
    · cases h
    · rename_i hlt
      cases h
      exact ⟨p.1, mem_of_find hfind, by simpa using hlt⟩

/-- A `get` returns the fresh value of its key. -/
theorem get_eq_some (hnodup : (c.data.map (·.1)).Nodup) :
    (c.get now key).1 = some v ↔ ∃ e, (key, e, v) ∈ c.data ∧ PyFloat.lt e now = false := by
  refine ⟨mem_of_get, ?_⟩
  rintro ⟨e, hmem, hlt⟩
  rw [get, find_of_mem hnodup hmem]
  dsimp only
  rw [if_neg (by rw [hlt]; exact Bool.false_ne_true)]

/-- A `get` leaves the entries, or drops that of its key when it is stale. -/
theorem get_data (c : TtlCache V) (now : PyFloat) (key : Str) :
    (c.get now key).2.data = c.data ∨
      ∃ e v, c.find key = some (e, v) ∧ PyFloat.lt e now = true ∧
        (c.get now key).2.data = others c.data key := by
  unfold get
  cases hfind : c.find key with
  | none => exact .inl rfl
  | some p =>
    dsimp only
    split
    · rename_i hlt
      exact .inr ⟨p.1, p.2, rfl, hlt, rfl⟩
    · exact .inl rfl

/-- Where a `set` evicts, the cache is full and the first entry goes. -/
theorem evicted_eq_some (h : c.evicted key = some k) :
    c.find key = none ∧ c.maxEntries ≤ c.data.length ∧ ∃ e v rest,
      c.data = (k, e, v) :: rest ∧ c.makeRoom key = rest := by
  unfold evicted at h
  split at h
  · rename_i hfull
    have hfull' := hfull
    rw [Bool.and_eq_true, Option.isNone_iff_eq_none, decide_eq_true_eq] at hfull'
    cases hdata : c.data with
    | nil =>
      rw [hdata] at h
      cases h
    | cons x rest =>
      rw [hdata] at h
      cases h
      refine ⟨hfull'.1, by rw [← hdata]; exact hfull'.2, x.2.1, x.2.2, rest, rfl, ?_⟩
      rw [makeRoom, if_pos hfull, hdata]
      rfl
  · cases h

theorem makeRoom_of_evicted_eq_none (h : c.evicted key = none) : c.makeRoom key = c.data := by
  unfold evicted at h
  unfold makeRoom
  split
  · rename_i hfull
    rw [if_pos hfull] at h
    cases hdata : c.data with
    | nil => rfl
    | cons x rest =>
      rw [hdata] at h
      cases h
  · rfl

/-- What room is made of: the entries but the evicted one. -/
theorem mem_makeRoom (hnodup : (c.data.map (·.1)).Nodup) {x : Str × PyFloat × V} :
    x ∈ c.makeRoom key ↔ x ∈ c.data ∧ c.evicted key ≠ some x.1 := by
  cases hev : c.evicted key with
  | none =>
    rw [makeRoom_of_evicted_eq_none hev]
    exact ⟨fun h => ⟨h, nofun⟩, fun h => h.1⟩
  | some gone =>
    obtain ⟨-, -, e, v, rest, hdata, hroom⟩ := evicted_eq_some hev
    rw [hdata, List.map_cons, List.nodup_cons] at hnodup
    rw [hroom, hdata, List.mem_cons]
    constructor
    · intro hx
      refine ⟨.inr hx, fun heq => hnodup.1 ?_⟩
      have hmem := List.mem_map_of_mem (f := (·.1)) hx
      rwa [← Option.some.inj heq] at hmem
    · rintro ⟨rfl | hx, hne⟩
      · exact absurd rfl hne
      · exact hx

theorem makeRoom_sublist (c : TtlCache V) (key : Str) : (c.makeRoom key).Sublist c.data := by
  unfold makeRoom
  split
  · exact List.tail_sublist _
  · exact List.Sublist.refl _

theorem length_others_lt (hmax : 1 ≤ c.maxEntries) (hlength : c.data.length ≤ c.maxEntries) :
    (others (c.makeRoom key) key).length < c.maxEntries := by
  have hfilter : (others (c.makeRoom key) key).length ≤ (c.makeRoom key).length :=
    List.length_filter_le _ _
  by_cases hfull : (c.find key).isNone ∧ c.maxEntries ≤ c.data.length
  · have hroom : c.makeRoom key = c.data.tail := by
      rw [makeRoom, if_pos (by simpa using hfull)]
    rw [hroom, List.length_tail] at hfilter
    rw [hroom]
    omega
  · have hroom : c.makeRoom key = c.data := by
      rw [makeRoom, if_neg (by simpa using hfull)]
    rw [hroom] at hfilter ⊢
    rcases Nat.lt_or_ge c.data.length c.maxEntries with hlt | hge
    · omega
    · -- the key is there, so that its entry is not among the others
      have hkey : c.find key ≠ none := fun hnone => hfull ⟨by rw [hnone]; rfl, hge⟩
      obtain ⟨p, hp⟩ := Option.ne_none_iff_exists'.mp hkey
      have hmem := mem_of_find hp
      have hlt : (others c.data key).length < c.data.length :=
        List.length_filter_lt_length_iff_exists.mpr ⟨_, hmem, by simp⟩
      omega

/-! ## What is held -/

@[simp] theorem after_concat (calls : List (Call V)) (call : Call V) :
    c.after (calls ++ [call]) = (c.after calls).step call := by
  rw [after, List.foldl_concat]
  rfl

@[simp] theorem ttlS_step (call : Call V) : (c.step call).ttlS = c.ttlS := by
  unfold step
  cases call.op with
  | get key =>
    dsimp only
    unfold get
    cases c.find key with
    | none => rfl
    | some p =>
      dsimp only
      split <;> rfl
  | _ => rfl

@[simp] theorem maxEntries_step (call : Call V) : (c.step call).maxEntries = c.maxEntries := by
  unfold step
  cases call.op with
  | get key =>
    dsimp only
    unfold get
    cases c.find key with
    | none => rfl
    | some p =>
      dsimp only
      split <;> rfl
  | _ => rfl

theorem limits_after (c : TtlCache V) (calls : List (Call V)) :
    (c.after calls).ttlS = c.ttlS ∧ (c.after calls).maxEntries = c.maxEntries := by
  induction calls using List.reverseRecOn with
  | nil => exact ⟨rfl, rfl⟩
  | append_singleton calls call ih => rw [after_concat, ttlS_step, maxEntries_step]; exact ih

theorem undisturbed_concat {calls : List (Call V)} {call : Call V} :
    Undisturbed key c (calls ++ [call]) ↔
      Undisturbed key c calls ∧ ¬ (c.after calls).Disturbs key call := by
  induction calls generalizing c with
  | nil =>
    rw [List.nil_append, Undisturbed, Undisturbed, and_comm]
    rfl
  | cons x calls ih =>
    rw [List.cons_append, Undisturbed, Undisturbed, ih, and_assoc]
    rfl

theorem after_append (calls calls' : List (Call V)) :
    c.after (calls ++ calls') = (c.after calls).after calls' := List.foldl_append

/-- What is held after one more operation: what it wrote, and what was held and is left alone. -/
theorem held_concat {calls : List (Call V)} {call : Call V} :
    Held c (calls ++ [call]) key t v ↔
      call = ⟨t, .set key v⟩ ∨
        Held c calls key t v ∧ ¬ (c.after calls).Disturbs key call := by
  constructor
  · rintro ⟨before, since, heq, hund⟩
    rcases List.eq_nil_or_concat' since with rfl | ⟨since, last, rfl⟩
    · have hlast := List.append_inj_right' heq rfl
      exact .inl (List.cons.inj hlast).1
    · have hassoc : calls ++ [call] = (before ++ ⟨t, .set key v⟩ :: since) ++ [last] := by
        rw [heq, List.append_assoc, List.cons_append]
      obtain ⟨rfl, hlast⟩ := List.append_inj' hassoc rfl
      obtain rfl : call = last := (List.cons.inj hlast).1
      obtain ⟨hund, hdist⟩ := undisturbed_concat.mp hund
      refine .inr ⟨⟨before, since, rfl, hund⟩, ?_⟩
      rw [← after_append, List.append_assoc] at hdist
      exact hdist
  · rintro (rfl | ⟨⟨before, since, rfl, hund⟩, hdist⟩)
    · exact ⟨calls, [], rfl, trivial⟩
    · refine ⟨before, since ++ [call], by simp, undisturbed_concat.mpr ⟨hund, ?_⟩⟩
      rw [← after_append, List.append_assoc]
      exact hdist

theorem exists_call_of_held {calls : List (Call V)} (h : Held c calls key t v) :
    ∃ call ∈ calls, call.now = t := by
  obtain ⟨before, since, rfl, -⟩ := h
  exact ⟨⟨t, .set key v⟩, by simp, rfl⟩

/-! ## The invariant -/

/-- After a sequence of operations each key has at most one entry, there are no more than allowed, they
are what is held and was not found stale, and they are in the order in which they expire. -/
structure Tracks (c : TtlCache V) (calls : List (Call V)) : Prop where
  nodup : ((c.after calls).data.map (·.1)).Nodup
  length : (c.after calls).data.length ≤ c.maxEntries
  held : ∀ key e v, (key, e, v) ∈ (c.after calls).data →
    ∃ t, Held c calls key t v ∧ e = PyFloat.add t c.ttlS
  kept : ∀ key t v, Held c calls key t v → (key, PyFloat.add t c.ttlS, v) ∈ (c.after calls).data ∨
    ∃ call ∈ calls, PyFloat.lt (PyFloat.add t c.ttlS) call.now = true
  ordered : (c.after calls).data.Pairwise fun x y => PyFloat.lt y.2.1 x.2.1 = false

namespace Tracks

variable {calls : List (Call V)}

theorem init (hempty : c.data = []) : Tracks c [] where
  nodup := by rw [after, List.foldl_nil, hempty]; exact List.nodup_nil
  length := by rw [after, List.foldl_nil, hempty]; exact Nat.zero_le _
  held key e v h := by
    rw [after, List.foldl_nil, hempty] at h
    cases h
  kept key t v h := by
    obtain ⟨before, since, heq, -⟩ := h
    cases before <;> cases heq
  ordered := by rw [after, List.foldl_nil, hempty]; exact List.Pairwise.nil

theorem get (h : Tracks c calls) (now : PyFloat) (key : Str) :
    Tracks c (calls ++ [⟨now, .get key⟩]) := by
  have hheld : ∀ k t v, Held c (calls ++ [⟨now, .get key⟩]) k t v ↔ Held c calls k t v := by
    intro k t v
    rw [held_concat]
    constructor
    · rintro (heq | ⟨hheld, -⟩)
      · cases heq
      · exact hheld
    · exact fun hheld => .inr ⟨hheld, id⟩
  have hafter : (c.after (calls ++ [⟨now, .get key⟩])).data = ((c.after calls).get now key).2.data := by
    rw [after_concat]
    rfl
  have hsub : ((c.after calls).get now key).2.data.Sublist (c.after calls).data := by
    rcases get_data (c.after calls) now key with heq | ⟨e, v, -, -, heq⟩
    · rw [heq]
    · rw [heq]
      exact List.filter_sublist
  constructor
  · rw [hafter]
    exact h.nodup.sublist (hsub.map _)
  · rw [hafter]
    exact hsub.length_le.trans h.length
  · intro k e v hmem
    rw [hafter] at hmem
    obtain ⟨t, hk, he⟩ := h.held k e v (hsub.subset hmem)
    exact ⟨t, (hheld k t v).mpr hk, he⟩
  · intro k t v hk
    rw [hafter]
    rcases h.kept k t v ((hheld k t v).mp hk) with hmem | ⟨call, hcall, hlt⟩
    · rcases get_data (c.after calls) now key with heq | ⟨e, w, hfind, hlt, heq⟩
      · exact .inl (by rw [heq]; exact hmem)
      · by_cases hkey : k = key
        · subst hkey
          rw [find_of_mem h.nodup hmem] at hfind
          obtain ⟨rfl, -⟩ := Prod.mk.inj (Option.some.inj hfind)
          exact .inr ⟨⟨now, .get k⟩, by simp, hlt⟩
        · exact .inl (by rw [heq]; exact mem_others.mpr ⟨hmem, hkey⟩)
    · exact .inr ⟨call, by simp [hcall], hlt⟩
  · rw [hafter]
    exact h.ordered.sublist hsub

theorem set (h : Tracks c calls) (hmax : 1 ≤ c.maxEntries) (now : PyFloat) (key : Str) (v : V)
    (hclock : ∀ call ∈ calls, PyFloat.le call.now now = true) :
    Tracks c (calls ++ [⟨now, .set key v⟩]) := by
  obtain ⟨httl, hlimit⟩ := limits_after c calls
  have hafter : (c.after (calls ++ [⟨now, .set key v⟩])).data =
      others ((c.after calls).makeRoom key) key ++ [(key, PyFloat.add now c.ttlS, v)] := by
    rw [after_concat, ← httl]
    rfl
  have hsub : (others ((c.after calls).makeRoom key) key).Sublist (c.after calls).data :=
    List.filter_sublist.trans (makeRoom_sublist _ _)
  have hdist : ∀ k, ¬ (c.after calls).Disturbs k ⟨now, .set key v⟩ ↔
      k ≠ key ∧ (c.after calls).evicted key ≠ some k := by
    intro k
    change ¬ (key = k ∨ _) ↔ _
    rw [not_or, ne_comm]
  constructor
  · rw [hafter, List.map_append, List.nodup_append]
    refine ⟨h.nodup.sublist (hsub.map _), List.nodup_singleton _, ?_⟩
    rintro k hk k' hk' rfl
    obtain ⟨x, hx, rfl⟩ := List.mem_map.mp hk
    exact (mem_others.mp hx).2 (List.mem_singleton.mp hk')
  · rw [hafter, List.length_append, List.length_singleton]
    have : (others ((c.after calls).makeRoom key) key).length < (c.after calls).maxEntries :=
      length_others_lt (by rw [hlimit]; exact hmax) (by rw [hlimit]; exact h.length)
    omega
  · intro k e w hmem
    rw [hafter] at hmem
    rcases List.mem_append.mp hmem with hmem | hmem
    · obtain ⟨hroom, hkey⟩ := mem_others.mp hmem
      obtain ⟨hdata, hev⟩ := (mem_makeRoom h.nodup).mp hroom
      obtain ⟨t, hk, he⟩ := h.held k e w hdata
      exact ⟨t, held_concat.mpr (.inr ⟨hk, (hdist k).mpr ⟨hkey, hev⟩⟩), he⟩
    · obtain ⟨rfl, heq⟩ := Prod.mk.inj (List.mem_singleton.mp hmem)
      obtain ⟨rfl, rfl⟩ := Prod.mk.inj heq
      exact ⟨now, held_concat.mpr (.inl rfl), rfl⟩
  · intro k t w hk
    rw [hafter]
    rcases held_concat.mp hk with heq | ⟨hk, hnot⟩
    · cases heq
      exact .inl (by simp)
    · obtain ⟨hkey, hev⟩ := (hdist k).mp hnot
      rcases h.kept k t w hk with hmem | ⟨call, hcall, hlt⟩
      · refine .inl (List.mem_append_left _ (mem_others.mpr ⟨?_, hkey⟩))
        exact (mem_makeRoom h.nodup).mpr ⟨hmem, hev⟩
      · exact .inr ⟨call, by simp [hcall], hlt⟩
  · rw [hafter, List.pairwise_append]
    refine ⟨h.ordered.sublist hsub, List.pairwise_singleton _ _, fun x hx y hy => ?_⟩
    rw [List.mem_singleton.mp hy]
    obtain ⟨t, hk, he⟩ := h.held x.1 x.2.1 x.2.2 (hsub.subset hx)
    obtain ⟨call, hcall, rfl⟩ := exists_call_of_held hk
    rw [he]
    exact PyFloat.not_lt_add (hclock call hcall) c.ttlS

theorem clear (now : PyFloat) : Tracks c (calls ++ [⟨now, .clear⟩]) := by
  have hafter : (c.after (calls ++ [⟨now, .clear⟩])).data = [] := by
    rw [after_concat]
    rfl
  constructor
  · rw [hafter]
    exact List.nodup_nil
  · rw [hafter]
    exact Nat.zero_le _
  · intro k e v h
    rw [hafter] at h
    cases h
  · intro k t v h
    rcases held_concat.mp h with heq | ⟨-, hdist⟩
    · cases heq
    · exact absurd trivial hdist
  · rw [hafter]
    exact List.Pairwise.nil

end Tracks

/-- The invariant of every run. -/
theorem tracks (hempty : c.data = []) (hmax : 1 ≤ c.maxEntries) {calls : List (Call V)}
    (hclock : calls.Pairwise fun a b => PyFloat.le a.now b.now = true) : Tracks c calls := by
  induction calls using List.reverseRecOn with
  | nil => exact .init hempty
  | append_singleton calls call ih =>
    obtain ⟨hcalls, -, hlast⟩ := List.pairwise_append.mp hclock
    obtain ⟨now, op⟩ := call
    cases op with
    | get key => exact (ih hcalls).get now key
    | set key v =>
      exact (ih hcalls).set hmax now key v fun call hcall => hlast call hcall _ (List.mem_singleton_self _)
    | clear => exact .clear now

/-- On a clock that has not gone back, a `get` returns what is held and fresh. -/
theorem Tracks.get_iff {calls : List (Call V)} (h : Tracks c calls)
    (hclock : ∀ call ∈ calls, PyFloat.le call.now now = true) :
    ((c.after calls).get now key).1 = some v ↔ ∃ t, Held c calls key t v ∧ Fresh c.ttlS t now := by
  rw [get_eq_some h.nodup]
  constructor
  · rintro ⟨e, hmem, hlt⟩
    obtain ⟨t, hheld, rfl⟩ := h.held key e v hmem
    exact ⟨t, hheld, hlt⟩
  · rintro ⟨t, hheld, hfresh⟩
    rcases h.kept key t v hheld with hmem | ⟨call, hcall, hlt⟩
    · exact ⟨_, hmem, hfresh⟩
    · -- found stale once, it is stale from then on
      have hstale := PyFloat.lt_of_lt_of_le hlt (hclock call hcall)
      rw [hfresh] at hstale
      cases hstale

/-- What is evicted is evicted from a full cache, and nothing in it expires sooner. -/
theorem Tracks.evicts {calls : List (Call V)} (h : Tracks c calls) {gone : Str}
    (hev : (c.after calls).evicted key = some gone) :
    (c.after calls).data.length = c.maxEntries ∧ ∃ e w, (gone, e, w) ∈ (c.after calls).data ∧
      ∀ x ∈ (c.after calls).data, PyFloat.lt x.2.1 e = false := by
  obtain ⟨-, hfull, e, w, rest, hdata, -⟩ := evicted_eq_some hev
  have hordered := h.ordered
  rw [hdata, List.pairwise_cons] at hordered
  refine ⟨?_, e, w, by rw [hdata]; exact List.mem_cons_self, fun x hx => ?_⟩
  · rw [(limits_after c calls).2] at hfull
    exact le_antisymm h.length hfull
  · rw [hdata] at hx
    rcases List.mem_cons.mp hx with rfl | hx
    · exact PyFloat.lt_self e
    · exact hordered.1 x hx

/-- A `set` drops what it evicts and no other key. -/
theorem mem_set_iff (hnodup : (c.data.map (·.1)).Nodup) {x : Str × PyFloat × V} (hx : x ∈ c.data)
    (hkey : x.1 ≠ key) : x ∈ (c.set now key v).data ↔ c.evicted key ≠ some x.1 := by
  change x ∈ others (c.makeRoom key) key ++ [_] ↔ _
  rw [List.mem_append, List.mem_singleton, mem_others, mem_makeRoom hnodup]
  constructor
  · rintro (⟨⟨-, hev⟩, -⟩ | rfl)
    · exact hev
    · exact absurd rfl hkey
  · exact fun hev => .inl ⟨⟨hx, hev⟩, hkey⟩

end TtlCache

/-! ## `cached_resolve` -/

namespace Wrapped

variable {V : Type} {isNone : V → Bool} {fn : Nat → Str → Result V} {s : Wrapped V}

/-- The calls recorded are calls of the function, and every entry is what one of them returned for the
key. -/
structure Faithful (fn : Nat → Str → Result V) (s : Wrapped V) : Prop where
  called : ∀ call ∈ s.called, ∃ n, call.2 = fn n call.1
  stored : ∀ x ∈ s.cache.data, (x.1, .ok x.2.2) ∈ s.called

theorem Faithful.get (h : Faithful fn s) (now : PyFloat) (key : Str) :
    Faithful fn { s with cache := (s.cache.get now key).2 } where
  called := h.called
  stored x hx := by
    rcases TtlCache.get_data s.cache now key with heq | ⟨e, v, -, -, heq⟩
    · exact h.stored x (by rw [← heq]; exact hx)
    · have hx' : x ∈ TtlCache.others s.cache.data key := by
        rw [← heq]
        exact hx
      exact h.stored x (TtlCache.mem_others.mp hx').1

/-- What `resolve` returns was returned for the key by a call of the function, now or before. -/
theorem Faithful.resolve (h : Faithful fn s) (now later : PyFloat) (key : Str) :
    Faithful fn (s.resolve isNone fn now later key).2 ∧
      ((key, (s.resolve isNone fn now later key).1) ∈ (s.resolve isNone fn now later key).2.called) := by
  have hget := h.get now key
  unfold Wrapped.resolve
  dsimp only
  cases hhit : (s.cache.get now key).1.filter fun v => !isNone v with
  | some v =>
    obtain ⟨e, hmem, -⟩ := TtlCache.mem_of_get (Option.filter_eq_some_iff.mp hhit).1
    exact ⟨hget, h.stored _ hmem⟩
  | none =>
    refine ⟨⟨fun call hcall => ?_, fun x hx => ?_⟩, List.mem_append_right _ (List.mem_singleton_self _)⟩
    · rcases List.mem_append.mp hcall with hcall | hcall
      · exact h.called call hcall
      · rw [List.mem_singleton.mp hcall]
        exact ⟨_, rfl⟩
    · dsimp only at hx ⊢
      cases hans : fn s.called.length key with
      | error err =>
        rw [hans] at hx
        exact List.mem_append_left _ (hget.stored x hx)
      | ok v =>
        rw [hans] at hx
        rcases List.mem_append.mp hx with hx | hx
        · have hdata := (TtlCache.makeRoom_sublist _ _).subset (TtlCache.mem_others.mp hx).1
          exact List.mem_append_left _ (hget.stored x hdata)
        · rw [List.mem_singleton.mp hx]
          exact List.mem_append_right _ (List.mem_singleton_self _)

theorem Faithful.after (h : Faithful fn s) (uses : List Use) : Faithful fn (s.after isNone fn uses) := by
  induction uses generalizing s with
  | nil => exact h
  | cons use uses ih =>
    refine ih ?_
    cases use with
    | resolve now later key => exact (h.resolve now later key).1
    | get now key => exact h.get now key
    | clear => exact ⟨h.called, fun x hx => absurd hx List.not_mem_nil⟩

end Wrapped

/-! ## The state machine -/

/-- A cache of at least one entry, over every sequence of operations on a clock that does not go back:
it never holds more entries than allowed; a `get` returns exactly what the last `set` of the key wrote,
when that is fresh and neither cleared nor evicted since; an eviction takes an entry from a full cache
that expires no later than any other, and nothing else makes a `set` drop another key. What
`cached_resolve` returns or stores for a key, the function returned for that key. Freshness is an age of
at most `ttl`, up to the rounding of the sum of two floats. -/
theorem ttlCache_spec {V : Type} (ttlS : PyFloat) (maxEntries : Nat) (hmax : 1 ≤ maxEntries) :
    (∀ calls : List (TtlCache.Call V), calls.Pairwise (fun a b => PyFloat.le a.now b.now = true) →
      let c : TtlCache V := { ttlS, maxEntries }
      (c.after calls).data.length ≤ maxEntries ∧
      (∀ now key v, (∀ call ∈ calls, PyFloat.le call.now now = true) →
        (((c.after calls).get now key).1 = some v ↔
          ∃ t, c.Held calls key t v ∧ TtlCache.Fresh ttlS t now)) ∧
      (∀ key gone, (c.after calls).evicted key = some gone →
        (c.after calls).data.length = maxEntries ∧ ∃ e w, (gone, e, w) ∈ (c.after calls).data ∧
          ∀ x ∈ (c.after calls).data, PyFloat.lt x.2.1 e = false) ∧
      (∀ now key v, ∀ x ∈ (c.after calls).data, x.1 ≠ key →
        (x ∈ ((c.after calls).set now key v).data ↔ (c.after calls).evicted key ≠ some x.1))) ∧
    (∀ (isNone : V → Bool) (fn : Nat → Str → Result V) (uses : List Wrapped.Use),
      let s := Wrapped.after isNone fn ⟨{ ttlS, maxEntries }, []⟩ uses
      (∀ call ∈ s.called, ∃ n, call.2 = fn n call.1) ∧
      (∀ x ∈ s.cache.data, (x.1, .ok x.2.2) ∈ s.called) ∧
      ∀ now later key v s', s.resolve isNone fn now later key = (.ok v, s') →
        (key, .ok v) ∈ s'.called) ∧
    ∀ ttl t now : Rat, PyFloat.IsDouble now →
      (now - t ≤ ttl → TtlCache.Fresh (.fin ttl) (.fin t) (.fin now)) ∧
        (PyFloat.IsDouble (t + ttl) →
          (TtlCache.Fresh (.fin ttl) (.fin t) (.fin now) ↔ now - t ≤ ttl)) := by
  refine ⟨?_, ?_, fun ttl t now hnow => TtlCache.fresh_iff hnow⟩
  · intro calls hclock c
    have h : c.Tracks calls := TtlCache.tracks rfl hmax hclock
    exact ⟨h.length, fun now key v hnow => h.get_iff hnow, fun key gone hev => h.evicts hev,
      fun now key v x hx hkey => TtlCache.mem_set_iff h.nodup hx hkey⟩
  · intro isNone fn uses s
    have h : s.Faithful fn :=
      Wrapped.Faithful.after ⟨fun call hcall => absurd hcall List.not_mem_nil,
        fun x hx => absurd hx List.not_mem_nil⟩ uses
    refine ⟨h.called, h.stored, fun now later key v s' hres => ?_⟩
    have hmem := (@Wrapped.Faithful.resolve V isNone fn s h now later key).2
    rw [hres] at hmem
    exact hmem

/-- A cache of one entry, written twice. -/
theorem ttlCache_spec_one_entry :
    let c : TtlCache Nat := { ttlS := .fin 10, maxEntries := 1 }
    let calls : List (TtlCache.Call Nat) := [⟨.fin 0, .set [97] 1⟩, ⟨.fin 5, .set [98] 2⟩]
    (c.after calls).data.length ≤ 1 ∧ ((c.after calls).get (.fin 6) [98]).1 = some 2 := by
  intro c calls
  have h := (ttlCache_spec (V := Nat) (.fin 10) 1 le_rfl).1 calls (by decide +kernel)
  have hfresh : TtlCache.Fresh (.fin 10) (.fin 5) (.fin 6) :=
    (TtlCache.fresh_iff (by decide +kernel)).1 (by norm_num)
  exact ⟨h.1, (h.2.1 _ _ _ (by decide +kernel)).mpr
    ⟨.fin 5, ⟨[⟨.fin 0, .set [97] 1⟩], [], rfl, trivial⟩, hfresh⟩⟩

end OpenVC
