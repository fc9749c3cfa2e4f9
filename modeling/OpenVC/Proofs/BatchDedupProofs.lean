import OpenVC.Logic.Fifo
import OpenVC.Proofs.VerifyManyProofs

/-!
# What a batch hands to its callables

The caches of a batch never expire but are bounded, and forget the oldest entry first. A key is
handed to its callable a second time exactly when it recurs after it was forgotten.
-/

namespace OpenVC.VerifyMany

open Python Pipeline Calling Fifo

variable {H : Host} {fn : (q : Lookup) → Result q.Answer}

/-! ## A cache without expiry -/

section Cache

variable {V : Type} {c : TtlCache V} {key : Str}

/-- The keys of a cache, the oldest write first. -/
def keys (c : TtlCache V) : List Str := c.data.map (·.1)

/-- A cache whose entries do not expire. -/
structure Everlasting (c : TtlCache V) : Prop where
  ttl : c.ttlS = .posInf
  expires : ∀ e ∈ c.data, e.2.1 = .posInf

theorem get_of_not_mem (now : PyFloat) (h : key ∉ keys c) : c.get now key = (none, c) := by
  rw [TtlCache.get, TtlCache.find_eq_none_iff.mpr h]

theorem get_of_mem (now : PyFloat) (hc : Everlasting c) (h : key ∈ keys c) :
    ∃ v, c.get now key = (some v, c) ∧ (key, .posInf, v) ∈ c.data := by
  cases hf : c.find key with
  | none => exact absurd h (TtlCache.find_eq_none_iff.mp hf)
  | some e =>
    obtain ⟨expires, v⟩ := e
    have hmem := TtlCache.mem_of_find hf
    obtain rfl : expires = .posInf := hc.expires _ hmem
    refine ⟨v, ?_, hmem⟩
    simp only [TtlCache.get, hf]
    cases now <;> rfl

theorem others_eq_self {data : List (Str × PyFloat × V)} (h : key ∉ data.map (·.1)) :
    TtlCache.others data key = data := by
  refine List.filter_eq_self.mpr fun e he => ?_
  have hne : e.1 ≠ key := fun heq => h (heq ▸ List.mem_map_of_mem he)
  simpa using hne

theorem set_of_not_mem (now : PyFloat) (h : key ∉ keys c) (v : V) :
    (c.set now key v).data =
      (if c.maxEntries ≤ c.data.length then c.data.tail else c.data) ++
        [(key, PyFloat.add now c.ttlS, v)] := by
  have hroom : c.makeRoom key =
      if c.maxEntries ≤ c.data.length then c.data.tail else c.data := by
    simp [TtlCache.makeRoom, TtlCache.find_eq_none_iff.mpr h]
  have hnot : key ∉ (c.makeRoom key).map (·.1) := by
    rw [hroom]
    split
    · intro hm
      rw [List.map_tail] at hm
      exact h (List.mem_of_mem_tail hm)
    · exact h
  rw [TtlCache.set, others_eq_self hnot, hroom]

end Cache

/-! ## A batch whose lookups succeed -/

/-- The keys looked up through a callable. -/
def keysOf (k : Callable) (l : List Lookup) : List Str :=
  (l.filter (·.callable == k)).map (·.key)

theorem keysOf_concat (k : Callable) (l : List Lookup) (q : Lookup) :
    keysOf k (l ++ [q]) = if q.callable = k then keysOf k l ++ [q.key] else keysOf k l := by
  rw [keysOf, List.filter_append, List.map_append]
  split
  · rename_i h
    rw [List.filter_cons_of_pos (by simpa using h)]
    rfl
  · rename_i h
    rw [List.filter_cons_of_neg (by simpa using h)]
    exact List.append_nil _

/-- Each cache is a bounded memo of the keys looked up through its callable. -/
structure Memoizes (l : List Lookup) (s : Batch) : Prop where
  everlasting : ∀ k, Everlasting (s.caches k)
  maxEntries : ∀ k, (s.caches k).maxEntries = 1024
  values : ∀ k, ∀ e ∈ (s.caches k).data, k.isNone e.2.2 = false
  keys_eq : ∀ k, keys (s.caches k) = recent 1024 (asked 1024 (keysOf k l))
  reached : ∀ k, keysOf k s.reached = asked 1024 (keysOf k l)

theorem memoizes_batchResolvers : Memoizes [] batchResolvers where
  everlasting _ := ⟨rfl, nofun⟩
  maxEntries _ := rfl
  values _ := nofun
  keys_eq _ := List.drop_nil.symm
  reached _ := rfl

/-- A key that is held changes nothing but the number of clock readings. -/
theorem memoizes_hit {l : List Lookup} {s : Batch} {q : Lookup} (h : Memoizes l s)
    (hk : q.key ∈ keys (s.caches q.callable)) :
    Memoizes (l ++ [q]) (s.withCache q.callable (s.caches q.callable)) := by
  have hcaches : ∀ k, (s.withCache q.callable (s.caches q.callable)).caches k = s.caches k := by
    intro k
    by_cases hkq : k = q.callable
    · subst hkq
      rw [caches_withCache_self]
    · rw [caches_withCache_of_ne hkq]
  have hasked : ∀ k, asked 1024 (keysOf k (l ++ [q])) = asked 1024 (keysOf k l) := by
    intro k
    rw [keysOf_concat]
    split
    · rename_i heq
      subst heq
      rw [asked_concat, enter, if_pos (h.keys_eq q.callable ▸ hk)]
    · rfl
  exact
    { everlasting := fun k => hcaches k ▸ h.everlasting k
      maxEntries := fun k => hcaches k ▸ h.maxEntries k
      values := fun k => hcaches k ▸ h.values k
      keys_eq := fun k => by rw [hcaches k, hasked k, h.keys_eq k]
      reached := fun k => by
        rw [hasked k]
        exact h.reached k }

/-- A key that is not held reaches its callable, and its value takes the place of the oldest. -/
theorem memoizes_miss {clock : Nat → Rat} {l : List Lookup} {s : Batch} {q : Lookup}
    (h : Memoizes l s) (hk : q.key ∉ keys (s.caches q.callable)) {n : Nat} {v : q.Answer}
    (hv : q.callable.isNone v = false) :
    Memoizes (l ++ [q])
      (Batch.set clock { s with readings := n, reached := s.reached ++ [q] } q v) := by
  have hadd : PyFloat.add (.fin (clock n)) (s.caches q.callable).ttlS = .posInf := by
    rw [(h.everlasting q.callable).ttl]
    rfl
  have hset := set_of_not_mem (.fin (clock n)) hk v
  rw [hadd, h.maxEntries] at hset
  have hold : ∀ e ∈ ((s.caches q.callable).set (.fin (clock n)) q.key v).data,
      e ∈ (s.caches q.callable).data ∨ e = (q.key, .posInf, v) := by
    intro e he
    rcases mem_set he with he | rfl
    · exact .inl he
    · exact .inr (by rw [hadd])
  have hlen : (s.caches q.callable).data.length =
      (recent 1024 (asked 1024 (keysOf q.callable l))).length := by
    rw [← h.keys_eq, keys, List.length_map]
  have hasked : asked 1024 (keysOf q.callable l ++ [q.key]) =
      asked 1024 (keysOf q.callable l) ++ [q.key] := by
    rw [asked_concat, enter, if_neg (h.keys_eq q.callable ▸ hk)]
  have hkeys : keys ((s.caches q.callable).set (.fin (clock n)) q.key v) =
      recent 1024 (asked 1024 (keysOf q.callable (l ++ [q]))) := by
    rw [keysOf_concat, if_pos rfl, hasked, recent_concat (by decide), ← h.keys_eq, keys, hset,
      List.map_append, keys, List.length_map, List.map_cons, List.map_nil]
    split
    · rw [List.map_tail]
    · rfl
  have hcache : ∀ k, k ≠ q.callable → (Batch.set clock
      { s with readings := n, reached := s.reached ++ [q] } q v).caches k = s.caches k :=
    fun k hne => caches_withCache_of_ne hne _ _
  have hself : (Batch.set clock { s with readings := n, reached := s.reached ++ [q] } q v).caches
      q.callable = (s.caches q.callable).set (.fin (clock n)) q.key v :=
    caches_withCache_self _ _ _
  constructor
  · intro k
    by_cases hkq : k = q.callable
    · subst hkq
      rw [hself]
      refine ⟨(h.everlasting q.callable).ttl, fun e he => ?_⟩
      rcases hold e he with he | rfl
      · exact (h.everlasting q.callable).expires e he
      · rfl
    · rw [hcache k hkq]
      exact h.everlasting k
  · intro k
    by_cases hkq : k = q.callable
    · subst hkq
      rw [hself]
      exact h.maxEntries q.callable
    · rw [hcache k hkq]
      exact h.maxEntries k
  · intro k
    by_cases hkq : k = q.callable
    · subst hkq
      rw [hself]
      intro e he
      rcases hold e he with he | rfl
      · exact h.values q.callable e he
      · exact hv
    · rw [hcache k hkq]
      exact h.values k
  · intro k
    by_cases hkq : k = q.callable
    · subst hkq
      rw [hself]
      exact hkeys
    · rw [hcache k hkq, h.keys_eq k, keysOf_concat, if_neg (Ne.symm hkq)]
  · intro k
    change keysOf k (s.reached ++ [q]) = _
    rw [keysOf_concat, keysOf_concat]
    split
    · rename_i heq
      subst heq
      rw [h.reached, hasked]
    · exact h.reached k

/-- A lookup is answered with a value. -/
def Succeeds (fn : (q : Lookup) → Result q.Answer) (q : Lookup) : Prop :=
  ∃ v, fn q = .ok v ∧ q.callable.isNone v = false

theorem memoizes_cachedResolve {clock : Nat → Rat} {l : List Lookup} {s : Batch} {q : Lookup}
    (h : Memoizes l s) (hq : Succeeds fn q) :
    Memoizes (l ++ [q]) (Batch.cachedResolve clock fn q s).2 := by
  by_cases hk : q.key ∈ keys (s.caches q.callable)
  · obtain ⟨v, hget, hmem⟩ := get_of_mem (.fin (clock s.readings))
      (h.everlasting q.callable) hk
    have hv := h.values q.callable _ hmem
    have hstep : (Batch.cachedResolve clock fn q s).2 =
        s.withCache q.callable (s.caches q.callable) := by
      simp only [Batch.cachedResolve, Batch.get, hget]
      rw [Option.filter_some, if_pos (by simpa using hv)]
    rw [hstep]
    exact memoizes_hit h hk
  · obtain ⟨v, hfn, hv⟩ := hq
    have hget := get_of_not_mem (.fin (clock s.readings)) hk
    have hstep : (Batch.cachedResolve clock fn q s).2 =
        Batch.set clock { s with
          caches := (s.withCache q.callable (s.caches q.callable)).caches
          readings := s.readings + 1
          reached := s.reached ++ [q] } q v := by
      simp only [Batch.cachedResolve, Batch.get, hget, Option.filter_none, Batch.miss, hfn]
      rfl
    have hcaches : (s.withCache q.callable (s.caches q.callable)).caches = s.caches :=
      Function.update_eq_self q.callable s.caches
    rw [hstep, hcaches]
    exact memoizes_miss h hk hv

theorem memoizes_after (clock : Nat → Rat) {l : List Lookup} (h : ∀ q ∈ l, Succeeds fn q) :
    Memoizes l (Calling.after (Batch.cachedResolve clock fn) batchResolvers l) := by
  induction l using List.reverseRecOn with
  | nil => exact memoizes_batchResolvers
  | append_singleton l q ih =>
    rw [after_append]
    refine memoizes_cachedResolve (ih fun q' hq' => h q' (List.mem_append_left _ hq')) ?_
    exact h q (List.mem_append_right _ List.mem_cons_self)

/-! ## Deduplication -/

theorem nodup_iff_keysOf (l : List Lookup) : l.Nodup ↔ ∀ k, (keysOf k l).Nodup := by
  constructor
  · intro h k
    refine (h.filter _).map_on fun q hq q' hq' hkey => ?_
    have hc := (List.mem_filter.mp hq).2
    have hc' := (List.mem_filter.mp hq').2
    simp only [beq_iff_eq] at hc hc'
    cases q
    cases q'
    simp_all
  · intro h
    induction l with
    | nil => exact List.nodup_nil
    | cons q l ih =>
      have htail : ∀ k, (keysOf k l).Nodup := fun k =>
        (h k).sublist (((List.sublist_cons_self q l).filter _).map _)
      refine List.nodup_cons.mpr ⟨fun hq => ?_, ih htail⟩
      have hself := h q.callable
      rw [keysOf, List.filter_cons_of_pos (by simp), List.map_cons, List.nodup_cons] at hself
      exact hself.1 (List.mem_map_of_mem (List.mem_filter.mpr ⟨hq, by simp⟩))

/-- What the items of a batch look up, one after another. -/
def lookups (S : Callables H) (policy : Policy) (credentials : List Json) : List Lookup :=
  (verifyItems S.given policy credentials).calls S.fn

theorem reached_nodup_iff (clock : Nat → Rat) (S : Callables H) (policy : Policy)
    (credentials : List Json) (h : ∀ q ∈ lookups S policy credentials, Succeeds S.fn q) :
    (verifyMany clock S policy credentials).2.reached.Nodup ↔
      ∀ k, NoneForgotten 1024 (keysOf k (lookups S policy credentials)) := by
  have hm := memoizes_after clock h
  rw [verifyMany_eq, nodup_iff_keysOf]
  refine forall_congr' fun k => ?_
  rw [← nodup_asked_iff]
  exact iff_of_eq (congrArg List.Nodup (hm.reached k))

/-- In a batch whose lookups are all answered with a value, each DID or URL is handed to its callable
at most once iff none recurs after 1024 others were first looked up through the same callable. -/
theorem verifyMany_resolves_once_iff (H : Host) (clock : Nat → Rat) (S : Callables H)
    (policy : Policy) (credentials : List Json)
    (h : ∀ q ∈ lookups S policy credentials, Succeeds S.fn q) :
    (∀ q, (verifyMany clock S policy credentials).2.reached.count q ≤ 1) ↔
      ∀ k, NoneForgotten 1024 (keysOf k (lookups S policy credentials)) := by
  rw [← List.nodup_iff_count_le_one]
  exact reached_nodup_iff clock S policy credentials h

/-! ## A batch that outgrows its cache -/

/-- A DID for each number. -/
def strayDid (n : Nat) : Str := lit "did:ex:" ++ [0x4E00 + n]

/-- A document whose proof names a key of that DID. -/
def stray (n : Nat) : Json :=
  .obj [("type", .arr []), ("proof", .obj [("type", .str "DataIntegrityProof"),
    ("cryptosuite", .str "eddsa-jcs-2022"), ("proofValue", .str "z1"),
    ("verificationMethod", .str (strayDid n ++ lit "#k"))])]

/-- Callables that answer everything; the DID documents hold no keys. -/
def strayCallables : Callables (cardHost 1800000000) where
  resolver := ⟨none, fun did => .ok (.document ⟨did, [], [], []⟩)⟩
  statusList := some fun _ => .ok (.obj [])
  statusListToken := some fun _ => .ok (.obj [])
  credentialSchema := some fun _ => .ok (.bytes [])
  jwtVcIssuerFetch := some fun _ => .ok (.obj [])
  x5cTrustAnchors := none

theorem succeeds_stray (q : Lookup) : Succeeds strayCallables.fn q := by
  obtain ⟨k, key⟩ := q
  cases k <;> exact ⟨_, rfl, rfl⟩

theorem beforeFirst_strayDid (n : Nat) :
    Str.beforeFirst 35 (strayDid n ++ lit "#k") = strayDid n := by
  have hne : ∀ c ∈ strayDid n, (c != 35) = true := by
    intro c hc
    rcases List.mem_append.mp hc with hc | hc
    · have hlit : ∀ c ∈ lit "did:ex:", (c != 35) = true := by decide
      exact hlit c hc
    · obtain rfl := List.mem_singleton.mp hc
      simp only [bne_iff_ne]
      omega
  rw [Str.beforeFirst, List.takeWhile_append_of_pos hne]
  exact List.append_nil _

theorem strayDid_injective : Function.Injective strayDid := by
  intro m n h
  have hc := List.singleton_inj.mp (List.append_cancel_left h)
  omega

/-- The DID of a document is looked up; the key is not found. -/
theorem calls_stray (n : Nat) (out : List BatchResult) (index : Nat) :
    (verifyItem strayCallables.given {} out (stray n, index)).calls strayCallables.fn =
      [⟨.resolver, strayDid n⟩] := by
  conv_rhs => rw [← beforeFirst_strayDid n]
  rfl

theorem eval_stray (n : Nat) (out : List BatchResult) (index : Nat) :
    ∃ r, (verifyItem strayCallables.given {} out (stray n, index)).eval strayCallables.fn =
      .ok (out ++ [r]) := ⟨_, rfl⟩

theorem calls_strays (l : List (Nat × Nat)) (out : List BatchResult) :
    (forEach (verifyItem strayCallables.given {}) out (l.map (Prod.map stray id))).calls
        strayCallables.fn =
      l.map fun p => ⟨.resolver, strayDid p.1⟩ := by
  induction l generalizing out with
  | nil => rfl
  | cons p l ih =>
    obtain ⟨n, index⟩ := p
    obtain ⟨r, hr⟩ := eval_stray n out index
    change (verifyItem strayCallables.given {} out (stray n, index) >>= _).calls _ = _
    rw [calls_bind, calls_stray, hr]
    exact congrArg (_ :: ·) (ih _)

theorem lookups_strays (l : List Nat) :
    lookups strayCallables {} (l.map stray) = l.map fun n => ⟨.resolver, strayDid n⟩ := by
  have hfst : ∀ l : List (Nat × Nat), (l.map fun p => (⟨.resolver, strayDid p.1⟩ : Lookup)) =
      (l.map Prod.fst).map fun n => ⟨.resolver, strayDid n⟩ := fun l => by rw [List.map_map]; rfl
  rw [lookups, verifyItems, List.zipIdx_map, calls_strays, hfst, List.zipIdx_map_fst]

theorem keysOf_strays (l : List Nat) :
    keysOf .resolver (lookups strayCallables {} (l.map stray)) = l.map strayDid := by
  rw [lookups_strays, keysOf, List.filter_eq_self.mpr fun q hq => ?_, List.map_map]
  · rfl
  · obtain ⟨p, -, rfl⟩ := List.mem_map.mp hq
    rfl

/-- A batch of 1025 documents, and the first of them again. -/
def strayBatch : List Json := (List.range 1025 ++ [0]).map stray

/-- The first document's DID is handed to the resolver twice. -/
theorem verifyMany_resolves_twice :
    (∀ q, Succeeds strayCallables.fn q) ∧
      ¬ ∀ q, (verifyMany (fun _ => 0) strayCallables {} strayBatch).2.reached.count q ≤ 1 := by
  refine ⟨succeeds_stray, fun h => ?_⟩
  rw [← List.nodup_iff_count_le_one,
    reached_nodup_iff _ _ _ _ fun q _ => succeeds_stray q] at h
  have hrange : ((List.range 1025).map strayDid).Nodup :=
    List.nodup_range.map strayDid_injective
  have hkeys : keysOf .resolver (lookups strayCallables {} strayBatch) =
      (List.range 1025).map strayDid ++ strayDid 0 :: [] := by
    rw [strayBatch, keysOf_strays, List.map_append, List.map_singleton]
  have hmem := h .resolver ((List.range 1025).map strayDid) (strayDid 0) [] hkeys
    (List.mem_map_of_mem (List.mem_range.mpr (by omega)))
  rw [firsts_of_nodup hrange, recent, List.length_map, List.length_range, ← List.map_drop,
    List.mem_map] at hmem
  obtain ⟨n, hn, heq⟩ := hmem
  obtain rfl := strayDid_injective heq
  -- the 1024 DIDs after it were cached since
  rw [List.range_eq_range', List.drop_range', List.mem_range'] at hn
  obtain ⟨i, -, hi⟩ := hn
  omega

/-- The DID of a document that occurs twice is looked up once. -/
theorem verifyMany_resolves_once_twin :
    (verifyMany (fun _ => 0) strayCallables {} ([7, 7].map stray)).2.reached.count
      ⟨.resolver, strayDid 7⟩ ≤ 1 := by
  refine (verifyMany_resolves_once_iff _ _ strayCallables {} _ fun q _ => succeeds_stray q).mpr
    (fun k => ?_) _
  rw [lookups_strays, ← nodup_asked_iff]
  cases k <;> decide +kernel

end OpenVC.VerifyMany
