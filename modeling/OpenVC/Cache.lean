import OpenVC.Pipeline
import OpenVC.Python.Calling

/-!
# Caches of the resolution paths (`openvc.cache`)

A `TtlCache` is bounded and forgets the oldest write first. A batch wraps each callable of the
pipeline in one that does not expire.
-/

namespace OpenVC

open Python

/-! ## The cache -/

/-- A `TtlCache`: the entries of its `OrderedDict`, the oldest write first, with their expiry. -/
structure TtlCache (V : Type) where
  ttlS : PyFloat
  maxEntries : Nat := 1024
  data : List (Str × PyFloat × V) := []

namespace TtlCache

variable {V : Type}

/-- `self._data.get(key)`. -/
def find (c : TtlCache V) (key : Str) : Option (PyFloat × V) :=
  (c.data.find? (·.1 == key)).map (·.2)

/-- The entries but that of a key. -/
def others (data : List (Str × PyFloat × V)) (key : Str) : List (Str × PyFloat × V) :=
  data.filter (·.1 != key)

/-- `get(key)`, at a reading of the clock. -/
def get (c : TtlCache V) (now : PyFloat) (key : Str) : Option V × TtlCache V :=
  match c.find key with
  | none => (none, c)
  | some (expires, value) =>
    if PyFloat.lt expires now then (none, { c with data := others c.data key })
    else (some value, c)

/-- The entries after the eviction of `set(key, …)`. -/
def makeRoom (c : TtlCache V) (key : Str) : List (Str × PyFloat × V) :=
  if (c.find key).isNone && c.maxEntries ≤ c.data.length then c.data.tail else c.data

/-- `set(key, value)`, at a reading of the clock. -/
def set (c : TtlCache V) (now : PyFloat) (key : Str) (value : V) : TtlCache V :=
  { c with data := others (c.makeRoom key) key ++ [(key, PyFloat.add now c.ttlS, value)] }

end TtlCache

/-! ## The callables of a batch -/

/-- The callables that `batch_resolvers` wraps. -/
inductive Callable where
  | resolver
  | statusList
  | statusListToken
  | credentialSchema
  | jwtVcIssuerFetch
  deriving DecidableEq

/-- What a callable returns. -/
def Callable.Answer : Callable → Type
  | .resolver => Did.Resolved
  | .statusList | .statusListToken | .jwtVcIssuerFetch => Json
  | .credentialSchema => Schema.Fetched

/-- Whether a value is `None`. -/
def Callable.isNone : (k : Callable) → k.Answer → Bool
  | .resolver, (.none : Did.Resolved) => true
  | .resolver, _ => false
  | .statusList, v => Json.isNull v
  | .statusListToken, v => Json.isNull v
  | .jwtVcIssuerFetch, v => Json.isNull v
  | .credentialSchema, (.other type : Schema.Fetched) => type == lit "NoneType"
  | .credentialSchema, _ => false

/-- A call of a callable with a DID or a URL. -/
structure Lookup where
  callable : Callable
  key : Str
  deriving DecidableEq

/-- What a lookup returns. -/
abbrev Lookup.Answer (q : Lookup) : Type := q.callable.Answer

/-- The shared state of a batch: the caches, the number of clock readings taken, and the lookups that
reached the callables. -/
structure Batch where
  caches : (k : Callable) → TtlCache k.Answer
  readings : Nat
  reached : List Lookup

/-- `_BATCH_TTL_S`. -/
def batchTtlS : PyFloat := .posInf

/-- `batch_resolvers(resolver, …)`: the caches of a new batch. -/
def batchResolvers : Batch := ⟨fun _ => { ttlS := batchTtlS }, 0, []⟩

namespace Batch

/-- The batch with another cache of one callable, and one more clock reading. -/
def withCache (s : Batch) (k : Callable) (cache : TtlCache k.Answer) : Batch :=
  { s with caches := Function.update s.caches k cache, readings := s.readings + 1 }

/-- `c.get(key)`. -/
def get (clock : Nat → Rat) (s : Batch) (q : Lookup) : Option q.Answer × Batch :=
  let (hit, cache) := (s.caches q.callable).get (.fin (clock s.readings)) q.key
  (hit, s.withCache q.callable cache)

/-- `c.set(key, value)`. -/
def set (clock : Nat → Rat) (s : Batch) (q : Lookup) (value : q.Answer) : Batch :=
  s.withCache q.callable ((s.caches q.callable).set (.fin (clock s.readings)) q.key value)

/-- A lookup that the cache does not answer. -/
def miss (clock : Nat → Rat) (fn : (q : Lookup) → Result q.Answer) (q : Lookup) (s : Batch) :
    Result q.Answer × Batch :=
  let s := { s with reached := s.reached ++ [q] }
  match fn q with
  | .error e => (.error e, s)
  | .ok value => (.ok value, s.set clock q value)

/-- `cached_resolve(fn, cache)(key)`. -/
def cachedResolve (clock : Nat → Rat) (fn : (q : Lookup) → Result q.Answer) (q : Lookup)
    (s : Batch) : Result q.Answer × Batch :=
  let (hit, s) := s.get clock q
  match hit.filter fun v => !q.callable.isNone v with
  | some value => (.ok value, s)
  | none => s.miss clock fn q

end Batch

end OpenVC

/-!
## Operations on a cache in sequence (`openvc.cache`)

Each operation of a `TtlCache` reads the clock at most once; a sequence of them is given by the readings.
`cached_resolve` calls a function that may answer differently each time.
-/

namespace OpenVC

open Python

namespace TtlCache

variable {V : Type}

/-- `clear()`. -/
def clear (c : TtlCache V) : TtlCache V := { c with data := [] }

/-- The key that `set(key, …)` evicts. -/
def evicted (c : TtlCache V) (key : Str) : Option Str :=
  if (c.find key).isNone && c.maxEntries ≤ c.data.length then c.data.head?.map (·.1) else none

/-- An operation. -/
inductive Op (V : Type) where
  | get (key : Str)
  | set (key : Str) (value : V)
  | clear

/-- An operation with the time at which it is made. -/
structure Call (V : Type) where
  now : PyFloat
  op : Op V

/-- The cache after an operation. -/
def step (c : TtlCache V) (call : Call V) : TtlCache V :=
  match call.op with
  | .get key => (c.get call.now key).2
  | .set key value => c.set call.now key value
  | .clear => c.clear

/-- The cache after a sequence of operations. -/
def after (c : TtlCache V) (calls : List (Call V)) : TtlCache V := calls.foldl step c

/-- Whether an operation writes, clears or evicts a key. -/
def Disturbs (c : TtlCache V) (key : Str) (call : Call V) : Prop :=
  match call.op with
  | .get _ => False
  | .set written _ => written = key ∨ c.evicted written = some key
  | .clear => True

/-- No operation of a sequence writes, clears or evicts a key. -/
def Undisturbed (key : Str) : TtlCache V → List (Call V) → Prop
  | _, [] => True
  | c, call :: calls => ¬ c.Disturbs key call ∧ Undisturbed key (c.step call) calls

/-- The last `set` of a key wrote the value at `t`, and nothing has cleared or evicted it since. -/
def Held (c : TtlCache V) (calls : List (Call V)) (key : Str) (t : PyFloat) (value : V) : Prop :=
  ∃ before since, calls = before ++ ⟨t, .set key value⟩ :: since ∧
    Undisturbed key (c.after (before ++ [⟨t, .set key value⟩])) since

/-- What was written at `t` is not older than `ttl`: the clock is not past the sum. -/
def Fresh (ttl t now : PyFloat) : Prop := PyFloat.lt (PyFloat.add t ttl) now = false

end TtlCache

/-! ## `cached_resolve` -/

/-- A wrapped callable: its cache, and the calls that reached it with what they came to. -/
structure Wrapped (V : Type) where
  cache : TtlCache V
  called : List (Str × Result V) := []

namespace Wrapped

variable {V : Type}

/-- The cache after a call that was not answered from it; an exception is not stored. -/
def store (cache : TtlCache V) (now : PyFloat) (key : Str) : Result V → TtlCache V
  | .ok value => cache.set now key value
  | .error _ => cache

/-- `cached_resolve(fn, cache)(key)`, where `fn n` is the `n`-th call of the function and the clock is
read at most twice. -/
def resolve (isNone : V → Bool) (fn : Nat → Str → Result V) (s : Wrapped V) (now later : PyFloat)
    (key : Str) : Result V × Wrapped V :=
  let (hit, cache) := s.cache.get now key
  match hit.filter fun v => !isNone v with
  | some value => (.ok value, { s with cache })
  | none =>
    let answer := fn s.called.length key
    (answer, ⟨store cache later key answer, s.called ++ [(key, answer)]⟩)

/-- A use of the wrapper, or of its cache by another who does not write to it. -/
inductive Use where
  | resolve (now later : PyFloat) (key : Str)
  | get (now : PyFloat) (key : Str)
  | clear

/-- The wrapper after a use. -/
def step (isNone : V → Bool) (fn : Nat → Str → Result V) (s : Wrapped V) : Use → Wrapped V
  | .resolve now later key => (s.resolve isNone fn now later key).2
  | .get now key => { s with cache := (s.cache.get now key).2 }
  | .clear => { s with cache := s.cache.clear }

/-- The wrapper after a sequence of uses. -/
def after (isNone : V → Bool) (fn : Nat → Str → Result V) (s : Wrapped V) (uses : List Use) :
    Wrapped V := uses.foldl (step isNone fn) s

end Wrapped

end OpenVC
