import OpenVC.Ebsi.Nodes
import OpenVC.Ebsi.Proofs.OpenPgpProofs
import OpenVC.Python.Hashlib

/-!
# Proofs: what a verified node list rests on

The key list is signed by the anchor, as many distinct custodians of it as its threshold asks for
signed the node list, and the nodes are those the signed bytes list.
-/

namespace OpenVC.Nodes

open Python OpenPgp

/-! ## Values -/

theorem int?_eq_some {v : Json} {n : Int} : v.int? = some n ↔ v = .int n := by
  cases v <;> simp [Json.int?]

theorem Accepted.init_eq_ok {version : Int} {sha256 : Str} {a : Accepted}
    (h : Accepted.init version sha256 = .ok a) : a.version = version ∧ a.sha256 = sha256 := by
  unfold Accepted.init at h
  split at h
  next =>
    split at h
    · cases h; exact ⟨rfl, rfl⟩
    · cases h
  next => cases h

theorem readVersion_eq_ok {value : Json} {what : Str} {n : Int}
    (h : readVersion value what = .ok n) : value = .int n := by
  rw [readVersion, orRaise_eq_ok] at h
  exact int?_eq_some.mp (Option.filter_eq_some_iff.mp h).1

/-- What `_check_pair` lets through. -/
structure PairOk (version : Int) (digest : Str) (floor : Int) (last : Option Accepted) : Prop where
  floor_le : floor ≤ version
  last_le : ∀ a ∈ last, a.version ≤ version
  same : ∀ a ∈ last, a.version = version → a.sha256 = digest

theorem checkPair_eq_ok {what digest : Str} {version floor : Int} {last : Option Accepted} {u : Unit}
    (h : checkPair what version digest floor last = .ok u) : PairOk version digest floor last := by
  simp only [checkPair, bind_eq_ok, raiseIf_eq_ok] at h
  obtain ⟨⟨⟩, hfloor, ⟨⟩, hlower, hsame⟩ := h
  cases last with
  | none => exact ⟨by simpa using hfloor, by simp, by simp⟩
  | some a =>
    simp only [Option.any_some, decide_eq_false_iff_not, not_lt] at hfloor hlower
    refine ⟨hfloor, by simpa using hlower, ?_⟩
    rintro b hb heq
    cases hb
    rw [Option.any_some, Bool.and_eq_false_iff] at hsame
    rcases hsame with hne | heq'
    · have hne : version ≠ a.version := by simpa using hne
      exact absurd heq.symm hne
    · have hdigest : digest = a.sha256 := by simpa using heq'
      exact hdigest.symm

/-! ## The key list -/

/-- An entry of the key list and the key it lists: the fingerprint in the entry is the one
recomputed from the key packet of its armored block. -/
def ListsCustodian (P : Primitives) (entry : Json) (key : PublicKey) : Prop :=
  ∃ m : Dict, entry = .obj m ∧ m.get "fingerprint" = .str key.fingerprint ∧
    KeyOfBlock P (m.get "publicKey") key

/-- An entry of the key list as `_parse_key_list` reads it. -/
def EntryOf (entry : Json) (custodian : Custodian) : Prop :=
  ∃ m : Dict, entry = .obj m ∧ m.get "fingerprint" = .str custodian.fingerprint ∧
    m.get "publicKey" = custodian.armor

theorem readCustodian_eq_ok {i : Nat} {entry : Json} {custodian : Custodian}
    (h : readCustodian i entry = .ok custodian) : EntryOf entry custodian := by
  simp only [readCustodian, bind_eq_ok, orRaise_eq_ok, pure_eq_ok, Json.obj?_eq_some] at h
  obtain ⟨m, rfl, ⟨⟩, _, fingerprint, hf, rfl⟩ := h
  exact ⟨m, rfl, Json.str?_eq_some.mp (Option.filter_eq_some_iff.mp hf).1, rfl⟩

/-- What a loop over `enumerate(l)` collected, element by element. -/
theorem forall₂_of_enumerated {α β : Type} {R : α → β → Prop} {l : List α} {m : List β}
    (h : List.Forall₂ (fun (p : Nat × α) b => R p.2 b) ((List.range l.length).zip l) m) :
    List.Forall₂ R l m := by
  have hmap : ((List.range l.length).zip l).map Prod.snd = l :=
    List.map_snd_zip (by simp)
  have := List.forall₂_map_left_iff (R := R) (f := Prod.snd) |>.mpr h
  rwa [hmap] at this

theorem parseKeyList_eq_ok {raw : Bytes} {keyList : KeyList} (h : parseKeyList raw = .ok keyList) :
    ∃ doc entries, loadObject raw "trusted-keys.json" = .ok doc ∧
      doc.get "version" = .int keyList.version ∧ doc.get "threshold" = .int keyList.threshold ∧
      doc.get "keys" = .arr entries ∧ List.Forall₂ EntryOf entries keyList.custodians := by
  simp only [parseKeyList, bind_eq_ok, orRaise_eq_ok, pure_eq_ok] at h
  obtain ⟨doc, hdoc, ⟨⟩, _, version, hversion, threshold, hthreshold, entries, hentries, custodians,
    hcustodians, rfl⟩ := h
  refine ⟨doc, entries, hdoc, readVersion_eq_ok hversion, int?_eq_some.mp hthreshold,
    Json.arr?_eq_some.mp (Option.filter_eq_some_iff.mp hentries).1, forall₂_of_enumerated ?_⟩
  exact (collect_eq_ok.mp hcustodians).imp fun _ _ => readCustodian_eq_ok

/-- The keys `_read_custodians` has read for the custodians of `done`. -/
structure ReadKeys (P : Primitives) (done : List Custodian) (keys : List PublicKey) : Prop where
  fingerprints : (keys.map PublicKey.fingerprint).Nodup
  points : (keys.map PublicKey.point).Nodup
  listed : List.Forall₂ (fun c k => k.fingerprint = c.fingerprint ∧ KeyOfBlock P c.armor k) done keys

theorem ReadKeys.snoc {P : Primitives} {done : List Custodian} {keys : List PublicKey}
    {custodian : Custodian} {key : PublicKey} (h : ReadKeys P done keys)
    (hblock : KeyOfBlock P custodian.armor key) (hlisted : key.fingerprint = custodian.fingerprint)
    (hfp : key.fingerprint ∉ keys.map PublicKey.fingerprint)
    (hpoint : key.point ∉ keys.map PublicKey.point) :
    ReadKeys P (done ++ [custodian]) (keys ++ [key]) where
  fingerprints := by
    rw [List.map_append, List.nodup_append]
    refine ⟨h.fingerprints, List.nodup_singleton _, fun f hf g hg => ?_⟩
    rw [List.map_singleton, List.mem_singleton] at hg
    exact fun heq => hfp (hg ▸ heq ▸ hf)
  points := by
    rw [List.map_append, List.nodup_append]
    refine ⟨h.points, List.nodup_singleton _, fun f hf g hg => ?_⟩
    rw [List.map_singleton, List.mem_singleton] at hg
    exact fun heq => hpoint (hg ▸ heq ▸ hf)
  listed := List.rel_append h.listed (.cons ⟨hlisted, hblock⟩ .nil)

theorem readCustodianKey_step {P : Primitives} {done : List Custodian} {keys : List PublicKey}
    {i : Nat} {custodian : Custodian} {allowed : Allowed} (hkeys : ReadKeys P done keys)
    (h : readCustodianKey P (AllowedByFingerprint keys) i custodian = .ok allowed) :
    ∃ key, allowed = AllowedByFingerprint (keys ++ [key]) ∧
      ReadKeys P (done ++ [custodian]) (keys ++ [key]) := by
  simp only [readCustodianKey, bind_eq_ok, raiseIf_eq_ok, pure_eq_ok] at h
  obtain ⟨key, hkey, ⟨⟩, hlisted, ⟨⟩, hnew, rfl⟩ := h
  have hfps : (AllowedByFingerprint keys).map Prod.fst = keys.map PublicKey.fingerprint := by
    simp [AllowedByFingerprint, Function.comp_def]
  have hpts : ((AllowedByFingerprint keys).map fun p => p.2.point) = keys.map PublicKey.point := by
    simp [AllowedByFingerprint, Function.comp_def]
  rw [hfps, hpts, Bool.or_eq_false_iff] at hnew
  refine ⟨key, by simp [AllowedByFingerprint], ?_⟩
  refine hkeys.snoc (readPublicKeyBlock_eq_ok hkey) (by simpa using hlisted) ?_ ?_
  · simpa using hnew.1
  · simpa using hnew.2

theorem readCustodians_eq_ok {P : Primitives} {custodians : List Custodian} {allowed : Allowed}
    (h : readCustodians P custodians = .ok allowed) :
    ∃ keys, allowed = AllowedByFingerprint keys ∧ ReadKeys P custodians keys := by
  refine enumerateLoop_preserves
    (fun done st => ∃ keys, st = AllowedByFingerprint keys ∧ ReadKeys P done keys)
    ⟨[], rfl, List.nodup_nil, List.nodup_nil, .nil⟩ h ?_
  rintro done st custodian st' ⟨keys, rfl, hkeys⟩ hstep
  obtain ⟨key, hst, hkeys'⟩ := readCustodianKey_step hkeys hstep
  exact ⟨keys ++ [key], hst, hkeys'⟩

theorem listsCustodian_of_read {P : Primitives} {entries : List Json} {custodians : List Custodian}
    {keys : List PublicKey} (hentries : List.Forall₂ EntryOf entries custodians)
    (hkeys : List.Forall₂ (fun c k => k.fingerprint = c.fingerprint ∧ KeyOfBlock P c.armor k)
      custodians keys) : List.Forall₂ (ListsCustodian P) entries keys := by
  induction hentries generalizing keys with
  | nil => cases hkeys; exact .nil
  | cons hentry _ ih =>
    cases hkeys with
    | cons hkey hrest =>
      obtain ⟨m, rfl, hfp, harmor⟩ := hentry
      exact .cons ⟨m, rfl, hkey.1 ▸ hfp, harmor ▸ hkey.2⟩ (ih hrest)

/-! ## The node list -/

/-- The address an entry of an environment gives. -/
def urlOf (entry : Json) : Option Str := entry.obj?.bind fun m => (m.get "url").str?

/-- The addresses listed for an environment. -/
def listedOrigins (envs : Dict) (environment : Str) : List Str :=
  match envs.get? environment with
  | some (.arr entries) => entries.filterMap urlOf
  | _ => []

/-- An entry of an environment and the node it lists. -/
structure ListsNode (environment : Str) (entry : Json) (node : Node) : Prop where
  entry : ∃ m : Dict, entry = .obj m ∧ m.get "url" = .str node.origin ∧
    m.get "country" = .str node.country ∧ m.get "organisation" = .str node.organisation
  host : node.host = node.origin.drop 8
  bare : isBareOrigin node.origin = true
  start : ∃ start, originStart environment = some start ∧ node.origin.startsWith start = true

theorem checkNodeOrigin_eq_ok {url : Json} {environment what origin : Str}
    (h : checkNodeOrigin url environment what = .ok origin) :
    url = .str origin ∧ isBareOrigin origin = true ∧
      ∃ start, originStart environment = some start ∧ origin.startsWith start = true := by
  simp only [checkNodeOrigin, bind_eq_ok, orRaise_eq_ok, raiseIf_eq_ok, pure_eq_ok] at h
  obtain ⟨start, hstart, o, ho, ⟨⟩, hstarts, ⟨⟩, _, rfl⟩ := h
  obtain ⟨hurl, hbare⟩ := Option.filter_eq_some_iff.mp ho
  exact ⟨Json.str?_eq_some.mp hurl, hbare, start, hstart, by simpa using hstarts⟩

theorem readNode_eq_ok {entry : Json} {environment what : Str} {seen : List Str} {node : Node}
    (h : readNode entry environment seen what = .ok node) :
    ListsNode environment entry node ∧ node.origin ∉ seen := by
  simp only [readNode, bind_eq_ok, orRaise_eq_ok, raiseIf_eq_ok, pure_eq_ok, Json.obj?_eq_some,
    Json.str?_eq_some] at h
  obtain ⟨m, rfl, ⟨⟩, _, url, hurl, ⟨⟩, hseen, country, hcountry, organisation, horg, ⟨⟩, _, ⟨⟩, _,
    rfl⟩ := h
  obtain ⟨hget, hbare, hstart⟩ := checkNodeOrigin_eq_ok hurl
  have hc := Json.str?_eq_some.mp (Option.filter_eq_some_iff.mp hcountry).1
  exact ⟨⟨⟨m, rfl, hget, hc, horg⟩, rfl, hbare, hstart⟩, by simpa using hseen⟩

theorem ListsNode.urlOf {environment : Str} {entry : Json} {node : Node}
    (h : ListsNode environment entry node) : urlOf entry = some node.origin := by
  obtain ⟨m, rfl, hurl, _⟩ := h.entry
  simp [Nodes.urlOf, Json.obj?, hurl, Json.str?]

/-- The entries of an environment are read one node each, no address twice. -/
theorem readEntries_eq_ok {environment : Str} {seen : List Str} {entries : List Json}
    {reading : Reading} (hseen : seen.Nodup)
    (h : enumerateLoop (readEntry environment) ⟨seen, []⟩ 0 entries = .ok reading) :
    reading.seen.Nodup ∧ reading.seen = seen ++ entries.filterMap urlOf ∧
      List.Forall₂ (ListsNode environment) entries reading.nodes := by
  refine enumerateLoop_preserves (fun done st => st.seen.Nodup ∧
    st.seen = seen ++ done.filterMap urlOf ∧ List.Forall₂ (ListsNode environment) done st.nodes)
    ⟨hseen, by simp, .nil⟩ h ?_
  rintro done st entry st' ⟨hnodup, heq, hnodes⟩ hstep
  simp only [readEntry, bind_eq_ok, pure_eq_ok] at hstep
  obtain ⟨node, hnode, rfl⟩ := hstep
  obtain ⟨hlists, hnew⟩ := readNode_eq_ok hnode
  refine ⟨?_, ?_, List.rel_append hnodes (.cons hlists .nil)⟩
  · exact List.Nodup.append hnodup (List.nodup_singleton _) (by simpa using hnew)
  · simp [heq, hlists.urlOf]

/-- What the loop over the environments has read. -/
structure ReadEnvironments (envs : Dict) (done : List Str) (st : Parsed) : Prop where
  nodup : st.seen.Nodup
  seen : st.seen = done.flatMap (listedOrigins envs)
  nodes : ∀ environment nodes, st.nodes.lookup environment = some nodes →
    ∃ entries, envs.get? environment = some (.arr entries) ∧
      List.Forall₂ (ListsNode environment) entries nodes

theorem readEnvironment_step {envs : Dict} {done : List Str} {st st' : Parsed} {environment : Str}
    (hst : ReadEnvironments envs done st) (h : readEnvironment envs st environment = .ok st') :
    ReadEnvironments envs (done ++ [environment]) st' := by
  unfold readEnvironment at h
  cases hget : envs.get? environment with
  | none =>
    rw [hget] at h
    cases h
    exact ⟨hst.nodup, by simp [hst.seen, listedOrigins, hget], hst.nodes⟩
  | some entries =>
    rw [hget] at h
    simp only [bind_eq_ok, orRaise_eq_ok, raiseIf_eq_ok, pure_eq_ok] at h
    obtain ⟨l, hl, ⟨⟩, _, reading, hreading, rfl⟩ := h
    obtain rfl := Json.arr?_eq_some.mp (Option.filter_eq_some_iff.mp hl).1
    obtain ⟨hnodup, hseen, hnodes⟩ := readEntries_eq_ok hst.nodup hreading
    refine ⟨hnodup, by simp [hseen, hst.seen, listedOrigins, hget], ?_⟩
    intro e nodes hlookup
    rw [List.lookup_append, Option.or_eq_some_iff] at hlookup
    rcases hlookup with hbefore | ⟨_, hnew⟩
    · exact hst.nodes e nodes hbefore
    · rw [List.lookup_cons] at hnew
      split at hnew
      · next heq =>
        cases hnew
        rw [eq_of_beq heq]
        exact ⟨l, hget, hnodes⟩
      · cases hnew

/-- What the node list says, and that the result is read from it. -/
structure ListRead (raw : Bytes) (list : Dict) (envs : Dict) (document : Document) : Prop where
  loaded : loadObject raw "tnl.json" = .ok list
  version : list.get "version" = .int document.version
  keysVersion : list.get "keysVersion" = .int document.keysVersion
  issued : readInstant (list.get "issued") "tnl.json issued" = .ok document.issued
  expires : readInstant (list.get "expires") "tnl.json expires" = .ok document.expires
  validity : document.issued < document.expires ∧ document.expires - document.issued ≤ maxValidity
  environments : list.get "environments" = .obj envs
  known : ∀ environment ∈ envs.keys, environment ∈ Nodes.environments
  distinct : (Nodes.environments.flatMap (listedOrigins envs)).Nodup
  nodes : ∀ environment nodes, document.environments.lookup environment = some nodes →
    ∃ entries, envs.get? environment = some (.arr entries) ∧
      List.Forall₂ (ListsNode environment) entries nodes

theorem parseList_eq_ok {raw : Bytes} {document : Document} (h : parseList raw = .ok document) :
    ∃ list envs, ListRead raw list envs document := by
  simp only [parseList, bind_eq_ok, orRaise_eq_ok, raiseIf_eq_ok, pure_eq_ok] at h
  obtain ⟨list, hlist, ⟨⟩, _, version, hversion, keysVersion, hkeysVersion, issued, hissued, expires,
    hexpires, ⟨⟩, hvalidity, envs, henvs, parsed, hparsed, rfl⟩ := h
  obtain ⟨hobj, hknown⟩ := Option.filter_eq_some_iff.mp henvs
  have hread : ReadEnvironments envs environments parsed := by
    refine enumerateLoop_preserves (ReadEnvironments envs) ⟨List.nodup_nil, rfl, ?_⟩ hparsed ?_
    · intro e nodes hnone
      cases hnone
    · intro done st environment st' hst hstep
      exact readEnvironment_step hst hstep
  have hvalid : issued < expires ∧ expires - issued ≤ maxValidity := by simpa using hvalidity
  have hkeys : envs.keys.all environments.contains = true := by
    simp only [areEnvironments, Bool.and_eq_true] at hknown
    exact hknown.2
  refine ⟨list, envs, hlist, readVersion_eq_ok hversion, readVersion_eq_ok hkeysVersion, hissued,
    hexpires, hvalid, Json.obj?_eq_some.mp hobj, ?_, hread.seen ▸ hread.nodup, hread.nodes⟩
  intro e he
  simpa using List.all_eq_true.mp hkeys e he

/-! ## The stages of the verifier -/

/-- The anchor's key as the configuration pins it. -/
def Anchor.key (anchor : Anchor) : PublicKey :=
  ⟨anchor.fingerprint, anchor.curve, anchor.publicPoint⟩

theorem anchorKey_eq_ok {P : Primitives} {anchor : Anchor} {key : PublicKey}
    (h : anchorKey P anchor = .ok key) : key = anchor.key := by
  simp only [anchorKey, bind_eq_ok, reraise_eq_ok, makePublicKey, raiseIf_eq_ok, pure_eq_ok] at h
  obtain ⟨⟨⟩, _, ⟨⟩, _, ⟨⟩, _, ⟨⟩, _, rfl⟩ := h
  rfl

theorem requiredInstant_eq_ok {now : Option DateTime} {instant : Int}
    (h : requiredInstant now = .ok instant) : ∃ d, now = some d ∧ instant = d.orUtc.instant := by
  simp only [requiredInstant, bind_eq_ok, orRaise_eq_ok, raiseIf_eq_ok, pure_eq_ok] at h
  obtain ⟨d, hd, ⟨⟩, _, rfl⟩ := h
  exact ⟨d, hd, rfl⟩

theorem checkArguments_eq_ok {P : Primitives} {input : Input} {config : Config} {instant : Int}
    {anchor : PublicKey} (h : checkArguments P input config = .ok (instant, anchor)) :
    anchor = config.anchor.key ∧ ∃ d, config.now = some d ∧ instant = d.orUtc.instant := by
  simp only [checkArguments, bind_eq_ok, raiseIf_eq_ok, pure_eq_ok, Prod.mk.injEq] at h
  obtain ⟨⟨⟩, _, i, hi, key, hkey, ⟨⟩, _, ⟨⟩, _, ⟨⟩, _, ⟨⟩, _, ⟨⟩, _, ⟨⟩, _, ⟨⟩, _, ⟨⟩, _, rfl, rfl⟩ := h
  exact ⟨anchorKey_eq_ok hkey, requiredInstant_eq_ok hi⟩

/-- The key list is what the anchor signed. -/
structure KeyListSigned (P : Primitives) (input : Input) (config : Config) (keys : Dict)
    (keyList : KeyList) : Prop where
  loaded : loadObject input.keys "trusted-keys.json" = .ok keys
  signed : SignedFile P input.keysSig input.keys [config.anchor.key] [config.anchor.key]
  version : keys.get "version" = .int keyList.version
  threshold : keys.get "threshold" = .int keyList.threshold
  threshold_pos : 1 ≤ keyList.threshold
  minimum : ∀ m ∈ config.minThreshold, m ≤ keyList.threshold
  entries : ∃ entries, keys.get "keys" = .arr entries ∧
    List.Forall₂ EntryOf entries keyList.custodians

theorem checkKeyList_eq_ok {P : Primitives} {input : Input} {config : Config}
    {last : Option Accepted} {keyList : KeyList}
    (h : checkKeyList P input config config.anchor.key last = .ok keyList) :
    (∃ keys, KeyListSigned P input config keys keyList) ∧
      PairOk keyList.version (hexDigest P input.keys) config.keysFloor last := by
  simp only [checkKeyList, bind_eq_ok, raiseIf_eq_ok, pure_eq_ok] at h
  obtain ⟨sigs, hsigs, signers, hsigners, ⟨⟩, hanchor, kl, hkl, ⟨⟩, hpair, ⟨⟩, hrange, ⟨⟩, hmin, rfl⟩ := h
  obtain ⟨keys, entries, hload, hversion, hthreshold, hkeys, hentries⟩ := parseKeyList_eq_ok hkl
  have hallowed : verifiedSigners P sigs input.keys (AllowedByFingerprint [config.anchor.key]) =
      .ok signers := hsigners
  have hone : ([config.anchor.key].map PublicKey.fingerprint).Nodup := List.nodup_singleton _
  obtain ⟨hsigned, _⟩ := signedFile_of_verifiedSigners hsigs hone hallowed
  have hfilter : [config.anchor.key].filter (fun k => signers.contains k.fingerprint) =
      [config.anchor.key] := by simpa using hanchor
  rw [hfilter] at hsigned
  have hpos : 1 ≤ kl.threshold ∧ kl.threshold ≤ kl.custodians.length := by simpa using hrange
  refine ⟨⟨keys, hload, hsigned, hversion, hthreshold, hpos.1, ?_, entries, hkeys, hentries⟩,
    checkPair_eq_ok hpair⟩
  intro m hm
  rw [Option.mem_def.mp hm] at hmin
  simpa using hmin

/-- Enough distinct custodians of the key list signed the node list. -/
structure ThresholdSigned (P : Primitives) (input : Input) (keys : Dict) (threshold : Int) :
    Prop where
  custodians : ∃ entries custodians signers, keys.get "keys" = .arr entries ∧
    List.Forall₂ (ListsCustodian P) entries custodians ∧
    (custodians.map PublicKey.fingerprint).Nodup ∧ (custodians.map PublicKey.point).Nodup ∧
    SignedFile P input.tnlSig input.tnl custodians signers ∧ threshold ≤ signers.length

theorem checkThreshold_eq_ok {P : Primitives} {input : Input} {config : Config} {keys : Dict}
    {keyList : KeyList} {u : Unit} (hkeys : KeyListSigned P input config keys keyList)
    (h : checkThreshold P input keyList = .ok u) :
    ThresholdSigned P input keys keyList.threshold := by
  simp only [checkThreshold, bind_eq_ok, raiseIf_eq_ok] at h
  obtain ⟨allowed, hallowed, sigs, hsigs, signers, hsigners, hcount⟩ := h
  obtain ⟨custodians, rfl, hread⟩ := readCustodians_eq_ok hallowed
  obtain ⟨entries, hget, hentries⟩ := hkeys.entries
  obtain ⟨hsigned, hlen⟩ := signedFile_of_verifiedSigners hsigs hread.fingerprints hsigners
  have hcount : keyList.threshold ≤ (signers.length : Int) := by simpa using hcount
  refine ⟨entries, custodians, _, hget, listsCustodian_of_read hentries hread.listed,
    hread.fingerprints, hread.points, hsigned, ?_⟩
  omega

/-- The node list is current at an instant and under the versions already accepted. -/
structure ListCurrent (config : Config) (instant : Int) (keyList : KeyList) (document : Document) :
    Prop where
  keysVersion : document.keysVersion ≤ keyList.version
  unexpired : instant < document.expires
  issued : document.issued - skew ≤ instant
  age : ∀ age ∈ config.maxAge, instant - document.issued ≤ age

theorem checkList_eq_ok {P : Primitives} {input : Input} {config : Config} {instant : Int}
    {keyList : KeyList} {last : Option Accepted} {document : Document}
    (h : checkList P input config instant keyList last = .ok document) :
    (∃ list envs, ListRead input.tnl list envs document) ∧
      ListCurrent config instant keyList document ∧
      PairOk document.version (hexDigest P input.tnl) config.listFloor last := by
  simp only [checkList, bind_eq_ok, raiseIf_eq_ok, pure_eq_ok] at h
  obtain ⟨doc, hdoc, ⟨⟩, hpair, ⟨⟩, hkeys, ⟨⟩, hexpired, ⟨⟩, hskew, ⟨⟩, hage, rfl⟩ := h
  refine ⟨parseList_eq_ok hdoc, ⟨by simpa using hkeys, by simpa using hexpired, ?_, ?_⟩,
    checkPair_eq_ok hpair⟩
  · have : doc.issued - instant ≤ skew := by simpa using hskew
    omega
  · intro age hmem
    rw [Option.mem_def.mp hmem] at hage
    simpa using hage

/-- The stages of a verification that returned. -/
structure Run (P : Primitives) (input : Input) (config : Config)
    (lastList lastKeys : Option Accepted) (r : VerifiedNodeList) where
  now : DateTime
  keyList : KeyList
  document : Document
  now_eq : config.now = some now
  keyList_eq : checkKeyList P input config config.anchor.key lastKeys = .ok keyList
  threshold_eq : checkThreshold P input keyList = .ok ()
  document_eq : checkList P input config now.orUtc.instant keyList lastList = .ok document
  nodes_eq : document.environments.lookup config.environment = some r.nodes
  acceptedList_eq : Accepted.init document.version (hexDigest P input.tnl) = .ok r.acceptedList
  acceptedKeys_eq : Accepted.init keyList.version (hexDigest P input.keys) = .ok r.acceptedKeys
  fields : r.environment = config.environment ∧ r.version = document.version ∧
    r.keysVersion = document.keysVersion ∧ r.issued = document.issued ∧ r.expires = document.expires

theorem verifyNodeList_eq_ok {P : Primitives} {input : Input} {config : Config}
    {lastList lastKeys : Option Accepted} {r : VerifiedNodeList}
    (h : verifyNodeList P input config lastList lastKeys = .ok r) :
    Nonempty (Run P input config lastList lastKeys r) := by
  simp only [verifyNodeList, bind_eq_ok, orRaise_eq_ok, pure_eq_ok] at h
  obtain ⟨⟨instant, anchor⟩, harg, keyList, hkl, ⟨⟩, hthreshold, document, hdoc, nodes, hnodes, al,
    hal, ak, hak, rfl⟩ := h
  obtain ⟨rfl, d, hd, rfl⟩ := checkArguments_eq_ok harg
  exact ⟨⟨d, keyList, document, hd, hkl, hthreshold, hdoc, hnodes, hal, hak, rfl, rfl, rfl, rfl, rfl⟩⟩

/-! ## Soundness -/

/-- The nodes returned are those the signed list gives for the environment. -/
structure NodesListed (input : Input) (config : Config) (r : VerifiedNodeList) : Prop where
  list : ∃ (list envs : Dict) (entries : List Json), loadObject input.tnl "tnl.json" = .ok list ∧
    list.get "keysVersion" = .int r.keysVersion ∧
    readInstant (list.get "issued") "tnl.json issued" = .ok r.issued ∧
    readInstant (list.get "expires") "tnl.json expires" = .ok r.expires ∧
    list.get "environments" = .obj envs ∧ envs.get? config.environment = some (.arr entries) ∧
    List.Forall₂ (ListsNode config.environment) entries r.nodes ∧
    (∀ environment ∈ envs.keys, environment ∈ environments) ∧
    (environments.flatMap (listedOrigins envs)).Nodup

/-- What a verified node list rests on. -/
structure Sound (P : Primitives) (input : Input) (config : Config) (r : VerifiedNodeList) :
    Prop where
  /-- The anchor signed the bytes of the key list, no signature naming it fails, and enough
  custodians that those bytes list signed the bytes of the node list, no signature naming a
  custodian failing. -/
  signed : ∃ keys threshold, loadObject input.keys "trusted-keys.json" = .ok keys ∧
    keys.get "version" = .int r.acceptedKeys.version ∧ keys.get "threshold" = .int threshold ∧
    SignedFile P input.keysSig input.keys [config.anchor.key] [config.anchor.key] ∧
    1 ≤ threshold ∧ (∀ m ∈ config.minThreshold, m ≤ threshold) ∧
    ThresholdSigned P input keys threshold
  nodes : NodesListed input config r
  keysVersion : r.keysVersion ≤ r.acceptedKeys.version
  current : ∃ now, config.now = some now ∧ r.issued - skew ≤ now.orUtc.instant ∧
    now.orUtc.instant < r.expires
  validity : r.issued < r.expires ∧ r.expires - r.issued ≤ maxValidity

theorem verifyNodeList_sound {P : Primitives} {input : Input} {config : Config}
    {lastList lastKeys : Option Accepted} {r : VerifiedNodeList}
    (h : verifyNodeList P input config lastList lastKeys = .ok r) : Sound P input config r := by
  obtain ⟨run⟩ := verifyNodeList_eq_ok h
  obtain ⟨⟨keys, hkeys⟩, _⟩ := checkKeyList_eq_ok run.keyList_eq
  obtain ⟨⟨list, envs, hlist⟩, hcurrent, _⟩ := checkList_eq_ok run.document_eq
  obtain ⟨_, _, hkv, hissued, hexpires⟩ := run.fields
  obtain ⟨entries, hentries, hnodes⟩ := hlist.nodes _ _ run.nodes_eq
  have haccepted := (Accepted.init_eq_ok run.acceptedKeys_eq).1
  refine ⟨⟨keys, run.keyList.threshold, hkeys.loaded, ?_, hkeys.threshold, hkeys.signed,
    hkeys.threshold_pos, hkeys.minimum, checkThreshold_eq_ok hkeys run.threshold_eq⟩,
    ⟨list, envs, entries, hlist.loaded, ?_, ?_, ?_, hlist.environments, hentries, hnodes,
      hlist.known, hlist.distinct⟩, ?_, ⟨run.now, run.now_eq, ?_, ?_⟩, ?_⟩
  · rw [haccepted]; exact hkeys.version
  · rw [hkv]; exact hlist.keysVersion
  · rw [hissued]; exact hlist.issued
  · rw [hexpires]; exact hlist.expires
  · rw [hkv, haccepted]; exact hcurrent.keysVersion
  · rw [hissued]; exact hcurrent.issued
  · rw [hexpires]; exact hcurrent.unexpired
  · rw [hissued, hexpires]; exact hlist.validity

/-! ### A list with one custodian -/

/-- The point of the anchor of the example. -/
def samplePoint : Bytes :=
  4 :: Codec.intToFixed
      0x481dae7e809bbb0ed61328dc321a2d9586faabd493e3bae65f7f2fc29da5760e 32 ++
    Codec.intToFixed
      0xe19d84f14aa14b25a347ad68fa4225f39b90b6695953988fa79765407cec9dc6 32

/-- The point of its custodian. -/
def custodianPoint : Bytes :=
  4 :: Codec.intToFixed
      0x68074b260bbfc01db3570c19f8fd48cd91a3c136415bdab4b1c4b8ecc3079cee 32 ++
    Codec.intToFixed
      0x219736a41cd7c77802ed12f8498bf42067bb2a06dc9a786b17c1120ede87a1ef 32

/-- What is hashed for the fingerprint of the custodian. -/
def custodianHashed : Bytes :=
  Codec.intToFixed 0x990052046553f10013082a8648ce3d0301070203 20 ++ custodianPoint

/-- The key list: threshold 1, one custodian. -/
def sampleKeys : Str :=
  List.flatMap lit
    ["\x7b\"version\":1,\"threshold\":1,",
     "\"keys\":[\x7b\"fingerprint\":\"3631F16BD8BD1B2B6C2D70218DC6B66587709B4D\",",
     "\"publicKey\":\"-----BEGIN PGP PUBLIC KEY BLOCK-----\\n\\nmFIEZVPxABMIKoZIzj0DAQcCAwRoB0sm",
     "C7/AHbNXDBn4/UjNkaPBNkFb2rSxxLjswwec7iGXNqQc\\n18d4Au0S+EmL9CBnuyoG3Jp4axfBEg7eh6Hv\\n----",
     "-END PGP PUBLIC KEY BLOCK-----\\n\"\x7d]\x7d"]

/-- The node list: one node of the pilot. -/
def sampleList : Str :=
  List.flatMap lit
    ["\x7b\"version\":4,\"keysVersion\":1,\"issued\":\"2026-10-01T00:00:00Z\",",
     "\"expires\":\"2026-11-01T00:00:00Z\",",
     "\"environments\":\x7b\"pilot\":[\x7b\"url\":\"https://api-pilot.ebsi.eu\",",
     "\"country\":\"BE\",\"organisation\":\"E\"\x7d]\x7d\x7d"]

/-- The anchor's signature file. -/
def sampleKeysSig : Bytes :=
  [136, 107, 4, 0, 19, 8, 0, 29, 22, 33, 4, 49, 156, 85, 132, 153, 179, 24, 179, 231, 201, 5, 104,
   93, 44, 131, 109, 96, 99, 73, 54, 5, 2, 101, 83, 241, 1, 0, 0, 160, 170, 1, 0, 190, 159, 253,
   189, 205, 205, 169, 139, 250, 173, 99, 42, 116, 187, 139, 104, 192, 58, 231, 252, 49, 252, 33,
   197, 223, 112, 172, 185, 14, 167, 195, 73, 0, 255, 117, 32, 199, 128, 230, 151, 55, 216, 99,
   170, 129, 162, 91, 138, 71, 94, 160, 197, 194, 142, 101, 36, 209, 134, 141, 95, 202, 134, 224,
   173, 55, 28]

/-- The custodian's signature file. -/
def sampleListSig : Bytes :=
  [136, 107, 4, 0, 19, 8, 0, 29, 22, 33, 4, 54, 49, 241, 107, 216, 189, 27, 43, 108, 45, 112, 33,
   141, 198, 182, 101, 135, 112, 155, 77, 5, 2, 101, 83, 241, 2, 0, 0, 252, 77, 0, 254, 61, 216,
   164, 114, 150, 71, 173, 222, 101, 158, 206, 61, 202, 179, 228, 195, 47, 181, 48, 123, 151, 154,
   41, 74, 171, 175, 66, 118, 132, 73, 89, 169, 1, 0, 134, 232, 30, 209, 191, 202, 54, 20, 179,
   131, 180, 107, 242, 5, 208, 22, 151, 139, 177, 122, 206, 38, 171, 173, 20, 151, 226, 97, 64,
   133, 4, 40]

/-- SHA-1 and ECDSA on the values of the example. -/
def samplePrimitives : Primitives where
  sha1 data := if data = custodianHashed then
      Codec.intToFixed 0x3631f16bd8bd1b2b6c2d70218dc6b66587709b4d 20
    else []
  sha256 := Hashlib.sha256
  onCurve point := point == samplePoint || point == custodianPoint
  ecdsaVerify point digest r s :=
    (point == samplePoint &&
      digest == Codec.intToFixed
        0xa0aabde483868707d6924347c7a58643ac781b129133854e99f2492e2afac83a 32 &&
      r == 0xbe9ffdbdcdcda98bfaad632a74bb8b68c03ae7fc31fc21c5df70acb90ea7c349 &&
      s == 0x7520c780e69737d863aa81a25b8a475ea0c5c28e6524d1868d5fca86e0ad371c) ||
    (point == custodianPoint &&
      digest == Codec.intToFixed
        0xfc4d26aade0ecc00d3210e03a5346435b55918d18e03051bb5a3ca780d9a44ec 32 &&
      r == 0x3dd8a4729647adde659ece3dcab3e4c32fb5307b979a294aabaf4276844959a9 &&
      s == 0x86e81ed1bfca3614b383b46bf205d016978bb17ace26abad1497e26140850428)

/-- The four byte strings. -/
def sampleInput : Input :=
  ⟨(Codec.encodeAscii sampleList).getD [], sampleListSig, (Codec.encodeAscii sampleKeys).getD [],
    sampleKeysSig⟩

/-- A call for the pilot on 2026-10-12. -/
def sampleConfig : Config where
  environment := "pilot"
  now := some ⟨1791763200 * 1000000, some 0⟩
  anchor := ⟨"319C558499B318B3E7C905685D2C836D60634936", "P-256", samplePoint⟩
  minThreshold := some 1

theorem sample_verified :
    ∃ r, verifyNodeList samplePrimitives sampleInput sampleConfig none none = .ok r ∧
      (r.nodes, r.version) =
        ([⟨"https://api-pilot.ebsi.eu", "api-pilot.ebsi.eu", "BE", "E"⟩], 4) := by
  refine exists_ok_of_map ?_
  unfold sampleInput sampleList sampleKeys
  simp only [List.flatMap_cons, List.flatMap_nil]
  repeat rw [lit_ofList]
  decide +kernel

theorem verifyNodeList_sound_sample :
    ∃ r, verifyNodeList samplePrimitives sampleInput sampleConfig none none = .ok r ∧
      r.nodes = [⟨"https://api-pilot.ebsi.eu", "api-pilot.ebsi.eu", "BE", "E"⟩] ∧
      Sound samplePrimitives sampleInput sampleConfig r := by
  obtain ⟨r, h, hr⟩ := sample_verified
  exact ⟨r, h, (Prod.mk.inj hr).1, verifyNodeList_sound h⟩

end OpenVC.Nodes
