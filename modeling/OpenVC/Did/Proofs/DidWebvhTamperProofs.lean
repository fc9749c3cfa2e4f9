import OpenVC.Did.Proofs.DidWebvhProofs

/-!
# The last `versionId` fixes the log

Each `versionId` is the hash of its entry with the previous `versionId` in place of its own, so two
accepted logs that end in the same `versionId` have, entry by entry, the same canonical bytes.
-/

namespace OpenVC.Did

open Python Multibase Chain

variable {C : Crypto} {iso : Str → Option DateTime}

/-- The bytes that are hashed along the chain of a log, the entries of `history` already done. -/
def chainInputs (history : List Dict) : List Dict → List Bytes
  | [] => []
  | e :: t =>
    (match predecessorOf history e with
      | some predecessor => (match jcs (rehashed e predecessor) with
        | .ok b => [b]
        | .error _ => [])
      | none => []) ++ chainInputs (history ++ [e]) t

/-- The bytes whose hashes are the entry hashes of a log. -/
def hashInputs (log : Str) : List Bytes :=
  match parseLines log with
  | .ok entries => chainInputs [] entries
  | .error _ => []

theorem mem_chainInputs {history pre suf : List Dict} {e : Dict} {predecessor : Str} {b : Bytes}
    (hp : predecessorOf (history ++ pre) e = some predecessor)
    (hb : jcs (rehashed e predecessor) = .ok b) : b ∈ chainInputs history (pre ++ e :: suf) := by
  induction pre generalizing history with
  | nil =>
    rw [List.append_nil] at hp
    simp [chainInputs, hp, hb]
  | cons d pre ih =>
    have hp' : predecessorOf ((history ++ [d]) ++ pre) e = some predecessor := by simpa using hp
    exact List.mem_append_right _ (ih hp')

theorem mem_hashInputs {log : Str} {pre suf : List Dict} {e : Dict} {predecessor : Str} {b : Bytes}
    (hlines : parseLines log = .ok (pre ++ e :: suf)) (hp : predecessorOf pre e = some predecessor)
    (hb : jcs (rehashed e predecessor) = .ok b) : b ∈ hashInputs log := by
  unfold hashInputs
  rw [hlines]
  have hp' : predecessorOf ([] ++ pre) e = some predecessor := by simpa using hp
  exact mem_chainInputs hp' hb

/-! ## Entries are dictionaries -/

theorem parseLine_nodup {line : Str} {e : Dict} (h : parseLine line = .ok e) : e.keys.Nodup := by
  simp only [parseLine, bind_eq_ok, reraise_eq_ok, orRaise_eq_ok, Json.obj?_eq_some] at h
  obtain ⟨v, hv, rfl⟩ := h
  exact (loads_wf hv).1

theorem parseLinesLoop_nodup {lines : List Str} {n : Nat} {entries : List Dict}
    (h : parseLinesLoop n lines = .ok entries) : ∀ e ∈ entries, e.keys.Nodup := by
  induction lines generalizing n entries with
  | nil => cases h; simp
  | cons line lines ih =>
    simp only [parseLinesLoop] at h
    split at h
    · exact ih h
    · simp only [bind_eq_ok, pure_eq_ok] at h
      obtain ⟨-, -, obj, hobj, rest, hrest, rfl⟩ := h
      intro e he
      rcases List.mem_cons.mp he with rfl | he
      · exact parseLine_nodup hobj
      · exact ih hrest e he

theorem parseLines_nodup {log : Str} {entries : List Dict} (h : parseLines log = .ok entries) :
    ∀ e ∈ entries, e.keys.Nodup := by
  simp only [parseLines, bind_eq_ok, pure_eq_ok] at h
  obtain ⟨es, hes, -, -, rfl⟩ := h
  exact parseLinesLoop_nodup hes

/-! ## One link back -/

theorem multihashB58_inj {x y : Bytes} (h : multihashB58 C x = multihashB58 C y) :
    C.sha256 x = C.sha256 y := by
  have := b58btcEncode_injective h
  exact List.append_cancel_left this

theorem versionId_inj {m n : Nat} {s t : Str}
    (h : Str.ofNat m ++ [45] ++ s = Str.ofNat n ++ [45] ++ t) : m = n ∧ s = t := by
  have hdash : ∀ k, 45 ∉ Str.ofNat k := by
    intro k hk
    have := Str.isDigit_of_mem_ofNat hk
    cases this
  have e : Str.partition 45 (Str.ofNat m ++ 45 :: s) = Str.partition 45 (Str.ofNat n ++ 45 :: t) := by
    have h' : Str.ofNat m ++ 45 :: s = Str.ofNat n ++ 45 :: t := by simpa using h
    rw [h']
  rw [Str.partition_append (hdash m), Str.partition_append (hdash n)] at e
  simp only [Prod.mk.injEq, true_and] at e
  exact ⟨Str.ofNat_injective e.1, e.2⟩

/-- Two entries carry the same `versionId`. -/
def SameVersion (e e' : Dict) : Prop := ∃ v, e.get "versionId" = .str v ∧ e'.get "versionId" = .str v

/-- Two entries without their proofs have the same canonical bytes. -/
def SameBytes (e e' : Dict) : Prop :=
  ∃ b, jcs (.obj (entryWithoutProof e)) = .ok b ∧ jcs (.obj (entryWithoutProof e')) = .ok b

theorem get?_entryWithoutProof {e : Dict} {v : Str} (h : e.get "versionId" = .str v) :
    (entryWithoutProof e).get? "versionId" = some (.str v) := by
  have hne : ¬ lit "versionId" = lit "proof" := by decide
  rw [entryWithoutProof, Dict.get?_erase, if_neg hne]
  unfold Dict.get at h
  cases hg : e.get? (lit "versionId") with
  | none => rw [hg] at h; cases h
  | some w => rw [hg] at h; exact congrArg some h

theorem ProofVerifies.document {e p : Dict} {keys : List Str} (h : ProofVerifies C e p keys) :
    ∃ b, jcs (.obj (entryWithoutProof e)) = .ok b := by
  obtain ⟨-, -, -, document, -, -, -, -, -, -, -, -, hd, -⟩ := h.signed
  exact ⟨document, hd⟩

/-- Two authorised entries with one `versionId`: the same bytes, at the same place, after
predecessors that share theirs. -/
theorem entryAuthorized_sameVersion {history history' : List Dict} {e e' : Dict}
    (hn : e.keys.Nodup) (hn' : e'.keys.Nodup) (ha : EntryAuthorized C iso history e)
    (ha' : EntryAuthorized C iso history' e')
    (hcf : ∀ p p' b b', predecessorOf history e = some p → jcs (rehashed e p) = .ok b →
      predecessorOf history' e' = some p' → jcs (rehashed e' p') = .ok b' →
      C.sha256 b = C.sha256 b' → b = b')
    (hsame : SameVersion e e') :
    SameBytes e e' ∧ history.length = history'.length ∧
      predecessorOf history e = predecessorOf history' e' := by
  obtain ⟨v, hv, hv'⟩ := hsame
  obtain ⟨p, b, hp, hb, hid⟩ := ha.version
  obtain ⟨p', b', hp', hb', hid'⟩ := ha'.version
  have hvid : Str.ofNat (history.length + 1) ++ [45] ++ multihashB58 C b =
      Str.ofNat (history'.length + 1) ++ [45] ++ multihashB58 C b' := by
    rw [hv] at hid
    rw [hv'] at hid'
    exact (Json.str.inj hid).symm.trans (Json.str.inj hid')
  obtain ⟨hlen, hhash⟩ := versionId_inj hvid
  have hbb : b = b' := hcf p p' b b' hp hb hp' hb' (multihashB58_inj hhash)
  subst hbb
  obtain ⟨hpp, hobj⟩ := Jcs.canonicalize_set_inj (Dict.nodup_keys_erase hn)
    (Dict.nodup_keys_erase hn') (get?_entryWithoutProof hv) (get?_entryWithoutProof hv')
    (jcs_eq_ok.mp hb) (jcs_eq_ok.mp hb')
  obtain ⟨q, _, hq⟩ := ha.proof
  obtain ⟨document, hd⟩ := hq.document
  refine ⟨⟨document, hd, ?_⟩, by omega, by rw [hp, hp', hpp]⟩
  exact jcs_eq_ok.mpr (hobj ▸ jcs_eq_ok.mp hd)

/-- Along two accepted logs without a collision, one `versionId` at two places leads back to one
`versionId` right before them. -/
theorem sameVersion_back {log log' : Str} {entries entries' : List Dict}
    (he : parseLines log = .ok entries) (he' : parseLines log' = .ok entries')
    (hall : ∀ history e rest, entries = history ++ e :: rest → EntryAuthorized C iso history e)
    (hall' : ∀ history e rest, entries' = history ++ e :: rest → EntryAuthorized C iso history e)
    (hcf : ∀ x ∈ hashInputs log, ∀ y ∈ hashInputs log', C.sha256 x = C.sha256 y → x = y)
    {pre pre' suf suf' : List Dict} {a a' : Dict} (hl : entries = pre ++ a :: suf)
    (hl' : entries' = pre' ++ a' :: suf') (hs : SameVersion a a') :
    SameBytes a a' ∧ ((pre = [] ∧ pre' = []) ∨
      ∃ i q i' q', pre = i ++ [q] ∧ pre' = i' ++ [q'] ∧ SameVersion q q') := by
  have hmem : a ∈ entries := by rw [hl]; simp
  have hmem' : a' ∈ entries' := by rw [hl']; simp
  obtain ⟨hbytes, hlen, hpred⟩ := entryAuthorized_sameVersion (parseLines_nodup he a hmem)
    (parseLines_nodup he' a' hmem') (hall pre a suf hl) (hall' pre' a' suf' hl')
    (fun p p' b b' hp hb hp' hb' hsha =>
      hcf b (mem_hashInputs (hl ▸ he) hp hb) b' (mem_hashInputs (hl' ▸ he') hp' hb') hsha) hs
  refine ⟨hbytes, ?_⟩
  -- the entries before them exist together, and the substituted `versionId` is theirs
  rcases List.eq_nil_or_concat pre with rfl | ⟨i, q, rfl⟩
  · exact .inl ⟨rfl, List.length_eq_zero_iff.mp hlen.symm⟩
  · rcases List.eq_nil_or_concat pre' with rfl | ⟨i', q', rfl⟩
    · simp at hlen
    · refine .inr ⟨i, q, i', q', by simp, by simp, ?_⟩
      have hq : (q.get "versionId").str? = (q'.get "versionId").str? := by
        simpa [predecessorOf] using hpred
      obtain ⟨_, _, _, _, hid⟩ := (hall i q (a :: suf) (by rw [hl]; simp)).version
      rw [hid] at hq
      exact ⟨_, hid, Json.str?_eq_some.mp hq.symm⟩

/-- The history of an accepted log cannot change under its last `versionId`: if the bytes hashed
along the two logs hold no collision, equal last `versionId`s make the logs equal entry by entry, up
to their proofs. -/
theorem replay_tamper_evident {did did' log log' : Str} {doc doc' : DidDocument}
    {entries entries' : List Dict} {last last' : Dict}
    (h : replay C iso did log = .ok doc) (h' : replay C iso did' log' = .ok doc')
    (hlines : parseLines log = .ok entries) (hlines' : parseLines log' = .ok entries')
    (hlast : entries.getLast? = some last) (hlast' : entries'.getLast? = some last')
    (hversion : last.get "versionId" = last'.get "versionId")
    (hcf : ∀ x ∈ hashInputs log, ∀ y ∈ hashInputs log', C.sha256 x = C.sha256 y → x = y) :
    List.Forall₂ SameBytes entries entries' := by
  obtain ⟨es, st, he, -, -, hall, -⟩ := replay_carried h
  obtain ⟨es', st', he', -, -, hall', -⟩ := replay_carried h'
  obtain rfl : es = entries := Except.ok.inj (he.symm.trans hlines)
  obtain rfl : es' = entries' := Except.ok.inj (he'.symm.trans hlines')
  obtain ⟨init, rfl⟩ := List.getLast?_eq_some_iff.mp hlast
  obtain ⟨init', rfl⟩ := List.getLast?_eq_some_iff.mp hlast'
  have hsame : SameVersion last last' := by
    obtain ⟨_, _, _, _, hid⟩ := (hall init last [] rfl).version
    exact ⟨_, hid, hversion ▸ hid⟩
  exact forall₂_of_last
    (fun _ _ _ _ _ _ hl hl' hs => sameVersion_back he he' hall hall' hcf hl hl' hs)
    (rfl : init ++ [last] = init ++ last :: []) (rfl : init' ++ [last'] = init' ++ last' :: []) hsame

theorem parseLines_congr {log log' : Str} (h : Str.splitlines log = Str.splitlines log') :
    parseLines log = parseLines log' := by
  simp only [parseLines, h]

/-- The bytes hashed along `rotatedLog` do not collide. -/
theorem rotatedLog_collisionFree : ∀ x ∈ hashInputs rotatedLog, ∀ y ∈ hashInputs rotatedLog,
    Hashlib.sha256 x = Hashlib.sha256 y → x = y := by
  rw [rotatedLog]
  simp only [List.flatMap_cons, List.flatMap_nil]
  repeat rw [lit_ofList]
  decide +kernel

/-- `rotatedLog` and the same log served with a final newline. -/
theorem replay_tamper_evident_rotatedLog : ∃ entries entries',
    parseLines rotatedLog = .ok entries ∧ parseLines (rotatedLog ++ [10]) = .ok entries' ∧
      List.Forall₂ SameBytes entries entries' := by
  have hsplit : Str.splitlines rotatedLog = Str.splitlines (rotatedLog ++ [10]) := by
    rw [rotatedLog]
    simp only [List.flatMap_cons, List.flatMap_nil]
    repeat rw [lit_ofList]
    decide +kernel
  have hlines := parseLines_congr hsplit
  obtain ⟨doc, h⟩ := returned_iff.mp rotatedLog_replays
  have h' : replay (.ofTable rotatedSignatures) sampleIso rotatedDid (rotatedLog ++ [10]) =
      .ok doc := by
    rw [← h, replay, replay, hlines]
  have hinputs : hashInputs (rotatedLog ++ [10]) = hashInputs rotatedLog := by
    rw [hashInputs, hashInputs, hlines]
  obtain ⟨entries, -, he, hne, -⟩ := replay_carried h
  obtain ⟨last, hlast⟩ := Option.isSome_iff_exists.mp (List.getLast?_isSome.mpr hne)
  refine ⟨entries, entries, he, hlines ▸ he, ?_⟩
  have hcf : ∀ x ∈ hashInputs rotatedLog, ∀ y ∈ hashInputs (rotatedLog ++ [10]),
      (Crypto.ofTable rotatedSignatures).sha256 x = (Crypto.ofTable rotatedSignatures).sha256 y →
        x = y := by
    rw [hinputs]
    exact rotatedLog_collisionFree
  exact replay_tamper_evident h h' he (hlines ▸ he) hlast hlast rfl hcf

end OpenVC.Did
