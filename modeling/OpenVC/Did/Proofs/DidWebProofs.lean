import OpenVC.Did.Proofs.DidWebvhProofs
import OpenVC.Proofs.DidTypedProofs
import OpenVC.Proofs.FetchProofs

/-!
# What a resolution contacts

A `did:web` or `did:webvh` identifier is turned into a URL whose path is written by whoever chose the
identifier. A resolution still contacts nothing but the host that the first segment of the identifier
spells.
-/

namespace Python.Url

/-! ## The URL of a host and a path -/

/-- A character that neither ends an authority nor splits one. -/
def isPlain (c : Nat) : Bool :=
  32 < c && !endsNetloc c && c != 37 && c != 64 && c != 91 && c != 93

theorem cleaned_append {s t : Str} (h : ∀ c ∈ s, 32 < c) (hs : s ≠ []) :
    ∃ t', cleaned (s ++ t) = s ++ t' := by
  obtain ⟨c, s', rfl⟩ := List.exists_cons_of_ne_nil hs
  have hc : 32 < c := h c List.mem_cons_self
  refine ⟨t.filter fun c => !(c == 9 || c == 10 || c == 13), ?_⟩
  unfold cleaned
  rw [List.cons_append, List.dropWhile_cons_of_neg (by simp; omega), ← List.cons_append,
    List.filter_append, List.filter_eq_self.mpr]
  intro x hx
  have := h x hx
  simp
  omega

theorem takeWhile_append_cons {p : Nat → Bool} {s t : Str} {c : Nat} (h : ∀ x ∈ s, p x = true)
    (hc : p c = false) : (s ++ c :: t).takeWhile p = s := by
  rw [List.takeWhile_append_of_pos h, List.takeWhile_cons_of_neg (by simp [hc]), List.append_nil]

/-- An https URL whose authority is plain text has that authority, whatever follows the slash. -/
theorem urlsplit_https {bracketed : Str → Bool} {netloc t : Str} {parts : SplitResult}
    (hplain : ∀ c ∈ netloc, isPlain c = true)
    (h : urlsplit bracketed (lit "https://" ++ netloc ++ 47 :: t) = some parts) :
    parts.scheme = lit "https" ∧ parts.netloc = netloc := by
  have hscheme : splitScheme (lit "https://" ++ netloc ++ 47 :: t) =
      (lit "https", lit "//" ++ (netloc ++ 47 :: t)) := by
    rw [List.append_assoc]
    rfl
  have hnetloc : (splitNetloc (lit "//" ++ (netloc ++ 47 :: t))).1 = netloc := by
    change (netloc ++ 47 :: t).takeWhile (!endsNetloc ·) = netloc
    refine takeWhile_append_cons (fun c hc => ?_) rfl
    have := hplain c hc
    simp only [isPlain, Bool.and_eq_true] at this
    exact this.1.1.1.1.2
  unfold urlsplit at h
  rw [hscheme] at h
  dsimp only at h
  split at h
  · cases h
    exact ⟨rfl, hnetloc⟩
  · cases h

theorem urlparse_https {bracketed : Str → Bool} {netloc t : Str} {parts : SplitResult}
    (hplain : ∀ c ∈ netloc, isPlain c = true)
    (h : urlparse bracketed (lit "https://" ++ netloc ++ 47 :: t) = some parts) :
    parts.netloc = netloc := by
  have hlead : ∀ c ∈ lit "https://", 32 < c := by decide
  obtain ⟨t', ht⟩ := cleaned_append (s := lit "https://" ++ netloc ++ [47]) (t := t)
    (by
      intro c hc
      rcases List.mem_append.mp hc with hc | hc
      · rcases List.mem_append.mp hc with hc | hc
        · exact hlead c hc
        · have := hplain c hc
          simp only [isPlain, Bool.and_eq_true, decide_eq_true_eq] at this
          exact this.1.1.1.1.1
      · rw [List.mem_singleton.mp hc]
        decide)
    (by simp)
  simp only [List.append_assoc, List.singleton_append] at ht h
  obtain ⟨split, hsplit, rfl⟩ := Option.map_eq_some_iff.mp h
  rw [ht, ← List.append_assoc] at hsplit
  have hparts := urlsplit_https hplain hsplit
  rw [← hparts.2]
  split <;> rfl

namespace SplitResult

variable {parts : SplitResult}

theorem hostAndPort_of_plain (h : ∀ c ∈ parts.netloc, isPlain c = true) :
    parts.hostAndPort =
      ((Str.partition 58 parts.netloc).1, (Str.partition 58 parts.netloc).2.2) := by
  have hinfo : parts.hostinfo = parts.netloc := by
    unfold hostinfo
    rw [List.takeWhile_eq_self_iff.mpr, List.reverse_reverse]
    intro c hc
    have := h c (List.mem_reverse.mp hc)
    simp only [isPlain, Bool.and_eq_true] at this
    exact this.1.1.2
  have hbracket : parts.netloc.contains 91 = false := by
    rw [← Bool.not_eq_true, List.contains_iff_mem]
    intro hmem
    exact absurd (h 91 hmem) (by decide)
  unfold hostAndPort
  rw [hinfo, hbracket]
  rfl

end SplitResult

end Python.Url

namespace OpenVC.Did

open Python

/-! ## The host of an identifier -/

/-- A domain name, that no parser reads as an IPv4 address. -/
structure IsDomain (name : Str) : Prop where
  length_le : name.length ≤ 253
  labels : ∀ label ∈ Str.split 46 name, isLabel label = true
  notNumeric : isNumericLabel ((Str.split 46 name).getLastD []) = false

/-- The host name and the port that a host spells, 443 when it names none. -/
inductive Spells (host : Str) : Str → Nat → Prop where
  | plain (h : IsDomain host) : Spells host host.asciiLower 443
  | withPort {name port : Str} (hhost : host = name ++ 58 :: port) (h : IsDomain name)
      (hport : isPort port = true) (hpos : 0 < Str.toNat port) (hle : Str.toNat port ≤ 65535) :
      Spells host name.asciiLower (Str.toNat port)

theorem splitPort_eq {host : Str} (h : host.contains 58 = true) :
    host = (splitPort host).1 ++ 58 :: (splitPort host).2 := by
  have hrev : host.reverse.contains 58 = true := by simpa using h
  have hcut := Str.partition_eq hrev
  simp only [Str.partition] at hcut
  have := congrArg List.reverse hcut
  rw [List.reverse_reverse, List.reverse_append, List.reverse_cons, List.append_assoc] at this
  exact this

theorem checkHost_eq_ok {host did : Str} {u : Unit} (h : checkHost host did = .ok u) :
    ∃ name port, Spells host name port := by
  unfold checkHost at h
  by_cases hc : host.contains 58 = true
  · simp only [hc, if_true, bind_eq_ok, raiseIf_eq_ok] at h
    obtain ⟨⟨⟩, hport, ⟨⟩, hlen, ⟨⟩, -, ⟨⟩, hlabels, hnum⟩ := h
    have hok : isPort (splitPort host).2 = true ∧ 0 < Str.toNat (splitPort host).2 ∧
        Str.toNat (splitPort host).2 ≤ 65535 := by simpa [and_assoc] using hport
    exact ⟨_, _, .withPort (splitPort_eq hc)
      ⟨by simpa using hlen, by simpa using hlabels, hnum⟩ hok.1 hok.2.1 hok.2.2⟩
  · simp only [hc, Bool.false_eq_true, if_false, bind_eq_ok, raiseIf_eq_ok] at h
    obtain ⟨⟨⟩, -, ⟨⟩, hlen, ⟨⟩, -, ⟨⟩, hlabels, hnum⟩ := h
    exact ⟨_, _, .plain ⟨by simpa using hlen, by simpa using hlabels, hnum⟩⟩

theorem isLabel_char {label : Str} (h : isLabel label = true) {c : Nat} (hc : c ∈ label) :
    isAlnum c = true ∨ c = 45 := by
  simp only [isLabel, Bool.and_eq_true, List.all_eq_true, Bool.or_eq_true, beq_iff_eq] at h
  exact h.1.1.2 c hc

theorem mem_intercalate {l : List Str} {sep c : Nat} (h : c ∈ List.intercalate [sep] l) :
    c = sep ∨ ∃ p ∈ l, c ∈ p := by
  induction l with
  | nil => cases h
  | cons p l ih =>
    by_cases hl : l = []
    · subst hl
      rw [List.intercalate_singleton] at h
      exact .inr ⟨p, List.mem_cons_self, h⟩
    · rw [List.intercalate_cons_of_ne_nil hl, List.append_assoc] at h
      rcases List.mem_append.mp h with h | h
      · exact .inr ⟨p, List.mem_cons_self, h⟩
      rcases List.mem_append.mp h with h | h
      · exact .inl (List.mem_singleton.mp h)
      · rcases ih h with rfl | ⟨q, hq, hc⟩
        · exact .inl rfl
        · exact .inr ⟨q, List.mem_cons_of_mem _ hq, hc⟩

theorem IsDomain.char {name : Str} (h : IsDomain name) {c : Nat} (hc : c ∈ name) :
    isAlnum c = true ∨ c = 45 ∨ c = 46 := by
  have hjoin : List.intercalate [46] (Str.split 46 name) = name := List.intercalate_splitOn 46
  rw [← hjoin] at hc
  rcases mem_intercalate hc with rfl | ⟨label, hlabel, hmem⟩
  · exact .inr (.inr rfl)
  · rcases isLabel_char (h.labels label hlabel) hmem with hc | hc
    · exact .inl hc
    · exact .inr (.inl hc)

theorem isPlain_of_isAlnum {c : Nat} (h : isAlnum c = true ∨ c = 45 ∨ c = 46) :
    Url.isPlain c = true ∧ c ≠ 58 := by
  simp only [isAlnum, Str.isDigit, Bool.or_eq_true, Bool.and_eq_true, decide_eq_true_eq] at h
  simp only [Url.isPlain, Url.endsNetloc, Bool.and_eq_true, decide_eq_true_eq, bne_iff_ne,
    Bool.not_eq_true', Bool.or_eq_false_iff, beq_eq_false_iff_ne]
  omega

/-! ## The URL of an identifier -/

/-- The host of a method-specific identifier: its first segment, decoded. -/
def hostOf (msi : Str) : Str := Url.unquote ((Str.split 58 msi).headD [])

/-- A URL of the host, whatever its path. -/
def IsUrlOf (host url : Str) : Prop := ∃ rest, url = lit "https://" ++ host ++ 47 :: rest

theorem didWebUrl_eq_ok {did url : Str} (h : didWebUrl did = .ok url) :
    (∃ name port, Spells (hostOf (did.drop 8)) name port) ∧
      ∃ path, url = lit "https://" ++ hostOf (did.drop 8) ++ 47 :: path ++ lit "did.json" := by
  simp only [didWebUrl, bind_eq_ok, raiseIf_eq_ok, pure_eq_ok] at h
  obtain ⟨⟨⟩, -, ⟨⟩, hhost, rfl⟩ := h
  refine ⟨checkHost_eq_ok hhost, ?_⟩
  split
  · refine ⟨lit ".well-known/", ?_⟩
    simp only [List.append_assoc, List.cons_append]
    rfl
  · refine ⟨List.intercalate [47] (((Str.split 58 (did.drop 8)).drop 1).map Url.unquote) ++ [47], ?_⟩
    simp only [List.append_assoc, List.cons_append, List.nil_append]
    rfl

/-- The identifier of a `did:webvh` DID without its SCID. -/
def webvhRest (did : Str) : Str := (Str.partition 58 (did.drop 10)).2.2

theorem didWebvhUrl_eq_ok {did url : Str} (h : didWebvhUrl did = .ok url) :
    (∃ name port, Spells (hostOf (webvhRest did)) name port) ∧
      IsUrlOf (hostOf (webvhRest did)) url := by
  simp only [didWebvhUrl, bind_eq_ok, raiseIf_eq_ok, pure_eq_ok] at h
  obtain ⟨⟨⟩, -, webUrl, hweb, rfl⟩ := h
  obtain ⟨hspells, path, rfl⟩ := didWebUrl_eq_ok (reraise_eq_ok.mp hweb)
  refine ⟨hspells, path ++ lit "did.jsonl", ?_⟩
  rw [List.take_left' (by simp [lit_eq]; omega)]
  simp only [List.append_assoc, List.cons_append]
  rfl

variable {host name : Str} {port : Nat}

theorem Spells.isPlain (h : Spells host name port) : ∀ c ∈ host, Url.isPlain c = true := by
  intro c hc
  cases h with
  | plain h => exact (isPlain_of_isAlnum (h.char hc)).1
  | withPort hhost h hport hpos hle =>
    subst hhost
    rcases List.mem_append.mp hc with hc | hc
    · exact (isPlain_of_isAlnum (h.char hc)).1
    rcases List.mem_cons.mp hc with rfl | hc
    · rfl
    · simp only [isPort, Bool.and_eq_true, List.all_eq_true] at hport
      exact (isPlain_of_isAlnum (.inl (by simp [isAlnum, hport.2 c hc]))).1

theorem IsDomain.hostname {parts : Url.SplitResult} (h : IsDomain name)
    (hhost : parts.hostAndPort.1 = name) : parts.hostname = name.asciiLower := by
  have hpercent : ∀ c ∈ name, (c != 37) = true := by
    intro c hc
    have := (isPlain_of_isAlnum (h.char hc)).1
    simp only [Url.isPlain, Bool.and_eq_true] at this
    exact this.1.1.1.2
  unfold Url.SplitResult.hostname Str.beforeFirst
  dsimp only
  rw [hhost, List.takeWhile_eq_self_iff.mpr hpercent, List.dropWhile_eq_nil_iff.mpr hpercent,
    List.append_nil]

theorem IsDomain.not_mem_colon (h : IsDomain name) : 58 ∉ name := fun hc =>
  (isPlain_of_isAlnum (h.char hc)).2 rfl

/-- A host that was checked is read back from the authority it is written in. -/
theorem Spells.read {parts : Url.SplitResult} {p : Option Nat} (h : Spells host name port)
    (hnetloc : parts.netloc = host) (hport : parts.port = some p) :
    parts.hostname = name ∧ (if p.getD 0 = 0 then 443 else p.getD 0) = port := by
  have hcut : parts.hostAndPort = _ :=
    Url.SplitResult.hostAndPort_of_plain (hnetloc ▸ h.isPlain)
  rw [hnetloc] at hcut
  unfold Url.SplitResult.port at hport
  cases h with
  | plain hdomain =>
    rw [Str.partition_of_not_mem hdomain.not_mem_colon] at hcut
    rw [hcut] at hport
    cases hport
    exact ⟨hdomain.hostname (by rw [hcut]), rfl⟩
  | @withPort name text hhost hdomain htext hpos hle =>
    rw [hhost, Str.partition_append hdomain.not_mem_colon] at hcut
    refine ⟨hdomain.hostname (by rw [hcut]), ?_⟩
    simp only [isPort, Bool.and_eq_true, Bool.not_eq_true'] at htext
    rw [hcut] at hport
    simp only [htext.1.1, htext.2, hle, decide_true, Bool.and_self, if_true, Bool.false_eq_true,
      if_false, Option.some.injEq] at hport
    subst hport
    rw [Option.getD_some, if_neg (by omega)]

theorem IsUrlOf.names {I : Interpreter} {url hostname target : Str} {port' : Nat}
    (hurl : IsUrlOf host url) (hspells : Spells host name port)
    (h : Fetch.Names I url hostname port' target) : hostname = name ∧ port' = port := by
  obtain ⟨rest, rfl⟩ := hurl
  obtain ⟨parts, p, hparse, -, rfl, hport, rfl, -⟩ := h.parsed
  exact hspells.read (Url.urlparse_https hspells.isPlain hparse) hport

end OpenVC.Did

namespace OpenVC.Fetch

open Python Calling

/-! ## The resolution -/

section Resolution

variable {I : Interpreter} {P : IpLibrary} {C : Crypto} {l : Trace}

/-- What the resolution of an identifier with this host does: it makes no call, or contacts the host
at an address that is public, and a failure is one of its own. -/
structure Resolution {α : Type} (P : IpLibrary) (host : Str) (l : Trace) (result : Except Exc α) :
    Prop where
  network : l = [] ∨ ∃ name port target, Did.Spells host name port ∧ Dialogue P defaultTimeoutS name port target l
  bounded : (∀ c ∈ l, Fits c) → (octets l).length ≤ (maxResponseBytes + 1).toNat
  raised : ∀ e, result = .error e → Typed e ∨ Unhandled l e ∨ Garbled P l

theorem pureCode_eq_ok {α : Type} {x : Result α} {a : α} : pureCode x = .ok a ↔ x = .ok a := by
  cases x with
  | ok b => exact ⟨fun h => congrArg _ (Except.ok.inj h), fun h => congrArg _ (Except.ok.inj h)⟩
  | error e => exact ⟨by rintro ⟨⟩, by rintro ⟨⟩⟩

theorem typed_pureCode {α : Type} {x : Result α} {e : Exc}
    (hx : OpenVC.Typed .didResolutionError x) (h : pureCode x = .error e) : Typed e := by
  cases x with
  | ok a => cases h
  | error e' =>
    cases h
    exact hx e' rfl

theorem Resolution.refused {α : Type} {host : Str} {e : Exc} (h : Typed e) :
    Resolution (α := α) P host [] (.error e) where
  network := .inl rfl
  bounded _ := Nat.zero_le _
  raised e' he := by
    cases he
    exact .inl h

/-- What a resolution does after the fetch of a URL of the host makes no call. -/
theorem Resolution.fetched {α : Type} {host url : Str} {result : Except Exc α}
    {read : Bytes → Except Exc α} (hspells : ∃ name port, Did.Spells host name port)
    (hurl : Did.IsUrlOf host url) (hread : ∀ raw e, read raw = .error e → Typed e)
    (h : Traced (httpsFetchGuarded I P defaultTimeoutS maxResponseBytes url >>=
      fun raw => Calling.done (read raw)) l result) :
    Resolution P host l result ∧ ∀ a, result = .ok a →
      ∃ raw, Received defaultTimeoutS maxResponseBytes l raw ∧ read raw = .ok a := by
  obtain ⟨name, port, hspells⟩ := hspells
  have hnamed : ∀ {l' : Trace}, (l' = [] ∨ ∃ hostname port target,
      Names I url hostname port target ∧ Dialogue P defaultTimeoutS hostname port target l') →
      l' = [] ∨ ∃ name port target, Did.Spells host name port ∧ Dialogue P defaultTimeoutS name port target l' := by
    rintro l' (rfl | ⟨hostname, port', target, hnames, hdialogue⟩)
    · exact .inl rfl
    · obtain ⟨rfl, rfl⟩ := hurl.names hspells hnames
      exact .inr ⟨_, _, target, hspells, hdialogue⟩
  rcases traced_bind.mp h with ⟨e, hfetch, rfl⟩ | ⟨raw, l₁, l₂, hfetch, hdone, rfl⟩
  · obtain ⟨hnetwork, -, hbounded, hraised⟩ := traced_httpsFetchGuarded hfetch
    refine ⟨⟨hnamed hnetwork, hbounded, fun e' he => ?_⟩, by rintro _ ⟨⟩⟩
    cases he
    exact hraised e rfl
  obtain ⟨rfl, rfl⟩ := traced_done.mp hdone
  rw [List.append_nil]
  obtain ⟨hnetwork, hreceived, hbounded, -⟩ := traced_httpsFetchGuarded hfetch
  refine ⟨⟨hnamed hnetwork, hbounded, fun e he => .inl (hread raw e he)⟩, fun a ha => ?_⟩
  exact ⟨raw, hreceived raw rfl, ha⟩

/-- What is made of the body of a `did:web` document. -/
def readWeb (C : Crypto) (did : Str) (raw : Bytes) : Except Exc Did.DidDocument := do
  let data ← readObject raw
  pureCode (Did.validatedDocument C data did)

/-- What is made of the body of a `did:webvh` log. -/
def readLog (I : Interpreter) (C : Crypto) (did : Str) (raw : Bytes) :
    Except Exc Did.DidDocument := do
  let log ← orRaise (Codec.decodeUtf8 false raw) (failed "response is not UTF-8 text: " [])
  pureCode (Did.replay C I.fromIsoFormat did log)

theorem done_bind_done {α β : Type} (x : Except Exc α) (f : α → Except Exc β) :
    ((Calling.done x : Fetching α) >>= fun a => Calling.done (f a)) = .done (x >>= f) := by
  cases x with
  | ok a => rfl
  | error e => rfl

theorem didWebResolve_eq {did : Str} : didWebResolve I P C did = (do
    let url ← pureCode (Did.didWebUrl did)
    let raw ← httpsFetchGuarded I P defaultTimeoutS maxResponseBytes url
    Calling.done (readWeb C did raw)) := by
  unfold didWebResolve httpsJsonFetch readWeb
  congr 1
  funext url
  rw [bind_assoc]
  congr 1
  funext raw
  exact done_bind_done _ _

theorem didWebvhResolve_eq {did : Str} : didWebvhResolve I P C did = (do
    let url ← pureCode (Did.didWebvhUrl did)
    let raw ← httpsFetchGuarded I P defaultTimeoutS maxResponseBytes url
    Calling.done (readLog I C did raw)) := by
  unfold didWebvhResolve httpsTextFetch readLog
  congr 1
  funext url
  rw [bind_assoc]
  congr 1
  funext raw
  exact done_bind_done _ _

theorem typed_readWeb {did : Str} {raw : Bytes} {e : Exc} (h : readWeb C did raw = .error e) :
    Typed e := by
  unfold readWeb at h
  cases hdata : readObject raw with
  | error e' =>
    rw [hdata] at h
    cases h
    exact typed_readObject hdata
  | ok data =>
    rw [hdata] at h
    exact typed_pureCode (Did.typed_validatedDocument C data did) h

theorem typed_readLog {did : Str} {raw : Bytes} {e : Exc} (h : readLog I C did raw = .error e) :
    Typed e := by
  unfold readLog at h
  cases hlog : Codec.decodeUtf8 false raw with
  | none =>
    rw [hlog] at h
    cases h
    rfl
  | some log =>
    rw [hlog] at h
    exact typed_pureCode (Did.typed_replay did log) h

/-- A body that the one public address serves is read. -/
theorem traced_sample {α : Type} (url : Str) {body : Bytes} {read : Bytes → Except Exc α} {a : α}
    (hurl : returned (checkUrl I url) = true) (hne : body ≠ [])
    (hle : (body.length : Int) ≤ maxResponseBytes) (hread : read body = .ok a) :
    ∃ l, Traced (httpsFetchGuarded I sampleLibrary defaultTimeoutS maxResponseBytes url >>=
      fun raw => Calling.done (read raw)) l (.ok a) := by
  obtain ⟨⟨parts, port⟩, hurl⟩ := returned_iff.mp hurl
  have hserved := traced_served defaultTimeoutS (.fin 0) maxResponseBytes [body] hurl
    (List.cons_ne_nil _ _) sampleLibrary_public (by decide +kernel) (by simpa using hne)
    (by simpa using hle)
  rw [List.flatten_singleton] at hserved
  exact ⟨_, traced_bind.mpr (.inr ⟨body, _, [], hserved, hread ▸ .done _, rfl⟩)⟩

/-- The UTF-8 of a text. -/
def bodyOf (text : Str) : Bytes := (Codec.encodeUtf8 text).getD []

theorem encodeUtf8_rotatedLog : ∃ body : Bytes, Codec.encodeUtf8 Did.rotatedLog = some body ∧
    body ≠ [] ∧ (body.length : Int) ≤ maxResponseBytes := by
  have hsize : ((Codec.encodeUtf8 Did.rotatedLog).map fun body : Bytes =>
      decide (0 < body.length) && decide ((body.length : Int) ≤ maxResponseBytes)) = some true := by
    rw [Did.rotatedLog]
    simp only [List.flatMap_cons, List.flatMap_nil]
    repeat rw [lit_ofList]
    decide +kernel
  obtain ⟨body, hbody, hsize⟩ := Option.map_eq_some_iff.mp hsize
  simp only [Bool.and_eq_true, decide_eq_true_eq] at hsize
  exact ⟨body, hbody, List.length_pos_iff.mp hsize.1, hsize.2⟩

end Resolution

end OpenVC.Fetch
