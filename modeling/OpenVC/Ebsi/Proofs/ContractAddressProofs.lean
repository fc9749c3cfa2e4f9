import OpenVC.Ebsi.Versioning
import OpenVC.Python.Raises
import OpenVC.Python.Proofs.UrlProofs
import OpenVC.Python.Text

/-!
# Links bound to a registry instance

A link that names no contract address gets the configured one as its last parameter; one that names
another is refused. The names are compared as they decode while the link is followed as it is
written, so a link that repeats the configured address, or spells it with percent-encoding, is
followed as it is.
-/

namespace Python.Url

variable {bracketed : Str → Bool} {url : Str} {p : SplitResult}

theorem mem_of_urlsplit (h : urlsplit bracketed url = some p) {c : Nat}
    (hc : c ∈ p.netloc ∨ c ∈ p.path ∨ c ∈ p.query ∨ c ∈ p.fragment) : c ∈ url := by
  obtain ⟨-, hnetloc, -, hpath, hquery, hfragment⟩ := urlsplit_eq_some h
  have hscheme : ∀ x ∈ (splitScheme url).2, x ∈ url := by
    intro x hx
    unfold splitScheme at hx
    split at hx
    · exact mem_of_mem_partition_snd hx
    · exact hx
  have hrest : ∀ x ∈ (splitNetloc (splitScheme url).2).2, x ∈ url := by
    intro x hx
    refine hscheme x ?_
    unfold splitNetloc at hx
    split at hx
    · exact List.mem_of_mem_drop (List.dropWhile_subset _ hx)
    · exact hx
  rcases hc with hc | hc | hc | hc
  · refine hscheme c ?_
    rw [hnetloc, splitNetloc] at hc
    split at hc
    · exact List.mem_of_mem_drop (List.takeWhile_subset _ hc)
    · cases hc
  · rw [hpath] at hc
    exact hrest c (List.takeWhile_subset _ (List.takeWhile_subset _ hc))
  · rw [hquery] at hc
    exact hrest c (List.takeWhile_subset _ (mem_of_mem_partition_snd hc))
  · rw [hfragment] at hc
    exact hrest c (mem_of_mem_partition_snd hc)

theorem mem_urlunsplit {c : Nat} (h : c ∈ urlunsplit p) :
    c ∈ lit ":/?#" ∨ c ∈ p.scheme ∨ c ∈ p.netloc ∨ c ∈ p.path ∨ c ∈ p.query ∨ c ∈ p.fragment := by
  have hdelim : ∀ {before component : Str}, c ∈ delimited before component →
      c ∈ before ∨ c ∈ component := by
    intro before component hc
    unfold delimited at hc
    split at hc
    · cases hc
    · exact List.mem_append.mp hc
  have hslash : c ∈ lit "//" → c = 47 := by
    change c ∈ [47, 47] → c = 47
    simp
  have hhier : c ∈ unsplitHier p → c = 47 ∨ c ∈ p.netloc ∨ c ∈ p.path := by
    intro hc
    unfold unsplitHier at hc
    split at hc
    · rcases List.mem_append.mp hc with hc | hc
      · rcases List.mem_append.mp hc with hc | hc
        · exact .inl (hslash hc)
        · exact .inr (.inl hc)
      · split at hc
        · rcases List.mem_cons.mp hc with hc | hc
          · exact .inl hc
          · exact .inr (.inr hc)
        · exact .inr (.inr hc)
    · split at hc
      · rcases List.mem_append.mp hc with hc | hc
        · exact .inl (hslash hc)
        · exact .inr (.inr hc)
      · split at hc
        · rcases List.mem_append.mp hc with hc | hc
          · exact .inl (hslash hc)
          · exact .inr (.inr hc)
        · exact .inr (.inr hc)
  simp only [urlunsplit, List.mem_append] at h
  have hin : ∀ x, x = 58 ∨ x = 47 ∨ x = 63 ∨ x = 35 → x ∈ lit ":/?#" := by
    rintro x (rfl | rfl | rfl | rfl) <;> decide
  rcases h with ((h | h) | h) | h
  · split at h
    · cases h
    · rcases List.mem_append.mp h with h | h
      · exact .inr (.inl h)
      · exact .inl (hin c (.inl (List.mem_singleton.mp h)))
  · rcases hhier h with h | h | h
    · exact .inl (hin c (.inr (.inl h)))
    · exact .inr (.inr (.inl h))
    · exact .inr (.inr (.inr (.inl h)))
  · rcases hdelim h with h | h
    · exact .inl (hin c (.inr (.inr (.inl (List.mem_singleton.mp h)))))
    · exact .inr (.inr (.inr (.inr (.inl h))))
  · rcases hdelim h with h | h
    · exact .inl (hin c (.inr (.inr (.inr (List.mem_singleton.mp h)))))
    · exact .inr (.inr (.inr (.inr (.inr h))))

theorem unquote_of_not_mem {s : Str} (h : 37 ∉ s) : unquote s = s := by
  rw [unquote, if_neg (by simpa using h)]

theorem replace_plus_of_not_mem {s : Str} (h : 43 ∉ s) : Str.replace s "+" " " = s := by
  rw [Str.replace]
  induction s with
  | nil => rfl
  | cons c s ih =>
    have hc : (43 == c) = false := by
      simp only [beq_eq_false_iff_ne]
      exact fun e => h (e ▸ List.mem_cons_self)
    have hp : (lit "+").isPrefixOf (c :: s) = false := by
      change (43 == c && List.isPrefixOf [] s) = false
      rw [hc, Bool.false_and]
    rw [Str.replaceGo, if_neg (by simp [hp]), ih fun hm => h (List.mem_cons_of_mem _ hm)]

end Python.Url

namespace OpenVC.Ebsi

open Python

variable {I : Interpreter} {url u : Str} {address : ContractAddress}

/-! ## The fields of a query -/

/-- The fields of a query. -/
def fields (query : Str) : List Str := if query.isEmpty then [] else Str.split 38 query

/-- The name and the value of a field, decoded. -/
def decoded (field : Str) : Str × Str :=
  (Url.unquote (Str.replace (Str.partition 61 field).1 "+" " "),
    Url.unquote (Str.replace (Str.partition 61 field).2.2 "+" " "))

/-- The decoded, case-folded name of a field contains `contractaddress`. -/
def names (I : Interpreter) (field : Str) : Bool :=
  decide (lit "contractaddress" <:+: I.casefold (decoded field).1)

/-- `contractAddress=<address>`. -/
def spelled (address : Str) : Str := contractAddressParam ++ 61 :: address

theorem names_nil : names I [] = false := by
  have hnil : (decoded []).1 = [] := rfl
  rw [names, hnil, I.casefold_ascii [] rfl]
  decide

theorem namedAddresses_eq (query : Str) :
    namedAddresses I query = ((fields query).filter (names I)).map decoded := by
  have hqsl : Url.parseQsl query = ((Str.split 38 query).filter (!·.isEmpty)).map decoded := rfl
  have hempty : ∀ l : List Str, (l.filter (!·.isEmpty)).filter (names I) = l.filter (names I) := by
    intro l
    rw [List.filter_filter]
    refine List.filter_congr fun f _ => ?_
    cases f with
    | nil => rw [names_nil, Bool.false_and]
    | cons c f => rw [List.isEmpty_cons, Bool.not_false, Bool.and_true]
  have hsplit : (fields query).filter (names I) = (Str.split 38 query).filter (names I) := by
    cases query with
    | nil =>
      change [] = List.filter (names I) [[]]
      rw [List.filter_cons_of_neg (by simp [names_nil]), List.filter_nil]
    | cons c q => rfl
  rw [hsplit, namedAddresses, hqsl, List.filter_map, ← hempty]
  rfl

theorem address_chars {c : Nat} (hc : c ∈ address.text) :
    isAddressChar c = true := List.all_eq_true.mp address.wellFormed.2.2 c hc

theorem not_mem_address {c : Nat} (h : isAddressChar c = false) : c ∉ address.text := by
  intro hc
  rw [address_chars hc] at h
  cases h

theorem not_mem_spelled {c : Nat} (hp : c ∉ contractAddressParam) (hc : c ≠ 61)
    (ha : isAddressChar c = false) : c ∉ spelled address.text := by
  intro h
  rcases List.mem_append.mp h with h | h
  · exact hp h
  · rcases List.mem_cons.mp h with h | h
    · exact hc h
    · exact not_mem_address ha h

theorem decoded_spelled : decoded (spelled address.text) = (contractAddressParam, address.text) := by
  have hpart : Str.partition 61 (spelled address.text) = (contractAddressParam, true, address.text) :=
    Str.partition_append (by decide)
  rw [decoded, hpart]
  rw [Url.replace_plus_of_not_mem (show 43 ∉ contractAddressParam by decide),
    Url.replace_plus_of_not_mem (not_mem_address (by decide)),
    Url.unquote_of_not_mem (show 37 ∉ contractAddressParam by decide),
    Url.unquote_of_not_mem (not_mem_address (by decide))]

theorem names_spelled : names I (spelled address.text) = true := by
  have hfold : I.casefold contractAddressParam = contractAddressParam.asciiLower :=
    I.casefold_ascii _ (by decide)
  have hname : lit "contractaddress" <:+: contractAddressParam.asciiLower := by decide +kernel
  rw [names, decoded_spelled, hfold]
  exact decide_eq_true hname

theorem fields_withParam (query : Str) :
    fields (withParam query contractAddressParam address.text) =
      fields query ++ [spelled address.text] := by
  have h38 : 38 ∉ spelled address.text := not_mem_spelled (by decide) (by decide) (by decide)
  have hparam : contractAddressParam ++ lit "=" ++ address.text = spelled address.text := by
    rw [List.append_assoc]
    rfl
  cases query with
  | nil =>
    have hw : withParam [] contractAddressParam address.text = spelled address.text := hparam
    have hne : (spelled address.text).isEmpty = false := rfl
    rw [hw, fields, hne, if_neg (by simp), Str.split, List.splitOn_eq_singleton h38]
    rfl
  | cons c q =>
    have hw : withParam (c :: q) contractAddressParam address.text =
        c :: q ++ 38 :: spelled address.text := by
      rw [withParam, if_neg (by simp), List.append_assoc, List.append_assoc, List.append_assoc,
        ← List.append_assoc contractAddressParam, hparam]
      rfl
    rw [hw, fields, if_neg (by simp), Str.split_append_cons h38, fields, if_neg (by simp)]

theorem mem_withParam {query : Str} {c : Nat}
    (h : c ∈ withParam query contractAddressParam address.text) :
    c ∈ query ∨ c = 38 ∨ c ∈ spelled address.text := by
  unfold withParam at h
  rw [List.append_assoc, List.append_assoc] at h
  rcases List.mem_append.mp h with h | h
  · split at h
    · cases h
    · rcases List.mem_append.mp h with h | h
      · exact .inl h
      · exact .inr (.inl (List.mem_singleton.mp h))
  · exact .inr (.inr h)

/-! ## A link that is followed -/

theorem onContractAddress_eq_ok {address : Str} :
    onContractAddress I url address = .ok u ↔
      ∃ parts, Url.urlsplit I.bracketedNetloc url = some parts ∧ 59 ∉ parts.query ∧
        (∀ f ∈ (fields parts.query).filter (names I), decoded f = (contractAddressParam, address)) ∧
        u = if (fields parts.query).filter (names I) = [] then Url.urlunsplit
            { parts with query := withParam parts.query contractAddressParam address }
          else url := by
  simp only [onContractAddress, bind_eq_ok, orRaise_eq_ok, raiseIf_eq_ok, pure_eq_ok, each_eq_ok,
    namedAddresses_eq]
  refine exists_congr fun parts => and_congr_right fun _ => ?_
  constructor
  · rintro ⟨⟨⟩, hsemi, ⟨⟩, hnamed, rfl⟩
    refine ⟨by simpa using hsemi, fun f hf => ?_, by simp⟩
    have := hnamed _ (List.mem_map_of_mem hf)
    simp only [checkNamed, raiseIf_eq_ok, Bool.or_eq_false_iff, bne_eq_false_iff_eq] at this
    exact Prod.ext this.1 this.2
  · rintro ⟨hsemi, hnamed, rfl⟩
    refine ⟨(), by simpa using hsemi, (), fun d hd => ?_, by simp⟩
    obtain ⟨f, hf, rfl⟩ := List.mem_map.mp hd
    simp [checkNamed, raiseIf_eq_ok, hnamed f hf]

/-- A link is refused exactly when its query has a `;` or a field that reads as an address and does not
decode to the configured one under its exact name. -/
theorem onContractAddress_refused_iff {address : Str} {parts : Url.SplitResult}
    (hparts : Url.urlsplit I.bracketedNetloc url = some parts) :
    (∃ e, onContractAddress I url address = .error e ∧ e.cls = .malformedRegistryResponse) ↔
      59 ∈ parts.query ∨
        ∃ f ∈ (fields parts.query).filter (names I), decoded f ≠ (contractAddressParam, address) := by
  constructor
  · rintro ⟨e, he, -⟩
    by_contra hnot
    push Not at hnot
    cases he.symm.trans (onContractAddress_eq_ok.mpr ⟨parts, hparts, hnot.1, hnot.2, rfl⟩)
  · intro h
    have hraises : RaisesOnly (fun e => e.cls = .malformedRegistryResponse)
        (onContractAddress I url address) := by
      refine (raisesOnly_orRaise.mpr fun hnone => ?_).bind fun _ _ => ?_
      · cases hparts.symm.trans hnone
      refine RaisesOnly.bind (raisesOnly_raiseIf.mpr fun _ => rfl) fun _ _ => ?_
      refine RaisesOnly.bind (RaisesOnly.each fun _ _ => ?_) fun _ _ => raisesOnly_ok
      exact raisesOnly_raiseIf.mpr fun _ => rfl
    cases hx : onContractAddress I url address with
    | error e => exact ⟨e, rfl, hraises e hx⟩
    | ok u =>
      obtain ⟨parts', hparts', hsemi, hnamed, -⟩ := onContractAddress_eq_ok.mp hx
      obtain rfl : parts = parts' := Option.some.inj (hparts.symm.trans hparts')
      rcases h with h | ⟨f, hf, hne⟩
      · exact absurd h hsemi
      · exact absurd (hnamed f hf) hne

/-- A followed link keeps the origin, the path, the fragment and the other fields of the link it
comes from, names the configured address in one field that spells it, and is followed as it is. -/
structure BoundTo (I : Interpreter) (url address u : Str) : Prop where
  origin : readOrigin I u = readOrigin I url
  components : ∃ parts parts', Url.urlsplit I.bracketedNetloc url = some parts ∧
    Url.urlsplit I.bracketedNetloc u = some parts' ∧ parts'.path = parts.path ∧
    parts'.fragment = parts.fragment ∧
    (fields parts'.query).filter (names I) = [spelled address] ∧
    (fields parts'.query).filter (!names I ·) = (fields parts.query).filter (!names I ·)
  fixed : onContractAddress I u address = .ok u

theorem visible_of_schemeChar {c : Nat} (h : Url.isSchemeChar c = true) :
    isVisibleAscii c = true := by
  simp only [Url.isSchemeChar, Str.isDigit, isVisibleAscii, Bool.or_eq_true, Bool.and_eq_true,
    decide_eq_true_eq, beq_iff_eq] at h ⊢
  omega

theorem visible_spelled {c : Nat} (h : c ∈ spelled address.text) : isVisibleAscii c = true := by
  rcases List.mem_append.mp h with h | h
  · have hparam : contractAddressParam.all isVisibleAscii = true := by decide
    exact List.all_eq_true.mp hparam c h
  · rcases List.mem_cons.mp h with rfl | h
    · rfl
    · have hc := address_chars h
      simp only [isAddressChar, Str.isDigit, isVisibleAscii, Bool.or_eq_true, Bool.and_eq_true,
        decide_eq_true_eq, beq_iff_eq] at hc ⊢
      omega

/-- The link that a URL with no address is turned into. -/
theorem boundTo_withParam {parts : Url.SplitResult} (hvisible : url.all isVisibleAscii = true)
    (hparts : Url.urlsplit I.bracketedNetloc url = some parts) (hsemi : 59 ∉ parts.query)
    (hnone : (fields parts.query).filter (names I) = []) :
    BoundTo I url address.text (Url.urlunsplit
      { parts with query := withParam parts.query contractAddressParam address.text }) := by
  have hwf := Url.urlsplit_wf hparts
  have hspelled : ∀ c, c ∉ contractAddressParam → c ≠ 61 → isAddressChar c = false → c ≠ 38 →
      c ∉ parts.query → c ∉ withParam parts.query contractAddressParam address.text := by
    intro c hp h61 ha h38 hq hmem
    rcases mem_withParam hmem with hmem | hmem | hmem
    · exact hq hmem
    · exact h38 hmem
    · exact not_mem_spelled hp h61 ha hmem
  have hwf' : Url.Wf I.bracketedNetloc
      { parts with query := withParam parts.query contractAddressParam address.text } :=
    { scheme := hwf.scheme
      netloc := hwf.netloc
      brackets := hwf.brackets
      path := hwf.path
      rooted := hwf.rooted
      query := hspelled 35 (by decide) (by decide) (by decide) (by decide) hwf.query
      relative := hwf.relative }
  have hsplit := Url.urlsplit_urlunsplit hwf'
  have hfields : fields (withParam parts.query contractAddressParam address.text) = _ :=
    fields_withParam parts.query
  have hnamed : (fields parts.query ++ [spelled address.text]).filter (names I) =
      [spelled address.text] := by
    rw [List.filter_append, hnone, List.filter_cons_of_pos names_spelled]
    rfl
  refine ⟨?_, ⟨parts, _, hparts, hsplit, rfl, rfl, ?_, ?_⟩, ?_⟩
  · have hvisible' : (Url.urlunsplit { parts with
        query := withParam parts.query contractAddressParam address.text }).all isVisibleAscii =
          true := by
      rw [List.all_eq_true] at hvisible ⊢
      intro c hc
      have hurl : c ∈ parts.netloc ∨ c ∈ parts.path ∨ c ∈ parts.query ∨ c ∈ parts.fragment →
          isVisibleAscii c = true := fun h => hvisible c (Url.mem_of_urlsplit hparts h)
      rcases Url.mem_urlunsplit hc with hc | hc | hc | hc | hc | hc
      · have hdelimiters : (lit ":/?#").all isVisibleAscii = true := by decide
        exact List.all_eq_true.mp hdelimiters c hc
      · rcases hwf.scheme with hs | hs
        · have hc : c ∈ parts.scheme := hc
          rw [hs] at hc
          cases hc
        · exact visible_of_schemeChar (List.all_eq_true.mp hs.chars c hc)
      · exact hurl (.inl hc)
      · exact hurl (.inr (.inl hc))
      · rcases mem_withParam hc with hc | rfl | hc
        · exact hurl (.inr (.inr (.inl hc)))
        · rfl
        · exact visible_spelled hc
      · exact hurl (.inr (.inr (.inr hc)))
    simp only [readOrigin, hvisible, hvisible', hparts, hsplit]
    rfl
  · rw [hfields, hnamed]
  · rw [hfields, List.filter_append, List.filter_cons_of_neg (by simp [names_spelled])]
    exact List.append_nil _
  · refine onContractAddress_eq_ok.mpr ⟨_, hsplit, ?_, ?_, ?_⟩
    · exact hspelled 59 (by decide) (by decide) (by decide) (by decide) hsemi
    · intro f hf
      rw [hfields, hnamed] at hf
      obtain rfl := List.mem_singleton.mp hf
      exact decoded_spelled
    · rw [hfields, hnamed, if_neg (by simp)]

/-- A link does not repeat the configured address and does not spell it with percent-encoding: unless
it is refused, it names none, or names the address in one field that spells it. -/
def NamesLiterally (I : Interpreter) (url address : Str) : Prop :=
  ∀ parts, Url.urlsplit I.bracketedNetloc url = some parts → 59 ∉ parts.query →
    (∀ f ∈ (fields parts.query).filter (names I), decoded f = (contractAddressParam, address)) →
    (fields parts.query).filter (names I) = [] ∨
      (fields parts.query).filter (names I) = [spelled address]

theorem visible_of_origin {o : Str} (h : origin I url = .ok o) : url.all isVisibleAscii = true := by
  obtain ⟨⟨⟩, -, h⟩ := bind_eq_ok.mp h
  unfold readOrigin at h
  by_contra hv
  rw [if_pos (by simpa using hv)] at h
  cases h

end OpenVC.Ebsi
