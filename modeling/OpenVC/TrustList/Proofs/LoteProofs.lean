import OpenVC.Proof.Proofs.SdJwtIssueProofs
import OpenVC.TrustList.Lote

/-!
# The gate of a profile

A list that is consumed under a profile has been held to it twice: the scheme information and the
members a service shall not carry on the wire, the service types on the anchors. An anchor stands for
a certificate that loaded, so the second account is of those services only.
-/

namespace OpenVC.Lote

open Python TrustList

/-! ## Calendar months -/

/-- `b` is `n` calendar months after `a`: the same time on the same day of that month, or on its last
day where the month is shorter. -/
structure MonthsAfter (n : Int) (a b : UtcDateTime) : Prop where
  month : (b.year * 12 + b.month : Int) = a.year * 12 + a.month + n
  day : b.day = min a.day (monthDays b.year b.month)
  hour : b.hour = a.hour
  minute : b.minute = a.minute
  second : b.second = a.second

theorem ofFields_eq_some {year month day hour minute second : Nat} {d : UtcDateTime} :
    UtcDateTime.ofFields year month day hour minute second = some d ↔
      d.year = year ∧ d.month = month ∧ d.day = day ∧ d.hour = hour ∧ d.minute = minute ∧
        d.second = second := by
  unfold UtcDateTime.ofFields
  constructor
  · intro h
    split at h
    · cases h
      exact ⟨rfl, rfl, rfl, rfl, rfl, rfl⟩
    · cases h
  · rintro ⟨rfl, rfl, rfl, rfl, rfl, rfl⟩
    exact dif_pos d.valid

theorem replaceDate_eq_ok {dt b : UtcDateTime} {year : Int} {month day : Nat}
    (h : replaceDate dt year month day = .ok b) :
    (b.year : Int) = year ∧ b.month = month ∧ b.day = day ∧ b.hour = dt.hour ∧
      b.minute = dt.minute ∧ b.second = dt.second := by
  unfold replaceDate at h
  split at h
  · cases h
  · split at h
    · cases h
    · rw [orRaise_eq_ok, ofFields_eq_some] at h
      obtain ⟨hyear, hmonth, hday, htime⟩ := h
      refine ⟨?_, hmonth, hday, htime⟩
      rw [hyear]
      omega

theorem plusMonths_monthsAfter {a b : UtcDateTime} {n : Int} (h : plusMonths a n = .ok b) :
    MonthsAfter n a b := by
  obtain ⟨hyear, hmonth, hday, hhour, hminute, hsecond⟩ := replaceDate_eq_ok h
  refine ⟨?_, ?_, hhour, hminute, hsecond⟩
  · rw [hyear, hmonth]
    omega
  · rw [hyear, hmonth, hday]

/-! ## What a successful parse has read -/

theorem requireMapping_eq_ok {value : Json} {ctx : Str} {m : Dict} :
    requireMapping value ctx = .ok m ↔ value = .obj m := by
  rw [requireMapping, orRaise_eq_ok, Json.obj?_eq_some]

theorem requireStr_eq_ok {value : Json} {ctx s : Str} :
    requireStr value ctx = .ok s ↔ value = .str s := by
  rw [requireStr, orRaise_eq_ok, Json.str?_eq_some]

theorem requireInt_eq_ok {value : Json} {ctx : Str} {n : Int} :
    requireInt value ctx = .ok n ↔ value = .int n := by
  rw [requireInt, orRaise_eq_ok]
  cases value <;> simp [Json.int?]

theorem requireItems_eq_ok {value : Json} {ctx : Str} {items : List Json} :
    requireItems value ctx = .ok items ↔ value = .arr items ∧ items ≠ [] := by
  simp only [requireItems, requireList, bind_eq_ok, orRaise_eq_ok, raiseIf_eq_ok, pure_eq_ok,
    Json.arr?_eq_some]
  constructor
  · rintro ⟨l, hl, ⟨⟩, hne, rfl⟩
    exact ⟨hl, by simpa using hne⟩
  · rintro ⟨hl, hne⟩
    exact ⟨items, hl, (), by simpa using hne, rfl⟩

theorem optional_eq_ok {α : Type} {obj : Dict} {key : Str} {read : Json → Result α}
    {a : Option α} :
    optional obj key read = .ok a ↔
      (obj.get? key = none ∧ a = none) ∨
        ∃ v b, obj.get? key = some v ∧ read v = .ok b ∧ a = some b := by
  unfold optional
  cases obj.get? key with
  | none => simp [eq_comm]
  | some v =>
    simp only [bind_eq_ok, pure_eq_ok, reduceCtorEq, false_and, false_or, Option.some.injEq]
    constructor
    · rintro ⟨b, hb, rfl⟩
      exact ⟨v, b, rfl, hb, rfl⟩
    · rintro ⟨_, b, rfl, hb, rfl⟩
      exact ⟨b, hb, rfl⟩

/-- A member that reads as a value is read. -/
theorem optional_of_get {α : Type} {obj : Dict} {key : Str} {read : Json → Result α}
    {a : Option α} {v : Json} (h : optional obj key read = .ok a) (hv : obj.get key = v)
    (hne : v ≠ .null) : ∃ b, read v = .ok b ∧ a = some b := by
  have hget := Dict.get?_of_get hv hne
  rcases optional_eq_ok.mp h with ⟨hnone, _⟩ | ⟨w, b, hw, hb, ha⟩
  · rw [hget] at hnone
    cases hnone
  · rw [hget] at hw
    cases hw
    exact ⟨b, hb, ha⟩

theorem collect_zipIdx {α β : Type} {f : α × Nat → Result β} {l : List α} {bs : List β}
    (h : collect f l.zipIdx = .ok bs) {a : α} (ha : a ∈ l) :
    ∃ i b, f (a, i) = .ok b ∧ b ∈ bs := by
  obtain ⟨i, hi, rfl⟩ := List.getElem_of_mem ha
  have hmem : (l[i], i) ∈ l.zipIdx := by
    rw [List.mem_zipIdx_iff_getElem?]
    exact List.getElem?_eq_getElem hi
  obtain ⟨b, hb⟩ := collect_returned h hmem
  exact ⟨i, b, hb, (mem_collect h).mpr ⟨_, hmem, hb⟩⟩

/-! ## Services on the wire -/

/-- `v` is an entry of the services of a trusted entity of the list. -/
def Listed (lote : Dict) (v : Json) : Prop :=
  ∃ entities entity services, lote.get "TrustedEntitiesList" = .arr entities ∧
    .obj entity ∈ entities ∧ Dict.get entity "TrustedEntityServices" = .arr services ∧
    v ∈ services

/-- `info` is the `ServiceInformation` of an entry. -/
def InfoOf (v : Json) (info : Dict) : Prop :=
  ∃ svc, v = .obj svc ∧ Dict.get svc "ServiceInformation" = .obj info

variable {E : Env}

/-- A certificate of a service loads. -/
def Loads (E : Env) (info : Dict) : Prop :=
  ∃ sdi entries entry val cert, info.get "ServiceDigitalIdentity" = .obj sdi ∧
    Dict.get sdi "X509Certificates" = .arr entries ∧ .obj entry ∈ entries ∧
    Dict.get entry "val" = .str val ∧ loadCertificate E val = some cert

/-- A service names a type of the profile's set. -/
def NamesType (profile : LoteProfile) (info : Dict) : Prop :=
  ∃ t ∈ profile.serviceTypes, info.get? "ServiceTypeIdentifier" = some (.str t)

theorem readCertificates_ne_nil {ctx : Str} {entries : List Json} {certs : List (Cert E)}
    (h : readCertificates E ctx (.arr entries) = .ok certs) {entry : Dict} {val : Str}
    {cert : Cert E} (hentry : .obj entry ∈ entries) (hval : entry.get "val" = .str val)
    (hload : loadCertificate E val = some cert) : cert ∈ certs := by
  simp only [readCertificates, bind_eq_ok, pure_eq_ok] at h
  obtain ⟨items, hitems, read, hread, rfl⟩ := h
  obtain ⟨hitems, _⟩ := requireItems_eq_ok.mp hitems
  cases hitems
  obtain ⟨i, b, hb, hmem⟩ := collect_zipIdx hread hentry
  simp only [readCertificate, bind_eq_ok, pure_eq_ok] at hb
  obtain ⟨ob, hob, ⟨⟩, _, val', hval', rfl⟩ := hb
  have hob : Json.obj entry = .obj ob := requireMapping_eq_ok.mp hob
  cases hob
  rw [requireStr_eq_ok, hval] at hval'
  cases hval'
  rw [hload] at hmem
  exact List.mem_filterMap.mpr ⟨some cert, hmem, rfl⟩

theorem exists_cert_of_loads {info : Dict} {ctx : Str} {certs : List (Cert E)}
    (h : certsFromSdi E (info.get "ServiceDigitalIdentity") ctx = .ok certs)
    (hloads : Loads E info) : ∃ cert, cert ∈ certs := by
  obtain ⟨sdi, entries, entry, val, cert, hsdi, hentries, hentry, hval, hload⟩ := hloads
  simp only [certsFromSdi, bind_eq_ok, pure_eq_ok] at h
  obtain ⟨m, hm, ⟨⟩, _, read, hread, rfl⟩ := h
  rw [requireMapping_eq_ok, hsdi] at hm
  cases hm
  obtain ⟨certs, hcerts, rfl⟩ := optional_of_get hread hentries (by simp)
  exact ⟨cert, readCertificates_ne_nil hcerts hentry hval hload⟩

/-- The type an anchor carries is the one its service names; a missing one is empty. -/
def Carries (info : Dict) (t : Str) : Prop :=
  (info.get? "ServiceTypeIdentifier" = none ∧ t = []) ∨
    info.get? "ServiceTypeIdentifier" = some (.str t)

/-- A service that was parsed has an anchor with its type when a certificate of it loads. -/
theorem parseService_anchor {teName territory : Option Str} {v : Json} {ctx : Str}
    {anchors : List (TrustServiceAnchor (Cert E))}
    (h : parseService E teName territory v ctx = .ok anchors) :
    ∃ info, InfoOf v info ∧ (Loads E info → ∃ a ∈ anchors, Carries info a.serviceType) := by
  simp only [parseService, bind_eq_ok, pure_eq_ok] at h
  obtain ⟨svc, hsvc, ⟨⟩, _, info, hinfo, ⟨⟩, _, names, _, stype, hstype, status, _, start, _,
    exts, _, certs, hcerts, rfl⟩ := h
  refine ⟨info, ⟨svc, requireMapping_eq_ok.mp hsvc, requireMapping_eq_ok.mp hinfo⟩, ?_⟩
  intro hloads
  obtain ⟨cert, hcert⟩ := exists_cert_of_loads hcerts hloads
  refine ⟨_, List.mem_map.mpr ⟨cert, hcert, rfl⟩, ?_⟩
  rcases optional_eq_ok.mp hstype with ⟨hnone, rfl⟩ | ⟨w, t, hw, ht, rfl⟩
  · exact .inl ⟨hnone, rfl⟩
  · rw [requireStr_eq_ok] at ht
    subst ht
    exact .inr hw

/-- Every service of an entity that was parsed has been parsed. -/
theorem parseEntity_anchor {territory : Option Str} {e : Json} {ctx : Str}
    {provider : TrustServiceProvider (Cert E)}
    (h : parseEntity E territory e ctx = .ok provider) :
    ∃ entity services, e = .obj entity ∧ Dict.get entity "TrustedEntityServices" = .arr services ∧
      ∀ v ∈ services, ∃ info, InfoOf v info ∧
        (Loads E info → ∃ a ∈ provider.services, Carries info a.serviceType) := by
  simp only [parseEntity, bind_eq_ok, pure_eq_ok] at h
  obtain ⟨entity, hentity, ⟨⟩, _, te, _, ⟨⟩, _, names, _, address, _, uris, _, exts, _, raw, hraw,
    services, hservices, rfl⟩ := h
  obtain ⟨hraw, _⟩ := requireItems_eq_ok.mp hraw
  refine ⟨entity, raw, requireMapping_eq_ok.mp hentity, hraw, fun v hv => ?_⟩
  obtain ⟨i, anchors, hanchors, hmem⟩ := collect_zipIdx hservices hv
  obtain ⟨info, hinfo, hload⟩ := parseService_anchor hanchors
  refine ⟨info, hinfo, fun hl => ?_⟩
  obtain ⟨a, ha, hcarries⟩ := hload hl
  exact ⟨a, List.mem_flatten.mpr ⟨anchors, hmem, ha⟩, hcarries⟩

/-! ## The list -/

/-- A value reads as a second of the calendar. -/
def Reads (E : Env) (v : Json) (d : UtcDateTime) : Prop :=
  ∃ text, v = .str text ∧ matchesDatetimeZ E.interpreter text = true ∧
    fromIsoFormat E (text.dropLast ++ lit "+00:00") = some d

theorem datetimeZ_eq_ok {v : Json} {ctx : Str} {d : UtcDateTime} :
    datetimeZ E v ctx = .ok d ↔ Reads E v d := by
  simp only [datetimeZ, bind_eq_ok, raiseIf_eq_ok, orRaise_eq_ok, requireStr_eq_ok,
    Bool.not_eq_false', Reads]
  constructor
  · rintro ⟨text, htext, ⟨⟩, hform, hd⟩
    exact ⟨text, htext, hform, hd⟩
  · rintro ⟨text, htext, hform, hd⟩
    exact ⟨text, htext, (), hform, hd⟩

theorem readNextUpdate_eq_ok {v : Json} {next : Option UtcDateTime} :
    readNextUpdate E v = .ok next ↔
      (v = .null ∧ next = none) ∨ ∃ d, Reads E v d ∧ next = some d := by
  unfold readNextUpdate
  split
  · rename_i hnull
    have hv : v = .null := by
      cases v <;> first | rfl | cases hnull
    subst hv
    constructor
    · intro h
      exact .inl ⟨rfl, (Except.ok.inj h).symm⟩
    · rintro (⟨_, rfl⟩ | ⟨d, ⟨text, htext, _⟩, _⟩)
      · rfl
      · cases htext
  · rename_i hnull
    simp only [bind_eq_ok, pure_eq_ok, datetimeZ_eq_ok]
    constructor
    · rintro ⟨d, hd, rfl⟩
      exact .inr ⟨d, hd, rfl⟩
    · rintro (⟨rfl, _⟩ | ⟨d, hd, rfl⟩)
      · exact absurd rfl hnull
      · exact ⟨d, hd, rfl⟩

/-- What a payload that was parsed is, and what its list keeps of it. -/
structure Parsed (E : Env) (payload : Dict) (lote scheme : Dict)
    (list : TrustedList (Cert E)) : Prop where
  loteObj : payload.get "LoTE" = .obj lote
  schemeObj : lote.get "ListAndSchemeInformation" = .obj scheme
  version : ∃ n, scheme.get "LoTEVersionIdentifier" = .int n ∧ list.version = some n
  listType : ∀ s, list.tslType = some s → scheme.get? "LoTEType" = some (.str s)
  territory : ∀ s, list.territory = some s → scheme.get? "SchemeTerritory" = some (.str s)
  issue : ∃ d, Reads E (scheme.get "ListIssueDateTime") d ∧ list.issueDatetime = some d.isoformat
  next : (scheme.get "NextUpdate" = .null ∧ list.nextUpdate = none) ∨
    ∃ d, Reads E (scheme.get "NextUpdate") d ∧ list.nextUpdate = some d.toDateTime
  services : ∀ v, Listed lote v → ∃ info, InfoOf v info ∧
    (Loads E info → ∃ p ∈ list.providers, ∃ a ∈ p.services, Carries info a.serviceType)

theorem get?_of_optional_str {obj : Dict} {key ctx : Str} {text : Option Str}
    (h : optional obj key (requireStr · ctx) = .ok text) :
    ∀ s, text = some s → obj.get? key = some (.str s) := by
  rintro s rfl
  rcases optional_eq_ok.mp h with ⟨_, h⟩ | ⟨v, b, hv, hb, h⟩
  · cases h
  · cases h
    rw [hv, requireStr_eq_ok.mp hb]

theorem parsed_of_parseLoteObject {payload : Dict} {list : TrustedList (Cert E)}
    (h : parseLoteObject E (.obj payload) = .ok list) :
    ∃ lote scheme, Parsed E payload lote scheme list := by
  simp only [parseLoteObject, bind_eq_ok, pure_eq_ok] at h
  obtain ⟨root, hroot, ⟨⟩, _, lote, hlote, ⟨⟩, _, scheme, hscheme, ⟨⟩, _, version, hversion,
    sequence, _, names, _, loteType, hloteType, territory, hterritory, ⟨⟩, _, issue, hissue,
    next, hnext, pointers, _, providers, hproviders, rfl⟩ := h
  have hroot : Json.obj payload = .obj root := requireMapping_eq_ok.mp hroot
  cases hroot
  refine ⟨lote, scheme, requireMapping_eq_ok.mp hlote, requireMapping_eq_ok.mp hscheme,
    ⟨version, requireInt_eq_ok.mp hversion, rfl⟩, get?_of_optional_str hloteType,
    get?_of_optional_str hterritory, ⟨issue, datetimeZ_eq_ok.mp hissue, rfl⟩, ?_, ?_⟩
  · rcases readNextUpdate_eq_ok.mp hnext with ⟨hnull, rfl⟩ | ⟨d, hd, rfl⟩
    · exact .inl ⟨hnull, rfl⟩
    · exact .inr ⟨d, hd, rfl⟩
  · rintro v ⟨entities, entity, services, hentities, hentity, hservices, hv⟩
    obtain ⟨read, hread, rfl⟩ := optional_of_get hproviders hentities (by simp)
    simp only [readEntities, bind_eq_ok] at hread
    obtain ⟨items, hitems, hcollect⟩ := hread
    obtain ⟨hitems, _⟩ := requireItems_eq_ok.mp hitems
    cases hitems
    obtain ⟨i, provider, hprovider, hmem⟩ := collect_zipIdx hcollect hentity
    obtain ⟨m, l, hm, hl, hall⟩ := parseEntity_anchor hprovider
    cases hm
    rw [hservices] at hl
    cases hl
    obtain ⟨info, hinfo, hload⟩ := hall v hv
    exact ⟨info, hinfo, fun hl => ⟨provider, hmem, hload hl⟩⟩

/-! ## What a successful gate has checked -/

/-- A rule that was read is the URI of an entry. -/
theorem mem_mlUris {v : Json} {ctx : Str} {rules : List Str} (h : mlUris v ctx = .ok rules)
    {r : Str} (hr : r ∈ rules) :
    ∃ entries entry, v = .arr entries ∧ .obj entry ∈ entries ∧
      Dict.get entry "uriValue" = .str r := by
  simp only [mlUris, mlEntries, bind_eq_ok, pure_eq_ok] at h
  obtain ⟨read, ⟨items, hitems, hread⟩, rfl⟩ := h
  obtain ⟨p, hp, rfl⟩ := List.mem_map.mp hr
  obtain ⟨item, hitem, hp⟩ := (mem_collect hread).mp hp
  simp only [mlEntry, bind_eq_ok, pure_eq_ok] at hp
  obtain ⟨entry, hentry, ⟨⟩, _, lang, _, text, htext, rfl⟩ := hp
  refine ⟨items, entry, (requireItems_eq_ok.mp hitems).1, ?_, requireStr_eq_ok.mp htext⟩
  rw [← requireMapping_eq_ok.mp hentry]
  exact List.fst_mem_of_mem_zipIdx hitem

theorem isOneOf_eq_true {spellings : List Str} {v : Json} (h : isOneOf spellings v = true) :
    ∃ s ∈ spellings, v = .str s := by
  unfold isOneOf at h
  split at h
  · exact ⟨_, List.contains_iff_mem.mp h, rfl⟩
  · cases h

/-- What the scheme information of a profiled list says on the wire. -/
structure SchemeGate (E : Env) (profile : LoteProfile) (scheme : Dict) : Prop where
  version : scheme.get? "LoTEVersionIdentifier" = some (.int 1)
  listType : scheme.get? "LoTEType" = some (.str profile.loteType)
  territory : scheme.get? "SchemeTerritory" = some (.str profile.territory)
  determination : ∃ s ∈ profile.statusDetermination,
    scheme.get? "StatusDeterminationApproach" = some (.str s)
  rules : ∃ entries entry, scheme.get? "SchemeTypeCommunityRules" = some (.arr entries) ∧
    .obj entry ∈ entries ∧ Dict.get entry "uriValue" = .str profile.schemeRules
  history : scheme.get? "HistoricalInformationPeriod" = none
  /-- A list that is not closed is due within the profile's months of its issue. -/
  update : scheme.get "NextUpdate" ≠ .null → ∃ issue next ceiling,
    Reads E (scheme.get "ListIssueDateTime") issue ∧ Reads E (scheme.get "NextUpdate") next ∧
      MonthsAfter profile.maxUpdateMonths issue ceiling ∧ next.seconds ≤ ceiling.seconds

theorem schemeRules_listed {scheme : Dict} {rules : List Str}
    (h : schemeRulesOf scheme = .ok rules) {r : Str} (hr : r ∈ rules) :
    ∃ entries entry, scheme.get? "SchemeTypeCommunityRules" = some (.arr entries) ∧
      .obj entry ∈ entries ∧ Dict.get entry "uriValue" = .str r := by
  simp only [schemeRulesOf, bind_eq_ok, pure_eq_ok] at h
  obtain ⟨read, hread, rfl⟩ := h
  rcases optional_eq_ok.mp hread with ⟨_, rfl⟩ | ⟨v, b, hv, hb, rfl⟩
  · cases hr
  · obtain ⟨entries, entry, rfl, hentry, huri⟩ := mem_mlUris hb hr
    exact ⟨entries, entry, hv, hentry, huri⟩

theorem instant_toDateTime (d : UtcDateTime) : d.toDateTime.instant = d.seconds * 1000000 := by
  simp [UtcDateTime.toDateTime, DateTime.instant]

/-- A window that was checked has its end at or after `NextUpdate`. -/
theorem checkUpdateWindow_eq_ok {profile : LoteProfile} {issue next : UtcDateTime}
    (h : checkUpdateWindow profile issue next.toDateTime = .ok ()) :
    ∃ ceiling, MonthsAfter profile.maxUpdateMonths issue ceiling ∧
      next.seconds ≤ ceiling.seconds := by
  simp only [checkUpdateWindow, bind_eq_ok, recast_eq_ok, raiseIf_eq_ok, decide_eq_false_iff_not,
    not_lt, instant_toDateTime] at h
  obtain ⟨ceiling, hceiling, hle⟩ := h
  exact ⟨ceiling, plusMonths_monthsAfter hceiling, by omega⟩

theorem fromIsoFormat_isoformat (d : UtcDateTime) : fromIsoFormat E d.isoformat = some d := by
  rw [fromIsoFormat, UtcDateTime.readIso_isoformat, Option.some_or]

theorem schemeGate_of_checks {payload lote scheme : Dict} {list : TrustedList (Cert E)}
    {profile : LoteProfile} (hp : Parsed E payload lote scheme list)
    (hscheme : checkProfileScheme list scheme profile = .ok ()) {issue : UtcDateTime}
    (hissue : fromIsoFormat E (list.issueDatetime.getD []) = some issue)
    (hnext : checkNextUpdate profile issue list.nextUpdate = .ok ()) :
    SchemeGate E profile scheme := by
  simp only [checkProfileScheme, bind_eq_ok, raiseIf_eq_ok, bne_eq_false_iff_eq,
    Bool.not_eq_false'] at hscheme
  obtain ⟨⟨⟩, hversion, ⟨⟩, htype, ⟨⟩, hdet, rules, hrules, ⟨⟩, hmem, ⟨⟩, hterritory, hhist⟩ :=
    hscheme
  obtain ⟨n, hn, hlist⟩ := hp.version
  obtain ⟨s, hs, hget⟩ := isOneOf_eq_true hdet
  obtain ⟨d, hd, hiso⟩ := hp.issue
  rw [hiso, Option.getD_some, fromIsoFormat_isoformat] at hissue
  cases hissue
  rw [hversion] at hlist
  cases hlist
  refine ⟨Dict.get?_of_get hn (by simp), hp.listType _ htype, hp.territory _ hterritory,
    ⟨s, hs, Dict.get?_of_get hget (by simp)⟩, schemeRules_listed hrules (List.contains_iff_mem.mp hmem),
    Option.not_isSome_iff_eq_none.mp (by simpa [Dict.has] using hhist), fun hnull => ?_⟩
  rcases hp.next with ⟨h, _⟩ | ⟨next, hread, hnextUpdate⟩
  · exact absurd h hnull
  · rw [hnextUpdate] at hnext
    obtain ⟨ceiling, hafter, hle⟩ := checkUpdateWindow_eq_ok hnext
    exact ⟨issue, next, ceiling, hd, hread, hafter, hle⟩

theorem mem_serviceInfos {lote info : Dict} {v : Json} (hv : Listed lote v) (hi : InfoOf v info) :
    info ∈ serviceInfos lote := by
  obtain ⟨entities, entity, services, hentities, hentity, hservices, hmem⟩ := hv
  obtain ⟨svc, rfl, hinfo⟩ := hi
  have hobj : ∀ (l : List Json) (m : Dict), .obj m ∈ l → m ∈ objectsOf (.arr l) := by
    intro l m hm
    exact List.mem_filterMap.mpr ⟨.obj m, hm, rfl⟩
  refine List.mem_filterMap.mpr ⟨svc, List.mem_flatMap.mpr ⟨entity, ?_, ?_⟩, ?_⟩
  · rw [hentities]
    exact hobj _ _ hentity
  · rw [hservices]
    exact hobj _ _ hmem
  · rw [hinfo]
    rfl

theorem mem_objectsOf {v : Json} {m : Dict} (h : m ∈ objectsOf v) :
    ∃ l, v = .arr l ∧ .obj m ∈ l := by
  obtain ⟨w, hw, hobj⟩ := List.mem_filterMap.mp h
  rw [Json.obj?_eq_some] at hobj
  subst hobj
  cases v with
  | arr l => exact ⟨l, rfl, hw⟩
  | _ => cases hw

theorem exists_of_mem_serviceInfos {lote info : Dict} (h : info ∈ serviceInfos lote) :
    ∃ v, Listed lote v ∧ InfoOf v info := by
  obtain ⟨svc, hsvc, hinfo⟩ := List.mem_filterMap.mp h
  obtain ⟨entity, hentity, hsvc⟩ := List.mem_flatMap.mp hsvc
  obtain ⟨entities, hentities, hentity⟩ := mem_objectsOf hentity
  obtain ⟨services, hservices, hsvc⟩ := mem_objectsOf hsvc
  exact ⟨.obj svc, ⟨entities, entity, services, hentities, hentity, hservices, hsvc⟩,
    svc, rfl, Json.obj?_eq_some.mp hinfo⟩

/-- What the services of a profiled list say on the wire. -/
def ServiceGate (profile : LoteProfile) (lote : Dict) : Prop :=
  ∀ v, Listed lote v → ∃ info, InfoOf v info ∧ NamesType profile info ∧
    info.get? "ServiceStatus" = none ∧ info.get? "StatusStartingTime" = none

/-- Every service that the anchors do not show names a type of the profile's set: one of which no
certificate loads, and, for a set with the empty string, one that names no type. -/
def UnseenNameTypes (E : Env) (profile : LoteProfile) (lote : Dict) : Prop :=
  ∀ v info, Listed lote v → InfoOf v info →
    ¬ Loads E info ∨ (info.get? "ServiceTypeIdentifier" = none ∧ [] ∈ profile.serviceTypes) →
      NamesType profile info

theorem consumed_of_consumeLote {call : Call E} {token : Token} {list : TrustedList (Cert E)}
    (h : consumeLote E call token = .ok list) {profile : LoteProfile}
    (hprofile : call.profile = some profile) :
    ∃ jws lote scheme, readToken token call.maxBytes = .ok jws ∧
      Parsed E jws.payload lote scheme list ∧ checkProfile E list lote profile = .ok () := by
  simp only [consumeLote, bind_eq_ok, pure_eq_ok] at h
  obtain ⟨jws, hjws, alg, _, ⟨⟩, _, chain, _, ⟨⟩, _, ⟨⟩, _, list', hlist, ⟨⟩, _, ⟨⟩, hgate, rfl⟩ := h
  obtain ⟨lote, scheme, hparsed⟩ := parsed_of_parseLoteObject hlist
  refine ⟨jws, lote, scheme, hjws, hparsed, ?_⟩
  rw [hparsed.loteObj, hprofile] at hgate
  exact hgate

/-- A list consumed under a profile has the profile's scheme information, and no service of it has a
status. Its services are all of the profile's types exactly when those are that no anchor shows. -/
theorem consumeLote_serviceGate_iff (E : Env) (call : Call E) (token : Token)
    (profile : LoteProfile) (list : TrustedList (Cert E)) (hprofile : call.profile = some profile)
    (h : consumeLote E call token = .ok list) :
    ∃ jws lote scheme, readToken token call.maxBytes = .ok jws ∧
      jws.payload.get "LoTE" = .obj lote ∧
        Dict.get lote "ListAndSchemeInformation" = .obj scheme ∧
      (SchemeGate E profile scheme ∧ ServiceGate profile lote ↔ UnseenNameTypes E profile lote) := by
  obtain ⟨jws, lote, scheme, hjws, hparsed, hgate⟩ := consumed_of_consumeLote h hprofile
  refine ⟨jws, lote, scheme, hjws, hparsed.loteObj, hparsed.schemeObj, ?_⟩
  simp only [checkProfile, bind_eq_ok, orRaise_eq_ok, each_eq_ok, hparsed.schemeObj] at hgate
  obtain ⟨⟨⟩, hscheme, issue, hissue, ⟨⟩, hnext, ⟨⟩, htypes, hstatus⟩ := hgate
  constructor
  · rintro ⟨-, hservices⟩ v info hv ⟨svc, rfl, hinfo⟩ -
    obtain ⟨info', ⟨svc', hsvc', hinfo'⟩, hnames, -⟩ := hservices _ hv
    cases hsvc'
    rw [hinfo] at hinfo'
    cases hinfo'
    exact hnames
  · intro hunseen
    refine ⟨schemeGate_of_checks hparsed hscheme hissue hnext, fun v hv => ?_⟩
    obtain ⟨info, hinfo, hanchor⟩ := hparsed.services v hv
    have hno := hstatus info (mem_serviceInfos hv hinfo)
    simp only [checkNoStatus, bind_eq_ok, raiseIf_eq_ok, Dict.has,
      Option.isSome_eq_false_iff, Option.isNone_iff_eq_none] at hno
    obtain ⟨⟨⟩, hstat, hstart⟩ := hno
    refine ⟨info, hinfo, ?_, hstat, hstart⟩
    by_cases hloads : Loads E info
    · obtain ⟨provider, hprovider, a, ha, hcarries⟩ := hanchor hloads
      have hmem := htypes provider hprovider a ha
      simp only [checkServiceType, raiseIf_eq_ok, Bool.not_eq_false'] at hmem
      rcases hcarries with ⟨hnone, hempty⟩ | hsome
      · refine hunseen v info hv hinfo (.inr ⟨hnone, ?_⟩)
        rw [← hempty]
        exact List.contains_iff_mem.mp hmem
      · exact ⟨a.serviceType, List.contains_iff_mem.mp hmem, hsome⟩
    · exact hunseen v info hv hinfo (.inl hloads)

/-! ## A service without a certificate -/

/-- The segments of a compact JWS, put together. -/
def compactText (header payload signature : Bytes) : Str :=
  Codec.b64urlEncode header ++ 46 :: (Codec.b64urlEncode payload ++
    46 :: Codec.b64urlEncode signature)

theorem length_compactText_le (hb pb sb : Bytes) :
    (compactText hb pb sb).length ≤ 2 * (hb.length + pb.length + sb.length) + 2 := by
  have hh := Codec.length_b64urlEncode_le hb
  have hp := Codec.length_b64urlEncode_le pb
  have hs := Codec.length_b64urlEncode_le sb
  simp only [compactText, List.length_append, List.length_cons]
  omega

theorem readToken_compactText {hb pb sb : Bytes} {header payload : Dict} {maxBytes : Int}
    (hh : loadsBytes hb = .ok (.obj header)) (hp : loadsBytes pb = .ok (.obj payload))
    (hmax : (compactText hb pb sb).length ≤ maxBytes) :
    readToken (.str (compactText hb pb sb)) maxBytes = .ok ⟨header, payload,
      (Codec.b64urlEncode hb ++ 46 :: Codec.b64urlEncode pb).map UInt8.ofNat, sb⟩ := by
  have hsegments : threeSegments (compactText hb pb sb) =
      some ⟨Codec.b64urlEncode hb, Codec.b64urlEncode pb, Codec.b64urlEncode sb⟩ :=
    SdJwt.threeSegments_append (SdJwt.dot_not_mem_b64urlEncode _)
      (SdJwt.dot_not_mem_b64urlEncode _) (SdJwt.dot_not_mem_b64urlEncode _)
  have hload : ∀ {b : Bytes} {v : Json}, loadsBytes b = .ok v →
      loadSegment (Codec.b64urlEncode b) = .ok v := by
    intro b v hb
    simp only [loadSegment, Codec.b64urlDecodePadded_b64urlEncode, bind_eq_ok, orRaise_eq_ok]
    exact ⟨b, rfl, hb⟩
  have hdecode : SdJwt.decodeSegments (compactText hb pb sb) = .ok
      (⟨Codec.b64urlEncode hb, Codec.b64urlEncode pb, Codec.b64urlEncode sb⟩, .obj header,
        .obj payload, sb) := by
    simp only [SdJwt.decodeSegments, bind_eq_ok, orRaise_eq_ok, pure_eq_ok]
    exact ⟨_, hsegments, _, hload hh, _, hload hp, _, Codec.b64urlDecodePadded_b64urlEncode _, rfl⟩
  have hparse : Pipeline.parseCompact (compactText hb pb sb) = .ok ⟨header, payload,
      (Codec.b64urlEncode hb ++ 46 :: Codec.b64urlEncode pb).map UInt8.ofNat, sb⟩ := by
    simp only [Pipeline.parseCompact, bind_eq_ok, recast_eq_ok, orRaise_eq_ok, pure_eq_ok]
    exact ⟨_, hdecode, header, rfl, payload, rfl, _, SdJwt.encodeAscii_signingInput _ _, rfl⟩
  simp only [readToken, Token.text, bind_eq_ok, raiseIf_eq_ok, reraise_eq_ok]
  exact ⟨_, rfl, (), by simpa using hmax, hparse⟩

/-- The operator's certificate in base64. -/
def operatorBase64 : Str :=
  List.flatMap lit
    ["MIHZMIGMAgEBMAUGAytlcDAZMQswCQYDVQQGEwJFVTEKMAgGA1UECgwBTzAeFw0y",
     "NjAxMDEwMDAwMDBaFw0yODAxMDEwMDAwMDBaMBkxCzAJBgNVBAYTAkVVMQowCAYD",
     "VQQKDAFPMCowBQYDK2VwAyEA71awgHrPz68IwKT6yYEBciV0osBd2Aj+Df7EdDt0",
     "R4EwBQYDK2VwA0EA0dpA9g/DS32nuehJJ71tD98cMvvi0d7mg9z4dk0RbP2LpDPy",
     "tnt7FcGKdrYd4XqSSgy+I7t3zzeSBhHY7Q8RDQ=="]

/-- The header of a list: the algorithm and the operator's certificate. -/
def listHeader : Bytes :=
  (lit "\x7b\"alg\":\"EdDSA\",\"x5c\":[\"" ++ operatorBase64 ++ lit "\"]\x7d").map UInt8.ofNat

/-- The identity of a service or of a signer that the operator's certificate gives. -/
def operatorIdentity : Str :=
  lit "\x7b\"X509Certificates\":[\x7b\"val\":\"" ++ operatorBase64 ++ lit "\"\x7d]\x7d"

/-- A list with some pointers and one service, of type `X`. -/
def listText (pointers identity : Str) : Bytes :=
  (List.flatMap lit
    ["\x7b\"LoTE\":\x7b\"ListAndSchemeInformation\":\x7b\"LoTEVersionIdentifier\":1,",
     "\"LoTESequenceNumber\":1,\"LoTEType\":\"L\",\"SchemeOperatorName\":[\x7b\"lang\":\"en\",",
     "\"value\":\"O\"\x7d],\"StatusDeterminationApproach\":\"D\",",
     "\"SchemeTypeCommunityRules\":[\x7b\"lang\":\"en\",\"uriValue\":\"R\"\x7d],",
     "\"SchemeTerritory\":\"EU\",\"ListIssueDateTime\":\"2026-08-31T00:00:00Z\",",
     "\"NextUpdate\":\"2027-02-28T00:00:00Z\""] ++ pointers ++
    List.flatMap lit
    ["\x7d,\"TrustedEntitiesList\":[\x7b\"TrustedEntityInformation\":\x7b",
     "\"TEName\":[\x7b\"lang\":\"en\",\"value\":\"T\"\x7d],\"TEAddress\":\x7b\x7d,",
     "\"TEInformationURI\":[\x7b\"lang\":\"en\",\"uriValue\":\"u\"\x7d]\x7d,",
     "\"TrustedEntityServices\":[\x7b\"ServiceInformation\":\x7b\"ServiceName\":",
     "[\x7b\"lang\":\"en\",\"value\":\"S\"\x7d],\"ServiceTypeIdentifier\":\"X\",",
     "\"ServiceDigitalIdentity\":"] ++ identity ++
    lit "\x7d\x7d]\x7d]\x7d\x7d").map UInt8.ofNat

/-- A list with one service, which has no certificate and names a foreign type. -/
def foreignList : Bytes := listText [] "\x7b\x7d"

/-- The operator's signature of that list. -/
def foreignSignature : Bytes :=
  Codec.intToFixed 0xe542864e72896619ddba093e354c59d663bb77f80d8ebf39cef2a3171e54ff52 32 ++
    Codec.intToFixed 0x0bfe78b86aee6f9da6436ea26bdedcc85bc33b86748885162628a406eb6ad706 32

/-- The operator's certificate. -/
def operatorDer : Bytes :=
  Codec.intToFixed
    0x3081d930818c020101300506032b65703019310b3009060355040613024555310a3008060355040a0c014f301e170d3236303130313030303030305a170d3238303130313030303030305a3019310b3009060355040613024555310a3008060355040a0c014f302a300506032b6570032100ef56b0807acfcfaf08c0a4fac98101722574a2c05dd808fe0dfec4743b744781300506032b6570034100d1da40f60fc34b7da7b9e84927bd6d0fdf1c32fbe2d1dee683dcf8764d116cfd8ba433f2b67b7b15c18a76b61de17a924a0cbe23bb77cf37920611d8ed0f110d
    220

/-- The key in that certificate. -/
def operatorKey : Bytes :=
  Codec.intToFixed 0xef56b0807acfcfaf08c0a4fac98101722574a2c05dd808fe0dfec4743b744781 32

/-- The certificates as X.509 has them: `C=EU, O=O` with an Ed25519 key, valid from 2026 to 2028. -/
def operatorX509 : SignerX509 where
  Certificate := Unit
  loadDer der := if der = operatorDer then .ok () else .error "ASN.1"
  verifyPath _ _ _ _ := .error "validation failed"
  subjectAltName _ := .ok none
  publicKey _ := .ed25519 operatorKey
  extendedKeyUsage _ := .ok none
  notValidBefore _ := 1767225600000000
  notValidAfter _ := 1830297600000000

/-- The host, in January 2027; the operator signed one list. -/
def signedEnv (list signature : Bytes) : Env where
  interpreter := .atSecond 1800000000 []
  crypto :=
    { Crypto.ofTable [] with
      ed25519Verify := fun key message sig => key == operatorKey &&
        message == (Codec.b64urlEncode listHeader ++ 46 :: Codec.b64urlEncode list).map
          UInt8.ofNat && sig == signature }
  x509 := operatorX509
  der _ := operatorDer
  organizationNames _ := .ok ["O"]
  countryNames _ := .ok ["EU"]
  midnight _ := none

/-- The host where the operator signed the list above. -/
def operatorEnv : Env := signedEnv foreignList foreignSignature

/-- A profile with one service type. -/
def oneTypeProfile : LoteProfile where
  name := "P"
  loteType := "L"
  statusDetermination := ["D"]
  schemeRules := "R"
  territory := "EU"
  serviceTypes := ["S"]
  anchorServiceTypes := ["S"]

/-- A call that pins the operator's certificate. -/
def operatorCall : Call operatorEnv where
  expectedSignerCerts := [()]
  profile := some oneTypeProfile

/-- The checks of a header on which nothing but the header bears. -/
def headerPasses (header : Dict) : Bool :=
  (header.get "alg").str? == some (lit "EdDSA") && returned (rejectUnknownCrit header) &&
    !(header.get "x5c").isNull &&
      returned (X5c.loadX5cChain operatorX509.toX509 (header.get "x5c"))

/-- The checks of a payload. -/
def payloadPasses (payload : Dict) : Bool :=
  returned (do
    let list ← parseLoteObject operatorEnv (.obj payload)
    let loteObj := ((payload.get "LoTE").obj?).getD []
    let scheme := ((loteObj.get "ListAndSchemeInformation").obj?).getD []
    checkSignerDn operatorEnv () scheme list.territory
    checkProfile operatorEnv list loteObj oneTypeProfile)

/-- The type identifiers of the services of a payload. -/
def typeNames (payload : Dict) : List (Option Str) :=
  let loteObj := ((payload.get "LoTE").obj?).getD []
  (serviceInfos loteObj).map fun info => (info.get "ServiceTypeIdentifier").str?

theorem listHeader_passes :
    ∃ header, loadsBytes listHeader = .ok (.obj header) ∧ headerPasses header = true := by
  have heval : (loadsBytes listHeader).toOption.map
      (fun v => v.obj?.map headerPasses) = some (some true) := by
    decide +kernel
  obtain ⟨v, hv, hmap⟩ := exists_ok_of_map heval
  obtain ⟨header, hheader, hpass⟩ := Option.map_eq_some_iff.mp hmap
  rw [Json.obj?_eq_some] at hheader
  subst hheader
  exact ⟨header, hv, hpass⟩

theorem foreignList_passes : ∃ payload, loadsBytes foreignList = .ok (.obj payload) ∧
    payloadPasses payload = true ∧ typeNames payload = [some (lit "X")] := by
  have heval : (loadsBytes foreignList).toOption.map (fun v => v.obj?.map fun payload =>
      (payloadPasses payload, typeNames payload)) = some (some (true, [some (lit "X")])) := by
    unfold foreignList listText
    simp only [List.flatMap_cons, List.flatMap_nil]
    repeat rw [lit_ofList]
    decide +kernel
  obtain ⟨v, hv, hmap⟩ := exists_ok_of_map heval
  obtain ⟨payload, hpayload, hpass⟩ := Option.map_eq_some_iff.mp hmap
  rw [Json.obj?_eq_some] at hpayload
  subst hpayload
  rw [Prod.mk.injEq] at hpass
  exact ⟨payload, hv, hpass⟩

/-- The token that carries that list. -/
def foreignToken : Token := .str (compactText listHeader foreignList foreignSignature)

section Signed

variable {list signature : Bytes}

/-- The operator's signature of the list passes. -/
theorem checkLoteSignature_signed {header payload : Dict} :
    checkLoteSignature (signedEnv list signature) "EdDSA" () ⟨header, payload,
      (Codec.b64urlEncode listHeader ++ 46 :: Codec.b64urlEncode list).map UInt8.ofNat, signature⟩ =
        .ok () := by
  have halg : lit "EdDSA" ∈ ed25519AlgNames := by decide
  have hlen : operatorKey.length = 32 := by decide +kernel
  simp only [checkLoteSignature, bind_eq_ok, reraise_eq_ok, raiseIf_eq_ok]
  refine ⟨[("kty", .str "OKP"), ("crv", .str "Ed25519"), ("x", .str (Codec.b64urlEncode operatorKey))],
    rfl, true, ?_, rfl⟩
  rw [verifySignature, if_pos halg]
  simp only [bind_eq_ok, orRaise_eq_ok, raiseIf_eq_ok, pure_eq_ok]
  refine ⟨operatorKey, Codec.b64urlDecodePadded_b64urlEncode _, (), by simp [hlen], ?_⟩
  simp [signedEnv]

/-- The operator's certificate is pinned. -/
theorem authenticateSigner_signed (chain : X5c.Chain (signedEnv list signature).x509.toX509)
    {now : Option DateTime} {instant : Int}
    (hnow : utcInstant (signedEnv list signature).interpreter now .trustListError = .ok instant)
    (hwindow : 1767225600000000 ≤ instant ∧ instant ≤ 1830297600000000) :
    authenticateSigner (signedEnv list signature) chain [()] now = .ok () := by
  have hpinned : ([()].any fun c => (signedEnv list signature).der chain.1 ==
      (signedEnv list signature).der c) = true := by
    rw [List.any_cons, Bool.or_eq_true]
    exact .inl (beq_self_eq_true operatorDer)
  simp only [authenticateSigner, bind_eq_ok]
  refine ⟨(), rfl, (if_pos hpinned).trans ?_⟩
  simp only [checkPinnedWindow, bind_eq_ok, raiseIf_eq_ok]
  have hin : (decide ((1767225600000000 : Int) ≤ instant) &&
      decide (instant ≤ 1830297600000000)) = true := by simpa using hwindow
  exact ⟨instant, hnow, congrArg Bool.not hin⟩

/-- The list is consumed where its content passes. -/
theorem consumeLote_signed (call : Call (signedEnv list signature)) (instant : Int) {payload : Dict}
    {parsed : TrustedList (Cert (signedEnv list signature))}
    (hlist : loadsBytes list = .ok (.obj payload))
    (hsize : list.length ≤ 65536) (hsignature : signature.length = 64)
    (hcap : call.maxBytes = 16777216) (hcerts : call.expectedSignerCerts = [()])
    (hnow : utcInstant (signedEnv list signature).interpreter call.now .trustListError = .ok instant)
    (hwindow : 1767225600000000 ≤ instant ∧ instant ≤ 1830297600000000)
    (hparsed : parseLoteObject (signedEnv list signature) (.obj payload) = .ok parsed)
    (hdn : checkSignerDn (signedEnv list signature) ()
      ((Dict.get ((payload.get "LoTE").obj?.getD []) "ListAndSchemeInformation").obj?.getD [])
      parsed.territory = .ok ())
    (hgate : checkProfileIfGiven (signedEnv list signature) parsed
      ((payload.get "LoTE").obj?.getD []) call.profile = .ok ()) :
    ∃ jws, readToken (.str (compactText listHeader list signature)) call.maxBytes = .ok jws ∧
      jws.payload = payload ∧
      consumeLote (signedEnv list signature) call (.str (compactText listHeader list signature)) =
        .ok parsed := by
  obtain ⟨header, hheader, hpass⟩ := listHeader_passes
  simp only [headerPasses, Bool.and_eq_true, beq_iff_eq, returned_iff, Bool.not_eq_true'] at hpass
  obtain ⟨⟨⟨halg, ⟨⟩, hcrit⟩, hx5c⟩, chain, hload⟩ := hpass
  have hchain : signerChain (signedEnv list signature) header = .ok chain :=
    bind_eq_ok.mpr ⟨(), raiseIf_eq_ok.mpr hx5c, reraise_eq_ok.mpr hload⟩
  have hheaderSize : listHeader.length ≤ 65536 := by decide +kernel
  have hlength := length_compactText_le listHeader list signature
  have hread := @readToken_compactText _ _ signature _ _ _ hheader hlist
    (show ((compactText listHeader list signature).length : Int) ≤ call.maxBytes by omega)
  have hauth : authenticateSigner (signedEnv list signature) chain call.expectedSignerCerts
      call.now = .ok () := by
    rw [hcerts]
    exact @authenticateSigner_signed list signature chain _ _ hnow hwindow
  refine ⟨_, hread, rfl, ?_⟩
  simp only [consumeLote, bind_eq_ok, orRaise_eq_ok, pure_eq_ok]
  refine ⟨_, hread, "EdDSA", ?_, (), hcrit, chain, hchain, (), hauth, (), checkLoteSignature_signed,
    parsed, hparsed, (), hdn, (), hgate, rfl⟩
  rw [halg]
  rfl

end Signed

theorem foreignToken_consumed : ∃ list payload, consumeLote operatorEnv operatorCall foreignToken =
    .ok list ∧ typeNames payload = [some (lit "X")] ∧
      ∃ jws, readToken foreignToken operatorCall.maxBytes = .ok jws ∧ jws.payload = payload := by
  obtain ⟨payload, hpayload, hppass, htypes⟩ := foreignList_passes
  have hsize : foreignList.length ≤ 65536 := by
    unfold foreignList listText
    simp only [List.flatMap_cons, List.flatMap_nil]
    repeat rw [lit_ofList]
    decide +kernel
  simp only [payloadPasses, returned_iff, bind_eq_ok] at hppass
  obtain ⟨⟨⟩, list, hlist, ⟨⟩, hdn, hgate⟩ := hppass
  obtain ⟨jws, hread, hjws, hconsume⟩ := consumeLote_signed operatorCall 1800000000000000 hpayload
    hsize (by decide +kernel) rfl rfl rfl (by decide) hlist hdn hgate
  exact ⟨list, payload, hconsume, htypes, jws, hread, hjws⟩

/-- A list with a service of a foreign type passes the gate. -/
theorem foreignToken_ungated : operatorCall.profile = some oneTypeProfile ∧
    (∃ list, consumeLote operatorEnv operatorCall foreignToken = .ok list) ∧
    ∃ jws lote, readToken foreignToken operatorCall.maxBytes = .ok jws ∧
      jws.payload.get "LoTE" = .obj lote ∧ ¬ ServiceGate oneTypeProfile lote := by
  obtain ⟨list, payload, hlist, htypes, jws, hread, rfl⟩ := foreignToken_consumed
  obtain ⟨jws', lote, scheme, hread', hparsed, -⟩ := consumed_of_consumeLote hlist rfl
  rw [hread] at hread'
  cases hread'
  refine ⟨rfl, ⟨list, hlist⟩, jws, lote, hread, hparsed.loteObj, fun hgate => ?_⟩
  rw [typeNames, hparsed.loteObj] at htypes
  obtain ⟨info, hmem, htype⟩ := List.mem_map.mp
    (htypes ▸ List.mem_singleton_self (some (lit "X")))
  obtain ⟨v, hv, svc, rfl, hinfo⟩ := exists_of_mem_serviceInfos hmem
  obtain ⟨info', ⟨svc', hsvc', hinfo'⟩, ⟨t, ht, hget⟩, -⟩ := hgate _ hv
  cases hsvc'
  rw [hinfo] at hinfo'
  cases hinfo'
  rw [Dict.get, hget] at htype
  have ht : t = lit "S" := List.mem_singleton.mp ht
  rw [ht] at htype
  have hne : lit "S" ≠ lit "X" := by decide
  exact hne (Option.some.inj htype)

theorem consumeLote_serviceGate_foreign : ∃ list jws lote scheme,
    consumeLote operatorEnv operatorCall foreignToken = .ok list ∧
    operatorCall.profile = some oneTypeProfile ∧
    readToken foreignToken operatorCall.maxBytes = .ok jws ∧
    jws.payload.get "LoTE" = .obj lote ∧ Dict.get lote "ListAndSchemeInformation" = .obj scheme ∧
    (SchemeGate operatorEnv oneTypeProfile scheme ∧ ServiceGate oneTypeProfile lote ↔
      UnseenNameTypes operatorEnv oneTypeProfile lote) := by
  obtain ⟨list, payload, hlist, -⟩ := foreignToken_consumed
  obtain ⟨jws, lote, scheme, hread, hlote, hscheme, hiff⟩ :=
    consumeLote_serviceGate_iff operatorEnv operatorCall foreignToken oneTypeProfile list rfl hlist
  exact ⟨list, jws, lote, scheme, hlist, rfl, hread, hlote, hscheme, hiff⟩

end OpenVC.Lote
