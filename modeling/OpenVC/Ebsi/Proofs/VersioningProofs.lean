import OpenVC.Ebsi.Versioning

/-!
# What a registry record says about its accreditations

Whatever the registry answers, on every lane the scope and the kind of an accreditation in a record are
those of the very token the record carries.
-/

namespace OpenVC.Ebsi

open Python

/-! ## The claims of an accreditation token -/

/-- A type is listed in the `accreditedFor` of a credential, by itself or in the `types` of an entry. -/
def AccreditedFor (credential : Dict) (t : Str) : Prop :=
  ∃ cs entries, credential.get "credentialSubject" = .obj cs ∧
    Dict.get cs "accreditedFor" = .arr entries ∧
    (.str t ∈ entries ∨
      ∃ m types, .obj m ∈ entries ∧ Dict.get m "types" = .arr types ∧ .str t ∈ types)

/-- The `type` of a credential names a kind. -/
def NamesKind (credential : Dict) (kind : Str) : Prop :=
  credential.get "type" = .str kind ∨ ∃ kinds, credential.get "type" = .arr kinds ∧ .str kind ∈ kinds

theorem mem_of_collect_str {l : List Json} {e : Json → Err} {ss : List Str} {s : Str}
    (h : collect (fun v => orRaise v.str? (e v)) l = .ok ss) : s ∈ ss ↔ .str s ∈ l := by
  simp only [mem_collect h, orRaise_eq_ok, Json.str?_eq_some, exists_eq_right]

theorem getD_arr_eq {d : Dict} {k : Str} {l : List Json}
    (h : ((d.get? k).getD (.arr [])).arr? = some l) :
    (l = [] ∧ d.get? k = none) ∨ d.get k = .arr l := by
  rw [Dict.get]
  cases hk : d.get? k with
  | none =>
    rw [hk] at h
    exact Or.inl ⟨(Option.some.inj h).symm, rfl⟩
  | some v =>
    rw [hk] at h
    right
    cases v with
    | arr l' => exact congrArg Json.arr (Option.some.inj h)
    | _ => cases h

theorem mem_iff_of_getD_arr {d : Dict} {k : Str} {l : List Json} {v : Json}
    (h : ((d.get? k).getD (.arr [])).arr? = some l) :
    v ∈ l ↔ ∃ l', d.get k = .arr l' ∧ v ∈ l' := by
  rcases getD_arr_eq h with ⟨rfl, hn⟩ | hl
  · simp [Dict.get, hn]
  · simp [hl]

/-- The types of one entry of `accreditedFor`. -/
theorem mem_wireEntry {what : Str} {entry : Json × Nat} {types : List Str} {t : Str}
    (h : wireEntry what entry = .ok types) :
    t ∈ types ↔ entry.1 = .str t ∨
      ∃ m members, entry.1 = .obj m ∧ Dict.get m "types" = .arr members ∧ .str t ∈ members := by
  obtain ⟨v, index⟩ := entry
  cases v with
  | str s =>
    cases h
    simp [eq_comm]
  | obj m =>
    simp only [wireEntry, bind_eq_ok, orRaise_eq_ok] at h
    obtain ⟨members, hm, hc⟩ := h
    rw [mem_of_collect_str hc, mem_iff_of_getD_arr hm]
    simp
  | _ => cases h

theorem mem_wireAccreditedFor {subject : Dict} {what : Str} {types : List Str} {t : Str}
    (h : wireAccreditedFor subject what = .ok types) :
    t ∈ types ↔ ∃ entries, subject.get "accreditedFor" = .arr entries ∧
      (.str t ∈ entries ∨
        ∃ m members, .obj m ∈ entries ∧ Dict.get m "types" = .arr members ∧ .str t ∈ members) := by
  simp only [wireAccreditedFor, bind_eq_ok, orRaise_eq_ok, pure_eq_ok] at h
  obtain ⟨entries, he, lists, hc, rfl⟩ := h
  have hmem : t ∈ lists.flatten ↔ ∃ v ∈ entries, v = .str t ∨
      ∃ m members, v = .obj m ∧ Dict.get m "types" = .arr members ∧ .str t ∈ members := by
    rw [List.mem_flatten]
    constructor
    · rintro ⟨types, htypes, ht⟩
      obtain ⟨entry, hentry, hread⟩ := (mem_collect hc).mp htypes
      exact ⟨entry.1, List.fst_mem_of_mem_zipIdx hentry, (mem_wireEntry hread).mp ht⟩
    · rintro ⟨v, hv, hvt⟩
      -- an entry of the list was read, since all were
      obtain ⟨n, hn⟩ := List.mem_iff_getElem?.mp hv
      have hz : (v, n) ∈ entries.zipIdx := List.mem_zipIdx_iff_getElem?.mpr hn
      obtain ⟨types, htypes⟩ := collect_returned hc hz
      exact ⟨types, (mem_collect hc).mpr ⟨_, hz, htypes⟩, (mem_wireEntry htypes).mpr hvt⟩
  rw [List.mem_eraseDups, hmem]
  constructor
  · rintro ⟨v, hv, hvt⟩
    obtain ⟨entries', hg, hv'⟩ := (mem_iff_of_getD_arr he).mp hv
    refine ⟨entries', hg, ?_⟩
    rcases hvt with rfl | ⟨m, members, rfl, hm, ht⟩
    · exact Or.inl hv'
    · exact Or.inr ⟨m, members, hv', hm, ht⟩
  · rintro ⟨entries', hg, ht | ⟨m, members, hm, ht⟩⟩
    · exact ⟨_, (mem_iff_of_getD_arr he).mpr ⟨entries', hg, ht⟩, Or.inl rfl⟩
    · exact ⟨_, (mem_iff_of_getD_arr he).mpr ⟨entries', hg, hm⟩, Or.inr ⟨m, members, rfl, ht⟩⟩

theorem mem_wireVcType {vc : Dict} {what : Str} {kinds : List Str} {kind : Str}
    (h : wireVcType vc what = .ok kinds) : kind ∈ kinds ↔ NamesKind vc kind := by
  rw [wireVcType] at h
  rw [NamesKind, Dict.get]
  cases hg : vc.get? "type" with
  | none =>
    rw [hg] at h
    cases h
    simp
  | some v =>
    rw [hg] at h
    cases v with
    | str s =>
      cases h
      simp [eq_comm]
    | arr l =>
      rw [mem_of_collect_str h]
      simp
    | _ => cases h

theorem get_wireObject {obj vc : Dict} {key what : Str} (h : wireObject obj key what = .ok vc) :
    (vc = [] ∧ obj.get? key = none) ∨ obj.get key = .obj vc := by
  rw [wireObject, orRaise_eq_ok] at h
  rw [Dict.get]
  cases hk : obj.get? key with
  | none =>
    rw [hk] at h
    exact Or.inl ⟨(Option.some.inj h).symm, rfl⟩
  | some v =>
    rw [hk] at h
    exact Or.inr (Json.obj?_eq_some.mp h)

/-- The scope of a token whose claims have a `vc`: its `accreditedFor` and its `type`. -/
theorem scopeOfClaims_spec {claims vc : Dict} {scope : TokenScope}
    (h : scopeOfClaims (.obj claims) = .ok scope) (hvc : claims.get "vc" = .obj vc) :
    (∀ t, t ∈ scope.credentialTypes ↔ AccreditedFor vc t) ∧
      ∀ kind, kind ∈ scope.accreditationTypes ↔ NamesKind vc kind := by
  simp only [scopeOfClaims, requireObject, bind_eq_ok, orRaise_eq_ok, pure_eq_ok,
    Json.obj?_eq_some] at h
  obtain ⟨_, hobj, vc', hvc', kinds, hkinds, subject, hsubject, types, htypes, rfl⟩ := h
  cases hobj
  have heq : vc' = vc := by
    rcases get_wireObject hvc' with ⟨-, hn⟩ | hg
    · rw [Dict.get, hn] at hvc
      cases hvc
    · rw [hvc] at hg
      exact (Json.obj.inj hg).symm
  subst heq
  refine ⟨fun t => ?_, fun kind => mem_wireVcType hkinds⟩
  rw [mem_wireAccreditedFor htypes, AccreditedFor]
  rcases get_wireObject hsubject with ⟨rfl, hn⟩ | hg
  · simp [Dict.get, hn]
  · simp [hg]

/-! ## Records -/

/-- The scope and the kind of an accreditation are those of the token it carries. -/
def Accreditation.ReadFrom (decode : Str → Result Json) (acc : Accreditation) : Prop :=
  typesFromToken decode acc.credentialJwt = .ok ⟨acc.credentialTypes, acc.accreditationTypes⟩

theorem readAccreditation_readFrom {decode : Str → Result Json} {attr : Dict} {id : Result Str}
    {acc : Accreditation} (h : readAccreditation decode attr id = .ok acc) :
    acc.ReadFrom decode := by
  simp only [readAccreditation, bind_eq_ok, pure_eq_ok] at h
  obtain ⟨body, -, _, -, _, -, _, -, _, -, scope, hscope, rfl⟩ := h
  exact hscope

theorem parseIssuerV4_readFrom {decode : Str → Result Json} {raw : Dict} {did : Str}
    {record : IssuerRecord} (h : parseIssuerV4 decode raw did = .ok record) :
    ∀ acc ∈ record.accreditations, acc.ReadFrom decode := by
  simp only [parseIssuerV4, bind_eq_ok, pure_eq_ok] at h
  obtain ⟨_, -, ⟨⟩, -, accs, haccs, rfl⟩ := h
  intro acc hacc
  obtain ⟨a, -, ha⟩ := (mem_collect haccs).mp hacc
  exact readAccreditation_readFrom ha

namespace AttributeWalk

variable {W : AttributeWalk}

theorem readItem_readFrom {n : Nat} {item : Dict} {accs : List Accreditation}
    (h : W.readItem n item = .ok accs) : ∀ acc ∈ accs, acc.ReadFrom W.decode := by
  rw [readItem] at h
  split at h
  · split at h
    · cases h
      simp
    · simp only [readRevision, bind_eq_ok, pure_eq_ok] at h
      obtain ⟨acc, ⟨_, -, _, -, _, -, attr, -, hacc⟩, rfl⟩ := h
      simpa using readAccreditation_readFrom hacc
  · cases h
    simp

theorem readItems_readFrom {items : List Json} {n n' : Nat} {accs accs' : List Accreditation}
    {capped : Bool} (h : W.readItems items n accs = .ok (n', accs', capped))
    (haccs : ∀ acc ∈ accs, acc.ReadFrom W.decode) : ∀ acc ∈ accs', acc.ReadFrom W.decode := by
  induction items generalizing n accs with
  | nil =>
    cases h
    exact haccs
  | cons v items ih =>
    cases v with
    | obj item =>
      rw [readItems] at h
      obtain ⟨new, hnew, h⟩ := bind_eq_ok.mp h
      have hboth : ∀ acc ∈ accs ++ new, acc.ReadFrom W.decode := by
        intro acc hacc
        rcases List.mem_append.mp hacc with hacc | hacc
        · exact haccs acc hacc
        · exact readItem_readFrom hnew acc hacc
      split at h
      · cases h
        exact hboth
      · exact ih h hboth
    | _ => exact ih h haccs

theorem readPages_readFrom {pagesOrigin : Str} {pages : Nat} {url : Option Str} {seen : List Str}
    {collected : Nat} {total : Option Int} {accs accs' : List Accreditation}
    (h : W.readPages pagesOrigin pages url seen collected total accs = .ok accs')
    (haccs : ∀ acc ∈ accs, acc.ReadFrom W.decode) : ∀ acc ∈ accs', acc.ReadFrom W.decode := by
  induction pages generalizing url seen collected total accs with
  | zero =>
    cases h
    exact haccs
  | succ pages ih =>
    cases url with
    | none =>
      cases h
      exact haccs
    | some url =>
      rw [readPages] at h
      split at h
      · cases h
        exact haccs
      · obtain ⟨body, -, h⟩ := bind_eq_ok.mp h
        obtain ⟨page, -, h⟩ := bind_eq_ok.mp h
        split at h
        · obtain ⟨⟨n, new, capped⟩, hitems, h⟩ := bind_eq_ok.mp h
          have hnew := readItems_readFrom hitems haccs
          simp only at h
          split at h
          · cases h
            exact hnew
          · obtain ⟨next, -, h⟩ := bind_eq_ok.mp h
            exact ih h hnew
        · cases h
          exact haccs

end AttributeWalk

namespace DidEbsiResolver

variable {R : DidEbsiResolver} {I : Interpreter} {hop : Nat} {did : Str} {record : IssuerRecord}

theorem issuerRecord_readFrom (h : R.issuerRecord I hop did = .ok record) :
    ∀ acc ∈ record.accreditations, acc.ReadFrom R.decode := by
  simp only [issuerRecord, bind_eq_ok] at h
  obtain ⟨⟨⟩, -, body, -, raw, -, ⟨⟩, -, h⟩ := h
  rw [parseIssuer] at h
  split at h
  · exact parseIssuerV4_readFrom h
  · simp only [parseIssuerWalk, bind_eq_ok] at h
    obtain ⟨hasAttributes, -, h⟩ := h
    split at h
    · simp only [bind_eq_ok, pure_eq_ok, AttributeWalk.read] at h
      obtain ⟨listingOrigin, -, accs, ⟨_, -, _, -, _, -, haccs⟩, rfl⟩ := h
      exact AttributeWalk.readPages_readFrom haccs (by simp)
    · cases h
      simp

theorem resolve_id {C : Crypto} {doc : Did.DidDocument} (h : R.resolve C hop did = .ok doc) :
    doc.id = did := by
  simp only [resolve, bind_eq_ok, raiseIf_eq_ok, pure_eq_ok] at h
  obtain ⟨⟨⟩, -, raw, -, doc', -, ⟨⟩, hid, rfl⟩ := h
  simpa using hid

end DidEbsiResolver

end OpenVC.Ebsi
