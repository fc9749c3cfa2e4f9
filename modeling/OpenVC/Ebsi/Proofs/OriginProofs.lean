import OpenVC.Ebsi.Proofs.ContractAddressProofs
import OpenVC.Python.Numeral

/-!
# Origins

A URL is on the origin of another if both have the same scheme, host and port. The text of an origin
tells its components apart, and a link that is bound to a contract address stays on its origin.
-/

namespace OpenVC.Ebsi

open Python

variable {I : Interpreter} {url u : Str} {o : Str}

theorem readOrigin_eq_ok {p : Origin} (h : readOrigin I url = .ok p) :
    url.all isVisibleAscii = true ∧ p.scheme = (Url.splitScheme url).1 := by
  unfold readOrigin at h
  split at h
  · cases h
  · rename_i hvisible
    refine ⟨by simpa using hvisible, ?_⟩
    split at h
    · cases h
    · rename_i parts hparts
      rw [← (Url.urlsplit_eq_some hparts).1]
      split at h
      · cases h
      · cases h
        rfl
      · cases h
        rfl

theorem origin_eq_ok : origin I url = .ok o ↔
    ¬ maxUrlLength < url.length ∧ ∃ p, readOrigin I url = .ok p ∧ p.text = o := by
  rw [origin, bind_eq_ok]
  simp only [raiseIf_eq_ok, exists_const]
  refine and_congr (by simp) ?_
  cases hread : readOrigin I url with
  | ok p => simp
  | error e =>
    cases e with
    | notVisibleAscii => simp [raise]
    | doesNotParse => simp [raise]

theorem onOrigin_iff : onOrigin I url o = true ↔ origin I url = .ok o := by
  unfold onOrigin
  split
  · rename_i o' ho
    simp [ho]
  · rename_i e he
    simp [he]

theorem colon_not_mem_scheme (url : Str) : 58 ∉ (Url.splitScheme url).1 := by
  unfold Url.splitScheme
  split
  · rename_i hs
    intro hmem
    have hchars := (Url.hasScheme_eq_true hs).2.chars
    exact absurd (List.all_eq_true.mp hchars 58 hmem) (by decide)
  · exact List.not_mem_nil

theorem colon_not_mem_port (port : Option Nat) : 58 ∉ (port.map Str.ofNat).getD [] := by
  cases port with
  | none => exact List.not_mem_nil
  | some n =>
    intro hmem
    have := Str.isDigit_of_mem_ofNat hmem
    revert this
    decide

theorem Origin.text_inj {p q : Origin} (hp : 58 ∉ p.scheme) (hq : 58 ∉ q.scheme)
    (h : p.text = q.text) : p = q := by
  have hsplit : ∀ o : Origin, o.text = o.scheme ++ 58 :: (47 :: 47 :: (o.host ++
      58 :: (o.port.map Str.ofNat).getD [])) := by
    intro o
    simp [Origin.text, lit_eq]
  rw [hsplit, hsplit] at h
  have hscheme := congrArg (Str.partition 58) h
  rw [Str.partition_append hp, Str.partition_append hq] at hscheme
  simp only [Prod.mk.injEq, true_and, List.cons.injEq] at hscheme
  obtain ⟨hs, hrest⟩ := hscheme
  have hport := congrArg (Str.partition 58 ∘ List.reverse) hrest
  simp only [Function.comp_apply, List.reverse_append, List.reverse_cons, List.append_assoc,
    List.singleton_append] at hport
  rw [Str.partition_append (by simpa using colon_not_mem_port p.port),
    Str.partition_append (by simpa using colon_not_mem_port q.port)] at hport
  simp only [Prod.mk.injEq, List.reverse_inj, true_and] at hport
  have hnat : ∀ a b : Option Nat, (a.map Str.ofNat).getD [] = (b.map Str.ofNat).getD [] → a = b := by
    intro a b hab
    cases a with
    | none =>
      cases b with
      | none => rfl
      | some n => exact absurd hab.symm (Str.ofNat_ne_nil n)
    | some m =>
      cases b with
      | none => exact absurd hab (Str.ofNat_ne_nil m)
      | some n =>
        have := congrArg Str.toNat hab
        simp only [Option.map_some, Option.getD_some, Str.toNat_ofNat] at this
        rw [this]
  have hports := hnat p.port q.port hport.1
  cases p
  cases q
  simp only [Origin.mk.injEq]
  exact ⟨hs, hport.2, hports⟩

/-- A URL on the origin of another: both read, with the same scheme, host and port. -/
def SameOrigin (I : Interpreter) (url u : Str) : Prop :=
  ∃ p, readOrigin I url = .ok p ∧ readOrigin I u = .ok p

theorem sameOrigin_of_origin (h : origin I url = .ok o) (h' : origin I u = .ok o) :
    SameOrigin I url u := by
  obtain ⟨-, p, hp, hpo⟩ := origin_eq_ok.mp h
  obtain ⟨-, q, hq, hqo⟩ := origin_eq_ok.mp h'
  have hpq : p = q := by
    refine Origin.text_inj ?_ ?_ (hpo.trans hqo.symm)
    · rw [(readOrigin_eq_ok hp).2]
      exact colon_not_mem_scheme url
    · rw [(readOrigin_eq_ok hq).2]
      exact colon_not_mem_scheme u
  exact ⟨p, hp, hpq ▸ hq⟩

theorem origin_of_sameOrigin (hs : SameOrigin I url u) (h : origin I url = .ok o) {o' : Str}
    (h' : origin I u = .ok o') : o' = o := by
  obtain ⟨p, hp, hu⟩ := hs
  obtain ⟨-, q, hq, rfl⟩ := origin_eq_ok.mp h
  obtain ⟨-, r, hr, rfl⟩ := origin_eq_ok.mp h'
  obtain rfl := Except.ok.inj (hp.symm.trans hq)
  obtain rfl := Except.ok.inj (hu.symm.trans hr)
  rfl

theorem TirAdapter.follow_sameOrigin {tir : TirAdapter} {issuer : Str}
    (hs : SameOrigin I issuer url) (h : tir.follow I url = .ok u) : SameOrigin I issuer u := by
  obtain ⟨p, hissuer, hp⟩ := hs
  refine ⟨p, hissuer, ?_⟩
  unfold TirAdapter.follow at h
  split at h
  · rename_i address
    obtain ⟨parts, hparts, hsemi, -, rfl⟩ := onContractAddress_eq_ok.mp h
    split
    · rename_i hnone
      have hvisible := (readOrigin_eq_ok hp).1
      have hbound : BoundTo I url address.text _ := boundTo_withParam hvisible hparts hsemi hnone
      exact hbound.origin.trans hp
    · exact hp
  · obtain rfl := Except.ok.inj h
    exact hp

/-- An origin is read off the scheme and the authority. -/
theorem readOrigin_congr (hscheme : (Url.splitScheme url).1 = (Url.splitScheme u).1)
    (hnetloc : (Url.splitNetloc (Url.splitScheme url).2).1 =
      (Url.splitNetloc (Url.splitScheme u).2).1)
    (hurl : url.all isVisibleAscii = true) (hu : u.all isVisibleAscii = true) :
    readOrigin I url = readOrigin I u := by
  simp only [readOrigin, hurl, hu, Url.urlsplit, hscheme, hnetloc]
  by_cases hb : Url.bracketsOk I.bracketedNetloc
      (Url.splitNetloc (Url.splitScheme u).2).1 = true
  · simp only [hb, if_true]
    rfl
  · simp only [hb]
    rfl

theorem TirAdapter.defaultAttributesUrl_sameOrigin {tir : TirAdapter} {base did : Str}
    (ho : origin I (tir.issuerUrl base did) = .ok o) :
    SameOrigin I (tir.issuerUrl base did) (tir.defaultAttributesUrl base did) := by
  obtain ⟨-, p, hp, -⟩ := origin_eq_ok.mp ho
  have hvisible := (readOrigin_eq_ok hp).1
  have hattributes : (lit "/attributes").all isVisibleAscii = true := by decide
  -- both URLs are a base and a rooted path of more than one segment, with different tails
  have happend : ∀ m t t' : Str, 47 ∈ m.drop 1 →
      tir.issuerUrl base did = base ++ 47 :: m ++ t →
      tir.defaultAttributesUrl base did = base ++ 47 :: m ++ t' →
      (tir.defaultAttributesUrl base did).all isVisibleAscii = true →
      SameOrigin I (tir.issuerUrl base did) (tir.defaultAttributesUrl base did) := by
    intro m t t' hm hissuer hdefault hv
    have hboth := Url.origin_append hm base
    refine ⟨p, hp, ?_⟩
    rw [← hp]
    refine readOrigin_congr ?_ ?_ hv hvisible
    · rw [hissuer, hdefault, (hboth t).1, (hboth t').1]
    · rw [hissuer, hdefault, (hboth t).2, (hboth t').2]
  cases tir with
  | v4 =>
    refine happend (lit "trusted-issuers-registry/v4/issuers/") did (did ++ lit "/attributes")
      (by decide) rfl ?_ ?_
    · exact List.append_assoc _ _ _
    · simp only [defaultAttributesUrl, List.all_append, hattributes, Bool.and_true]
      exact hvisible
  | v5 =>
    refine happend (lit "trusted-issuers-registry/v5/issuers/") did (did ++ lit "/attributes")
      (by decide) rfl ?_ ?_
    · exact List.append_assoc _ _ _
    · simp only [defaultAttributesUrl, List.all_append, hattributes, Bool.and_true]
      exact hvisible
  | coreV1 address =>
    cases address with
    | none =>
      refine happend (lit "v1/issuers-registry/issuers/") did (did ++ lit "/attributes")
        (by decide) rfl ?_ ?_
      · exact List.append_assoc _ _ _
      · simp only [defaultAttributesUrl, withAddress, issuerUrl, List.all_append, Bool.and_eq_true]
          at hvisible ⊢
        exact ⟨hvisible, hattributes⟩
    | some address =>
      refine happend (lit "v1/issuers-registry/issuers/")
        (did ++ (lit "?" ++ (contractAddressParam ++ (lit "=" ++ address.text))))
        (did ++ (lit "/attributes" ++ (lit "?" ++ (contractAddressParam ++
          (lit "=" ++ address.text))))) (by decide) ?_ ?_ ?_
      · simp only [issuerUrl, withAddress, List.append_assoc]
        rfl
      · simp only [defaultAttributesUrl, withAddress, List.append_assoc]
        rfl
      · simp only [defaultAttributesUrl, withAddress, issuerUrl, List.all_append, Bool.and_eq_true]
          at hvisible ⊢
        obtain ⟨⟨⟨⟨hbase, hquestion⟩, hparam⟩, hequals⟩, haddress⟩ := hvisible
        exact ⟨⟨⟨⟨⟨hbase, hattributes⟩, hquestion⟩, hparam⟩, hequals⟩, haddress⟩

end OpenVC.Ebsi
