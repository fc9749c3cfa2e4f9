import OpenVC.Python.Url

/-!
# `urlsplit` reads back what `urlunsplit` writes

The components that `urlsplit` gives keep to their delimiters. A URL that is put together from such
components is taken apart into them again.
-/

namespace Python.Str

theorem not_mem_beforeFirst (c : Nat) (s : Str) : c ∉ beforeFirst c s := by
  intro h
  have := List.mem_takeWhile_imp h
  simp at this

theorem asciiLower_idem (s : Str) : asciiLower (asciiLower s) = asciiLower s := by
  rw [asciiLower, asciiLower, List.map_map]
  refine List.map_congr_left fun c _ => ?_
  simp only [Function.comp_apply, Bool.and_eq_true, decide_eq_true_eq]
  split
  · rename_i h
    rw [if_neg (by omega)]
  · rfl

end Python.Str

namespace Python.Url

open Str

variable {bracketed : Str → Bool} {url : Str} {p : SplitResult}

/-- A scheme as `urlsplit` gives it. -/
structure IsScheme (s : Str) : Prop where
  chars : s.all isSchemeChar = true
  lower : asciiLower s = s
  alpha : ∃ c t, s = c :: t ∧ 97 ≤ c ∧ c ≤ 122

/-- Components that keep to their delimiters. -/
structure Wf (bracketed : Str → Bool) (p : SplitResult) : Prop where
  scheme : p.scheme = [] ∨ IsScheme p.scheme
  netloc : ∀ c ∈ p.netloc, endsNetloc c = false
  brackets : bracketsOk bracketed p.netloc = true
  path : 63 ∉ p.path ∧ 35 ∉ p.path
  /-- A path after an authority is rooted. -/
  rooted : p.netloc ≠ [] → p.path = [] ∨ ∃ t, p.path = 47 :: t
  query : 35 ∉ p.query
  /-- A path alone does not begin with a scheme. -/
  relative : p.scheme = [] → 58 ∈ p.path → hasScheme p.path = false

theorem isScheme_lower {s : Str} (hs : s.all isSchemeChar = true)
    (ha : ∃ c t, s = c :: t ∧ ((65 ≤ c ∧ c ≤ 90) ∨ (97 ≤ c ∧ c ≤ 122))) :
    IsScheme (asciiLower s) := by
  refine ⟨?_, asciiLower_idem s, ?_⟩
  · rw [asciiLower, List.all_map, List.all_eq_true]
    intro c hc
    have := List.all_eq_true.mp hs c hc
    simp only [isSchemeChar, isDigit, Function.comp_apply, Bool.or_eq_true, Bool.and_eq_true,
      decide_eq_true_eq, beq_iff_eq] at this ⊢
    split <;> omega
  · obtain ⟨c, t, rfl, hc⟩ := ha
    refine ⟨_, _, rfl, ?_⟩
    simp only [Bool.and_eq_true, decide_eq_true_eq]
    split <;> omega

/-! ## Taking a URL apart -/

theorem beforeFirst_append {c : Nat} {a : Str} (h : c ∈ a) (b : Str) :
    beforeFirst c (a ++ b) = beforeFirst c a := by
  rw [beforeFirst, beforeFirst, List.takeWhile_append]
  split
  · rename_i hlen
    have heq := (List.takeWhile_prefix (l := a) (· != c)).eq_of_length hlen
    have hc := List.mem_takeWhile_imp (heq.symm ▸ h : c ∈ a.takeWhile (· != c))
    simp at hc
  · rfl

theorem hasScheme_append {a : Str} (h : 58 ∈ a) (b : Str) : hasScheme (a ++ b) = hasScheme a := by
  unfold hasScheme
  rw [beforeFirst_append h]
  cases a with
  | nil => cases h
  | cons c a =>
    have hc : (c :: a).contains 58 = true := List.contains_iff_mem.mpr h
    have hab : (c :: a ++ b).contains 58 = true :=
      List.contains_iff_mem.mpr (List.mem_append_left b h)
    rw [hc, hab]
    rfl

theorem hasScheme_of_not_schemeChar {a : Str} {c : Nat} (ha : 58 ∉ a) (hc : isSchemeChar c = false)
    (hne : c ≠ 58) (b : Str) : hasScheme (a ++ c :: b) = false := by
  have hbefore : c ∈ beforeFirst 58 (a ++ c :: b) := by
    have hpos : ∀ x ∈ a, (x != 58) = true := by
      intro x hx
      rw [bne_iff_ne]
      exact fun e => ha (e ▸ hx)
    rw [beforeFirst, List.takeWhile_append_of_pos hpos, List.takeWhile_cons,
      if_pos (bne_iff_ne.mpr hne)]
    exact List.mem_append_right _ List.mem_cons_self
  have hall : (beforeFirst 58 (a ++ c :: b)).all isSchemeChar = false := by
    rw [List.all_eq_false]
    exact ⟨c, hbefore, by simp [hc]⟩
  unfold hasScheme
  rw [hall, Bool.and_false, Bool.false_and]

theorem hasScheme_of_not_mem {a : Str} (h : 58 ∉ a) : hasScheme a = false := by
  simp [hasScheme, h]

theorem hasScheme_cons_slash (t : Str) : hasScheme (47 :: t) = false := by
  simp [hasScheme]

theorem hasScheme_eq_true (h : hasScheme url = true) :
    url = beforeFirst 58 url ++ 58 :: (partition 58 url).2.2 ∧
      IsScheme (asciiLower (beforeFirst 58 url)) := by
  simp only [hasScheme, Bool.and_eq_true] at h
  obtain ⟨⟨hcolon, hchars⟩, halpha⟩ := h
  refine ⟨partition_eq hcolon, isScheme_lower hchars ?_⟩
  cases url with
  | nil => cases halpha
  | cons c t =>
    simp only [Bool.or_eq_true, Bool.and_eq_true, decide_eq_true_eq] at halpha
    have hne : (c != 58) = true := by
      rw [bne_iff_ne]
      omega
    rw [beforeFirst, List.takeWhile_cons, if_pos hne]
    exact ⟨c, _, rfl, halpha⟩

theorem splitNetloc_netloc (rest : Str) : ∀ c ∈ (splitNetloc rest).1, endsNetloc c = false := by
  intro c hc
  unfold splitNetloc at hc
  split at hc
  · simpa using List.mem_takeWhile_imp hc
  · cases hc

theorem splitNetloc_rest {rest : Str} (h : rest.startsWith "//" = true) :
    (splitNetloc rest).2 = [] ∨ ∃ c t, (splitNetloc rest).2 = c :: t ∧ endsNetloc c = true := by
  rw [splitNetloc, if_pos h]
  cases hd : (rest.drop 2).dropWhile (!endsNetloc ·) with
  | nil => exact .inl rfl
  | cons c t =>
    refine .inr ⟨c, t, rfl, ?_⟩
    have hne : (rest.drop 2).dropWhile (!endsNetloc ·) ≠ [] := by rw [hd]; simp
    have hhead := List.head_dropWhile_not (p := (!endsNetloc ·)) (l := rest.drop 2) hne
    simp only [hd, List.head_cons] at hhead
    simpa using hhead

theorem urlsplit_eq_some (h : urlsplit bracketed url = some p) :
    p.scheme = (splitScheme url).1 ∧ p.netloc = (splitNetloc (splitScheme url).2).1 ∧
      bracketsOk bracketed p.netloc = true ∧
      p.path = beforeFirst 63 (beforeFirst 35 (splitNetloc (splitScheme url).2).2) ∧
      p.query = (partition 63 (beforeFirst 35 (splitNetloc (splitScheme url).2).2)).2.2 ∧
      p.fragment = (partition 35 (splitNetloc (splitScheme url).2).2).2.2 := by
  simp only [urlsplit] at h
  split at h
  · rename_i hb
    obtain rfl := Option.some.inj h
    exact ⟨rfl, rfl, hb, rfl, rfl, rfl⟩
  · cases h

theorem mem_of_mem_partition_snd {c x : Nat} {s : Str} (h : x ∈ (partition c s).2.2) : x ∈ s :=
  List.dropWhile_subset _ (List.mem_of_mem_drop h)

/-- A path that follows an authority, or is cut from a text that begins with a slash, is rooted. -/
theorem path_rooted {rest : Str}
    (h : rest = [] ∨ ∃ c t, rest = c :: t ∧ endsNetloc c = true) :
    beforeFirst 63 (beforeFirst 35 rest) = [] ∨
      ∃ t, beforeFirst 63 (beforeFirst 35 rest) = 47 :: t := by
  rcases h with rfl | ⟨c, t, rfl, hc⟩
  · exact .inl rfl
  · simp only [endsNetloc, Bool.or_eq_true, beq_iff_eq] at hc
    rcases hc with (rfl | rfl) | rfl
    · exact .inr ⟨_, rfl⟩
    · exact .inl rfl
    · exact .inl rfl

theorem urlsplit_wf (h : urlsplit bracketed url = some p) : Wf bracketed p := by
  obtain ⟨hscheme, hnetloc, hbrackets, hpath, hquery, -⟩ := urlsplit_eq_some h
  have hrooted : p.netloc ≠ [] → p.path = [] ∨ ∃ t, p.path = 47 :: t := by
    intro hne
    rw [hpath]
    refine path_rooted (splitNetloc_rest ?_)
    by_contra hslash
    rw [hnetloc, splitNetloc, if_neg hslash] at hne
    exact hne rfl
  refine ⟨?_, hnetloc ▸ splitNetloc_netloc _, hbrackets, ?_, hrooted, ?_, ?_⟩
  · rw [hscheme, splitScheme]
    split
    · rename_i hs
      exact .inr (hasScheme_eq_true hs).2
    · exact .inl rfl
  · rw [hpath]
    refine ⟨not_mem_beforeFirst _ _, fun hmem => ?_⟩
    exact not_mem_beforeFirst 35 _ (List.takeWhile_subset _ hmem)
  · rw [hquery]
    exact fun hmem => not_mem_beforeFirst 35 _ (mem_of_mem_partition_snd hmem)
  · intro hnone hcolon
    have hs : hasScheme url = false := by
      by_contra hs
      rw [Bool.not_eq_false] at hs
      rw [hscheme, splitScheme, if_pos hs] at hnone
      obtain ⟨c, t, heq, -⟩ := (hasScheme_eq_true hs).2.alpha
      exact absurd (heq.symm.trans hnone) (by simp)
    rw [splitScheme, if_neg (by simp [hs])] at hpath
    by_cases hslash : url.startsWith "//" = true
    · rcases hpath ▸ path_rooted (splitNetloc_rest hslash) with hnil | ⟨t, ht⟩
      · rw [hnil] at hcolon
        cases hcolon
      · rw [ht]
        exact hasScheme_cons_slash t
    · rw [splitNetloc, if_neg hslash] at hpath
      have hstarts : p.path <+: url := by
        rw [hpath]
        exact (List.takeWhile_prefix _).trans (List.takeWhile_prefix _)
      obtain ⟨tail, htail⟩ := hstarts
      rw [← hs, ← htail, hasScheme_append hcolon]

/-! ## Putting a URL together -/

theorem delimited_nil (before : Str) : delimited before [] = [] := rfl

/-- The query and the fragment as `urlunsplit` writes them. -/
def unsplitTail (p : SplitResult) : Str := delimited "?" p.query ++ delimited "#" p.fragment

theorem unsplitTail_cases (p : SplitResult) :
    unsplitTail p = [] ∨ ∃ c t, unsplitTail p = c :: t ∧ endsNetloc c = true ∧ c ≠ 47 := by
  unfold unsplitTail delimited
  split
  · split
    · exact .inl rfl
    · exact .inr ⟨35, _, rfl, rfl, by decide⟩
  · exact .inr ⟨63, _, rfl, rfl, by decide⟩

/-- The path, the query and the fragment are told apart again. -/
theorem partition_path (hp : Wf bracketed p) :
    (partition 35 (p.path ++ unsplitTail p)).2.2 = p.fragment ∧
      beforeFirst 63 (beforeFirst 35 (p.path ++ unsplitTail p)) = p.path ∧
      (partition 63 (beforeFirst 35 (p.path ++ unsplitTail p))).2.2 = p.query := by
  have hquery : 35 ∉ p.path ++ delimited "?" p.query := by
    rw [List.mem_append, not_or]
    refine ⟨hp.path.2, ?_⟩
    unfold delimited
    split
    · exact List.not_mem_nil
    · intro hmem
      rcases List.mem_append.mp hmem with hmem | hmem
      · revert hmem
        decide
      · exact hp.query hmem
  have hfragment : partition 35 (p.path ++ unsplitTail p) =
      (p.path ++ delimited "?" p.query, !p.fragment.isEmpty, p.fragment) := by
    rw [unsplitTail, ← List.append_assoc]
    cases hf : p.fragment with
    | nil =>
      rw [delimited_nil, List.append_nil, partition_of_not_mem hquery]
      rfl
    | cons c t => exact partition_append hquery
  have hbefore : beforeFirst 35 (p.path ++ unsplitTail p) = p.path ++ delimited "?" p.query :=
    congrArg Prod.fst hfragment
  have hpath : partition 63 (p.path ++ delimited "?" p.query) =
      (p.path, !p.query.isEmpty, p.query) := by
    cases hq : p.query with
    | nil =>
      rw [delimited_nil, List.append_nil, partition_of_not_mem hp.path.1]
      rfl
    | cons c t => exact partition_append hp.path.1
  refine ⟨congrArg (·.2.2) hfragment, ?_, ?_⟩
  · rw [hbefore]
    exact congrArg Prod.fst hpath
  · rw [hbefore]
    exact congrArg (·.2.2) hpath

theorem startsWith_slashes (a b : Nat) (t : Str) :
    Str.startsWith (a :: b :: t) "//" = (47 == a && (47 == b && true)) := rfl

theorem startsWith_slashes_of_ne {c : Nat} (hc : c ≠ 47) (t : Str) :
    Str.startsWith (c :: t) "//" = false ∧ ∀ a, Str.startsWith (a :: c :: t) "//" = false := by
  have hne : (47 == c) = false := by simpa using Ne.symm hc
  constructor
  · cases t with
    | nil =>
      change (47 == c && false) = false
      rw [Bool.and_false]
    | cons b t => rw [startsWith_slashes, hne, Bool.false_and]
  · intro a
    rw [startsWith_slashes, hne, Bool.false_and, Bool.and_false]

/-- An authority is told apart from what begins with a delimiter. -/
theorem splitNetloc_append {netloc rest : Str} (hn : ∀ c ∈ netloc, endsNetloc c = false)
    (hr : rest = [] ∨ ∃ c t, rest = c :: t ∧ endsNetloc c = true) :
    splitNetloc (47 :: 47 :: (netloc ++ rest)) = (netloc, rest) := by
  have hpos : ∀ c ∈ netloc, (!endsNetloc c) = true := fun c hc => by rw [hn c hc]; rfl
  rw [splitNetloc, if_pos (by rw [startsWith_slashes]; rfl)]
  change ((netloc ++ rest).takeWhile (!endsNetloc ·), (netloc ++ rest).dropWhile (!endsNetloc ·)) = _
  rw [List.takeWhile_append_of_pos hpos, List.dropWhile_append_of_pos hpos]
  rcases hr with rfl | ⟨c, t, rfl, hc⟩
  · simp
  · simp [hc]

theorem splitNetloc_relative {rest : Str} (h : Str.startsWith rest "//" = false) :
    splitNetloc rest = ([], rest) := by
  rw [splitNetloc, if_neg (by simp [h])]

theorem splitNetloc_unsplitHier (hp : Wf bracketed p) :
    splitNetloc (unsplitHier p ++ unsplitTail p) = (p.netloc, p.path ++ unsplitTail p) := by
  have htail : unsplitTail p = [] ∨ ∃ c t, unsplitTail p = c :: t ∧ endsNetloc c = true := by
    rcases unsplitTail_cases p with h | ⟨c, t, h, hc, -⟩
    · exact .inl h
    · exact .inr ⟨c, t, h, hc⟩
  unfold unsplitHier
  split
  · rename_i hne
    have hpath := hp.rooted (by simpa using hne)
    have hif : (if !p.path.isEmpty && !p.path.startsWith "/" then 47 :: p.path else p.path) =
        p.path := by
      rcases hpath with hnil | ⟨t, ht⟩
      · rw [hnil]
        rfl
      · rw [ht]
        rfl
    rw [hif, List.append_assoc, List.append_assoc]
    refine splitNetloc_append hp.netloc ?_
    rcases hpath with hnil | ⟨t, ht⟩
    · rw [hnil]
      exact htail
    · exact .inr ⟨47, t ++ unsplitTail p, by rw [ht]; rfl, rfl⟩
  · rename_i hnetloc
    have hnetloc : p.netloc = [] := by simpa using hnetloc
    rw [hnetloc]
    split
    · rename_i hslash
      obtain ⟨t, ht⟩ := List.isPrefixOf_iff_prefix.mp hslash
      refine @splitNetloc_append [] _ nofun (.inr ⟨47, 47 :: (t ++ unsplitTail p), ?_, rfl⟩)
      rw [← ht]
      rfl
    · rename_i hslash
      have hslash : p.path.startsWith "//" = false := by simpa using hslash
      split
      · rename_i hroot
        simp only [Bool.and_eq_true, Bool.or_eq_true, List.isEmpty_iff] at hroot
        refine @splitNetloc_append [] _ nofun ?_
        rcases hroot.2 with hnil | hroot
        · rw [hnil]
          exact htail
        · obtain ⟨t, ht⟩ := List.isPrefixOf_iff_prefix.mp hroot
          exact .inr ⟨47, t ++ unsplitTail p, by rw [← ht]; rfl, rfl⟩
      · refine splitNetloc_relative ?_
        cases hpath : p.path with
        | nil =>
          rcases unsplitTail_cases p with h | ⟨c, t, h, -, hc⟩
          · rw [h]
            rfl
          · rw [h]
            exact (startsWith_slashes_of_ne hc t).1
        | cons a t =>
          cases t with
          | nil =>
            rcases unsplitTail_cases p with h | ⟨c, t, h, -, hc⟩
            · rw [h]
              change (47 == a && false) = false
              rw [Bool.and_false]
            · rw [h]
              exact (startsWith_slashes_of_ne hc t).2 a
          | cons b t =>
            rw [hpath, startsWith_slashes] at hslash
            rw [List.cons_append, List.cons_append, startsWith_slashes, hslash]

theorem hasScheme_unsplitHier (hp : Wf bracketed p) (hs : p.scheme = []) :
    hasScheme (unsplitHier p ++ unsplitTail p) = false := by
  have hslashes : ∀ t : Str, hasScheme (lit "//" ++ t ++ unsplitTail p) = false :=
    fun t => hasScheme_cons_slash _
  unfold unsplitHier
  split
  · rw [List.append_assoc (lit "//")]
    exact hslashes _
  · split
    · exact hslashes _
    · rw [hs]
      simp only [List.isEmpty_nil, Bool.not_true, Bool.false_and, Bool.false_eq_true, if_false]
      by_cases hcolon : 58 ∈ p.path
      · rw [hasScheme_append hcolon]
        exact hp.relative hs hcolon
      · rcases unsplitTail_cases p with h | ⟨c, t, h, hc, -⟩
        · rw [h, List.append_nil]
          exact hasScheme_of_not_mem hcolon
        · rw [h]
          simp only [endsNetloc, Bool.or_eq_true, beq_iff_eq] at hc
          rcases hc with (rfl | rfl) | rfl
          · exact hasScheme_of_not_schemeChar hcolon rfl (by decide) t
          · exact hasScheme_of_not_schemeChar hcolon rfl (by decide) t
          · exact hasScheme_of_not_schemeChar hcolon rfl (by decide) t

theorem splitScheme_urlunsplit (hp : Wf bracketed p) :
    splitScheme (urlunsplit p) = (p.scheme, unsplitHier p ++ unsplitTail p) := by
  rcases hp.scheme with hs | hs
  · have hurl : urlunsplit p = unsplitHier p ++ unsplitTail p := by
      rw [urlunsplit, hs, unsplitTail]
      simp
    rw [hurl, splitScheme, if_neg (by simp [hasScheme_unsplitHier hp hs]), hs]
  · obtain ⟨c, t, heq, hc⟩ := hs.alpha
    have hurl : urlunsplit p = p.scheme ++ 58 :: (unsplitHier p ++ unsplitTail p) := by
      rw [urlunsplit, unsplitTail]
      simp [heq, lit_eq]
    have hcolon : 58 ∉ p.scheme := by
      intro hmem
      have := List.all_eq_true.mp hs.chars 58 hmem
      revert this
      decide
    have hpart := partition_append (t := unsplitHier p ++ unsplitTail p) hcolon
    have hscheme : hasScheme (urlunsplit p) = true := by
      have hbefore : beforeFirst 58 (urlunsplit p) = p.scheme :=
        hurl ▸ congrArg Prod.fst hpart
      unfold hasScheme
      rw [hbefore, hs.chars, Bool.and_true, Bool.and_eq_true]
      refine ⟨List.contains_iff_mem.mpr (hurl ▸ List.mem_append_right _ List.mem_cons_self), ?_⟩
      rw [hurl, heq]
      simp only [List.cons_append, Bool.or_eq_true, Bool.and_eq_true, decide_eq_true_eq]
      omega
    rw [splitScheme, if_pos hscheme, hurl, hpart, hs.lower]

theorem urlsplit_urlunsplit (hp : Wf bracketed p) : urlsplit bracketed (urlunsplit p) = some p := by
  obtain ⟨hfragment, hpath, hquery⟩ := partition_path hp
  simp only [urlsplit, splitScheme_urlunsplit hp, splitNetloc_unsplitHier hp, hp.brackets, if_true]
  cases p
  simp only [Option.some.injEq, SplitResult.mk.injEq, true_and]
  exact ⟨hpath, hquery, hfragment⟩

/-! ## A URL with a longer tail -/

/-- The scheme ends before a slash, so what follows one is not read as part of it. -/
theorem splitScheme_append {url : Str} (h : 47 ∈ url) (t : Str) :
    splitScheme (url ++ t) = ((splitScheme url).1, (splitScheme url).2 ++ t) := by
  by_cases hcolon : 58 ∈ url
  · have hscheme := hasScheme_append hcolon t
    unfold splitScheme
    rw [hscheme]
    split
    · have hurl := partition_eq (List.contains_iff_mem.mpr hcolon)
      have hbefore : 58 ∉ (partition 58 url).1 := not_mem_beforeFirst 58 url
      have happend : url ++ t = (partition 58 url).1 ++ 58 :: ((partition 58 url).2.2 ++ t) := by
        nth_rewrite 1 [hurl]
        rw [List.append_assoc]
        rfl
      rw [happend, partition_append hbefore]
    · rfl
  · obtain ⟨a, b, hab⟩ := List.append_of_mem h
    have ha : 58 ∉ a := fun hm => hcolon (hab ▸ List.mem_append_left _ hm)
    have hurl : hasScheme url = false := hasScheme_of_not_mem hcolon
    have happend : hasScheme (url ++ t) = false := by
      rw [hab, List.append_assoc]
      exact hasScheme_of_not_schemeChar ha rfl (by decide) (b ++ t)
    rw [splitScheme, splitScheme, if_neg (by simp [happend]), if_neg (by simp [hurl])]

theorem splitScheme_slash (b m : Str) :
    ∃ b', (splitScheme (b ++ 47 :: m)).2 = b' ++ 47 :: m := by
  by_cases hs : hasScheme (b ++ 47 :: m) = true
  · have hurl := (hasScheme_eq_true hs).1
    have hchars : (beforeFirst 58 (b ++ 47 :: m)).all isSchemeChar = true := by
      simp only [hasScheme, Bool.and_eq_true] at hs
      exact hs.1.2
    rw [splitScheme, if_pos hs]
    rcases List.append_eq_append_iff.mp hurl with ⟨a, hbefore, hm⟩ | ⟨a, hb, hrest⟩
    · cases a with
      | nil => cases hm
      | cons x a =>
        obtain rfl : 47 = x := (List.cons.inj hm).1
        have hmem : 47 ∈ beforeFirst 58 (b ++ 47 :: m) := by
          rw [hbefore]
          exact List.mem_append_right _ List.mem_cons_self
        exact absurd (List.all_eq_true.mp hchars 47 hmem) (by decide)
    · cases a with
      | nil => cases hrest
      | cons x a => exact ⟨a, (List.cons.inj hrest).2⟩
  · rw [splitScheme, if_neg hs]
    exact ⟨b, rfl⟩

theorem splitNetloc_fst_append {rest : Str} (h : ∃ c ∈ rest.drop 2, endsNetloc c = true) (t : Str) :
    (splitNetloc (rest ++ t)).1 = (splitNetloc rest).1 := by
  obtain ⟨c, hc, hends⟩ := h
  match rest, hc with
  | a :: b :: r, hc =>
    have hc : c ∈ r := hc
    rw [splitNetloc, splitNetloc, List.cons_append, List.cons_append, startsWith_slashes,
      startsWith_slashes]
    split
    · change (r ++ t).takeWhile (!endsNetloc ·) = r.takeWhile (!endsNetloc ·)
      rw [List.takeWhile_append, if_neg]
      intro hlen
      have heq := (List.takeWhile_prefix (l := r) (!endsNetloc ·)).eq_of_length hlen
      have := List.mem_takeWhile_imp (heq.symm ▸ hc : c ∈ r.takeWhile (!endsNetloc ·))
      rw [hends] at this
      cases this
    · rfl

/-- The scheme and the authority of a URL whose path has two segments do not depend on what follows
the path. -/
theorem origin_append {m : Str} (hm : 47 ∈ m.drop 1) (b t : Str) :
    (splitScheme (b ++ 47 :: m ++ t)).1 = (splitScheme (b ++ 47 :: m)).1 ∧
      (splitNetloc (splitScheme (b ++ 47 :: m ++ t)).2).1 =
        (splitNetloc (splitScheme (b ++ 47 :: m)).2).1 := by
  have hslash : 47 ∈ b ++ 47 :: m := List.mem_append_right _ List.mem_cons_self
  rw [splitScheme_append hslash]
  refine ⟨rfl, splitNetloc_fst_append ⟨47, ?_, rfl⟩ t⟩
  obtain ⟨b', hb'⟩ := splitScheme_slash b m
  rw [hb', List.drop_append]
  refine List.mem_append_right _ ?_
  have hdrop : 47 ∈ ((47 :: m).drop (2 - b'.length)).drop (2 - (2 - b'.length)) := by
    rw [List.drop_drop]
    have hle : 2 - b'.length + (2 - (2 - b'.length)) = 2 := by omega
    rw [hle]
    exact hm
  exact List.mem_of_mem_drop hdrop

end Python.Url
