import OpenVC.Ebsi.AttributeFetches
import OpenVC.Ebsi.Proofs.OriginProofs

/-!
# The attribute walk is confined and complete

Whatever the registry answers, the walk fetches boundedly many pages, no page twice, and boundedly
many revisions, all on the origin of the issuer URL. The same stop conditions read a well-behaved
listing to its end.
-/

namespace OpenVC.Ebsi

open Python Did

/-! ## What a run fetches -/

/-- The URLs of the listing pages among the fetches. -/
def listings (l : List Fetch) : List Str :=
  l.filterMap fun q =>
    match q.place with
    | .attributes _ _ => some q.url
    | _ => none

/-- The URLs of the revisions among the fetches. -/
def revisions (l : List Fetch) : List Str :=
  l.filterMap fun q =>
    match q.place with
    | .revision _ _ => some q.url
    | _ => none

theorem listings_append (l l' : List Fetch) : listings (l ++ l') = listings l ++ listings l' :=
  List.filterMap_append

theorem revisions_append (l l' : List Fetch) : revisions (l ++ l') = revisions l ++ revisions l' :=
  List.filterMap_append

/-- Fetches on the origin of `issuer`: at most `pages` pages, none twice and none of `seen`, and at
most `items` revisions. -/
structure Confined (I : Interpreter) (issuer : Str) (pages items : Nat) (seen : List Str)
    (l : List Fetch) : Prop where
  pages : (listings l).length ≤ pages
  nodup : (listings l).Nodup
  fresh : ∀ u ∈ listings l, u ∉ seen
  items : (revisions l).length ≤ items
  origin : ∀ q ∈ l, SameOrigin I issuer q.url

variable {I : Interpreter} {issuer : Str}

theorem confined_nil {pages items : Nat} {seen : List Str} :
    Confined I issuer pages items seen [] :=
  ⟨Nat.zero_le _, .nil, nofun, Nat.zero_le _, nofun⟩

/-- One page with its revisions, then the pages after it. -/
theorem Confined.page {pages items : Nat} {seen : List Str} {hop n : Nat} {url : Str}
    {l l' : List Fetch} (hurl : SameOrigin I issuer url) (hseen : url ∉ seen)
    (hl : listings l = []) (ho : ∀ q ∈ l, SameOrigin I issuer q.url)
    (hle : (revisions l).length ≤ items)
    (h : Confined I issuer pages (items - (revisions l).length) (url :: seen) l') :
    Confined I issuer (pages + 1) items seen (⟨.attributes hop n, url⟩ :: (l ++ l')) := by
  have hlist : listings (⟨.attributes hop n, url⟩ :: (l ++ l')) = url :: listings l' := by
    change url :: listings (l ++ l') = _
    rw [listings_append, hl, List.nil_append]
  have hrev : revisions (⟨.attributes hop n, url⟩ :: (l ++ l')) = revisions l ++ revisions l' :=
    revisions_append l l'
  refine ⟨?_, ?_, ?_, ?_, ?_⟩
  · rw [hlist]
    exact Nat.succ_le_succ h.pages
  · rw [hlist]
    exact List.nodup_cons.mpr ⟨fun hm => h.fresh url hm List.mem_cons_self, h.nodup⟩
  · rw [hlist]
    intro u hu
    rcases List.mem_cons.mp hu with rfl | hu
    · exact hseen
    · exact fun hm => h.fresh u hu (List.mem_cons_of_mem _ hm)
  · rw [hrev, List.length_append]
    have := h.items
    omega
  · intro q hq
    rcases List.mem_cons.mp hq with rfl | hq
    · exact hurl
    · rcases List.mem_append.mp hq with hq | hq
      · exact ho q hq
      · exact h.origin q hq

namespace AttributeWalk

variable {W : AttributeWalk}

/-- Reading a revision is one fetch, on the listing's origin. -/
theorem fetchRevision_runs (hlisting : origin W.interpreter issuer = .ok W.listingOrigin) {n : Nat}
    {item : Dict} {href : Str} (hhref : origin W.interpreter href = .ok W.listingOrigin)
    {l : List Fetch} {r : Result Accreditation} (h : (W.fetchRevision n item href).Runs l r) :
    l = [] ∨ ∃ url, SameOrigin W.interpreter issuer url ∧ l = [⟨.revision W.hop n, url⟩] := by
  rcases Calling.runs_liftM_bind.mp h with ⟨_, -, rfl, -⟩ | ⟨url, hfollow, h⟩
  · exact .inl rfl
  · refine .inr ⟨url, ?_, ?_⟩
    · exact TirAdapter.follow_sameOrigin (sameOrigin_of_origin hlisting hhref) hfollow
    · rcases Calling.runs_ask_bind.mp h with ⟨_, rfl, -⟩ | ⟨body, l', hread, rfl⟩
      · rfl
      · rcases Calling.runs_liftM_bind.mp hread with ⟨_, -, rfl, -⟩ | ⟨revision, -, hread⟩
        · rfl
        · rcases Calling.runs_liftM_bind.mp hread with ⟨_, -, rfl, -⟩ | ⟨attr, -, hread⟩
          · rfl
          · rw [(Calling.runs_liftM.mp hread).1]

/-- One item costs at most one fetch. -/
theorem fetchItem_runs (hlisting : origin W.interpreter issuer = .ok W.listingOrigin) {n : Nat}
    {item : Dict} {l : List Fetch} {r : Result (List Accreditation)}
    (h : (W.fetchItem n item).Runs l r) :
    l = [] ∨ ∃ url, SameOrigin W.interpreter issuer url ∧ l = [⟨.revision W.hop n, url⟩] := by
  unfold fetchItem at h
  split at h
  · split at h
    · exact .inl (Calling.runs_pure.mp h).1
    · rename_i hon
      simp only [Bool.or_eq_true, Bool.not_eq_true', not_or, Bool.not_eq_false] at hon
      have hhref := onOrigin_iff.mp hon.2
      rcases Calling.runs_bind.mp h with ⟨e, hread, -⟩ | ⟨acc, l₁, l₂, hread, hdone, rfl⟩
      · exact fetchRevision_runs hlisting hhref hread
      · rw [(Calling.runs_pure.mp hdone).1, List.append_nil]
        exact fetchRevision_runs hlisting hhref hread
  · exact .inl (Calling.runs_pure.mp h).1

/-- The items of a page cost one revision each, and no page. -/
theorem fetchItems_runs (hlisting : origin W.interpreter issuer = .ok W.listingOrigin)
    {items : List Json} {n : Nat} {accs : List Accreditation} {l : List Fetch}
    {r : Result (Nat × List Accreditation × Bool)} (hn : n < maxAttributeItems)
    (h : (W.fetchItems items n accs).Runs l r) :
    listings l = [] ∧ (∀ q ∈ l, SameOrigin W.interpreter issuer q.url) ∧
      n + (revisions l).length ≤ maxAttributeItems ∧
      ∀ n' accs' capped, r = .ok (n', accs', capped) →
        n + (revisions l).length ≤ n' ∧ (capped = false → n' < maxAttributeItems) := by
  induction items generalizing n accs l with
  | nil =>
    obtain ⟨rfl, rfl⟩ := Calling.runs_pure.mp h
    refine ⟨rfl, by simp, hn.le, ?_⟩
    rintro n' accs' capped heq
    cases heq
    exact ⟨le_rfl, fun _ => hn⟩
  | cons v items ih =>
    cases v with
    | obj item =>
      rw [fetchItems] at h
      rcases Calling.runs_bind.mp h with ⟨e, hitem, rfl⟩ | ⟨new, l₁, l₂, hitem, hrest, rfl⟩
      · rcases fetchItem_runs hlisting hitem with rfl | ⟨url, ho, rfl⟩
        · exact ⟨rfl, by simp, hn.le, by simp⟩
        · refine ⟨rfl, ?_, hn, by simp⟩
          intro q hq
          rw [List.mem_singleton.mp hq]
          exact ho
      · have hstep : listings l₁ = [] ∧ (∀ q ∈ l₁, SameOrigin W.interpreter issuer q.url) ∧
            (revisions l₁).length ≤ 1 := by
          rcases fetchItem_runs hlisting hitem with rfl | ⟨url, ho, rfl⟩
          · exact ⟨rfl, by simp, Nat.zero_le _⟩
          · refine ⟨rfl, ?_, le_rfl⟩
            intro q hq
            rw [List.mem_singleton.mp hq]
            exact ho
        obtain ⟨hlist, ho, hone⟩ := hstep
        split at hrest
        · rename_i hcap
          obtain ⟨rfl, rfl⟩ := Calling.runs_pure.mp hrest
          rw [List.append_nil]
          refine ⟨hlist, ho, by omega, ?_⟩
          intro n' accs' capped heq
          cases heq
          exact ⟨by omega, by simp⟩
        · rename_i hcap
          obtain ⟨hlist', ho', hle, hok⟩ := ih (by omega) hrest
          rw [listings_append, revisions_append, List.length_append, hlist, hlist']
          refine ⟨rfl, ?_, by omega, ?_⟩
          · intro q hq
            rcases List.mem_append.mp hq with hq | hq
            · exact ho q hq
            · exact ho' q hq
          · intro n' accs' capped heq
            obtain ⟨hcount, hcapped⟩ := hok n' accs' capped heq
            exact ⟨by omega, hcapped⟩
    | _ => exact ih hn h

theorem nextUrl_sameOrigin (hlisting : origin W.interpreter issuer = .ok W.listingOrigin)
    {page : Dict} {next : Str} (h : W.nextUrl W.listingOrigin page = .ok (some next)) :
    SameOrigin W.interpreter issuer next := by
  unfold nextUrl at h
  split at h
  · split at h
    · split at h
      · cases h
      · rename_i hon
        simp only [Bool.or_eq_true, Bool.not_eq_true', not_or, Bool.not_eq_false] at hon
        have hnext := onOrigin_iff.mp hon.2
        simp only [bind_eq_ok, pure_eq_ok, Option.some.injEq] at h
        obtain ⟨url, hfollow, rfl⟩ := h
        exact TirAdapter.follow_sameOrigin (sameOrigin_of_origin hlisting hnext) hfollow
    · cases h
  · cases h

/-- The pages of a listing, with their revisions. -/
theorem fetchPages_runs (hlisting : origin W.interpreter issuer = .ok W.listingOrigin)
    {pages : Nat} {url : Option Str} {seen : List Str} {collected : Nat} {total : Option Int}
    {accs : List Accreditation} {l : List Fetch} {r : Result (List Accreditation)}
    (hurl : ∀ u, url = some u → SameOrigin W.interpreter issuer u)
    (hcollected : collected < maxAttributeItems)
    (h : (W.fetchPages W.listingOrigin pages url seen collected total accs).Runs l r) :
    Confined W.interpreter issuer pages (maxAttributeItems - collected) seen l := by
  induction pages generalizing url seen collected total accs l with
  | zero =>
    rw [(Calling.runs_pure.mp h).1]
    exact confined_nil
  | succ pages ih =>
    cases url with
    | none =>
      rw [(Calling.runs_pure.mp h).1]
      exact confined_nil
    | some url =>
      have ho := hurl url rfl
      rw [fetchPages] at h
      split at h
      · rw [(Calling.runs_pure.mp h).1]
        exact confined_nil
      · rename_i hseen
        -- a page that leads to no item
        have hpage : Confined W.interpreter issuer (pages + 1) (maxAttributeItems - collected) seen
            [⟨.attributes W.hop seen.length, url⟩] :=
          .page (l := []) ho hseen rfl (by simp) (Nat.zero_le _) confined_nil
        rcases Calling.runs_ask_bind.mp h with ⟨_, rfl, -⟩ | ⟨body, l, hbody, rfl⟩
        · exact hpage
        · rcases Calling.runs_liftM_bind.mp hbody with ⟨_, -, rfl, -⟩ | ⟨page, -, hitems⟩
          · exact hpage
          · split at hitems
            · rcases Calling.runs_bind.mp hitems with
                ⟨_, hread, -⟩ | ⟨⟨n, new, capped⟩, l₁, l₂, hread, hrest, rfl⟩
              · obtain ⟨hlist, horigin, hle, -⟩ := fetchItems_runs hlisting hcollected hread
                rw [← List.append_nil l]
                exact .page ho hseen hlist horigin (by omega) confined_nil
              · obtain ⟨hlist, horigin, hle, hok⟩ := fetchItems_runs hlisting hcollected hread
                obtain ⟨hcount, hcapped⟩ := hok n new capped rfl
                dsimp only at hrest
                split at hrest
                · rw [(Calling.runs_pure.mp hrest).1]
                  exact .page ho hseen hlist horigin (by omega) confined_nil
                · rename_i hstop
                  simp only [Bool.or_eq_true, not_or, Bool.not_eq_true] at hstop
                  rcases Calling.runs_liftM_bind.mp hrest with ⟨_, -, rfl, -⟩ | ⟨next, hnext, hlast⟩
                  · exact .page ho hseen hlist horigin (by omega) confined_nil
                  · have hnextOrigin : ∀ u, next = some u → SameOrigin W.interpreter issuer u := by
                      rintro u rfl
                      exact nextUrl_sameOrigin hlisting hnext
                    have hrest := ih hnextOrigin (hcapped hstop.1) hlast
                    refine .page ho hseen hlist horigin (by omega) ⟨hrest.pages, hrest.nodup,
                      hrest.fresh, hrest.items.trans (by omega), hrest.origin⟩
            · rw [(Calling.runs_pure.mp hitems).1]
              exact hpage

end AttributeWalk

/-- The whole listing of an issuer. -/
theorem AttributeWalk.fetchAll_runs {W : AttributeWalk} {raw : Dict} {fallback : Str}
    (hlisting : origin W.interpreter issuer = .ok W.listingOrigin)
    (hfallback : SameOrigin W.interpreter issuer fallback)
    {l : List Fetch} {r : Result (List Accreditation)} (h : (W.fetchAll raw fallback).Runs l r) :
    Confined W.interpreter issuer maxAttributePages maxAttributeItems [] l := by
  rcases Calling.runs_liftM_bind.mp h with ⟨_, -, rfl, -⟩ | ⟨url, hurl, h₁⟩
  · exact confined_nil
  · rcases Calling.runs_liftM_bind.mp h₁ with ⟨_, -, rfl, -⟩ | ⟨first, hfirst, h₂⟩
    · exact confined_nil
    · rcases Calling.runs_liftM_bind.mp h₂ with ⟨_, -, rfl, -⟩ | ⟨pagesOrigin, hpages, h₃⟩
      · exact confined_nil
      · have hsame : SameOrigin W.interpreter issuer first := by
          refine TirAdapter.follow_sameOrigin ?_ hfirst
          unfold attributesUrl at hurl
          split at hurl
          · obtain rfl := Except.ok.inj hurl
            exact hfallback
          · split at hurl
            · simp only [bind_eq_ok, raiseIf_eq_ok, pure_eq_ok, bne_eq_false_iff_eq] at hurl
              obtain ⟨urlOrigin, hread, ⟨⟩, rfl, rfl⟩ := hurl
              exact sameOrigin_of_origin hlisting hread
            · cases hurl
        obtain rfl := origin_of_sameOrigin hsame hlisting hpages
        have hroom : 0 < maxAttributeItems := by decide
        refine fetchPages_runs hlisting ?_ hroom h₃
        intro u hu
        rwa [← Option.some.inj hu]

/-- Whatever the registry answers, `parse_issuer` stays within the caps and on the origin of the
issuer URL. -/
theorem DidEbsiResolver.fetchIssuer_confined {R : DidEbsiResolver} {hop : Nat} {raw : Dict}
    {did : Str} {l : List Fetch} {r : Result IssuerRecord}
    (h : (R.fetchIssuer I hop raw did).Runs l r) :
    Confined I (R.tir.issuerUrl R.base did) maxAttributePages maxAttributeItems [] l := by
  rcases Calling.runs_liftM_bind.mp h with ⟨_, -, rfl, -⟩ | ⟨hasAttributes, -, h₁⟩
  · exact confined_nil
  · split at h₁
    · rcases Calling.runs_liftM_bind.mp h₁ with ⟨_, -, rfl, -⟩ | ⟨listingOrigin, hlisting, h₂⟩
      · exact confined_nil
      · have hfallback := TirAdapter.defaultAttributesUrl_sameOrigin hlisting
        rcases Calling.runs_bind.mp h₂ with ⟨e, hall, -⟩ | ⟨accs, l₁, l₂, hall, hdone, rfl⟩
        · exact (R.attributeWalk I hop listingOrigin).fetchAll_runs hlisting hfallback hall
        · rw [(Calling.runs_pure.mp hdone).1, List.append_nil]
          exact (R.attributeWalk I hop listingOrigin).fetchAll_runs hlisting hfallback hall
    · rw [(Calling.runs_pure.mp h₁).1]
      exact confined_nil

/-! ## A well-behaved listing -/

/-- A page of a listing: the URL it is fetched from and its body. -/
structure Page where
  url : Str
  body : Dict

/-- The items of a page. -/
def Page.items (p : Page) : List Json := ((p.body.get "items").arr?).getD []

/-- The items of a listing that are objects, in order. -/
def objectItems (pages : List Page) : List Dict :=
  pages.flatMap fun p => p.items.filterMap Json.obj?

/-- An item that the walk follows, with its place among the object items. -/
structure Followed where
  index : Nat
  item : Dict
  href : Str

theorem objectItems_cons (p : Page) (pages : List Page) :
    objectItems (p :: pages) = p.items.filterMap Json.obj? ++ objectItems pages := List.flatMap_cons

namespace AttributeWalk

variable (W : AttributeWalk)

/-- The `href` of an item that the walk can follow: a text on the origin of the listing. -/
def followable (item : Dict) : Option Str :=
  match item.get "href" with
  | .str href =>
    if href.isEmpty || !onOrigin W.interpreter href W.listingOrigin then none else some href
  | _ => none

/-- The followable items, counted from `n`. -/
def followed (items : List Dict) (n : Nat) : List Followed :=
  (items.zipIdx n).filterMap fun x => (W.followable x.1).map fun href => ⟨x.2, x.1, href⟩

/-- The `total` that the walk reads off a listing. -/
def listingTotal (total : Option Int) (pages : List Page) : Option Int :=
  pages.foldl (fun total p => totalOf total p.body) total

/-- A listing that begins at `url`: at most as many pages and fewer items than the caps, no page
empty, each page at the URL that the one before links, all URLs distinct, a total that no count of
the items exceeds. After the last page there is no link, or one to a page already read, or the total
is reached. -/
structure WellBehaved (url : Str) (pages : List Page) : Prop where
  first : pages.head?.map Page.url = some url
  served : ∀ x ∈ pages.zipIdx, W.get (.attributes W.hop x.2) x.1.url = .ok (.obj x.1.body)
  nonempty : ∀ p ∈ pages, p.items ≠ []
  distinct : (pages.map Page.url).Nodup
  chained : pages.IsChain fun p q => W.nextUrl W.listingOrigin p.body = .ok (some q.url)
  pageCount : pages.length ≤ maxAttributePages
  itemCount : (objectItems pages).length < maxAttributeItems
  total : ∀ t, listingTotal none pages = some t → ((objectItems pages).length : Int) ≤ t
  last : (∃ t, listingTotal none pages = some t ∧ t ≤ (objectItems pages).length) ∨
    ∀ p ∈ pages.getLast?, ∃ next, W.nextUrl W.listingOrigin p.body = .ok next ∧
      ∀ u, next = some u → u ∈ pages.map Page.url

variable {W}

theorem readItem_eq (n : Nat) (item : Dict) : W.readItem n item =
    match W.followable item with
    | none => .ok []
    | some href => do
      let acc ← W.readRevision n item href
      return [acc] := by
  unfold readItem followable
  cases item.get "href" with
  | str href =>
    dsimp only
    split
    · rfl
    · rfl
  | _ => rfl

theorem followed_append (a b : List Dict) (n : Nat) :
    W.followed (a ++ b) n = W.followed a n ++ W.followed b (n + a.length) := by
  rw [followed, List.zipIdx_append, List.filterMap_append]
  rfl

theorem followed_cons (item : Dict) (items : List Dict) (n : Nat) :
    W.followed (item :: items) n =
      ((W.followable item).map fun href => ⟨n, item, href⟩).toList ++ W.followed items (n + 1) := by
  rw [followed, List.zipIdx_cons, List.filterMap_cons]
  cases W.followable item with
  | none => rfl
  | some href => rfl

/-- A page under the cap is read to its end, one accreditation per followable item. -/
theorem readItems_eq {rev : Nat → Accreditation} {items : List Json} {n : Nat}
    (hrev : ∀ f ∈ W.followed (items.filterMap Json.obj?) n,
      W.readRevision f.index f.item f.href = .ok (rev f.index))
    (hn : n + (items.filterMap Json.obj?).length < maxAttributeItems) (accs : List Accreditation) :
    W.readItems items n accs = .ok (n + (items.filterMap Json.obj?).length,
      accs ++ (W.followed (items.filterMap Json.obj?) n).map (rev ·.index), false) := by
  induction items generalizing n accs with
  | nil =>
    simp [readItems, followed]
  | cons v items ih =>
    cases v with
    | obj item =>
      have hobj : (Json.obj item :: items).filterMap Json.obj? =
          item :: items.filterMap Json.obj? := rfl
      rw [hobj, followed_cons] at hrev
      rw [hobj, List.length_cons] at hn
      have hitem : W.readItem n item = .ok ((((W.followable item).map fun href =>
          (⟨n, item, href⟩ : Followed)).toList).map (rev ·.index)) := by
        rw [readItem_eq]
        cases hf : W.followable item with
        | none => rfl
        | some href =>
          have hread := hrev ⟨n, item, href⟩ (by rw [hf]; exact List.mem_cons_self)
          dsimp only at hread ⊢
          rw [hread]
          rfl
      have hrest := ih (n := n + 1) (fun f hf => hrev f (List.mem_append_right _ hf)) (by omega)
      rw [readItems, hitem, hobj, followed_cons, List.length_cons, List.map_append]
      change (if maxAttributeItems ≤ n + 1 then _ else _) = _
      rw [if_neg (by omega), hrest, List.append_assoc, Nat.add_right_comm n, Nat.add_assoc]
    | _ => exact ih hrev hn accs

theorem listingTotal_some (t : Int) (pages : List Page) : listingTotal (some t) pages = some t := by
  induction pages with
  | nil => rfl
  | cons p pages ih => exact ih

/-- The pages that are left of a listing when the pages `seen` and `collected` items were read. -/
structure Remaining (W : AttributeWalk) (pages : List Page) (fuel : Nat) (seen : List Str)
    (collected : Nat) (total : Option Int) : Prop where
  served : ∀ x ∈ pages.zipIdx seen.length,
    W.get (.attributes W.hop x.2) x.1.url = .ok (.obj x.1.body)
  nonempty : ∀ p ∈ pages, p.items ≠ []
  distinct : (pages.map Page.url).Nodup
  fresh : ∀ p ∈ pages, p.url ∉ seen
  chained : pages.IsChain fun p q => W.nextUrl W.listingOrigin p.body = .ok (some q.url)
  pageCount : pages.length ≤ fuel
  itemCount : collected + (objectItems pages).length < maxAttributeItems
  totalBound : ∀ t, listingTotal total pages = some t →
    (((collected + (objectItems pages).length : Nat)) : Int) ≤ t
  last : (∃ t, listingTotal total pages = some t ∧
      t ≤ (((collected + (objectItems pages).length : Nat)) : Int)) ∨
    ∀ p ∈ pages.getLast?, ∃ next, W.nextUrl W.listingOrigin p.body = .ok next ∧
      ∀ u, next = some u → u ∈ seen ∨ u ∈ pages.map Page.url

/-- A page that is not the last one leaves the pages after it. -/
theorem Remaining.tail {p q : Page} {pages : List Page} {fuel : Nat} {seen : List Str}
    {collected : Nat} {total : Option Int}
    (h : Remaining W (p :: q :: pages) (fuel + 1) seen collected total) :
    Remaining W (q :: pages) fuel (p.url :: seen)
      (collected + (p.items.filterMap Json.obj?).length) (totalOf total p.body) := by
  have hdistinct := List.nodup_cons.mp (List.map_cons ▸ h.distinct)
  have hcount := h.itemCount
  have htotal := h.totalBound
  have hlast := h.last
  rw [objectItems_cons, List.length_append, ← Nat.add_assoc] at hcount htotal hlast
  refine ⟨?_, ?_, hdistinct.2, ?_, ?_, ?_, hcount, htotal, ?_⟩
  · intro x hx
    refine h.served x ?_
    rw [List.zipIdx_cons]
    exact List.mem_cons_of_mem _ hx
  · exact fun r hr => h.nonempty r (List.mem_cons_of_mem _ hr)
  · intro r hr hmem
    rcases List.mem_cons.mp hmem with heq | hmem
    · exact hdistinct.1 (heq ▸ List.mem_map_of_mem hr)
    · exact h.fresh r (List.mem_cons_of_mem _ hr) hmem
  · exact (List.isChain_cons_cons.mp h.chained).2
  · exact Nat.le_of_succ_le_succ h.pageCount
  · rcases hlast with hlast | hlast
    · exact .inl hlast
    · refine .inr fun r hr => ?_
      obtain ⟨next, hnext, hmem⟩ := hlast r hr
      refine ⟨next, hnext, fun u hu => ?_⟩
      rcases hmem u hu with hmem | hmem
      · exact .inl (List.mem_cons_of_mem _ hmem)
      · rcases List.mem_cons.mp hmem with rfl | hmem
        · exact .inl List.mem_cons_self
        · exact .inr hmem

/-- What reading a page comes to: its items, then the pages after it unless the total is reached. -/
theorem readPages_page {rev : Nat → Accreditation} {p : Page} (fuel : Nat) {seen : List Str}
    {collected : Nat} (total : Option Int)
    (hserved : W.get (.attributes W.hop seen.length) p.url = .ok (.obj p.body))
    (hnonempty : p.items ≠ []) (hfresh : p.url ∉ seen)
    (hcount : collected + (p.items.filterMap Json.obj?).length < maxAttributeItems)
    (hrev : ∀ f ∈ W.followed (p.items.filterMap Json.obj?) collected,
      W.readRevision f.index f.item f.href = .ok (rev f.index)) (accs : List Accreditation) :
    W.readPages W.listingOrigin (fuel + 1) (some p.url) seen collected total accs =
      if (totalOf total p.body).any
          (· ≤ ((collected + (p.items.filterMap Json.obj?).length : Nat) : Int)) then
        .ok (accs ++ (W.followed (p.items.filterMap Json.obj?) collected).map (rev ·.index))
      else W.nextUrl W.listingOrigin p.body >>= fun next =>
        W.readPages W.listingOrigin fuel next (p.url :: seen)
          (collected + (p.items.filterMap Json.obj?).length) (totalOf total p.body)
          (accs ++ (W.followed (p.items.filterMap Json.obj?) collected).map (rev ·.index)) := by
  have hitems := readItems_eq hrev hcount accs
  rw [readPages, if_neg hfresh, hserved]
  unfold Page.items at hnonempty hitems ⊢
  cases hv : p.body.get "items" with
  | arr items =>
    rw [hv] at hnonempty hitems
    cases items with
    | nil => exact absurd rfl hnonempty
    | cons item items =>
      have hpage : requireObject (.obj p.body) "TIR attributes page" = .ok p.body := rfl
      simp only [bind, Except.bind] at hitems ⊢
      rw [hpage]
      simp only [hv]
      change (W.readItems (item :: items) collected accs >>= _) = _
      rw [show W.readItems (item :: items) collected accs = _ from hitems]
      rfl
  | _ =>
    rw [hv] at hnonempty
    exact absurd rfl hnonempty

/-- The pages that are left are read to the end. -/
theorem readPages_eq {rev : Nat → Accreditation} {p : Page} {pages : List Page} {fuel : Nat}
    {seen : List Str} {collected : Nat} {total : Option Int}
    (h : Remaining W (p :: pages) fuel seen collected total)
    (hrev : ∀ f ∈ W.followed (objectItems (p :: pages)) collected,
      W.readRevision f.index f.item f.href = .ok (rev f.index)) (accs : List Accreditation) :
    W.readPages W.listingOrigin fuel (some p.url) seen collected total accs =
      .ok (accs ++ (W.followed (objectItems (p :: pages)) collected).map (rev ·.index)) := by
  obtain ⟨fuel, rfl⟩ : ∃ k, fuel = k + 1 := ⟨fuel - 1, by have := h.pageCount; simp at this; omega⟩
  have hserved : W.get (.attributes W.hop seen.length) p.url = .ok (.obj p.body) :=
    h.served (p, seen.length) (by rw [List.zipIdx_cons]; exact List.mem_cons_self)
  have hnonempty := h.nonempty p List.mem_cons_self
  have hfresh := h.fresh p List.mem_cons_self
  have hcount := h.itemCount
  have htotal := h.totalBound
  rw [objectItems_cons, List.length_append] at hcount htotal
  rw [objectItems_cons, followed_append] at hrev ⊢
  have hpage := readPages_page fuel total hserved hnonempty hfresh (by omega)
    (fun f hf => hrev f (List.mem_append_left _ hf)) accs
  rw [hpage]
  by_cases hstop : (totalOf total p.body).any
      (· ≤ ((collected + (p.items.filterMap Json.obj?).length : Nat) : Int)) = true
  · -- the total is reached: no item is left on the pages after this one
    rw [if_pos hstop]
    obtain ⟨t, ht, hle⟩ := (Option.any_eq_true_iff_get _ _).mp hstop |>.elim fun hs hle =>
      (⟨_, (Option.some_get hs).symm, of_decide_eq_true hle⟩ : ∃ t, totalOf total p.body = some t ∧
        t ≤ ((collected + (p.items.filterMap Json.obj?).length : Nat) : Int))
    have hall : listingTotal total (p :: pages) = some t := by
      change listingTotal (totalOf total p.body) pages = some t
      rw [ht, listingTotal_some]
    have hbound := htotal t hall
    have hnil : objectItems pages = [] := by
      rw [← List.length_eq_zero_iff]
      omega
    rw [hnil]
    simp [followed]
  · rw [if_neg hstop]
    cases pages with
    | nil =>
      have hend : ∀ next : Option Str, (∀ u, next = some u → u ∈ seen ∨ u ∈ [p].map Page.url) →
          ∀ accs', W.readPages W.listingOrigin fuel next (p.url :: seen)
            (collected + (p.items.filterMap Json.obj?).length) (totalOf total p.body) accs' =
              .ok accs' := by
        intro next hnext accs'
        cases fuel with
        | zero => rfl
        | succ fuel =>
          cases next with
          | none => rfl
          | some u =>
            rw [readPages, if_pos]
            rcases hnext u rfl with hu | hu
            · exact List.mem_cons_of_mem _ hu
            · rw [List.mem_singleton.mp hu]
              exact List.mem_cons_self
      rcases h.last with ⟨t, ht, hle⟩ | hlast
      · refine absurd ?_ hstop
        change totalOf total p.body = some t at ht
        rw [ht]
        rw [objectItems_cons, List.length_append] at hle
        exact decide_eq_true hle
      · obtain ⟨next, hnext, hseen⟩ := hlast p rfl
        rw [hnext]
        refine (hend next hseen _).trans ?_
        simp [objectItems, followed]
    | cons q pages =>
      have hnext := (List.isChain_cons_cons.mp h.chained).1
      rw [hnext]
      have hrest := readPages_eq h.tail (fun f hf => hrev f (List.mem_append_right _ hf))
        (accs ++ (W.followed (p.items.filterMap Json.obj?) collected).map (rev ·.index))
      refine hrest.trans ?_
      rw [List.map_append, List.append_assoc]

/-- A well-behaved listing is read to its end. -/
theorem WellBehaved.read {url : Str} {pages : List Page} (h : W.WellBehaved url pages)
    {rev : Nat → Accreditation} (hrev : ∀ f ∈ W.followed (objectItems pages) 0,
      W.readRevision f.index f.item f.href = .ok (rev f.index)) :
    W.readPages W.listingOrigin maxAttributePages (some url) [] 0 none [] =
      .ok ((W.followed (objectItems pages) 0).map (rev ·.index)) := by
  cases pages with
  | nil => cases h.first
  | cons p pages =>
    obtain rfl := Option.some.inj h.first
    refine readPages_eq ⟨h.served, h.nonempty, h.distinct, fun _ _ => List.not_mem_nil, h.chained,
      h.pageCount, ?_, ?_, ?_⟩ hrev []
    · rw [Nat.zero_add]
      exact h.itemCount
    · rw [Nat.zero_add]
      exact h.total
    · rw [Nat.zero_add]
      refine h.last.imp_right fun hlast q hq => ?_
      obtain ⟨next, hnext, hmem⟩ := hlast q hq
      exact ⟨next, hnext, fun u hu => .inr (hmem u hu)⟩

end AttributeWalk

namespace DidEbsiResolver

/-- An issuer response with attributes whose listing, from the URL that is fetched first, is
well-behaved; every item that can be followed leads to an accreditation. -/
structure Listed (R : DidEbsiResolver) (I : Interpreter) (hop : Nat) (raw : Dict) (did : Str)
    (W : AttributeWalk) (pages : List Page) (rev : Nat → Accreditation) : Prop where
  hasAttributes : wireBool raw "hasAttributes" "TIR issuer response" = .ok true
  walk : ∃ o, origin I (R.tir.issuerUrl R.base did) = .ok o ∧ W = R.attributeWalk I hop o
  listing : ∃ link url, W.attributesUrl raw (R.tir.defaultAttributesUrl R.base did) = .ok link ∧
    R.tir.follow I link = .ok url ∧ origin I url = .ok W.listingOrigin ∧ W.WellBehaved url pages
  revisions : ∀ f ∈ W.followed (objectItems pages) 0,
    W.readRevision f.index f.item f.href = .ok (rev f.index)

theorem Listed.parseIssuerWalk {R : DidEbsiResolver} {hop : Nat} {raw : Dict} {did : Str}
    {W : AttributeWalk} {pages : List Page} {rev : Nat → Accreditation}
    (h : R.Listed I hop raw did W pages rev) : R.parseIssuerWalk I hop raw did =
      .ok ⟨did, true, (W.followed (objectItems pages) 0).map (rev ·.index)⟩ := by
  obtain ⟨hasAttributes, ⟨o, ho, rfl⟩, ⟨link, url, hlink, hurl, horigin, hpages⟩, hrevisions⟩ := h
  have hread := hpages.read hrevisions
  simp only [DidEbsiResolver.parseIssuerWalk, bind_eq_ok]
  refine ⟨true, hasAttributes, ?_⟩
  simp only [if_true, bind_eq_ok, pure_eq_ok]
  refine ⟨o, ho, _, ?_, rfl⟩
  simp only [AttributeWalk.read, bind_eq_ok]
  exact ⟨link, hlink, url, hurl, o, horigin, hread⟩

/-- The walk of the v5 and Core v1 adapters makes the fetches of `fetchIssuer`. Whatever they return,
they are confined; and the record of a well-behaved listing holds one accreditation per followable
item, in listing order. -/
theorem parseIssuer_confined_complete (R : DidEbsiResolver) (I : Interpreter) (hop : Nat)
    (raw : Dict) (did : Str) (hwalk : R.tir ≠ .v4) :
    R.parseIssuer I hop raw did = (R.fetchIssuer I hop raw did).eval R.answer ∧
      (∀ l r, (R.fetchIssuer I hop raw did).Runs l r →
        Confined I (R.tir.issuerUrl R.base did) maxAttributePages maxAttributeItems [] l) ∧
      ∀ W pages rev, R.Listed I hop raw did W pages rev → R.parseIssuer I hop raw did =
        .ok ⟨did, true, (W.followed (objectItems pages) 0).map (rev ·.index)⟩ := by
  have hparse : R.parseIssuer I hop raw did = R.parseIssuerWalk I hop raw did := by
    unfold parseIssuer
    split
    · rename_i hv4
      exact absurd hv4 hwalk
    · rfl
  refine ⟨?_, fun l r h => fetchIssuer_confined h, fun W pages rev h => ?_⟩
  · rw [hparse, eval_fetchIssuer]
  · rw [hparse, h.parseIssuerWalk]

/-- A listing item. -/
def pagedItem (id href : Str) : Json := .obj [("id", .str id), ("href", .str href)]

/-- A page of a listing of three items. -/
def pagedPage (url next : Str) (items : List Json) : Page :=
  ⟨url, [("items", .arr items), ("total", .int 3), ("links", .obj [("next", .str next)])]⟩

/-- A listing of two pages; the last page links itself and one item is on another node. -/
def pagedPages : List Page :=
  [pagedPage "https://n.eu/a" "https://n.eu/b"
    [pagedItem "1" "https://n.eu/r1", pagedItem "2" "https://m.eu/r2"],
   pagedPage "https://n.eu/b" "https://n.eu/b" [pagedItem "3" "https://n.eu/r3"]]

/-- A registry that serves that listing, and one revision at every other URL. -/
def pagedResolver : DidEbsiResolver where
  get _ url := .ok <|
    match pagedPages.find? (·.url == url) with
    | some page => .obj page.body
    | none => .obj [("attribute", .obj [("issuerType", .str "TI")])]
  decode _ := .ok .null
  base := "https://n.eu"
  didr := .v5
  tir := .v5

/-- The accreditation behind an item. -/
def pagedAccreditation (id : Str) : Accreditation := ⟨id, "TI", none, none, [], none, []⟩

/-- The issuer response. -/
def pagedIssuer : Dict := [("hasAttributes", .bool true), ("attributes", .str "https://n.eu/a")]

theorem parseIssuer_paged :
    pagedResolver.parseIssuer (.atSecond 0 []) 0 pagedIssuer "did:ebsi:z" =
      .ok ⟨"did:ebsi:z", true, [pagedAccreditation "1", pagedAccreditation "3"]⟩ := by
  have horigin : origin (.atSecond 0 []) (pagedResolver.tir.issuerUrl pagedResolver.base
      "did:ebsi:z") = .ok "https://n.eu:443" := eq_ok_of_toOption (by decide +kernel)
  have hfirst : origin (.atSecond 0 []) "https://n.eu/a" = .ok "https://n.eu:443" :=
    eq_ok_of_toOption (by decide +kernel)
  refine ((pagedResolver.parseIssuer_confined_complete (.atSecond 0 []) 0 pagedIssuer "did:ebsi:z"
    nofun).2.2 (pagedResolver.attributeWalk (.atSecond 0 []) 0 "https://n.eu:443") pagedPages
      (fun n => pagedAccreditation (Str.ofNat (n + 1))) ?_).trans ?_
  · refine ⟨rfl, ⟨_, horigin, rfl⟩, ⟨"https://n.eu/a", "https://n.eu/a", ?_, rfl, hfirst, ?_⟩, ?_⟩
    · exact eq_ok_of_toOption (by decide +kernel)
    · refine
        { first := rfl
          served := List.forall_mem_cons.mpr ⟨rfl, List.forall_mem_cons.mpr ⟨rfl, nofun⟩⟩
          nonempty := by decide
          distinct := by decide +kernel
          chained := List.isChain_cons_cons.mpr
            ⟨eq_ok_of_toOption (by decide +kernel), .singleton _⟩
          pageCount := by decide
          itemCount := by decide
          total := by
            intro t ht
            obtain rfl : 3 = t := Option.some.inj ht
            decide
          last := .inl ⟨3, rfl, by decide⟩ }
    · have hall : ∀ f ∈ (pagedResolver.attributeWalk (.atSecond 0 []) 0 "https://n.eu:443").followed
          (objectItems pagedPages) 0, ((pagedResolver.attributeWalk (.atSecond 0 []) 0
            "https://n.eu:443").readRevision f.index f.item f.href).toOption =
              some (pagedAccreditation (Str.ofNat (f.index + 1))) := by decide +kernel
      exact fun f hf => eq_ok_of_toOption (hall f hf)
  · have haccs : ((pagedResolver.attributeWalk (.atSecond 0 []) 0 "https://n.eu:443").followed
        (objectItems pagedPages) 0).map (fun f => pagedAccreditation (Str.ofNat (f.index + 1))) =
          [pagedAccreditation "1", pagedAccreditation "3"] := by decide +kernel
    rw [haccs]

end DidEbsiResolver

end OpenVC.Ebsi
