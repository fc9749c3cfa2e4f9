import OpenVC.Ebsi.Versioning
import OpenVC.Python.Calling

/-!
# The fetches of the attribute walk

The walk of `_TirAttributeWalk.parse_issuer` again, with each use of the injected `fetch` written out
as a call, so that the URLs it fetches can be told apart from what it makes of the answers. When the
calls are answered by the walk's own `http_get`, it is the walk of `OpenVC.Ebsi.Versioning`.
-/

namespace OpenVC.Ebsi

open Python Did

/-- One use of `fetch`: its place in the run and the URL. -/
structure Fetch where
  place : Request
  url : Str

/-- A computation that fetches. -/
abbrev Fetching (α : Type) := Calling Fetch (fun _ => Json) Err α

/-- `fetch(url)`. -/
def fetch (place : Request) (url : Str) : Fetching Json := Calling.ask (Fetch.mk place url)

namespace AttributeWalk

variable (W : AttributeWalk)

/-- The accreditation behind the `href` of a listing item. -/
def fetchRevision (n : Nat) (item : Dict) (href : Str) : Fetching Accreditation := do
  let url ← W.tir.follow W.interpreter href
  let body ← fetch (.revision W.hop n) url
  let revision ← requireObject body "TIR attribute revision"
  let attr ← orRaise (revision.get "attribute").obj?
    (⟨.malformedRegistryResponse, "TIR attribute revision has no attribute object", []⟩ : Err)
  readAccreditation W.decode attr (attributeId item attr)

/-- The loop body of `parse_issuer`. -/
def fetchItem (n : Nat) (item : Dict) : Fetching (List Accreditation) :=
  match item.get "href" with
  | .str href =>
    if href.isEmpty || !onOrigin W.interpreter href W.listingOrigin then pure []
    else do
      let acc ← W.fetchRevision n item href
      return [acc]
  | _ => pure []

/-- The items of one page, handed to the loop body one by one. -/
def fetchItems : List Json → Nat → List Accreditation →
    Fetching (Nat × List Accreditation × Bool)
  | [], n, accs => pure (n, accs, false)
  | .obj item :: items, n, accs => do
    let new ← W.fetchItem n item
    if maxAttributeItems ≤ n + 1 then return (n + 1, accs ++ new, true)
    else fetchItems items (n + 1) (accs ++ new)
  | _ :: items, n, accs => fetchItems items n accs

/-- The loop of `_iter_attribute_items`, with the pages it may still read. -/
def fetchPages (pagesOrigin : Str) : Nat → Option Str → List Str → Nat → Option Int →
    List Accreditation → Fetching (List Accreditation)
  | pages + 1, some url, seen, collected, total, accs =>
    if url ∈ seen then pure accs
    else do
      let body ← fetch (.attributes W.hop seen.length) url
      let page ← requireObject body "TIR attributes page"
      match page.get "items" with
      | .arr (item :: items) => do
        let (collected, accs, capped) ← W.fetchItems (item :: items) collected accs
        if capped || (totalOf total page).any (· ≤ (collected : Int)) then return accs
        else do
          let next ← W.nextUrl pagesOrigin page
          fetchPages pagesOrigin pages next (url :: seen) collected (totalOf total page) accs
      | _ => return accs
  | _, _, _, _, _, accs => pure accs

/-- Every accreditation that the listing of an issuer leads to. -/
def fetchAll (raw : Dict) (fallback : Str) : Fetching (List Accreditation) := do
  let url ← W.attributesUrl raw fallback
  let url ← W.tir.follow W.interpreter url
  let pagesOrigin ← origin W.interpreter url
  W.fetchPages pagesOrigin maxAttributePages (some url) [] 0 none []

/-- The walk's own `http_get`. -/
def answer (q : Fetch) : Result Json := W.get q.place q.url

end AttributeWalk

namespace DidEbsiResolver

variable (R : DidEbsiResolver)

/-- What the walk of an issuer's attributes is started with. -/
def attributeWalk (I : Interpreter) (hop : Nat) (listingOrigin : Str) : AttributeWalk :=
  ⟨I, R.tir, R.get, R.decode, hop, listingOrigin⟩

/-- `_TirAttributeWalk.parse_issuer(raw, base, did, fetch, decode)`. -/
def fetchIssuer (I : Interpreter) (hop : Nat) (raw : Dict) (did : Str) :
    Fetching IssuerRecord := do
  let hasAttributes ← wireBool raw "hasAttributes" "TIR issuer response"
  if hasAttributes then do
    let listingOrigin ← origin I (R.tir.issuerUrl R.base did)
    let accs ← (R.attributeWalk I hop listingOrigin).fetchAll raw
      (R.tir.defaultAttributesUrl R.base did)
    return ⟨did, true, accs⟩
  else return ⟨did, false, []⟩

/-- The resolver's `http_get`. -/
def answer (q : Fetch) : Result Json := R.get q.place q.url

end DidEbsiResolver

/-! ## The walk with the fetches answered -/

namespace AttributeWalk

variable {W : AttributeWalk}

@[simp] theorem eval_fetch (place : Request) (url : Str) :
    (fetch place url).eval W.answer = W.get place url := rfl

theorem eval_fetchItem (n : Nat) (item : Dict) :
    (W.fetchItem n item).eval W.answer = W.readItem n item := by
  unfold fetchItem readItem
  cases item.get "href" with
  | str href =>
    dsimp only
    split
    · rfl
    · simp only [fetchRevision, readRevision, Calling.eval_bind, Calling.eval_liftM, eval_fetch,
        Calling.eval_pure]
  | _ => rfl

theorem eval_fetchItems (items : List Json) (n : Nat) (accs : List Accreditation) :
    (W.fetchItems items n accs).eval W.answer = W.readItems items n accs := by
  induction items generalizing n accs with
  | nil => rfl
  | cons v items ih =>
    cases v with
    | obj item =>
      rw [fetchItems, readItems, Calling.eval_bind, eval_fetchItem]
      congr 1
      funext new
      split
      · rfl
      · exact ih (n + 1) (accs ++ new)
    | _ => exact ih n accs

theorem eval_fetchPages (pagesOrigin : Str) (pages : Nat) (url : Option Str) (seen : List Str)
    (collected : Nat) (total : Option Int) (accs : List Accreditation) :
    (W.fetchPages pagesOrigin pages url seen collected total accs).eval W.answer =
      W.readPages pagesOrigin pages url seen collected total accs := by
  induction pages generalizing url seen collected total accs with
  | zero => rfl
  | succ pages ih =>
    cases url with
    | none => rfl
    | some url =>
      rw [fetchPages, readPages]
      split
      · rfl
      · rw [Calling.eval_bind, eval_fetch]
        congr 1
        funext body
        rw [Calling.eval_bind, Calling.eval_liftM]
        congr 1
        funext page
        cases page.get "items" with
        | arr items =>
          cases items with
          | nil => rfl
          | cons item items =>
            dsimp only
            rw [Calling.eval_bind, eval_fetchItems]
            congr 1
            funext ⟨n, new, capped⟩
            dsimp only
            split
            · rfl
            · rw [Calling.eval_bind, Calling.eval_liftM]
              congr 1
              funext next
              exact ih next (url :: seen) n (totalOf total page) new
        | _ => rfl

theorem eval_fetchAll (raw : Dict) (fallback : Str) :
    (W.fetchAll raw fallback).eval W.answer = W.read raw fallback := by
  simp only [fetchAll, read, Calling.eval_bind, Calling.eval_liftM, eval_fetchPages]

end AttributeWalk

/-- The walk with its fetches answered is `parse_issuer`. -/
theorem DidEbsiResolver.eval_fetchIssuer (R : DidEbsiResolver) (I : Interpreter) (hop : Nat)
    (raw : Dict) (did : Str) :
    (R.fetchIssuer I hop raw did).eval R.answer = R.parseIssuerWalk I hop raw did := by
  rw [fetchIssuer, parseIssuerWalk, Calling.eval_bind, Calling.eval_liftM]
  congr 1
  funext hasAttributes
  split
  · rw [Calling.eval_bind, Calling.eval_liftM]
    congr 1
    funext listingOrigin
    rw [Calling.eval_bind]
    have h := AttributeWalk.eval_fetchAll (W := R.attributeWalk I hop listingOrigin) raw
      (R.tir.defaultAttributesUrl R.base did)
    exact congrArg (· >>= _) h
  · rfl

end OpenVC.Ebsi
