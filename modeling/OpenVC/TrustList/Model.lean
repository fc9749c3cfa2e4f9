import OpenVC.Errors
import OpenVC.Python.Calling
import OpenVC.Python.Interpreter

/-!
# Trusted lists (`openvc.trustlist.model`)

The records that both encodings are parsed into: a list with pointers to other lists and providers of
services, one anchor for each certificate that loaded. A filter keeps some of the anchors.
-/

namespace OpenVC.TrustList

open Python

/-- A `TslPointer`. -/
structure TslPointer (Cert : Type) where
  location : Str
  signerCerts : List Cert
  territory : Option Str
  tslType : Option Str
  mimeType : Option Str

/-- A `TrustServiceAnchor`. -/
structure TrustServiceAnchor (Cert : Type) where
  certificate : Cert
  serviceType : Str
  serviceStatus : Str
  tspName : Option Str
  serviceName : Option Str
  territory : Option Str

/-- A `TrustServiceProvider`. -/
structure TrustServiceProvider (Cert : Type) where
  name : Option Str
  services : List (TrustServiceAnchor Cert)

/-- A `TrustList`. -/
structure TrustedList (Cert : Type) where
  tslType : Option Str
  schemeOperator : Option Str
  territory : Option Str
  sequenceNumber : Option Int
  issueDatetime : Option Str
  nextUpdate : Option DateTime
  pointers : List (TslPointer Cert)
  providers : List (TrustServiceProvider Cert)
  version : Option Int

/-- The anchors of a list, in its order. -/
def TrustedList.services {Cert : Type} (l : TrustedList Cert) : List (TrustServiceAnchor Cert) :=
  l.providers.flatMap (·.services)

/-- A `TrustListProblem`; the detail is a template with its values. -/
structure TrustListProblem where
  location : Str
  stage : Str
  detail : String
  args : List Json

/-- A `TrustAnchorSet`. -/
structure TrustAnchorSet (Cert : Type) where
  anchors : List (TrustServiceAnchor Cert)
  problems : List TrustListProblem

/-- A `Select`; a facet that is `none` matches everything. -/
structure Select where
  serviceTypes : Option (List Str) := none
  statuses : Option (List Str) := none
  territories : Option (List Str) := none

namespace Select

/-- Whether a facet admits a value. -/
def facet (values : Option (List Str)) (value : Str) : Bool := values.all (·.contains value)

/-- `matches(anchor)`. -/
def keeps {Cert : Type} (select : Select) (anchor : TrustServiceAnchor Cert) : Bool :=
  facet select.serviceTypes anchor.serviceType && facet select.statuses anchor.serviceStatus &&
    facet select.territories (anchor.territory.getD [])

end Select

end OpenVC.TrustList

/-!
## The walk of both encodings

`walk_lotl` and `walk_lote` are one loop: the root first, then its pointers, each of which is skipped,
noted as a problem or followed. A list that was followed is admitted or is a problem of its own, and
the walk goes on; an exception that is no `TrustListError` ends it.
-/

namespace OpenVC.TrustList

open Python

variable {Cert : Type} {R C : Type}

/-- What becomes of a list that was fetched: it is admitted, or it is a problem. -/
abbrev Admission (Cert : Type) := Except TrustListProblem (TrustedList Cert)

/-- The problem of an exception. -/
def problemOf (url stage : Str) (e : Err) : TrustListProblem := ⟨url, stage, e.text, e.args⟩

/-- What the `try` blocks make of a fetch and of what it returned. -/
def admitFetched (url : Str) (stage : Err → Str) (consume : R → Result (TrustedList Cert))
    (current : TrustedList Cert → Result (Admission Cert)) : Result R → Result (Admission Cert)
  | .error e => .ok (.error (problemOf url "fetch" e))
  | .ok served =>
    match consume served with
    | .error e => if e.cls.isa .trustListError then .ok (.error (problemOf url (stage e) e)) else .error e
    | .ok list => current list

/-- The services of a list that the selection keeps. -/
def selected (select : Option Select) (list : TrustedList Cert) : List (TrustServiceAnchor Cert) :=
  list.services.filter fun svc => select.all (·.keeps svc)

/-- What a list adds to the result. -/
def addAdmission (select : Option Select) (set : TrustAnchorSet Cert) :
    Admission Cert → TrustAnchorSet Cert
  | .error problem => ⟨set.anchors, set.problems ++ [problem]⟩
  | .ok list => ⟨set.anchors ++ selected select list, set.problems⟩

/-- Whether the selection admits the territory of a pointer. -/
def inTerritories (select : Option Select) (pointer : TslPointer Cert) : Bool :=
  select.all fun s => Select.facet s.territories (pointer.territory.getD [])

/-- What is done with a pointer. -/
inductive Decision where
  | skip
  | note (problem : TrustListProblem)
  | follow

/-- Code that fetches. -/
abbrev Fetching (R α : Type) := Calling Str (fun _ => R) Err α

/-- `fetch(url)` in a `try`: its outcome. -/
def fetched (url : Str) : Fetching R (Result R) := (Calling.ask url).handle .ok

/-- One pointer of the root: `decide` sees what the walk keeps besides its result. -/
def visit (decide : C → TslPointer Cert → Decision × C)
    (judge : TslPointer Cert → Result R → Result (Admission Cert)) (select : Option Select)
    (st : C × TrustAnchorSet Cert) (pointer : TslPointer Cert) :
    Fetching R (C × TrustAnchorSet Cert) :=
  match decide st.1 pointer with
  | (.skip, c) => pure (c, st.2)
  | (.note problem, c) => pure (c, addAdmission select st.2 (.error problem))
  | (.follow, c) => do
    let outcome ← fetched pointer.location
    let admission ← (judge pointer outcome : Result (Admission Cert))
    return (c, addAdmission select st.2 admission)

end OpenVC.TrustList
