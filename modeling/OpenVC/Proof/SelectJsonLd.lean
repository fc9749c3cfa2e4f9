import OpenVC.Errors
import OpenVC.Python.Owned
import OpenVC.Python.SubDocument

/-!
# JSON-pointer selection (`openvc.proof.ecdsa_sd`)

`select_json_ld` copies what the pointers lead to, with the `@id`, `id` and `type` of the objects on the
way. The source builds the selection in place; here `selectPath` returns it.
-/

namespace OpenVC.EcdsaSd

open Python

/-- The segments of a pointer after its first character, unescaped. -/
def pointerTokens (pointer : Str) : List Str :=
  (Str.split 47 (pointer.drop 1)).map fun tok =>
    Str.replace (Str.replace tok (lit "~1") (lit "/")) (lit "~0") (lit "~")

/-- `_parse_pointer(pointer)`. -/
def parsePointer (pointer : Str) : Result (List Str) := do
  raiseIf (!pointer.startsWith "/")
    ⟨.ecdsaSdError, "JSON pointer must start with '/': %", [.str pointer]⟩
  return pointerTokens pointer

/-- `sel[key] = source[key]` when it is a string. -/
def copyString (source : Dict) (key : Str) (sel : Dict) : Dict :=
  match source.get? key with
  | some (.str s) => sel.set key (.str s)
  | _ => sel

/-- `sel[key] = copy.deepcopy(source[key])` when it is there. -/
def copyMember (source : Dict) (key : Str) (sel : Dict) : Dict :=
  match source.get? key with
  | some v => sel.set key v
  | none => sel

/-- `_initial_selection(source)`. -/
def initialSelection : Json → Dict
  | .obj source => copyMember source "type" (copyString source "id" (copyString source "@id" []))
  | _ => []

/-- `sel.get(tok)`. -/
def getItem (sel : Json) (tok : Str) : Result Json :=
  match sel with
  | .obj m => .ok (Dict.get m tok)
  | _ => raise .attributeError "object has no attribute 'get'" []

/-- `sel[tok] = value`. -/
def setItem (sel : Json) (tok : Str) (value : Json) : Result Json :=
  match sel with
  | .obj m => .ok (.obj (Dict.set m tok value))
  | _ => raise .typeError "object does not support item assignment" []

/-- The child of a selection that the walk goes on in. -/
def childOf (existing value : Json) : Json :=
  match existing with
  | .null => .obj (initialSelection value)
  | child => child

/-- `_select_path(tokens, source, selection)`. -/
def selectPath : List Str → Json → Json → Result Json
  | [], _, sel => .ok sel
  | tok :: rest, src, sel => do
    let members ← orRaise src.obj?
      ⟨.ecdsaSdError, "array-index JSON pointers are not yet supported", []⟩
    let value ← orRaise (members.get? tok)
      ⟨.ecdsaSdError, "JSON pointer segment % does not resolve", [.str tok]⟩
    if rest.isEmpty then setItem sel tok value
    else do
      let existing ← getItem sel tok
      let child ← selectPath rest value (childOf existing value)
      setItem sel tok child

/-- The loop over the pointers. -/
def selectPaths (document : Json) : List Str → Json → Result Json
  | [], selection => .ok selection
  | pointer :: pointers, selection => do
    let tokens ← parsePointer pointer
    let selection ← selectPath tokens document selection
    selectPaths document pointers selection

/-- The selection before the first pointer. -/
def rootSelection (document : Dict) : Dict :=
  copyMember document "@context" (initialSelection (.obj document))

/-- `select_json_ld(pointers, document)`. -/
def selectJsonLd (pointers : List Str) (document : Dict) : Result (Option Json) :=
  if pointers.isEmpty then .ok none
  else some <$> selectPaths (.obj document) pointers (.obj (rootSelection document))

/-! ## What a selection is for -/

/-- The members that an object on the way keeps: a string `@id` or `id`, and `type`. -/
def isLabel (key : Str) (value : Json) : Bool :=
  ((key == lit "@id" || key == lit "id") && value.str?.isSome) || key == lit "type"

/-- The members that the document itself keeps. -/
def isRootLabel (key : Str) (value : Json) : Bool := isLabel key value || key == lit "@context"

/-- The pointer leads to a value through members of objects. -/
def Resolves (document : Dict) (pointer : Str) : Prop :=
  pointer.startsWith "/" = true ∧ ∃ v, (Json.obj document).at? (pointerTokens pointer) = some v

/-- A document with all that the pointers lead to, the labels of the objects on the way and the
context. -/
def Selects (document : Dict) (pointers : List Str) (s : Json) : Prop :=
  Json.Covers isLabel isRootLabel (.obj document) (pointers.map pointerTokens) s

end OpenVC.EcdsaSd

/-!
## The selection, built in place (`openvc.proof.ecdsa_sd`)

`SelectJsonLd` once more, with the dicts that the source shares and writes to: every `sel[tok] = …` is
recorded with the owner of `sel`, the document belonging to the caller.
-/

namespace OpenVC.EcdsaSd

open Python

/-- `sel[tok] = value`. -/
def setItemInPlace (sel : Owned) (tok : Str) (value : Owned) : Run Err Owned :=
  match sel with
  | .obj owner m => ⟨[owner], .ok (.obj owner (Owned.setMember m tok value))⟩
  | _ => .still (raise .typeError "object does not support item assignment" [])

/-- `sel.get(tok)`. -/
def getItemInPlace (sel : Owned) (tok : Str) : Run Err Owned :=
  match sel with
  | .obj _ m => .still (.ok ((m.lookup tok).getD .null))
  | _ => .still (raise .attributeError "object has no attribute 'get'" [])

/-- What `sel` is when the dict that its `tok` refers to has become `child`. -/
def withChild (sel : Owned) (tok : Str) (child : Owned) : Owned :=
  match sel with
  | .obj owner m => .obj owner (Owned.setMember m tok child)
  | sel => sel

/-- `sel[key] = source[key]` when it is a string. -/
def copyStringInPlace (source : List (Str × Owned)) (key : Str) (sel : Owned) : Run Err Owned :=
  match source.lookup key with
  | some (.str s) => setItemInPlace sel key (.str s)
  | _ => pure sel

/-- `sel[key] = copy.deepcopy(source[key])` when it is there. -/
def copyMemberInPlace (source : List (Str × Owned)) (key : Str) (sel : Owned) : Run Err Owned :=
  match source.lookup key with
  | some v => setItemInPlace sel key v.deepcopy
  | none => pure sel

/-- `_initial_selection(source)`. -/
def initialSelectionInPlace : Owned → Run Err Owned
  | .obj _ source => do
    let sel ← copyStringInPlace source "@id" (.obj .callee [])
    let sel ← copyStringInPlace source "id" sel
    copyMemberInPlace source "type" sel
  | _ => pure (.obj .callee [])

/-- The child of the selection that the walk goes on in, and the selection with it. -/
def childInPlace (sel : Owned) (tok : Str) (existing value : Owned) : Run Err (Owned × Owned) :=
  match existing with
  | .null => do
    let child ← initialSelectionInPlace value
    let sel ← setItemInPlace sel tok child
    return (sel, child)
  | child => pure (sel, child)

/-- `_select_path(tokens, source, selection)`; the result is what the selection has become. -/
def selectPathInPlace : List Str → Owned → Owned → Run Err Owned
  | [], _, sel => pure sel
  | tok :: rest, .obj _ members, sel =>
    match members.lookup tok with
    | none => .still (raise .ecdsaSdError "JSON pointer segment % does not resolve" [.str tok])
    | some value =>
      if rest.isEmpty then setItemInPlace sel tok value.deepcopy
      else do
        let existing ← getItemInPlace sel tok
        let (sel, child) ← childInPlace sel tok existing value
        let child ← selectPathInPlace rest value child
        return withChild sel tok child
  | _ :: _, _, _ =>
    .still (raise .ecdsaSdError "array-index JSON pointers are not yet supported" [])

/-- The loop over the pointers. -/
def selectPathsInPlace (document : Owned) : List Str → Owned → Run Err Owned
  | [], selection => pure selection
  | pointer :: pointers, selection => do
    let tokens ← .still (parsePointer pointer)
    let selection ← selectPathInPlace tokens document selection
    selectPathsInPlace document pointers selection

/-- `select_json_ld(pointers, document)`. -/
def selectJsonLdInPlace (pointers : List Str) (document : List (Str × Owned)) :
    Run Err (Option Owned) :=
  if pointers.isEmpty then pure none
  else do
    let selection ← initialSelectionInPlace (.obj .caller document)
    let selection ← copyMemberInPlace document "@context" selection
    let selection ← selectPathsInPlace (.obj .caller document) pointers selection
    return some selection

end OpenVC.EcdsaSd
