import OpenVC.Errors
import OpenVC.Python.JsonLoads

/-!
# The JSON loader for untrusted input (`openvc._json`)

`loads` is `json.loads` with a bound on the nesting of what it returns.
-/

namespace OpenVC

open Python

/-- The deepest container nesting accepted from untrusted input. -/
def maxDepth : Nat := 100

/-- The children of a container, `none` for a scalar. -/
def containerChildren : Json → Option (List Json)
  | .obj m => some (m.map Prod.snd)
  | .arr l => some l
  | _ => none

/-- The loop of `nesting_exceeds`. The stack's top is the head of the list; a run pops at most as
many values as the tree has, which is the fuel it is started with. -/
def nestingLoop (limit : Int) : Nat → List (Json × Nat) → Bool
  | 0, _ => false
  | _ + 1, [] => false
  | n + 1, (node, depth) :: stack =>
    match containerChildren node with
    | none => nestingLoop limit n stack
    | some children =>
      if limit < depth then true
      else
        nestingLoop limit n
          (((children.filter fun c => (containerChildren c).isSome).map (·, depth + 1)).reverse
            ++ stack)

/-- `nesting_exceeds(value, limit)`. -/
def nestingExceeds (value : Json) (limit : Int) : Bool :=
  nestingLoop limit (value.nodes + 1) [(value, 1)]

/-- The outcome of `_json.loads` from what `json.loads` gave. -/
def boundedDepth (parsed : Option Json) : Result Json := do
  let value ← orRaise parsed ⟨.valueError, "JSONDecodeError", []⟩
  raiseIf (nestingExceeds value maxDepth)
    ⟨.valueError, "JSON is nested deeper than % levels", [.int maxDepth]⟩
  return value

/-- `_json.loads(data)` for a `str`. -/
def loads (data : Str) : Result Json := boundedDepth (JsonLoads.loads data)

/-- `_json.loads(data)` for `bytes`. -/
def loadsBytes (data : Bytes) : Result Json := boundedDepth (JsonLoads.loadsBytes data)

/-- `_json.loads(data, reject_ambiguous=True)` for a `str`. -/
def loadsUnambiguous (data : Str) : Result Json := boundedDepth (JsonLoads.loadsStrict data)

/-- `_json.loads(data, reject_ambiguous=True)` for `bytes`. -/
def loadsUnambiguousBytes (data : Bytes) : Result Json :=
  boundedDepth (JsonLoads.loadsStrictBytes data)

theorem boundedDepth_eq_ok {parsed : Option Json} {v : Json} :
    boundedDepth parsed = .ok v ↔ parsed = some v ∧ nestingExceeds v maxDepth = false := by
  simp only [boundedDepth, bind_eq_ok, orRaise_eq_ok, raiseIf_eq_ok, pure_eq_ok]
  constructor
  · rintro ⟨w, hw, _, hd, rfl⟩; exact ⟨hw, hd⟩
  · rintro ⟨hw, hd⟩; exact ⟨v, hw, (), hd, rfl⟩

theorem loads_wf {s : Str} {v : Json} (h : loads s = .ok v) : v.WF :=
  JsonLoads.loads_wf (boundedDepth_eq_ok.mp h).1

theorem loadsBytes_wf {b : Bytes} {v : Json} (h : loadsBytes b = .ok v) : v.WF :=
  JsonLoads.loadsBytes_wf (boundedDepth_eq_ok.mp h).1

end OpenVC
