import OpenVC.Proof.SdJwt
import OpenVC.Proof.VcJwt
import OpenVC.Proofs.JcsProofs
import OpenVC.Proofs.JsonInputProofs
import OpenVC.Python.Raises

/-!
# One depth bound for the readers of a JSON value

The marker search of VC-JWT with an explicit stack answers what its recursive definition says. The
loader counts the containers around a container from one, the JCS serializer and the SD-JWT
unpacking count the levels of every value from zero: a value that the loader accepts stays within
the bounds of both.
-/

namespace Python.Json

mutual

/-- Whether some object at any depth has a member named as an SD-JWT marker. -/
def marked : Json → Bool
  | .obj m => Dict.has m "_sd" || Dict.has m "_sd_alg" || Dict.has m "..." || markedMembers m
  | .arr l => markedList l
  | _ => false

/-- Whether a value of a list is marked. -/
def markedList : List Json → Bool
  | [] => false
  | v :: t => v.marked || markedList t

/-- Whether the value of a member is marked. -/
def markedMembers : List (Str × Json) → Bool
  | [] => false
  | (_, v) :: t => v.marked || markedMembers t

end

theorem markedList_eq (l : List Json) : markedList l = l.any marked := by
  induction l with
  | nil => rfl
  | cons v t ih => rw [markedList, ih, List.any_cons]

theorem markedMembers_eq (m : List (Str × Json)) :
    markedMembers m = (m.map Prod.snd).any marked := by
  induction m with
  | nil => rfl
  | cons p t ih =>
    obtain ⟨k, v⟩ := p
    rw [markedMembers, ih, List.map_cons, List.any_cons]

theorem depth_lt_arr {l : List Json} {v : Json} (h : v ∈ l) : v.depth < (arr l).depth := by
  rw [depth]
  by_contra hle
  have hlt := lt_depthList_iff.mpr ⟨v, h, show depthList l < v.depth by omega⟩
  omega

theorem depth_lt_obj {m : Dict} {k : Str} {v : Json} (h : (k, v) ∈ m) :
    v.depth < (obj m).depth := by
  have hlt := depth_lt_arr (List.mem_map_of_mem (f := Prod.snd) h)
  rw [depth] at hlt
  rw [depth, depthMembers_eq]
  exact hlt

end Python.Json

namespace OpenVC

open Python

/-- An exception with another text. -/
def OtherThan (text : String) (e : Err) : Prop := e.text ≠ text

theorem otherThan_of {text other : String} {cls : ErrorClass} {args : List Json}
    (h : other ≠ text) : OtherThan text ⟨cls, other, args⟩ := h

/-! ## The marker search -/

namespace VcJwt

theorem marked_step (v : Json) :
    v.marked = ((markerStep v).1 || (markerStep v).2.any Json.marked) := by
  cases v with
  | obj m => rw [Json.marked, Json.markedMembers_eq, markerStep]
  | arr l => rw [Json.marked, Json.markedList_eq, markerStep, Bool.false_or]
  | _ => rfl

theorem nodes_step (v : Json) : ((markerStep v).2.map Json.nodes).sum < v.nodes := by
  cases v with
  | obj m =>
    rw [Json.nodes, Json.nodesMembers_eq, Json.nodesList_eq]
    exact Nat.lt_succ_self _
  | arr l =>
    rw [Json.nodes, Json.nodesList_eq]
    exact Nat.lt_succ_self _
  | _ => exact Nat.one_pos

theorem markerLoop_eq (n : Nat) (stack : List Json) (h : (stack.map Json.nodes).sum < n) :
    markerLoop n stack = stack.any Json.marked := by
  induction n generalizing stack with
  | zero => omega
  | succ n ih =>
    cases stack with
    | nil => rfl
    | cons v stack =>
      rw [List.map_cons, List.sum_cons] at h
      have hstep := nodes_step v
      have hfuel : (((markerStep v).2.reverse ++ stack).map Json.nodes).sum < n := by
        rw [List.map_append, List.sum_append, List.map_reverse, List.sum_reverse]
        omega
      rw [markerLoop, ih _ hfuel, List.any_append, List.any_reverse, List.any_cons, marked_step,
        Bool.or_assoc]

/-- `_carries_sd_jwt_marker` answers what its recursive definition says. -/
theorem carriesSdJwtMarker_eq (v : Json) : carriesSdJwtMarker v = v.marked := by
  rw [carriesSdJwtMarker, markerLoop_eq _ _ (by simp), List.any_cons, List.any_nil, Bool.or_false]

end VcJwt

/-! ## The bound of the JCS serializer -/

namespace Jcs

/-- Not the error of the nesting bound. -/
abbrev Shallow : Err → Prop := OtherThan "maximum nesting depth % exceeded"

theorem shallow_ecmascriptDouble (d : PyFloat) : RaisesOnly Shallow (ecmascriptDouble d) := by
  unfold ecmascriptDouble
  split
  · split
    · exact raisesOnly_ok
    · exact raisesOnly_ok
  · exact raisesOnly_error.mpr (otherThan_of (by decide))

theorem shallow_numberInt (n : Int) : RaisesOnly Shallow (numberInt n) := by
  unfold numberInt
  split
  · exact raisesOnly_ok
  · split
    · exact shallow_ecmascriptDouble _
    · exact raisesOnly_error.mpr (otherThan_of (by decide))

theorem shallow_serializeList {depth : Nat} {l : List Json}
    (h : ∀ v ∈ l, RaisesOnly Shallow (serialize depth v)) :
    RaisesOnly Shallow (serializeList depth l) := by
  induction l with
  | nil => exact raisesOnly_ok
  | cons v l ih =>
    rw [List.forall_mem_cons] at h
    have htail := ih h.2
    rw [serializeList]
    split
    · rename_i e he
      exact raisesOnly_error.mpr (h.1 e he)
    · split
      · rename_i e he
        exact raisesOnly_error.mpr (htail e he)
      · exact raisesOnly_ok

theorem shallow_joinMembers {depth : Nat} {m : Dict}
    (h : ∀ p ∈ m, RaisesOnly Shallow (serialize depth p.2)) :
    RaisesOnly Shallow (joinMembers (serializeMembers depth m)) := by
  refine RaisesOnly.collect fun p hp => ?_
  obtain ⟨v, hv, hout⟩ := mem_serializeMembers ((List.mem_insertionSort memberLe).mp hp)
  have hvalue := h _ hv
  split
  · exact raisesOnly_ok
  · rename_i e he
    exact raisesOnly_error.mpr (hvalue e (hout ▸ he))

theorem shallow_serialize (k : Nat) : ∀ (depth : Nat) (v : Json), v.depth ≤ k →
    depth + v.depth ≤ maxDepth → RaisesOnly Shallow (serialize depth v) := by
  induction k with
  | zero =>
    intro depth v hk hd
    rw [serialize.eq_def, if_neg (by omega)]
    cases v with
    | null => exact raisesOnly_ok
    | bool b => cases b <;> exact raisesOnly_ok
    | str s => exact raisesOnly_ok
    | int n => exact shallow_numberInt n
    | float f => exact shallow_ecmascriptDouble f
    | arr l => rw [Json.depth] at hk; omega
    | obj m => rw [Json.depth] at hk; omega
  | succ k ih =>
    intro depth v hk hd
    rw [serialize.eq_def, if_neg (by omega)]
    cases v with
    | null => exact raisesOnly_ok
    | bool b => cases b <;> exact raisesOnly_ok
    | str s => exact raisesOnly_ok
    | int n => exact shallow_numberInt n
    | float f => exact shallow_ecmascriptDouble f
    | arr l =>
      have hlist : RaisesOnly Shallow (serializeList (depth + 1) l) := by
        refine shallow_serializeList fun v hv => ?_
        have hlt := Json.depth_lt_arr hv
        exact ih (depth + 1) v (by omega) (by omega)
      dsimp only
      split
      · exact raisesOnly_ok
      · rename_i e he
        exact raisesOnly_error.mpr (hlist e he)
    | obj m =>
      have hmembers : RaisesOnly Shallow (joinMembers (serializeMembers (depth + 1) m)) := by
        refine shallow_joinMembers fun p hp => ?_
        have hlt := Json.depth_lt_obj hp
        exact ih (depth + 1) p.2 (by omega) (by omega)
      dsimp only
      split
      · exact raisesOnly_ok
      · rename_i e he
        exact raisesOnly_error.mpr (hmembers e he)

end Jcs

/-! ## The bound of the SD-JWT unpacking -/

namespace SdJwt

/-- Not the error of the nesting bound. -/
abbrev Shallow : Err → Prop :=
  OtherThan "claim/disclosure nesting exceeds the maximum depth of %"

section Unpack

variable {descend : Descend}

theorem shallow_sdDigests (sd : Json) : RaisesOnly Shallow (sdDigests sd) := by
  unfold sdDigests
  split
  · exact raisesOnly_ok
  · exact RaisesOnly.orRaise (otherThan_of (by decide))
  · exact raisesOnly_error.mpr (otherThan_of (by decide))

theorem shallow_unpackMembers {members : Dict}
    (h : ∀ p ∈ members, ∀ top st, RaisesOnly Shallow (descend top p.2 st))
    (top : Option Str) (result : Dict) (st : Unpacking) :
    RaisesOnly Shallow (unpackMembers descend top members result st) := by
  induction members generalizing result st with
  | nil => exact raisesOnly_ok
  | cons p members ih =>
    obtain ⟨key, value⟩ := p
    rw [List.forall_mem_cons] at h
    unfold unpackMembers
    split
    · exact ih h.2 result st
    · split
      · exact raisesOnly_error.mpr (otherThan_of (by decide))
      · refine (h.1 _ _).bind fun out _ => ?_
        exact ih h.2 _ out.2

theorem shallow_unpackDigests (top : Option Str) (digests : List Str) (result : Dict)
    (st : Unpacking) : RaisesOnly Shallow (unpackDigests [] descend top digests result st) := by
  induction digests generalizing st with
  | nil => exact raisesOnly_ok
  | cons digest digests ih =>
    unfold unpackDigests
    split
    · exact raisesOnly_error.mpr (otherThan_of (by decide))
    · exact ih _

theorem shallow_unpackElement {element : Json} (top : Option Str) (st : Unpacking)
    (h : RaisesOnly Shallow (descend top element st)) :
    RaisesOnly Shallow (unpackElement [] descend top element st) := by
  unfold unpackElement
  split
  · unfold unpackElementDigest
    refine (RaisesOnly.orRaise (otherThan_of (by decide))).bind fun digest _ => ?_
    refine (RaisesOnly.raiseIf (otherThan_of (by decide))).bind fun _ _ => ?_
    exact raisesOnly_pure
  · exact h.bind fun _ _ => raisesOnly_pure

theorem shallow_unpackElements {elements : List Json} (top : Option Str)
    (h : ∀ v ∈ elements, ∀ st, RaisesOnly Shallow (descend top v st)) (st : Unpacking) :
    RaisesOnly Shallow (unpackElements [] descend top elements st) := by
  induction elements generalizing st with
  | nil => exact raisesOnly_ok
  | cons v elements ih =>
    rw [List.forall_mem_cons] at h
    rw [unpackElements]
    refine (shallow_unpackElement top st (h.1 st)).bind fun front _ => ?_
    exact (ih h.2 front.2).bind fun _ _ => raisesOnly_pure

end Unpack

theorem shallow_unpack (levels : Nat) (top : Option Str) (v : Json) (st : Unpacking)
    (hd : v.depth < levels) : RaisesOnly Shallow (unpack [] levels top v st) := by
  induction levels generalizing top v st with
  | zero => omega
  | succ levels ih =>
    cases v with
    | obj m =>
      have hmembers : ∀ p ∈ m, ∀ top st, RaisesOnly Shallow (unpack [] levels top p.2 st) := by
        intro p hp top st
        have hlt := Json.depth_lt_obj hp
        exact ih top p.2 st (by omega)
      rw [unpack]
      refine (shallow_unpackMembers hmembers top [] st).bind fun out _ => ?_
      refine (shallow_sdDigests _).bind fun digests _ => ?_
      exact (shallow_unpackDigests top digests out.1 out.2).bind fun _ _ => raisesOnly_pure
    | arr l =>
      have helements : ∀ v ∈ l, ∀ st, RaisesOnly Shallow (unpack [] levels top v st) := by
        intro v hv st
        have hlt := Json.depth_lt_arr hv
        exact ih top v st (by omega)
      rw [unpack]
      exact (shallow_unpackElements top helements st).bind fun _ _ => raisesOnly_pure
    | null | bool | int | float | str => exact raisesOnly_pure

end SdJwt

/-! ## The three bounds -/

/-- What the loader returns, from a text or from bytes. -/
def Loaded (v : Json) : Prop :=
  (∃ s, loads s = .ok v) ∨ (∃ b, loadsBytes b = .ok v) ∨ (∃ s, loadsUnambiguous s = .ok v) ∨
    ∃ b, loadsUnambiguousBytes b = .ok v

theorem Loaded.depth_le {v : Json} (h : Loaded v) : v.depth ≤ maxDepth := by
  have hload : ∃ parsed, boundedDepth parsed = .ok v := by
    rcases h with ⟨_, h⟩ | ⟨_, h⟩ | ⟨_, h⟩ | ⟨_, h⟩ <;> exact ⟨_, h⟩
  obtain ⟨parsed, hparsed⟩ := hload
  have hd := (boundedDepth_eq_ok.mp hparsed).2
  rw [nestingExceeds_eq, decide_eq_false_iff_not] at hd
  omega

theorem shallow_canonicalize {v : Json} (h : v.depth ≤ Jcs.maxDepth) :
    RaisesOnly Jcs.Shallow (Jcs.canonicalize v) := by
  have hserialize := Jcs.shallow_serialize v.depth 0 v (Nat.le_refl _) (by omega)
  exact hserialize.bind fun _ _ => RaisesOnly.orRaise (otherThan_of (by decide))

/-- The two scans answer what their recursive definitions say: `nesting_exceeds` whether a container
lies deeper than the limit, `_carries_sd_jwt_marker` whether some object carries a marker. What the
loader accepts is within the bounds of the serializer and of the unpacking, which never refuse it
for its depth. -/
theorem scans_recursive :
    (∀ (v : Json) (limit : Int), nestingExceeds v limit = true ↔ 0 < v.depth ∧ limit < v.depth) ∧
    (∀ (v : Json) (limit : Nat), nestingExceeds v limit = true ↔ limit < v.depth) ∧
    (∀ v : Json, VcJwt.carriesSdJwtMarker v = v.marked) ∧
    (∀ v : Json, Loaded v →
      v.depth ≤ Jcs.maxDepth ∧ v.depth ≤ SdJwt.maxDepth ∧
      RaisesOnly Jcs.Shallow (Jcs.canonicalize v) ∧
      ∀ (top : Option Str) (st : SdJwt.Unpacking),
        RaisesOnly SdJwt.Shallow (SdJwt.unpack [] (SdJwt.maxDepth + 1) top v st)) := by
  refine ⟨nestingExceeds_iff, fun v limit => ?_, VcJwt.carriesSdJwtMarker_eq, fun v h => ?_⟩
  · rw [nestingExceeds_eq, decide_eq_true_eq]
  · have hd := h.depth_le
    refine ⟨hd, hd, shallow_canonicalize hd, fun top st => ?_⟩
    exact SdJwt.shallow_unpack _ top v st (Nat.lt_succ_of_le hd)

/-- An array in an array, as the loader returns it: deeper than one level, without a marker, and within
the bounds of the serializer and of the unpacking. -/
theorem scans_recursive_nested :
    nestingExceeds (.arr [.arr [.int 1]]) (1 : Nat) = true ∧
      VcJwt.carriesSdJwtMarker (.arr [.arr [.int 1]]) = false ∧
      RaisesOnly Jcs.Shallow (Jcs.canonicalize (.arr [.arr [.int 1]])) := by
  obtain ⟨-, hdeep, hmarked, hloaded⟩ := scans_recursive
  have hload : Loaded (.arr [.arr [.int 1]]) := .inl ⟨"[[1]]", rfl⟩
  refine ⟨(hdeep _ 1).mpr (by decide), ?_, (hloaded _ hload).2.2.1⟩
  rw [hmarked]
  rfl

end OpenVC
