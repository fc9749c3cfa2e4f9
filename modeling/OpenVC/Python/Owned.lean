import OpenVC.Python.Json

/-!
# Values with the owners of their containers

Python's lists and dicts are changed in place, so a value that is built from parts of another one may
change that other one. Here each list and dict carries its owner: the caller whose value it is, or the
function that built it. A run records the owner of every container it writes to.
-/

namespace Python

/-- Who a list or a dict belongs to. -/
inductive Owner
  | caller
  | callee
  deriving DecidableEq, Repr

/-- A JSON value whose lists and dicts carry their owner. -/
inductive Owned
  | null
  | bool (b : Bool)
  | int (n : Int)
  | float (f : PyFloat)
  | str (s : Str)
  | arr (owner : Owner) (l : List Owned)
  | obj (owner : Owner) (m : List (Str × Owned))

namespace Owned

mutual

/-- The value. -/
def plain : Owned → Json
  | .null => .null
  | .bool b => .bool b
  | .int n => .int n
  | .float f => .float f
  | .str s => .str s
  | .arr _ l => .arr (plainList l)
  | .obj _ m => .obj (plainMembers m)

def plainList : List Owned → List Json
  | [] => []
  | v :: t => plain v :: plainList t

def plainMembers : List (Str × Owned) → List (Str × Json)
  | [] => []
  | (k, v) :: t => (k, plain v) :: plainMembers t

end

mutual

/-- The value with all its containers owned by `owner`. -/
def ofJson (owner : Owner) : Json → Owned
  | .null => .null
  | .bool b => .bool b
  | .int n => .int n
  | .float f => .float f
  | .str s => .str s
  | .arr l => .arr owner (ofList owner l)
  | .obj m => .obj owner (ofMembers owner m)

def ofList (owner : Owner) : List Json → List Owned
  | [] => []
  | v :: t => ofJson owner v :: ofList owner t

def ofMembers (owner : Owner) : List (Str × Json) → List (Str × Owned)
  | [] => []
  | (k, v) :: t => (k, ofJson owner v) :: ofMembers owner t

end

mutual

/-- Every container in the value is owned by `owner`. -/
def OwnedBy (owner : Owner) : Owned → Prop
  | .arr o l => o = owner ∧ ListOwnedBy owner l
  | .obj o m => o = owner ∧ MembersOwnedBy owner m
  | _ => True

def ListOwnedBy (owner : Owner) : List Owned → Prop
  | [] => True
  | v :: t => OwnedBy owner v ∧ ListOwnedBy owner t

def MembersOwnedBy (owner : Owner) : List (Str × Owned) → Prop
  | [] => True
  | (_, v) :: t => OwnedBy owner v ∧ MembersOwnedBy owner t

end

/-- `copy.deepcopy(v)`: an equal value in containers of its own. -/
def deepcopy (v : Owned) : Owned := ofJson .callee v.plain

/-- The members with `k` assigned: in place when it is there, else at the end. -/
def setMember : List (Str × Owned) → Str → Owned → List (Str × Owned)
  | [], k, v => [(k, v)]
  | (k', v') :: t, k, v => if k' = k then (k', v) :: t else (k', v') :: setMember t k v

mutual

@[simp] theorem plain_ofJson (owner : Owner) : ∀ v : Json, (ofJson owner v).plain = v
  | .null | .bool _ | .int _ | .float _ | .str _ => rfl
  | .arr l => congrArg Json.arr (plainList_ofList owner l)
  | .obj m => congrArg Json.obj (plainMembers_ofMembers owner m)

theorem plainList_ofList (owner : Owner) : ∀ l : List Json, plainList (ofList owner l) = l
  | [] => rfl
  | v :: t => by rw [ofList, plainList, plain_ofJson owner v, plainList_ofList owner t]

theorem plainMembers_ofMembers (owner : Owner) :
    ∀ m : List (Str × Json), plainMembers (ofMembers owner m) = m
  | [] => rfl
  | (k, v) :: t => by rw [ofMembers, plainMembers, plain_ofJson owner v, plainMembers_ofMembers owner t]

end

mutual

theorem ownedBy_ofJson (owner : Owner) : ∀ v : Json, (ofJson owner v).OwnedBy owner
  | .null | .bool _ | .int _ | .float _ | .str _ => trivial
  | .arr l => ⟨rfl, listOwnedBy_ofList owner l⟩
  | .obj m => ⟨rfl, membersOwnedBy_ofMembers owner m⟩

theorem listOwnedBy_ofList (owner : Owner) : ∀ l : List Json, ListOwnedBy owner (ofList owner l)
  | [] => trivial
  | v :: t => ⟨ownedBy_ofJson owner v, listOwnedBy_ofList owner t⟩

theorem membersOwnedBy_ofMembers (owner : Owner) :
    ∀ m : List (Str × Json), MembersOwnedBy owner (ofMembers owner m)
  | [] => trivial
  | (_, v) :: t => ⟨ownedBy_ofJson owner v, membersOwnedBy_ofMembers owner t⟩

end

@[simp] theorem plain_deepcopy (v : Owned) : v.deepcopy.plain = v.plain := plain_ofJson _ _

theorem ownedBy_deepcopy (v : Owned) : v.deepcopy.OwnedBy .callee := ownedBy_ofJson _ _

theorem get?_plainMembers (m : List (Str × Owned)) (k : Str) :
    Dict.get? (plainMembers m) k = (m.lookup k).map plain := by
  induction m with
  | nil => rfl
  | cons p m ih =>
    obtain ⟨k', v⟩ := p
    rw [plainMembers, Dict.get?_cons]
    by_cases hk : k' = k
    · subst hk
      rw [if_pos rfl, List.lookup_cons_self, Option.map_some]
    · rw [if_neg hk, ih, List.lookup_cons, beq_false_of_ne (Ne.symm hk)]

theorem plainMembers_setMember (m : List (Str × Owned)) (k : Str) (v : Owned) :
    plainMembers (setMember m k v) = Dict.set (plainMembers m) k v.plain := by
  induction m with
  | nil => rfl
  | cons p m ih =>
    obtain ⟨k', v'⟩ := p
    rw [setMember, plainMembers, Dict.set]
    split
    · rfl
    · rw [plainMembers, ih]

theorem membersOwnedBy_setMember {owner : Owner} {m : List (Str × Owned)} {k : Str} {v : Owned}
    (hm : MembersOwnedBy owner m) (hv : v.OwnedBy owner) : MembersOwnedBy owner (setMember m k v) := by
  induction m with
  | nil => exact ⟨hv, trivial⟩
  | cons p m ih =>
    obtain ⟨k', v'⟩ := p
    rw [setMember]
    split
    · exact ⟨hv, hm.2⟩
    · exact ⟨hm.1, ih hm.2⟩

theorem ownedBy_of_lookup {owner : Owner} {m : List (Str × Owned)} {k : Str} {v : Owned}
    (hm : MembersOwnedBy owner m) (h : m.lookup k = some v) : v.OwnedBy owner := by
  induction m with
  | nil => cases h
  | cons p m ih =>
    obtain ⟨k', v'⟩ := p
    rw [List.lookup_cons] at h
    split at h
    · cases h
      exact hm.1
    · exact ih hm.2 h

end Owned

/-- The owners of the containers that a run writes to, in order, and how it ends. -/
structure Run (ε α : Type) where
  writes : List Owner
  result : Except ε α

namespace Run

variable {ε α β : Type}

/-- A run that writes nothing. -/
def still (r : Except ε α) : Run ε α := ⟨[], r⟩

protected def bind (r : Run ε α) (f : α → Run ε β) : Run ε β :=
  match r.result with
  | .ok a => ⟨r.writes ++ (f a).writes, (f a).result⟩
  | .error e => ⟨r.writes, .error e⟩

instance : Monad (Run ε) where
  pure a := still (.ok a)
  bind := Run.bind

/-- Everything written to is the callee's, and so is all that the result holds. -/
def Safe (r : Run ε α) (P : α → Prop) : Prop :=
  (∀ o ∈ r.writes, o = .callee) ∧ ∀ a, r.result = .ok a → P a

theorem safe_still {x : Except ε α} {P : α → Prop} (h : ∀ a, x = .ok a → P a) : Safe (still x) P :=
  ⟨fun _ ho => absurd ho List.not_mem_nil, h⟩

theorem Safe.bind {r : Run ε α} {f : α → Run ε β} {P : α → Prop} {Q : β → Prop} (hr : Safe r P)
    (hf : ∀ a, P a → Safe (f a) Q) : Safe (r >>= f) Q := by
  change Safe (Run.bind r f) Q
  unfold Run.bind
  split
  · rename_i a ha
    obtain ⟨hwrites, hresult⟩ := hf a (hr.2 a ha)
    refine ⟨fun o ho => ?_, hresult⟩
    rcases List.mem_append.mp ho with ho | ho
    · exact hr.1 o ho
    · exact hwrites o ho
  · exact ⟨hr.1, fun a ha => by cases ha⟩

@[simp] theorem result_still (x : Except ε α) : (still x).result = x := rfl

@[simp] theorem result_pure (a : α) : (pure a : Run ε α).result = .ok a := rfl

theorem ok_bind (a : α) (f : α → Except ε β) : (Except.ok a >>= f) = f a := rfl

theorem result_bind (r : Run ε α) (f : α → Run ε β) :
    (r >>= f).result = r.result >>= fun a => (f a).result := by
  change (Run.bind r f).result = _
  unfold Run.bind
  cases r.result <;> rfl

end Run

end Python
