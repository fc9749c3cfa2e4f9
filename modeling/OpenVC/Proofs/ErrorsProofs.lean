import OpenVC.Errors
import OpenVC.Python.Raises

/-!
# Typed failure

A computation is typed by a class when every exception it raises is of a subclass of it. A block that
turns exceptions into others is typed by what it does not catch and by what it raises instead.
-/

namespace OpenVC

open Python

/-- `except cls` catches all that the computation raises. -/
abbrev Typed {α : Type} (cls : ErrorClass) (x : Result α) : Prop :=
  RaisesOnly (·.cls.isa cls = true) x

variable {α : Type} {P : Err → Prop} {x : Result α}

@[simp] theorem raisesOnly_raise {cls : ErrorClass} {text : String} {args : List Json} :
    RaisesOnly P (raise cls text args : Result α) ↔ P ⟨cls, text, args⟩ := raisesOnly_error

theorem typed_raise {cls c : ErrorClass} {text : String} {args : List Json}
    (h : c.isa cls = true) : Typed cls (raise c text args : Result α) := raisesOnly_raise.mpr h

theorem typed_raiseIf {cls : ErrorClass} {c : Bool} {e : Err} (h : e.cls.isa cls = true) :
    Typed cls (raiseIf c e) := RaisesOnly.raiseIf h

theorem typed_orRaise {cls : ErrorClass} {x : Option α} {e : Err} (h : e.cls.isa cls = true) :
    Typed cls (orRaise x e) := RaisesOnly.orRaise h

theorem raisesOnly_tryExcept {handled : Err → Bool} {h : Err → Result α} :
    RaisesOnly P (tryExcept x handled h) ↔
      RaisesOnly (fun e => if handled e = true then RaisesOnly P (h e) else P e) x := by
  cases x with
  | ok a => exact iff_of_true raisesOnly_ok raisesOnly_ok
  | error e =>
    rw [raisesOnly_error, tryExcept]
    split
    · exact Iff.rfl
    · exact raisesOnly_error

/-- The class of the exception that a computation raises. -/
def raised : Result α → Option ErrorClass
  | .ok _ => none
  | .error e => some e.cls

theorem not_typed_of_raised {cls c : ErrorClass} (hx : raised x = some c)
    (hc : c.isa cls = false) : ¬ Typed cls x := by
  intro h
  cases x with
  | ok a => cases hx
  | error e =>
    obtain rfl : e.cls = c := Option.some.inj hx
    have hcls : e.cls.isa cls = true := h e rfl
    rw [hc] at hcls
    cases hcls

/-- What a block lets through that turns exceptions into one class. -/
theorem typed_reraise {handled : Err → Bool} {cls c : ErrorClass} {lead : String} {args : List Json}
    (hc : c.isa cls = true) : Typed cls (reraise x handled c lead args) ↔
      RaisesOnly (fun e => handled e = true ∨ e.cls.isa cls = true) x := by
  refine raisesOnly_tryExcept.trans ?_
  constructor
  · intro h
    refine h.mono fun e he => ?_
    split at he
    · rename_i hhandled
      exact .inl hhandled
    · exact .inr he
  · intro h
    refine h.mono fun e he => ?_
    split
    · exact raisesOnly_raise.mpr hc
    · rename_i hnot
      exact he.resolve_left hnot

theorem typed_recast {cls c : ErrorClass} {e : Err} (hc : e.cls.isa cls = true) :
    Typed cls (recast x c e) ↔
      RaisesOnly (fun e' => e'.cls.isa c = true ∨ e'.cls.isa cls = true) x := by
  refine raisesOnly_tryExcept.trans ?_
  constructor
  · intro h
    refine h.mono fun e' he => ?_
    split at he
    · rename_i hhandled
      exact .inl hhandled
    · exact .inr he
  · intro h
    refine h.mono fun e' he => ?_
    split
    · exact raisesOnly_error.mpr hc
    · rename_i hnot
      exact he.resolve_left hnot

end OpenVC
