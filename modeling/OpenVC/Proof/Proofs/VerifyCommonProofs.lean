import OpenVC.Proof.VerifyCommon
import OpenVC.Proofs.ErrorsProofs

/-!
# What the policy checks establish

One specification per check: when it returns, and what its result says.
-/

namespace OpenVC

open Python

variable {I : Interpreter} {claims document : Dict} {leeway : Int} {subject : Str}
  {now : Option Json} {checkTemporal : Bool}

theorem leewaySeconds_eq_ok {value n : Int} {name : Str} {error : ErrorClass} :
    leewaySeconds value name error = .ok n ↔ (0 ≤ value ∧ value ≤ maxLeewayS) ∧ n = value := by
  simp only [leewaySeconds, bind_eq_ok, raiseIf_eq_ok, pure_eq_ok]
  constructor
  · rintro ⟨_, h, rfl⟩
    exact ⟨by simpa using h, rfl⟩
  · rintro ⟨h, rfl⟩
    exact ⟨(), by simpa using h, rfl⟩

/-- The NumericDate claims of a token but for the expiry: their shape, and that neither `nbf` nor
`iat` lies in the future. -/
structure JwtDates (claims : Dict) (leeway : Int) (subject : Str) (current : Json) : Prop where
  shape : checkNumericDates claims ["exp", "nbf", "iat"] subject = .ok ()
  nbf : isFuture claims "nbf" leeway current = false
  iat : isFuture claims "iat" leeway current = false

/-- The temporal check returns iff the dates are right and an enforced expiry has not passed; the
result says whether the expiry has. -/
theorem checkJwtTemporal_eq_ok {b : Bool} :
    checkJwtTemporal I claims leeway subject now checkTemporal = .ok b ↔
      (0 ≤ leeway ∧ leeway ≤ maxLeewayS) ∧
      JwtDates claims leeway subject (now.getD (.float I.time)) ∧
      (checkTemporal = true → b = false) ∧
      b = expPassed claims leeway (now.getD (.float I.time)) := by
  simp only [checkJwtTemporal, bind_eq_ok, raiseIf_eq_ok, pure_eq_ok, leewaySeconds_eq_ok]
  constructor
  · rintro ⟨_, ⟨hl, rfl⟩, ⟨⟩, hshape, ⟨⟩, hexp, ⟨⟩, hnbf, ⟨⟩, hiat, rfl⟩
    refine ⟨hl, ⟨hshape, hnbf, hiat⟩, fun ht => ?_, rfl⟩
    simpa [ht] using hexp
  · rintro ⟨hl, hd, ht, rfl⟩
    refine ⟨leeway, ⟨hl, rfl⟩, (), hd.shape, (), ?_, (), hd.nbf, (), hd.iat, rfl⟩
    cases checkTemporal with
    | true => simpa using ht rfl
    | false => simp

@[simp] theorem bound_nil (keys : List Str) : bound I [] keys = .ok none := by
  induction keys with
  | nil => rfl
  | cons key keys ih =>
    have : isBlank (Dict.get [] key) = true := rfl
    rw [bound, if_pos this, ih]

/-- The start of the validity window is readable when present and not in the future. -/
def NotBefore (I : Interpreter) (document : Dict) (leeway : Int) : Prop :=
  ∃ ts, bound I document ["validFrom", "issuanceDate"] = .ok ts ∧
    (ts.any fun d => after leeway d.instant I.utcNow) = false

/-- Whether the end of the validity window, as read, has passed. -/
def windowPassed (I : Interpreter) (leeway : Int) (notAfter : Option DateTime) : Bool :=
  notAfter.any fun d => after leeway I.utcNow d.instant

/-- The window of a credential with no Data Integrity proof. -/
theorem checkValidityWindow_eq_ok {b : Bool} :
    checkValidityWindow I document [] leeway checkTemporal = .ok b ↔
      (0 ≤ leeway ∧ leeway ≤ maxLeewayS) ∧ NotBefore I document leeway ∧
      (checkTemporal = true → b = false) ∧
      ∃ ts, bound I document ["validUntil", "expirationDate"] = .ok ts ∧
        b = windowPassed I leeway ts := by
  simp only [checkValidityWindow, bind_eq_ok, raiseIf_eq_ok, pure_eq_ok, leewaySeconds_eq_ok,
    bound_nil, windowPassed, NotBefore]
  constructor
  · rintro ⟨_, ⟨hl, rfl⟩, nb, hnb, ⟨⟩, hb, na, hna, ⟨⟩, he, pe, hpe, ⟨⟩, -, rfl⟩
    cases hpe
    simp only [Option.any_none, Bool.or_false]
    refine ⟨hl, ⟨nb, hnb, hb⟩, fun ht => ?_, na, hna, rfl⟩
    simpa [ht] using he
  · rintro ⟨hl, ⟨nb, hnb, hb⟩, ht, na, hna, rfl⟩
    refine ⟨leeway, ⟨hl, rfl⟩, nb, hnb, (), hb, na, hna, (), ?_, none, rfl, (), by simp, by simp⟩
    cases checkTemporal with
    | true => simpa using ht rfl
    | false => simp

theorem bound_congr {document' : Dict} {keys : List Str}
    (h : ∀ k ∈ keys, document.get? k = document'.get? k) :
    bound I document keys = bound I document' keys := by
  induction keys with
  | nil => rfl
  | cons key keys ih =>
    have hk : document.get key = document'.get key := by
      simp only [Dict.get, h key List.mem_cons_self]
    rw [bound, bound, hk, ih fun k hk => h k (List.mem_cons_of_mem _ hk)]

/-! ## Typed failure -/

section Typed

variable {cls error : ErrorClass}

theorem typed_leewaySeconds (h : error.isa cls = true) (value : Int) (name : Str) :
    Typed cls (leewaySeconds value name error) :=
  (typed_raiseIf h).bind fun _ _ => raisesOnly_ok

theorem typed_utcInstant (h : error.isa cls = true) (now : Option DateTime) :
    Typed cls (utcInstant I now error) := by
  unfold utcInstant
  split
  · exact raisesOnly_ok
  · exact (typed_raiseIf h).bind fun _ _ => raisesOnly_ok

theorem typed_bound (keys : List Str) : Typed .openvcError (bound I document keys) := by
  induction keys with
  | nil => exact raisesOnly_ok
  | cons key keys ih =>
    unfold bound
    split
    · exact ih
    · split
      · exact raisesOnly_ok
      · exact typed_raise rfl

theorem typed_checkValidityWindow (proof : Dict) :
    Typed .openvcError (checkValidityWindow I document proof leeway checkTemporal) := by
  refine (typed_leewaySeconds rfl _ _).bind fun leeway _ => ?_
  refine (typed_bound _).bind fun notBefore _ => ?_
  refine (typed_raiseIf rfl).bind fun _ _ => ?_
  refine (typed_bound _).bind fun notAfter _ => ?_
  refine (typed_raiseIf rfl).bind fun _ _ => ?_
  refine (typed_bound _).bind fun proofExpires _ => ?_
  exact (typed_raiseIf rfl).bind fun _ _ => raisesOnly_ok

end Typed

end OpenVC
