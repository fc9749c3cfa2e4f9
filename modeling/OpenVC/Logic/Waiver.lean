import OpenVC.Python.Except

/-!
# Checks that a flag waives

A check takes a flag: enforced (`true`) it refuses what its verdict condemns, waived (`false`) it
reports the verdict in its result instead. `Waivable` says that the flag does nothing else.
-/

namespace Python

universe u v

variable {ε : Type u} {α β : Type v}

/-- The enforced run returns exactly the results of the waived run that the verdict clears. -/
def Waivable (check : Bool → Except ε α) (verdict : α → Bool) : Prop :=
  ∀ a, check true = .ok a ↔ check false = .ok a ∧ verdict a = false

namespace Waivable

variable {check : Bool → Except ε α} {verdict : α → Bool}

/-- The rule to establish it: what a run returns is specified without the flag, but for the verdict
of an enforced run. -/
theorem of_spec {Spec : α → Prop}
    (h : ∀ flag a, check flag = .ok a ↔ Spec a ∧ (flag = true → verdict a = false)) :
    Waivable check verdict := by
  intro a
  rw [h true a, h false a]
  constructor
  · rintro ⟨hs, hv⟩
    exact ⟨⟨hs, fun hf => absurd hf Bool.false_ne_true⟩, hv rfl⟩
  · rintro ⟨⟨hs, -⟩, hv⟩
    exact ⟨hs, fun _ => hv⟩

/-- What the verdict condemns, the enforced run refuses. -/
theorem refuses (h : Waivable check verdict) {a : α} (ha : check false = .ok a)
    (hv : verdict a = true) : ∃ e, check true = .error e := by
  cases ht : check true with
  | error e => exact ⟨e, rfl⟩
  | ok b =>
    obtain ⟨hb, hvb⟩ := (h b).mp ht
    have : b = a := by rw [ha] at hb; exact (Except.ok.inj hb).symm
    rw [this, hv] at hvb
    cases hvb

/-- What the waived run refuses, the enforced run refuses. -/
theorem error_of_error (h : Waivable check verdict) {e : ε} (he : check false = .error e) :
    ∃ e', check true = .error e' := by
  cases ht : check true with
  | error e' => exact ⟨e', rfl⟩
  | ok b =>
    have := ((h b).mp ht).1
    rw [he] at this
    cases this

end Waivable

end Python
