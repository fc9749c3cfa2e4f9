import OpenVC.Did.Base
import OpenVC.Proofs.ErrorsProofs

/-!
# The `did:key` resolver
-/

namespace OpenVC.Did.DidKey

open Python

variable {C : Crypto}

/-! ## What it raises -/

theorem typed_b58Value (num : Nat) (s : Str) : Typed .didResolutionError (b58Value num s) := by
  induction s generalizing num with
  | nil => exact raisesOnly_ok
  | cons ch t ih =>
    unfold b58Value
    split
    · exact ih _
    · exact typed_raise rfl

theorem typed_b58decode (s : Str) : Typed .didResolutionError (b58decode s) :=
  (typed_b58Value _ _).bind fun _ _ => raisesOnly_ok

theorem typed_readVarintLoop (data : Bytes) (result shift i : Nat) :
    Typed .didResolutionError (readVarintLoop result shift i data) := by
  induction data generalizing result shift i with
  | nil => exact typed_raise rfl
  | cons byte t ih =>
    simp only [readVarintLoop]
    split
    · exact raisesOnly_ok
    · exact ih _ _ _

theorem typed_pointJwk (curve : Curve) (crv : Str) (invalid : String) (keyBytes : Bytes) :
    Typed .didResolutionError (pointJwk C curve crv invalid keyBytes) :=
  (typed_orRaise rfl).bind fun _ _ => raisesOnly_ok

theorem typed_keyJwk (code : Nat) (keyBytes : Bytes) :
    Typed .didResolutionError (keyJwk C code keyBytes) := by
  unfold keyJwk
  split
  · exact raisesOnly_ok
  · split
    · exact typed_pointJwk _ _ _ _
    · split
      · exact typed_pointJwk _ _ _ _
      · exact typed_raise rfl

/-- The offline resolver of `did:key` types a point that is not on its curve. -/
theorem typed_resolve (did : Str) : Typed .didResolutionError (resolve C did) := by
  refine (typed_raiseIf rfl).bind fun _ _ => ?_
  refine (typed_b58decode _).bind fun raw _ => ?_
  refine (typed_readVarintLoop raw 0 0 0).bind fun (code, offset) _ => ?_
  exact (typed_keyJwk _ _).bind fun _ _ => raisesOnly_ok

end OpenVC.Did.DidKey
