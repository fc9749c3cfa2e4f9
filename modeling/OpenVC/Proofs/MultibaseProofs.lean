import Mathlib.Data.List.GetD
import Mathlib.Data.Nat.Digits.Lemmas
import OpenVC.Multibase
import OpenVC.Python.Proofs.CodecProofs

/-!
# Base58btc is injective

`b58btc_encode` keeps the leading NUL bytes and the value of the rest, and both can be read back
from the text: a most significant digit is never the character `1`.
-/

namespace OpenVC.Multibase

open Python

theorem b58_length : b58.length = 58 := rfl

theorem b58_nodup : b58.Nodup := by decide

theorem b58_getD_inj {d e : Nat} (hd : d < 58) (he : e < 58) (h : b58.getD d 0 = b58.getD e 0) :
    d = e := by
  have hd' : d < b58.length := by rw [b58_length]; exact hd
  have he' : e < b58.length := by rw [b58_length]; exact he
  rw [List.getD_eq_getElem _ _ hd', List.getD_eq_getElem _ _ he'] at h
  exact (List.Nodup.getElem_inj_iff b58_nodup).mp h

/-- A non-zero digit is not written `1`. -/
theorem b58_getD_ne_one {d : Nat} (hd : d < 58) (h0 : d ≠ 0) : b58.getD d 0 ≠ 49 := by
  intro h
  exact h0 (b58_getD_inj hd (by omega) (h.trans rfl))

/-- The digits of a number, most significant first, as base58 characters. -/
def b58Digits (n : Nat) : Str := ((Nat.digits 58 n).map fun d => b58.getD d 0).reverse

theorem b58Digits_injective : Function.Injective b58Digits := by
  intro m n h
  have hm : (Nat.digits 58 m).map (fun d => b58.getD d 0) =
      (Nat.digits 58 n).map fun d => b58.getD d 0 := List.reverse_injective h
  have key : ∀ {l k : List Nat}, (∀ d ∈ l, d < 58) → (∀ d ∈ k, d < 58) →
      l.map (fun d => b58.getD d 0) = k.map (fun d => b58.getD d 0) → l = k := by
    intro l
    induction l with
    | nil => intro k _ _ h; cases k with
      | nil => rfl
      | cons _ _ => cases h
    | cons d l ih =>
      intro k hl hk h
      cases k with
      | nil => cases h
      | cons e k =>
        simp only [List.map_cons, List.cons.injEq] at h
        rw [b58_getD_inj (hl d (by simp)) (hk e (by simp)) h.1,
          ih (fun x hx => hl x (by simp [hx])) (fun x hx => hk x (by simp [hx])) h.2]
  exact Nat.digits_inj_iff.mp (key (fun d hd => Nat.digits_lt_base (by omega) hd)
    (fun d hd => Nat.digits_lt_base (by omega) hd) hm)

/-- The first character of a base58 numeral is not `1`. -/
theorem b58Digits_head {n c : Nat} {t : Str} (h : b58Digits n = c :: t) : c ≠ 49 := by
  unfold b58Digits at h
  rw [← List.map_reverse] at h
  cases hr : (Nat.digits 58 n).reverse with
  | nil => rw [hr] at h; cases h
  | cons d r =>
    rw [hr, List.map_cons, List.cons.injEq] at h
    have hmem : d ∈ Nat.digits 58 n := by
      rw [← List.mem_reverse, hr]; exact List.mem_cons_self
    have hne : Nat.digits 58 n ≠ [] := List.ne_nil_of_mem hmem
    have hn : n ≠ 0 := fun e => hne (by rw [e, Nat.digits_zero])
    have hlast : (Nat.digits 58 n).getLast hne = d := by
      rw [← List.head_reverse (by simpa using hne)]
      simp [hr]
    rw [← h.1]
    exact b58_getD_ne_one (Nat.digits_lt_base (by omega) hmem)
      (hlast ▸ Nat.getLast_digit_ne_zero 58 hn)

/-- Two runs of one element in front of texts that do not start with it split the same way. -/
theorem replicate_append_inj {α : Type} {a : α} {m n : Nat} {s t : List α}
    (hs : ∀ x r, s = x :: r → x ≠ a) (ht : ∀ x r, t = x :: r → x ≠ a)
    (h : List.replicate m a ++ s = List.replicate n a ++ t) : m = n ∧ s = t := by
  induction m generalizing n with
  | zero =>
    cases n with
    | zero => exact ⟨rfl, by simpa using h⟩
    | succ n => exact absurd rfl (hs a (List.replicate n a ++ t) (by simpa [List.replicate_succ] using h))
  | succ m ih =>
    cases n with
    | zero =>
      exact absurd rfl (ht a (List.replicate m a ++ s) (by simpa [List.replicate_succ] using h.symm))
    | succ n =>
      simp only [List.replicate_succ, List.cons_append, List.cons.injEq, true_and] at h
      obtain ⟨rfl, e⟩ := ih h
      exact ⟨rfl, e⟩

theorem b58btcEncode_injective : Function.Injective b58btcEncode := by
  intro a b h
  unfold b58btcEncode at h
  obtain ⟨hz, hd⟩ := replicate_append_inj (fun _ _ e => b58Digits_head e)
    (fun _ _ e => b58Digits_head e) h
  have hv := b58Digits_injective hd
  rw [Codec.bytes_eq a, Codec.bytes_eq b, hz, hv]

end OpenVC.Multibase
