import Mathlib.Tactic
import SqlPipeline.Number.Binary64

/-!
# The number a double is

A finite double is a rational number, its significand times a power of two. **A double is read as a
whole number exactly if it is that number** (`Binary64.toInt?_eq_some_iff`): shifting the significand
to the left or, if nothing is lost, to the right is multiplying by the power of two.
-/

namespace SqlPipeline.Number.Binary64

/-- The number a double is; infinities and NaN are none. -/
def value? (x : Binary64) : Option ℚ :=
  match x.decode with
  | .finite negative significand exponent =>
    some ((if negative then -1 else 1) * (significand * 2 ^ exponent))
  | _ => none

def whole? (m : Nat) (e : Int) : Option Nat :=
  if 0 ≤ e then some (m <<< e.toNat)
  else if m % (1 <<< (-e).toNat) = 0 then some (m >>> (-e).toNat)
  else none

theorem whole?_eq_some_iff {m n : Nat} {e : Int} : whole? m e = some n ↔ (m * 2 ^ e : ℚ) = n := by
  unfold whole?
  split
  · next he =>
    obtain ⟨k, rfl⟩ := Int.eq_ofNat_of_zero_le he
    rw [Option.some_inj, Int.toNat_natCast, Nat.shiftLeft_eq, zpow_natCast]
    norm_cast
  · next he =>
    obtain ⟨k, hk⟩ := Int.eq_ofNat_of_zero_le (by omega : 0 ≤ -e)
    obtain rfl : e = -(k : Int) := by omega
    have hpow : (0 : ℚ) < 2 ^ k := by positivity
    rw [Int.neg_neg, Int.toNat_natCast, Nat.one_shiftLeft, Nat.shiftRight_eq_div_pow, zpow_neg,
      zpow_natCast, ← div_eq_mul_inv, div_eq_iff hpow.ne']
    have hcast : (m : ℚ) = n * 2 ^ k ↔ m = n * 2 ^ k := by norm_cast
    rw [hcast]
    split
    · next hdvd =>
      rw [Option.some_inj]
      exact Nat.div_eq_iff_eq_mul_left (by positivity) (Nat.dvd_of_mod_eq_zero hdvd)
    · next hdvd =>
      refine ⟨nofun, fun h => absurd ?_ hdvd⟩
      rw [h, Nat.mul_mod_left]

/-- **A double is read as a whole number exactly if it is that number.** -/
theorem toInt?_eq_some_iff {x : Binary64} {n : Int} : x.toInt? = some n ↔ x.value? = some (n : ℚ) := by
  unfold toInt? value?
  cases x.decode with
  | infinite negative => simp
  | nan => simp
  | finite negative m e =>
    have hread : ((whole? m e >>= fun k => pure (k : Int)).map fun k => if negative then -k else k) =
        (whole? m e).map fun k : Nat => if negative then -(k : Int) else k := by
      cases whole? m e <;> rfl
    have hnonneg : (0 : ℚ) ≤ m * 2 ^ e := by positivity
    refine (Eq.congr_left hread).trans ?_
    rw [Option.map_eq_some_iff, Option.some_inj]
    simp only [whole?_eq_some_iff]
    cases negative with
    | false =>
      constructor
      · rintro ⟨k, hk, rfl⟩
        simp [hk]
      · intro h
        rw [if_neg (by simp), one_mul] at h
        have hn : 0 ≤ n := by exact_mod_cast h ▸ hnonneg
        obtain ⟨k, rfl⟩ := Int.eq_ofNat_of_zero_le hn
        exact ⟨k, by simpa using h, by simp⟩
    | true =>
      constructor
      · rintro ⟨k, hk, rfl⟩
        simp [hk]
      · intro h
        rw [if_pos rfl, neg_one_mul, neg_eq_iff_eq_neg] at h
        have hn : 0 ≤ -n := by exact_mod_cast h ▸ hnonneg
        obtain ⟨k, hk⟩ := Int.eq_ofNat_of_zero_le hn
        obtain rfl : n = -(k : Int) := by omega
        exact ⟨k, by simpa using h, by simp⟩

end SqlPipeline.Number.Binary64
