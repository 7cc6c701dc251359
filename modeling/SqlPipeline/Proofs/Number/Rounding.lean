import Mathlib.Data.Int.Log
import Mathlib.Data.Rat.Floor
import Mathlib.Tactic
import SqlPipeline.Number.Nearest

/-!
# Rounding keeps the order

A ratio is rounded to a double in two steps: the place of its leading bit fixes how many bits come
after the point, and the scaled ratio is rounded to a whole number. **A larger ratio is never rounded
to a smaller double** (`Binary64.magnitude_mono`): within one binary order because the rounding to a
whole number keeps the order, and across orders because the significands of an order are at least
`2 ^ 52` and at most `2 ^ 53`. For whole numbers, signs included, the places of the doubles in their
total order follow (`Binary64.rank_ofInt_mono`).
-/

namespace SqlPipeline.Number

variable {n d n' d' : Nat}

/-! ## Rounding to a whole number -/

theorem roundQuotient_cases (n d : Nat) :
    (roundQuotient n d = n / d ∧ 2 * (n % d) ≤ d) ∨
      (roundQuotient n d = n / d + 1 ∧ d ≤ 2 * (n % d)) := by
  unfold roundQuotient
  dsimp only
  split
  · exact .inl ⟨rfl, by omega⟩
  · split
    · exact .inr ⟨rfl, by omega⟩
    · rcases Nat.mod_two_eq_zero_or_one (n / d) with heven | hodd
      · exact .inl ⟨by omega, by omega⟩
      · exact .inr ⟨by omega, by omega⟩

/-- The rounded quotient is the quotient or the next number. -/
theorem div_le_roundQuotient (n d : Nat) :
    n / d ≤ roundQuotient n d ∧ roundQuotient n d ≤ n / d + 1 := by
  rcases roundQuotient_cases n d with ⟨h, -⟩ | ⟨h, -⟩ <;> omega

/-- A larger ratio is not rounded to a smaller whole number. -/
theorem roundQuotient_mono (hd : 0 < d) (hd' : 0 < d') (h : n * d' ≤ n' * d) :
    roundQuotient n d ≤ roundQuotient n' d' := by
  have hquotient : n / d ≤ n' / d' := by
    rw [Nat.le_div_iff_mul_le hd']
    apply Nat.le_of_mul_le_mul_right _ hd
    calc n / d * d' * d = n / d * d * d' := Nat.mul_right_comm _ _ _
      _ ≤ n * d' := Nat.mul_le_mul_right d' (Nat.div_mul_le_self n d)
      _ ≤ n' * d := h
  rcases Nat.lt_or_eq_of_le hquotient with hless | hsame
  · have := (div_le_roundQuotient n d).2
    have := (div_le_roundQuotient n' d').1
    omega
  · -- with equal quotients, the rests decide
    have hrest : n % d * d' ≤ n' % d' * d := by
      have hn := Nat.div_add_mod n d
      have hn' := Nat.div_add_mod n' d'
      rw [← hsame] at hn'
      rw [← hn, ← hn'] at h
      nlinarith only [h]
    have hbelow : 2 * (n' % d') < d' → 2 * (n % d) < d := by
      intro hlt
      apply Nat.lt_of_mul_lt_mul_right (a := d')
      nlinarith only [hrest, Nat.mul_lt_mul_of_pos_right hlt hd]
    have hnear : 2 * (n' % d') ≤ d' → 2 * (n % d) ≤ d := by
      intro hle
      apply Nat.le_of_mul_le_mul_right _ hd'
      nlinarith only [hrest, Nat.mul_le_mul_right d hle]
    unfold roundQuotient
    dsimp only
    rw [← hsame]
    split_ifs <;> omega

/-! ## The order of a ratio -/

/-- A ratio that is scaled by a power of two. -/
theorem cast_shift_div (n d : Nat) (scale : Int) :
    ((n <<< (-scale).toNat : Nat) : ℚ) / (d <<< scale.toNat : Nat) = n / d / 2 ^ scale := by
  rw [Nat.shiftLeft_eq, Nat.shiftLeft_eq]
  obtain ⟨k, rfl | rfl⟩ := scale.eq_nat_or_neg
  · simp [div_div]
  · simp [mul_div_right_comm]

theorem shift_pos (hd : 0 < d) (k : Nat) : 0 < d <<< k := by
  rw [Nat.shiftLeft_eq]
  positivity

/-- A scaled denominator is at most the scaled numerator if the power of two is at most the ratio. -/
theorem shift_le_shift_iff (hd : 0 < d) (scale : Int) :
    d <<< scale.toNat ≤ n <<< (-scale).toNat ↔ (2 : ℚ) ^ scale ≤ n / d := by
  have hden : (0 : ℚ) < (d <<< scale.toNat : Nat) := by exact_mod_cast shift_pos hd _
  have hpow : (0 : ℚ) < 2 ^ scale := by positivity
  rw [← one_le_div hpow, ← cast_shift_div, one_le_div hden, Nat.cast_le]

/-- The lengths of numerator and denominator tell a ratio up to a factor of two. -/
theorem ratio_between (hn : 0 < n) (hd : 0 < d) :
    (2 : ℚ) ^ ((n.log2 : Int) - d.log2 - 1) < n / d ∧
      (n / d : ℚ) < 2 ^ ((n.log2 : Int) - d.log2 + 1) := by
  have hn₁ : (2 : ℚ) ^ n.log2 ≤ n := by exact_mod_cast Nat.log2_self_le hn.ne'
  have hn₂ : (n : ℚ) < 2 ^ (n.log2 + 1) := by exact_mod_cast Nat.lt_log2_self
  have hd₁ : (2 : ℚ) ^ d.log2 ≤ d := by exact_mod_cast Nat.log2_self_le hd.ne'
  have hd₂ : (d : ℚ) < 2 ^ (d.log2 + 1) := by exact_mod_cast Nat.lt_log2_self
  constructor
  · rw [zpow_sub_one₀ two_ne_zero, zpow_sub₀ two_ne_zero, zpow_natCast, zpow_natCast,
      ← div_eq_mul_inv, div_div, ← pow_succ]
    calc (2 : ℚ) ^ n.log2 / 2 ^ (d.log2 + 1) ≤ n / 2 ^ (d.log2 + 1) := by gcongr
      _ < n / d := by gcongr
  · rw [zpow_add_one₀ two_ne_zero, zpow_sub₀ two_ne_zero, zpow_natCast, zpow_natCast,
      div_mul_eq_mul_div, ← pow_succ]
    calc (n / d : ℚ) ≤ n / 2 ^ d.log2 := by gcongr
      _ < 2 ^ (n.log2 + 1) / 2 ^ d.log2 := by gcongr

/-- The binary order is the logarithm. -/
theorem binaryOrder_eq_log (hn : 0 < n) (hd : 0 < d) :
    binaryOrder n d = Int.log 2 (n / d : ℚ) := by
  have hratio : (0 : ℚ) < n / d := by positivity
  have hle (k : Int) : (2 : ℚ) ^ k ≤ n / d ↔ k ≤ Int.log 2 (n / d : ℚ) := by
    exact_mod_cast Int.zpow_le_iff_le_log one_lt_two hratio
  obtain ⟨hlower, hupper⟩ := ratio_between hn hd
  have hlower := (hle _).mp hlower.le
  have hupper := mt (hle _).mpr (not_le.mpr hupper)
  unfold binaryOrder
  dsimp only
  split
  · next h =>
    have hguess := (hle _).mp ((shift_le_shift_iff hd _).mp h)
    omega
  · next h =>
    have hguess := mt (hle _).mpr (mt (shift_le_shift_iff hd _).mpr h)
    omega

namespace Binary64

/-! ## Rounding to a double -/

/-- The power of two by which a ratio is divided before it is rounded. -/
def scale (n d : Nat) : Int :=
  max (binaryOrder n d - 52) (-1074)

/-- The whole number a scaled ratio is rounded to. -/
def significand (n d : Nat) : Nat :=
  roundQuotient (n <<< (-scale n d).toNat) (d <<< (scale n d).toNat)

/-- The bits of the nearest double without its sign. -/
def magnitude (n d : Nat) : Nat :=
  if n = 0 then 0
  else min ((scale n d + 1074).toNat * leading + significand n d) (2047 * leading)

theorem ofRatio_eq_signed (negative : Bool) (n d : Nat) :
    ofRatio negative n d = signed negative (magnitude n d) := by
  unfold ofRatio magnitude
  split <;> rfl

theorem magnitude_le (n d : Nat) : magnitude n d ≤ 2047 * leading := by
  unfold magnitude
  split
  · exact Nat.zero_le _
  · exact Nat.min_le_right _ _

theorem scale_mono (hn : 0 < n) (hd : 0 < d) (hn' : 0 < n') (hd' : 0 < d')
    (h : (n / d : ℚ) ≤ n' / d') : scale n d ≤ scale n' d' := by
  have hratio : (0 : ℚ) < n / d := by positivity
  unfold scale
  rw [binaryOrder_eq_log hn hd, binaryOrder_eq_log hn' hd']
  have hlog := Int.log_mono_right (b := 2) hratio h
  omega

/-- At the same scale, a larger ratio does not have a smaller significand. -/
theorem significand_mono (hd : 0 < d) (hd' : 0 < d') (h : (n / d : ℚ) ≤ n' / d')
    (hscale : scale n d = scale n' d') : significand n d ≤ significand n' d' := by
  unfold significand
  rw [← hscale]
  have hden := shift_pos hd (scale n d).toNat
  have hden' := shift_pos hd' (scale n d).toNat
  apply roundQuotient_mono hden hden'
  have hratio : (n / d / 2 ^ scale n d : ℚ) ≤ n' / d' / 2 ^ scale n d := by gcongr
  rw [← cast_shift_div, ← cast_shift_div,
    div_le_div_iff₀ (by exact_mod_cast hden) (by exact_mod_cast hden')] at hratio
  exact_mod_cast hratio

/-- A significand has at most 53 bits, or is the least number of 54 bits. -/
theorem significand_le (hn : 0 < n) (hd : 0 < d) : significand n d ≤ 2 * leading := by
  have hratio : (0 : ℚ) < n / d := by positivity
  have hbelow : (n / d : ℚ) < 2 ^ (scale n d + 53) := by
    rw [← Nat.cast_ofNat, Int.lt_zpow_iff_log_lt one_lt_two hratio, ← binaryOrder_eq_log hn hd]
    unfold scale
    omega
  have hden := shift_pos hd (scale n d).toNat
  have hquotient : n <<< (-scale n d).toNat / d <<< (scale n d).toNat < 2 * leading := by
    rw [zpow_add₀ two_ne_zero, ← div_lt_iff₀' (by positivity), ← cast_shift_div,
      div_lt_iff₀ (by exact_mod_cast hden)] at hbelow
    rw [Nat.div_lt_iff_lt_mul hden]
    exact_mod_cast hbelow
  have hrounded := (div_le_roundQuotient (n <<< (-scale n d).toNat) (d <<< (scale n d).toNat)).2
  unfold significand
  omega

/-- Above the least scale, a significand has its leading bit. -/
theorem le_significand (hn : 0 < n) (hd : 0 < d) (hscale : -1074 < scale n d) :
    leading ≤ significand n d := by
  have hratio : (0 : ℚ) < n / d := by positivity
  have habove : (2 : ℚ) ^ (scale n d + 52) ≤ n / d := by
    rw [← Nat.cast_ofNat, Int.zpow_le_iff_le_log one_lt_two hratio, ← binaryOrder_eq_log hn hd]
    unfold scale at hscale ⊢
    omega
  have hden := shift_pos hd (scale n d).toNat
  have hquotient : leading ≤ n <<< (-scale n d).toNat / d <<< (scale n d).toNat := by
    rw [zpow_add₀ two_ne_zero, ← le_div_iff₀' (by positivity), ← cast_shift_div,
      le_div_iff₀ (by exact_mod_cast hden)] at habove
    rw [Nat.le_div_iff_mul_le hden]
    exact_mod_cast habove
  exact hquotient.trans (div_le_roundQuotient _ _).1

/-- **A larger ratio is not rounded to a smaller double.** -/
theorem magnitude_mono (hd : 0 < d) (hd' : 0 < d') (h : (n / d : ℚ) ≤ n' / d') :
    magnitude n d ≤ magnitude n' d' := by
  rcases Nat.eq_zero_or_pos n with rfl | hn
  · exact Nat.zero_le _
  have hn' : 0 < n' := by
    have hratio : (0 : ℚ) < n' / d' := lt_of_lt_of_le (by positivity) h
    exact_mod_cast (div_pos_iff_of_pos_right (by positivity)).mp hratio
  have hscale := scale_mono hn hd hn' hd' h
  have hleast : -1074 ≤ scale n d := le_max_right _ _
  unfold magnitude
  rw [if_neg hn.ne', if_neg hn'.ne']
  apply min_le_min_right
  rcases hscale.lt_or_eq with hless | hsame
  · have hsignificand := significand_le hn hd
    have hsignificand' := le_significand hn' hd' (lt_of_le_of_lt hleast hless)
    have hfield : (scale n d + 1074).toNat + 1 ≤ (scale n' d' + 1074).toNat := by omega
    calc (scale n d + 1074).toNat * leading + significand n d
        ≤ ((scale n d + 1074).toNat + 1) * leading + leading := by linarith
      _ ≤ (scale n' d' + 1074).toNat * leading + significand n' d' := by gcongr
  · have hsignificand := significand_mono hd hd' h hsame
    rw [hsame]
    omega

/-! ## Places in the total order -/

theorem rank_signed (negative : Bool) {m : Nat} (hm : m ≤ 2047 * leading) :
    rank (signed negative m) = if negative then -(m : Int) - 1 else m := by
  unfold leading at hm
  unfold rank isNegative signed signBit
  cases negative with
  | false => simp; omega
  | true => simp; omega

theorem rank_ofRatio (negative : Bool) (n d : Nat) :
    rank (ofRatio negative n d) =
      if negative then -(magnitude n d : Int) - 1 else magnitude n d := by
  rw [ofRatio_eq_signed, rank_signed negative (magnitude_le n d)]

/-- **A larger whole number is not rounded to a smaller double.** -/
theorem rank_ofInt_mono {n n' : Int} (h : n ≤ n') : rank (ofInt n) ≤ rank (ofInt n') := by
  have hmono (a b : Nat) (hab : a ≤ b) : magnitude a 1 ≤ magnitude b 1 := by
    apply magnitude_mono one_pos one_pos
    gcongr
  unfold ofInt
  rw [rank_ofRatio, rank_ofRatio]
  by_cases hneg : n < 0
  · by_cases hneg' : n' < 0
    · have := hmono n'.natAbs n.natAbs (by omega)
      simp only [hneg, hneg', decide_true, if_true]
      omega
    · simp only [hneg, hneg', decide_true, decide_false, if_true]
      simp
      omega
  · have hneg' : ¬ n' < 0 := by omega
    have := hmono n.natAbs n'.natAbs (by omega)
    simpa [hneg, hneg'] using this

end Binary64
end SqlPipeline.Number
