import Mathlib.Tactic.Ring
import ScriptFrontend.Token.Numeral

/-! Where rounding to a 53-bit mantissa leaves the finite numbers.

A quotient is rounded in two shifts: the first leaves 53 bits and two more that say how to round,
the second is needed only where rounding up has made a bit too many. The result is too large for its
exponent exactly if the quotient is at least halfway between the largest finite number and the next
power of two.
-/

set_option autoImplicit false

namespace ScriptFrontend.Binary64

open Float.Model Float.Model.UnpackedFloat

/-- The mantissa is the quotient rounded down, and the round bit is the next bit of it. -/
structure Holds (em : ExtendedMantissa) (num den : Nat) : Prop where
  mantissa : em.mantissa = num / den
  roundBit : em.roundBit = decide (2 * num / den % 2 = 1)

section Mantissa

variable {num den : Nat} {em : ExtendedMantissa}

theorem half_twice (num den : Nat) : 2 * num / den / 2 = num / den := by
  rw [Nat.div_div_eq_div_mul, Nat.mul_comm den 2, Nat.mul_div_mul_left _ _ (by decide)]

theorem holds_exact (hd : 0 < den) (h : num % den = 0) :
    Holds (.ofMantissaAndAccuracy (num / den) .exact) num den := by
  obtain ⟨k, rfl⟩ := Nat.dvd_of_mod_eq_zero h
  refine ⟨rfl, ?_⟩
  have hk : 2 * (den * k) / den = 2 * k := by
    rw [Nat.mul_left_comm, Nat.mul_div_cancel_left _ hd]
  simp [ExtendedMantissa.ofMantissaAndAccuracy, hk]

theorem roundBit_iff (hd : 0 < den) : 2 * num / den % 2 = 1 ↔ den ≤ 2 * (num % den) := by
  have hq : 2 * num / den = 2 * (num / den) + 2 * (num % den) / den := by
    have hn : 2 * num = 2 * (num % den) + den * (2 * (num / den)) := by
      have := Nat.div_add_mod num den
      have hc : den * (2 * (num / den)) = 2 * (den * (num / den)) := Nat.mul_left_comm ..
      omega
    rw [hn, Nat.add_mul_div_left _ _ hd]
    omega
  have hr : 2 * (num % den) < 2 * den := by
    have := Nat.mod_lt num hd
    omega
  by_cases h : den ≤ 2 * (num % den)
  · have h1 : 2 * (num % den) / den = 1 := by
      rw [Nat.div_eq_of_lt_le] <;> omega
    omega
  · have h0 : 2 * (num % den) / den = 0 := Nat.div_eq_of_lt (by omega)
    omega

theorem holds_fraction (num : Nat) (hd : 0 < den) :
    Holds (.ofMantissaAndAccuracy (num / den) (accuracyOfFraction (num % den) den)) num den := by
  by_cases h : num % den = 0
  · rw [accuracyOfFraction, if_pos h]
    exact holds_exact hd h
  rw [accuracyOfFraction, if_neg h]
  have hb : 2 * num / den % 2 = 1 ↔ den ≤ 2 * (num % den) := roundBit_iff hd
  cases hc : compare (2 * (num % den)) den with
  | lt =>
    have hlt := Nat.compare_eq_lt.1 hc
    refine ⟨rfl, ?_⟩
    simp [ExtendedMantissa.ofMantissaAndAccuracy]
    omega
  | eq =>
    have heq := Nat.compare_eq_eq.1 hc
    refine ⟨rfl, ?_⟩
    simp [ExtendedMantissa.ofMantissaAndAccuracy]
    omega
  | gt =>
    have hgt := Nat.compare_eq_gt.1 hc
    refine ⟨rfl, ?_⟩
    simp [ExtendedMantissa.ofMantissaAndAccuracy]
    omega

theorem Holds.shift (h : Holds em num den) (k : Nat) : Holds (em >>> k) num (2 ^ k * den) := by
  induction k with
  | zero =>
    show Holds em num (2 ^ 0 * den)
    rwa [Nat.pow_zero, Nat.one_mul]
  | succ k ih =>
    show Holds (em >>> k).shiftRightOne num _
    have hd : 2 ^ (k + 1) * den = 2 ^ k * den * 2 := by ring
    refine ⟨?_, ?_⟩
    · rw [ExtendedMantissa.shiftRightOne, ih.mantissa, hd, Nat.div_div_eq_div_mul]
    · have hq : 2 * num / (2 ^ (k + 1) * den) = num / (2 ^ k * den) := by
        rw [hd, Nat.mul_comm _ 2, Nat.mul_div_mul_left _ _ (by decide)]
      rw [ExtendedMantissa.shiftRightOne, ih.mantissa, hq]
      by_cases hp : num / (2 ^ k * den) % 2 = 1 <;> simp [hp]

theorem le_rounded (em : ExtendedMantissa) : em.mantissa ≤ em.roundedMantissa := by
  obtain ⟨m, _ | _, _ | _⟩ := em
  all_goals simp [ExtendedMantissa.roundedMantissa, ExtendedMantissa.accuracy,
    Accuracy.roundToNearestEven]

theorem rounded_le (em : ExtendedMantissa) : em.roundedMantissa ≤ em.mantissa + 1 := by
  obtain ⟨m, _ | _, _ | _⟩ := em
  all_goals simp [ExtendedMantissa.roundedMantissa, ExtendedMantissa.accuracy,
    Accuracy.roundToNearestEven]
  omega

theorem Holds.le_rounded_iff (h : Holds em num den) (hd : 0 < den) (k : Nat) :
    2 * k ≤ em.roundedMantissa ↔ (4 * k - 1) * den ≤ 2 * num := by
  rw [← Nat.le_div_iff_mul_le hd]
  have hm := h.mantissa
  have hb := h.roundBit
  have hhalf := half_twice num den
  obtain ⟨m, round, sticky⟩ := em
  cases round <;> cases sticky <;>
    simp [ExtendedMantissa.roundedMantissa, ExtendedMantissa.accuracy,
      Accuracy.roundToNearestEven] at hm hb ⊢ <;> omega

end Mantissa

section Shifts

theorem targetExponent_eq (e : Int) :
    Format.binary64.targetExponent e = max (e - 53) (-1074) := by
  have hm : Format.binary64.minExponent = -1074 := by decide
  rw [Format.targetExponent, hm]
  rfl

def drop (m : Nat) (e : Int) : Nat :=
  (max (m.log2 + 1 + e - 53) (-1074) - e).toNat

theorem shift_eq (m : Nat) (e : Int) (acc : Accuracy) :
    shiftToTargetExponent .binary64 m e acc =
      (ExtendedMantissa.ofMantissaAndAccuracy m acc >>> drop m e, e + drop m e) := by
  rw [shiftToTargetExponent, targetExponent_eq]
  rfl

theorem shift_small {m : Nat} {e : Int} (hm : m < 2 ^ 53) (he : -1074 ≤ e) :
    shiftToTargetExponent .binary64 m e .exact = (⟨m, false, false⟩, e) := by
  have hl : m.log2 ≤ 52 := by
    by_cases h : m = 0
    · simp [h]
    · have := (Nat.log2_lt h).2 hm
      omega
  have hk : drop m e = 0 := by
    unfold drop
    omega
  rw [shift_eq, hk, Int.natCast_zero, Int.add_zero]
  rfl

theorem shift_carry {e : Int} (he : -1074 ≤ e) :
    shiftToTargetExponent .binary64 (2 ^ 53) e .exact = (⟨2 ^ 52, false, false⟩, e + 1) := by
  have hk : drop (2 ^ 53) e = 1 := by
    rw [drop, Nat.log2_two_pow]
    omega
  rw [shift_eq, hk]
  rfl

end Shifts

def Within (bound : Int) : UnpackedFloat → Prop
  | .zero _ => True
  | .finite _ _ e _ => e ≤ bound
  | _ => False

def Beyond (bound : Int) : UnpackedFloat → Prop
  | .finite _ _ e _ => bound < e
  | _ => False

section Round

variable {m num den : Nat} {e : Int} {acc : Accuracy} (sign : Sign)

def rounded (m : Nat) (e : Int) (acc : Accuracy) : Nat :=
  (ExtendedMantissa.ofMantissaAndAccuracy m acc >>> drop m e).roundedMantissa

theorem drop_ge (m : Nat) (e : Int) : m.log2 ≤ 52 + drop m e ∧ -1074 ≤ e + drop m e := by
  unfold drop
  omega

theorem mantissa_of (m : Nat) (acc : Accuracy) :
    (ExtendedMantissa.ofMantissaAndAccuracy m acc).mantissa = m := by
  obtain _ | o := acc
  · rfl
  · cases o <;> rfl

theorem Holds.rounded_le (h : Holds (.ofMantissaAndAccuracy m acc) num den) (e : Int) :
    rounded m e acc ≤ 2 ^ 53 := by
  have hm := (h.shift (drop m e)).mantissa
  have hlt : num / (2 ^ drop m e * den) < 2 ^ 53 := by
    rw [Nat.mul_comm, ← Nat.div_div_eq_div_mul, ← h.mantissa, mantissa_of,
      Nat.div_lt_iff_lt_mul (Nat.two_pow_pos _), ← Nat.pow_add]
    have hlog := (drop_ge m e).1
    exact Nat.lt_of_lt_of_le Nat.lt_log2_self (Nat.pow_le_pow_right (by decide) (by omega))
  have hle := Binary64.rounded_le (ExtendedMantissa.ofMantissaAndAccuracy m acc >>> drop m e)
  rw [hm] at hle
  exact Nat.le_trans hle hlt

/-- The second shift has to carry just where rounding has reached a bit too many. -/
theorem round_eq (hr : rounded m e acc ≤ 2 ^ 53) :
    roundWithAccuracy .binary64 sign m e acc =
      if h : rounded m e acc = 0 then .zero sign
      else if rounded m e acc = 2 ^ 53 then
        .finite sign (2 ^ 52) (e + drop m e + 1) (Nat.two_pow_pos 52)
      else .finite sign (rounded m e acc) (e + drop m e) (Nat.pos_of_ne_zero h) := by
  have hmin := (drop_ge m e).2
  unfold roundWithAccuracy
  rw [shift_eq]
  dsimp only
  rw [← rounded]
  by_cases hc : rounded m e acc = 2 ^ 53
  · rw [hc, shift_carry hmin]
    rfl
  · rw [shift_small (Nat.lt_of_le_of_ne hr hc) hmin]
    by_cases hz : rounded m e acc = 0
    · rw [dif_pos hz, dif_pos hz]
    · rw [dif_neg hz, dif_neg hz, if_neg hc]

theorem within_round {bound : Int} (hr : rounded m e acc ≤ 2 ^ 53)
    (hb : e + drop m e < bound ∨ e + drop m e ≤ bound ∧ rounded m e acc ≠ 2 ^ 53) :
    Within bound (roundWithAccuracy .binary64 sign m e acc) := by
  rw [round_eq sign hr]
  by_cases hz : rounded m e acc = 0
  · rw [dif_pos hz]
    trivial
  rw [dif_neg hz]
  by_cases hc : rounded m e acc = 2 ^ 53
  · rw [if_pos hc]
    show e + drop m e + 1 ≤ bound
    omega
  · rw [if_neg hc]
    show e + drop m e ≤ bound
    omega

theorem beyond_round {bound : Int} (hr : rounded m e acc ≤ 2 ^ 53) (hz : rounded m e acc ≠ 0)
    (hb : bound < e + drop m e ∨ bound ≤ e + drop m e ∧ rounded m e acc = 2 ^ 53) :
    Beyond bound (roundWithAccuracy .binary64 sign m e acc) := by
  rw [round_eq sign hr, dif_neg hz]
  by_cases hc : rounded m e acc = 2 ^ 53
  · rw [if_pos hc]
    show bound < e + drop m e + 1
    omega
  · rw [if_neg hc]
    show bound < e + drop m e
    omega

section Halfway

variable {d : Nat} (h : Holds (.ofMantissaAndAccuracy m acc) num den)

include h

theorem lt_of_drop_lt (hd : 0 < den) (hk : drop m e < d) :
    2 * num < (2 ^ 54 - 1) * (2 ^ d * den) := by
  have hm : m = num / den := by rw [← h.mantissa, mantissa_of]
  have hlog := (drop_ge m e).1
  have hlt : m + 1 ≤ 2 ^ (52 + d) :=
    Nat.le_trans Nat.lt_log2_self (Nat.pow_le_pow_right (by decide) (by omega))
  have hnum : num < den * (m + 1) := hm ▸ Nat.lt_mul_div_succ num hd
  have hle : den * (m + 1) ≤ 2 ^ 52 * (2 ^ d * den) := by
    calc den * (m + 1) ≤ den * 2 ^ (52 + d) := Nat.mul_le_mul_left den hlt
      _ = 2 ^ 52 * (2 ^ d * den) := by rw [Nat.pow_add]; ring
  omega

theorem le_of_lt_drop (hk : d < drop m e) (he : e + d = 971) :
    (2 ^ 54 - 1) * (2 ^ d * den) ≤ 2 * num ∧ rounded m e acc ≠ 0 := by
  have hm : m = num / den := by rw [← h.mantissa, mantissa_of]
  have hlog : m.log2 = 52 + drop m e := by
    unfold drop at hk ⊢
    omega
  have hz : m ≠ 0 := by
    intro hz
    rw [hz, Nat.log2_zero] at hlog
    omega
  have hpow : 2 ^ (52 + drop m e) ≤ m := hlog ▸ Nat.log2_self_le hz
  have hnum : m * den ≤ num := hm ▸ Nat.div_mul_le_self num den
  constructor
  · have hle : 2 ^ 53 * (2 ^ d * den) ≤ m * den := by
      calc 2 ^ 53 * (2 ^ d * den) = 2 ^ (53 + d) * den := by rw [Nat.pow_add]; ring
        _ ≤ 2 ^ (52 + drop m e) * den :=
          Nat.mul_le_mul_right den (Nat.pow_le_pow_right (by decide) (by omega))
        _ ≤ m * den := Nat.mul_le_mul_right den hpow
    omega
  · have hshift := (h.shift (drop m e)).mantissa
    have hle := le_rounded (ExtendedMantissa.ofMantissaAndAccuracy m acc >>> drop m e)
    have hq : 2 ^ 52 ≤ num / (2 ^ drop m e * den) := by
      rw [Nat.mul_comm, ← Nat.div_div_eq_div_mul, ← hm,
        Nat.le_div_iff_mul_le (Nat.two_pow_pos _), ← Nat.pow_add]
      exact hpow
    rw [hshift, ← rounded] at hle
    omega

/-- What is halfway between the largest number with the exponent 971 and the next power of two, or
more, is rounded to a greater exponent, and nothing else is. -/
theorem round_within_or_beyond (hd : 0 < den) (he : e + d = 971) :
    if 2 * num < (2 ^ 54 - 1) * (2 ^ d * den) then
      Within 971 (roundWithAccuracy .binary64 sign m e acc)
    else Beyond 971 (roundWithAccuracy .binary64 sign m e acc) := by
  have hr := h.rounded_le e
  obtain hlt | rfl | hgt := Nat.lt_trichotomy (drop m e) d
  · rw [if_pos (lt_of_drop_lt h hd hlt)]
    exact within_round sign hr (.inl (by omega))
  · have hhalf := (h.shift (drop m e)).le_rounded_iff (Nat.mul_pos (Nat.two_pow_pos _) hd) (2 ^ 52)
    rw [← rounded] at hhalf
    split
    · exact within_round sign hr (.inr (by omega))
    · have hc : rounded m e acc = 2 ^ 53 := by omega
      exact beyond_round sign hr (by omega) (.inr (by omega))
  · obtain ⟨hle, hz⟩ := le_of_lt_drop h hgt he
    rw [if_neg (by omega)]
    exact beyond_round sign hr hz (.inl (by omega))

end Halfway

end Round

end ScriptFrontend.Binary64
