import ScriptFrontend.Proofs.Decimal.Packing

/-! Which decimal numbers are read as infinity.

They are those from `2 ^ 1024 - 2 ^ 970` on, halfway between the largest finite number and the next
power of two. All the others are read as finite numbers.
-/

set_option autoImplicit false

namespace ScriptFrontend.Binary64

open Float.Model Float.Model.UnpackedFloat

/-- The least number that is read as infinity. -/
def limit : Nat :=
  2 ^ 1024 - 2 ^ 970

theorem limit_eq : limit = (2 ^ 54 - 1) * 2 ^ 970 := by
  rw [limit, Nat.sub_mul, ← Nat.pow_add, Nat.one_mul]

theorem exists_scale (s : Nat) :
    ∃ a, limit = (2 ^ 54 - 1) * a ∧ 2 ^ (971 + s) = a * 2 ^ (s + 1) :=
  ⟨2 ^ 970, limit_eq, by rw [← Nat.pow_add]; congr 1; omega⟩

theorem lt_limit_iff (n den s : Nat) :
    2 * (n * 2 ^ s) < (2 ^ 54 - 1) * (2 ^ (971 + s) * den) ↔ n < limit * den := by
  obtain ⟨a, hlimit, ha⟩ := exists_scale s
  have hl : 2 * (n * 2 ^ s) = n * 2 ^ (s + 1) := by rw [Nat.pow_succ]; ring
  have hr : (2 ^ 54 - 1) * (2 ^ (971 + s) * den) = limit * den * 2 ^ (s + 1) := by
    rw [hlimit, ha]
    ring
  rw [hl, hr]
  exact Nat.mul_lt_mul_right (Nat.two_pow_pos _)

/-- Below the limit the result fits, and from the limit on it does not. -/
structure Decides (n den : Nat) (f : UnpackedFloat) : Prop where
  within : n < limit * den → Within 971 f
  beyond : limit * den ≤ n → Beyond 971 f

section Model

variable {n den : Nat}

theorem decides_round (sign : Sign) {s : Nat} {e : Int} {acc : Accuracy} (hd : 0 < den)
    (h : Holds (.ofMantissaAndAccuracy (n * 2 ^ s / den) acc) (n * 2 ^ s) den)
    (he : e = -s) :
    Decides n den (roundWithAccuracy .binary64 sign (n * 2 ^ s / den) e acc) := by
  have hround := round_within_or_beyond sign h hd (show e + (971 + s : Nat) = 971 by omega)
  constructor
  · intro hn
    rwa [if_pos ((lt_limit_iff n den s).2 hn)] at hround
  · intro hn
    have hge : ¬2 * (n * 2 ^ s) < (2 ^ 54 - 1) * (2 ^ (971 + s) * den) := by
      rw [lt_limit_iff]
      exact Nat.not_lt.2 hn
    rwa [if_neg hge] at hround

theorem decides_zero (sign : Sign) (h : n < limit * den) : Decides n den (.zero sign) :=
  ⟨fun _ => trivial, fun hn => absurd h (Nat.not_lt.2 hn)⟩

theorem limit_pos : 0 < limit := by
  rw [limit_eq]
  positivity

theorem divCore_eq (n : Nat) (x : Int) (den : Nat) (y : Int) :
    ∃ s : Nat, divCore .binary64 n x den y =
      (n * 2 ^ s / den, x - y - s, accuracyOfFraction (n * 2 ^ s % den) den) := by
  let target := min (x - y)
    (Format.binary64.targetExponent (totalExponent n x - totalExponent den y))
  have ht : target = x - y - (x - y - target).toNat := by omega
  exact ⟨(x - y - target).toNat, by rw [← ht, ← Nat.shiftLeft_eq]; rfl⟩

theorem decides_div (n : Nat) (hn : 0 < n) (hd : 0 < den) :
    Decides n den
      (UnpackedFloat.div .binary64 (.finite .positive n 0 hn) (.finite .positive den 0 hd)) := by
  obtain ⟨s, hs⟩ := divCore_eq n 0 den 0
  simp only [UnpackedFloat.div, hs]
  exact decides_round _ hd (holds_fraction _ hd) (by omega)

theorem decides_mul (n : Nat) (hn : 0 < n <<< Format.binary64.mantissaBits)
    (hone : 0 < 10 ^ Int.toNat 0) :
    Decides n 1 (UnpackedFloat.mul .binary64
      (.finite .positive (n <<< Format.binary64.mantissaBits) (-Format.binary64.mantissaBits) hn)
      (.finite .positive (10 ^ Int.toNat 0) 0 hone)) := by
  have hnum : n <<< Format.binary64.mantissaBits * 10 ^ Int.toNat 0 = n * 2 ^ 53 / 1 := by
    rw [Nat.shiftLeft_eq, Nat.div_one]
    exact Nat.mul_one _
  simp only [UnpackedFloat.mul, hnum]
  exact decides_round _ (by decide) (holds_exact (by decide) (Nat.mod_one _)) rfl

theorem decides_ofScientific (m places : Nat) :
    Decides m (10 ^ places)
      (UnpackedFloat.ofScientific .binary64 m (Int.negOfNat places)) := by
  have hden : 0 < 10 ^ places := Nat.pow_pos (by decide)
  have hneg : Int.negOfNat places = -(places : Int) := Int.negOfNat_eq
  have hbits : (2 : Int) ^ Format.binary64.exponentBits = 2048 := by decide
  rw [hneg, UnpackedFloat.ofScientific, hbits]
  split
  case isTrue hm => exact decides_zero _ (by rw [hm]; exact Nat.mul_pos limit_pos hden)
  split
  case isTrue he => omega
  split
  case isTrue he =>
    refine decides_zero _ ?_
    calc m < 2 ^ (m.log2 + 1) := Nat.lt_log2_self
      _ ≤ 10 ^ (m.log2 + 1) := Nat.pow_le_pow_left (by decide) _
      _ ≤ 10 ^ places := Nat.pow_le_pow_right (by decide) (by omega)
      _ ≤ limit * 10 ^ places := Nat.le_mul_of_pos_left _ limit_pos
  split
  case isTrue he =>
    obtain rfl : places = 0 := by omega
    exact decides_mul m _ _
  case isFalse he =>
    have hp : (- -(places : Int)).toNat = places := by omega
    simp only [hp]
    exact decides_div m _ hden

end Model

section Small

structure Small (f : UnpackedFloat) : Prop where
  within : Within 1 f
  narrow : Narrow f

theorem within_round_scaled (sign : Sign) {n : Nat} (hn : n < 2 ^ 53) (s : Nat) :
    Within 1 (roundWithAccuracy .binary64 sign (n * 2 ^ s) (-s) .exact) := by
  have hlog : (n * 2 ^ s).log2 ≤ 52 + s := by
    by_cases hz : n * 2 ^ s = 0
    · rw [hz, Nat.log2_zero]
      omega
    · have hlt : n * 2 ^ s < 2 ^ (53 + s) := by
        rw [Nat.pow_add]
        exact Nat.mul_lt_mul_of_pos_right hn (Nat.two_pow_pos s)
      have := (Nat.log2_lt hz).2 hlt
      omega
  have hholds : Holds (.ofMantissaAndAccuracy (n * 2 ^ s / 1) .exact) (n * 2 ^ s) 1 :=
    holds_exact (by decide) (Nat.mod_one _)
  rw [Nat.div_one] at hholds
  refine within_round sign (hholds.rounded_le _) (.inl ?_)
  unfold drop
  omega

theorem exists_scaled (sign : Sign) (n : Nat) :
    ∃ s : Nat, UnpackedFloat.round .binary64 sign n 0 =
      roundWithAccuracy .binary64 sign (n * 2 ^ s) (-s) .exact := by
  let target := Format.binary64.targetExponent (totalExponent n 0)
  exact ⟨(0 - target).toNat, by rw [← Nat.shiftLeft_eq, ← Int.zero_sub]; rfl⟩

theorem within_ofNat {n : Nat} (hn : n < 2 ^ 53) : Within 1 (UnpackedFloat.ofNat .binary64 n) := by
  unfold UnpackedFloat.ofNat UnpackedFloat.ofInt UnpackedFloat.normalize
  split
  case h_1 hc =>
    have := Int.compare_eq_lt.1 hc
    omega
  case h_2 => trivial
  case h_3 =>
    obtain ⟨s, hs⟩ := exists_scaled .positive n
    rw [Int.toNat_natCast, hs]
    exact within_round_scaled _ hn s

theorem small_toFloat {n : Nat} (hn : n < 2 ^ 53) : Small n.toUInt64.toFloat.toModel.unpack := by
  have hu : n.toUInt64.toNat = n := Nat.mod_eq_of_lt (Nat.lt_trans hn (by decide))
  have hw : Within 1 (UnpackedFloat.ofUInt64 .binary64 n.toUInt64) := by
    rw [UnpackedFloat.ofUInt64, hu]
    exact within_ofNat hn
  exact ⟨within_unpack_pack (by decide) (by decide) hw, narrow_unpack _⟩

def isDivisor : UnpackedFloat → Bool
  | .finite _ _ e _ => -52 ≤ e
  | _ => false

theorem isDivisor_powers : ∀ p : Fin 23,
    isDivisor Float.exactlyRepresentablePowersOfTen[p].toModel.unpack := by
  decide +kernel

theorem within_div {a b : UnpackedFloat} (ha : Small a) (hb : isDivisor b) :
    Within 971 (UnpackedFloat.div .binary64 a b) := by
  cases b with
  | infinity | notANumber | zero => cases hb
  | finite t k e hk =>
    have he : -52 ≤ e := by simpa [isDivisor] using hb
    cases a with
    | infinity | notANumber => exact ha.within.elim
    | zero sign => trivial
    | finite sign m x hm =>
      have hx : x ≤ 1 := ha.within
      have hm53 : m < 2 ^ 53 := ha.narrow
      obtain ⟨s, hs⟩ := divCore_eq m x k e
      obtain ⟨d, hd⟩ : ∃ d : Nat, x - e - s + d = 971 := ⟨(971 - (x - e - s)).toNat, by omega⟩
      have hlt : 2 * (m * 2 ^ s) < (2 ^ 54 - 1) * (2 ^ d * k) := by
        have hpow : 2 ^ (54 + s) ≤ 2 ^ d := Nat.pow_le_pow_right (by decide) (by omega)
        have hk : 2 ^ d ≤ 2 ^ d * k := Nat.le_mul_of_pos_right _ hk
        have hms : m * 2 ^ s < 2 ^ 53 * 2 ^ s :=
          Nat.mul_lt_mul_of_pos_right hm53 (Nat.two_pow_pos s)
        rw [Nat.pow_add] at hpow
        omega
      have hround := round_within_or_beyond (sign / t) (holds_fraction (m * 2 ^ s) hk) hk hd
      rw [if_pos hlt] at hround
      simpa only [UnpackedFloat.div, hs] using hround

end Small

/-- The result is finite below the limit, and infinite from the limit on. -/
theorem ofScientific_cases (m places : Nat) :
    (m < limit * 10 ^ places ∧ (Float.ofScientific m true places).isFinite) ∨
      (limit * 10 ^ places ≤ m ∧ (Float.ofScientific m true places).isInf) := by
  have hlimit : 2 ^ 53 ≤ limit * 10 ^ places := by
    calc 2 ^ 53 ≤ 2 ^ 54 - 1 := by decide
      _ ≤ (2 ^ 54 - 1) * 2 ^ 970 := Nat.le_mul_of_pos_right _ (by positivity)
      _ = limit := limit_eq.symm
      _ ≤ limit * 10 ^ places := Nat.le_mul_of_pos_right _ (Nat.pow_pos (by decide))
  unfold Float.ofScientific
  split
  case isTrue h =>
    refine .inl ⟨Nat.lt_of_lt_of_le h.1 hlimit, ?_⟩
    exact isFinite_pack (within_div (small_toFloat h.1) (isDivisor_powers ⟨places, by omega⟩))
  case isFalse =>
    have hd := decides_ofScientific m places
    obtain hlt | hle := Nat.lt_or_ge m (limit * 10 ^ places)
    · exact .inl ⟨hlt, isFinite_pack (hd.within hlt)⟩
    · exact .inr ⟨hle, isInf_pack (hd.beyond hle)⟩

end ScriptFrontend.Binary64
