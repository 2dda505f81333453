import Mathlib
import ScriptFrontend.Proofs.Decimal.Rounding

set_option autoImplicit false

namespace ScriptFrontend.Binary64

open Float.Model Float.Model.UnpackedFloat

theorem isFinite_unpack (b : BitVec Format.binary64.numBits) :
    (UnpackedFloat.unpack .binary64 b).isFinite = decide (unpackExponent b ≠ -1#_) := by
  fun_cases UnpackedFloat.unpack .binary64 b with
  | case1 | case2 | case3 | case4 | case5 => simp_all +zetaDelta [UnpackedFloat.isFinite]

theorem isInf_unpack (b : BitVec Format.binary64.numBits) :
    (UnpackedFloat.unpack .binary64 b).isInf =
      decide (unpackExponent b = -1#_ ∧ unpackMantissa b = 0#_) := by
  fun_cases UnpackedFloat.unpack .binary64 b with
  | case1 | case2 | case3 | case4 | case5 => simp_all +zetaDelta [UnpackedFloat.isInf]

theorem within_unpack {b : BitVec Format.binary64.numBits} {bound : Int} (hl : -1074 ≤ bound)
    (hne : unpackExponent b ≠ -1#_) (he : ((unpackExponent b).toNat : Int) ≤ bound + 1075) :
    Within bound (UnpackedFloat.unpack .binary64 b) := by
  have hbias : (Format.binary64.exponentBias : Int) + 52 = 1075 := by decide
  fun_cases UnpackedFloat.unpack .binary64 b with
  | case1 | case2 => contradiction
  | case3 => trivial
  | case4 =>
    rename_i hzero _
    have h0 : (unpackExponent b).toNat = 0 := congrArg BitVec.toNat hzero
    show ((unpackExponent b).toNat : Int) - (Format.binary64.exponentBias + 52) + 1 ≤ bound
    omega
  | case5 =>
    show ((unpackExponent b).toNat : Int) - (Format.binary64.exponentBias + 52) ≤ bound
    omega

def Narrow : UnpackedFloat → Prop
  | .finite _ m _ _ => m < 2 ^ 53
  | _ => True

theorem narrow_unpack (b : BitVec Format.binary64.numBits) :
    Narrow (UnpackedFloat.unpack .binary64 b) := by
  fun_cases UnpackedFloat.unpack .binary64 b with
  | case1 | case2 | case3 => trivial
  | case4 mantissa => exact Nat.lt_trans mantissa.isLt (by decide)
  | case5 mantissa => exact (1#1 ++ mantissa).isLt

def biased (e : Int) : Nat :=
  (e + 1075).toNat

theorem pack_finite (sign : Sign) {m : Nat} (e : Int) (pos : 0 < m) :
    UnpackedFloat.pack .binary64 (.finite sign m e pos) =
      if 2 ^ 11 ≤ biased e + 1 then packedInfinity .binary64 sign
      else if m.log2 + 1 = 53 then
        packComponents .binary64 sign (BitVec.ofNat _ (biased e)) (BitVec.ofNat _ m)
      else packComponents .binary64 sign 0#_ (BitVec.ofNat _ m) := by
  have hb : e + Format.binary64.exponentBias + 52 = e + 1075 := by
    have : Format.binary64.exponentBias = 1023 := by decide
    omega
  rw [biased, ← hb]
  rfl

variable {f : UnpackedFloat} {bound : Int}

theorem exponent_pack (hl : -1075 ≤ bound) (hu : bound ≤ 971) (h : Within bound f) :
    ((unpackExponent (UnpackedFloat.pack .binary64 f)).toNat : Int) ≤ bound + 1075 := by
  have hzero : (BitVec.ofNat Format.binary64.exponentBits 0).toNat = 0 := rfl
  cases f with
  | infinity | notANumber => exact h.elim
  | zero sign =>
    rw [UnpackedFloat.pack, packedZero, unpackExponent_packComponents]
    show ((BitVec.ofNat Format.binary64.exponentBits 0).toNat : Int) ≤ _
    omega
  | finite sign m e pos =>
    have he : e ≤ bound := h
    have hb : (biased e : Int) ≤ bound + 1075 := by
      unfold biased
      omega
    rw [pack_finite, if_neg (by omega)]
    split
    · rw [unpackExponent_packComponents, BitVec.toNat_ofNat]
      exact Int.le_trans (Int.ofNat_le.2 (Nat.mod_le _ _)) hb
    · rw [unpackExponent_packComponents]
      omega

/-- A number with an exponent up to 971 is packed as a number. -/
theorem exponent_pack_ne (hl : -1075 ≤ bound) (hu : bound ≤ 971) (h : Within bound f) :
    unpackExponent (UnpackedFloat.pack .binary64 f) ≠ -1#_ := by
  intro hn
  have he := exponent_pack hl hu h
  have hone : (-BitVec.ofNat Format.binary64.exponentBits 1).toNat = 2047 := by decide
  rw [hn, hone] at he
  omega

theorem within_unpack_pack (hl : -1074 ≤ bound) (hu : bound ≤ 971) (h : Within bound f) :
    Within bound (Float.Model.pack f).unpack :=
  within_unpack hl (exponent_pack_ne (by omega) hu h) (exponent_pack (by omega) hu h)

theorem isFinite_pack (h : Within 971 f) : (Float.Model.pack f).isFinite := by
  show (UnpackedFloat.unpack .binary64 (UnpackedFloat.pack .binary64 f)).isFinite
  rw [isFinite_unpack, decide_eq_true_eq]
  exact exponent_pack_ne (by decide) (by decide) h

theorem pack_eq_infinity (h : Beyond 971 f) :
    ∃ sign, UnpackedFloat.pack .binary64 f = packedInfinity .binary64 sign := by
  cases f with
  | infinity | notANumber | zero => exact h.elim
  | finite sign m e pos =>
    have he : 971 < e := h
    refine ⟨sign, ?_⟩
    rw [pack_finite, if_pos]
    unfold biased
    omega

theorem isInf_pack (h : Beyond 971 f) : (Float.Model.pack f).isInf := by
  obtain ⟨sign, hp⟩ := pack_eq_infinity h
  show (UnpackedFloat.unpack .binary64 (UnpackedFloat.pack .binary64 f)).isInf
  rw [hp, isInf_unpack, packedInfinity, unpackExponent_packComponents,
    unpackMantissa_packComponents]
  decide

theorem not_isFinite_of_isInf {x : Float} (h : x.isInf) : x.isFinite = false := by
  have hx : x.toModel.unpack.isInf := h
  show x.toModel.unpack.isFinite = false
  cases hu : x.toModel.unpack <;> simp_all [UnpackedFloat.isInf, UnpackedFloat.isFinite]

end ScriptFrontend.Binary64
