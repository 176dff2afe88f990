import Mathlib.Data.Rat.Floor
import Mathlib.Tactic.Linarith
import Mathlib.Tactic.NormNum
import Mathlib.Tactic.Zify
import Mathlib.Tactic.Positivity
import Dambi.Lib.FixedWidth

/-!
# The nano projection of an amount

`nano_from_decimals` of the lowerings: a 256-bit amount in smallest units becomes a
`Long` with nine decimals, clamped into the range of the type.
-/

namespace Dambi.Lowering

open FixedWidth Unsigned

def nanoScale : Nat := 9

/-- `U256::from(10u64).pow(exp)`, which wraps. -/
def tenPow (exp : Nat) : Unsigned 256 := .ofNat (10 ^ exp)

variable (raw : Unsigned 256)

/-- The amount with nine decimals, still 256 bits wide. -/
def rescale (decimals : Nat) : Unsigned 256 :=
  if nanoScale ≤ decimals then
    let exp := decimals - nanoScale
    -- The divisor would not fit in 256 bits.
    if 77 < exp then 0 else .ofNat (raw.val / (tenPow exp).val)
  else raw.saturatingMul (tenPow (nanoScale - decimals))

def nanoFromDecimals (decimals : Unsigned 8) : Signed 63 :=
  let nano := rescale raw decimals.val
  let asU64 : Unsigned 64 := (Unsigned.ofNat? nano.val).getD .maxValue
  (Signed.ofInt? asU64.val).getD .maxValue

/-! ## What it computes -/

/-- The largest `Long`. -/
def longMax : Int := 2 ^ 63 - 1

theorem val_tenPow {exp : Nat} (h : exp ≤ 77) : (tenPow exp).val = 10 ^ exp := by
  refine val_ofNat ((Nat.pow_le_pow_right (by decide) h).trans_lt ?_)
  norm_num

theorem val_narrow (n : Unsigned 256) :
    ((Signed.ofInt? ((Unsigned.ofNat? n.val : Option (Unsigned 64)).getD .maxValue).val :
      Option (Signed 63)).getD .maxValue).val = min longMax n.val := by
  have hm : (Signed.maxValue : Signed 63).val = longMax := by
    rw [Signed.maxValue, Signed.val_clamp, longMax]
    norm_num
  unfold ofNat?
  split
  · next h =>
    unfold Signed.ofInt?
    split
    · next h' =>
      change (n.val : Int) = _
      rw [longMax]
      have : (n.val : Int) < 2 ^ 63 := h'.2
      omega
    · next h' =>
      rw [Option.getD_none, hm, longMax]
      change ¬ (-(2 ^ 63) ≤ (n.val : Int) ∧ (n.val : Int) < 2 ^ 63) at h'
      omega
  · next h =>
    have hw : (Unsigned.maxValue : Unsigned 64).val = 2 ^ 64 - 1 := by
      rw [Unsigned.maxValue, val_saturate]
      norm_num
    rw [Option.getD_none, hw]
    unfold Signed.ofInt?
    rw [dif_neg (by norm_num), Option.getD_none, hm, longMax]
    omega

/-- A power of ten that shifts the point, applied to a number of smallest units. -/
theorem floor_shift (n d : Nat) : ⌊(n : ℚ) * 10 ^ ((9 : Int) - d)⌋ =
    (if 9 ≤ d then n / 10 ^ (d - 9) else n * 10 ^ (9 - d) : Nat) := by
  split
  · next h =>
    have he : (9 : Int) - d = -((d - 9 : Nat) : Int) := by omega
    rw [he, zpow_neg, zpow_natCast, ← div_eq_mul_inv]
    exact_mod_cast Rat.floor_natCast_div_natCast n (10 ^ (d - 9))
  · next h =>
    have he : (9 : Int) - d = ((9 - d : Nat) : Int) := by omega
    rw [he, zpow_natCast]
    exact_mod_cast Int.floor_natCast _

/-- The projection is exact up to the clamp, for every number of decimals whose power of ten
fits. -/
theorem val_nanoFromDecimals {ds : Unsigned 8} (h : ds.val ≤ 86) :
    (nanoFromDecimals raw ds).val = min longMax ⌊(raw.val : ℚ) * 10 ^ ((9 : Int) - ds.val)⌋ := by
  rw [nanoFromDecimals, val_narrow, floor_shift, rescale, nanoScale]
  split
  · next hd =>
    have he : ds.val - 9 ≤ 77 := by omega
    rw [if_neg (by omega), val_tenPow he,
      val_ofNat ((Nat.div_le_self _ _).trans_lt raw.isLt)]
  · next hu =>
    have he : 9 - ds.val ≤ 77 := by omega
    rw [saturatingMul, val_saturate, val_tenPow he, longMax]
    have hw : (2 : Int) ^ 63 - 1 ≤ ((2 ^ 256 - 1 : Nat) : Int) := by norm_num
    omega

end Dambi.Lowering
