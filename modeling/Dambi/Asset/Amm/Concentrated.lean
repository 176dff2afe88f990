import Mathlib.Data.Rat.Cast.Order
import Mathlib.Tactic.NormNum
import Mathlib.Tactic.Ring
import Dambi.Asset.Amm.Pools

/-!
# Quotes of concentrated liquidity

The single-step form of `uniswap_v3.rs` against the exact curve. Both of its
divisions round down; the first one rounds the next price, so it pays out more
than the curve unless the second one takes that back.
-/

namespace Dambi.Asset.UniswapV3

open FixedWidth Fallible

/-! ## The two divisions -/

/-- The scale of prices, `Q96`. -/
def scale : Nat := 2 ^ 96

theorem scale_pos : 0 < scale := Nat.two_pow_pos 96

variable (l sp a : Nat)

def priceDivisor : Nat := l * scale + a * sp

/-- What the division for the next price drops. -/
def priceRemainder : Nat := l * sp * scale % priceDivisor l sp a

/-- What the division for the payout drops. -/
def payoutRemainder : Nat :=
  l * ((a * sp * sp + priceRemainder l sp a) / priceDivisor l sp a) % scale

/-- The payout drops at least what the rounded price adds to it. -/
def RoundingCovered : Prop :=
  l * priceRemainder l sp a ≤ payoutRemainder l sp a * priceDivisor l sp a

def payoutAt : Nat :=
  l * (sp - l * sp * scale / priceDivisor l sp a) / scale

variable {l sp a b : Nat}

theorem priceDivisor_pos (hl : 0 < l) : 0 < priceDivisor l sp a :=
  Nat.add_pos_left (Nat.mul_pos hl (scale_pos)) _

theorem nextPrice_le (l sp a : Nat) : l * sp * scale / priceDivisor l sp a ≤ sp := by
  refine Nat.div_le_of_le_mul ?_
  rw [priceDivisor, Nat.add_mul, Nat.mul_right_comm]
  exact Nat.le_add_right _ _

theorem priceDrop_mul (l sp a : Nat) :
    priceDivisor l sp a * (sp - l * sp * scale / priceDivisor l sp a) =
      a * sp * sp + priceRemainder l sp a := by
  have hd := Nat.div_add_mod (l * sp * scale) (priceDivisor l sp a)
  have hm : priceDivisor l sp a * sp = l * sp * scale + a * sp * sp := by
    rw [priceDivisor]
    ring
  rw [Nat.mul_sub, hm, priceRemainder]
  omega

/-- The payout against the curve, over the integers: each of the remainders counts once. -/
theorem payoutAt_mul (hl : 0 < l) (sp a : Nat) :
    payoutAt l sp a * (priceDivisor l sp a * scale) + payoutRemainder l sp a * priceDivisor l sp a =
      l * (a * sp * sp) + l * priceRemainder l sp a := by
  have hp : scale * payoutAt l sp a + payoutRemainder l sp a =
      l * (sp - l * sp * scale / priceDivisor l sp a) := by
    rw [payoutAt, payoutRemainder, ← priceDrop_mul,
      Nat.mul_div_cancel_left _ (priceDivisor_pos hl)]
    exact Nat.div_add_mod _ _
  calc payoutAt l sp a * (priceDivisor l sp a * scale) +
        payoutRemainder l sp a * priceDivisor l sp a
      = priceDivisor l sp a * (scale * payoutAt l sp a + payoutRemainder l sp a) := by ring
    _ = l * (priceDivisor l sp a * (sp - l * sp * scale / priceDivisor l sp a)) := by
      rw [hp, Nat.mul_left_comm]
    _ = l * (a * sp * sp) + l * priceRemainder l sp a := by rw [priceDrop_mul, Nat.mul_add]

/-- The payout is on or below the curve exactly if the second division covers the first. -/
theorem payoutAt_le_iff (hl : 0 < l) (sp a : Nat) :
    (payoutAt l sp a : ℚ) ≤ l * sp * (a * sp) / ((l * scale + a * sp) * scale) ↔
      RoundingCovered l sp a := by
  have hd : (priceDivisor l sp a : ℚ) = l * scale + a * sp := by
    rw [priceDivisor]
    push_cast
    rfl
  have hp : (0 : ℚ) < priceDivisor l sp a * scale :=
    mul_pos (Nat.cast_pos.2 (priceDivisor_pos hl)) (Nat.cast_pos.2 scale_pos)
  have hm := payoutAt_mul hl sp a
  have hc : (payoutAt l sp a : ℚ) * (priceDivisor l sp a * scale) ≤ l * sp * (a * sp) ↔
      payoutAt l sp a * (priceDivisor l sp a * scale) ≤ l * (a * sp * sp) := by
    rw [show (l : ℚ) * sp * (a * sp) = l * (a * sp * sp) by ring]
    exact_mod_cast Iff.rfl
  rw [← hd, le_div_iff₀ hp, hc, RoundingCovered]
  omega

theorem payoutAt_mono (l sp : Nat) : Monotone (payoutAt l sp) := by
  intro a b ha
  refine Nat.div_le_div_right (Nat.mul_le_mul_left l (Nat.sub_le_sub_left ?_ sp))
  rcases Nat.eq_zero_or_pos (priceDivisor l sp a) with hz | hp
  · have hl : l = 0 := by
      have hs := scale_pos
      rw [priceDivisor, Nat.add_eq_zero_iff, Nat.mul_eq_zero] at hz
      omega
    rw [hl, Nat.zero_mul, Nat.zero_mul, Nat.zero_div]
    exact Nat.zero_le _
  · exact Nat.div_le_div_left (Nat.add_le_add_left (Nat.mul_le_mul_right sp ha) _) hp

/-! ## The quote -/

section Quote

variable {pool : PoolState} {sqrtPriceX96 amountIn amountIn' out out' : U256} {tick : Signed 31}
  {liquidity : Unsigned 128} {ticks : List TickSnapshot} {protocolTag : String}

theorem concentratedSwapMath_eq_ok
    (h : concentratedSwapMath (.concentrated sqrtPriceX96 tick liquidity ticks) amountIn
      protocolTag = .ok out) :
    0 < liquidity.val ∧ out.val = payoutAt liquidity.val sqrtPriceX96.val amountIn.val := by
  simp only [concentratedSwapMath, bind_eq_ok, ensure_eq_ok] at h
  obtain ⟨_, hl, _, -, h⟩ := h
  have hl' : 0 < liquidity.val := Nat.pos_of_ne_zero fun hz => hl (Unsigned.ext hz)
  refine ⟨hl', ?_⟩
  split at h
  · rename_i hz
    cases h
    have hn : liquidity.val * sqrtPriceX96.val * scale /
        priceDivisor liquidity.val sqrtPriceX96.val 0 = sqrtPriceX96.val := by
      rw [priceDivisor, Nat.zero_mul, Nat.add_zero, Nat.mul_right_comm]
      exact Nat.mul_div_cancel_left _ (Nat.mul_pos hl' scale_pos)
    rw [hz, Unsigned.val_zero, payoutAt, hn, Nat.sub_self, Nat.mul_zero, Nat.zero_div]
  · simp only [bind_eq_ok, mulOr_eq_ok, addOr_eq_ok, subOr_eq_ok, divide_eq_ok] at h
    obtain ⟨lsp, hls, num, hnu, lq, hlq, asp, ha, den, hd, next, ⟨-, hn⟩, d, ⟨-, hdr⟩,
      o, hon, -, ho⟩ := h
    have hq : q96.val = scale := rfl
    rw [U256.val_from (by decide)] at hls hlq hon
    rw [ho, hon, hdr, hn, hnu, hd, hls, hlq, ha, hq, payoutAt, priceDivisor]

theorem tagged_ne {s s' : String} (h : s ≠ s') : protocolTag ++ s ≠ protocolTag ++ s' :=
  fun heq => h (String.append_right_inj protocolTag |>.1 heq)

theorem otherPool_ne (protocolTag : String) :
    s!"non-Concentrated pool_state for {protocolTag} swap" ≠
      s!"{protocolTag} quote: sqrt_price_next > sp (direction violation)" := by
  intro heq
  have hl := congrArg (fun s => s.toList.getLast?) heq
  simp only [String.toList_append] at hl
  rw [List.getLast?_append_of_ne_nil _ (by decide), List.getLast?_append_of_ne_nil _ (by decide)]
    at hl
  revert hl
  decide

/-- The branch for a price that rises is never taken. -/
theorem concentratedSwapMath_direction (pool : PoolState) (amountIn : U256) (protocolTag : String) :
    concentratedSwapMath pool amountIn protocolTag ≠
      broken s!"{protocolTag} quote: sqrt_price_next > sp (direction violation)" := by
  change Avoids _ _
  unfold concentratedSwapMath
  split
  · rename_i sp _ liquidity _
    refine .bind (.ensure _ (tagged_ne (by decide))) fun _ _ => ?_
    refine .bind (.ensure _ (tagged_ne (by decide))) fun _ _ => ?_
    dsimp only
    split
    · exact .ok _
    · refine .bind (.orBroken _ (tagged_ne (by decide))) fun lsp hl => ?_
      refine .bind (.orBroken _ (tagged_ne (by decide))) fun num hn => ?_
      refine .bind (.orBroken _ (tagged_ne (by decide))) fun lq hlq => ?_
      refine .bind (.orBroken _ (tagged_ne (by decide))) fun asp ha => ?_
      refine .bind (.orBroken _ (tagged_ne (by decide))) fun den hd => ?_
      refine .bind (.divide _ _) fun next hne => ?_
      have hle : next.val ≤ sp.val := by
        rw [(divide_eq_ok.1 hne).2, mulOr_eq_ok.1 hn, mulOr_eq_ok.1 hl, addOr_eq_ok.1 hd,
          mulOr_eq_ok.1 hlq, mulOr_eq_ok.1 ha]
        exact nextPrice_le _ _ _
      obtain ⟨d, hdr, -⟩ := Unsigned.exists_checkedSub hle
      refine .bind ?_ fun _ _ => .bind (.orBroken _ (tagged_ne (by decide))) fun _ _ => .divide _ _
      rw [subOr, hdr]
      exact .ok d
  · exact .orBroken none (otherPool_ne protocolTag)

/-- A quote never exceeds the curve, grows with the amount and never sees the price rise, exactly
if the rounding of the payout covers the rounding of the next price. -/
theorem concentratedSwapMath_curve_iff
    (h : concentratedSwapMath (.concentrated sqrtPriceX96 tick liquidity ticks) amountIn
      protocolTag = .ok out) :
    ((out.val : ℚ) ≤ liquidity.val * sqrtPriceX96.val * (amountIn.val * sqrtPriceX96.val) /
          ((liquidity.val * 2 ^ 96 + amountIn.val * sqrtPriceX96.val) * 2 ^ 96) ∧
        (∀ amountIn' out', amountIn ≤ amountIn' →
          concentratedSwapMath (.concentrated sqrtPriceX96 tick liquidity ticks) amountIn'
            protocolTag = .ok out' → out ≤ out') ∧
        ∀ amountIn', concentratedSwapMath (.concentrated sqrtPriceX96 tick liquidity ticks)
          amountIn' protocolTag ≠
            broken s!"{protocolTag} quote: sqrt_price_next > sp (direction violation)") ↔
      RoundingCovered liquidity.val sqrtPriceX96.val amountIn.val := by
  obtain ⟨hl, ho⟩ := concentratedSwapMath_eq_ok h
  have hs : (scale : ℚ) = 2 ^ 96 := by rw [scale]; push_cast; rfl
  have hc := payoutAt_le_iff hl sqrtPriceX96.val amountIn.val
  rw [hs, ← ho] at hc
  refine ⟨fun ha => hc.1 ha.1, fun hco => ⟨hc.2 hco, ?_, ?_⟩⟩
  · intro amountIn' out' hle h'
    rw [Unsigned.le_iff, ho, (concentratedSwapMath_eq_ok h').2]
    exact payoutAt_mono _ _ hle
  · exact fun amountIn' => concentratedSwapMath_direction _ amountIn' protocolTag

theorem concentratedSwapMath_curve_iff_even :
    concentratedSwapMath (.concentrated (.ofNat (2 ^ 96)) 0 (.ofNat (10 ^ 18)) []) 1000000
        "uniswap_v3" = .ok 999999 ∧
      (((999999 : U256).val : ℚ) ≤ (10 ^ 18 : Nat) * (2 ^ 96 : Nat) * ((1000000 : U256).val *
        (2 ^ 96 : Nat)) / (((10 ^ 18 : Nat) * 2 ^ 96 + (1000000 : U256).val * (2 ^ 96 : Nat)) *
          2 ^ 96)) := by
  have h : concentratedSwapMath (.concentrated (.ofNat (2 ^ 96)) 0 (.ofNat (10 ^ 18)) []) 1000000
      "uniswap_v3" = .ok 999999 := by decide +kernel
  have hc : RoundingCovered (10 ^ 18) (2 ^ 96) 1000000 := by
    unfold RoundingCovered
    decide +kernel
  exact ⟨h, ((concentratedSwapMath_curve_iff h).2 hc).1⟩

end Quote

/-- At the least price of the protocol, a pool with much liquidity pays sixteen units for one,
where the curve pays less than one. -/
theorem concentrated_exceeds_curve :
    ∃ (sqrtPriceX96 : U256) (liquidity : Unsigned 128) (amountIn out : U256),
      concentratedSwapMath (.concentrated sqrtPriceX96 0 liquidity []) amountIn "uniswap_v3" =
        .ok out ∧
      ¬ (out.val : ℚ) ≤
        liquidity.val * sqrtPriceX96.val * (amountIn.val * sqrtPriceX96.val) /
          ((liquidity.val * 2 ^ 96 + amountIn.val * sqrtPriceX96.val) * 2 ^ 96) := by
  refine ⟨4295128739, .ofNat (2 ^ 100), 1, 16, by decide +kernel, ?_⟩
  have hp : (4295128739 : U256).val = 4295128739 := by decide +kernel
  have hl : (.ofNat (2 ^ 100) : Unsigned 128).val = 2 ^ 100 := by decide +kernel
  have hi : (1 : U256).val = 1 := by decide +kernel
  have ho : (16 : U256).val = 16 := by decide +kernel
  rw [hp, hl, hi, ho]
  norm_num

end Dambi.Asset.UniswapV3
