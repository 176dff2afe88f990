import Dambi.Asset.Amm.Pools
import Dambi.Lib.Newton

/-!
# StableSwap solvers

The Newton iteration of `curve_v1.rs` for the balance of the bought coin,
against the root of the equation it solves, and what the quotes of Curve V1 and
Balancer V2 pay out for the balance that the iteration returns.
-/

namespace Dambi.Asset.CurveV1

open FixedWidth Fallible Newton Unsigned

/-! ## The quadratic equation -/

/-- The coefficients `b` and `c` of the equation that `compute_y` solves. -/
def coefficients (balances : List U256) (i j : Nat) (newX : U256) (a : Unsigned 32) (d : U256) :
    ReducerResult (U256 × U256) := do
  ensure (balances.length < 2 ^ 32) "curve_v1 y: too many coins"
  ensure (i < balances.length ∧ j < balances.length ∧ i ≠ j)
    s!"curve_v1 y: bad indices (i={i}, j={j}, n={balances.length})"
  let n : U256 := .ofNat balances.length
  let power ← nPowN "curve_v1 y" balances.length n
  let ann ← mulOr (.from a) power "curve_v1 y: Ann overflow"
  ensure (ann ≠ 0) "curve_v1 y: zero Ann"
  let (s', c) ← sumAndProduct balances i j newX n d
  let denomFinal ← mulOr ann n "curve_v1 y: Ann*n overflow"
  let c ← divide (← mulOr c d "curve_v1 y: c*D overflow") denomFinal
  let b ← addOr s' (← divide d ann) "curve_v1 y: b overflow"
  return (b, c)

section Solver

variable {balances : List U256} {i j : Nat} {newX b c d y y' : U256} {a : Unsigned 32}

theorem computeY_eq :
    computeY balances i j newX a d =
      coefficients balances i j newX a d >>= fun (b, c) => newtonY b c d maxIter d := by
  simp [computeY, coefficients]

theorem sumAndProduct_pos {n : U256} {result : U256 × U256} (hi : i < balances.length) (hij : i ≠ j)
    (h : sumAndProduct balances i j newX n d = .ok result) : 0 < result.1.val := by
  have hpr := foldlM_progress
    (fun dn (acc : U256 × U256) => (∃ entry ∈ dn, entry.2 ≠ j) → 0 < acc.1.val) ?_ h (by simp)
  · refine hpr ⟨(balances[i], i), ?_, hij⟩
    exact List.mk_mem_zipIdx_iff_getElem?.2 (List.getElem?_eq_getElem hi)
  · rintro dn ⟨balance, k⟩ ⟨s', c⟩ ⟨s'', c'⟩ - hd hs
    dsimp only at hs
    by_cases hk : k = j
    · rw [if_pos hk] at hs
      cases hs
      rintro ⟨entry, hentry, hn⟩
      obtain hentry | hentry := List.mem_append.1 hentry
      · exact hd ⟨entry, hentry, hn⟩
      · obtain rfl := List.mem_singleton.1 hentry
        exact absurd hk hn
    · rw [if_neg hk] at hs
      simp only [bind_eq_ok, ensure_eq_ok, addOr_eq_ok] at hs
      obtain ⟨_, hz, sum, hsu, _, -, _, -, _, -, hs⟩ := hs
      cases hs
      have hp := Nat.pos_of_ne_zero fun hv => hz (Unsigned.ext hv)
      exact fun _ => hsu ▸ Nat.add_pos_right _ hp

theorem coefficients_pos (h : coefficients balances i j newX a d = .ok (b, c)) : 0 < b.val := by
  simp only [coefficients, bind_eq_ok, ensure_eq_ok, addOr_eq_ok] at h
  obtain ⟨_, -, _, ⟨hi, -, hij⟩, _, -, _, -, _, -, ⟨s', _⟩, hs, _, -, _, -, _, -, _, -, _, hb,
    h⟩ := h
  cases h
  exact hb ▸ Nat.add_pos_left (sumAndProduct_pos hi hij hs) _

/-! ## Rounds -/

/-- The errors of a round whose products and sums do not fit. -/
def roundOverflows : List String :=
  ["curve_v1 y: y² overflow", "curve_v1 y: num overflow", "curve_v1 y: 2y overflow",
    "curve_v1 y: 2y+b overflow"]

/-- A computation that has a result, or stops at an overflow of a round. -/
def Settles {α : Type} (result : ReducerResult α) : Prop :=
  (∃ x, result = .ok x) ∨ ∃ m ∈ roundOverflows, result = broken m

theorem Settles.bind {α β : Type} {o : Option α} {m : String} {f : α → ReducerResult β}
    (hm : m ∈ roundOverflows) (hf : ∀ x, orBroken o m = .ok x → Settles (f x)) :
    Settles (orBroken o m >>= f) := by
  cases o with
  | none => exact .inr ⟨m, hm, rfl⟩
  | some x => exact hf x rfl

theorem round_of_stepY (h : stepY b c d y = .ok y') :
    Round ((b.val : Int) - d.val) c.val y.val y'.val ∧ y.val * y.val < 2 ^ 256 := by
  simp only [stepY, bind_eq_ok, ensure_eq_ok, mulOr_eq_ok, addOr_eq_ok, subOr_eq_ok,
    divide_eq_ok] at h
  obtain ⟨ySq, hs, num, hn, ty, ht, t, hpl, de, ⟨hl, hd⟩, _, -, hp, hq⟩ := h
  have ht' : ty.val = y.val * 2 := ht
  have hsl : (de.val : Int) = 2 * y.val + (b.val - d.val) := by omega
  refine ⟨⟨by omega, ?_⟩, hs ▸ ySq.isLt⟩
  rw [← hsl, hq, hn, hs]
  push_cast
  rfl

/-- A round over a positive slope has a result or overflows. -/
theorem stepY_settles (hs : 0 < 2 * (y.val : Int) + (b.val - d.val)) : Settles (stepY b c d y) := by
  refine .bind (by decide) fun ySq _ => .bind (by decide) fun num _ => .bind (by decide)
    fun ty ht => .bind (by decide) fun ps hp => ?_
  have ht' : ty.val = y.val * 2 := mulOr_eq_ok.1 ht
  have hp' : ps.val = ty.val + b.val := addOr_eq_ok.1 hp
  obtain ⟨de, hd, hv⟩ := exists_checkedSub (a := ps) (b := d) (by omega)
  have hn : de.val ≠ 0 := by omega
  obtain ⟨q, hq⟩ : ∃ q, divide num de = .ok q := by
    rw [divide, checkedDiv, if_neg hn]
    exact ⟨_, rfl⟩
  refine .inl ⟨q, bind_eq_ok.2 ⟨de, orFail_eq_ok.2 hd, bind_eq_ok.2 ⟨(), ?_, ?_⟩⟩⟩
  · exact ensure_eq_ok.2 fun hz => hn (hz ▸ val_zero)
  · exact hq

/-! ## The iteration -/

theorem distance_le_one : distance y' y ≤ 1 ↔ |(y'.val : Int) - y.val| ≤ 1 := by
  rw [Unsigned.le_iff, abs_le]
  change (distance y' y).val ≤ 1 ↔ _
  unfold distance
  split
  · rename_i hlt
    rw [lt_iff] at hlt
    rw [val_saturatingSub]
    omega
  · rename_i hl
    rw [lt_iff] at hl
    rw [val_saturatingSub]
    omega

variable {r : ℝ}

/-- A run that starts near the root settles within its rounds, next to the root. The bound on the
distance is only needed of a value whose square fits, since the next round fails on the others. -/
theorem newtonY_settles {k rs : Nat} (hr : IsRoot ((b.val : Int) - d.val) c.val r) (hk : k < rs)
    (hb : r < (y.val : Int) + 1) (ha : y.val * y.val < 2 ^ 256 → ((y.val : Int) : ℝ) - r ≤ 2 ^ k)
    (hne : (y.val : Int) ≠ 0 ∨ (b.val : Int) - d.val ≠ 0 ∨ (c.val : Int) ≠ 0) :
    Settles (newtonY b c d rs y) ∧
      ∀ y', newtonY b c d rs y = .ok y' → |((y'.val : Int) : ℝ) - r| ≤ 1 := by
  induction rs generalizing k y with
  | zero => omega
  | succ rs ih =>
    have hsl := slope_pos_of_near hr (by omega) hb (by omega) hne
    obtain ⟨next, hnx⟩ | ⟨m, hm, hbr⟩ := stepY_settles (c := c) hsl
    · obtain ⟨hro, hsq⟩ := round_of_stepY hnx
      simp only [newtonY, hnx, ok_bind, distance_le_one]
      by_cases hs : |(next.val : Int) - y.val| ≤ 1
      · rw [if_pos hs]
        refine ⟨.inl ⟨next, rfl⟩, ?_⟩
        rintro y' heq
        cases heq
        exact hro.accurate hr hs
      · rw [if_neg hs]
        cases k with
        | zero => exact absurd (hro.stops hr ⟨hb, ha hsq⟩) hs
        | succ k =>
          have hn := hro.near hr ⟨hb, ha hsq⟩
          exact ih (by omega) hn.1 (fun _ => hn.2) (hro.ne_zero (by omega) hs)
    · simp only [newtonY, hbr]
      exact ⟨.inr ⟨m, hm, rfl⟩, nofun⟩

/-- A run from `D`, with a positive `b`. Its first round need not be near the root. -/
theorem newtonY_start (hr : IsRoot ((b.val : Int) - d.val) c.val r) (hp : 0 ≤ r) (hb : 0 < b.val) :
    Settles (newtonY b c d maxIter d) ∧
      ∀ y', newtonY b c d maxIter d = .ok y' → |((y'.val : Int) : ℝ) - r| ≤ 1 := by
  obtain ⟨next, hn⟩ | ⟨m, hm, hbr⟩ := stepY_settles (b := b) (c := c) (d := d) (y := d)
    (by omega)
  · obtain ⟨hro, -⟩ := round_of_stepY hn
    rw [maxIter, newtonY, hn, ok_bind]
    simp only [distance_le_one]
    by_cases hs : |(next.val : Int) - d.val| ≤ 1
    · rw [if_pos hs]
      refine ⟨.inl ⟨next, rfl⟩, ?_⟩
      rintro y' heq
      cases heq
      exact hro.accurate hr hs
    · rw [if_neg hs]
      refine newtonY_settles hr (k := 128) (by decide) (hro.lt_add_one hr) (fun hsq => ?_)
        (hro.ne_zero (by omega) hs)
      -- A value whose square fits has half the width.
      have hl : next.val < 2 ^ 128 := by
        refine lt_of_mul_self_lt_mul_self₀ (Nat.zero_le _) (hsq.trans_eq ?_)
        rw [← pow_add]
      have hl' : ((next.val : Int) : ℝ) < 2 ^ 128 := by exact_mod_cast hl
      linarith
  · rw [maxIter, newtonY, hbr]
    exact ⟨.inr ⟨m, hm, rfl⟩, nofun⟩

/-- The message of an iteration that does not converge. -/
def divergence : String := "curve_v1 y: newton diverged"

theorem badIndices_ne (i j n : Nat) :
    s!"curve_v1 y: bad indices (i={i}, j={j}, n={n})" ≠ divergence := by
  intro heq
  have hc := congrArg (fun s => s.toList[12]?) heq
  simp only [String.toList_append, List.append_assoc] at hc
  rw [List.getElem?_append_left (by decide)] at hc
  revert hc
  decide

theorem coefficients_avoids : Avoids divergence (coefficients balances i j newX a d) := by
  refine .bind (.ensure _ (by decide)) fun _ _ => ?_
  refine .bind (.ensure _ (badIndices_ne _ _ _)) fun _ _ => ?_
  refine .bind (.foldlM (fun _ _ => .orBroken _ (by decide)) _) fun _ _ => ?_
  refine .bind (.orBroken _ (by decide)) fun _ _ => .bind (.ensure _ (by decide)) fun _ _ => ?_
  refine .bind (.foldlM (fun acc entry => ?_) _) fun _ _ => ?_
  · dsimp only
    by_cases hk : entry.2 = j
    · rw [if_pos hk]
      exact .ok _
    · rw [if_neg hk]
      exact .bind (.ensure _ (by decide)) fun _ _ => .bind (.orBroken _ (by decide)) fun _ _ =>
        .bind (.orBroken _ (by decide)) fun _ _ => .bind (.orBroken _ (by decide)) fun _ _ =>
        .bind (.divide _ _) fun _ _ => .ok _
  · exact .bind (.orBroken _ (by decide)) fun _ _ => .bind (.orBroken _ (by decide)) fun _ _ =>
      .bind (.divide _ _) fun _ _ => .bind (.divide _ _) fun _ _ =>
      .bind (.orBroken _ (by decide)) fun _ _ => .ok _

end Solver

end Dambi.Asset.CurveV1

/-! ## Quotes -/

namespace Dambi.Asset

open FixedWidth Fallible CurveV1

/-- The venues that quote with the StableSwap solvers. -/
inductive StableVenue where
  | curveV1
  | balancerV2

namespace StableVenue

variable (venue : StableVenue)

def quote (pool : PoolState) (amountIn : U256) : ReducerResult U256 :=
  match venue with
  | curveV1 => CurveV1.quoteSwapHop pool amountIn
  | balancerV2 => BalancerV2.quoteSwapHop pool amountIn

/-- The balances of a pool that the venue solves for, its amplification and its fee. -/
def stablePool : StableVenue → PoolState → Option (List U256 × Unsigned 32 × Unsigned 32)
  | curveV1, .stableV1 balances a feeBp => some (balances, a, feeBp)
  | balancerV2, .stable balances amp feeBp => some (balances, amp, feeBp)
  | _, _ => none

/-- The amount that reaches the pool: Balancer takes its fee before the swap. -/
def amountPaid (feeBp : Unsigned 32) (amountIn : U256) : ReducerResult U256 :=
  match venue with
  | curveV1 => .ok amountIn
  | balancerV2 => do
    let scaled ← mulOr amountIn (.ofNat (10000 - feeBp.val)) "balancer_v2 stable: in-fee overflow"
    divide scaled 10000

/-- The balance of the bought coin that `compute_y` returns for a swap. -/
def newBalance (balances : List U256) (a feeBp : Unsigned 32)
    (amountIn : U256) : ReducerResult U256 := do
  let paid ← venue.amountPaid feeBp amountIn
  let d ← computeD balances a
  let newX ← addOr (balances.headD 0) paid "x_i + amount_in overflow"
  computeY balances 0 1 newX a d

/-- The fee that is taken from the payout is at least one unit. Only Curve takes it there. -/
def ChargesUnit (feeBp : Unsigned 32) (payout : Nat) : Prop :=
  venue = curveV1 ∧ 10000 ≤ payout * feeBp.val

end StableVenue

section Payout

variable {venue : StableVenue} {pool : PoolState} {amountIn dy sold bought : U256}
  {rest : List U256} {a feeBp : Unsigned 32}

theorem quoteStable_eq_ok
    (h : BalancerV2.quoteStable (sold :: bought :: rest) a feeBp amountIn = .ok dy) :
    ∃ y, StableVenue.balancerV2.newBalance (sold :: bought :: rest) a feeBp amountIn = .ok y ∧
      0 < y.val ∧ y.val ≤ bought.val + 1 ∧ dy.val = bought.val + 1 - y.val := by
  simp only [BalancerV2.quoteStable, firstTwo, feeMultiplier, bind_eq_ok, ok_bind, addOr_eq_ok,
    subOr_eq_ok] at h
  obtain ⟨_, ⟨_, -, hm⟩, s, hs, p, hp, d, hd, newX, hn, y, hy, l, ⟨ho, hls⟩, hl, hdy⟩ := h
  cases hm
  have ho' : (1 : U256).val = 1 := rfl
  refine ⟨y, ?_, by omega, by omega, by omega⟩
  refine bind_eq_ok.2 ⟨p, bind_eq_ok.2 ⟨s, hs, hp⟩, bind_eq_ok.2 ⟨d, hd, ?_⟩⟩
  exact bind_eq_ok.2 ⟨newX, addOr_eq_ok.2 hn, hy⟩

theorem quoteSwapHop_eq_ok (hpo : amountIn ≠ 0)
    (h : CurveV1.quoteSwapHop (.stableV1 (sold :: bought :: rest) a feeBp) amountIn = .ok dy) :
    ∃ y, StableVenue.curveV1.newBalance (sold :: bought :: rest) a feeBp amountIn = .ok y ∧
      0 < y.val ∧ y.val ≤ bought.val + 1 ∧ feeBp.val < 10000 ∧
      dy.val = (bought.val + 1 - y.val) - (bought.val + 1 - y.val) * feeBp.val / 10000 := by
  simp only [CurveV1.quoteSwapHop, firstTwo, feeMultiplier, bind_eq_ok, ok_bind, addOr_eq_ok,
    subOr_eq_ok, mulOr_eq_ok, divide_eq_ok, ensure_eq_ok, if_neg hpo] at h
  obtain ⟨_, ⟨_, hf, -⟩, d, hd, newX, hn, y, hy, l, ⟨ho, hls⟩, pre, ⟨hl, hp⟩, s,
    hs, fa, ⟨-, hfa⟩, -, hdy⟩ := h
  have ho' : (1 : U256).val = 1 := rfl
  rw [U256.val_from (by decide)] at hs
  refine ⟨y, ?_, by omega, by omega, hf, ?_⟩
  · refine bind_eq_ok.2 ⟨amountIn, rfl, bind_eq_ok.2 ⟨d, hd, ?_⟩⟩
    exact bind_eq_ok.2 ⟨newX, addOr_eq_ok.2 hn, hy⟩
  · have hp' : pre.val = bought.val + 1 - y.val := by omega
    rw [hdy, hfa, hs, hp']
    rfl

/-- A StableSwap quote is rounded against the trader exactly if its fee takes a unit of the
payout: the guard of one unit is on the trader's side. -/
theorem StableVenue.quote_roundedDown_iff
    (hpool : venue.stablePool pool = some (sold :: bought :: rest, a, feeBp))
    (hpos : amountIn ≠ 0) (hquote : venue.quote pool amountIn = .ok dy) :
    ∃ y, venue.newBalance (sold :: bought :: rest) a feeBp amountIn = .ok y ∧
      (((dy.val : Int) ≤ bought.val - y.val ∧ dy.val < bought.val) ↔
        venue.ChargesUnit feeBp (bought.val + 1 - y.val)) := by
  unfold StableVenue.stablePool at hpool
  split at hpool
  · cases hpool
    obtain ⟨y, hy, hyp, hl, hf, hd⟩ := quoteSwapHop_eq_ok hpos hquote
    refine ⟨y, hy, ?_⟩
    obtain ⟨payout, hp⟩ : ∃ payout, payout = bought.val + 1 - y.val := ⟨_, rfl⟩
    have he : payout = 0 → payout * feeBp.val = 0 := fun hz => by rw [hz, Nat.zero_mul]
    simp only [ChargesUnit, true_and]
    rw [← hp] at hd ⊢
    generalize payout * feeBp.val = charged at hd he ⊢
    omega
  · cases hpool
    rw [StableVenue.quote, BalancerV2.quoteSwapHop, if_neg hpos] at hquote
    obtain ⟨y, hy, hyp, hl, hd⟩ := quoteStable_eq_ok hquote
    refine ⟨y, hy, ?_⟩
    simp only [ChargesUnit, reduceCtorEq, false_and, iff_false]
    omega
  · cases hpool

theorem StableVenue.quote_roundedDown_iff_curve :
    StableVenue.curveV1.quote (.stableV1 [1000000, 1000000] 100 30) 10000 = .ok 9971 ∧
      ∃ y, StableVenue.curveV1.newBalance [1000000, 1000000] 100 30 10000 = .ok y ∧
        ((((9971 : U256).val : Int) ≤ (1000000 : U256).val - y.val ∧
            (9971 : U256).val < (1000000 : U256).val) ↔
          StableVenue.curveV1.ChargesUnit 30 ((1000000 : U256).val + 1 - y.val)) := by
  have hq : StableVenue.curveV1.quote (.stableV1 [1000000, 1000000] 100 30) 10000 =
      .ok 9971 := by
    decide +kernel
  have hp : StableVenue.curveV1.stablePool (.stableV1 [1000000, 1000000] 100 30) =
      some ([1000000, 1000000], 100, 30) := rfl
  exact ⟨hq, StableVenue.quote_roundedDown_iff hp (by decide +kernel) hq⟩

end Payout

/-- Without a fee, a balanced Curve pool pays eleven units for ten and keeps 990. -/
theorem curve_overquotes :
    ∃ sold bought amountIn dy y : U256, 0 < sold ∧ 0 < bought ∧ 0 < amountIn ∧
      CurveV1.quoteSwapHop (.stableV1 [sold, bought] 100 0) amountIn = .ok dy ∧
      StableVenue.curveV1.newBalance [sold, bought] 100 0 amountIn = .ok y ∧
      ¬ (dy.val : Int) ≤ bought.val - y.val :=
  ⟨1000, 1000, 10, 11, 990, by decide +kernel⟩

end Dambi.Asset
