import Dambi.Asset.Amm.Pools
import Dambi.Lib.ConstantProduct

/-!
# Constant-product quotes

The venues of `effect/amm` that keep the product of two reserves: what each one
pays out as a payout of the constant product, and when that is below the
reserve. Uniswap V2 is the only one that quotes an empty reserve.
-/

namespace Dambi.Asset

open FixedWidth Fallible ConstantProduct Unsigned

/-- The venues whose quote keeps the product of two reserves. -/
inductive ProductVenue where
  | uniswapV2
  | traderJoeLb
  | maverickV2
  | curveV2
  | balancerV2
deriving DecidableEq

/-- The price-scaled worth of an amount of the bought coin, which only Curve V2 scales. -/
def PoolState.worth : PoolState → Nat → Nat
  | .cryptoswap _ (price :: _) _ _, n => n * price.val / 10 ^ 18
  | _, n => n

/-- The reserves of the sold and of the bought coin that a quote reads. For Balancer these are the
first two balances of a pool that gives both the same weight. -/
def ProductVenue.reserves {D : Type} (kit : DecimalKit D) :
    ProductVenue → PoolState → Option (U256 × U256)
  | uniswapV2, .xyConstant reserveIn reserveOut _ => some (reserveIn, reserveOut)
  | traderJoeLb, .liquidityBook activeBinId bins _ =>
    (bins.find? (·.id = activeBinId)).map fun bin => (bin.reserveIn, bin.reserveOut)
  | maverickV2, .maverick _ raw => do
    let reserveIn ← (MaverickV2.pullU256 kit raw "reserve_in").toOption
    let reserveOut ← (MaverickV2.pullU256 kit raw "reserve_out").toOption
    return (reserveIn, reserveOut)
  | curveV2, .cryptoswap [balance₀, balance₁] _ _ _ => some (balance₀, balance₁)
  | balancerV2, .weighted (balIn :: balOut :: _) (wIn :: wOut :: _) _ =>
    if wIn = wOut then some (balIn, balOut) else none
  | _, _ => none

def ProductVenue.quote {D : Type} (kit : DecimalKit D) (venue : ProductVenue) (pool : PoolState)
    (amountIn : U256) : ReducerResult U256 :=
  match venue with
  | uniswapV2 => UniswapV2.quoteSwapHop pool amountIn
  | traderJoeLb => TraderJoeLb.quoteSwapHop pool amountIn
  | maverickV2 => MaverickV2.quoteSwapHop kit pool amountIn
  | curveV2 => CurveV2.quoteSwapHop pool amountIn
  | balancerV2 => BalancerV2.quoteSwapHop pool amountIn

/-- What a quote `out` for `a` owes to the pool, next to the quote `out'` for a larger amount. -/
structure FairQuote (pool : PoolState) (x y a out out' : U256) : Prop where
  monotone : out ≤ out'
  below : out < y
  product : (x.val * pool.worth y.val : Int) ≤
    (x.val + a.val) * (pool.worth y.val - pool.worth out.val)

/-- A quote of a venue that checks its reserves: nothing for nothing, or the payout of a constant
product in the unit `k`, in which `pay` says what of the amount counts. -/
def Quoted (x y : U256) (k : Nat) (pay : Nat → Nat) (a out : U256) : Prop :=
  (a = 0 ∧ out = 0) ∨
    (0 < k ∧ 0 < x.val ∧ 0 < y.val ∧ out.val = payout (k * x.val) y.val (pay a.val))

section Fairness

variable {pool : PoolState} {x y a a' out out' : U256} {k : Nat} {pay : Nat → Nat}

theorem payout_product (hk : 0 < k) (hp : ∀ n, pay n ≤ k * n)
    (ho : out.val = payout (k * x.val) y.val (pay a.val)) :
    (x.val * y.val : Int) ≤ (x.val + a.val) * (y.val - out.val) := by
  have hl := payout_le (k * x.val) y.val (pay a.val)
  have hpr := product_le (x := x.val) (y := y.val) hk (hp a.val)
  rw [← ho] at hl hpr
  zify [hl] at hpr
  exact hpr

theorem Quoted.fair_iff (hw : ∀ n, pool.worth n = n) (hm : Monotone pay)
    (hp : ∀ n, pay n ≤ k * n) (hl : a ≤ a') (h : Quoted x y k pay a out)
    (h' : Quoted x y k pay a' out') : FairQuote pool x y a out out' ↔ 0 < y := by
  refine ⟨fun hf => lt_of_le_of_lt (Unsigned.le_iff.2 ?_) hf.below, fun hy => ?_⟩
  · exact Nat.zero_le out.val
  · rcases h with ⟨rfl, rfl⟩ | ⟨hk, hx, hy', ho⟩
    · refine ⟨Nat.zero_le out'.val, hy, ?_⟩
      simp [hw]
    · refine ⟨?_, lt_iff.2 (ho ▸ payout_lt (Nat.mul_pos hk hx) hy' _), ?_⟩
      · rcases h' with ⟨rfl, -⟩ | ⟨-, -, -, ho'⟩
        · -- Then the smaller amount is nothing too.
          obtain rfl : a = 0 := Unsigned.ext (Nat.le_zero.1 hl)
          have hz : pay (0 : U256).val = 0 := Nat.le_zero.1 (hp 0)
          rw [hz, payout_zero] at ho
          exact Unsigned.le_iff.2 (ho.symm ▸ Nat.zero_le _)
        · rw [Unsigned.le_iff, ho, ho']
          exact payout_mono _ _ (hm hl)
      · rw [hw, hw]
        exact payout_product hk hp ho

end Fairness

/-! ## Venues -/

section Venues

variable {D : Type} {kit : DecimalKit D} {x y a a' out out' : U256} {feeBp : Unsigned 32}

def afterFee (feeBp : Unsigned 32) (n : Nat) : Nat := n * (10000 - feeBp.val) / 10000

theorem afterFee_mono (feeBp : Unsigned 32) : Monotone (afterFee feeBp) := fun _ _ hl =>
  Nat.div_le_div_right (Nat.mul_le_mul_right _ hl)

theorem afterFee_le (feeBp : Unsigned 32) (n : Nat) : afterFee feeBp n ≤ n := by
  refine Nat.div_le_of_le_mul ?_
  rw [Nat.mul_comm 10000]
  exact Nat.mul_le_mul_left n (Nat.sub_le _ _)

theorem val_pos {n : U256} (h : n ≠ 0) : 0 < n.val :=
  Nat.pos_of_ne_zero fun hz => h (Unsigned.ext hz)

variable {l : String} {ag m p : U256} {ps : List U256}

theorem feeMultiplier_eq_ok (h : feeMultiplier l feeBp = .ok m) : m.val = 10000 - feeBp.val := by
  simp only [feeMultiplier, bind_eq_ok] at h
  obtain ⟨_, -, h⟩ := h
  cases h
  exact val_ofNat (lt_of_le_of_lt (Nat.sub_le _ _) (by decide))

theorem constantProduct_eq_ok (hm : m.val = 10000 - feeBp.val) (hx : x ≠ 0) (hy : y ≠ 0)
    (h : constantProduct l x y m a = .ok out) : Quoted x y 1 (afterFee feeBp) a out := by
  simp only [constantProduct, bind_eq_ok, mulOr_eq_ok, addOr_eq_ok, divide_eq_ok] at h
  obtain ⟨s, hs, p, ⟨-, hp⟩, num, hn, den, hd, _, -, -, ho⟩ := h
  have hp' : p.val = afterFee feeBp a.val := by
    rw [hp, hs, hm]
    rfl
  refine .inr ⟨Nat.one_pos, val_pos hx, val_pos hy, ?_⟩
  rw [ho, hn, hd, hp', Nat.one_mul, payout]

theorem TraderJoeLb.quoted {bin : BinState} {abi : Unsigned 32} {bs : List BinState}
    (hb : bs.find? (·.id = abi) = some bin)
    (h : quoteSwapHop (.liquidityBook abi bs feeBp) a = .ok out) :
    Quoted bin.reserveIn bin.reserveOut 1 (afterFee feeBp) a out := by
  simp only [quoteSwapHop, bind_eq_ok] at h
  obtain ⟨_, -, m, hm, h⟩ := h
  split at h
  · rename_i hz
    cases h
    exact .inl ⟨hz, rfl⟩
  · simp only [hb, bind_eq_ok, ensure_eq_ok] at h
    obtain ⟨_, ha, _, ⟨hx, hy⟩, h⟩ := h
    cases ha
    exact constantProduct_eq_ok (feeMultiplier_eq_ok hm) hx hy h

theorem UniswapV2.quoteSwapHop_eq_ok (h : quoteSwapHop (.xyConstant x y feeBp) a = .ok out) :
    out.val = payout (10000 * x.val) y.val (a.val * (10000 - feeBp.val)) ∧
      0 < 10000 * x.val + a.val * (10000 - feeBp.val) := by
  simp only [quoteSwapHop, bind_eq_ok, mulOr_eq_ok, addOr_eq_ok, divide_eq_ok] at h
  obtain ⟨m, hm, p, hp, num, hn, b, hb, den, hd, _, -, hne, ho⟩ := h
  rw [feeMultiplier_eq_ok hm] at hp
  have hb' : b.val = 10000 * x.val := hb.trans (Nat.mul_comm _ _)
  rw [ho, hn, ← hp, ← hb', ← hd]
  exact ⟨by rw [payout, hd], Nat.pos_of_ne_zero hne⟩

theorem BalancerV2.quoted {w : Unsigned 64} {ws : List (Unsigned 64)} {bs : List U256}
    (h : quoteSwapHop (.weighted (x :: y :: bs) (w :: w :: ws) feeBp) a = .ok out) :
    Quoted x y w.val (fun n => afterFee feeBp n * w.val) a out := by
  unfold quoteSwapHop at h
  split at h
  · rename_i hz
    cases h
    exact .inl ⟨hz, rfl⟩
  · simp only [quoteWeighted, List.headD_cons, List.drop_succ_cons, List.drop_zero, bind_eq_ok,
      ensure_eq_ok, mulOr_eq_ok, addOr_eq_ok, divide_eq_ok] at h
    obtain ⟨_, -, _, -, m, hm, _, ⟨hx, hy⟩, _, ⟨hw, -⟩, s, hs, p,
      ⟨-, hp⟩, i, hi, num, hn, b, hb, den, hd, _, -, -, ho⟩ := h
    rw [U256.val_from (by decide)] at hi hb
    have hp' : p.val = afterFee feeBp a.val := by
      rw [hp, hs, feeMultiplier_eq_ok hm]
      rfl
    have hw' : 0 < w.val := Nat.pos_of_ne_zero fun hz => hw (Unsigned.ext (by
      rw [U256.val_from (by decide), hz, val_zero]))
    refine .inr ⟨hw', val_pos hx, val_pos hy, ?_⟩
    rw [ho, hn, hd, hb, hi, hp', Nat.mul_comm x.val, payout]

theorem MaverickV2.quoted {raw : Json} (mo : String) (hx : pullU256 kit raw "reserve_in" = .ok x)
    (hy : pullU256 kit raw "reserve_out" = .ok y) :
    ∃ feeBp, ∀ a out, quoteSwapHop kit (.maverick mo raw) a = .ok out →
      Quoted x y 1 (afterFee feeBp) a out := by
  refine ⟨(pullU32 raw "fee_bp").toOption.getD 0, fun a out h => ?_⟩
  unfold quoteSwapHop at h
  dsimp only at h
  split at h
  · rename_i hz
    cases h
    exact .inl ⟨hz, rfl⟩
  · simp only [hx, hy, bind_eq_ok, ok_bind, ensure_eq_ok] at h
    obtain ⟨feeBp, hf, m, hm, _, ⟨hx, hy⟩, h⟩ := h
    rw [hf]
    exact constantProduct_eq_ok (feeMultiplier_eq_ok hm) hx hy h

/-! ### Curve V2 -/

/-- What a fee on the payout leaves of it. -/
def netOfFee (feeBp : Unsigned 32) (n : Nat) : Nat := n - n * feeBp.val / 10000

theorem netOfFee_mono (h : feeBp.val < 10000) : Monotone (netOfFee feeBp) := by
  intro n m hl
  obtain ⟨more, rfl⟩ := Nat.exists_eq_add_of_le hl
  have hf : (n + more) * feeBp.val / 10000 ≤ n * feeBp.val / 10000 + more := by
    rw [← Nat.add_mul_div_right _ _ (by decide : 0 < 10000), Nat.add_mul]
    exact Nat.div_le_div_right (Nat.add_le_add_left (Nat.mul_le_mul_left more h.le) _)
  unfold netOfFee
  omega

/-- The payout in the unit of the bought coin, from the one in the scaled unit. -/
def descaled (price n : Nat) : Nat := n * 10 ^ 18 / price

theorem CurveV2.quoteSwapHop_eq_ok (ha : a ≠ 0)
    (h : quoteSwapHop (.cryptoswap [x, y] (p :: ps) ag feeBp) a = .ok out) :
    feeBp.val < 10000 ∧ 0 < p.val ∧ 0 < x.val ∧ 0 < y.val * p.val / 10 ^ 18 ∧
      out.val = netOfFee feeBp (descaled p.val
        (payout x.val (y.val * p.val / 10 ^ 18) a.val)) := by
  simp only [quoteSwapHop, feeMultiplier, ok_bind, List.head?_cons, bind_eq_ok, ensure_eq_ok,
    if_neg ha, mulOr_eq_ok, addOr_eq_ok, subOr_eq_ok, divide_eq_ok] at h
  obtain ⟨p', hpi, _, hne, _, ⟨_, hf, -⟩, s, hs, xp₁, ⟨-, hxp⟩, _, ⟨hx, hxp'⟩,
    num, hn, den, hd, _, -, dy, ⟨-, hdy⟩, w, hw, pre, ⟨-, hp⟩, c, hc, fee,
    ⟨-, hfa⟩, -, ho⟩ := h
  cases hpi
  have hpr : pricePrecision.val = 10 ^ 18 := rfl
  rw [hs, hpr] at hxp
  rw [U256.val_from (by decide)] at hc
  have hp' : pre.val = descaled p.val (payout x.val xp₁.val a.val) := by
    rw [hp, hw, hdy, hn, hd, hpr, descaled, payout]
  refine ⟨hf, val_pos hne, val_pos hx, hxp ▸ val_pos hxp', ?_⟩
  rw [ho, hfa, hc, ← hxp, ← hp', netOfFee]
  rfl

theorem CurveV2.quoteSwapHop_zero (h : quoteSwapHop (.cryptoswap [x, y] ps ag feeBp) 0 = .ok out) :
    out = 0 := by
  simp only [quoteSwapHop, ok_bind, bind_eq_ok, if_true] at h
  obtain ⟨_, -, _, -, _, -, h⟩ := h
  cases h
  rfl

theorem worth_netOfFee_le (feeBp : Unsigned 32) (price n : Nat) :
    netOfFee feeBp (descaled price n) * price / 10 ^ 18 ≤ n := by
  refine Nat.div_le_of_le_mul ?_
  calc netOfFee feeBp (descaled price n) * price
      ≤ descaled price n * price := Nat.mul_le_mul_right price (Nat.sub_le _ _)
    _ ≤ n * 10 ^ 18 := Nat.div_mul_le_self _ _
    _ = 10 ^ 18 * n := Nat.mul_comm _ _

theorem descaled_lt {p n m : Nat} (hp : 0 < p) (h : n < m * p / 10 ^ 18) : descaled p n < m := by
  refine (Nat.div_lt_iff_lt_mul hp).2 ?_
  have hm := (Nat.le_div_iff_mul_le (by decide : 0 < 10 ^ 18)).1 (Nat.succ_le_of_lt h)
  omega

theorem CurveV2.fair_iff (hl : a ≤ a')
    (h : quoteSwapHop (.cryptoswap [x, y] (p :: ps) ag feeBp) a = .ok out)
    (h' : quoteSwapHop (.cryptoswap [x, y] (p :: ps) ag feeBp) a' = .ok out') :
    FairQuote (.cryptoswap [x, y] (p :: ps) ag feeBp) x y a out out' ↔ 0 < y := by
  refine ⟨fun hfr => lt_of_le_of_lt (Unsigned.le_iff.2 (Nat.zero_le _)) hfr.below, fun hy => ?_⟩
  by_cases ha : a = 0
  · subst ha
    obtain rfl := quoteSwapHop_zero h
    exact ⟨Nat.zero_le out'.val, hy, by simp [PoolState.worth]⟩
  · have ha' : a' ≠ 0 := by
      rintro rfl
      exact ha (Unsigned.ext (Nat.le_zero.1 hl))
    obtain ⟨hf, hp, hx, hxp, ho⟩ := quoteSwapHop_eq_ok ha h
    obtain ⟨-, -, -, -, ho'⟩ := quoteSwapHop_eq_ok ha' h'
    have hlt := payout_lt hx hxp a.val
    have hw := worth_netOfFee_le feeBp p.val
      (payout x.val (y.val * p.val / 10 ^ 18) a.val)
    rw [← ho] at hw
    refine ⟨?_, ?_, ?_⟩
    · rw [Unsigned.le_iff, ho, ho']
      refine netOfFee_mono hf (Nat.div_le_div_right (Nat.mul_le_mul_right _ ?_))
      exact payout_mono _ _ hl
    · rw [lt_iff, ho]
      exact lt_of_le_of_lt (Nat.sub_le _ _) (descaled_lt hp hlt)
    · have hpr := product_le (x := x.val) (y := y.val * p.val / 10 ^ 18) Nat.one_pos
        (Nat.one_mul a.val).ge
      rw [Nat.one_mul] at hpr
      have hk := Nat.mul_le_mul_left (x.val + a.val)
        (Nat.sub_le_sub_left hw (y.val * p.val / 10 ^ 18))
      have hal := hpr.trans hk
      zify [hw.trans hlt.le] at hal
      exact hal

/-! ## Every venue -/

theorem UniswapV2.fair_iff (hl : a ≤ a') (h : quoteSwapHop (.xyConstant x y feeBp) a = .ok out)
    (h' : quoteSwapHop (.xyConstant x y feeBp) a' = .ok out') :
    FairQuote (.xyConstant x y feeBp) x y a out out' ↔ 0 < y ∧ 0 < x := by
  obtain ⟨ho, hd⟩ := quoteSwapHop_eq_ok h
  obtain ⟨ho', -⟩ := quoteSwapHop_eq_ok h'
  constructor
  · intro hf
    have hb : out.val < y.val := hf.below
    refine ⟨lt_iff.2 (lt_of_le_of_lt (Nat.zero_le _) hb), lt_iff.2 ?_⟩
    refine Nat.pos_of_ne_zero fun hz => ?_
    rw [hz, Nat.mul_zero, Nat.zero_add] at hd
    rw [ho, hz, Nat.mul_zero, payout_of_empty hd] at hb
    exact absurd hb (Nat.lt_irrefl _)
  · rintro ⟨hy, hx⟩
    have hx' : 0 < 10000 * x.val := Nat.mul_pos (by decide) hx
    refine ⟨?_, lt_iff.2 (ho ▸ payout_lt hx' hy _), ?_⟩
    · rw [Unsigned.le_iff, ho, ho']
      exact payout_mono _ _ (Nat.mul_le_mul_right _ hl)
    · have hp (n : Nat) : n * (10000 - feeBp.val) ≤ 10000 * n := by
        rw [Nat.mul_comm 10000]
        exact Nat.mul_le_mul_left n (Nat.sub_le _ _)
      exact payout_product (k := 10000) (by decide) hp ho

/-- The quotes of all constant-product venues are monotone, stay below the reserve and keep the
product exactly if there is a reserve to stay below and, on Uniswap V2, a reserve of the sold
coin: only that venue quotes a pool without one, and pays out all it has. -/
theorem ProductVenue.quotes_fair_iff {venue : ProductVenue} {pool : PoolState}
    (hreserves : venue.reserves kit pool = some (x, y)) (hle : a ≤ a')
    (hout : venue.quote kit pool a = .ok out) (hout' : venue.quote kit pool a' = .ok out') :
    FairQuote pool x y a out out' ↔ 0 < y ∧ (venue = uniswapV2 → 0 < x) := by
  unfold reserves at hreserves
  split at hreserves
  · cases hreserves
    simpa using UniswapV2.fair_iff hle hout hout'
  · obtain ⟨bin, hb, hp⟩ := Option.map_eq_some_iff.1 hreserves
    cases hp
    simpa using Quoted.fair_iff (fun _ => rfl) (afterFee_mono _)
      (fun n => (afterFee_le _ n).trans_eq (Nat.one_mul n).symm) hle
      (TraderJoeLb.quoted hb hout) (TraderJoeLb.quoted hb hout')
  · rename_i mode raw
    obtain ⟨x', hx, hreserves⟩ := Option.bind_eq_some_iff.1 hreserves
    obtain ⟨y', hy, hp⟩ := Option.bind_eq_some_iff.1 hreserves
    cases hp
    obtain ⟨feeBp, hq⟩ := MaverickV2.quoted mode (toOption_eq_some.1 hx) (toOption_eq_some.1 hy)
    simpa using Quoted.fair_iff (fun _ => rfl) (afterFee_mono feeBp)
      (fun n => (afterFee_le _ n).trans_eq (Nat.one_mul n).symm) hle (hq a out hout)
      (hq a' out' hout')
  · rename_i priceScale _ _
    cases hreserves
    cases priceScale with
    | nil => cases hout
    | cons price prices => simpa using CurveV2.fair_iff hle hout hout'
  · rename_i wIn _ wOut _ _
    split at hreserves
    · rename_i hw
      cases hreserves
      subst hw
      simpa using Quoted.fair_iff (fun _ => rfl)
        (fun _ _ hn => Nat.mul_le_mul_right _ (afterFee_mono _ hn))
        (fun n => (Nat.mul_le_mul_right _ (afterFee_le _ n)).trans_eq (Nat.mul_comm _ _)) hle
        (BalancerV2.quoted hout) (BalancerV2.quoted hout')
    · cases hreserves
  · cases hreserves

theorem ProductVenue.quotes_fair_iff_even :
    ProductVenue.uniswapV2.quote DecimalKit.whole (.xyConstant 1000 1000 30) 100 = .ok 90 ∧
      (FairQuote (.xyConstant 1000 1000 30) 1000 1000 100 90 166 ↔
        (0 : U256) < 1000 ∧ (ProductVenue.uniswapV2 = uniswapV2 → (0 : U256) < 1000)) := by
  have ho : ProductVenue.uniswapV2.quote DecimalKit.whole (.xyConstant 1000 1000 30) 100 =
      .ok 90 := by decide +kernel
  have ho' : ProductVenue.uniswapV2.quote DecimalKit.whole (.xyConstant 1000 1000 30) 200 =
      .ok 166 := by decide +kernel
  have hr : ProductVenue.uniswapV2.reserves DecimalKit.whole (.xyConstant 1000 1000 30) =
      some (1000, 1000) := rfl
  exact ⟨ho, ProductVenue.quotes_fair_iff hr (by decide +kernel) ho ho'⟩

/-- A Uniswap V2 pool without the sold coin pays out its whole reserve for one unit. -/
theorem uniswapV2_pays_reserve :
    ∃ (pool : PoolState) (x y a out : U256),
      ProductVenue.uniswapV2.reserves DecimalKit.whole pool = some (x, y) ∧
      ProductVenue.uniswapV2.quote DecimalKit.whole pool a = .ok out ∧ ¬ out < y :=
  ⟨.xyConstant 0 100 30, 0, 100, 1, 100, by decide +kernel⟩

end Venues

end Dambi.Asset
