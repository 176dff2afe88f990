import Dambi.Asset.Numbers

/-!
# Pool quotes

The amount a pool pays out for an amount paid in, one function per venue of
`effect/amm`: constant products, concentrated liquidity, StableSwap with its
Newton iterations and their simplifications. Every product and sum is checked.
-/

namespace Dambi.Asset

open FixedWidth Fallible

structure TickSnapshot where
  tick : Signed 31
  liquidityNet : String

structure BinState where
  id : Unsigned 32
  reserveIn : U256
  reserveOut : U256

inductive PoolState where
  | xyConstant (reserveIn reserveOut : U256) (feeBp : Unsigned 32)
  | concentrated (sqrtPriceX96 : U256) (tick : Signed 31) (liquidity : Unsigned 128)
    (ticks : List TickSnapshot)
  | stableV1 (balances : List U256) (a feeBp : Unsigned 32)
  | cryptoswap (balances priceScale : List U256) (aGamma : U256) (feeBp : Unsigned 32)
  | weighted (balances : List U256) (weights : List (Unsigned 64)) (feeBp : Unsigned 32)
  | stable (balances : List U256) (amp feeBp : Unsigned 32)
  | liquidityBook (activeBinId : Unsigned 32) (bins : List BinState) (variableFeeBp : Unsigned 32)
  | maverick (mode : String) (raw : Json)
  | custom (protocol : String) (raw : Json)

/-- The check that a fee stays below the whole, and what the fee leaves of 10 000. -/
def feeMultiplier (label : String) (feeBp : Unsigned 32) : ReducerResult U256 := do
  ensure (feeBp.val < 10000) s!"{label} {feeBp} out of range (must be < 10000)"
  return .ofNat (10000 - feeBp.val)

/-! ## Constant products -/

namespace UniswapV2

def quoteSwapHop (pool : PoolState) (amountIn : U256) : ReducerResult U256 :=
  match pool with
  | .xyConstant reserveIn reserveOut feeBp => do
    let multiplier ← feeMultiplier "uniswap_v2 fee_bp" feeBp
    let amountInWithFee ← mulOr amountIn multiplier "uniswap_v2 amount_in_with_fee overflow"
    let numerator ← mulOr reserveOut amountInWithFee "uniswap_v2 numerator overflow"
    let denomBase ← mulOr reserveIn 10000 "uniswap_v2 denominator base overflow"
    let denominator ← addOr denomBase amountInWithFee "uniswap_v2 denominator overflow"
    ensure (denominator ≠ 0) "uniswap_v2 zero denominator (empty pool)"
    divide numerator denominator
  | _ => broken "non-XyConstant pool_state for uniswap_v2 swap"

end UniswapV2

/-- The quote shared by the venues that take the fee from the amount paid in and then keep the
product of the reserves. -/
def constantProduct (label : String) (reserveIn reserveOut multiplier amountIn : U256) :
    ReducerResult U256 := do
  let scaled ← mulOr amountIn multiplier (label ++ ": in-fee overflow")
  let amountInAfterFee ← divide scaled 10000
  let numerator ← mulOr reserveOut amountInAfterFee (label ++ ": numerator overflow")
  let denominator ← addOr reserveIn amountInAfterFee (label ++ ": denominator overflow")
  ensure (denominator ≠ 0) (label ++ ": zero denominator")
  divide numerator denominator

namespace TraderJoeLb

/-- Only the active bin is quoted. -/
def quoteSwapHop (pool : PoolState) (amountIn : U256) : ReducerResult U256 :=
  match pool with
  | .liquidityBook activeBinId bins variableFeeBp => do
    ensure (bins ≠ []) "trader_joe_lb: empty bins"
    let multiplier ← feeMultiplier "trader_joe_lb variable_fee_bp" variableFeeBp
    if amountIn = 0 then return 0
    let active ← orBroken (bins.find? (·.id = activeBinId))
      s!"trader_joe_lb: active_bin_id {activeBinId} not in bins"
    ensure (active.reserveIn ≠ 0 ∧ active.reserveOut ≠ 0) "trader_joe_lb: zero active-bin reserve"
    constantProduct "trader_joe_lb" active.reserveIn active.reserveOut multiplier amountIn
  | _ => broken "non-LiquidityBook pool_state for trader_joe_lb swap"

end TraderJoeLb

namespace MaverickV2

section Payload

variable {D : Type} (kit : DecimalKit D) (raw : Json) (key : String)

def pullU256 : ReducerResult U256 := do
  let s ← orBroken ((raw.get? key).bind Json.asStr)
    ("maverick_v2 raw payload: missing or non-string \x60" ++ key ++ "\x60")
  described ("maverick_v2 raw payload: bad \x60" ++ key ++ "\x60 U256") (kit.parseU256 s)

def pullU32 : ReducerResult (Unsigned 32) := do
  let n ← orBroken ((raw.get? key).bind Json.asU64)
    ("maverick_v2 raw payload: missing or non-number \x60" ++ key ++ "\x60")
  orBroken (Unsigned.ofNat? n) ("maverick_v2 raw payload: \x60" ++ key ++ "\x60 overflows u32")

end Payload

def quoteSwapHop {D : Type} (kit : DecimalKit D) (pool : PoolState) (amountIn : U256) :
    ReducerResult U256 :=
  match pool with
  | .maverick _ raw => do
    if amountIn = 0 then return 0
    let reserveIn ← pullU256 kit raw "reserve_in"
    let reserveOut ← pullU256 kit raw "reserve_out"
    let feeBp ← pullU32 raw "fee_bp"
    let multiplier ← feeMultiplier "maverick_v2 fee_bp" feeBp
    ensure (reserveIn ≠ 0 ∧ reserveOut ≠ 0) "maverick_v2: zero active-bin reserve"
    constantProduct "maverick_v2" reserveIn reserveOut multiplier amountIn
  | _ => broken "non-Maverick pool_state for maverick_v2 swap"

end MaverickV2

namespace CurveV2

def pricePrecision : U256 := .ofNat (10 ^ 18)

/-- The two-coin simplification: a constant product of the price-scaled balances. -/
def quoteSwapHop (pool : PoolState) (amountIn : U256) : ReducerResult U256 :=
  match pool with
  | .cryptoswap balances priceScale _ feeBp => do
    let (balance₀, balance₁) ← match balances with
      | [balance₀, balance₁] => .ok (balance₀, balance₁)
      | _ => broken s!"curve_v2 twocrypto simplification needs 2 coins, got {balances.length}"
    let price ← orBroken priceScale.head? "curve_v2: empty price_scale"
    ensure (price ≠ 0) "curve_v2: zero price_scale[0]"
    let _ ← feeMultiplier "curve_v2 fee_bp" feeBp
    if amountIn = 0 then return 0
    let xp₀ := balance₀
    let xp₁ ← divide (← mulOr balance₁ price "curve_v2: xp1 mul overflow") pricePrecision
    ensure (xp₀ ≠ 0 ∧ xp₁ ≠ 0) "curve_v2: zero scaled balance"
    let numerator ← mulOr xp₁ amountIn "curve_v2: numerator overflow"
    let denominator ← addOr xp₀ amountIn "curve_v2: denominator overflow"
    ensure (denominator ≠ 0) "curve_v2: zero denominator"
    let dyScaled ← divide numerator denominator
    let dyPreFee ← divide (← mulOr dyScaled pricePrecision "curve_v2: dy descale overflow") price
    let feeAmt ← divide (← mulOr dyPreFee (.from feeBp) "curve_v2: fee numerator overflow") 10000
    subOr dyPreFee feeAmt "curve_v2: dy - fee underflow"
  | _ => broken "non-Cryptoswap pool_state for curve_v2 swap"

end CurveV2

/-! ## Concentrated liquidity -/

namespace UniswapV3

def q96 : U256 := .ofNat (2 ^ 96)

def concentratedSwapMath (pool : PoolState) (amountIn : U256) (protocolTag : String) :
    ReducerResult U256 :=
  match pool with
  | .concentrated sqrtPriceX96 _ liquidity _ => do
    ensure (liquidity ≠ 0) s!"{protocolTag} quote: zero active liquidity"
    ensure (sqrtPriceX96 ≠ 0) s!"{protocolTag} quote: zero sqrt_price_x96"
    let l := U256.from liquidity
    let sp := sqrtPriceX96
    if amountIn = 0 then return 0
    let numLSp ← mulOr l sp s!"{protocolTag} quote: L*sp overflow"
    let numerator ← mulOr numLSp q96 s!"{protocolTag} quote: L*sp*Q96 overflow"
    let denomLQ96 ← mulOr l q96 s!"{protocolTag} quote: L*Q96 overflow"
    let denomInSp ← mulOr amountIn sp s!"{protocolTag} quote: amount_in*sp overflow"
    let denominator ← addOr denomLQ96 denomInSp s!"{protocolTag} quote: denominator overflow"
    let sqrtPriceNext ← divide numerator denominator
    let spDrop ← subOr sp sqrtPriceNext
      s!"{protocolTag} quote: sqrt_price_next > sp (direction violation)"
    let outNum ← mulOr l spDrop s!"{protocolTag} quote: L*(sp-sp_next) overflow"
    divide outNum q96
  | _ => broken s!"non-Concentrated pool_state for {protocolTag} swap"

def quoteSwapHop (pool : PoolState) (amountIn : U256) : ReducerResult U256 :=
  concentratedSwapMath pool amountIn "uniswap_v3"

end UniswapV3

namespace UniswapV4

def quoteSwapHop (pool : PoolState) (amountIn : U256) : ReducerResult U256 :=
  UniswapV3.concentratedSwapMath pool amountIn "uniswap_v4"

end UniswapV4

/-! ## StableSwap -/

namespace CurveV1

def maxIter : Nat := 255

/-- `|a - b|`. -/
def distance (a b : U256) : U256 := if b < a then a.saturatingSub b else b.saturatingSub a

/-- `n` to the `n`. -/
def nPowN (label : String) (count : Nat) (n : U256) : ReducerResult U256 :=
  (List.range count).foldlM (fun p _ => mulOr p n (label ++ ": n^n overflow")) 1

section InvariantD

variable (balances : List U256) (n s ann : U256)

/-- One Newton round for `D`. -/
def stepD (d : U256) : ReducerResult U256 := do
  let dP ← balances.foldlM (fun dP x => do
    ensure (x ≠ 0) "curve_v1 D: zero balance"
    let denom ← mulOr x n "curve_v1 D: x*n overflow"
    divide (← mulOr dP d "curve_v1 D: D_P*D overflow") denom) d
  let annS ← mulOr ann s "curve_v1 D: Ann*S overflow"
  let nDp ← mulOr n dP "curve_v1 D: n*D_P overflow"
  let numPre ← addOr annS nDp "curve_v1 D: num_pre overflow"
  let num ← mulOr numPre d "curve_v1 D: numerator overflow"
  let annMinusOne ← subOr ann 1 "curve_v1 D: (Ann-1) underflow"
  let termA ← mulOr annMinusOne d "curve_v1 D: (Ann-1)*D overflow"
  let nPlusOne ← addOr n 1 "curve_v1 D: (n+1) overflow"
  let termB ← mulOr nPlusOne dP "curve_v1 D: (n+1)*D_P overflow"
  let denom ← addOr termA termB "curve_v1 D: denominator overflow"
  ensure (denom ≠ 0) "curve_v1 D: zero denominator"
  divide num denom

/-- The Newton iteration for `D`, for a number of rounds. -/
def newtonD : Nat → U256 → ReducerResult U256
  | 0, _ => broken "curve_v1 D: newton diverged"
  | rounds + 1, dPrev => do
    let d ← stepD balances n s ann dPrev
    if distance d dPrev ≤ 1 then return d else newtonD rounds d

end InvariantD

def computeD (balances : List U256) (a : Unsigned 32) : ReducerResult U256 := do
  ensure (balances.length < 2 ^ 32) "curve_v1 D: too many coins"
  ensure (balances.length ≠ 0) "curve_v1 D: empty balances"
  let n : U256 := .ofNat balances.length
  let s ← balances.foldlM (fun s b => addOr s b "curve_v1 D: S overflow") 0
  if s = 0 then return 0
  let power ← nPowN "curve_v1 D" balances.length n
  let ann ← mulOr (.from a) power "curve_v1 D: Ann overflow"
  newtonD balances n s ann maxIter s

/-- One Newton round for `y`. -/
def stepY (b c d y : U256) : ReducerResult U256 := do
  let ySq ← mulOr y y "curve_v1 y: y² overflow"
  let num ← addOr ySq c "curve_v1 y: num overflow"
  let twoY ← mulOr y 2 "curve_v1 y: 2y overflow"
  let twoYPlusB ← addOr twoY b "curve_v1 y: 2y+b overflow"
  let denom ← subOr twoYPlusB d "curve_v1 y: 2y+b-D underflow"
  ensure (denom ≠ 0) "curve_v1 y: zero denominator"
  divide num denom

/-- The Newton iteration for `y`, for a number of rounds. -/
def newtonY (b c d : U256) : Nat → U256 → ReducerResult U256
  | 0, _ => broken "curve_v1 y: newton diverged"
  | rounds + 1, yPrev => do
    let y ← stepY b c d yPrev
    if distance y yPrev ≤ 1 then return y else newtonY b c d rounds y

/-- The sum of the other balances and the constant of the quadratic equation, coin by coin. -/
def sumAndProduct (balances : List U256) (i j : Nat) (newX n d : U256) :
    ReducerResult (U256 × U256) :=
  balances.zipIdx.foldlM (fun (s', c) (b, k) =>
    if k = j then return (s', c)
    else do
      let x := if k = i then newX else b
      ensure (x ≠ 0) "curve_v1 y: zero x_k"
      let s' ← addOr s' x "curve_v1 y: S' overflow"
      let denom ← mulOr x n "curve_v1 y: x_k*n overflow"
      let c ← divide (← mulOr c d "curve_v1 y: c*D overflow") denom
      return (s', c)) (0, d)

def computeY (balances : List U256) (i j : Nat) (newX : U256) (a : Unsigned 32) (d : U256) :
    ReducerResult U256 := do
  ensure (balances.length < 2 ^ 32) "curve_v1 y: too many coins"
  ensure (i < balances.length ∧ j < balances.length ∧ i ≠ j)
    s!"curve_v1 y: bad indices (i={i}, j={j}, n={balances.length})"
  let n : U256 := .ofNat balances.length
  let power ← nPowN "curve_v1 y" balances.length n
  let ann ← mulOr (.from a) power "curve_v1 y: Ann overflow"
  ensure (ann ≠ 0) "curve_v1 y: zero Ann"
  let (s', c) ← sumAndProduct balances i j newX n d
  let denomFinal ← mulOr ann n "curve_v1 y: Ann*n overflow"
  let c ← divide (← mulOr c d "curve_v1 y: c*D overflow") denomFinal
  let b ← addOr s' (← divide d ann) "curve_v1 y: b overflow"
  newtonY b c d maxIter d

def firstTwo (message : String) : List U256 → ReducerResult (U256 × U256)
  | balance₀ :: balance₁ :: _ => .ok (balance₀, balance₁)
  | balances => broken s!"{message}, got {balances.length}"

def quoteSwapHop (pool : PoolState) (amountIn : U256) : ReducerResult U256 :=
  match pool with
  | .stableV1 balances a feeBp => do
    let (balance₀, balance₁) ← firstTwo "curve_v1 needs >= 2 coins" balances
    let _ ← feeMultiplier "curve_v1 fee_bp" feeBp
    if amountIn = 0 then return 0
    let d ← computeD balances a
    let newX ← addOr balance₀ amountIn "curve_v1: x_i + amount_in overflow"
    let newY ← computeY balances 0 1 newX a d
    let newYMinusOne ← subOr newY 1 "curve_v1: new_y < 1 (underflow)"
    let dyPreFee ← subOr balance₁ newYMinusOne "curve_v1: balance[j] < new_y (no out)"
    let feeAmt ← divide (← mulOr dyPreFee (.from feeBp) "curve_v1: fee numerator overflow") 10000
    subOr dyPreFee feeAmt "curve_v1: dy - fee underflow"
  | _ => broken "non-StableV1 pool_state for curve_v1 swap"

end CurveV1

namespace BalancerV2

def quoteWeighted (balances : List U256) (weights : List (Unsigned 64)) (feeBp : Unsigned 32)
    (amountIn : U256) : ReducerResult U256 := do
  ensure (2 ≤ balances.length ∧ 2 ≤ weights.length)
    s!"balancer_v2 weighted: needs >= 2 coins/weights, got {balances.length}/{weights.length}"
  ensure (balances.length = weights.length)
    ("balancer_v2 weighted: balances/weights length mismatch " ++
      s!"({balances.length} != {weights.length})")
  let multiplier ← feeMultiplier "balancer_v2 weighted fee_bp" feeBp
  let balIn := balances.headD 0
  let balOut := (balances.drop 1).headD 0
  ensure (balIn ≠ 0 ∧ balOut ≠ 0) "balancer_v2 weighted: zero pool balance"
  let wIn := U256.from (weights.headD 0)
  let wOut := U256.from ((weights.drop 1).headD 0)
  ensure (wIn ≠ 0 ∧ wOut ≠ 0) "balancer_v2 weighted: zero weight"
  let amountInAfterFee ←
    divide (← mulOr amountIn multiplier "balancer_v2 weighted: in-fee overflow") 10000
  let numerInner ← mulOr amountInAfterFee wIn "balancer_v2 weighted: numer_inner overflow"
  let numerator ← mulOr balOut numerInner "balancer_v2 weighted: numerator overflow"
  let denomA ← mulOr balIn wOut "balancer_v2 weighted: denom_a overflow"
  let denominator ← addOr denomA numerInner "balancer_v2 weighted: denominator overflow"
  ensure (denominator ≠ 0) "balancer_v2 weighted: zero denominator"
  divide numerator denominator

def quoteStable (balances : List U256) (amp feeBp : Unsigned 32) (amountIn : U256) :
    ReducerResult U256 := do
  let (balance₀, balance₁) ← CurveV1.firstTwo "balancer_v2 stable: needs >= 2 coins" balances
  let multiplier ← feeMultiplier "balancer_v2 stable fee_bp" feeBp
  let amountInAfterFee ←
    divide (← mulOr amountIn multiplier "balancer_v2 stable: in-fee overflow") 10000
  let d ← CurveV1.computeD balances amp
  let newX ← addOr balance₀ amountInAfterFee "balancer_v2 stable: x_i + in overflow"
  let newY ← CurveV1.computeY balances 0 1 newX amp d
  let newYMinusOne ← subOr newY 1 "balancer_v2 stable: new_y < 1 underflow"
  subOr balance₁ newYMinusOne "balancer_v2 stable: bal[j] < new_y"

/-- Also the quote of `balancer_v3`. -/
def quoteSwapHop (pool : PoolState) (amountIn : U256) : ReducerResult U256 :=
  if amountIn = 0 then .ok 0
  else match pool with
    | .weighted balances weights feeBp => quoteWeighted balances weights feeBp amountIn
    | .stable balances amp feeBp => quoteStable balances amp feeBp amountIn
    | _ => broken "balancer_v2: only Weighted / Stable PoolState are wired today"

end BalancerV2

end Dambi.Asset
