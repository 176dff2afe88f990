import Dambi.Asset.Amm.Pools
import Dambi.Asset.Token

/-!
# AMM actions

The reducers of `effect/amm`: swaps along a route of pools, liquidity that is
added and removed, fees that are collected and intent orders that are signed
and cancelled.
-/

namespace Dambi.Asset

open FixedWidth Fallible

/-! ## Venues -/

inductive BalancerPoolType where
  | weighted
  | stable
  | composableStable
  | metaStable
  | liquidityBootstrapping
  | linear

inductive AmmVenue where
  | uniswapV2 (chain : ChainId) (pool factory : Address)
  | uniswapV3 (chain : ChainId) (pool : Address) (feeTierBp : Unsigned 32)
  | uniswapV4 (chain : ChainId) (poolId : String) (poolManager hooks : Address)
  | sushiV2 (chain : ChainId) (pool : Address)
  | curveV1 (chain : ChainId) (pool : Address) (nCoins : Unsigned 8) (isMeta : Bool)
  | curveV2 (chain : ChainId) (pool : Address)
  | balancerV2 (chain : ChainId) (vault : Address) (poolId : String) (poolType : BalancerPoolType)
  | balancerV3 (chain : ChainId) (poolId : String) (poolType : BalancerPoolType)
  | traderJoeLb (chain : ChainId) (pair : Address) (binStep : Unsigned 16)
  | maverickV2 (chain : ChainId) (pool : Address)
  | aaveGsm (chain : ChainId) (gsm : Address)
  | aggregatorRoute (chain : ChainId) (router : Address) (routeHash : String)
    (executor : Option Address)

namespace AmmVenue

/-- `venue_tag`, which each reducer defines alike. -/
def tag : AmmVenue → String
  | uniswapV2 .. => "uniswap_v2"
  | uniswapV3 .. => "uniswap_v3"
  | uniswapV4 .. => "uniswap_v4"
  | sushiV2 .. => "sushi_v2"
  | curveV1 .. => "curve_v1"
  | curveV2 .. => "curve_v2"
  | balancerV2 .. => "balancer_v2"
  | balancerV3 .. => "balancer_v3"
  | traderJoeLb .. => "trader_joe_lb"
  | maverickV2 .. => "maverick_v2"
  | aaveGsm .. => "aave_gsm"
  | aggregatorRoute .. => "aggregator_route"

def chain : AmmVenue → ChainId
  | uniswapV2 chain .. => chain
  | uniswapV3 chain .. => chain
  | uniswapV4 chain .. => chain
  | sushiV2 chain .. => chain
  | curveV1 chain .. => chain
  | curveV2 chain .. => chain
  | balancerV2 chain .. => chain
  | balancerV3 chain .. => chain
  | traderJoeLb chain .. => chain
  | maverickV2 chain .. => chain
  | aaveGsm chain .. => chain
  | aggregatorRoute chain .. => chain

def isPooled : AmmVenue → Bool
  | uniswapV2 .. => true
  | sushiV2 .. => true
  | curveV1 .. => true
  | curveV2 .. => true
  | balancerV2 .. => true
  | balancerV3 .. => true
  | maverickV2 .. => true
  | _ => false

def isConcentrated : AmmVenue → Bool
  | uniswapV3 .. => true
  | uniswapV4 .. => true
  | traderJoeLb .. => true
  | _ => false

end AmmVenue

def requirePooledVenue (venue : AmmVenue) (action : String) : ReducerResult Unit :=
  if venue.isPooled then .ok () else unsupported action venue.tag

def requireConcentratedVenue (venue : AmmVenue) (action : String) : ReducerResult Unit :=
  if venue.isConcentrated then .ok () else unsupported action venue.tag

/-! ## Swaps -/

inductive SwapDirection where
  | exactInput (amountIn minAmountOut : U256)
  | exactOutput (maxAmountIn amountOut : U256)

structure SwapParams where
  tokenIn : TokenRef
  tokenOut : Option TokenRef
  direction : SwapDirection
  recipient : Address
  slippageBp : Unsigned 32

inductive AggregatorKind where
  | oneInchV5
  | oneInchV6
  | zeroExV2
  | paraswapV5
  | paraswapV6
  | kyberswapV2
  | odos
  | okxAggregator
  | uniswapUniversalRouter
  | cowSwapSolver
  | custom (name : String)

namespace AggregatorKind

/-- The `Debug` form. -/
def debug : AggregatorKind → String
  | oneInchV5 => "OneInchV5"
  | oneInchV6 => "OneInchV6"
  | zeroExV2 => "ZeroExV2"
  | paraswapV5 => "ParaswapV5"
  | paraswapV6 => "ParaswapV6"
  | kyberswapV2 => "KyberswapV2"
  | odos => "Odos"
  | okxAggregator => "OkxAggregator"
  | uniswapUniversalRouter => "UniswapUniversalRouter"
  | cowSwapSolver => "CowSwapSolver"
  | custom name => "Custom \x7b name: " ++ quoted name ++ " \x7d"

/-- The key of the table of known executors. -/
def discriminator : AggregatorKind → Option String
  | oneInchV6 => some "one_inch_v6"
  | _ => none

end AggregatorKind

structure AggregatorMeta where
  aggregator : AggregatorKind
  router : Address
  executor : Option Address
  rawCalldataHash : String
  permitBundled : Bool
  referrer : Option Address
  referrerFeeBp : Unsigned 32

structure RouteHop where
  tokenIn : TokenRef
  tokenOut : TokenRef
  venue : AmmVenue
  poolState : PoolState
  effectiveFeeBp : Unsigned 32
  estimatedOut : U256

structure RoutePath where
  shareBp : Unsigned 32
  hops : List RouteHop
  estimatedOut : U256

structure SwapRoute where
  paths : List RoutePath
  aggregator : Option AggregatorMeta

structure SwapLiveInputs where
  route : LiveField SwapRoute
  expectedAmountOut : LiveField U256
  priceImpactBp : LiveField (Unsigned 32)
  gasEstimate : LiveField U256

structure SwapAction where
  venue : AmmVenue
  params : SwapParams
  liveInputs : SwapLiveInputs

def knownSafeExecutors : List (String × List Address) :=
  [("one_inch_v6", [0x111111125421ca6dc452d289314280a0f8842a65])]

def permitBundleDefaultTtl : Nat := 3600

def verifyExecutor (info : AggregatorMeta) : ReducerResult Unit :=
  match info.executor with
  | none => .ok ()
  | some executor =>
    let unknown :=
      s!"unknown executor {lowercaseHex executor} for aggregator {info.aggregator.debug}"
    match info.aggregator with
    | .custom _ => broken
      s!"custom aggregator executor verification not supported (executor {lowercaseHex executor})"
    | _ => do
      let key ← orBroken info.aggregator.discriminator unknown
      let allowed ← orBroken (knownSafeExecutors.lookup key)
        s!"no executor allow-list entry for aggregator {info.aggregator.debug}"
      ensure (executor ∈ allowed) unknown

def isAsciiHexdigit (c : Char) : Bool :=
  ('0' ≤ c && c ≤ '9') || ('a' ≤ c && c ≤ 'f') || ('A' ≤ c && c ≤ 'F')

def verifyCalldataHash (info : AggregatorMeta) : ReducerResult Unit := do
  let h := info.rawCalldataHash
  ensure (Text.startsWith h "0x" = true ∧ h.utf8ByteSize = 66)
    s!"invalid raw_calldata_hash format: expected 0x + 64 hex chars, got {quoted h}"
  ensure ((h.toList.drop 2).all isAsciiHexdigit = true)
    s!"invalid raw_calldata_hash format: non-hex digit in {quoted h}"

/-- The amount a swap may take from the wallet. -/
def SwapDirection.totalAmountIn : SwapDirection → U256
  | exactInput amountIn _ => amountIn
  | exactOutput maxAmountIn _ => maxAmountIn

section Swaps

variable {D : Type} (kit : DecimalKit D) (state : WalletState) (ctx : EvalContext)

def applyPermitBundle (delta : StateDelta) (info : AggregatorMeta) (swap : SwapAction) :
    ReducerResult StateDelta :=
  if info.permitBundled then
    upsertPermit2Allowance delta swap.params.tokenIn (info.executor.getD info.router)
      swap.params.direction.totalAmountIn (.saturate (ctx.now.val + permitBundleDefaultTtl))
  else .ok delta

/-- What one hop pays out for what it is paid. -/
def quoteHop (hop : RouteHop) (hopIn : U256) : ReducerResult U256 :=
  match hop.venue with
  | .uniswapV2 .. => UniswapV2.quoteSwapHop hop.poolState hopIn
  | .sushiV2 .. => UniswapV2.quoteSwapHop hop.poolState hopIn
  | .uniswapV3 .. => UniswapV3.quoteSwapHop hop.poolState hopIn
  | .uniswapV4 _ _ _ hooks =>
    if hooks ≠ 0 then unsupported "swap" "uniswap_v4_with_hooks"
    else UniswapV4.quoteSwapHop hop.poolState hopIn
  | .curveV1 .. => CurveV1.quoteSwapHop hop.poolState hopIn
  | .curveV2 .. => CurveV2.quoteSwapHop hop.poolState hopIn
  | .balancerV2 .. => BalancerV2.quoteSwapHop hop.poolState hopIn
  | .balancerV3 .. => BalancerV2.quoteSwapHop hop.poolState hopIn
  | .traderJoeLb .. => TraderJoeLb.quoteSwapHop hop.poolState hopIn
  | .maverickV2 .. => MaverickV2.quoteSwapHop kit hop.poolState hopIn
  | .aggregatorRoute .. => unsupported "swap" "aggregator_route"
  | .aaveGsm .. => unsupported "swap" "aave_gsm"

def quotePath (totalAmountIn : U256) (path : RoutePath) : ReducerResult U256 := do
  let numerator ← mulOr totalAmountIn (.from path.shareBp) "swap: path_amount_in numerator overflow"
  let pathAmountIn ← divide numerator 10000
  path.hops.foldlM (fun hopIn hop => quoteHop kit hop hopIn) pathAmountIn

/-- What a route pays out over all of its paths. -/
def quoteRoute (totalAmountIn : U256) (route : SwapRoute) : ReducerResult U256 :=
  route.paths.foldlM (fun totalOut path => do
    return totalOut.saturatingAdd (← quotePath kit totalAmountIn path)) 0

def checkSlippage (totalOut : U256) : SwapDirection → ReducerResult Unit
  | .exactInput _ minAmountOut =>
    ensure (minAmountOut ≤ totalOut) s!"swap slippage: out {totalOut} < min {minAmountOut}"
  | .exactOutput _ _ => .ok ()

/-- What an aggregator route checks and grants before the swap. -/
def aggregatorPrelude (a : SwapAction) : ReducerResult StateDelta :=
  match a.venue, a.liveInputs.route.value.aggregator with
  | .aggregatorRoute .., some info => do
    verifyExecutor info
    verifyCalldataHash info
    applyPermitBundle ctx .new info a
  | _, _ => .ok .new

/-- `Option` credit: a swap without a known output token only debits. -/
def creditOut (delta : StateDelta) (tokenOut : Option TokenRef) (amount : U256) :
    ReducerResult StateDelta :=
  match tokenOut with
  | some token => credit state delta token.key amount
  | none => .ok delta

def SwapAction.apply (a : SwapAction) : ReducerResult StateDelta := do
  let totalAmountIn := a.params.direction.totalAmountIn
  let totalOut ← quoteRoute kit totalAmountIn a.liveInputs.route.value
  checkSlippage totalOut a.params.direction
  let delta ← aggregatorPrelude ctx a
  let delta ← debit state delta a.params.tokenIn.key totalAmountIn
  creditOut state delta a.params.tokenOut totalOut

end Swaps

/-! ## Liquidity -/

inductive AddLiquidityParams where
  | pooled (tokens : List (TokenRef × U256)) (minLpOut : U256) (recipient : Address)
  | concentratedMint (poolPair : TokenRef × TokenRef) (amountDesired amountMin : U256 × U256)
    (range : RangeSpec) (recipient : Address)
  | concentratedIncrease (nftKey : TokenKey) (amountDesired amountMin : U256 × U256)

structure AddLiquidityAction where
  venue : AmmVenue
  params : AddLiquidityParams

inductive RemoveLiquidityParams where
  | pooledBurn (lpToken : TokenRef) (lpAmount : U256) (minOut : List (TokenRef × U256))
    (recipient : Address)
  | concentratedDecrease (nftKey : TokenKey) (liquidityBurn : Unsigned 128)
    (amountMin : U256 × U256)
  | concentratedBurn (nftKey : TokenKey)
  | pooledBurnOneCoin (lpToken : TokenRef) (lpAmount : U256) (tokenOut : TokenRef) (minOut : U256)
    (recipient : Address)
  | pooledBurnImbalance (lpToken : TokenRef) (maxLpBurn : U256)
    (amountsOut : List (TokenRef × U256)) (recipient : Address)

structure RemoveLiquidityAction where
  venue : AmmVenue
  params : RemoveLiquidityParams
  feesOwed : LiveField (List (TokenRef × U256))

structure CollectFeesAction where
  venue : AmmVenue
  nftKey : TokenKey
  recipient : Address
  feesOwed : LiveField (List (TokenRef × U256))

def hexNibble (c : UInt8) : ReducerResult Nat :=
  let n := c.toNat
  if 48 ≤ n ∧ n ≤ 57 then .ok (n - 48)
  else if 97 ≤ n ∧ n ≤ 102 then .ok (n - 97 + 10)
  else if 65 ≤ n ∧ n ≤ 70 then .ok (n - 65 + 10)
  else
    let digits := Nat.toDigits 16 n
    broken ("balancer pool_id contains non-hex byte: 0x" ++
      String.ofList (List.replicate (2 - digits.length) '0' ++ digits))

def poolIdToAddress (poolId : String) : ReducerResult Address := do
  let stripped := ((Text.stripStart poolId "0x").getD poolId).toUTF8.toList
  ensure (40 ≤ stripped.length)
    s!"balancer pool_id too short to extract LP address: {poolId}"
  let value ← (stripped.take 40).foldlM (fun value c => do return 16 * value + (← hexNibble c)) 0
  return .ofNat value

def pooledLpKey : AmmVenue → ReducerResult TokenKey
  | .uniswapV2 chain pool _ => .ok (.erc20 chain pool)
  | .sushiV2 chain pool => .ok (.erc20 chain pool)
  | .curveV1 chain pool _ _ => .ok (.erc20 chain pool)
  | .curveV2 chain pool => .ok (.erc20 chain pool)
  | .maverickV2 chain pool => .ok (.erc20 chain pool)
  | .balancerV2 chain _ poolId _ => do return .erc20 chain (← poolIdToAddress poolId)
  | .balancerV3 chain poolId _ => do return .erc20 chain (← poolIdToAddress poolId)
  | venue => unsupported "add_liquidity" venue.tag

def pooledLpKindHint (underlyings : List TokenRef) : TokenKind :=
  .lpShare ⟨{ name := "unknown" }, none, none, none⟩ underlyings .fungible (.pooled none)

section Liquidity

variable (state : WalletState)

def concentratedUnderlyings (nftKey : TokenKey) : ReducerResult (TokenRef × TokenRef) := do
  let holding ← orFail (state.tokens.lookup nftKey) (.tokenNotFound nftKey)
  match holding.kind with
  | .lpShare _ underlyings _ (.concentrated _ _) =>
    match underlyings with
    | [tokenA, tokenB] => return (tokenA, tokenB)
    | _ =>
      broken s!"concentrated LP {nftKey.debug} has {underlyings.length} underlyings, expected 2"
  | _ =>
    broken (s!"concentrated lifecycle action targeted {nftKey.debug} but holding is not " ++
      "LpShare(Concentrated)")

/-- `raw_credit`: a credit of a token that the wallet need not hold yet. -/
def rawCredit (delta : StateDelta) (key : TokenKey) (amount : U256) : StateDelta :=
  delta.pushToken (.balanceDelta key (u256ToSignedSaturating amount))

def creditShares (delta : StateDelta) (lpKey : TokenKey) (minLpOut : U256)
    (underlyings : List TokenRef) : ReducerResult StateDelta :=
  match state.tokens.lookup lpKey with
  | some _ => credit state delta lpKey minLpOut
  | none =>
    .ok (rawCredit (delta.pushToken (.mint lpKey (pooledLpKindHint underlyings))) lpKey minLpOut)

def AddLiquidityAction.apply (a : AddLiquidityAction) : ReducerResult StateDelta :=
  match a.params with
  | .pooled tokens minLpOut _ => do
    ensure (tokens ≠ []) "add_liquidity pooled: tokens list is empty"
    let delta ← debitAll state .new tokens
    let lpKey ← pooledLpKey a.venue
    creditShares state delta lpKey minLpOut (tokens.map (·.1))
  | .concentratedMint (token₀, token₁) (desired₀, desired₁) _ _ _ => do
    requireConcentratedVenue a.venue "add_liquidity"
    forM [token₀, token₁] fun token => ensure (token.key.chain = a.venue.chain)
      (s!"concentrated mint pool_pair token {token.key.debug} chain mismatch vs venue chain " ++
        s!"ChainId({quoted a.venue.chain.text})")
    debitAll state .new [(token₀, desired₀), (token₁, desired₁)]
  | .concentratedIncrease nftKey (desired₀, desired₁) _ => do
    requireConcentratedVenue a.venue "add_liquidity"
    let (tokenA, tokenB) ← concentratedUnderlyings state nftKey
    debitAll state .new [(tokenA, desired₀), (tokenB, desired₁)]

/-- Only a tick range tells its liquidity. -/
def concentratedLiquidityIsZero : RangeSpec → Bool
  | .tick _ _ liquidity => liquidity = 0
  | _ => false

/-- A position of concentrated liquidity that is empty. -/
def checkBurnable (nftKey : TokenKey) : ReducerResult Unit := do
  let holding ← orFail (state.tokens.lookup nftKey) (.tokenNotFound nftKey)
  match holding.kind with
  | .lpShare _ _ _ (.concentrated range _) =>
    ensure (concentratedLiquidityIsZero range = true)
      (s!"remove_liquidity concentrated_burn: NFT {nftKey.debug} has non-zero liquidity — call " ++
        "decrease+collect first")
  | _ =>
    broken s!"concentrated_burn targeted {nftKey.debug} but holding is not LpShare(Concentrated)"

def burnShares (a : RemoveLiquidityAction) (lpToken : TokenRef) (lpAmount : U256)
    (out : List (TokenRef × U256)) : ReducerResult StateDelta := do
  requirePooledVenue a.venue "remove_liquidity"
  let delta ← debit state .new lpToken.key lpAmount
  let delta ← creditAll state delta out
  creditNonzero state delta a.feesOwed.value

def RemoveLiquidityAction.apply (a : RemoveLiquidityAction) : ReducerResult StateDelta :=
  match a.params with
  | .pooledBurn lpToken lpAmount minOut _ => burnShares state a lpToken lpAmount minOut
  | .pooledBurnOneCoin lpToken lpAmount tokenOut minOut _ =>
    burnShares state a lpToken lpAmount [(tokenOut, minOut)]
  | .pooledBurnImbalance lpToken maxLpBurn amountsOut _ =>
    burnShares state a lpToken maxLpBurn amountsOut
  | .concentratedDecrease nftKey liquidityBurn _ => do
    requireConcentratedVenue a.venue "remove_liquidity"
    let _ ← concentratedUnderlyings state nftKey
    ensure (liquidityBurn ≠ 0) "remove_liquidity concentrated_decrease: liquidity_burn is zero"
    return .new
  | .concentratedBurn nftKey => do
    requireConcentratedVenue a.venue "remove_liquidity"
    checkBurnable state nftKey
    transferNft state .new nftKey 0 none

def CollectFeesAction.apply (a : CollectFeesAction) : ReducerResult StateDelta := do
  requireConcentratedVenue a.venue "collect_fees"
  let _ ← concentratedUnderlyings state a.nftKey
  creditNonzero state .new a.feesOwed.value

end Liquidity

/-! ## Intent orders -/

inductive IntentVenue where
  | uniswapX (chain : ChainId) (reactor : Address)
  | cowSwap (chain : ChainId) (settlement : Address)
  | oneInchFusion (chain : ChainId)
  | bebop (chain : ChainId)
  | oneInchLimitOrder (chain : ChainId) (verifyingContract : Address)

structure SignIntentOrderAction where
  venue : IntentVenue
  sell : TokenRef
  buy : TokenRef
  sellAmount : U256
  buyMin : U256
  orderKind : OrderKind
  recipient : Address
  validUntil : Time

structure CancelIntentOrderAction where
  venue : IntentVenue
  orderHash : String
  signature : Option String

structure PreSignIntentOrderAction where
  venue : IntentVenue
  orderHash : String
  signed : Bool

/-- The venue as a pending order records it, and the contract that may spend. -/
def projectVenue : IntentVenue → VenueRef × Address
  | .uniswapX chain reactor => (⟨"uniswap_x", some chain⟩, reactor)
  | .cowSwap chain settlement => (⟨"cow_swap", some chain⟩, settlement)
  | .oneInchFusion chain => (⟨"one_inch_fusion", some chain⟩, 0)
  | .bebop chain => (⟨"bebop", some chain⟩, 0)
  | .oneInchLimitOrder chain verifyingContract =>
    (⟨"one_inch_limit_order", some chain⟩, verifyingContract)

def pendingIdForIntent (venueName sellHex buyHex : String) (sellAmount : U256) (validUntil : Time) :
    String :=
  s!"intent:{venueName}:{sellHex}:{buyHex}:{sellAmount}:{validUntil}"

def contractHex (key : TokenKey) : String := key.contract.elim "native" lowercaseHex

def SignIntentOrderAction.apply (a : SignIntentOrderAction) (ctx : EvalContext) :
    ReducerResult StateDelta :=
  let (venueRef, spender) := projectVenue a.venue
  .ok <| StateDelta.new.pushPending <| .add
    { id := pendingIdForIntent venueRef.name (contractHex a.sell.key) (contractHex a.buy.key)
        a.sellAmount a.validUntil
      kind := .offchainLimitOrder venueRef a.sell a.buy a.sellAmount a.buyMin a.orderKind
      commitment := .permitCap a.sell spender a.sellAmount
      fillEffect := .new
      lifecycle := { status := .active, validUntil := some a.validUntil, nonce := none }
      sync := .userSupplied
      signedAt := ctx.now
      signaturePayload := [] }

def CancelIntentOrderAction.apply (a : CancelIntentOrderAction) : ReducerResult StateDelta :=
  .ok (StateDelta.new.pushPending (.remove a.orderHash .cancelled))

def PreSignIntentOrderAction.apply (a : PreSignIntentOrderAction) : ReducerResult StateDelta :=
  if a.signed then .ok .new
  else .ok (StateDelta.new.pushPending (.remove a.orderHash .cancelled))

/-! ## Dispatch -/

/-- The actions of the domain. Swaps at a stability module and settlements are not simulated, so
they carry no data here. -/
inductive AmmAction where
  | swap (a : SwapAction)
  | gsmSwap
  | addLiquidity (a : AddLiquidityAction)
  | removeLiquidity (a : RemoveLiquidityAction)
  | collectFees (a : CollectFeesAction)
  | signIntentOrder (a : SignIntentOrderAction)
  | settleIntentOrder
  | cancelIntentOrder (a : CancelIntentOrderAction)
  | preSignIntentOrder (a : PreSignIntentOrderAction)

def AmmAction.apply {D : Type} (kit : DecimalKit D) (state : WalletState) (ctx : EvalContext) :
    AmmAction → ReducerResult StateDelta
  | .swap a => a.apply kit state ctx
  | .gsmSwap => .ok .new
  | .addLiquidity a => a.apply state
  | .removeLiquidity a => a.apply state
  | .collectFees a => a.apply state
  | .signIntentOrder a => a.apply ctx
  | .settleIntentOrder => .ok .new
  | .cancelIntentOrder a => a.apply
  | .preSignIntentOrder a => a.apply

end Dambi.Asset
