import Dambi.Asset.Lending
import Dambi.Asset.Token

/-!
# Perpetual futures

The reducers of `effect/perp`. Order book venues only add a pending order; the
others move the collateral and change the position at once. Sizes, margins and
liquidation prices are computed in decimals.
-/

namespace Dambi.Asset

open FixedWidth Fallible

/-! ## Venues -/

inductive PerpVenue where
  | hyperliquid (chain : ChainId)
  | gmxV2 (chain : ChainId)
  | dyDxV4 (chain : ChainId)
  | vertex (chain : ChainId)
  | aevo (chain : ChainId)
  | drift (chain : ChainId)
  | jupiterPerps (chain : ChainId)
  | synthetix (chain : ChainId)
  | generic (chain : ChainId) (contract : Address)

namespace PerpVenue

/-- `venue_tag`. -/
def tag : PerpVenue → String
  | hyperliquid _ => "hyperliquid"
  | gmxV2 _ => "gmx_v2"
  | dyDxV4 _ => "dydx_v4"
  | vertex _ => "vertex"
  | aevo _ => "aevo"
  | drift _ => "drift"
  | jupiterPerps _ => "jupiter_perps"
  | synthetix _ => "synthetix"
  | generic _ _ => "generic_perp"

def chain : PerpVenue → ChainId
  | hyperliquid chain => chain
  | gmxV2 chain => chain
  | dyDxV4 chain => chain
  | vertex chain => chain
  | aevo chain => chain
  | drift chain => chain
  | jupiterPerps chain => chain
  | synthetix chain => chain
  | generic chain _ => chain

/-- `venue_ref`. -/
def ref (venue : PerpVenue) : VenueRef := ⟨venue.tag, some venue.chain⟩

def isOrderbook : PerpVenue → Bool
  | hyperliquid _ => true
  | aevo _ => true
  | dyDxV4 _ => true
  | _ => false

end PerpVenue

/-! ## Live inputs and actions -/

inductive SizeSpec where
  | baseAmount (amount : U256)
  | quoteAmount (amountUsd : U256)
  | leverageImplied (collateral : U256) (leverage : Decimal)
  | baseDecimal (amount : Decimal)

inductive TimeInForce where
  | gtc
  | ioc
  | fok
  | postOnly
  | gtd (stop : Time)

inductive StopOrderKind where
  | stopMarket
  | stopLimit
  | takeProfit
  | takeProfitLimit
deriving DecidableEq

structure OpenPerpLiveInputs where
  markPrice : LiveField Price
  availableOi : LiveField U256
  maxLeverage : LiveField Decimal
  maintenanceBp : LiveField (Unsigned 32)
  feeTakerBp : LiveField (Unsigned 32)
  /-- The free margin of the account, in dollars. -/
  freeMarginUsd : LiveField U256

structure OpenPerpAction where
  venue : PerpVenue
  market : MarketRef
  side : PerpSide
  size : SizeSpec
  leverage : Decimal
  collateral : TokenRef × U256
  marginMode : MarginMode
  reduceOnly : Bool
  liveInputs : OpenPerpLiveInputs

structure ClosePerpLiveInputs where
  markPrice : LiveField Price
  unrealizedPnlNow : LiveField I256
  fundingAccrued : LiveField I256
  feeBp : LiveField (Unsigned 32)

structure ClosePerpAction where
  positionId : PositionId
  size : Option SizeSpec
  liveInputs : ClosePerpLiveInputs

structure IncreasePerpAction where
  venue : PerpVenue
  positionId : PositionId
  size : SizeSpec
  addCollateral : Option (TokenRef × U256)
  markPrice : LiveField Price

structure DecreasePerpAction where
  venue : PerpVenue
  positionId : PositionId
  size : SizeSpec
  liveInputs : ClosePerpLiveInputs

structure AdjustMarginAction where
  positionId : Option PositionId
  delta : I256
  /-- The live inputs, of which only the free margin is read. -/
  freeMarginAfter : Option (LiveField U256)

structure ChangeLeverageLiveInputs where
  maxLeverage : LiveField Decimal
  affectedPositions : LiveField (List PositionId)
  newLiqPrices : LiveField (List (PositionId × Option Price))

structure ChangeLeverageAction where
  newLeverage : Decimal
  liveInputs : Option ChangeLeverageLiveInputs

structure ChangeMarginModeAction where
  newMode : MarginMode
  affectedPositions : LiveField (List PositionId)
  marginReallocation : LiveField (List (PositionId × U256))

inductive OrderType where
  | limit (price : Price) (timeInForce : TimeInForce)
  | stop (triggerPrice : Price) (orderKind : StopOrderKind) (limitPrice : Option Price)
  | twap (durationMinutes : Unsigned 32) (randomize : Bool)

structure PlaceOrderLiveInputs where
  markPrice : LiveField Price
  bestBidAsk : LiveField (Price × Price)
  openOrdersCount : LiveField (Unsigned 32)

structure PlaceOrderAction where
  venue : PerpVenue
  market : MarketRef
  side : PerpSide
  size : SizeSpec
  reduceOnly : Bool
  orderType : OrderType
  liveInputs : Option PlaceOrderLiveInputs

/-- `CancelOrderAction` of the domain. -/
structure CancelPerpOrderAction where
  orderId : String

structure ClaimFundingAction where
  claimable : LiveField (List (TokenRef × U256))

/-! ## Names -/

/-- `side_tag`. -/
def PerpSide.tag : PerpSide → String
  | .long => "long"
  | .short => "short"

/-- The `Debug` form. -/
def PerpSide.debug : PerpSide → String
  | .long => "Long"
  | .short => "Short"

/-- The `Debug` form. -/
def StopOrderKind.debug : StopOrderKind → String
  | .stopMarket => "StopMarket"
  | .stopLimit => "StopLimit"
  | .takeProfit => "TakeProfit"
  | .takeProfitLimit => "TakeProfitLimit"

variable (venue : PerpVenue) (market : String) (side : PerpSide)

def synthPositionId : String :=
  s!"{venue.tag}:{market}:{side.tag}"

def pendingIdForLimitOrder (price : Price) : String :=
  s!"limit:{venue.tag}:{market}:{side.tag}:{price.text}"

def pendingIdForStopOrder (kind : StopOrderKind) (trigger : Price) : String :=
  let kindName :=
    match kind with
    | .stopMarket => "stop_market"
    | .stopLimit => "stop_limit"
    | .takeProfit => "take_profit"
    | .takeProfitLimit => "take_profit_limit"
  s!"{kindName}:{venue.tag}:{market}:{side.tag}:{trigger.text}"

def pendingIdForTwapOrder (durationMinutes : Unsigned 32) : String :=
  s!"twap:{venue.tag}:{market}:{side.tag}:{durationMinutes}"

def perpOrderKindFromStop : StopOrderKind → PerpOrderKind
  | .stopMarket => .stopMarket
  | .stopLimit => .stopLimit
  | .takeProfitLimit => .stopLimit
  | .takeProfit => .takeProfit

/-! ## Sizes, margins and prices -/

section Math

variable {D : Type} (kit : DecimalKit D)

def decimalTruncToU256 (d : D) (label : String) : ReducerResult U256 := do
  ensure (kit.isSignNegative d = false) s!"{label}: expected non-negative, got {kit.toString d}"
  described s!"{label}: U256 parse of {truncText kit d} failed" (kit.parseU256Dec (truncText kit d))

def nonzeroMark (mark : Price) : ReducerResult D := do
  let markD ← parseDecimal kit mark
  ensure (kit.isZero markD = false) "resolve_size_base: mark price is zero"
  return markD

def resolveSizeBase (spec : SizeSpec) (mark : Price) : ReducerResult U256 :=
  match spec with
  | .baseAmount amount => .ok amount
  | .quoteAmount amountUsd => do
    let markD ← nonzeroMark kit mark
    let usd ← u256ToDecimal kit amountUsd
    decimalTruncToU256 kit (← operator (kit.div usd markD)) "size_base from QuoteAmount"
  | .leverageImplied collateral leverage => do
    let markD ← nonzeroMark kit mark
    let coll ← u256ToDecimal kit collateral
    let lev ← parseDecimal kit leverage
    let exposure ← operator (kit.mul coll lev)
    decimalTruncToU256 kit (← operator (kit.div exposure markD)) "size_base from LeverageImplied"
  | .baseDecimal _ => broken
    "resolve_size_base: BaseDecimal size is off-chain-only (no on-chain reducer support)"

def notionalUsd (sizeBase : U256) (mark : Price) : ReducerResult D := do
  let markD ← parseDecimal kit mark
  let size ← u256ToDecimal kit sizeBase
  operator (kit.mul size markD)

/-- `value * bp / 10_000`. -/
def basisPoints (value : D) (bp : Unsigned 32) : ReducerResult D := do
  operator (kit.div (← operator (kit.mul value (kit.ofU32 bp))) (kit.ofU32 10000))

variable (venueLabel : String) (a : OpenPerpAction)

def requiredInitialMarginCommon :
    ReducerResult U256 := do
  let live := a.liveInputs
  let mark ← parseDecimal kit live.markPrice.value
  ensure (kit.isZero mark = false) s!"{venueLabel}: mark price is zero"
  let leverage ← parseDecimal kit a.leverage
  ensure (kit.isZero leverage = false) s!"{venueLabel}: leverage is zero"
  let maxLev ← parseDecimal kit live.maxLeverage.value
  ensure (kit.isZero maxLev = true ∨ kit.lt maxLev leverage = false)
    s!"{venueLabel}: leverage {kit.toString leverage} exceeds venue max {kit.toString maxLev}"
  let sizeBase ← resolveSizeBase kit a.size live.markPrice.value
  let size ← u256ToDecimal kit sizeBase
  let notional ← operator (kit.mul size mark)
  let initial ← operator (kit.div notional leverage)
  let feeTimes ← operator (kit.mul (kit.ofU32 live.feeTakerBp.value) notional)
  let fee ← operator (kit.div feeTimes (kit.ofU32 10000))
  decimalTruncToU256 kit (← operator (kit.add initial fee))
    (venueLabel ++ "::required_initial_margin")

/-- `if d.is_sign_negative() { ZERO } else { d }`. -/
def floorZero (d : D) : D := if kit.isSignNegative d then kit.zero else d

def liquidationPriceSimple :
    ReducerResult (Option Price) := do
  let live := a.liveInputs
  let sizeBase ← resolveSizeBase kit a.size live.markPrice.value
  if sizeBase = 0 then return none
  let mark ← parseDecimal kit live.markPrice.value
  let size ← u256ToDecimal kit sizeBase
  let notional ← operator (kit.mul size mark)
  let maintenance ← basisPoints kit notional live.maintenanceBp.value
  let freeMargin ← u256ToDecimal kit live.freeMarginUsd.value
  ensure (kit.isZero size = false)
    s!"{venueLabel}: size_base resolved to zero (post-quote-check)"
  let buffer ← operator (kit.div (← operator (kit.sub freeMargin maintenance)) size)
  let liq ← operator (match a.side with
    | .long => kit.sub mark buffer
    | .short => kit.add mark buffer)
  return some (decimalToState kit (floorZero kit liq))

def liquidationPriceDeferred : ReducerResult (Option Price) :=
  unsupported "open_perp.liquidation_price"
    s!"{venueLabel} — deferred (requires venue subgraph state)"

/-- `dispatch_required_initial_margin`: every venue uses the common formula under its own name. -/
def dispatchRequiredInitialMargin : ReducerResult U256 :=
  requiredInitialMarginCommon kit a.venue.tag a

def dispatchLiquidationPrice : ReducerResult (Option Price) :=
  match a.venue with
  | .gmxV2 _ => liquidationPriceDeferred "gmx_v2"
  | .jupiterPerps _ => liquidationPriceDeferred "jupiter_perps"
  | .synthetix _ => liquidationPriceDeferred "synthetix"
  | venue => liquidationPriceSimple kit venue.tag a

/-- A liquidation price that is deferred is left out of the position. -/
def deferredToNone (price : ReducerResult (Option Price)) : ReducerResult (Option Price) :=
  match price with
  | .error (.error (.unsupportedProtocol action protocol)) =>
    if Text.contains protocol "deferred" then .ok none
    else .error (.error (.unsupportedProtocol action protocol))
  | price => price

end Math

/-! ## Reducers -/

section Reducers

variable {D : Type} (kit : DecimalKit D) (codec : PositionCodec) (state : WalletState)
  (ctx : EvalContext)

variable (action : String)

def perpOf (pid : PositionId) (position : Position) : ReducerResult PerpPosition :=
  match position.kind with
  | .perpPosition perp => .ok perp
  | _ => broken s!"{action}: position {pid} is not a PerpPosition"

/-- `if let PositionKind::PerpPosition(pp) = &mut p.kind`. -/
def mutatePerp (change : PerpPosition → PerpPosition) (p : Position) : Position :=
  match p.kind with
  | .perpPosition pp => { p with kind := .perpPosition (change pp) }
  | _ => p

/-- A value that a reducer has computed itself. -/
def suppliedField {α : Type} (value : α) : LiveField α where
  value := value
  source := .userSupplied
  syncedAt := ctx.now

variable (a : OpenPerpAction)

def newPerpPosition (sizeBase notional : U256) (liqPrice : Option Price) :
    Position where
  id := synthPositionId a.venue a.market.symbol a.side
  protocol := { name := a.venue.tag }
  chain := none
  kind := .perpPosition
    { venue := a.venue.ref
      market := a.market
      side := a.side
      sizeBase := sizeBase
      notionalUsd := notional
      collateral := [a.collateral]
      entryPrice := a.liveInputs.markPrice.value
      marginMode := a.marginMode
      markPrice :=
        { value := a.liveInputs.markPrice.value
          source := a.liveInputs.markPrice.source
          syncedAt := ctx.now }
      liqPrice := suppliedField ctx liqPrice
      unrealizedPnl := suppliedField ctx 0
      fundingOwed := suppliedField ctx 0
      leverage := suppliedField ctx a.leverage }
  primitivesSyncedAt := ctx.now
  primitivesSource := .userSupplied

/-- An order at a perp venue that has no deadline of its own unless one is given. -/
def perpOrder (id : PendingId) (kind : PendingKind) (commitment : AssetCommitment)
    (fillEffect : StateDelta) (validUntil : Option Time) : PendingTx where
  id := id
  kind := kind
  commitment := commitment
  fillEffect := fillEffect
  lifecycle := { status := .active, validUntil, nonce := none }
  sync := .userSupplied
  signedAt := ctx.now
  signaturePayload := []

def openingOrder (sizeBase requiredMargin : U256) (position : Position) :
    PendingTx :=
  perpOrder ctx s!"{a.venue.tag}:open:{position.id}"
    (.perpVenueOrder a.venue.ref a.market a.side sizeBase a.liveInputs.markPrice.value .limit
      a.reduceOnly)
    (.hardLock a.collateral.1 requiredMargin) (StateDelta.new.pushPosition (.opened position)) none

/-- The collateral leaves the wallet at once, unless the venue is an order book. -/
def debitMargin : ReducerResult StateDelta :=
  if a.venue.isOrderbook then .ok .new
  else debit state .new a.collateral.1.key a.collateral.2

def OpenPerpAction.apply : ReducerResult StateDelta := do
  let live := a.liveInputs
  let requiredMargin ← dispatchRequiredInitialMargin kit a
  ensure (requiredMargin ≤ live.freeMarginUsd.value)
    s!"open_perp: free_margin_usd {live.freeMarginUsd.value} < required_margin {requiredMargin}"
  let sizeBase ← resolveSizeBase kit a.size live.markPrice.value
  ensure (sizeBase ≤ live.availableOi.value)
    s!"open_perp: available_oi {live.availableOi.value} < size_base {sizeBase}"
  let liqPrice ← deferredToNone (dispatchLiquidationPrice kit a)
  let delta ← debitMargin state a
  let notionalDecimal ← notionalUsd kit sizeBase live.markPrice.value
  let notional ← described "open_perp: notional_usd U256 parse"
    (kit.parseU256Dec (truncText kit notionalDecimal))
  let position := newPerpPosition ctx a sizeBase notional liqPrice
  if a.venue.isOrderbook then
    return delta.pushPending (.add (openingOrder ctx a sizeBase requiredMargin position))
  else openPosition state delta position

/-- A cash flow into the wallet or out of it. -/
def settleCash (delta : StateDelta) (key : TokenKey) (cashDelta : I256) :
    ReducerResult StateDelta :=
  if cashDelta.isPositive then do
    credit state delta key (← absoluteAmount kit action cashDelta)
  else if cashDelta.isNegative then do
    debit state delta key (← absoluteAmount kit action cashDelta)
  else .ok delta

def firstCollateral (pid : PositionId) (perp : PerpPosition) : ReducerResult (TokenRef × U256) :=
  orBroken perp.collateral.head? s!"{action}: position {pid} has no collateral"

def closingCash (a : ClosePerpAction) (perp : PerpPosition) : ReducerResult I256 := do
  let live := a.liveInputs
  let notional ← notionalUsd kit perp.sizeBase live.markPrice.value
  let fee ← basisPoints kit notional live.feeBp.value
  let feeText := truncText kit fee
  let feeSigned ← described s!"close_perp: fee {feeText} overflow" (kit.parseI256Dec feeText)
  let net ← orBroken (live.unrealizedPnlNow.value.checkedSub feeSigned)
    "close_perp: cash_delta subtraction overflow"
  orBroken (net.checkedAdd live.fundingAccrued.value) "close_perp: cash_delta addition overflow"

def ClosePerpAction.apply (a : ClosePerpAction) : ReducerResult StateDelta := do
  ensure (a.size.isNone = true)
    "close_perp: partial close (size = Some) deferred — use DecreasePerpAction"
  let perp ← perpOf "close_perp" a.positionId (← findPosition state a.positionId)
  let cashDelta ← closingCash kit a perp
  let (collateralToken, lockedAmount) ← firstCollateral "close_perp" a.positionId perp
  let delta ← credit state .new collateralToken.key lockedAmount
  let delta ← settleCash kit state "close_perp: cash_delta abs U256 parse" delta
    collateralToken.key cashDelta
  return delta.pushPosition (.close a.positionId)

/-- The error of an order book venue, where positions change through orders. -/
def requireDirectVenue (action wanted orderFlag : String) (venue : PerpVenue) :
    ReducerResult Unit :=
  ensure (venue.isOrderbook = false)
    (s!"{action}: orderbook venue {venue.tag} requires PlaceOrderAction (with " ++
      s!"reduce_only={orderFlag}), not {wanted}")

def wholeNotional (size mark : D) : ReducerResult U256 := do
  let notional ← operator (kit.mul size mark)
  described (action ++ ": notional U256 parse") (kit.parseU256Dec (truncText kit notional))

/-- A size with the decimals that an increase computes from it. -/
structure IncreasedSize (D : Type) where
  size : U256
  sizeD : D
  mark : D
  /-- The entry price of the two sizes, weighted by them. -/
  entry : D

def increasedSize (a : IncreasePerpAction) (oldPerp : PerpPosition) :
    ReducerResult (IncreasedSize D) := do
  let deltaSize ← resolveSizeBase kit a.size a.markPrice.value
  ensure (deltaSize ≠ 0) "increase_perp: resolved Δsize is zero"
  let oldSize ← u256ToDecimal kit oldPerp.sizeBase
  let size ← addOr oldPerp.sizeBase deltaSize "increase_perp: size addition overflow"
  let sizeD ← u256ToDecimal kit size
  let oldEntry ← parseDecimal kit oldPerp.entryPrice
  let mark ← parseDecimal kit a.markPrice.value
  let old ← operator (kit.mul oldSize oldEntry)
  let added ← operator (kit.mul (← u256ToDecimal kit deltaSize) mark)
  let entry ← operator (kit.div (← operator (kit.add old added)) sizeD)
  return { size, sizeD, mark, entry }

variable (extra : Option (TokenRef × U256))

def withExtraCollateral (collateral : List (TokenRef × U256)) :
    List (TokenRef × U256) :=
  match extra with
  | none => collateral
  | some (token, amount) =>
    mergeFirst (·.1 = token) (fun (t, held) => (t, held.saturatingAdd amount)) (token, amount)
      collateral

def debitExtra : ReducerResult StateDelta :=
  match extra with
  | none => .ok .new
  | some (token, amount) => debit state .new token.key amount

def IncreasePerpAction.apply (a : IncreasePerpAction) : ReducerResult StateDelta := do
  requireDirectVenue "increase_perp" "IncreasePerpAction" "false" a.venue
  let oldPerp ← perpOf "increase_perp" a.positionId (← findPosition state a.positionId)
  let increased ← increasedSize kit a oldPerp
  let delta ← debitExtra state a.addCollateral
  let newNotional ← wholeNotional kit "increase_perp" increased.sizeD increased.mark
  upsertPerpPosition codec state delta a.positionId (mutatePerp fun pp =>
    { pp with
      sizeBase := increased.size
      notionalUsd := newNotional
      entryPrice := decimalToState kit increased.entry
      collateral := withExtraCollateral a.addCollateral pp.collateral })

/-- A part of a perp that is neither nothing nor all of it. -/
def decreasedBy (a : DecreasePerpAction) (oldPerp : PerpPosition) : ReducerResult U256 := do
  let deltaSize ← resolveSizeBase kit a.size a.liveInputs.markPrice.value
  ensure (deltaSize ≠ 0) "decrease_perp: resolved Δsize is zero"
  ensure (deltaSize ≤ oldPerp.sizeBase)
    s!"decrease_perp: Δsize {deltaSize} > open size_base {oldPerp.sizeBase}"
  ensure (deltaSize ≠ oldPerp.sizeBase)
    "decrease_perp: Δsize equals open size — use ClosePerpAction for full close"
  return deltaSize

/-- What decreasing a perp pays in cash, the part of its result less the fee and its funding, and
the mark price it is computed at. -/
def decreasingCash (a : DecreasePerpAction) (oldSize deltaSize : U256) :
    ReducerResult (I256 × D) := do
  let live := a.liveInputs
  let oldSizeD ← u256ToDecimal kit oldSize
  let deltaSizeD ← u256ToDecimal kit deltaSize
  let pnl ← described "decrease_perp: pnl parse"
    (kit.fromStrDec (toString live.unrealizedPnlNow.value))
  let realized ← operator (kit.div (← operator (kit.mul pnl deltaSizeD)) oldSizeD)
  let mark ← parseDecimal kit live.markPrice.value
  let notional ← operator (kit.mul deltaSizeD mark)
  let fee ← basisPoints kit notional live.feeBp.value
  let funding ← described "decrease_perp: funding parse"
    (kit.fromStrDec (toString live.fundingAccrued.value))
  let cash ← operator (kit.add (← operator (kit.sub realized fee)) funding)
  let cashText := truncText kit cash
  let cashDelta ← described s!"decrease_perp: cash_delta {cashText} overflow"
    (kit.parseI256Dec cashText)
  return (cashDelta, mark)

def DecreasePerpAction.apply (a : DecreasePerpAction) : ReducerResult StateDelta := do
  requireDirectVenue "decrease_perp" "DecreasePerpAction" "true" a.venue
  let oldPerp ← perpOf "decrease_perp" a.positionId (← findPosition state a.positionId)
  let deltaSize ← decreasedBy kit a oldPerp
  let (cashDelta, mark) ← decreasingCash kit a oldPerp.sizeBase deltaSize
  let (collateralToken, _) ← firstCollateral "decrease_perp" a.positionId oldPerp
  let delta ← settleCash kit state "decrease_perp: abs U256 parse" .new collateralToken.key
    cashDelta
  let newSize ← subOr oldPerp.sizeBase deltaSize "decrease_perp: size subtraction underflow"
  let newNotional ← wholeNotional kit "decrease_perp" (← u256ToDecimal kit newSize) mark
  upsertPerpPosition codec state delta a.positionId (mutatePerp fun pp =>
    { pp with sizeBase := newSize, notionalUsd := newNotional })

/-- `if let Some(first) = collateral.first_mut() { first.1 = amount }`. -/
def setFirstAmount (amount : U256) : List (TokenRef × U256) → List (TokenRef × U256)
  | [] => []
  | (token, _) :: rest => (token, amount) :: rest

def moveMargin (a : AdjustMarginAction) (freeAfter : U256) (key : TokenKey)
    (currentLocked amount : U256) : ReducerResult (StateDelta × U256) :=
  if a.delta.isPositive then do
    return (← debit state .new key amount, currentLocked.saturatingAdd amount)
  else if a.delta.isNegative then do
    ensure (freeAfter ≠ 0)
      "adjust_margin: withdrawal would leave zero free margin (liquidatable)"
    let left ← subOr currentLocked amount
      s!"adjust_margin: withdraw {amount} > locked {currentLocked}"
    return (← credit state .new key amount, left)
  else broken "adjust_margin: delta is zero (no-op)"

def AdjustMarginAction.apply (a : AdjustMarginAction) : ReducerResult StateDelta := do
  let freeAfter ← orFail a.freeMarginAfter (.missingField "adjust_margin.live_inputs")
  let pid ← orFail a.positionId (.missingField "adjust_margin.position_id")
  let perp ← perpOf "adjust_margin" pid (← findPosition state pid)
  let (collateralToken, currentLocked) ← firstCollateral "adjust_margin" pid perp
  let amount ← absoluteAmount kit "adjust_margin: delta U256 parse" a.delta
  let (delta, newAmount) ←
    moveMargin state a freeAfter.value collateralToken.key currentLocked amount
  upsertPerpPosition codec state delta pid (mutatePerp fun pp =>
    { pp with collateral := setFirstAmount newAmount pp.collateral })

def changeAffected (affected : List PositionId)
    (change : PositionId → PerpPosition → PerpPosition) : ReducerResult StateDelta :=
  affected.foldlM (fun delta pid => do
    let _ ← perpOf action pid (← findPosition state pid)
    upsertPerpPosition codec state delta pid (mutatePerp (change pid))) .new

def withLeverage (newLeverage : Decimal) (newLiq : Option (Option Price)) (pp : PerpPosition) :
    PerpPosition :=
  { pp with
    leverage := suppliedField ctx newLeverage
    liqPrice := newLiq.elim pp.liqPrice (suppliedField ctx) }

def ChangeLeverageAction.apply (a : ChangeLeverageAction) : ReducerResult StateDelta := do
  let live ← orFail a.liveInputs (.missingField "change_leverage.live_inputs")
  let newLev ← parseDecimal kit a.newLeverage
  let maxLev ← parseDecimal kit live.maxLeverage.value
  ensure (kit.isZero maxLev = true ∨ kit.lt maxLev newLev = false)
    s!"change_leverage: requested {kit.toString newLev} > max {kit.toString maxLev}"
  ensure (kit.isZero newLev = false) "change_leverage: leverage must be > 0"
  changeAffected codec state "change_leverage" live.affectedPositions.value fun pid =>
    withLeverage ctx a.newLeverage (live.newLiqPrices.value.lookup pid)

def withMarginMode (newMode : MarginMode) (newAmount : Option U256) (pp : PerpPosition) :
    PerpPosition :=
  { pp with
    marginMode := newMode
    collateral := newAmount.elim pp.collateral (setFirstAmount · pp.collateral) }

def ChangeMarginModeAction.apply (a : ChangeMarginModeAction) : ReducerResult StateDelta :=
  changeAffected codec state "change_margin_mode" a.affectedPositions.value fun pid =>
    withMarginMode a.newMode (a.marginReallocation.value.lookup pid)

/-! ## Orders -/

def maxOpenOrdersSoftCap : Unsigned 32 := 100

variable (a : PlaceOrderAction)

def venueOrder (id : PendingId) (sizeBase : U256) (price : Price)
    (orderKind : PerpOrderKind) (validUntil : Option Time) : PendingTx :=
  perpOrder ctx id
    (.perpVenueOrder a.venue.ref a.market a.side sizeBase price orderKind a.reduceOnly)
    .none .new validUntil

/-- A limit within half of the middle of the spread. -/
def checkBracket (price : Price) (bestBidAsk : Price × Price) : ReducerResult Unit := do
  let limit ← parseDecimal kit price
  let bid ← parseDecimal kit bestBidAsk.1
  let ask ← parseDecimal kit bestBidAsk.2
  let mid ← operator (kit.div (← operator (kit.add bid ask)) (kit.ofU32 2))
  let bracketLo ← operator (kit.mul mid (kit.scaled 5 1))
  let bracketHi ← operator (kit.mul mid (kit.scaled 15 1))
  ensure (kit.lt limit bracketLo = false ∧ kit.lt bracketHi limit = false)
    s!"place_order: limit price {kit.toString limit} outside ±50% of mid-spread bracket"

def TimeInForce.validUntil : TimeInForce → Option Time
  | .gtd stop => some stop
  | _ => none

variable (live : PlaceOrderLiveInputs)

def limitPending (price : Price) (timeInForce : TimeInForce) : ReducerResult PendingTx := do
  ensure (live.openOrdersCount.value < maxOpenOrdersSoftCap)
    (s!"place_order: open_orders_count {live.openOrdersCount.value} " ++
      s!">= soft cap {maxOpenOrdersSoftCap}")
  checkBracket kit price live.bestBidAsk.value
  let sizeBase ← resolveSizeBase kit a.size live.markPrice.value
  ensure (sizeBase ≠ 0) "place_order: resolved size_base is zero"
  return venueOrder ctx a (pendingIdForLimitOrder a.venue a.market.symbol a.side price) sizeBase
    price .limit timeInForce.validUntil

def StopOrderKind.needsLimit : StopOrderKind → Bool
  | .stopLimit => true
  | .takeProfitLimit => true
  | _ => false

/-- A stop of a long and a profit of a short trigger below the mark. -/
def wantsBelow (orderKind : StopOrderKind) (side : PerpSide) : Bool :=
  let isStop := orderKind = .stopMarket ∨ orderKind = .stopLimit
  (isStop ∧ side = .long) ∨ (¬ isStop ∧ side = .short)

def stopPending (triggerPrice : Price)
    (orderKind : StopOrderKind) (limitPrice : Option Price) : ReducerResult PendingTx := do
  ensure (orderKind.needsLimit = true → limitPrice.isSome = true)
    s!"place_order: {orderKind.debug} requires limit_price"
  let trigger ← parseDecimal kit triggerPrice
  let mark ← parseDecimal kit live.markPrice.value
  let validSide :=
    if wantsBelow orderKind a.side then kit.lt trigger mark else kit.lt mark trigger
  ensure (validSide = true)
    (s!"place_order: trigger {kit.toString trigger} is on the wrong side of mark " ++
      s!"{kit.toString mark} for {orderKind.debug} {a.side.debug}")
  let sizeBase ← resolveSizeBase kit a.size live.markPrice.value
  return venueOrder ctx a
    (pendingIdForStopOrder a.venue a.market.symbol a.side orderKind triggerPrice) sizeBase
    triggerPrice (perpOrderKindFromStop orderKind) none

def twapPending (durationMinutes : Unsigned 32) : ReducerResult PendingTx := do
  let sizeBase ← resolveSizeBase kit a.size live.markPrice.value
  ensure (sizeBase ≠ 0) "place_order: resolved size_base is zero"
  return venueOrder ctx a
    (pendingIdForTwapOrder a.venue a.market.symbol a.side durationMinutes) sizeBase
    live.markPrice.value .limit none

def pendingOrder : ReducerResult PendingTx :=
  match a.orderType with
  | .limit price timeInForce => limitPending kit ctx a live price timeInForce
  | .stop triggerPrice orderKind limitPrice =>
    stopPending kit ctx a live triggerPrice orderKind limitPrice
  | .twap durationMinutes _ => twapPending kit ctx a live durationMinutes

def PlaceOrderAction.apply : ReducerResult StateDelta := do
  let live ← orFail a.liveInputs (.missingField "place_order.live_inputs")
  let pending ← pendingOrder kit ctx a live
  return StateDelta.new.pushPending (.add pending)

def CancelPerpOrderAction.apply (a : CancelPerpOrderAction) : ReducerResult StateDelta :=
  .ok (StateDelta.new.pushPending (.remove a.orderId .cancelled))

def ClaimFundingAction.apply (a : ClaimFundingAction) : ReducerResult StateDelta :=
  creditNonzero state .new a.claimable.value

end Reducers

/-! ## Dispatch -/

inductive PerpAction where
  | openPosition (a : OpenPerpAction)
  | closePosition (a : ClosePerpAction)
  | increasePosition (a : IncreasePerpAction)
  | decreasePosition (a : DecreasePerpAction)
  | adjustMargin (a : AdjustMarginAction)
  | changeLeverage (a : ChangeLeverageAction)
  | changeMarginMode (a : ChangeMarginModeAction)
  | placeOrder (a : PlaceOrderAction)
  | cancelOrder (a : CancelPerpOrderAction)
  | claimFunding (a : ClaimFundingAction)

def PerpAction.apply {D : Type} (kit : DecimalKit D) (codec : PositionCodec) (state : WalletState)
    (ctx : EvalContext) : PerpAction → ReducerResult StateDelta
  | .openPosition a => a.apply kit state ctx
  | .closePosition a => a.apply kit state
  | .increasePosition a => a.apply kit codec state
  | .decreasePosition a => a.apply kit codec state
  | .adjustMargin a => a.apply kit codec state
  | .changeLeverage a => a.apply kit codec state ctx
  | .changeMarginMode a => a.apply codec state
  | .placeOrder a => a.apply kit ctx
  | .cancelOrder a => a.apply
  | .claimFunding a => a.apply state

end Dambi.Asset
