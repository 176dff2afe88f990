import Dambi.Asset.Derived
import Dambi.Asset.Position

/-!
# Lending actions

The reducers of `effect/lending`. An account of a venue is one position; its
collaterals and debts are lists of entries that are merged, reduced and moved
between rate modes.
-/

namespace Dambi.Asset

open FixedWidth Fallible

/-! ## Venues -/

inductive LendingVenue where
  | aaveV3 (chain : ChainId) (pool : Address) (marketId : Option (Unsigned 8))
  | aaveV2 (chain : ChainId) (pool : Address)
  | compoundV3 (chain : ChainId) (comet : Address) (baseAsset : TokenRef)
  | compoundV2 (chain : ChainId) (comptroller : Address)
  | morphoBlue (chain : ChainId) (marketId : String)
  | morphoOptimizer (chain : ChainId) (vault : Address)
  | spark (chain : ChainId) (pool : Address)
  | fluid (chain : ChainId) (vault : Address)
  | metaMorpho (chain : ChainId) (vault : Address)
  | crvUsd (chain : ChainId) (controller : Address) (collateral : TokenRef)
  | llamaLend (chain : ChainId) (controller : Address) (collateral : TokenRef)
  | aaveV3Periphery (chain : ChainId) (adapter : Address)

namespace LendingVenue

/-- `venue_tag`. -/
def tag : LendingVenue → String
  | aaveV3 .. => "aave_v3"
  | aaveV2 .. => "aave_v2"
  | spark .. => "spark"
  | compoundV3 .. => "compound_v3"
  | compoundV2 .. => "compound_v2"
  | morphoBlue .. => "morpho_blue"
  | morphoOptimizer .. => "morpho_optimizer"
  | fluid .. => "fluid"
  | metaMorpho .. => "metamorpho"
  | crvUsd .. => "crv_usd"
  | llamaLend .. => "llama_lend"
  | aaveV3Periphery .. => "aave_v3_periphery"

/-- `venue_chain`. -/
def chain : LendingVenue → ChainId
  | aaveV3 chain .. => chain
  | aaveV2 chain .. => chain
  | spark chain .. => chain
  | compoundV3 chain .. => chain
  | compoundV2 chain .. => chain
  | morphoBlue chain .. => chain
  | morphoOptimizer chain .. => chain
  | fluid chain .. => chain
  | metaMorpho chain .. => chain
  | crvUsd chain .. => chain
  | llamaLend chain .. => chain
  | aaveV3Periphery chain .. => chain

/-- What tells the accounts of one kind of venue on one chain apart. -/
def accountKey : LendingVenue → String
  | aaveV3 _ pool marketId => s!"{lowercaseHex pool}:{marketId.getD 0}"
  | aaveV2 _ pool => lowercaseHex pool
  | spark _ pool => lowercaseHex pool
  | compoundV3 _ comet _ => lowercaseHex comet
  | compoundV2 _ comptroller => lowercaseHex comptroller
  | morphoBlue _ marketId => marketId
  | morphoOptimizer _ vault => lowercaseHex vault
  | fluid _ vault => lowercaseHex vault
  | metaMorpho _ vault => lowercaseHex vault
  | crvUsd _ controller _ => lowercaseHex controller
  | llamaLend _ controller _ => lowercaseHex controller
  | aaveV3Periphery _ adapter => lowercaseHex adapter

/-- `position_id::for_venue`. -/
def positionId (venue : LendingVenue) : PositionId :=
  s!"{venue.tag}:{venue.chain.text}:{venue.accountKey}"

def hasRateModes : LendingVenue → Bool
  | aaveV2 .. => true
  | aaveV3 .. => true
  | _ => false

def hasEModes : LendingVenue → Bool
  | aaveV3 .. => true
  | spark .. => true
  | _ => false

end LendingVenue

/-! ## Live inputs and actions -/

structure ReserveState where
  totalSupply : U256
  totalBorrow : U256
  supplyCap : Option U256
  borrowCap : Option U256
  liquidationThresholdBp : Unsigned 32
  isFrozen : Bool
  isPaused : Bool

structure SupplyAction where
  venue : LendingVenue
  asset : TokenRef
  amount : U256
  reserveState : LiveField ReserveState
  eligibleAsCollat : LiveField Bool

structure WithdrawAction where
  venue : LendingVenue
  asset : TokenRef
  amount : U256
  recipient : Address
  reserveState : LiveField ReserveState
  availableToWithdraw : LiveField U256

structure BorrowAction where
  venue : LendingVenue
  asset : TokenRef
  amount : U256
  rateMode : RateMode
  reserveState : LiveField ReserveState
  assetPriceUsd : LiveField Price
  availableLiquidity : LiveField U256

structure RepayAction where
  venue : LendingVenue
  asset : TokenRef
  amount : U256
  rateMode : RateMode
  reserveState : LiveField ReserveState
  currentDebt : LiveField U256

structure SwapRateModeAction where
  venue : LendingVenue
  asset : TokenRef
  newMode : RateMode

structure SetEModeAction where
  venue : LendingVenue
  categoryId : EModeCategory
  assetsInCategory : LiveField (List TokenRef)

structure SetCollateralAction where
  venue : LendingVenue
  asset : TokenRef
  reserveState : LiveField ReserveState

structure DelegateBorrowAction where
  venue : LendingVenue
  asset : TokenRef
  delegatee : Address
  amount : U256
  rateMode : RateMode

structure LiquidateAction where
  debtAsset : TokenRef
  collatAsset : TokenRef
  debtToCover : U256
  /-- The health factor of the account that is liquidated. -/
  victimHealthFactor : LiveField Decimal
  liquidationBonus : LiveField (Unsigned 32)
  debtAssetPrice : LiveField Price
  collatAssetPrice : LiveField Price

/-! ## Entries of an account -/

/-- `find(..)` and a change of the entry, or a new entry at the end. -/
def mergeFirst {α : Type} (p : α → Bool) (change : α → α) (fresh : α) : List α → List α
  | [] => [fresh]
  | x :: xs => if p x then change x :: xs else x :: mergeFirst p change fresh xs

/-- A reduction of the first entry with a property, which disappears at zero. It returns what is
left of the entry. -/
def reduceFirst {α : Type} (p : α → Bool) (get : α → U256) (set : U256 → α → α) (missing : String)
    (exceeds : U256 → String) (amount : U256) : List α → ReducerResult (U256 × List α)
  | [] => broken missing
  | x :: xs =>
    if p x then do
      let newAmount ← orBroken ((get x).checkedSub amount) (exceeds (get x))
      return (newAmount, if newAmount = 0 then xs else set newAmount x :: xs)
    else do
      let (newAmount, rest) ← reduceFirst p get set missing exceeds amount xs
      return (newAmount, x :: rest)

/-- The `Debug` form. -/
def RateMode.debug : RateMode → String
  | .variable => "Variable"
  | .stable => "Stable"
  | .fixed => "Fixed"

namespace LendingAccount

variable (account : LendingAccount) (asset : TokenRef) (amount : U256) (rateMode : RateMode)

def mergeCollateral : LendingAccount :=
  { account with
    collaterals := mergeFirst (·.1 = asset)
      (fun (token, held) => (token, held.saturatingAdd amount)) (asset, amount)
      account.collaterals }

def reduceCollateral : ReducerResult (U256 × LendingAccount) := do
  let (newAmount, collaterals) ←
    reduceFirst (·.1 = asset) (·.2) (fun left (token, _) => (token, left))
      s!"withdraw: asset {asset.key.debug} not present in collaterals"
      (fun current => s!"withdraw: amount {amount} > collateral {current}") amount
      account.collaterals
  return (newAmount, { account with collaterals })

def mergeDebt : LendingAccount :=
  { account with
    debts := mergeFirst (fun (token, _, mode) => token = asset ∧ mode = rateMode)
      (fun (token, owed, mode) => (token, owed.saturatingAdd amount, mode))
      (asset, amount, rateMode) account.debts }

def reduceDebt : ReducerResult (U256 × LendingAccount) := do
  let (newAmount, debts) ←
    reduceFirst (fun (token, _, mode) => token = asset ∧ mode = rateMode) (·.2.1)
      (fun left (token, _, mode) => (token, left, mode))
      s!"repay: asset {asset.key.debug} not present in debts for rate_mode {rateMode.debug}"
      (fun current => s!"repay: amount {amount} > debt {current}") amount account.debts
  return (newAmount, { account with debts })

/-- `let _ = account.reduce(..)`: a reduction that fails leaves the account as it is. -/
def reducedBy (reduction : ReducerResult (U256 × LendingAccount)) : LendingAccount :=
  reduction.toOption.elim account (·.2)

end LendingAccount

/-- `if let PositionKind::LendingAccount(la) = &mut p.kind`. -/
def mutateLending (change : LendingAccount → LendingAccount) (p : Position) : Position :=
  match p.kind with
  | .lendingAccount la => { p with kind := .lendingAccount (change la) }
  | _ => p

/-! ## Prices -/

section Prices

variable {D : Type} (kit : DecimalKit D)

/-- A text that is no decimal, or a product that is no 32-bit number, counts as zero. -/
def thresholdToBp (value : Decimal) : ReducerResult (Unsigned 32) :=
  match kit.fromStr value.text with
  | .error _ => .ok 0
  | .ok d => do
    let scaled ← operator (kit.mul d (kit.ofU32 10000))
    return (kit.toU32 (kit.round scaled)).getD 0

/-- The tables of one price for every token of an account, and for the asset itself. -/
structure PriceTables where
  collatPrices : List (TokenRef × Decimal)
  debtPrices : List (TokenRef × Decimal)
  thresholds : List (TokenRef × Unsigned 32)

/-- `if !table.any(|(t, _)| t == token) { table.push((token, value)) }`. -/
def withToken {V : Type} (token : TokenRef) (value : V) (table : List (TokenRef × V)) :
    List (TokenRef × V) :=
  if table.any (·.1 = token) then table else table ++ [(token, value)]

/-- The threshold is computed for each collateral, and for the asset unless it is one of them. -/
def buildPriceTables (account : LendingAccount) (assetPrice : Price) (referencedAsset : TokenRef) :
    ReducerResult PriceTables := do
  let collats :=
    withToken referencedAsset () (account.collaterals.map fun (token, _) => (token, ()))
  let thresholds ← collats.mapM fun (token, _) => do
    return (token, ← thresholdToBp kit account.liquidationThreshold.value)
  return {
    collatPrices := collats.map fun (token, _) => (token, assetPrice)
    debtPrices := withToken referencedAsset assetPrice
      (account.debts.map fun (token, _) => (token, assetPrice))
    thresholds }

def hfIsSafe (hf : Decimal) : ReducerResult Bool := do
  let parsed ← described "borrow: HF Decimal parse failed" (kit.fromStr hf.text)
  return !kit.lt parsed (kit.ofU32 1)

def parsePriceToU256 (price : Price) : ReducerResult U256 := do
  let parsed ← described "liquidate: price parse" (kit.fromStr price.text)
  let scaled := kit.round (← operator (kit.mul parsed (kit.ofU32 1000000)))
  ensure (kit.lt scaled kit.zero = false) "liquidate: negative price encountered"
  let digits := (kit.toString (kit.normalize scaled)).toList.takeWhile (· ≠ '.')
  described "liquidate: price U256" (kit.parseU256 (String.ofList digits))

end Prices

/-! ## Reserves -/

/-- `asset_to_scaled_balance`: the amount itself, of a reserve that has not lent more than it
holds. -/
def assetToScaledBalance (reserve : ReserveState) (amount : U256) (venueTag : String) :
    ReducerResult U256 := do
  ensure (reserve.totalBorrow ≤ reserve.totalSupply)
    (s!"{venueTag} reserve invariant: total_supply {reserve.totalSupply} < total_borrow " ++
      s!"{reserve.totalBorrow}")
  return amount

def assetToFluidShares (vault : ReserveState) (amount : U256) : ReducerResult U256 := do
  let numerFactor ← addOr vault.totalSupply 1 "fluid: virtual shares overflow"
  let denom ← addOr vault.totalSupply 1 "fluid: virtual assets overflow"
  let numer ← mulOr amount numerFactor "fluid: asset_to_shares overflow"
  ensure (denom ≠ 0) "fluid: zero denominator (impossible with virtual offset)"
  divide numer denom

/-- What a supply is receipted with. No position records it; what is left are the checks. -/
def receiptAmount (venue : LendingVenue) (reserve : ReserveState) (amount : U256) :
    ReducerResult U256 :=
  match venue with
  | .aaveV3 .. => assetToScaledBalance reserve amount "aave_v3"
  | .aaveV2 .. => assetToScaledBalance reserve amount "aave_v2"
  | .spark .. => assetToScaledBalance reserve amount "spark"
  | .compoundV2 .. => assetToScaledBalance reserve amount "compound_v2"
  | .compoundV3 .. => assetToScaledBalance reserve amount "compound_v3"
  | .morphoOptimizer .. => assetToScaledBalance reserve amount "morpho_optimizer"
  | .fluid .. => assetToFluidShares reserve amount
  | .metaMorpho .. => assetToFluidShares reserve amount
  | .crvUsd .. => .ok amount
  | .llamaLend .. => .ok amount
  | .morphoBlue .. => unsupported "supply" "morpho_blue"
  | .aaveV3Periphery .. => unsupported "supply" "aave_v3_periphery"

/-- `Some(cap)` with a total that would pass it. -/
def ensureUnderCap (action totalName capName : String) (total amount : U256) (cap : Option U256) :
    ReducerResult Unit :=
  match cap with
  | none => .ok ()
  | some cap => ensure (total.saturatingAdd amount ≤ cap)
      s!"{action} rejected: {totalName} {total} + amount {amount} > {capName} {cap}"

variable (action : String) (venue : LendingVenue) (reserve : ReserveState)

def ensureNotPaused :
    ReducerResult Unit :=
  ensure (reserve.isPaused = false) s!"{action} rejected: reserve paused for venue {venue.tag}"

def ensureNotFrozen :
    ReducerResult Unit :=
  ensure (reserve.isFrozen = false) s!"{action} rejected: reserve frozen for venue {venue.tag}"

/-- `if !matches!(venue, ..) { return Err(UnsupportedProtocol) }`. -/
def requireLendingVenue (supported : LendingVenue → Bool) (action : String) (venue : LendingVenue) :
    ReducerResult Unit :=
  if supported venue then .ok () else unsupported action venue.tag

/-! ## Reducers -/

section Reducers

variable {D : Type} (kit : DecimalKit D) (codec : PositionCodec) (state : WalletState)
  (ctx : EvalContext)

variable (pid : PositionId)

/-- `if !position_exists(..) { return Err(PositionNotFound(pid)) }`. -/
def requirePosition : ReducerResult Unit :=
  if effectiveExists state .new pid then .ok () else fail (.positionNotFound pid)

/-- `state.positions.iter().find(|p| p.id == pid)` with the error of a missing position. -/
def findPosition : ReducerResult Position :=
  orFail (state.positions.find? (·.id = pid)) (.positionNotFound pid)

def lendingAccountOf (position : Position) :
    ReducerResult LendingAccount :=
  match position.kind with
  | .lendingAccount la => .ok la
  | _ => broken s!"{action}: position {pid} is not a LendingAccount"

def derivedLiveField (value : Decimal) : LiveField Decimal where
  value := value
  source := .derivedFrom [] "lending_supply_init"
  syncedAt := ctx.now

/-- `format!("0.{bp:04}")`. -/
def fourDigits (bp : Unsigned 32) : String :=
  let digits := Nat.toDigits 10 bp.val
  "0." ++ String.ofList (List.replicate (4 - digits.length) '0' ++ digits)

def newLendingAccount (a : SupplyAction) : Position where
  id := a.venue.positionId
  protocol := { name := a.venue.tag }
  chain := some a.venue.chain
  kind := .lendingAccount
    { market := { symbol := a.venue.tag, venue := { name := a.venue.tag } }
      collaterals := [(a.asset, a.amount)]
      debts := []
      emode := none
      isIsolated := false
      healthFactor := derivedLiveField ctx hfInfinity
      ltv := derivedLiveField ctx .zero
      liquidationThreshold :=
        derivedLiveField ctx ⟨fourDigits a.reserveState.value.liquidationThresholdBp⟩ }
  primitivesSyncedAt := ctx.now
  primitivesSource := .userSupplied

def SupplyAction.apply (a : SupplyAction) : ReducerResult StateDelta := do
  let reserve := a.reserveState.value
  ensureNotPaused "supply" a.venue reserve
  ensureNotFrozen "supply" a.venue reserve
  ensureUnderCap "supply" "total_supply" "supply_cap" reserve.totalSupply a.amount reserve.supplyCap
  let _ ← receiptAmount a.venue reserve a.amount
  let delta ← debit state .new a.asset.key a.amount
  let pid := a.venue.positionId
  if effectiveExists state delta pid then
    upsertLendingAccount codec state delta pid (mutateLending (·.mergeCollateral a.asset a.amount))
  else if a.eligibleAsCollat.value then
    openPosition state delta (newLendingAccount ctx a)
  else
    openPosition state delta
      (mutateLending (fun la => { la with collaterals := [] }) (newLendingAccount ctx a))

def checkReduction (reduction : LendingAccount → ReducerResult (U256 × LendingAccount)) :
    PositionKind → ReducerResult Unit
  | .lendingAccount la => do let _ ← reduction la
  | _ => .ok ()

/-- The account keeps its collateral where the reduction fails; the check of the reduction comes
second. -/
def WithdrawAction.apply (a : WithdrawAction) : ReducerResult StateDelta := do
  ensureNotPaused "withdraw" a.venue a.reserveState.value
  let pid := a.venue.positionId
  requirePosition state pid
  let intendedAmount :=
    if a.amount = Unsigned.maxValue then a.availableToWithdraw.value else a.amount
  let delta ← upsertLendingAccount codec state .new pid
    (mutateLending fun la => la.reducedBy (la.reduceCollateral a.asset intendedAmount))
  checkReduction (·.reduceCollateral a.asset intendedAmount) (← findPosition state pid).kind
  if a.recipient = state.walletId.address then credit state delta a.asset.key intendedAmount
  else return delta

def checkBorrowHealth (a : BorrowAction) (la : LendingAccount) : ReducerResult Unit := do
  let preview := la.mergeDebt a.asset a.amount a.rateMode
  let tables ← buildPriceTables kit preview a.assetPriceUsd.value a.asset
  let hf ← recomputeHealthFactor kit preview tables.collatPrices tables.debtPrices tables.thresholds
  ensure ((← hfIsSafe kit hf) = true)
    s!"borrow rejected: post-borrow HF Decimal({quoted hf.text}) < 1.0"

def BorrowAction.apply (a : BorrowAction) : ReducerResult StateDelta := do
  let reserve := a.reserveState.value
  ensureNotPaused "borrow" a.venue reserve
  ensureNotFrozen "borrow" a.venue reserve
  ensure (a.amount ≤ a.availableLiquidity.value)
    s!"borrow rejected: available_liquidity {a.availableLiquidity.value} < amount {a.amount}"
  ensureUnderCap "borrow" "total_borrow" "borrow_cap" reserve.totalBorrow a.amount reserve.borrowCap
  let pid := a.venue.positionId
  requirePosition state pid
  let delta ← upsertLendingAccount codec state .new pid
    (mutateLending (·.mergeDebt a.asset a.amount a.rateMode))
  let la ← lendingAccountOf "borrow" pid (← findPosition state pid)
  checkBorrowHealth kit a la
  credit state delta a.asset.key a.amount

def RepayAction.apply (a : RepayAction) : ReducerResult StateDelta := do
  ensureNotPaused "repay" a.venue a.reserveState.value
  let pid := a.venue.positionId
  requirePosition state pid
  let intendedAmount := if a.amount = Unsigned.maxValue then a.currentDebt.value else a.amount
  let delta ← upsertLendingAccount codec state .new pid
    (mutateLending fun la => la.reducedBy (la.reduceDebt a.asset intendedAmount a.rateMode))
  checkReduction (·.reduceDebt a.asset intendedAmount a.rateMode) (← findPosition state pid).kind
  debit state delta a.asset.key intendedAmount

def otherMode : RateMode → RateMode
  | .variable => .stable
  | .fixed => .stable
  | .stable => .variable

def moveDebt (asset : TokenRef) (amount : U256) (source target : RateMode) (la : LendingAccount) :
    LendingAccount :=
  (la.reducedBy (la.reduceDebt asset amount source)).mergeDebt asset amount target

def SwapRateModeAction.apply (a : SwapRateModeAction) : ReducerResult StateDelta := do
  requireLendingVenue (·.hasRateModes) "swap_rate_mode" a.venue
  let pid := a.venue.positionId
  requirePosition state pid
  let la ← lendingAccountOf "swap_rate_mode" pid (← findPosition state pid)
  let sourceMode := otherMode a.newMode
  let (sourceAsset, sourceAmount, _) ← orBroken
    (la.debts.find? fun (token, _, mode) => token = a.asset ∧ mode = sourceMode)
    s!"swap_rate_mode: no debt entry for asset {a.asset.key.debug} in mode {sourceMode.debug}"
  upsertLendingAccount codec state .new pid
    (mutateLending (moveDebt sourceAsset sourceAmount sourceMode a.newMode))

def checkCategory (a : SetEModeAction) (la : LendingAccount) : ReducerResult Unit :=
  if a.categoryId = 0 then .ok ()
  else do
    let allowed := a.assetsInCategory.value
    forM la.collaterals fun (token, _) => ensure (token ∈ allowed)
      s!"set_emode rejected: collateral {token.key.debug} not in target category"
    forM la.debts fun (token, _) => ensure (token ∈ allowed)
      s!"set_emode rejected: debt {token.key.debug} not in target category"

def SetEModeAction.apply (a : SetEModeAction) : ReducerResult StateDelta := do
  requireLendingVenue (·.hasEModes) "set_emode" a.venue
  let pid := a.venue.positionId
  requirePosition state pid
  let la ← lendingAccountOf "set_emode" pid (← findPosition state pid)
  checkCategory a la
  upsertLendingAccount codec state .new pid (mutateLending fun la =>
    { la with emode := if a.categoryId = 0 then none else some a.categoryId })

/-- A collateral that is enabled starts at zero; one that is disabled loses its amount. -/
def setCollateral (enable : Bool) (asset : TokenRef) (la : LendingAccount) : LendingAccount :=
  if enable then { la with collaterals := withToken asset 0 la.collaterals }
  else { la with collaterals := la.collaterals.filter (·.1 ≠ asset) }

def SetCollateralAction.apply (a : SetCollateralAction) (enable : Bool) :
    ReducerResult StateDelta := do
  ensureNotPaused "set_collateral" a.venue a.reserveState.value
  let pid := a.venue.positionId
  requirePosition state pid
  upsertLendingAccount codec state .new pid (mutateLending (setCollateral enable a.asset))

def DelegateBorrowAction.apply (a : DelegateBorrowAction) : ReducerResult StateDelta := do
  requireLendingVenue (·.hasRateModes) "delegate_borrow" a.venue
  return StateDelta.new.pushToken
    (.approvalSet a.asset.key a.delegatee (AllowanceSpec.new a.amount ctx.now))

def seizedCollateral (a : LiquidateAction) : ReducerResult U256 := do
  let bonusBp := a.liquidationBonus.value
  ensure (bonusBp ≤ 10000) s!"liquidate: bonus_bp {bonusBp} > 10000"
  let debtPrice ← parsePriceToU256 kit a.debtAssetPrice.value
  let debtValueUsd ← mulOr a.debtToCover debtPrice "liquidate: debt value overflow"
  let withBonus ← mulOr debtValueUsd (.ofNat (10000 + bonusBp.val))
    "liquidate: bonus apply overflow"
  let collatValueUsd ← divide withBonus 10000
  let collatPrice ← parsePriceToU256 kit a.collatAssetPrice.value
  ensure (collatPrice ≠ 0) "liquidate: collateral price is zero"
  divide collatValueUsd collatPrice

def LiquidateAction.apply (a : LiquidateAction) : ReducerResult StateDelta := do
  let hf ← described "liquidate: HF parse" (kit.fromStr a.victimHealthFactor.value.text)
  ensure (kit.lt hf (kit.ofU32 1) = true)
    s!"liquidate rejected: victim HF {kit.toString hf} >= 1.0 (position is healthy)"
  let collatAmount ← seizedCollateral kit a
  let delta ← debit state .new a.debtAsset.key a.debtToCover
  credit state delta a.collatAsset.key collatAmount

end Reducers

/-! ## Dispatch -/

/-- The actions of the domain. Bought collateral, authorizations and periphery operations are not
simulated, so they carry no data here. -/
inductive LendingAction where
  | supply (a : SupplyAction)
  | withdraw (a : WithdrawAction)
  | borrow (a : BorrowAction)
  | buyCollateral
  | repay (a : RepayAction)
  | swapRateMode (a : SwapRateModeAction)
  | setEMode (a : SetEModeAction)
  | enableCollateral (a : SetCollateralAction)
  | disableCollateral (a : SetCollateralAction)
  | delegateBorrow (a : DelegateBorrowAction)
  | liquidate (a : LiquidateAction)
  | setAuthorization
  | peripheryOperation

def LendingAction.apply {D : Type} (kit : DecimalKit D) (codec : PositionCodec)
    (state : WalletState) (ctx : EvalContext) : LendingAction → ReducerResult StateDelta
  | .supply a => a.apply codec state ctx
  | .withdraw a => a.apply codec state
  | .borrow a => a.apply kit codec state
  | .buyCollateral => .ok .new
  | .repay a => a.apply codec state
  | .swapRateMode a => a.apply codec state
  | .setEMode a => a.apply codec state
  | .enableCollateral a => a.apply codec state true
  | .disableCollateral a => a.apply codec state false
  | .delegateBorrow a => a.apply ctx
  | .liquidate a => a.apply kit state
  | .setAuthorization => .ok .new
  | .peripheryOperation => .ok .new

end Dambi.Asset
