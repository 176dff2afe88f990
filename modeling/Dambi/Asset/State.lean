import Mathlib.Data.Countable.Basic
import Mathlib.Logic.Encodable.Basic
import Mathlib.Logic.Equiv.List
import Mathlib.Data.Finmap
import Mathlib.Tactic.DeriveCountable
import Dambi.Json
import Dambi.Lib.FixedWidth

/-!
# Wallet states and state deltas

The data model of `policy-state`: token holdings, approvals, positions, pending
signatures, the wallet that holds them and the deltas that reducers emit. A
`BTreeMap` is a `Finmap`, which compares by its entries.
-/

namespace Dambi.Asset

open FixedWidth

instance countableString : Countable String :=
  Function.Injective.countable (f := fun s => s.toList.map Char.toNat) fun _ _ h =>
    String.toList_injective (List.map_injective_iff.2 (fun _ _ => Char.toNat_inj.1) h)

instance {w : Nat} : Countable (Unsigned w) :=
  Function.Injective.countable (f := Unsigned.val) fun _ _ => Unsigned.ext

instance {w : Nat} : Countable (Signed w) :=
  Function.Injective.countable (f := Signed.val) fun _ _ => Signed.ext

abbrev U256 := Unsigned 256

/-- `SignedI256`. -/
abbrev I256 := Signed 255

abbrev BTreeMap (K V : Type) := Finmap fun _ : K => V

/-! ## Primitives -/

abbrev Address := Unsigned 160

/-- The `{:#x}` form of an address. -/
def lowercaseHex (addr : Address) : String :=
  let digits := Nat.toDigits 16 addr.val
  "0x" ++ String.ofList (List.replicate (40 - digits.length) '0' ++ digits)

abbrev Spender := Address

structure ChainId where
  text : String
deriving DecidableEq, Countable

/-- `Decimal`: a decimal number kept as its text. -/
structure Decimal where
  text : String
deriving DecidableEq, Countable

abbrev Price := Decimal

def Decimal.zero : Decimal := ⟨"0"⟩

instance : ToString Decimal := ⟨Decimal.text⟩

/-- Seconds since the epoch. -/
abbrev Time := Unsigned 64

abbrev Weight := Unsigned 32

structure ProtocolRef where
  name : String
  version : Option String := none
  chain : Option ChainId := none
  market : Option String := none
deriving DecidableEq, Countable

structure PoolRef where
  protocol : ProtocolRef
  poolAddr : Option Address
  poolId : Option String
  feeTier : Option Weight
deriving DecidableEq

structure VenueRef where
  name : String
  chain : Option ChainId := none
deriving DecidableEq, Countable

structure MarketRef where
  symbol : String
  venue : VenueRef
deriving DecidableEq, Countable

/-! ## Live fields -/

inductive OracleProvider where
  | pyth
  | chainlink
  | redStone
  | other (name : String)
deriving DecidableEq, Countable

inductive AuthSpec where
  | none
  | bearer (tokenEnv : String)
  | hmacSig (keyEnv : String)
  | custom (text : String)
deriving DecidableEq, Countable

inductive RegistryResource where
  | tokenMeta (chain : ChainId) (address : Address)
  | protocolMap (chain : ChainId) (address : Address)
  | poolMeta (chain : ChainId) (poolAddr : Address)
  | decoderRegistry
deriving DecidableEq, Countable

inductive TokenFieldName where
  | priceUsd
deriving DecidableEq, Countable

inductive PositionFieldName where
  | healthFactor
  | ltv
  | liquidationThreshold
  | markPrice
  | liqPrice
  | unrealizedPnl
  | fundingOwed
  | leverage
deriving DecidableEq, Countable

inductive PendingFieldName where
  | status
  | fillRatio
deriving DecidableEq, Countable

inductive FieldRef where
  | tokenField (tokenKeyJson : String) (field : TokenFieldName)
  | positionField (positionId : String) (field : PositionFieldName)
  | pendingField (pendingId : String) (field : PendingFieldName)
  | global (name : String)
deriving DecidableEq, Countable

inductive DataSource where
  | onchainView (chain : ChainId) (contract : Address) (function decoderId : String)
  | oracleFeed (provider : OracleProvider) (feedId : String)
  | venueApi (endpoint parserId : String) (auth : Option AuthSpec)
  | derivedFrom (inputs : List FieldRef) (calcId : String)
  | registryApi (endpoint : String) (resource : RegistryResource) (version : Option String)
  | userSupplied
deriving DecidableEq, Countable

structure Confidence where
  deviationBp : Unsigned 32
  isStale : Bool
deriving DecidableEq, Countable

/-- A value with the source it is refreshed from. -/
structure LiveField (α : Type) where
  value : α
  source : DataSource
  syncedAt : Time
  ttl : Option Time := none
  confidence : Option Confidence := none
deriving DecidableEq, Countable

/-! ## Tokens -/

abbrev TokenId := U256

inductive TokenKey where
  | native (chain : ChainId)
  | erc20 (chain : ChainId) (address : Address)
  | erc721 (chain : ChainId) (contract : Address) (tokenId : TokenId)
  | erc1155 (chain : ChainId) (contract : Address) (tokenId : TokenId)
deriving DecidableEq, Countable

namespace TokenKey

def chain : TokenKey → ChainId
  | native chain => chain
  | erc20 chain _ => chain
  | erc721 chain _ _ => chain
  | erc1155 chain _ _ => chain

def contract : TokenKey → Option Address
  | native _ => none
  | erc20 _ address => some address
  | erc721 _ contract _ => some contract
  | erc1155 _ contract _ => some contract

/-- The `Debug` form. -/
def debug : TokenKey → String
  | native chain => "Native \x7b chain: ChainId(\"" ++ chain.text ++ "\") \x7d"
  | erc20 chain address =>
    "Erc20 \x7b chain: ChainId(\"" ++ chain.text ++ "\"), address: " ++ lowercaseHex address ++
      " \x7d"
  | erc721 chain contract tokenId => nft "Erc721" chain contract tokenId
  | erc1155 chain contract tokenId => nft "Erc1155" chain contract tokenId
where
  nft (name : String) (chain : ChainId) (contract : Address) (tokenId : TokenId) : String :=
    name ++ " \x7b chain: ChainId(\"" ++ chain.text ++ "\"), contract: " ++ lowercaseHex contract ++
      ", token_id: " ++ toString tokenId ++ " \x7d"

end TokenKey

structure TokenRef where
  key : TokenKey
deriving DecidableEq, Countable

inductive FiatCurrency where
  | usd
  | eur
  | krw
  | jpy
  | gbp
deriving DecidableEq

inductive PegTarget where
  | fiat (currency : FiatCurrency)
  | token (token : TokenRef)
deriving DecidableEq

inductive BaseCategory where
  | stable
  | volatile
  | nativeWrap
  | governance (protocol : ProtocolRef)
deriving DecidableEq

inductive PegKind where
  | hardPeg
  | softPeg
  | rebasing
  | exchangeRate
deriving DecidableEq

inductive RebaseForm where
  | rebasing
  | index
deriving DecidableEq

inductive RateMode where
  | variable
  | stable
  | fixed
deriving DecidableEq, Countable

inductive UnlockSchedule where
  | cliff (unlockAt : Time)
  | linear (start stop : Time)
  | cooldown (cooldownSecs : Unsigned 64)
deriving DecidableEq

inductive NoteKind where
  | principal
  | yield
deriving DecidableEq

inductive ShareForm where
  | fungible
  | nonFungible
deriving DecidableEq

inductive RangeSpec where
  | tick (lower upper : Signed 31) (liquidity : Unsigned 128)
  | bin (activeId : Unsigned 32) (distribution : List (Unsigned 32 × Unsigned 128))
  | custom (protocol : String) (raw : Json)

inductive LpShape where
  | pooled (weights : Option (List Weight))
  | concentrated (range : RangeSpec) (feesOwed : List (TokenRef × U256))
  | custom (protocol : String) (raw : Json)

inductive TokenKind where
  | base (category : BaseCategory) (pegTo : Option PegTarget)
  | nativeGas
  | wrapped (underlying : TokenRef) (pegKind : PegKind)
  | lpShare (pool : PoolRef) (underlyings : List TokenRef) (shareForm : ShareForm) (shape : LpShape)
  | yieldReceipt (protocol : ProtocolRef) (underlying : TokenRef) (rebaseForm : RebaseForm)
  | debtReceipt (protocol : ProtocolRef) (underlying : TokenRef) (rateMode : RateMode)
  | stakeReceipt (protocol : ProtocolRef) (underlying : TokenRef) (unlock : Option UnlockSchedule)
    (votingPower : Option U256)
  | pointsToken (source : ProtocolRef)
  | maturityNote (protocol : ProtocolRef) (underlying : TokenRef) (maturity : Time)
    (noteKind : NoteKind)
  | unknown

inductive Balance where
  | fungible (amount : U256)
  | owned
deriving DecidableEq

def Balance.asFungible : Balance → Option U256
  | fungible amount => some amount
  | owned => none

structure TokenMetadata where
  logoUrl : Option String
  websiteUrl : Option String
  description : Option String
  coingeckoId : Option String

structure TokenHolding where
  key : TokenKey
  kind : TokenKind
  symbol : String
  decimals : Unsigned 8
  balance : Balance
  committed : Balance
  approvedTo : Option Address
  priceUsd : Option (LiveField Price)
  metadata : Option TokenMetadata
  valueUsd : Option Price
  lastSyncedAt : Time
  primitivesSource : DataSource

/-! ## Approvals -/

structure AllowanceSpec where
  amount : U256
  isUnlimited : Bool
  lastSetAt : Time
deriving DecidableEq

def AllowanceSpec.new (amount : U256) (lastSetAt : Time) : AllowanceSpec :=
  ⟨amount, amount = Unsigned.maxValue, lastSetAt⟩

def AllowanceSpec.unlimited (lastSetAt : Time) : AllowanceSpec :=
  ⟨Unsigned.maxValue, true, lastSetAt⟩

structure Permit2Allowance where
  amount : U256
  expiration : Time
  nonce : Unsigned 32
deriving DecidableEq

abbrev ContractAddrKey := ChainId × Address

abbrev SpenderKey := ChainId × Address × Spender

structure ApprovalSet where
  erc20 : BTreeMap ContractAddrKey (BTreeMap Spender AllowanceSpec)
  setForAll : BTreeMap ContractAddrKey (Finset Spender)
  permit2 : BTreeMap SpenderKey Permit2Allowance

namespace ApprovalSet

variable (approvals : ApprovalSet) (key : ContractAddrKey)

def allowance (spender : Spender) : Option AllowanceSpec :=
  (approvals.erc20.lookup key).bind (·.lookup spender)

def hasSetForAll (spender : Spender) : Prop :=
  ∃ spenders, approvals.setForAll.lookup key = some spenders ∧ spender ∈ spenders

def permit2Of (key : SpenderKey) : Option Permit2Allowance :=
  approvals.permit2.lookup key

end ApprovalSet

/-! ## Positions -/

abbrev PositionId := String

abbrev EModeCategory := Unsigned 8

structure LendingAccount where
  market : MarketRef
  collaterals : List (TokenRef × U256)
  debts : List (TokenRef × U256 × RateMode)
  emode : Option EModeCategory
  isIsolated : Bool
  healthFactor : LiveField Decimal
  ltv : LiveField Decimal
  liquidationThreshold : LiveField Decimal
deriving DecidableEq, Countable

inductive PerpSide where
  | long
  | short
deriving DecidableEq, Countable

inductive MarginMode where
  | isolated
  | cross
deriving DecidableEq, Countable

structure PerpPosition where
  venue : VenueRef
  market : MarketRef
  side : PerpSide
  sizeBase : U256
  notionalUsd : U256
  collateral : List (TokenRef × U256)
  entryPrice : Price
  marginMode : MarginMode
  markPrice : LiveField Price
  liqPrice : LiveField (Option Price)
  unrealizedPnl : LiveField I256
  fundingOwed : LiveField I256
  leverage : LiveField Decimal
deriving DecidableEq, Countable

structure MerkleProof where
  leafIndex : Unsigned 64
  siblings : List String
deriving DecidableEq, Countable

inductive ClaimStatus where
  | eligible
  | claimable
  | claimed
  | expired
deriving DecidableEq, Countable

structure AirdropClaim where
  source : ProtocolRef
  claimable : TokenRef
  amount : U256
  proof : Option MerkleProof
  claimWindow : Option (Time × Time)
  status : ClaimStatus
deriving DecidableEq, Countable

inductive VestCurve where
  | linear
  | stepped (points : List (Time × U256))
  | custom (description : String)
deriving DecidableEq, Countable

structure VestSchedule where
  start : Time
  cliff : Option Time
  stop : Option Time
  curve : VestCurve
  total : U256
deriving DecidableEq, Countable

structure VestingSchedule where
  granter : ProtocolRef
  token : TokenRef
  schedule : VestSchedule
  claimed : U256
  claimableNow : U256
deriving DecidableEq, Countable

structure LaunchpadAllocation where
  platform : ProtocolRef
  saleId : String
  paid : List (TokenRef × U256)
  allocated : TokenRef × U256
  vest : VestSchedule
  claimed : U256
  claimableNow : U256
deriving DecidableEq, Countable

/-- The part of `HlAccount` that reducers read and write; its default is the empty account. -/
structure HlAccount where
  perpUsdc : Option Decimal := none
  pendingOutflow : Decimal := Decimal.zero
deriving DecidableEq, Countable

inductive PositionKind where
  | lendingAccount (account : LendingAccount)
  | perpPosition (perp : PerpPosition)
  | airdropClaim (claim : AirdropClaim)
  | launchpadAllocation (allocation : LaunchpadAllocation)
  | vestingSchedule (vesting : VestingSchedule)
  | hyperliquidAccount (account : HlAccount)
deriving DecidableEq, Countable

structure Position where
  id : PositionId
  protocol : ProtocolRef
  chain : Option ChainId
  kind : PositionKind
  primitivesSyncedAt : Time
  primitivesSource : DataSource
deriving DecidableEq, Countable

/-! ## Pending signatures -/

abbrev PendingId := String

inductive AssetCommitment where
  | spendCap (token : TokenRef) (maxOut : U256)
  | hardLock (token : TokenRef) (locked : U256)
  | permitCap (token : TokenRef) (spender : Address) (maxOut : U256)
  | none
deriving DecidableEq

inductive OrderKind where
  | dutch
  | limit
  | rfq
deriving DecidableEq

inductive PerpOrderKind where
  | limit
  | stopMarket
  | stopLimit
  | takeProfit
deriving DecidableEq

inductive PendingKind where
  | offchainLimitOrder (venue : VenueRef) (sell buy : TokenRef) (sellMax buyMin : U256)
    (orderKind : OrderKind)
  | perpVenueOrder (venue : VenueRef) (market : MarketRef) (side : PerpSide) (sizeBase : U256)
    (price : Price) (orderKind : PerpOrderKind) (reduceOnly : Bool)
  | signedPermit2 (token : TokenRef) (spender : Address) (amount : U256) (expiresAt : Time)
    (nonce : U256 × Unsigned 8)
  | signedPermit2Transfer (token : TokenRef) (owner spender : Address) (amount : U256)
    (expiresAt : Time) (nonce : U256 × Unsigned 8) (witnessType : Option String)
  | signedEip2612 (token : TokenRef) (spender : Address) (amount : U256) (expiresAt : Time)
    (nonce : U256)
deriving DecidableEq

inductive PendingStatus where
  | active
  | partiallyFilled
  | filled
  | cancelled
  | expired
  | failed
  | unknown
deriving DecidableEq

inductive NonceKey where
  | permit2 (word : U256) (bit : Unsigned 8)
  | eip2612 (token : Address) (nonce : U256)
  | orderHash (hash : String)
deriving DecidableEq

structure PendingLifecycle where
  status : PendingStatus
  validUntil : Option Time
  nonce : Option NonceKey
  onChainTx : Option String := none
  rawStatus : Option String := none
deriving DecidableEq

inductive PendingRemoveReason where
  | filled
  | cancelled
  | expired
  | replaced
  | superSeded
deriving DecidableEq

/-! ## Deltas -/

inductive ApprovalScope where
  | erc20
  | setForAll
  | permit2
  | erc721Token
deriving DecidableEq

inductive TokenChange where
  | balanceDelta (key : TokenKey) (delta : I256)
  | approvalSet (key : TokenKey) (spender : Spender) (allowance : AllowanceSpec)
  | approvalRevoke (key : TokenKey) (spender : Spender) (scope : ApprovalScope)
  | erc721ApprovedTo (key : TokenKey) (spender : Option Address)
  | mint (key : TokenKey) (kindHint : TokenKind)

structure PositionPatch where
  fields : Json

inductive PositionChange where
  | opened (position : Position)
  | update (id : PositionId) (patch : PositionPatch)
  | close (id : PositionId)

mutual

/-- The changes one action makes, grouped by what they change. -/
structure StateDelta where
  tokenChanges : List TokenChange
  positionChanges : List PositionChange
  pendingChanges : List PendingChange
  gasPaid : Option (TokenRef × U256)

inductive PendingChange where
  | add (pending : PendingTx)
  | update (id : PendingId) (status : PendingStatus) (partialFill : Option Decimal)
  | remove (id : PendingId) (reason : PendingRemoveReason)

structure PendingTx where
  id : PendingId
  kind : PendingKind
  commitment : AssetCommitment
  fillEffect : StateDelta
  lifecycle : PendingLifecycle
  sync : DataSource
  signedAt : Time
  signaturePayload : List UInt8

end

def StateDelta.new : StateDelta := ⟨[], [], [], none⟩

/-! ## Wallets -/

structure WalletId where
  address : Address
  chains : Finset ChainId

structure BlockHeight where
  number : Unsigned 64
  time : Unsigned 64

structure WalletState where
  walletId : WalletId
  tokens : BTreeMap TokenKey TokenHolding
  approvals : ApprovalSet
  positions : List Position
  pending : List PendingTx
  blockHeights : BTreeMap ChainId BlockHeight
  portfolioValueUsd : Option Price

def WalletState.new (walletId : WalletId) : WalletState where
  walletId := walletId
  tokens := ∅
  approvals := ⟨∅, ∅, ∅⟩
  positions := []
  pending := []
  blockHeights := ∅
  portfolioValueUsd := none

inductive RequestKind where
  | transaction
  | signature
  | userOperation
deriving DecidableEq

inductive SimulationMode where
  | preview
  | commit
deriving DecidableEq

structure EvalContext where
  chain : ChainId
  now : Time
  actionIndex : Nat
  requestKind : RequestKind
  simulation : SimulationMode
deriving DecidableEq

end Dambi.Asset
