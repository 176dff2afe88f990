import Dambi.Asset.Numbers
import Dambi.Asset.Position

/-!
# Airdrops, launchpads and the Hyperliquid account

The reducers of `effect/airdrop.rs`, `effect/launchpad.rs` and
`effect/hyperliquid_core`. A claim credits a token and records a position; an
outflow of the core account only moves a pending amount.
-/

namespace Dambi.Asset

open FixedWidth Fallible

/-! ## Airdrops -/

inductive ClaimTarget where
  | merkleDistributor (chain : ChainId) (contract : Address) (index : Unsigned 64)
  | signatureDistributor (chain : ChainId) (contract : Address)
  | stakingClaim (chain : ChainId) (contract : Address)

structure ClaimAirdropAction where
  source : ProtocolRef
  claimTarget : ClaimTarget
  recipient : Address
  proof : Option MerkleProof
  sig : Option (List UInt8)
  isStillClaimable : LiveField Bool
  actualAmount : LiveField U256
  claimToken : LiveField TokenRef
  claimWindow : LiveField (Option (Time × Time))

structure DelegateGovernanceAction where
  token : TokenRef

inductive AirdropAction where
  | claim (a : ClaimAirdropAction)
  | delegate (a : DelegateGovernanceAction)

section Airdrops

variable (state : WalletState) (ctx : EvalContext) (a : ClaimAirdropAction)

def validateClaimTarget : ReducerResult Unit :=
  match a.claimTarget with
  | .merkleDistributor .. =>
    if a.proof.isNone then
      fail (.missingField "ClaimAirdropAction.proof for MerkleDistributor")
    else .ok ()
  | .signatureDistributor .. =>
    if a.sig.isNone then fail (.missingField "ClaimAirdropAction.sig for SignatureDistributor")
    else .ok ()
  | .stakingClaim .. => .ok ()

def insideWindow (now : Time) (window : Time × Time) : Prop := window.1 ≤ now ∧ now ≤ window.2

instance (now : Time) (window : Time × Time) : Decidable (insideWindow now window) :=
  inferInstanceAs (Decidable (_ ∧ _))

def checkClaimWindow : ReducerResult Unit :=
  match a.claimWindow.value with
  | none => .ok ()
  | some window => ensure (insideWindow ctx.now window)
      (s!"airdrop claim from {a.source.name} is outside its valid window " ++
        s!"({window.1}..={window.2})")

def airdropPositionId : String :=
  s!"airdrop:{a.source.name}:{lowercaseHex a.recipient}"

def claimedPosition : Position where
  id := airdropPositionId a
  protocol := a.source
  chain := some a.claimToken.value.key.chain
  kind := .airdropClaim
    { source := a.source
      claimable := a.claimToken.value
      amount := a.actualAmount.value
      proof := a.proof
      claimWindow := a.claimWindow.value
      status := .claimed }
  primitivesSyncedAt := ctx.now
  primitivesSource := .userSupplied

/-- The position is recorded whether or not there is one of its name. -/
def ClaimAirdropAction.apply : ReducerResult StateDelta := do
  ensure (a.isStillClaimable.value = true)
    s!"airdrop claim from {quoted a.source.name} is no longer claimable"
  checkClaimWindow ctx a
  validateClaimTarget a
  let delta ← credit state .new a.claimToken.value.key a.actualAmount.value
  return delta.pushPosition (.opened (claimedPosition ctx a))

def DelegateGovernanceAction.apply (a : DelegateGovernanceAction) : ReducerResult StateDelta :=
  match a.token.key with
  | .erc20 _ _ => .ok .new
  | other => broken s!"DelegateGovernanceAction.token must be Erc20, got {other.debug}"

def AirdropAction.apply : AirdropAction → ReducerResult StateDelta
  | .claim a => a.apply state ctx
  | .delegate a => a.apply

end Airdrops

/-! ## Launchpads -/

structure SaleState where
  isActive : Bool
  totalCommitted : U256
  hardCap : Option U256
  saleWindow : Time × Time
  vestSchedule : Option VestSchedule

structure CommitAction where
  platform : ProtocolRef
  saleId : String
  payToken : TokenRef
  amount : U256
  recipient : Address
  saleState : LiveField SaleState
  userCap : LiveField U256
  userCommitted : LiveField U256

structure ClaimAllocationAction where
  platform : ProtocolRef
  saleId : String
  recipient : Address
  allocated : LiveField (TokenRef × U256)
  refundDue : LiveField U256
  isClaimable : LiveField Bool

structure ClaimVestedAction where
  positionId : PositionId
  amount : Option U256
  claimableNow : LiveField U256

structure RefundAction where
  platform : ProtocolRef
  saleId : String
  recipient : Address
  refundAmount : LiveField U256
  refundToken : LiveField TokenRef

structure WithdrawCommitAction where
  platform : ProtocolRef
  saleId : String
  amount : Option U256
  withdrawable : LiveField U256
  saleState : LiveField SaleState

inductive LaunchpadAction where
  | commit (a : CommitAction)
  | claimAllocation (a : ClaimAllocationAction)
  | claimVested (a : ClaimVestedAction)
  | refund (a : RefundAction)
  | withdrawCommit (a : WithdrawCommitAction)

section Launchpads

variable (codec : PositionCodec) (state : WalletState) (ctx : EvalContext)

def launchpadPositionId (platformName saleId : String) (recipient : Address) : String :=
  s!"launchpad:{platformName}:{saleId}:{lowercaseHex recipient}"

/-- `push_position_update`, at the time of the action. -/
def pushPositionUpdate (delta : StateDelta) (position : Position) (kind : PositionKind) :
    StateDelta :=
  let newPosition := { position with kind, primitivesSyncedAt := ctx.now }
  delta.pushPosition (.update newPosition.id (snapshotPatch codec newPosition))

def allocationOf (id : PositionId) (position : Position) : ReducerResult LaunchpadAllocation :=
  match position.kind with
  | .launchpadAllocation alloc => .ok alloc
  | _ => broken s!"position {id} exists but is not a LaunchpadAllocation"

variable (a : CommitAction)

def checkSale : ReducerResult Unit := do
  let sale := a.saleState.value
  ensure (sale.isActive = true) s!"launchpad commit rejected: sale {a.saleId} is not active"
  ensure (insideWindow ctx.now sale.saleWindow)
    (s!"launchpad commit on sale {a.saleId} outside sale_window " ++
      s!"({sale.saleWindow.1}..={sale.saleWindow.2})")
  let newUserTotal ← addOr a.userCommitted.value a.amount
    s!"launchpad commit overflow on sale {a.saleId}"
  ensure (newUserTotal ≤ a.userCap.value)
    s!"launchpad commit on sale {a.saleId} exceeds user cap ({newUserTotal} > {a.userCap.value})"
  match sale.hardCap with
  | none => .ok ()
  | some hard =>
    let newTotal ← addOr sale.totalCommitted a.amount
      s!"launchpad commit overflow on sale {a.saleId} total_committed"
    ensure (newTotal ≤ hard)
      s!"launchpad commit on sale {a.saleId} exceeds hard cap ({newTotal} > {hard})"

/-- What has been paid, with one more payment. -/
def addPaid (token : TokenRef) (amount : U256) :
    List (TokenRef × U256) → ReducerResult (List (TokenRef × U256))
  | [] => .ok [(token, amount)]
  | (t, paid) :: rest =>
    if t = token then do return (t, ← addOr paid amount "paid sum overflow") :: rest
    else do return (t, paid) :: (← addPaid token amount rest)

def newAllocation : Position where
  id := launchpadPositionId a.platform.name a.saleId a.recipient
  protocol := a.platform
  chain := some a.payToken.key.chain
  kind := .launchpadAllocation
    { platform := a.platform
      saleId := a.saleId
      paid := [(a.payToken, a.amount)]
      allocated := (a.payToken, 0)
      vest := a.saleState.value.vestSchedule.getD ⟨ctx.now, none, some ctx.now, .linear, 0⟩
      claimed := 0
      claimableNow := 0 }
  primitivesSyncedAt := ctx.now
  primitivesSource := .userSupplied

def CommitAction.apply : ReducerResult StateDelta := do
  checkSale ctx a
  let delta ← debit state .new a.payToken.key a.amount
  let id := launchpadPositionId a.platform.name a.saleId a.recipient
  match effectivePosition state delta id with
  | some existing =>
    let alloc ← allocationOf id existing
    let paid ← addPaid a.payToken a.amount alloc.paid
    return pushPositionUpdate codec ctx delta existing (.launchpadAllocation { alloc with paid })
  | none => return delta.pushPosition (.opened (newAllocation ctx a))

def paidToken (missing : String) (alloc : LaunchpadAllocation) : ReducerResult TokenRef := do
  return (← orBroken alloc.paid.head? missing).1

/-- An allocation that has been claimed: it vests, or it is the wallet's at once. -/
def settledAllocation (allocated : TokenRef × U256) (alloc : LaunchpadAllocation) :
    LaunchpadAllocation :=
  if alloc.vest.start < alloc.vest.stop.getD alloc.vest.start then
    { alloc with allocated, vest := { alloc.vest with total := allocated.2 } }
  else { alloc with allocated, claimed := allocated.2, claimableNow := 0 }

/-- What was paid too much goes back in the token it was paid in. -/
def creditRefund (delta : StateDelta) (id : PositionId) (alloc : LaunchpadAllocation)
    (refundDue : U256) : ReducerResult StateDelta :=
  if refundDue = 0 then .ok delta
  else do
    let payToken ← paidToken s!"ClaimAllocation refund on {id} but no paid entries" alloc
    credit state delta payToken.key refundDue

def ClaimAllocationAction.apply (a : ClaimAllocationAction) : ReducerResult StateDelta := do
  ensure (a.isClaimable.value = true)
    s!"launchpad allocation on sale {a.saleId} is not yet claimable"
  let delta ← credit state .new a.allocated.value.1.key a.allocated.value.2
  let id := launchpadPositionId a.platform.name a.saleId a.recipient
  let existing ← orFail (effectivePosition state delta id) (.positionNotFound id)
  let alloc ← allocationOf id existing
  let delta ← creditRefund state delta id alloc a.refundDue.value
  return pushPositionUpdate codec ctx delta existing
    (.launchpadAllocation (settledAllocation a.allocated.value alloc))

def vestedToken (id : PositionId) : PositionKind → ReducerResult TokenRef
  | .launchpadAllocation alloc => .ok alloc.allocated.1
  | .vestingSchedule schedule => .ok schedule.token
  | other => broken
    (s!"ClaimVested target {id} is not a LaunchpadAllocation or VestingSchedule (got " ++
      s!"{codec.debugKind other})")

/-- A position after a claim. An allocation takes what is claimable from the live inputs, a
vesting schedule from itself. -/
def afterClaim (claimableNow requested : U256) : PositionKind → ReducerResult PositionKind
  | .launchpadAllocation alloc => do
    let claimed ← addOr alloc.claimed requested "claimed overflow"
    return .launchpadAllocation
      { alloc with claimed, claimableNow := claimableNow.saturatingSub requested }
  | .vestingSchedule schedule => do
    let claimed ← addOr schedule.claimed requested "claimed overflow"
    return .vestingSchedule
      { schedule with claimed, claimableNow := schedule.claimableNow.saturatingSub requested }
  | other => .ok other

def ClaimVestedAction.apply (a : ClaimVestedAction) : ReducerResult StateDelta := do
  let id := a.positionId
  let existing ← orFail (effectivePosition state .new id) (.positionNotFound id)
  let claimableNow := a.claimableNow.value
  let requested := a.amount.getD claimableNow
  ensure (requested ≤ claimableNow)
    s!"ClaimVested on {id} requests {requested} > claimable_now {claimableNow}"
  if requested = 0 then return .new
  let token ← vestedToken codec id existing.kind
  let delta ← credit state .new token.key requested
  let kind ← afterClaim claimableNow requested existing.kind
  return pushPositionUpdate codec ctx delta existing kind

def RefundAction.apply (a : RefundAction) : ReducerResult StateDelta := do
  ensure (a.refundAmount.value ≠ 0) s!"RefundAction on sale {a.saleId} has refund_amount = 0"
  let delta ← credit state .new a.refundToken.value.key a.refundAmount.value
  let id := launchpadPositionId a.platform.name a.saleId a.recipient
  if (effectivePosition state delta id).isSome then return delta.pushPosition (.close id)
  else return delta

/-- The sum of the payments, which starts over where it would overflow. -/
def totalPaid (paid : List (TokenRef × U256)) : U256 :=
  paid.foldl (fun acc entry => (acc.checkedAdd entry.2).getD 0) 0

/-- What is left of the first payment. -/
def reducePaid (requested : U256) : List (TokenRef × U256) → List (TokenRef × U256)
  | [] => []
  | (token, paid) :: rest => (token, paid.saturatingSub requested) :: rest

def WithdrawCommitAction.apply (a : WithdrawCommitAction) : ReducerResult StateDelta := do
  ensure (a.saleState.value.isActive = true)
    s!"WithdrawCommit on sale {a.saleId} rejected: sale is no longer active"
  let withdrawable := a.withdrawable.value
  let requested := a.amount.getD withdrawable
  ensure (requested ≠ 0) s!"WithdrawCommit on sale {a.saleId} requested zero"
  ensure (requested ≤ withdrawable)
    s!"WithdrawCommit on sale {a.saleId}: requested {requested} > withdrawable {withdrawable}"
  let id := launchpadPositionId a.platform.name a.saleId state.walletId.address
  let existing ← orFail (effectivePosition state .new id) (.positionNotFound id)
  let alloc ← allocationOf id existing
  let payToken ← paidToken s!"WithdrawCommit on {id} but position has no paid entries" alloc
  let delta ← credit state .new payToken.key requested
  if totalPaid alloc.paid ≤ requested then return delta.pushPosition (.close id)
  else
    return pushPositionUpdate codec ctx delta existing
      (.launchpadAllocation { alloc with paid := reducePaid requested alloc.paid })

def LaunchpadAction.apply : LaunchpadAction → ReducerResult StateDelta
  | .commit a => a.apply codec state ctx
  | .claimAllocation a => a.apply codec state ctx
  | .claimVested a => a.apply codec state ctx
  | .refund a => a.apply state
  | .withdrawCommit a => a.apply codec state ctx

end Launchpads

/-! ## The Hyperliquid account -/

/-- The actions of the domain. Those that are not simulated carry no data here. -/
inductive HyperliquidCoreAction where
  | coreLimitOrder
  | withdraw (amount : Decimal)
  | usdSend (amount : Decimal)
  | spotSend
  | usdClassTransfer
  | sendAsset
  | sendToEvmWithData
  | cDeposit
  | cWithdraw
  | vaultTransfer
  | subAccountTransfer
  | tokenDelegate
  | unknown

section Hyperliquid

variable {D : Type} (kit : DecimalKit D) (codec : PositionCodec) (state : WalletState)
  (ctx : EvalContext)

def hlAccountId : PositionId := "hyperliquid/account"

def hlPosition (account : HlAccount) : Position where
  id := hlAccountId
  protocol := { name := "hyperliquid" }
  chain := none
  kind := .hyperliquidAccount account
  primitivesSyncedAt := ctx.now
  primitivesSource := .userSupplied

def findHlAccount : Option HlAccount :=
  state.positions.findSome? fun p =>
    match p.kind with
    | .hyperliquidAccount account => if p.id = hlAccountId then some account else none
    | _ => none

def parseHl (d : Decimal) : ReducerResult D :=
  described s!"HL decimal parse {quoted d.text}" (kit.fromStr d.text)

def decimalSubNonneg (lhs rhs : Decimal) : ReducerResult Decimal := do
  let l ← parseHl kit lhs
  let r ← parseHl kit rhs
  let out ← operator (kit.sub l r)
  ensure (kit.isSignNegative out = false) s!"HL balance underflow: {lhs} - {rhs} < 0"
  return decimalToState kit out

def decimalNonneg (d : Decimal) : ReducerResult Decimal := do
  let v ← parseHl kit d
  ensure (kit.isSignNegative v = false) s!"HL amount must be non-negative, got {d}"
  return decimalToState kit v

def decimalAdd (lhs rhs : Decimal) : ReducerResult Decimal := do
  let l ← parseHl kit lhs
  let r ← parseHl kit rhs
  return decimalToState kit (← operator (kit.add l r))

/-- `if let PositionKind::HyperliquidAccount(a) = &mut pos.kind`. -/
def mutateHl (change : HlAccount → HlAccount) (p : Position) : Position :=
  match p.kind with
  | .hyperliquidAccount account => { p with kind := .hyperliquidAccount (change account) }
  | _ => p

/-- The balance after an outflow, where one is known. -/
def reducedUsdc (amount : Decimal) : Option Decimal → ReducerResult (Option Decimal)
  | some bal => some <$> decimalSubNonneg kit bal amount
  | none => .ok none

def applyOutflow (amount : Decimal) : ReducerResult StateDelta := do
  let amount ← decimalNonneg kit amount
  match findHlAccount state with
  | some base =>
    let newUsdc ← reducedUsdc kit amount base.perpUsdc
    let newOutflow ← decimalAdd kit base.pendingOutflow amount
    upsertHlAccount codec state .new hlAccountId (mutateHl fun account =>
      { account with perpUsdc := newUsdc, pendingOutflow := newOutflow })
  | none => openPosition state .new (hlPosition ctx { pendingOutflow := amount })

def HyperliquidCoreAction.apply : HyperliquidCoreAction → ReducerResult StateDelta
  | .withdraw amount => applyOutflow kit codec state ctx amount
  | .usdSend amount => applyOutflow kit codec state ctx amount
  | _ => .ok .new

end Hyperliquid

end Dambi.Asset
