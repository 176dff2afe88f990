import Dambi.Asset.Approval

/-!
# Token actions

`effect/token.rs`: transfers, approvals and their revocations, and signed
permits, which only add a pending signature.
-/

namespace Dambi.Asset

open FixedWidth Fallible

/-! ## Actions -/

structure Erc20ApproveAction where
  token : TokenRef
  spender : Address
  amount : U256

structure Erc20PermitAction where
  token : TokenRef
  spender : Address
  amount : U256
  deadline : Time
  nonce : LiveField U256

structure Permit2ApproveAction where
  token : TokenRef
  spender : Address
  amount : U256
  expiresAt : Time

structure Permit2SignAction where
  token : TokenRef
  spender : Address
  amount : U256
  expiresAt : Time
  sigDeadline : Time
  nonce : LiveField (U256 × Unsigned 8)

structure Permit2SignTransferAction where
  token : TokenRef
  owner : Address
  spender : Address
  amount : U256
  nonce : LiveField (U256 × Unsigned 8)
  sigDeadline : Time
  witnessType : Option String

structure Permit2TransferFromAction where
  token : TokenRef
  owner : Address
  spender : Address
  recipient : Address
  amount : U256
  permittedAmount : U256
  nonce : LiveField (U256 × Unsigned 8)
  sigDeadline : Time
  witnessType : Option String

structure Erc20TransferAction where
  token : TokenRef
  recipient : Address
  amount : U256
  isRouterEgress : Bool

structure NftApproveAction where
  nftKey : TokenKey
  spender : Address

structure NftSetForAllAction where
  chain : ChainId
  contract : Address
  spender : Address
  approved : Bool

structure NftTransferAction where
  nftKey : TokenKey
  amount : Option U256
  recipient : Address

inductive RevokeScope where
  | erc20 (token : TokenRef) (spender : Address)
  | nftSingleToken (nftKey : TokenKey)
  | nftSetForAll (chain : ChainId) (contract : Address) (spender : Address)
  | permit2Lockdown (token : TokenRef) (spender : Address)
  | permit2UnorderedNonce (chain : ChainId) (wordPos mask : U256)

structure RevokeApprovalAction where
  scope : RevokeScope

structure RefundNativeAction where
  token : TokenRef
  recipient : Address

structure WrapNativeAction where
  token : TokenRef
  amount : U256

structure UnwrapNativeAction where
  token : TokenRef
  amount : U256

inductive TokenAction where
  | erc20Approve (a : Erc20ApproveAction)
  | erc20Permit (a : Erc20PermitAction)
  | permit2Approve (a : Permit2ApproveAction)
  | permit2SignAllowance (a : Permit2SignAction)
  | permit2SignTransfer (a : Permit2SignTransferAction)
  | permit2TransferFrom (a : Permit2TransferFromAction)
  | erc20Transfer (a : Erc20TransferAction)
  | nftApprove (a : NftApproveAction)
  | nftSetApprovalForAll (a : NftSetForAllAction)
  | nftTransfer (a : NftTransferAction)
  | revokeApproval (a : RevokeApprovalAction)
  | refundNative (a : RefundNativeAction)
  | wrapNative (a : WrapNativeAction)
  | unwrapNative (a : UnwrapNativeAction)

/-! ## Signed permits -/

/-- `delta.pending_changes.push(pc)`. -/
def StateDelta.pushPending (delta : StateDelta) (pc : PendingChange) : StateDelta :=
  { delta with pendingChanges := delta.pendingChanges ++ [pc] }

def pendingIdForEip2612 (tokenAddr spender : Address) (nonce : U256) : String :=
  s!"eip2612:{lowercaseHex tokenAddr}:{lowercaseHex spender}:{nonce}"

def pendingIdForPermit2 (tokenAddr spender : Address) (word : U256) (bit : Unsigned 8) : String :=
  s!"permit2:{lowercaseHex tokenAddr}:{lowercaseHex spender}:{word}:{bit}"

def pendingIdForPermit2Transfer (tokenAddr owner spender : Address) (word : U256)
    (bit : Unsigned 8) : String :=
  s!"permit2-transfer:{lowercaseHex tokenAddr}:{lowercaseHex owner}:{lowercaseHex spender}:" ++
    s!"{word}:{bit}"

def erc20Address (action : String) : TokenKey → ReducerResult Address
  | .erc20 _ address => .ok address
  | _ => broken (action ++ ".token must be Erc20")

/-- A permit that its holder may use until it expires. -/
def signedPermit (id : PendingId) (kind : PendingKind) (token : TokenRef) (spender : Address)
    (amount : U256) (validUntil : Time) (nonce : NonceKey) (now : Time) : PendingTx where
  id := id
  kind := kind
  commitment := .permitCap token spender amount
  fillEffect := .new
  lifecycle := { status := .active, validUntil := some validUntil, nonce := some nonce }
  sync := .userSupplied
  signedAt := now
  signaturePayload := []

/-! ## Reducers -/

section Reducers

variable (state : WalletState) (ctx : EvalContext)

def Erc20ApproveAction.apply (a : Erc20ApproveAction) : ReducerResult StateDelta :=
  setErc20Allowance .new ctx.now a.token a.spender a.amount

def Erc20PermitAction.apply (a : Erc20PermitAction) : ReducerResult StateDelta := do
  let tokenAddr ← erc20Address "Erc20PermitAction" a.token.key
  let nonce := a.nonce.value
  return StateDelta.new.pushPending <| .add <|
    signedPermit (pendingIdForEip2612 tokenAddr a.spender nonce)
      (.signedEip2612 a.token a.spender a.amount a.deadline nonce)
      a.token a.spender a.amount a.deadline (.eip2612 tokenAddr nonce) ctx.now

def Permit2ApproveAction.apply (a : Permit2ApproveAction) : ReducerResult StateDelta :=
  upsertPermit2Allowance .new a.token a.spender a.amount a.expiresAt

def Permit2SignAction.apply (a : Permit2SignAction) : ReducerResult StateDelta := do
  let tokenAddr ← erc20Address "Permit2SignAction" a.token.key
  let (word, bit) := a.nonce.value
  -- The deadline of the signature itself is not recorded.
  return StateDelta.new.pushPending <| .add <|
    signedPermit (pendingIdForPermit2 tokenAddr a.spender word bit)
      (.signedPermit2 a.token a.spender a.amount a.expiresAt (word, bit))
      a.token a.spender a.amount a.expiresAt (.permit2 word bit) ctx.now

def Permit2SignTransferAction.apply (a : Permit2SignTransferAction) : ReducerResult StateDelta :=
  if a.owner ≠ state.walletId.address then .ok .new
  else do
    let tokenAddr ← erc20Address "Permit2SignTransferAction" a.token.key
    let (word, bit) := a.nonce.value
    return StateDelta.new.pushPending <| .add <|
      signedPermit (pendingIdForPermit2Transfer tokenAddr a.owner a.spender word bit)
        (.signedPermit2Transfer a.token a.owner a.spender a.amount a.sigDeadline (word, bit)
          a.witnessType)
        a.token a.spender a.amount a.sigDeadline (.permit2 word bit) ctx.now

def Permit2TransferFromAction.apply (a : Permit2TransferFromAction) : ReducerResult StateDelta :=
  if a.owner ≠ state.walletId.address then .ok .new
  else do
    ensure (a.token.key.isErc20 = true) "Permit2TransferFromAction.token must be Erc20"
    transfer state .new a.token.key a.recipient a.amount

def Erc20TransferAction.apply (a : Erc20TransferAction) : ReducerResult StateDelta :=
  transfer state .new a.token.key a.recipient a.amount

def NftApproveAction.apply (a : NftApproveAction) : ReducerResult StateDelta :=
  setNftApprove .new a.spender a.nftKey

def NftSetForAllAction.apply (a : NftSetForAllAction) : ReducerResult StateDelta :=
  .ok (setForAll .new ctx.now a.spender a.chain a.contract a.approved)

def NftTransferAction.apply (a : NftTransferAction) : ReducerResult StateDelta :=
  transferNft state .new a.nftKey a.recipient a.amount

def RevokeApprovalAction.apply (a : RevokeApprovalAction) : ReducerResult StateDelta :=
  match a.scope with
  | .erc20 token spender => revokeErc20Allowance .new token spender
  | .nftSingleToken nftKey => setNftApprove .new 0 nftKey
  | .nftSetForAll chain contract spender => .ok (setForAll .new 0 spender chain contract false)
  | .permit2Lockdown token spender => revokePermit2Allowance .new token spender
  -- The nonce bitmap is not part of the wallet.
  | .permit2UnorderedNonce _ _ _ => .ok .new

/-- Wrapping, unwrapping and refunds are not simulated. -/
def TokenAction.apply : TokenAction → ReducerResult StateDelta
  | .erc20Approve a => a.apply ctx
  | .erc20Permit a => a.apply ctx
  | .permit2Approve a => a.apply
  | .permit2SignAllowance a => a.apply ctx
  | .permit2SignTransfer a => a.apply state ctx
  | .permit2TransferFrom a => a.apply state
  | .erc20Transfer a => a.apply state
  | .nftApprove a => a.apply
  | .nftSetApprovalForAll a => a.apply ctx
  | .nftTransfer a => a.apply state
  | .revokeApproval a => a.apply
  | .refundNative _ => .ok .new
  | .wrapNative _ => .ok .new
  | .unwrapNative _ => .ok .new

end Reducers

/-! ## Permit2 grants and their revocation -/

section Permit2

variable {codec : PositionCodec} {state s₁ s₂ : WalletState} {token : TokenRef}
  {spender : Address} {amount : U256} {expiresAt : Time}

/-- Every allowance of a spender in one wallet is one of another. -/
structure NoNewAllowance (spender : Address) (before after : ApprovalSet) : Prop where
  erc20 : ∀ key spec, after.allowance key spender = some spec →
    before.allowance key spender = some spec
  setForAll : ∀ key, after.hasSetForAll key spender → before.hasSetForAll key spender
  permit2 : ∀ chain addr allowance, after.permit2Of (chain, addr, spender) = some allowance →
    before.permit2Of (chain, addr, spender) = some allowance

/-- A Permit2 grant followed by its revocation leaves nothing behind, and the grant leaves the
plain allowances alone. -/
def Permit2Cancels (codec : PositionCodec) (state : WalletState) (token : TokenRef)
    (spender : Address) (amount : U256) (expiresAt : Time) : Prop :=
  ∀ grant s₁ revoke s₂,
    Permit2ApproveAction.apply ⟨token, spender, amount, expiresAt⟩ = .ok grant →
    applyDelta codec state grant = .ok s₁ →
    RevokeApprovalAction.apply ⟨.permit2Lockdown token spender⟩ = .ok revoke →
    applyDelta codec s₁ revoke = .ok s₂ →
      NoNewAllowance spender state.approvals s₂.approvals ∧
        s₁.approvals.erc20 = state.approvals.erc20

def granted (amount : U256) (expiresAt : Time) : AllowanceSpec :=
  ⟨amount, amount = Unsigned.maxValue, expiresAt⟩

def WalletState.withGrant (s : WalletState) (key : ContractAddrKey) (spender : Address)
    (spec : AllowanceSpec) : WalletState :=
  let spenders := (s.approvals.erc20.lookup key).getD ∅
  { s with approvals :=
    { s.approvals with erc20 := s.approvals.erc20.insert key (spenders.insert spender spec) } }

variable {chain : ChainId}

theorem applyDelta_grant {a : Address} {g : StateDelta} (ht : token.key = .erc20 chain a)
    (h : Permit2ApproveAction.apply ⟨token, spender, amount, expiresAt⟩ = .ok g) :
    applyDelta codec state g =
      .ok (state.withGrant (chain, a) spender (granted amount expiresAt)) := by
  obtain ⟨_, -, h⟩ := bind_eq_ok.1 h
  cases h
  simp only [ht]
  rfl

theorem applyDelta_lockdown {addr : Address} {r : StateDelta} (ht : token.key = .erc20 chain addr)
    (h : RevokeApprovalAction.apply ⟨.permit2Lockdown token spender⟩ = .ok r) :
    applyDelta codec state r = .ok { state with approvals :=
      { state.approvals with
        permit2 := state.approvals.permit2.erase (chain, addr, spender) } } := by
  obtain ⟨_, -, h⟩ := bind_eq_ok.1 h
  cases h
  simp only [ht]
  rfl

theorem withGrant_self {key : ContractAddrKey} {sp : AllowanceSpec}
    (h : state.approvals.allowance key spender = some sp) :
    state.withGrant key spender sp = state := by
  obtain ⟨ss, hsp, hs⟩ := Option.bind_eq_some_iff.1 h
  simp [WalletState.withGrant, hsp, insert_of_lookup hs, insert_of_lookup hsp]

/-- A Permit2 grant and its revocation cancel exactly when the token is not an ERC-20, which both
refuse, or the spender already had the same plain allowance: the grant is recorded as one, and
the revocation only removes Permit2 allowances. -/
theorem permit2_cancels_iff : Permit2Cancels codec state token spender amount expiresAt ↔
    ∀ chain addr, token.key = .erc20 chain addr →
      state.approvals.allowance (chain, addr) spender = some (granted amount expiresAt) := by
  constructor
  · intro hc chain addr ht
    have he20 : token.key.isErc20 = true := by
      rw [ht]
      rfl
    have hg : Permit2ApproveAction.apply ⟨token, spender, amount, expiresAt⟩ = .ok _ :=
      bind_eq_ok.2 ⟨(), require_pos he20, rfl⟩
    have hr : RevokeApprovalAction.apply ⟨.permit2Lockdown token spender⟩ = .ok _ :=
      bind_eq_ok.2 ⟨(), require_pos he20, rfl⟩
    obtain ⟨hn, -⟩ := hc _ _ _ _ hg (applyDelta_grant ht hg) hr
      (applyDelta_lockdown ht hr)
    exact hn.erc20 _ _ (by simp [WalletState.withGrant, ApprovalSet.allowance])
  · intro ha grant s₁ revoke s₂ hg hs₁ hr hs₂
    obtain ⟨_, he20, -⟩ := bind_eq_ok.1 hg
    have he20 := require_eq_ok.1 he20
    cases ht : token.key with
    | erc20 chain addr =>
      have hse := withGrant_self (ha chain addr ht)
      rw [applyDelta_grant ht hg, hse] at hs₁
      cases hs₁
      rw [applyDelta_lockdown ht hr] at hs₂
      cases hs₂
      refine ⟨⟨fun _ _ h => h, fun _ h => h, fun chain' addr' allowance h => ?_⟩, rfl⟩
      by_cases heq : (chain', addr', spender) = (chain, addr, spender)
      · rw [heq] at h
        exact absurd h (by simp [ApprovalSet.permit2Of])
      · exact (Finmap.lookup_erase_ne heq).symm.trans h
    | _ => simp [ht, TokenKey.isErc20] at he20

end Permit2

def fresh {α : Type} (value : α) : LiveField α := ⟨value, .userSupplied, 0, none, none⟩

def usdc : TokenKey := .erc20 ⟨"eip155:1"⟩ 0xa0b86991c6218b36c1d19d4a2e9eb0ce3606eb48

/-- A grant and its revocation leave the spender with a plain allowance of the amount. -/
theorem permit2_grant_left_behind :
    (do let grant ← Permit2ApproveAction.apply ⟨⟨usdc⟩, 7, 100, 50⟩
        let s₁ ← applyDelta .numbered (walletHolding usdc 0) grant
        let revoke ← RevokeApprovalAction.apply ⟨.permit2Lockdown ⟨usdc⟩ 7⟩
        let s₂ ← applyDelta .numbered s₁ revoke
        return ((walletHolding usdc 0).approvals.allowance (⟨"eip155:1"⟩,
            0xa0b86991c6218b36c1d19d4a2e9eb0ce3606eb48) 7,
          s₂.approvals.allowance (⟨"eip155:1"⟩, 0xa0b86991c6218b36c1d19d4a2e9eb0ce3606eb48) 7)) =
      .ok (none, some ⟨100, false, 50⟩) :=
  rfl

end Dambi.Asset
