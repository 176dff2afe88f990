import Dambi.Asset.Balance

/-!
# Approvals

`helpers/approval.rs`: each helper checks the standard of its token and records
one token change. A Permit2 grant is recorded as a plain approval whose
timestamp is the expiration.
-/

namespace Dambi.Asset

open FixedWidth Fallible

/-- `matches!(key, TokenKey::Erc20 { .. })`. -/
def TokenKey.isErc20 : TokenKey → Bool
  | .erc20 _ _ => true
  | _ => false

def TokenKey.isErc721 : TokenKey → Bool
  | .erc721 _ _ _ => true
  | _ => false

section Approvals

variable (delta : StateDelta) (setAt : Time) (token : TokenRef) (spender : Address)

/-- The shape of the helpers on ERC-20 tokens: the check of the standard and one change. -/
def onErc20 (helper : String) (tc : TokenChange) : ReducerResult StateDelta := do
  ensure (token.key.isErc20 = true) (helper ++ " on non-Erc20 token")
  return delta.pushToken tc

def setErc20Allowance (amount : U256) : ReducerResult StateDelta :=
  let allowance :=
    if amount = Unsigned.maxValue then AllowanceSpec.unlimited setAt
    else AllowanceSpec.new amount setAt
  onErc20 delta token "set_erc20_allowance" (.approvalSet token.key spender allowance)

def revokeErc20Allowance : ReducerResult StateDelta :=
  onErc20 delta token "revoke_erc20_allowance" (.approvalRevoke token.key spender .erc20)

def revokePermit2Allowance : ReducerResult StateDelta :=
  onErc20 delta token "revoke_permit2_allowance" (.approvalRevoke token.key spender .permit2)

def upsertPermit2Allowance (amount : U256) (expiresAt : Time) : ReducerResult StateDelta :=
  onErc20 delta token "upsert_permit2_allowance"
    (.approvalSet token.key spender ⟨amount, amount = Unsigned.maxValue, expiresAt⟩)

/-- The collection is recorded under the key of its token zero. -/
def setForAll (chain : ChainId) (contract : Address) (approved : Bool) : StateDelta :=
  let placeholderKey := TokenKey.erc721 chain contract 0
  if approved then
    delta.pushToken (.approvalSet placeholderKey spender (AllowanceSpec.unlimited setAt))
  else delta.pushToken (.approvalRevoke placeholderKey spender .setForAll)

/-- The zero spender revokes. -/
def setNftApprove (nftKey : TokenKey) : ReducerResult StateDelta := do
  ensure (nftKey.isErc721 = true) "set_nft_approve requires TokenKey::Erc721"
  return delta.pushToken (.erc721ApprovedTo nftKey (if spender = 0 then none else some spender))

end Approvals

end Dambi.Asset
