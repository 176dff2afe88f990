import Dambi.Json

/-!
# Decoded actions

`ActionBody` of the `asset-model` crate. The fifteen domain enums carry no
action of their own, so they are one constructor here: a domain with the serde
tag, the venue and the remaining fields of the action.
-/

namespace Dambi

abbrev Address := BitVec 160
abbrev U256 := BitVec 256

/-- The domains of `ActionBody` other than `Multicall` and `Unknown`. -/
inductive Domain where
  | token
  | amm
  | lending
  | airdrop
  | launchpad
  | perp
  | liquidStaking
  | permission
  | yield_
  | restaking
  | staking
  | governance
  | hyperliquidCore
  | bridge
  | marketplace
deriving DecidableEq, Repr

def Domain.tag : Domain → String
  | .token => "token"
  | .amm => "amm"
  | .lending => "lending"
  | .airdrop => "airdrop"
  | .launchpad => "launchpad"
  | .perp => "perp"
  | .liquidStaking => "liquid_staking"
  | .permission => "permission"
  | .yield_ => "yield"
  | .restaking => "restaking"
  | .staking => "staking"
  | .governance => "governance"
  | .hyperliquidCore => "hyperliquid_core"
  | .bridge => "bridge"
  | .marketplace => "marketplace"

structure DomainAction where
  domain : Domain
  actionTag : String
  venueName : Option String := none
  fields : Json := .null

inductive ActionBody where
  | domain (action : DomainAction)
  | multicall (actions : List ActionBody)
  | unknown (target : Address) (chain : String) (calldata : String) (value : U256)

/-- What lowering reads of the outer `Action` beside its body. -/
structure ActionMeta where
  submittedAt : Nat
  submitter : Address
  nature : Json

structure Action where
  meta_ : ActionMeta
  body : ActionBody

structure ActionView where
  domain : String
  actionTag : Option String
  venueName : Option String
deriving DecidableEq, Repr

namespace ActionBody

def view : ActionBody → ActionView
  | .domain action => ⟨action.domain.tag, some action.actionTag, action.venueName⟩
  | .multicall _ => ⟨"multicall", none, none⟩
  | .unknown .. => ⟨"unknown", none, none⟩

def isUnknown : ActionBody → Bool
  | .unknown .. => true
  | _ => false

mutual

/-- The nodes of an action tree, a batch before its children. -/
def preorder : ActionBody → List ActionBody
  | .multicall actions => .multicall actions :: preorderAll actions
  | body => [body]

def preorderAll : List ActionBody → List ActionBody
  | [] => []
  | body :: rest => preorder body ++ preorderAll rest

end

theorem preorderAll_eq_flatMap (acs : List ActionBody) :
    preorderAll acs = acs.flatMap preorder := by
  induction acs with
  | nil => simp [preorderAll]
  | cons body r ih => simp [preorderAll, ih]

mutual

/-- `body_has_unknown`. -/
def hasUnknown : ActionBody → Bool
  | .unknown .. => true
  | .multicall actions => anyUnknown actions
  | .domain _ => false

def anyUnknown : List ActionBody → Bool
  | [] => false
  | body :: rest => hasUnknown body || anyUnknown rest

end

theorem anyUnknown_eq_any (acs : List ActionBody) : anyUnknown acs = acs.any hasUnknown := by
  induction acs with
  | nil => simp [anyUnknown]
  | cons body r ih => simp [anyUnknown, ih]

@[simp] theorem anyUnknown_append (left right : List ActionBody) :
    anyUnknown (left ++ right) = (anyUnknown left || anyUnknown right) := by
  simp [anyUnknown_eq_any]

mutual

theorem hasUnknown_iff : ∀ body : ActionBody,
    hasUnknown body = true ↔ ∃ node ∈ preorder body, node.isUnknown = true
  | .domain _ => by simp [hasUnknown, preorder, isUnknown]
  | .unknown .. => by simp [hasUnknown, preorder, isUnknown]
  | .multicall acs => by simp [hasUnknown, preorder, isUnknown, anyUnknown_iff acs]

theorem anyUnknown_iff : ∀ acs : List ActionBody,
    anyUnknown acs = true ↔ ∃ node ∈ preorderAll acs, node.isUnknown = true
  | [] => by simp [anyUnknown, preorderAll]
  | body :: r => by
    simp [anyUnknown, preorderAll, hasUnknown_iff body, anyUnknown_iff r, or_and_right, exists_or]

end

theorem hasUnknown_of_isUnknown {body : ActionBody} (h : body.isUnknown = true) :
    body.hasUnknown = true := by
  cases body <;> simp_all [isUnknown, hasUnknown]

end ActionBody

end Dambi
