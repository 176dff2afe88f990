import Dambi.PolicyRpc.Manifest
import Dambi.Action

/-!
# Triggers and selectors

`policy_rpc/trigger.rs` decides whether a manifest applies to an action, and
`policy_rpc/selector.rs` reads one field out of the five selector roots.
-/

namespace Dambi

open Fallible

structure TxView where
  chainId : String
  from_ : String
  to_ : String
deriving DecidableEq, Repr

/-! ## Triggers -/

def scopeMatchesPosition (scope : TriggerScope) (action : ActionView) : Bool :=
  let isMulticall := action.domain == "multicall"
  match scope with
  | .inner => !isMulticall
  | .outer => isMulticall

def matchesPresentValues (primary : String) (alias_ : Option String)
    (constraint : TriggerConstraint) : Bool :=
  let anyEq (want : String) : Bool := primary == want || alias_ == some want
  match constraint with
  | .eq want => anyEq want
  | .ne want => !anyEq want
  | .isIn set => set.any anyEq
  | .nin set => !set.any anyEq

def matchesField (field : TriggerField) (constraint : TriggerConstraint)
    (action : ActionView) (tx : TxView) : Bool :=
  let present (have_ : String) : Bool :=
    match constraint with
    | .eq want => have_ == want
    | .ne want => have_ != want
    | .isIn set => set.any (· == have_)
    | .nin set => !set.any (· == have_)
  -- an absent field is "not that value": only the negative constraints hold
  let absent : Bool :=
    match constraint with
    | .ne _ | .nin _ => true
    | .eq _ | .isIn _ => false
  match field with
  | .actionDomain =>
    let alias_ :=
      if action.domain = "hyperliquid_core" ∧ action.actionTag = some "hl_unknown" then
        some "unknown"
      else none
    matchesPresentValues action.domain alias_ constraint
  | .actionTag => action.actionTag.elim absent present
  | .actionVenue => action.venueName.elim absent present
  | .txChainId => present tx.chainId
  | .txFrom => present tx.from_
  | .txTo => present tx.to_

/-- `evaluate`, re-exported as `evaluate_trigger`. -/
def evaluateTrigger (trigger : Trigger) (action : ActionView) (tx : TxView) : Bool :=
  trigger.where_.all fun (field, constraint) => matchesField field constraint action tx

/-- The gate that planning and evaluation share. -/
def ManifestV2.applies (m : ManifestV2) (action : ActionView) (tx : TxView) : Bool :=
  scopeMatchesPosition m.trigger.scope action && evaluateTrigger m.trigger action tx

/-! ## Selectors -/

/-- The values a selector may start from. -/
structure SelectorRoots where
  root : Json := .obj []
  action : Json := .obj []
  context : Json := .obj []
  result : Json := .obj []
  params : Json := .obj []

def SelectorRoots.named (roots : SelectorRoots) : String → Option Json
  | "root" => some roots.root
  | "action" => some roots.action
  | "context" => some roots.context
  | "result" => some roots.result
  | "params" => some roots.params
  | _ => none

/-- The field accesses of `resolve_selector`, from the value reached so far. -/
def resolveFields (selector : String) : Json → List String → Except PolicyRpcError Json
  | current, [] => .ok current
  | current, field :: rest => do
    require (field ≠ "") (.selector s!"empty selector segment in {selector}")
    match current.get? field with
    | none => .error (.selector s!"selector field `{field}` not found in {selector}")
    | some value => resolveFields selector value rest

def resolveSelector (selector : String) (roots : SelectorRoots) : Except PolicyRpcError Json := do
  require (Text.startsWith selector "$.") (.selector s!"selector must start with `$.`: {selector}")
  require (selector.toList.all fun c => c ∉ ['[', ']', '*', '(', ')'])
    (.selector s!"selector uses unsupported syntax: {selector}")
  match Text.split (String.ofList (selector.toList.drop 2)) '.' with
  | [] => .error (.selector "selector is empty")
  | rootName :: fields =>
    match roots.named rootName with
    | none => .error (.selector s!"unknown selector root `{rootName}`")
    | some value => resolveFields selector value fields

example :
    resolveSelector "$.result.usd" { result := .obj [("usd", .str "3.5")] } = .ok (.str "3.5") :=
  rfl

end Dambi
