import Dambi.PolicyRpc.Materialize
import Dambi.Policy.Engine

/-!
# The action runtime

`runtime/mod.rs`: planning and evaluating one decoded action against a list of
policy bundles. Lowering and per-policy schema synthesis are parameters beside
Cedar; both are pure functions of what they are given.
-/

namespace Dambi

open Fallible

/-! ## Inputs -/

/-- `EngineErrorDto`. -/
structure EngineError where
  kind : String
  message : String
deriving DecidableEq, Repr

/-- The addresses of a `TxInput` are lowercased at construction. -/
structure TxInput where
  chainId : String
  from_ : String
  to_ : String
deriving DecidableEq, Repr

def TxInput.new (chainId from_ to_ : String) : TxInput :=
  ⟨chainId, Text.toAsciiLowercase from_, Text.toAsciiLowercase to_⟩

def TxInput.view (tx : TxInput) : TxView := ⟨tx.chainId, tx.from_, tx.to_⟩

structure HostState where
  tokenDecimals : List (String × Nat) := []
  accountLeverage : List (String × Int) := []
  orderEnrichment : Json := .null

/-- A lowered action. Every lowering hand-builds its context as an object and
leaves the `custom` slot to the materialiser. -/
structure LoweredAction where
  principal : String
  actionUid : String
  resource : String
  fields : List (String × Json)
  noCustom : fields.lookup "custom" = none

def LoweredAction.context (lowered : LoweredAction) : Json := .obj lowered.fields

structure BundleInput where
  policy : String
  manifest : ManifestV2

structure EvaluateActionInput where
  action : ActionBody
  actionMeta : ActionMeta
  tx : TxInput
  bundles : List BundleInput
  results : BTreeMap String Json := ∅
  host : HostState := {}

structure PlanActionInput where
  manifests : List ManifestV2
  action : ActionBody
  actionMeta : ActionMeta
  tx : TxInput
  host : HostState := {}

/-- What the runtime calls: Cedar, `lower_action_enriched` (by the text of its
error) and `compose_per_policy`. -/
structure Engines where
  cedar : Cedar
  lowerAction : ActionBody → ActionMeta → TxInput → HostState → Except String LoweredAction
  composePerPolicy : ManifestV2 → Except PolicyRpcError String

def Engines.withAuthorizer (engines : Engines) (g : Authorizer) : Engines :=
  { engines with cedar.isAuthorized := g }

/-! ## Shared helpers -/

def checkManifestCount (count : Nat) (entry : String) : Except EngineError Unit :=
  require (count ≤ maxPolicyRpcV2Manifests) ⟨"input_too_large",
    s!"{entry} manifest/bundle count {count} exceeds 128 item limit"⟩

section Helpers

variable (engines : Engines) (action : ActionBody)

def lower (actionMeta : ActionMeta) (tx : TxInput) (host : HostState) :
    Except EngineError LoweredAction :=
  (engines.lowerAction action actionMeta tx host).mapError (⟨"unsupported_action", ·⟩)

/-- `plan`. -/
def planCalls (manifests : List ManifestV2) (action : ActionBody) (lowered : LoweredAction)
    (tx : TxInput) : Except EngineError (List PlannedCallV2) :=
  (planPolicyRpcV2 manifests action.view lowered.context tx.view).mapError
    fun error => ⟨"plan_failed", error.display⟩

def ManifestV2.usable (m : ManifestV2) (view : ActionView) (tx : TxView) : Bool :=
  m.applies view tx && m.validate.isOk

/-- The loop of `matching_valid_manifests`: `seen` are the ids of `out`. -/
def collectManifests (view : ActionView) (tx : TxView) (seen : List String)
    (out : List ManifestV2) : List ManifestV2 → Except EngineError (List ManifestV2)
  | [] => .ok out
  | m :: rest =>
    if m.usable view tx then do
      let seen ← insertFresh seen m.id ⟨"duplicate_manifest_id",
        s!"matching policy-rpc manifest id `{m.id}` appears more than once"⟩
      collectManifests view tx seen (out ++ [m]) rest
    else collectManifests view tx seen out rest

def matchingValidManifests (manifests : List ManifestV2) (action : ActionBody) (tx : TxInput) :
    Except EngineError (List ManifestV2) :=
  collectManifests action.view tx.view [] [] manifests

def entitiesForTx (tx : TxInput) : Json :=
  .arr [
    .obj [("attrs", .obj [("address", .str tx.from_)]), ("parents", .arr []),
      ("uid", .obj [("id", .str tx.from_), ("type", .str "Wallet")])],
    .obj [("attrs", .obj []), ("parents", .arr []),
      ("uid", .obj [("id", .str tx.to_), ("type", .str "Protocol")])]]

def systemPolicyId : String := "__system__"

def systemFailVerdict : PolicyRpcError → Option Verdict
  | .systemFail callId _ => some (.fail [{
      policyId := systemPolicyId
      reason := some s!"rpc-unavailable: {callId}"
      severity := .deny
      origin := .action }])
  | _ => none

def quarantineVerdict (error : EngineError) : Verdict :=
  let policyId := s!"__engine::quarantine::{error.kind}"
  .warn [{
    policyId
    reason := some (if error.message = "" then policyId else error.message)
    severity := .warn
    origin := .action }]

/-! ## Evaluation -/

def evaluatePolicy (bundle : BundleInput) (tx : TxInput) (lowered : LoweredAction)
    (context : Json) : Except EngineError Verdict := do
  let schema ← (engines.composePerPolicy bundle.manifest).mapError
    fun error => ⟨"schema_failed", error.display⟩
  let engine ← (buildFromPerPolicy engines.cedar [(bundle.policy, schema)]).mapError
    fun error => ⟨"install_failed", error.display⟩
  (engine.evaluate engines.cedar lowered.principal lowered.actionUid lowered.resource
    (entitiesForTx tx) context).mapError fun error => ⟨"policy", error.display⟩

/-- The closure of `evaluate_matching_bundles` over one bundle: `none` where the
bundle does not apply. -/
def bundleOutcome (tx : TxInput) (lowered : LoweredAction)
    (planned : List PlannedCallV2) (results : BTreeMap String Json) (bundle : BundleInput) :
    Except EngineError (Option Verdict) :=
  if bundle.manifest.applies action.view tx.view then do
    bundle.manifest.validate.mapError fun error => ⟨"invalid_manifest", error.display⟩
    let bundlePlanned := planned.filter (·.manifestId = bundle.manifest.id)
    match materializeV2 results lowered.context bundlePlanned with
    | .error error =>
      match systemFailVerdict error with
      | some verdict => .ok (some verdict)
      | none => .error ⟨"projection_failed", error.display⟩
    | .ok context => some <$> evaluatePolicy engines bundle tx lowered context
  else .ok none

/-- What a bundle contributes to the aggregate: a fault of the bundle is
quarantined to a warning. -/
def bundleVerdict (tx : TxInput) (lowered : LoweredAction)
    (planned : List PlannedCallV2) (results : BTreeMap String Json) (bundle : BundleInput) :
    Option Verdict :=
  match bundleOutcome engines action tx lowered planned results bundle with
  | .ok verdict => verdict
  | .error error => some (quarantineVerdict error)

def evaluateMatchingBundles (bundles : List BundleInput) (action : ActionBody) (tx : TxInput)
    (lowered : LoweredAction) (planned : List PlannedCallV2) (results : BTreeMap String Json) :
    Verdict :=
  .aggregate (bundles.filterMap (bundleVerdict engines action tx lowered planned results))

def evaluateAction (input : EvaluateActionInput) : Except EngineError Verdict := do
  checkManifestCount input.bundles.length "evaluate_action_v2_json"
  let lowered ← lower engines input.action input.actionMeta input.tx input.host
  let manifests ← matchingValidManifests (input.bundles.map (·.manifest)) input.action input.tx
  let planned ← planCalls manifests input.action lowered input.tx
  .ok (evaluateMatchingBundles engines input.bundles input.action input.tx lowered planned
    input.results)

def planAction (input : PlanActionInput) : Except EngineError (List PlannedCallV2) := do
  checkManifestCount input.manifests.length "plan_action_rpc_v2_json"
  let lowered ← lower engines input.action input.actionMeta input.tx input.host
  let manifests ← matchingValidManifests input.manifests input.action input.tx
  planCalls manifests input.action lowered input.tx

end Helpers

end Dambi
