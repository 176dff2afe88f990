import Dambi.Session.Basic

/-!
# Planning a request

`CoreSession::plan` and `append_node` (`session/mod.rs`). A plan has one node
for every node of the decoded action trees, a batch before its children; what
planning fails on is kept with the node.
-/

namespace Dambi

open Fallible

variable {δ : Type}

def maxActionNodes : Nat := 256

/-- The accumulators of `append_node`. -/
structure PlanBuild where
  nodes : List Node := []
  calls : List Call := []

/-- What is the same for all nodes of one root action. -/
structure PlanScope (δ : Type) where
  request : Request
  snapshot : Snapshot δ
  planId : String
  actionMeta : ActionMeta
  maxCalls : Nat

namespace PlanScope

variable (env : SessionEnv δ) (scope : PlanScope δ)

def tx : TxInput := .new scope.request.chain scope.request.from_ scope.request.to_

variable (action : ActionBody)

def matched : Bool :=
  scope.snapshot.policy.manifests.any (·.applies action.view scope.tx.view)

/-- The node of an action before anything is planned for it. -/
def node (path : List Nat) : Node where
  path
  action
  actionMeta := scope.actionMeta
  tx := scope.tx
  calls := []
  planningError := none
  matched := scope.matched action

/-- The calls of a node, numbered on from those before it. -/
def issueCalls (first : Nat) (planned : List PlannedCallV2) : List Call :=
  planned.zipIdx.map fun (call, index) => ⟨s!"{scope.planId}-c{first + index}", call⟩

/-- The part of `append_node` that plans one node. -/
def planNode (path : List Nat) (build : PlanBuild) :
    Except SessionError PlanBuild := do
  require (build.nodes.length < maxActionNodes)
    ⟨"LIMIT_EXCEEDED", "decoded action tree exceeds node limit"⟩
  match planAction env.engines {
      manifests := scope.snapshot.policy.manifests
      action
      actionMeta := scope.actionMeta
      tx := scope.tx } with
  | .error error =>
    let planningError := some ⟨"ENGINE_ERROR", error.message⟩
    .ok { build with nodes := build.nodes ++ [{ scope.node action path with planningError }] }
  | .ok planned =>
    require (build.calls.length + planned.length ≤ scope.maxCalls)
      ⟨"LIMIT_EXCEEDED", "plan exceeds maxPlanCalls"⟩
    let calls := scope.issueCalls build.calls.length planned
    .ok {
      nodes := build.nodes ++ [{ scope.node action path with calls }]
      calls := build.calls ++ calls }

mutual

def appendNode : ActionBody → List Nat → PlanBuild → Except SessionError PlanBuild
  | .multicall actions, path, build => do
    let build ← scope.planNode env (.multicall actions) path build
    appendChildren path 0 actions build
  | action, path, build => scope.planNode env action path build

def appendChildren (path : List Nat) : Nat → List ActionBody → PlanBuild →
    Except SessionError PlanBuild
  | _, [], build => .ok build
  | index, child :: rest, build => do
    let build ← appendNode child (path ++ [index]) build
    appendChildren path (index + 1) rest build

end

end PlanScope

/-! ## The plan -/

structure PlanReply where
  planId : String
  calls : List Call
  expiresAt : Nat
  metadata : PlanMetadata
  scamCalls : Option (List Json)
  policyPlanDeadlineMs : Option Nat

def planMetadata (digest : String) (snapshot : Snapshot δ) : PlanMetadata where
  requestDigest := digest
  policyVersion := toString snapshot.policy.sequence

/-- The nodes and calls of all root actions: a single root has the empty path. -/
def buildPlan (env : SessionEnv δ) (request : Request) (snapshot : Snapshot δ) (planId : String)
    (maxCalls : Nat) : Except SessionError PlanBuild :=
  request.actions.zipIdx.foldlM (fun build (action, index) =>
    let scope : PlanScope δ :=
      { request, snapshot, planId, actionMeta := action.meta_, maxCalls }
    scope.appendNode env action.body (if request.actions.length = 1 then [] else [index]) build) {}

def checkStandalone (nodes : List Node) : Except SessionError Unit :=
  match nodes with
  | [node] => node.planningError.elim (.ok ()) .error
  | _ => .ok ()

namespace CoreSession

/-- `plan` between the eviction and the insertion: the number of the new plan, the plan
and the reply. -/
def preparePlan (env : SessionEnv δ) (lifecycles : Lifecycles) (s : CoreSession δ)
    (requestText : String) (now : Nat) :
    Except SessionError (Nat × PendingPlan δ × PlanReply) := do
  require (s.plans.size < s.limits.maxPendingPlans) ⟨"LIMIT_EXCEEDED",
    "maxPendingPlans reached; consume a plan or wait for expiry"⟩
  let snapshot ← (s.store.current lifecycles now).mapError .ofSnapshot
  let request ← env.decodeRequest requestText snapshot.decoder now s.limits.maxRequestBytes
  let expiresAt := now + s.limits.planTtlMs
  require (expiresAt ≤ maxSafeInteger)
    ⟨"INVALID_CONFIG", "plan expiry exceeds safe integer time"⟩
  let number := s.nextPlan + 1
  require (number ≤ maxSafeInteger) ⟨"LIMIT_EXCEEDED", "plan identifier space exhausted"⟩
  let planId := planIdOf s.owner number
  let build ← buildPlan env request snapshot planId s.limits.maxPlanCalls
  checkStandalone build.nodes
  let scam := s.scam.map fun state => state.pin env.scam build.nodes planId now
  .ok (number, {
    request := request.original
    digest := request.digest
    snapshot
    expiresAt
    nodes := build.nodes
    partialDecode := request.partialDecode
    scam
  }, {
    planId
    calls := build.calls
    expiresAt
    metadata := planMetadata request.digest snapshot
    scamCalls := scam.map (·.calls)
    policyPlanDeadlineMs := scam.map fun _ => min expiresAt snapshot.policy.validUntilMs })

def plan (env : SessionEnv δ) (lifecycles : Lifecycles) (s : CoreSession δ) (requestText : String)
    (now : Nat) : Except SessionError PlanReply × CoreSession δ :=
  match (do s.live lifecycles; sessionClock now : Except SessionError Unit) with
  | .error error => (.error error, s)
  | .ok _ =>
    let s := s.evictExpired now
    match s.preparePlan env lifecycles requestText now with
    | .error error => (.error error, s)
    | .ok (number, plan, reply) =>
      (.ok reply, { s with plans := s.plans.insert reply.planId plan, nextPlan := number })

/-- What a prepared plan is made of: the next number, the active snapshot and the nodes of
the decoded request. -/
structure Prepared (env : SessionEnv δ) (lifecycles : Lifecycles) (s : CoreSession δ)
    (requestText : String) (now number : Nat) (plan : PendingPlan δ) (reply : PlanReply)
    (request : Request) (build : PlanBuild) : Prop where
  room : s.plans.size < s.limits.maxPendingPlans
  current : s.store.current lifecycles now = .ok plan.snapshot
  decoded : env.decodeRequest requestText plan.snapshot.decoder now s.limits.maxRequestBytes =
    .ok request
  next : number = s.nextPlan + 1
  planId : reply.planId = planIdOf s.owner (s.nextPlan + 1)
  built : buildPlan env request plan.snapshot reply.planId s.limits.maxPlanCalls = .ok build
  standalone : checkStandalone build.nodes = .ok ()
  nodes : plan.nodes = build.nodes
  partialDecode : plan.partialDecode = request.partialDecode
  expiresAt : plan.expiresAt = now + s.limits.planTtlMs

theorem prepared_of_preparePlan {env : SessionEnv δ} {ls : Lifecycles}
    {s : CoreSession δ} {rt : String} {now number : Nat} {plan : PendingPlan δ} {reply : PlanReply}
    (h : s.preparePlan env ls rt now = .ok (number, plan, reply)) :
    ∃ r build,
      Prepared env ls s rt now number plan reply r build := by
  simp only [preparePlan, bind_eq_ok, mapError_eq_ok, require_eq_ok] at h
  obtain ⟨-, hro, sn, hc, r, hd, -, -, -, -, build, hb, _, hs, hr⟩ := h
  cases hr
  exact ⟨r, build, hro, hc, hd, rfl, rfl, hb, hs, rfl, rfl, rfl⟩

end CoreSession

end Dambi
