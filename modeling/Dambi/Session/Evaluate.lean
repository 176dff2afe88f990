import Dambi.Session.Facts
import Dambi.Session.Planning

/-!
# Evaluating a plan

`CoreSession::evaluate_inner` (`session/mod.rs`) and its four entry points. The
clock of the host is a stream of readings; the scam channel runs first and reads
it as often as it likes, then one last reading is the time of the evaluation.
-/

namespace Dambi

open Fallible Oracle

variable {δ : Type}

/-! ## Check failures -/

/-- The failure categories that check orchestration may report; `none` is the empty text. -/
inductive CheckFailure where
  | aborted
  | timeout
  | factFetchFailed
  | invalidFact
  | limitExceeded
  | engineError
deriving DecidableEq, Repr

namespace CheckFailure

def code : CheckFailure → String
  | .aborted => "aborted"
  | .timeout => "timeout"
  | .factFetchFailed => "fact_fetch_failed"
  | .invalidFact => "invalid_fact"
  | .limitExceeded => "limit_exceeded"
  | .engineError => "engine_error"

def message : CheckFailure → String
  | .aborted => "check was cancelled"
  | .timeout => "Fact fetch timed out"
  | .factFetchFailed => "Fact provider failed"
  | .invalidFact => "Fact response could not be copied safely"
  | .limitExceeded => "Fact response exceeds the configured limit"
  | .engineError => "check could not complete"

/-- The category of a text: the outer `none` is an invalid one. -/
def ofText : String → Option (Option CheckFailure)
  | "" => some none
  | "aborted" => some (some .aborted)
  | "timeout" => some (some .timeout)
  | "fact_fetch_failed" => some (some .factFetchFailed)
  | "invalid_fact" => some (some .invalidFact)
  | "limit_exceeded" => some (some .limitExceeded)
  | "engine_error" => some (some .engineError)
  | _ => none

end CheckFailure

/-! ## The clock -/

abbrev ClockReadings := Nat → Nat

/-- The state of `read_clock`. -/
structure ClockState where
  reads : Nat := 0
  previous : Nat
  invalid : Bool := false

/-- `read_clock`: a reading must be safe and must not move backwards. -/
def readClock (clock : Option ClockReadings) (now : Nat) (c : ClockState) : Nat × ClockState :=
  let value := clock.elim now (· c.reads)
  let c := { c with reads := c.reads + 1 }
  if maxSafeInteger < value ∨ value < c.previous then
    (maxSafeInteger + 1, { c with invalid := true })
  else (value, { c with previous := value })

/-! ## Nodes -/

def policyBundles (snapshot : Snapshot δ) : Except SessionError (List BundleInput) :=
  match (snapshot.policy.verified.payload.index "policies").asArray with
  | none => .error ⟨"ENGINE_ERROR", "validated policies are unavailable"⟩
  | some entries => (entries.zip snapshot.policy.manifests).mapM fun (entry, manifest) =>
      match (entry.index "policy").asStr with
      | none => .error ⟨"ENGINE_ERROR", "validated Cedar source is unavailable"⟩
      | some policy => .ok ⟨policy, manifest⟩

/-- The loop over the calls of a node: the accepted values by the runtime's call ids, and a
failure for every required call without one. -/
def gatherResults (accepted : BTreeMap String Json) (path : List Nat)
    (state : BTreeMap String Json × Report) (call : Call) : BTreeMap String Json × Report :=
  match accepted[call.id]? with
  | some value => (state.1.insert call.runtime.callId value, state.2)
  | none =>
    if call.runtime.optional then state
    else (state.1, state.2.fail "required_fact_missing" "required Fact is unavailable"
      (some call.id) (some path))

/-- What the runtime is asked about a node. -/
def nodeInput (node : Node) (bundles : List BundleInput) (results : BTreeMap String Json) :
    EvaluateActionInput where
  action := node.action
  actionMeta := node.actionMeta
  tx := node.tx
  bundles
  results

/-- The body of the loop over the nodes of a plan. -/
def evaluateNode (engines : Engines) (bundles : Except SessionError (List BundleInput))
    (accepted : BTreeMap String Json) (r : Report) (node : Node) : Report :=
  let r := if node.action.isUnknown then
      r.partialDecode "action could not be interpreted" node.path
    else r
  match node.planningError with
  | some error => r.fail "engine_error" error.message none (some node.path)
  | none =>
    let (results, r) := node.calls.foldl (gatherResults accepted node.path) (∅, r)
    let r := if node.matched then r else
      r.diagnostic "no_matching_policy" "no policy trigger matches this action" none
        (some node.path)
    match bundles with
    | .error error => r.fail "engine_error" error.message none (some node.path)
    | .ok bundles =>
      match evaluateAction engines (nodeInput node bundles results) with
      | .ok verdict => r.engine verdict node accepted
      | .error error => r.fail "engine_error" error.message none (some node.path)

/-! ## One evaluation -/

section Evaluation

variable (env : SessionEnv δ) (lifecycles : Lifecycles) (limits : SessionLimits)

/-- The report of an evaluation from the time of its last clock reading on. -/
def policyReport (planId : String) (plan : PendingPlan δ) (factsText : String)
    (failure : Option CheckFailure) (clockInvalid : Bool) (evaluatedAt : Nat) : Report :=
  let r : Report := failure.elim {} fun failure =>
    ({} : Report).fail failure.code failure.message none none
  if clockInvalid then
    r.fail "engine_error" "evaluation clock is invalid or moved backwards" none none
  else if plan.expiresAt ≤ evaluatedAt then
    r.fail "timeout" "plan expired during evaluation" none none
  else match plan.snapshot.ensureUsable lifecycles evaluatedAt with
  | .error error => r.fail "trust_expired" error.message none none
  | .ok _ =>
    let (accepted, r) := validateFacts env.parseJson limits evaluatedAt factsText planId
      plan.nodes r
    let r := if plan.partialDecode then
        r.partialDecode "transaction decoder reported partial interpretation" []
      else r
    plan.nodes.foldl (evaluateNode env.engines (policyBundles plan.snapshot) accepted) r

def expiredReport (failure : Option CheckFailure) : Report :=
  let r := ({} : Report).fail "timeout" "plan expired before check completed" none none
  match failure with
  | none | some .timeout => r
  | some failure => r.fail failure.code "check could not complete" none none

def scamDeadline (plan : PendingPlan δ) (factsText : String) : Option Nat :=
  (policyFactDeadline env.parseJson factsText limits.maxFactBytes limits.maxFactAgeMs).map
    fun facts => min (min facts plan.expiresAt) plan.snapshot.policy.validUntilMs

def scamChannel (planId : String) (plan : PendingPlan δ) (factsText : String) (now : Nat)
    (failure : Option CheckFailure) (scamInput : Option String) : Program Nat (Option Json) :=
  match plan.scam with
  | none => pure none
  | some scam =>
    if failure.isSome then pure (some (scam.failed env.scam .noTimeBudget))
    else some <$> scam.evaluate env.scam env.parseJson planId scamInput now
      (scamDeadline env limits plan factsText) limits.allowedClockSkewMs

def evaluatePlan (enforcement planId : String) (plan : PendingPlan δ) (factsText : String)
    (now : Nat) (failure : Option CheckFailure) (scamInput : Option String)
    (clock : Option ClockReadings) : EvaluationReport :=
  let (scam, c) := (scamChannel env limits planId plan factsText now failure scamInput).run
    (readClock clock now) { previous := now }
  let (evaluatedAt, c) := readClock clock now c
  composeScam ((policyReport env lifecycles limits planId plan factsText failure c.invalid
    evaluatedAt).finish enforcement (planMetadata plan.digest plan.snapshot)) scam

end Evaluation

namespace CoreSession

variable (env : SessionEnv δ) (lifecycles : Lifecycles) (s : CoreSession δ)

def missingCode (planId : String) : String :=
  (s.retired.reverse.find? (·.1 = planId)).elim "INVALID_PLAN" (·.2.code)

variable (planId factsText : String) (now : Nat)

/-- `evaluate_inner`. A check passes its failure category, which is `none` for the empty
text; the other entry points pass nothing. -/
def evaluateInner (check : Option (Option CheckFailure)) (scamInput : Option String)
    (clock : Option ClockReadings) : Except SessionError EvaluationReport × CoreSession δ :=
  match (do s.live lifecycles; sessionClock now : Except SessionError Unit) with
  | .error error => (.error error, s)
  | .ok _ =>
    match s.plans[planId]? with
    | none =>
      (.error ⟨s.missingCode planId, "plan is foreign, unknown or no longer usable"⟩, s)
    | some plan =>
      if plan.expiresAt ≤ now then
        let s := s.discard planId .expired
        match check with
        | none => (.error ⟨"PLAN_EXPIRED", "plan TTL has expired"⟩, s)
        | some failure =>
          (.ok (composeScam ((expiredReport failure).finish s.enforcement
            (planMetadata plan.digest plan.snapshot))
            (plan.scam.map (·.failed env.scam .noTimeBudget))), s)
      else
        -- consumed before any fact or trust state is looked at
        let s := s.discard planId .consumed
        (.ok (evaluatePlan env lifecycles s.limits s.enforcement planId plan factsText now
          check.join scamInput clock), s)

def evaluate : Except SessionError EvaluationReport × CoreSession δ :=
  s.evaluateInner env lifecycles planId factsText now none none none

def evaluateCheck (failure : String) :
    Except SessionError EvaluationReport × CoreSession δ :=
  match CheckFailure.ofText failure with
  | none => (.error ⟨"ENGINE_ERROR", "invalid check failure category"⟩, s)
  | some failure => s.evaluateInner env lifecycles planId factsText now (some failure) none none

def evaluateScam (planId factsText scamInput : String) (now : Nat)
    (clock : ClockReadings) : Except SessionError EvaluationReport × CoreSession δ :=
  s.evaluateInner env lifecycles planId factsText now none (some scamInput) (some clock)

def evaluateCheckScam (planId factsText scamInput : String) (now : Nat)
    (failure : String) (clock : ClockReadings) :
    Except SessionError EvaluationReport × CoreSession δ :=
  match CheckFailure.ofText failure with
  | none => (.error ⟨"ENGINE_ERROR", "invalid check failure category"⟩, s)
  | some failure =>
    s.evaluateInner env lifecycles planId factsText now (some failure) (some scamInput)
      (some clock)

end CoreSession

end Dambi
