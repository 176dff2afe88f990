import Dambi.Session.Frame
import Dambi.Session.Verdict

/-!
# The decision of an evaluation call

Every evaluation call that reports has its decision from the plan, the facts and
the last reading of the clock, through the scam channel's composition: `allow`
clears the plan in every respect, and every failure denies.
-/

namespace Dambi

open Fallible Machine

variable {δ : Type}

/-! ## Evaluation calls -/

/-- What the four entry points pass to `evaluate_inner`. -/
structure EvaluationCall where
  planId : String
  factsText : String
  now : Nat
  check : Option (Option CheckFailure) := none
  scamInput : Option String := none
  clock : Option ClockReadings := none

/-- The evaluation a command asks for; an invalid failure category asks for none. -/
def SessionCommand.evaluation : SessionCommand → Option EvaluationCall
  | .evaluate planId factsText now => some { planId, factsText, now }
  | .evaluateCheck planId factsText now failure =>
    (CheckFailure.ofText failure).map fun check => { planId, factsText, now, check := some check }
  | .evaluateScam planId factsText scamInput now clock =>
    some { planId, factsText, now, scamInput := some scamInput, clock := some clock }
  | .evaluateCheckScam planId factsText scamInput now failure clock =>
    (CheckFailure.ofText failure).map fun check =>
      { planId, factsText, now, check := some check, scamInput := some scamInput,
        clock := some clock }
  | _ => none

namespace EvaluationCall

def run (env : SessionEnv δ) (w : SessionWorld δ) (call : EvaluationCall) :
    Except SessionError EvaluationReport × CoreSession δ :=
  w.session.evaluateInner env w.lifecycles call.planId call.factsText call.now call.check
    call.scamInput call.clock

def failure (call : EvaluationCall) : Option CheckFailure := call.check.join

end EvaluationCall

private theorem report_of_ofExcept {result : Except SessionError EvaluationReport}
    {report : EvaluationReport}
    (h : SessionAnswer.ofExcept .report result = .report report) : result = .ok report := by
  cases result with
  | error error => cases h
  | ok o =>
    cases h
    rfl

/-- A reporting call is an evaluation, and the report is that of `evaluate_inner`. -/
theorem SessionWorld.step_report {env : SessionEnv δ} {w : SessionWorld δ}
    {c : SessionCommand} {report : EvaluationReport} (h : (w.step env c).1 = .report report) :
    ∃ call, c.evaluation = some call ∧ (call.run env w).1 = .ok report := by
  have he := w.step_effect env c
  cases c with
  | evaluate pi ft now | evaluateScam pi ft si now cl => exact ⟨_, rfl, report_of_ofExcept h⟩
  | evaluateCheck pi ft now failure =>
    have ho := report_of_ofExcept h
    simp only [CoreSession.evaluateCheck] at ho
    cases hf : CheckFailure.ofText failure with
    | none => rw [hf] at ho; cases ho
    | some ch =>
      rw [hf] at ho
      exact ⟨_, congrArg (Option.map _) hf, ho⟩
  | evaluateCheckScam pi ft si now failure cl =>
    have ho := report_of_ofExcept h
    simp only [CoreSession.evaluateCheckScam] at ho
    cases hf : CheckFailure.ofText failure with
    | none => rw [hf] at ho; cases ho
    | some ch =>
      rw [hf] at ho
      exact ⟨_, congrArg (Option.map _) hf, ho⟩
  | _ =>
    rw [h] at he
    obtain ⟨pi, hc⟩ := he.evaluates_of_report
    cases hc

/-! ## Composition -/

/-- What the scam channel may make of a policy report. -/
structure EvaluationReport.Composed (policy report : EvaluationReport) : Prop where
  source : report.source = policy.source
  facts : report.facts = policy.facts
  diagnostics : report.diagnostics = policy.diagnostics
  metadata : report.metadata = policy.metadata
  verdict : report.decision = policy.decision ∧ report.reasons = policy.reasons ∨
    report.decision = (if policy.decision = .allow then .warn else policy.decision) ∧
      report.reasons = policy.reasons ++ [scamRiskReason]

theorem composed_composeScam (policy : EvaluationReport) (s : Option Json) :
    policy.Composed (composeScam policy s) := by
  cases s with
  | none => exact ⟨rfl, rfl, rfl, rfl, .inl ⟨rfl, rfl⟩⟩
  | some s =>
    simp only [composeScam]
    split
    · exact ⟨rfl, rfl, rfl, rfl, .inr ⟨rfl, rfl⟩⟩
    · exact ⟨rfl, rfl, rfl, rfl, .inl ⟨rfl, rfl⟩⟩

namespace EvaluationReport.Composed

variable {policy report : EvaluationReport}

theorem deny_iff (h : policy.Composed report) :
    report.decision = .deny ↔ policy.decision = .deny := by
  obtain ⟨hd, -⟩ | ⟨hd, -⟩ := h.verdict
  · rw [hd]
  · rw [hd]
    cases policy.decision <;> decide

theorem allow (h : policy.Composed report) (ha : report.decision = .allow) :
    policy.decision = .allow := by
  obtain ⟨hd, -⟩ | ⟨hd, -⟩ := h.verdict
  · rw [← hd, ha]
  · rw [hd] at ha
    revert ha
    cases policy.decision <;> decide

end EvaluationReport.Composed

theorem expiredReport_deny (failure : Option CheckFailure) :
    (expiredReport failure).decision = .deny ∧ (expiredReport failure).source = .failClosed := by
  cases failure with
  | none => exact ⟨rfl, rfl⟩
  | some failure => cases failure <;> exact ⟨rfl, rfl⟩

/-! ## The clock of the evaluation -/

section Call

variable (env : SessionEnv δ) (w : SessionWorld δ) (call : EvaluationCall) (plan : PendingPlan δ)

def EvaluationCall.lastReading : Nat × ClockState :=
  readClock call.clock call.now ((scamChannel env w.session.limits call.planId plan call.factsText
    call.now call.failure call.scamInput).run (readClock call.clock call.now)
      { previous := call.now }).2

def EvaluationCall.evaluatedAt : Nat := (call.lastReading env w plan).1

def EvaluationCall.clockInvalid : Bool := (call.lastReading env w plan).2.invalid

def EvaluationCall.policyReport : Report :=
  Dambi.policyReport env w.lifecycles w.session.limits call.planId plan call.factsText call.failure
    (call.clockInvalid env w plan) (call.evaluatedAt env w plan)

theorem EvaluationCall.composed_evaluatePlan :
    ((call.policyReport env w plan).finish w.session.enforcement
      (planMetadata plan.digest plan.snapshot)).Composed
      (evaluatePlan env w.lifecycles w.session.limits w.session.enforcement call.planId plan
        call.factsText call.now call.failure call.scamInput call.clock) :=
  composed_composeScam ..

theorem EvaluationCall.report_cases {env : SessionEnv δ} {w : SessionWorld δ}
    {call : EvaluationCall} {report : EvaluationReport} (h : (call.run env w).1 = .ok report) :
    ∃ plan, w.session.plans[call.planId]? = some plan ∧
      (plan.expiresAt ≤ call.now ∧ report.decision = .deny ∧ report.source = .failClosed ∨
        call.now < plan.expiresAt ∧
          ((call.policyReport env w plan).finish w.session.enforcement
            (planMetadata plan.digest plan.snapshot)).Composed report) := by
  unfold EvaluationCall.run CoreSession.evaluateInner at h
  split at h
  · cases h
  · split at h
    · cases h
    · next plan hp =>
      refine ⟨plan, hp, ?_⟩
      split at h
      · next he =>
        cases hc : call.check with
        | none => rw [hc] at h; cases h
        | some failure =>
          rw [hc] at h
          cases h
          obtain ⟨hd, hs⟩ := expiredReport_deny failure
          have hco := composed_composeScam ((expiredReport failure).finish
            w.session.enforcement (planMetadata plan.digest plan.snapshot))
            (plan.scam.map (·.failed env.scam .noTimeBudget))
          exact .inl ⟨he, hco.deny_iff.2 hd, hco.source.trans hs⟩
      · next he =>
        cases h
        exact .inr ⟨Nat.not_le.1 he, call.composed_evaluatePlan env w plan⟩

/-- The plan of the request is clear in every respect at the time of the evaluation. -/
structure Cleared (request : Request) : Prop where
  clock : call.clockInvalid env w plan = false
  unexpired : call.now < plan.expiresAt ∧ call.evaluatedAt env w plan < plan.expiresAt
  fresh : w.lifecycles plan.snapshot.lifecycle = false ∧
    plan.snapshot.policy.Fresh (call.evaluatedAt env w plan)
  noFailure : call.failure = none
  /-- The batch is in order, and every required call of every node has its fact. -/
  facts : ∃ results, FactsOk env.parseJson w.session.limits (call.evaluatedAt env w plan)
      call.factsText call.planId plan.nodes results ∧
    ∀ node ∈ plan.nodes, ∀ c ∈ node.calls, c.runtime.optional = false →
      ∃ value, results.lookup c.id = some value ∧
        Provenance w.session.limits (call.evaluatedAt env w plan) value
  planned : ∀ node ∈ plan.nodes, node.planningError = none
  /-- No node at any depth is unknown. -/
  known : ∀ action ∈ request.actions, ∀ body ∈ action.body.preorder, body.isUnknown = false
  whole : request.partialDecode = false
  pass : ∀ node ∈ plan.nodes, planVerdict env w.session.limits call.planId plan call.factsText
    (call.evaluatedAt env w plan) node = some .pass

/-- The evaluation fails, or the runtime fails some node. -/
def Denied : Prop :=
  plan.expiresAt ≤ call.now ∨
  EvaluationFails env w.lifecycles w.session.limits call.planId plan call.factsText call.failure
    (call.clockInvalid env w plan) (call.evaluatedAt env w plan) ∨
  ∃ node ∈ plan.nodes, ∃ matched, planVerdict env w.session.limits call.planId plan
    call.factsText (call.evaluatedAt env w plan) node = some (.fail matched)

variable {env w call plan}

private theorem provenance_of_accepted {pi ft id : String} {ls : SessionLimits} {now : Nat}
    {rs : List (String × Json)} {raw : Json}
    (hf : FactsOk env.parseJson ls now ft pi plan.nodes rs)
    (h : (acceptedFacts env ls pi plan ft now)[id]? = some raw) :
    ∃ value, rs.lookup id = some value ∧ Provenance ls now value := by
  rw [acceptedFacts, validateFacts_accepted env.parseJson ls now hf] at h
  split at h
  · obtain ⟨value, hl, hv⟩ := Option.bind_eq_some_iff.1 h
    refine ⟨value, hl, ?_⟩
    cases hr : validateResult ls now value with
    | ok raw => exact provenance_of_validateResult hr
    | error error => rw [hr] at hv; cases hv
  · cases h

theorem cleared_of_allow {request : Request} (ho : plan.Of env request)
    (hu : call.now < plan.expiresAt) (h : (call.policyReport env w plan).decision = .allow) :
    Cleared env w call plan request := by
  obtain ⟨hf, hw, hno⟩ := (policyReport_eq_allow ..).1 h
  have hfc := not_not.1 fun hfc => hf (.facts hfc)
  obtain ⟨rs, hrs⟩ := hfc
  refine {
    clock := Bool.eq_false_iff.2 fun hcl => hf (.clock hcl)
    unexpired := ⟨hu, Nat.not_le.1 fun he => hf (.expired he)⟩
    fresh := not_not.1 fun ht => hf (.trust ht)
    noFailure := Option.eq_none_iff_forall_ne_some.2 fun _ hch => hf (.check hch)
    facts := ⟨rs, hrs, fun node hn c hc hrq => ?_⟩
    planned := fun node hn => Option.eq_none_iff_forall_ne_some.2 fun _ her =>
      hf (.planning hn her)
    known := fun a ha body hb => ?_
    whole := ho.partialDecode ▸ hw
    pass := fun node hn => (hno node hn).2 }
  · have hac := Option.ne_none_iff_exists'.1 fun hnn =>
      hf (.missing hn hc hrq hnn)
    obtain ⟨raw, hr⟩ := hac
    exact provenance_of_accepted hrs hr
  · -- the nodes of the plan are the nodes of the trees
    have hm : body ∈ plan.nodes.map (·.action) := by
      rw [ho.nodes, ActionBody.preorderAll_eq_flatMap]
      exact List.mem_flatMap.2 ⟨a.body, List.mem_map.2 ⟨a, ha, rfl⟩, hb⟩
    obtain ⟨node, hn, rfl⟩ := List.mem_map.1 hm
    exact (hno node hn).1

end Call

/-- A call on the session reports on a pending plan of a decoded request. -/
structure Reports (env : SessionEnv δ) (w : SessionWorld δ) (command : SessionCommand)
    (call : EvaluationCall) (plan : PendingPlan δ) (request : Request) : Prop where
  evaluation : command.evaluation = some call
  pending : w.session.plans[call.planId]? = some plan
  decoded : ∃ requestText now, env.decodeRequest requestText plan.snapshot.decoder now
    w.session.limits.maxRequestBytes = .ok request
  planOf : plan.Of env request

/-- In a session reached by any calls: a report that allows has its plan cleared, and a
report denies exactly when the evaluation or a node fails. -/
theorem decision_sound {env : SessionEnv δ} {lifecycle : LifecycleId} {owner : Option Nat}
    {configText policyText : String} {now : Nat} {s : CoreSession δ}
    (h : CoreSession.new env lifecycle owner configText policyText now = .ok s)
    (lifecycles : Lifecycles) (cs : List SessionCommand) {command : SessionCommand}
    {report : EvaluationReport}
    (hreport : ((sessionAfter env ⟨lifecycles, s⟩ cs).step env command).1 = .report report) :
    ∃ call plan request,
      Reports env (sessionAfter env ⟨lifecycles, s⟩ cs) command call plan request ∧
      (report.decision = .allow →
        Cleared env (sessionAfter env ⟨lifecycles, s⟩ cs) call plan request) ∧
      (report.decision = .deny ↔ Denied env (sessionAfter env ⟨lifecycles, s⟩ cs) call plan) := by
  have hg := CoreSession.Grounded.after (w := ⟨lifecycles, s⟩) (.of_new h) cs
  generalize sessionAfter env ⟨lifecycles, s⟩ cs = w at hreport hg ⊢
  obtain ⟨call, hc, hr⟩ := SessionWorld.step_report hreport
  obtain ⟨plan, hp, hca⟩ := EvaluationCall.report_cases hr
  obtain ⟨requestText, t, request, hdc, ho⟩ := hg.decoded _ plan hp
  refine ⟨call, plan, request, ⟨hc, hp, ⟨requestText, t, hdc⟩, ho⟩, ?_⟩
  rcases hca with ⟨he, hd, -⟩ | ⟨hu, hco⟩
  · refine ⟨fun ha => ?_, iff_of_true hd (.inl he)⟩
    rw [hd] at ha
    cases ha
  · refine ⟨fun ha => cleared_of_allow ho hu (hco.allow ha), ?_⟩
    rw [hco.deny_iff, Denied, or_iff_right (Nat.not_le.2 hu)]
    exact policyReport_eq_deny ..

theorem capPlanned_allows : ∃ report,
    (capPlanned.step capEnv (.evaluate "p7-1" "{}" 1000001)).1 = .report report ∧
      report.decision = .allow := by
  have ha : (match (capPlanned.step capEnv (.evaluate "p7-1" "{}" 1000001)).1 with
    | .report report => decide (report.decision = .allow)
    | _ => false) = true := by decide +kernel
  split at ha
  · next report hr => exact ⟨report, hr, of_decide_eq_true ha⟩
  · cases ha

/-- The plan of the sample has a required call. -/
theorem decision_sound_cap : (capPlanned.session.plans["p7-1"]?.map fun plan =>
      (nodeCalls plan.nodes).map (·.2.runtime.optional)) = some [true, false] ∧ ∃ report,
    (capPlanned.step capEnv (.evaluate "p7-1" "{}" 1000001)).1 = .report report ∧
      ∃ call plan request, Reports capEnv capPlanned (.evaluate "p7-1" "{}" 1000001) call plan
          request ∧ Cleared capEnv capPlanned call plan request := by
  obtain ⟨report, hr, ha⟩ := capPlanned_allows
  obtain ⟨call, plan, request, hrp, hc, -⟩ := decision_sound new_capEnv _ _ hr
  exact ⟨by decide +kernel, report, hr, call, plan, request, hrp, hc ha⟩

end Dambi
