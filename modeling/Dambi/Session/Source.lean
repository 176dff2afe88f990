import Dambi.Session.Decision

/-!
# The source of a report

A report is `fail_closed` when the evaluation fails and when the runtime's
verdict on some node has the system marker. The runtime itself sets the marker
only in verdicts that fail, but it is recognised by the id of the matched
policy, and a signed policy may have that id and only warn.
-/

namespace Dambi

open Fallible Report List Verdict

variable {δ : Type}

/-! ## The marker in a verdict -/

section Marker

variable (engines : Engines)

/-- Cedar's answer about a bundle: its engine is built, the request is accepted, and this
is the authorizer's response. -/
structure CedarAnswers (bundle : BundleInput) (tx : TxInput) (lowered : LoweredAction)
    (context : Json) (engine : PolicyEngine) (response : Response) : Prop where
  built : ∃ schema, engines.composePerPolicy bundle.manifest = .ok schema ∧
    buildFromPerPolicy engines.cedar [(bundle.policy, schema)] = .ok engine
  request : engines.cedar.parseEntityUid lowered.principal = .ok () ∧
    engines.cedar.parseEntityUid lowered.actionUid = .ok () ∧
    engines.cedar.parseEntityUid lowered.resource = .ok () ∧
    engines.cedar.entitiesFromJson (entitiesForTx tx) = .ok () ∧
    engines.cedar.contextFromJson context = .ok () ∧
    engines.cedar.newRequest lowered.principal lowered.actionUid lowered.resource context = .ok ()
  response_eq : response = engines.cedar.isAuthorized lowered.principal lowered.actionUid
    lowered.resource context engine.policySet (entitiesForTx tx)

variable {verdict : Verdict} {engine : PolicyEngine}

theorem evaluatePolicy_eq_ok {bundle : BundleInput} {tx : TxInput} {lowered : LoweredAction}
    {context : Json} :
    evaluatePolicy engines bundle tx lowered context = .ok verdict ↔
      ∃ engine response, CedarAnswers engines bundle tx lowered context engine response ∧
        verdict = engine.verdict response := by
  simp only [evaluatePolicy, PolicyEngine.evaluate, bind_eq_ok, mapError_eq_ok, Except.ok.injEq]
  constructor
  · rintro ⟨s, hs, engine, he, ⟨⟩, hp, ⟨⟩, ha, ⟨⟩, hr, ⟨⟩,
      hentities, ⟨⟩, hcontext, ⟨⟩, hrequest, hverdict⟩
    exact ⟨engine, _, ⟨⟨s, hs, he⟩,
      ⟨hp, ha, hr, hentities, hcontext, hrequest⟩, rfl⟩, hverdict.symm⟩
  · rintro ⟨engine, response, ⟨⟨s, hs, he⟩,
      ⟨hp, ha, hr, hentities, hcontext, hrequest⟩, hresponse⟩, hverdict⟩
    exact ⟨s, hs, engine, he, (), hp, (), ha, (), hr, (),
      hentities, (), hcontext, (), hrequest, by rw [hverdict, hresponse]⟩

/-- Cedar denies, and names an installed policy with the system's id that only warns. -/
def NamesSystem (engine : PolicyEngine) (response : Response) : Prop :=
  response.errors = [] ∧ response.decision = .deny ∧ systemPolicyId ∈ response.reason ∧
    engine.severities[systemPolicyId]? = some .warn

def Verdict.Marked (verdict : Verdict) : Prop :=
  ∃ m ∈ verdict.matched, m.policyId = systemPolicyId

variable {engines}

private theorem mem_matchedPolicies {m : MatchedPolicy} {d : List String}
    (h : m ∈ engine.matchedPolicies d) :
    m.policyId ∈ d ∧ engine.severities[m.policyId]? = some m.severity := by
  obtain ⟨pid, hp, hm⟩ := mem_filterMap.1 h
  split at hm
  · cases hm
  · obtain ⟨severity, hs, rfl⟩ := Option.map_eq_some_iff.1 hm
    exact ⟨hp, hs⟩

theorem PolicyEngine.namesSystem_of_marked {response : Response}
    (hf : (engine.verdict response).isFailure = false)
    (h : (engine.verdict response).Marked) : NamesSystem engine response := by
  obtain ⟨m, hm, hi⟩ := h
  unfold PolicyEngine.verdict at hf hm
  split at hm
  · next he => simp [he, isFailure] at hf
  · next he =>
    rw [he] at hf
    cases hde : response.decision with
    | allow => simp [hde, Verdict.matched] at hm
    | deny =>
      simp only [hde] at hf hm
      split at hm
      · next hd => simp [hd, isFailure] at hf
      · next hd =>
        split at hm
        · obtain ⟨hr, hs⟩ := mem_matchedPolicies hm
          rw [hi] at hr hs
          refine ⟨he, hde, hr, hs.trans (congrArg some ?_)⟩
          -- nothing matched denies, so this one warns
          cases hm' : m.severity with
          | warn => rfl
          | deny =>
            refine absurd (any_eq_true.2 ⟨m, hm, ?_⟩) hd
            rw [hm']
            rfl
        · cases hm

theorem PolicyEngine.marked_of_namesSystem {r : Response}
    (h : NamesSystem engine r) : (engine.verdict r).Marked :=
    by
  obtain ⟨he, hd, hr, hs⟩ := h
  have hm : ⟨systemPolicyId, engine.reasons[systemPolicyId]?, .warn, .action⟩ ∈
      engine.matchedPolicies r.reason := by
    refine mem_filterMap.2 ⟨systemPolicyId, hr, ?_⟩
    rw [if_neg (by decide), hs]
    rfl
  have hn : engine.matchedPolicies r.reason ≠ [] := ne_nil_of_mem hm
  refine ⟨⟨systemPolicyId, engine.reasons[systemPolicyId]?, .warn, .action⟩, ?_, rfl⟩
  simp only [PolicyEngine.verdict, he, hd]
  split
  · exact hm
  · exact hm

/-! ## One bundle -/

variable (engines)

def SystemNamed (action : ActionBody) (tx : TxInput) (lowered : LoweredAction)
    (planned : List PlannedCallV2) (results : BTreeMap String Json) (bundle : BundleInput) : Prop :=
  bundle.manifest.applies action.view tx.view = true ∧ bundle.manifest.validate = .ok () ∧
  ∃ context engine response,
    materializeV2 results lowered.context
      (planned.filter (·.manifestId = bundle.manifest.id)) = .ok context ∧
    CedarAnswers engines bundle tx lowered context engine response ∧
    NamesSystem engine response

variable {engines} {action : ActionBody} {tx : TxInput} {lowered : LoweredAction}
  {planned : List PlannedCallV2} {results : BTreeMap String Json} {bundle : BundleInput}

private theorem quarantineVerdict_not_marked (er : EngineError) :
    ¬ (quarantineVerdict er).Marked := by
  intro ⟨m, hm, hi⟩
  rw [mem_singleton.1 hm] at hi
  -- the two ids differ in their third character
  have hl := congrArg (fun id : String => id.toList[2]?) hi
  have he : (toString "__engine::quarantine::").toList =
      '_' :: '_' :: 'e' :: "ngine::quarantine::".toList := rfl
  have hs : systemPolicyId.toList = ['_', '_', 's', 'y', 's', 't', 'e', 'm', '_', '_'] := rfl
  simp only [String.toList_append, he, hs] at hl
  have hc : 'e' = 's' := Option.some.inj hl
  exact absurd hc (by decide)

theorem systemNamed_of_marked
    (hb : bundleVerdict engines action tx lowered planned results bundle = some verdict)
    (hf : verdict.isFailure = false) (hm : verdict.Marked) :
    SystemNamed engines action tx lowered planned results bundle := by
  unfold bundleVerdict at hb
  split at hb
  · next ho =>
    unfold bundleOutcome at ho
    split at ho
    · next hap =>
      simp only [bind_eq_ok, mapError_eq_ok] at ho
      obtain ⟨⟨⟩, hv, ho⟩ := ho
      split at ho
      · next error _ =>
        -- the runtime's own marker is in a verdict that fails
        cases error with
        | systemFail ci re =>
          cases ho
          cases hb
          cases hf
        | _ => cases ho
      · next context hc =>
        cases he : evaluatePolicy engines bundle tx lowered context with
        | error error => rw [he] at ho; cases ho
        | ok v =>
          rw [he] at ho
          cases ho
          cases hb
          obtain ⟨engine, r, ha, rfl⟩ := (evaluatePolicy_eq_ok engines).1 he
          exact ⟨hap, hv, context, engine, r, hc, ha, PolicyEngine.namesSystem_of_marked hf hm⟩
    · cases ho
      cases hb
  · cases hb
    exact absurd hm (quarantineVerdict_not_marked _)

theorem marked_of_systemNamed (h : SystemNamed engines action tx lowered planned results bundle) :
    ∃ verdict, bundleVerdict engines action tx lowered planned results bundle = some verdict ∧
      verdict.Marked := by
  obtain ⟨hap, hv, context, engine, r, hc, ha, hn⟩ := h
  refine ⟨engine.verdict r, ?_, PolicyEngine.marked_of_namesSystem hn⟩
  have he := (evaluatePolicy_eq_ok engines).2 ⟨engine, r, ha, rfl⟩
  unfold bundleVerdict bundleOutcome
  simp only [hap, if_true, hv, Except.mapError, ok_bind, hc, he]
  rfl

/-! ## One node -/

theorem Verdict.marked_aggregate {vs : List Verdict} :
    (Verdict.aggregate vs).Marked ↔ ∃ v ∈ vs, v.Marked := by
  have hmt : (aggregate vs).matched = vs.flatMap Verdict.matched := by
    by_cases hp : aggregate vs = .pass
    · have ha := (aggregate_eq_pass vs).1 hp
      rw [hp, flatMap_eq_nil_iff.2 fun v hv => by rw [ha v hv]; rfl]
      rfl
    · rw [aggregate_eq] at hp ⊢
      split at hp
      · next hf => rw [if_pos hf]; rfl
      · next hf =>
        split at hp
        · next hw => rw [if_neg hf, if_pos hw]; rfl
        · exact absurd rfl hp
  unfold Verdict.Marked
  rw [hmt]
  constructor
  · intro ⟨m, hm, hi⟩
    obtain ⟨v, hv, hm⟩ := mem_flatMap.1 hm
    exact ⟨v, hv, m, hm, hi⟩
  · intro ⟨v, hv, m, hm, hi⟩
    exact ⟨m, mem_flatMap.2 ⟨v, hv, hm⟩, hi⟩

variable (engines) in
/-- In the evaluation of an action, Cedar's answer about some bundle names the system's id. -/
def ActionNamesSystem (input : EvaluateActionInput) : Prop :=
  ∃ lowered manifests planned,
    engines.lowerAction input.action input.actionMeta input.tx input.host = .ok lowered ∧
    matchingValidManifests (input.bundles.map (·.manifest)) input.action input.tx =
      .ok manifests ∧
    planPolicyRpcV2 manifests input.action.view lowered.context input.tx.view = .ok planned ∧
    ∃ bundle ∈ input.bundles,
      SystemNamed engines input.action input.tx lowered planned input.results bundle

variable {input : EvaluateActionInput}

theorem actionNamesSystem_of_marked (h : evaluateAction engines input = .ok verdict)
    (hf : verdict.isFailure = false) (hm : verdict.Marked) : ActionNamesSystem engines input := by
  obtain ⟨-, lowered, hl, ms, hmn, planned, hp, rfl⟩ := (evaluateAction_eq_ok engines).1 h
  refine ⟨lowered, ms, planned, hl, hmn, hp, ?_⟩
  obtain ⟨v, hv, hvm⟩ := marked_aggregate.1 hm
  have hvf : v.isFailure = false := by
    rw [evaluateMatchingBundles, aggregate_isFailure, any_eq_false] at hf
    exact Bool.eq_false_iff.2 (hf v hv)
  obtain ⟨bundle, hb, hve⟩ := mem_filterMap.1 hv
  exact ⟨bundle, hb, systemNamed_of_marked hve hvf hvm⟩

theorem marked_of_actionNamesSystem (h : evaluateAction engines input = .ok verdict)
    (hn : ActionNamesSystem engines input) : verdict.Marked := by
  obtain ⟨-, lowered, hl, ms, hm, planned, hp, rfl⟩ := (evaluateAction_eq_ok engines).1 h
  obtain ⟨lowered', ms', planned', hl', hm', hp', bundle, hb, hnm⟩ := hn
  cases hl.symm.trans hl'
  cases hm.symm.trans hm'
  cases hp.symm.trans hp'
  obtain ⟨v, hv, hma⟩ := marked_of_systemNamed hnm
  exact marked_aggregate.2 ⟨v, mem_filterMap.2 ⟨bundle, hb, hv⟩, hma⟩

end Marker

/-! ## One evaluation -/

section Call

variable (env : SessionEnv δ) (w : SessionWorld δ) (call : EvaluationCall) (plan : PendingPlan δ)

/-- On some node of the plan, Cedar denies and names a policy of the pinned bundle that has
the system's id and only warns. -/
def SystemWarned : Prop :=
  ∃ bundles, policyBundles plan.snapshot = .ok bundles ∧ ∃ node ∈ plan.nodes,
    ActionNamesSystem env.engines (nodeInput node bundles (nodeResults
      (acceptedFacts env w.session.limits call.planId plan call.factsText
        (call.evaluatedAt env w plan)) node))

variable {env w call plan}

private theorem planVerdict_eq_some {ls : SessionLimits} {pi ft : String} {evaluatedAt : Nat}
    {node : Node} {verdict : Verdict} :
    planVerdict env ls pi plan ft evaluatedAt node = some verdict ↔
      ∃ bs, policyBundles plan.snapshot = .ok bs ∧
        evaluateAction env.engines (nodeInput node bs (nodeResults
          (acceptedFacts env ls pi plan ft evaluatedAt) node)) = .ok verdict := by
  unfold planVerdict nodeVerdict
  cases policyBundles plan.snapshot with
  | error error => simp [Except.toOption]
  | ok bs =>
    simp only [Except.toOption, Option.bind_some, Except.ok.injEq, exists_eq_left']
    cases evaluateAction env.engines (nodeInput node bs _) <;> simp

/-- A policy report fails closed without denying exactly when Cedar names such a policy and
nothing else denies. -/
theorem policyReport_failClosed_deny (hu : call.now < plan.expiresAt) :
    ((call.policyReport env w plan).source = .failClosed →
        (call.policyReport env w plan).decision = .deny) ↔
      (SystemWarned env w call plan → Denied env w call plan) := by
  have hd : (call.policyReport env w plan).decision = .deny ↔ Denied env w call plan := by
    rw [Denied, or_iff_right (Nat.not_le.2 hu)]
    exact policyReport_eq_deny ..
  have hs : (call.policyReport env w plan).source = .failClosed ↔ _ := policyReport_eq_failClosed ..
  rw [hd, hs]
  constructor
  · rintro h ⟨bs, hb, node, hn, hna⟩
    by_contra hnot
    cases hv : planVerdict env w.session.limits call.planId plan call.factsText
      (call.evaluatedAt env w plan) node with
    | none => exact hnot (.inr (.inl (.engine hn hv)))
    | some verdict =>
      obtain ⟨bs', hb', he⟩ := planVerdict_eq_some.1 hv
      cases hb.symm.trans hb'
      exact hnot (h (.inr ⟨node, hn, verdict, hv, marked_of_actionNamesSystem he hna⟩))
  · intro h hs
    rcases hs with hfa | ⟨node, hn, verdict, hv, hm⟩
    · exact .inr (.inl hfa)
    · obtain ⟨bs, hb, he⟩ := planVerdict_eq_some.1 hv
      cases hf : verdict.isFailure with
      | true =>
        cases verdict with
        | fail matched => exact .inr (.inr ⟨node, hn, matched, hv⟩)
        | _ => cases hf
      | false =>
        exact h ⟨bs, hb, node, hn, actionNamesSystem_of_marked he hf hm⟩

end Call

/-! ## Installed policies -/

/-- The engine of the bundle installs a policy with the system's id that only warns. -/
def InstallsSystemWarning (cedar : Cedar) (bundle : BundleInput) : Prop :=
  ∃ set, cedar.parsePolicySet (baselinePermit ++ bundle.policy ++ "\n") = .ok set ∧
    ∃ p ∈ set.policies, p.userId = systemPolicyId ∧ p.annotation "severity" = some "warn"

private theorem severity_eq_warn {p : CedarPolicy} {userId : String}
    (h : p.severity userId = .ok (some .warn)) :
    p.annotation "severity" = some "warn" := by
  unfold CedarPolicy.severity at h
  split at h
  · cases h
  · cases h
  · assumption
  · cases h

theorem buildFromPerPolicy_warns {c : Cedar} {po s id : String}
    {engine : PolicyEngine} (h : buildFromPerPolicy c [(po, s)] = .ok engine)
    (hw : engine.severities[id]? = some .warn) :
    ∃ set, c.parsePolicySet (baselinePermit ++ po ++ "\n") = .ok set ∧
      ∃ p ∈ set.policies, p.userId = id ∧ p.annotation "severity" = some "warn" := by
  simp only [buildFromPerPolicy, bind_eq_ok, mapError_eq_ok] at h
  obtain ⟨-, -, set, hs, hf⟩ := h
  refine ⟨set, hs, ?_⟩
  revert hw
  refine foldlM_invariant (fun engine : PolicyEngine => engine.severities[id]? = some .warn →
    ∃ p ∈ set.policies, p.userId = id ∧ p.annotation "severity" = some "warn") ?_ hf ?_
  · intro b p after hp hb hi hw
    simp only [ingestPolicy, bind_eq_ok] at hi
    obtain ⟨severity, hse, -, -, ha⟩ := hi
    cases ha
    cases severity with
    | none => exact hb hw
    | some severity =>
      simp only [Option.elim, Std.TreeMap.getElem?_insert] at hw
      split at hw
      · next heq =>
        cases hw
        exact ⟨p, hp, Std.LawfulEqCmp.eq_of_compare heq, severity_eq_warn hse⟩
      · exact hb hw
  · intro hw
    rw [Std.TreeMap.getElem?_emptyc] at hw
    cases hw

theorem not_systemWarned {env : SessionEnv δ} {w : SessionWorld δ} {call : EvaluationCall}
    {plan : PendingPlan δ} (h : ∀ bs, policyBundles plan.snapshot = .ok bs →
      ∀ bundle ∈ bs, ¬ InstallsSystemWarning env.engines.cedar bundle) :
    ¬ SystemWarned env w call plan := by
  intro ⟨bs, hbn, node, hn, _, _, _, _, _, _, bundle, hbu, _, _, context, engine,
    response, _, hanswers, hnames⟩
  obtain ⟨s, -, hb⟩ := hanswers.built
  exact h bs hbn bundle hbu (buildFromPerPolicy_warns hb hnames.2.2.2)

/-- In a session reached by any calls, a report fails closed only by denying exactly when
every warning of a policy with the system's id comes with a denial; so it does whenever no
policy with that id and severity is installed. -/
theorem failClosed_denies_iff {env : SessionEnv δ} {lifecycle : LifecycleId} {owner : Option Nat}
    {configText policyText : String} {now : Nat} {s : CoreSession δ}
    (h : CoreSession.new env lifecycle owner configText policyText now = .ok s)
    (lifecycles : Lifecycles) (cs : List SessionCommand) {command : SessionCommand}
    {report : EvaluationReport}
    (hreport : ((sessionAfter env ⟨lifecycles, s⟩ cs).step env command).1 = .report report) :
    ∃ call plan request,
      Reports env (sessionAfter env ⟨lifecycles, s⟩ cs) command call plan request ∧
      env.trust.Validated plan.snapshot.policy ∧
      ((report.source = .failClosed → report.decision = .deny) ↔
        (SystemWarned env (sessionAfter env ⟨lifecycles, s⟩ cs) call plan →
          Denied env (sessionAfter env ⟨lifecycles, s⟩ cs) call plan)) ∧
      ((∀ bundles, policyBundles plan.snapshot = .ok bundles →
          ∀ bundle ∈ bundles, ¬ InstallsSystemWarning env.engines.cedar bundle) →
        report.source = .failClosed → report.decision = .deny) := by
  have hg := CoreSession.Grounded.after (w := ⟨lifecycles, s⟩) (.of_new h) cs
  generalize sessionAfter env ⟨lifecycles, s⟩ cs = w at hreport hg ⊢
  obtain ⟨call, hcl, hr⟩ := SessionWorld.step_report hreport
  obtain ⟨plan, hp, hca⟩ := EvaluationCall.report_cases hr
  obtain ⟨requestText, t, request, hdc, ho⟩ := hg.decoded _ plan hp
  have hi : (report.source = .failClosed → report.decision = .deny) ↔
      (SystemWarned env w call plan → Denied env w call plan) := by
    rcases hca with ⟨he, hd, -⟩ | ⟨hu, hc⟩
    · exact iff_of_true (fun _ => hd) (fun _ => .inl he)
    · rw [hc.source, hc.deny_iff]
      exact policyReport_failClosed_deny hu
  refine ⟨call, plan, request, ⟨hcl, hp, ⟨requestText, t, hdc⟩, ho⟩,
    hg.pinned _ plan hp, hi, fun hin => ?_⟩
  exact hi.2 fun hw => absurd hw (not_systemWarned hin)

/-- The sample plan, whose only policy has an id of its own. -/
theorem failClosed_denies_cap : ∃ report,
    (capPlanned.step capEnv (.evaluate "p7-1" "{}" 1000001)).1 = .report report ∧
      ∃ call plan request, Reports capEnv capPlanned (.evaluate "p7-1" "{}" 1000001) call plan
          request ∧
        ((report.source = .failClosed → report.decision = .deny) ↔
          (SystemWarned capEnv capPlanned call plan → Denied capEnv capPlanned call plan)) := by
  obtain ⟨report, hrp, -⟩ := capPlanned_allows
  obtain ⟨call, plan, request, hr, -, hi, -⟩ := failClosed_denies_iff new_capEnv _ _ hrp
  exact ⟨report, hrp, call, plan, request, hr, hi⟩

/-! ## A policy with the system's id -/

def systemSource : String :=
  "@id(\"__system__\")\n@severity(\"warn\")\nforbid(principal, action, resource);"

def systemCedar : Cedar :=
  { tableCedar (sampleTable systemSource
      ⟨"policy0", [("id", "__system__"), ("severity", "warn")], "forbid"⟩) with
    isAuthorized := fun _ _ _ _ _ _ => ⟨.deny, ["__system__"], []⟩ }

def systemEnv : SessionEnv Unit :=
  sampleEnv systemCedar { id := "__system__", schemaVersion := 2 } systemSource (factBatch [])

def systemSession : CoreSession Unit :=
  result (CoreSession.new systemEnv 0 (some 7) "{}" "{}" 1000000) (by decide +kernel)

def systemPlanned : SessionWorld Unit :=
  sessionAfter systemEnv ⟨fun _ => false, systemSession⟩ [.plan "{}" 1000000]

/-- A bundle that passes the checks makes a plan whose report fails closed and only warns. -/
theorem system_id_fails_closed_with_warning :
    (PolicyContent.validatePolicies systemEnv.engines
      (fun _ => .ok { id := "__system__", schemaVersion := 2 })
      (samplePayload "__system__" systemSource)).toBool = true ∧
    CoreSession.new systemEnv 0 (some 7) "{}" "{}" 1000000 = .ok systemSession ∧
    ∃ report, (systemPlanned.step systemEnv (.evaluate "p7-1" "{}" 1000001)).1 = .report report ∧
      report.source = .failClosed ∧ report.decision = .warn := by
  refine ⟨by decide +kernel, eq_ok_result _ _, ?_⟩
  have hw : (match (systemPlanned.step systemEnv (.evaluate "p7-1" "{}" 1000001)).1 with
    | .report report => decide (report.source = .failClosed ∧ report.decision = .warn)
    | _ => false) = true := by decide +kernel
  split at hw
  · next report hr => exact ⟨report, hr, of_decide_eq_true hw⟩
  · cases hw

end Dambi
