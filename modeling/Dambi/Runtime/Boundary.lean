import Dambi.Runtime.Spec

/-!
# The boundary invariant of the runtime

A usable bundle with a planned required call whose result is missing should
make the action fail, whatever else the manifest, the results and the other
bundles hold. Materialisation stops at its first error, and an output of a
foreign projection kind is an error of the weaker class: reached before the
missing result it turns the failure into a quarantine warning. It is the only
thing that does.
-/

namespace Dambi

open Fallible List PlannedCallV2

/-! ## Which failure comes first -/

/-- The call raises no error: its result is there and every output projects, or
the call is optional and may miss both. -/
def PlannedCallV2.Settled (call : PlannedCallV2) (results : BTreeMap String Json) : Prop :=
  match results[call.callId]? with
  | none => call.optional = true
  | some payload => ∀ output ∈ call.outputs,
      output.kind = "context" ∧ (call.optional = true ∨ (output.project payload).isOk = true)

/-- Materialisation meets an output of a foreign kind before any other error. -/
def ForeignKindReached (calls : List PlannedCallV2) (results : BTreeMap String Json) : Prop :=
  ∃ before call after, calls = before ++ call :: after ∧ (∀ c ∈ before, c.Settled results) ∧
    ∃ payload, results[call.callId]? = some payload ∧
      ∃ earlier output later, call.outputs = earlier ++ output :: later ∧
        output.kind ≠ "context" ∧
        ∀ o ∈ earlier,
          o.kind = "context" ∧ (call.optional = true ∨ (o.project payload).isOk = true)

section Failures

variable {call : PlannedCallV2} {payload : Json} {results : BTreeMap String Json}

theorem outputStep_failure (output : ContextProjection) :
    (call.outputStep payload output).bind Step.failure? =
      if output.kind = "context" then
        match output.project payload with
        | .ok _ => none
        | .error error =>
          if call.optional then none else some (.systemFail call.callId error.display)
      else some (.invalidManifest s!"unsupported projection kind `{output.kind}`") := by
  by_cases hk : output.kind = "context"
  · cases hp : output.project payload with
    | ok value => simp [outputStep, hk, hp, Step.failure?]
    | error e =>
      cases ho : call.optional <;>
        simp [outputStep, hk, hp, ho, Step.failure?]
  · simp [outputStep, hk, Step.failure?]

variable {output : ContextProjection} {message : String}

theorem outputStep_failure_eq_none :
    (call.outputStep payload output).bind Step.failure? = none ↔
      output.kind = "context" ∧
        (call.optional = true ∨ (output.project payload).isOk = true) := by
  rw [outputStep_failure]
  by_cases hk : output.kind = "context"
  · cases hp : output.project payload with
    | ok value => simp [Except.toBool]
    | error e => cases ho : call.optional <;> simp [hk, Except.toBool]
  · simp [hk]

theorem outputStep_failure_eq_invalidManifest :
    (call.outputStep payload output).bind Step.failure? = some (.invalidManifest message) ↔
      output.kind ≠ "context" ∧ message = s!"unsupported projection kind `{output.kind}`" := by
  rw [outputStep_failure]
  by_cases hk : output.kind = "context"
  · cases hp : output.project payload with
    | ok value => simp [hk]
    | error e => cases ho : call.optional <;> simp [hk]
  · simp [hk, eq_comm]

theorem firstFailure_filterMap (os : List ContextProjection) :
    firstFailure (os.filterMap (call.outputStep payload)) =
      os.findSome? fun o => (call.outputStep payload o).bind Step.failure? := by
  induction os with
  | nil => rfl
  | cons o r ih =>
    rw [findSome?_cons, ← ih]
    cases hs : call.outputStep payload o with
    | none => simp [hs]
    | some step => cases step <;> simp [hs, Step.failure?]

theorem firstFailure_flatMap (cs : List PlannedCallV2) :
    firstFailure (cs.flatMap (·.steps results)) =
      cs.findSome? fun call => firstFailure (call.steps results) := by
  induction cs with
  | nil => rfl
  | cons call r ih =>
    rw [flatMap_cons, firstFailure_append, findSome?_cons, ih]
    cases firstFailure (call.steps results) <;> rfl

theorem PlannedCallV2.settled_iff :
    call.Settled results ↔ firstFailure (call.steps results) = none := by
  unfold PlannedCallV2.Settled PlannedCallV2.steps
  cases results[call.callId]? with
  | none => cases ho : call.optional <;> simp
  | some payload =>
    simp only [firstFailure_filterMap, findSome?_eq_none_iff, outputStep_failure_eq_none]

theorem firstFailure_steps_eq_invalidManifest :
    firstFailure (call.steps results) = some (.invalidManifest message) ↔
      ∃ payload, results[call.callId]? = some payload ∧
        ∃ earlier output later, call.outputs = earlier ++ output :: later ∧
          (output.kind ≠ "context" ∧ message = s!"unsupported projection kind `{output.kind}`") ∧
          ∀ o ∈ earlier,
            o.kind = "context" ∧ (call.optional = true ∨ (o.project payload).isOk = true) := by
  unfold PlannedCallV2.steps
  cases results[call.callId]? with
  | none => cases ho : call.optional <;> simp
  | some payload =>
    simp only [firstFailure_filterMap, findSome?_eq_some_iff,
      outputStep_failure_eq_invalidManifest, outputStep_failure_eq_none, Option.some.injEq,
      exists_eq_left']

theorem firstFailure_steps_cases {error : PolicyRpcError}
    (h : firstFailure (call.steps results) = some error) :
    (∃ reason, error = .systemFail call.callId reason) ∨
      ∃ message, error = .invalidManifest message := by
  unfold PlannedCallV2.steps at h
  cases hr : results[call.callId]? with
  | none =>
    cases ho : call.optional with
    | true => simp [hr, ho] at h
    | false =>
      simp only [hr, ho, Bool.false_eq_true, if_false, firstFailure_fail, Option.some.injEq] at h
      exact .inl ⟨_, h.symm⟩
  | some payload =>
    simp only [hr, firstFailure_filterMap] at h
    obtain ⟨-, output, -, -, hf, -⟩ := findSome?_eq_some_iff.1 h
    rw [outputStep_failure] at hf
    split at hf
    · split at hf
      · cases hf
      · split at hf
        · cases hf
        · exact .inl ⟨_, (Option.some.inj hf).symm⟩
    · exact .inr ⟨_, (Option.some.inj hf).symm⟩

theorem foreignKindReached_iff {calls : List PlannedCallV2} :
    ForeignKindReached calls results ↔
      ∃ message, firstFailure (calls.flatMap (·.steps results)) =
        some (.invalidManifest message) := by
  simp only [firstFailure_flatMap, findSome?_eq_some_iff,
    firstFailure_steps_eq_invalidManifest, ← settled_iff, ForeignKindReached]
  constructor
  · rintro ⟨before, call, after, rfl, hb, payload, hp, earlier, output, later, ho,
      hkind, hearlier⟩
    exact ⟨_, before, call, after, rfl, ⟨payload, hp, earlier, output, later, ho,
      ⟨hkind, rfl⟩, hearlier⟩, hb⟩
  · rintro ⟨message, before, call, after, rfl, ⟨payload, hp, earlier, output, later,
      ho, ⟨hkind, -⟩, hearlier⟩, hb⟩
    exact ⟨before, call, after, rfl, hb, payload, hp, earlier, output, later, ho, hkind, hearlier⟩

/-- A missing required result makes some step fail, so the run does fail: closed,
unless a foreign kind was reached first. -/
theorem firstFailure_of_missing {cs : List PlannedCallV2}
    (hcl : call ∈ cs) (hr : call.optional = false)
    (hm : results[call.callId]? = none) (hfo : ¬ ForeignKindReached cs results) :
    ∃ ci r, firstFailure (cs.flatMap (·.steps results)) = some (.systemFail ci r) := by
  cases hf : firstFailure (cs.flatMap (·.steps results)) with
  | none =>
    rw [firstFailure_flatMap, findSome?_eq_none_iff] at hf
    have hse := settled_iff.2 (hf call hcl)
    simp [PlannedCallV2.Settled, hm, hr] at hse
  | some e =>
    have hs := hf
    rw [firstFailure_flatMap] at hs
    obtain ⟨-, c, -, -, hc, -⟩ := findSome?_eq_some_iff.1 hs
    rcases firstFailure_steps_cases hc with ⟨r, rfl⟩ | ⟨message, rfl⟩
    · exact ⟨_, _, rfl⟩
    · exact absurd (foreignKindReached_iff.2 ⟨message, hf⟩) hfo

end Failures

/-! ## The exact condition -/

section Boundary

variable {engines : Engines} {input : EvaluateActionInput} {lowered : LoweredAction}
  {bundle : BundleInput}

variable {verdict : Verdict}

/-- What a usable bundle contributes inside a successful evaluation. -/
theorem bundleVerdict_of_evaluateAction (ho : evaluateAction engines input = .ok verdict)
    (hl : engines.lowerAction input.action input.actionMeta input.tx input.host = .ok lowered)
    (hb : bundle ∈ input.bundles)
    (ha : bundle.manifest.applies input.action.view input.tx.view = true)
    (hw : bundle.manifest.WellFormed) :
    ∃ p, p.filter (·.manifestId = bundle.manifest.id) =
        bundle.manifest.plannedCalls (planningRoots lowered.context input.tx.view) ∧
      verdict = evaluateMatchingBundles engines input.bundles input.action input.tx lowered
        p input.results := by
  obtain ⟨-, lowered', hl', ms, hm, p, hp, rfl⟩ := (evaluateAction_eq_ok engines).1 ho
  obtain rfl : lowered' = lowered := by simpa using hl'.symm.trans hl
  exact ⟨p, planned_filter_of_usable hm hp hb ha hw, rfl⟩

/-- Evaluation of one usable bundle on its own succeeds wherever it succeeds
among others. -/
theorem evaluateAction_singleton (hok : evaluateAction engines input = .ok verdict)
    (hb : bundle ∈ input.bundles)
    (ha : bundle.manifest.applies input.action.view input.tx.view = true)
    (hw : bundle.manifest.WellFormed) :
    ∃ alone, evaluateAction engines { input with bundles := [bundle] } = .ok alone := by
  obtain ⟨-, lowered, hlo, ms, hma, p, hp, -⟩ := (evaluateAction_eq_ok engines).1 hok
  have ho := planned_filter_of_usable hma hp hb ha hw
  obtain ⟨rfl, -⟩ := matchingValidManifests_eq_ok.1 hma
  obtain ⟨-, hap, -, hl⟩ := planPolicyRpcV2_eq_ok.1 hp
  have hu : bundle.manifest.usable input.action.view input.tx.view = true :=
    ManifestV2.usable_iff.2 ⟨ha, hw⟩
  have hme : bundle.manifest ∈ (input.bundles.map (·.manifest)).filter
      (·.usable input.action.view input.tx.view) :=
    mem_filter.2 ⟨mem_map.2 ⟨bundle, hb, rfl⟩, hu⟩
  have hp' : planPolicyRpcV2 [bundle.manifest] input.action.view lowered.context
      input.tx.view = .ok (bundle.manifest.plannedCalls
        (planningRoots lowered.context input.tx.view)) := by
    refine planPolicyRpcV2_eq_ok.2 ⟨by simp [maxPolicyRpcV2Manifests], ?_, ?_, ?_⟩
    · intro m hm
      obtain rfl : m = bundle.manifest := by simpa using hm
      exact hap _ hme
    · simp [ha]
    · rw [← ho]
      exact (length_filter_le ..).trans hl
  refine ⟨_, (evaluateAction_eq_ok engines).2 ⟨by simp [maxPolicyRpcV2Manifests], lowered, hlo,
    [bundle.manifest], ?_, _, hp', rfl⟩⟩
  rw [matchingValidManifests_eq_ok]
  simp [hu]

/-- A usable bundle has a planned required call whose result is missing. Then
every evaluation that includes the bundle fails, whatever the other bundles are,
exactly when no output of a foreign kind is reached before the failure. -/
theorem missing_required_fails_iff {verdict : Verdict} {call : PlannedCallV2}
    (hok : evaluateAction engines input = .ok verdict)
    (hlower : engines.lowerAction input.action input.actionMeta input.tx input.host = .ok lowered)
    (hbundle : bundle ∈ input.bundles)
    (happ : bundle.manifest.applies input.action.view input.tx.view = true)
    (hvalid : bundle.manifest.validate = .ok ())
    (hcall : call ∈ bundle.manifest.plannedCalls (planningRoots lowered.context input.tx.view))
    (hrequired : call.optional = false) (hmissing : input.results[call.callId]? = none) :
    (∀ bundles verdict, bundle ∈ bundles →
        evaluateAction engines { input with bundles := bundles } = .ok verdict →
        verdict.isFailure = true) ↔
      ¬ ForeignKindReached
        (bundle.manifest.plannedCalls (planningRoots lowered.context input.tx.view))
        input.results := by
  have hw : bundle.manifest.WellFormed := bundle.manifest.validate_eq_ok.1 hvalid
  constructor
  · intro ha hfo
    obtain ⟨message, hf⟩ := foreignKindReached_iff.1 hfo
    obtain ⟨alone, hal⟩ := evaluateAction_singleton hok hbundle happ hw
    have hfa := ha [bundle] alone (by simp) hal
    obtain ⟨planned, hp, rfl⟩ := bundleVerdict_of_evaluateAction hal hlower (by simp) happ hw
    -- on its own the bundle contributes the quarantine warning of the foreign kind
    rw [evaluateMatchingBundles, Verdict.aggregate_isFailure] at hfa
    simp [bundleVerdict_of_usable engines happ hw hp,
      stepsVerdict_of_failure engines hf, systemFailVerdict, quarantineVerdict,
      Verdict.isFailure] at hfa
  · intro hfo bundles verdict' hm hok'
    obtain ⟨callId, reason, hf⟩ := firstFailure_of_missing hcall hrequired hmissing hfo
    obtain ⟨planned, hp, rfl⟩ := bundleVerdict_of_evaluateAction hok' hlower hm happ hw
    have hv : bundleVerdict engines input.action input.tx lowered planned input.results
        bundle = some (.fail [⟨systemPolicyId, some s!"rpc-unavailable: {callId}", .deny,
          .action⟩]) := by
      rw [bundleVerdict_of_usable engines happ hw hp,
        stepsVerdict_of_failure engines hf, systemFailVerdict, Option.getD_some]
    rw [evaluateMatchingBundles, Verdict.aggregate_isFailure, any_eq_true]
    exact ⟨_, mem_filterMap.2 ⟨bundle, hm, hv⟩, rfl⟩

end Boundary

/-! ## A foreign kind in front of a missing result -/

/-- A Cedar that knows the policy sets of the given texts, accepts every schema,
entity and context, and allows every request. -/
def tableCedar (table : List (String × PolicySet)) : Cedar where
  parsePolicySet text := (table.lookup text).elim (.error "unexpected token") .ok
  parseSchema _ := .ok ()
  validate _ _ := none
  toJson _ := .ok .null
  duplicateId id := s!"duplicate template or policy id `{id}`"
  parseEntityUid _ := .ok ()
  entitiesFromJson _ := .ok ()
  contextFromJson _ := .ok ()
  newRequest _ _ _ _ := .ok ()
  isAuthorized _ _ _ _ _ _ := ⟨.allow, [baselineAllowId], []⟩

def swapAction : ActionBody := .domain { domain := .amm, actionTag := "swap" }

def swapMeta : ActionMeta := ⟨1738000000, 1, .null⟩

def swapTx : TxInput := .new "eip155:1" "0x1111" "0x2222"

/-- The uids a lowering gives a swap, with the one context field the samples read. -/
def swapLowered : LoweredAction where
  principal := "Wallet::\"0x1111\""
  actionUid := "Amm::Action::\"Swap\""
  resource := "Protocol::\"0x2222\""
  fields := [("slippageBp", .int 50)]
  noCustom := rfl

def swapEngines (cedar : Cedar) : Engines where
  cedar := cedar
  lowerAction _ _ _ _ := .ok swapLowered
  composePerPolicy _ := .ok "namespace Amm"

/-- A manifest of two calls, the second required; the first projects the field
`label` with the given kind. -/
def twoCallManifest (kind : String) : ManifestV2 where
  id := "cap"
  schemaVersion := 2
  policyRpc := [
    { id := "label", method := "token.label", optional := true,
      outputs := [⟨kind, "label", .string, "$.result.label", false⟩] },
    { id := "usd", method := "oracle.usd_value",
      outputs := [⟨"context", "inputUsd", .decimal, "$.result.usd", false⟩] }]
  customContext := ⟨.ofList [("label", "String"), ("inputUsd", "decimal")]⟩

/-- The host answered the optional call only. -/
def labelOnlyInput (kind : String) : EvaluateActionInput where
  action := swapAction
  actionMeta := swapMeta
  tx := swapTx
  bundles := [⟨"forbid(principal, action, resource);", twoCallManifest kind⟩]
  results := .ofList [("cap::label", Json.obj [("label", .str "WETH")])]

/-- With context projections only, the missing answer fails the evaluation. -/
theorem missing_usd_fails :
    evaluateAction (swapEngines (tableCedar [])) (labelOnlyInput "context") =
      .ok (.fail [⟨"__system__", some "rpc-unavailable: cap::usd", .deny, .action⟩]) ∧
    (Verdict.fail [⟨"__system__", some "rpc-unavailable: cap::usd", .deny,
      .action⟩]).isFailure = true := by
  have ho : evaluateAction (swapEngines (tableCedar [])) (labelOnlyInput "context") =
      .ok (.fail [⟨"__system__", some "rpc-unavailable: cap::usd", .deny, .action⟩]) := rfl
  refine ⟨ho, (missing_required_fails_iff ho rfl mem_cons_self rfl rfl
    (mem_cons_of_mem _ mem_cons_self) rfl rfl).2 ?_ _ _ mem_cons_self ho⟩
  rintro ⟨before, call, after, hc, -, payload, -, earlier, output, later, hou, hk, -⟩
  have hcl : call ∈ (twoCallManifest "context").plannedCalls
      (planningRoots swapLowered.context swapTx.view) := hc ▸ by simp
  obtain ⟨spec, hs, params, -, rfl⟩ := mem_plannedCalls.1 hcl
  have hot : output ∈ spec.outputs := by
    change spec.outputs = _ at hou
    simp [hou]
  simp only [twoCallManifest, mem_cons, not_mem_nil, or_false] at hs
  rcases hs with rfl | rfl
  · obtain rfl : output = _ := by simpa using hot
    exact hk rfl
  · obtain rfl : output = _ := by simpa using hot
    exact hk rfl

/-- A validated manifest declares the kind `entity` for the output of an answered
optional call: the missing required answer only warns. -/
theorem foreign_kind_masks_missing :
    (twoCallManifest "entity").validate = .ok () ∧
    (twoCallManifest "entity").applies swapAction.view swapTx.view = true ∧
    (∃ call ∈ (twoCallManifest "entity").plannedCalls
        (planningRoots swapLowered.context swapTx.view),
      call.optional = false ∧ (labelOnlyInput "entity").results[call.callId]? = none) ∧
    ∃ verdict, evaluateAction (swapEngines (tableCedar [])) (labelOnlyInput "entity") =
        .ok verdict ∧
      verdict.isFailure = false :=
  ⟨rfl, rfl, ⟨_, mem_cons_of_mem _ mem_cons_self, rfl, rfl⟩, _, rfl, rfl⟩

/-! ## A signed policy -/

def samplePayload (id source : String) : Json :=
  .obj [("env", .str "staging"), ("profile", .str "default"), ("issued_at", .int 1000),
    ("sequence", .int 1), ("policies", .arr [.obj [("id", .str id), ("policy", .str source),
      ("manifest", .obj [("id", .str id), ("schema_version", .int 2)])]])]

/-- The texts under which a policy is parsed: its own and the one of the engine. -/
def sampleTable (source : String) (policy : CedarPolicy) : List (String × PolicySet) :=
  [(source, ⟨[policy], 0⟩),
    (baselinePermit ++ source ++ "\n",
      ⟨[⟨"policy0", [("id", baselineAllowId)], "permit"⟩, { policy with id := "policy1" }], 0⟩)]

def capSource : String := "@id(\"cap\")\n@severity(\"deny\")\nforbid(principal, action, resource);"

def capCedar : Cedar :=
  tableCedar (sampleTable capSource ⟨"policy0", [("id", "cap"), ("severity", "deny")], "forbid"⟩)

end Dambi
