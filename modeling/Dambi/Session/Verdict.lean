import Dambi.Session.Origin

/-!
# What a decision means

The policy part of a report is accumulated over early returns, the checks of the
facts and a loop over all nodes. This file gives its closed form: the decision
is `deny` exactly under a failure or a failing verdict, and `allow` only if
nothing at all was raised.
-/

namespace Dambi

open Fallible Report

variable {δ : Type}

/-! ## One node -/

variable (accepted : BTreeMap String Json)

def nodeResults (node : Node) : BTreeMap String Json :=
  (node.calls.foldl (gatherResults accepted node.path) (∅, {})).1

def nodeVerdict (engines : Engines) (bundles : Except SessionError (List BundleInput))
    (accepted : BTreeMap String Json) (node : Node) : Option Verdict :=
  bundles.toOption.bind fun bundles =>
    (evaluateAction engines (nodeInput node bundles (nodeResults accepted node))).toOption

def factMissing (call : Call) : Bool :=
  accepted[call.id]?.isNone && !call.runtime.optional

section Node

variable (engines : Engines) (bundles : Except SessionError (List BundleInput))
  (accepted : BTreeMap String Json)

/-- The node cannot be evaluated in order. -/
def nodeFails (node : Node) : Bool :=
  node.planningError.isSome || node.calls.any (factMissing accepted) ||
    (nodeVerdict engines bundles accepted node).isNone

def nodeRank (node : Node) : Fin 3 :=
  max (if node.action.isUnknown then 1 else 0) (if nodeFails engines bundles accepted node then 2
    else (nodeVerdict engines bundles accepted node).elim 2 Verdict.rank)

def systemMarked (node : Node) : Bool :=
  (nodeVerdict engines bundles accepted node).any (·.matched.any (·.policyId == systemPolicyId))

private theorem foldl_gatherResults (p : List Nat) (cs : List Call)
    (rs : BTreeMap String Json) (r : Report) :
    (cs.foldl (gatherResults accepted p) (rs, r)).1 =
      (cs.foldl (gatherResults accepted p) (rs, {})).1 ∧
    r.FailsIf (cs.any (factMissing accepted)) (cs.foldl (gatherResults accepted p) (rs, r)).2 := by
  induction cs generalizing rs r with
  | nil => exact ⟨rfl, .refl r⟩
  | cons c cs ih =>
    have hh : r.FailsIf (factMissing accepted c)
        (gatherResults accepted p (rs, r) c).2 := by
      unfold gatherResults factMissing
      cases accepted[c.id]? with
      | some value => exact .refl r
      | none =>
        cases c.runtime.optional with
        | true => exact .refl r
        | false => exact failsIf_fail ..
    have ht := ih (gatherResults accepted p (rs, r) c).1
      (gatherResults accepted p (rs, r) c).2
    have he := ih (gatherResults accepted p (rs, {}) c).1
      (gatherResults accepted p (rs, {}) c).2
    rw [List.foldl_cons, List.foldl_cons]
    refine ⟨?_, hh.trans ht.2⟩
    have hg : (gatherResults accepted p (rs, r) c).1 = (gatherResults accepted p (rs, {}) c).1 := by
      unfold gatherResults
      split
      · rfl
      · split <;> rfl
    rw [ht.1, he.1, hg]

/-- The last part of the body: what the runtime is asked, and what it answers. -/
private theorem raised_nodeVerdict (r : Report) (node : Node) :
    Raised r ((nodeVerdict engines bundles accepted node).elim 2 Verdict.rank)
      ((nodeVerdict engines bundles accepted node).isNone ||
        systemMarked engines bundles accepted node)
      (match bundles with
      | .error error => r.fail "engine_error" error.message none (some node.path)
      | .ok bundles =>
        match evaluateAction engines (nodeInput node bundles (nodeResults accepted node)) with
        | .ok verdict => r.engine verdict node accepted
        | .error error => r.fail "engine_error" error.message none (some node.path)) := by
  cases bundles with
  | error error => exact raised_fail ..
  | ok bundles =>
    simp only [systemMarked, nodeVerdict, Except.toOption, Option.bind_some]
    cases evaluateAction engines (nodeInput node bundles (nodeResults accepted node)) with
    | error error => exact raised_fail ..
    | ok verdict => exact raised_engine ..

theorem raised_evaluateNode (r : Report) (node : Node) :
    Raised r (nodeRank engines bundles accepted node)
      (nodeFails engines bundles accepted node || systemMarked engines bundles accepted node)
      (evaluateNode engines bundles accepted r node) := by
  have hu : Raised r (if node.action.isUnknown then 1 else 0) false
      (if node.action.isUnknown then
        r.partialDecode "action could not be interpreted" node.path else r) := by
    cases node.action.isUnknown with
    | true => exact raised_partialDecode ..
    | false => exact .refl r
  unfold evaluateNode nodeRank nodeFails
  dsimp only
  cases hp : node.planningError with
  | some e => exact hu.trans (raised_fail ..)
  | none =>
    generalize (if node.action.isUnknown then
      r.partialDecode "action could not be interpreted" node.path else r) = r₁ at hu ⊢
    obtain ⟨hr, hm⟩ := foldl_gatherResults accepted node.path node.calls ∅ r₁
    rcases hfold : node.calls.foldl (gatherResults accepted node.path) (∅, r₁) with ⟨rs, r₂⟩
    rw [hfold] at hr hm
    have hum : Raised r₂ 0 false (if node.matched then r₂ else
        r₂.diagnostic "no_matching_policy" "no policy trigger matches this action" none
          (some node.path)) := by
      cases node.matched with
      | true => exact .refl r₂
      | false => exact raised_diagnostic ..
    have hr : rs = nodeResults accepted node := hr
    have ha := (hu.trans hm).trans
      (hum.trans (raised_nodeVerdict engines bundles accepted _ node))
    simp only [hr]
    refine ⟨ha.rank_eq.trans ?_, ha.failed_eq.trans ?_⟩
    · congr 1
      rw [max_assoc, max_eq_right (Fin.zero_le _)]
      congr 1
      cases node.calls.any (factMissing accepted) with
      | true => exact max_eq_left (Fin.le_last _)
      | false =>
        rw [if_neg Bool.false_ne_true, max_eq_right (Fin.zero_le _)]
        cases nodeVerdict engines bundles accepted node <;> rfl
    · simp [Bool.or_assoc]

variable {engines bundles accepted}

variable {a b : Fin 3} {node : Node}

private theorem max_eq_two : max a b = 2 ↔ a = 2 ∨ b = 2 := by
  revert a b
  decide

private theorem max_eq_zero : max a b = 0 ↔ a = 0 ∧ b = 0 := by
  revert a b
  decide

theorem nodeRank_eq_two :
    nodeRank engines bundles accepted node = 2 ↔
      nodeFails engines bundles accepted node = true ∨
        ∃ matched, nodeVerdict engines bundles accepted node = some (.fail matched) := by
  have hu : ¬ (if node.action.isUnknown then 1 else 0 : Fin 3) = 2 := by
    split <;> decide
  rw [nodeRank, max_eq_two, or_iff_right hu]
  cases hf : nodeFails engines bundles accepted node with
  | true => simp
  | false =>
    simp only [nodeFails, Bool.or_eq_false_iff] at hf
    cases hv : nodeVerdict engines bundles accepted node with
    | none => simp [hv] at hf
    | some verdict => cases verdict <;> simp [Verdict.rank]

theorem nodeRank_eq_zero :
    nodeRank engines bundles accepted node = 0 ↔
      node.action.isUnknown = false ∧ nodeFails engines bundles accepted node = false ∧
        nodeVerdict engines bundles accepted node = some .pass := by
  have hu : (if node.action.isUnknown then 1 else 0 : Fin 3) = 0 ↔
      node.action.isUnknown = false := by
    cases node.action.isUnknown <;> simp
  rw [nodeRank, max_eq_zero, hu]
  refine and_congr_right fun _ => ?_
  cases hf : nodeFails engines bundles accepted node with
  | true => simp
  | false =>
    simp only [nodeFails, Bool.or_eq_false_iff] at hf
    cases hv : nodeVerdict engines bundles accepted node with
    | none => simp [hv] at hf
    | some verdict => cases verdict <;> simp [Verdict.rank]

theorem nodeFails_eq_true :
    nodeFails engines bundles accepted node = true ↔
      (∃ e, node.planningError = some e) ∨
      (∃ c ∈ node.calls, c.runtime.optional = false ∧ accepted[c.id]? = none) ∨
      nodeVerdict engines bundles accepted node = none := by
  simp only [nodeFails, factMissing, Bool.or_eq_true, Option.isSome_iff_exists, List.any_eq_true,
    Bool.and_eq_true, Option.isNone_iff_eq_none, Bool.not_eq_true', or_assoc]
  refine or_congr_right (or_congr_left ?_)
  exact exists_congr fun c => and_congr_right fun _ => and_comm

end Node

/-! ## The whole plan -/

section Plan

variable (env : SessionEnv δ) (lifecycles : Lifecycles) (limits : SessionLimits)
  (planId : String) (plan : PendingPlan δ) (factsText : String)
  (failure : Option CheckFailure) (clockInvalid : Bool) (evaluatedAt : Nat)

/-- The facts of a batch that passed their checks, by the plan's call ids. -/
def acceptedFacts : BTreeMap String Json :=
  (validateFacts env.parseJson limits evaluatedAt factsText planId plan.nodes {}).1

def planVerdict (node : Node) : Option Verdict :=
  nodeVerdict env.engines (policyBundles plan.snapshot)
    (acceptedFacts env limits planId plan factsText evaluatedAt) node

/-- The ways in which an evaluation fails. -/
inductive EvaluationFails : Prop
  | clock (h : clockInvalid = true)
  | check {category : CheckFailure} (h : failure = some category)
  | expired (h : plan.expiresAt ≤ evaluatedAt)
  | trust (h : ¬ (lifecycles plan.snapshot.lifecycle = false ∧
      plan.snapshot.policy.Fresh evaluatedAt))
  | facts (h : ¬ ∃ results,
      FactsOk env.parseJson limits evaluatedAt factsText planId plan.nodes results)
  | planning {node : Node} {error : SessionError} (hnode : node ∈ plan.nodes)
      (h : node.planningError = some error)
  | missing {node : Node} {call : Call} (hnode : node ∈ plan.nodes) (hcall : call ∈ node.calls)
      (hrequired : call.runtime.optional = false)
      (h : (acceptedFacts env limits planId plan factsText evaluatedAt)[call.id]? = none)
  | engine {node : Node} (hnode : node ∈ plan.nodes)
      (h : planVerdict env limits planId plan factsText evaluatedAt node = none)

/-- The loop over the nodes runs: nothing returned early. -/
structure Runs : Prop where
  clock : clockInvalid = false
  unexpired : evaluatedAt < plan.expiresAt
  usable : lifecycles plan.snapshot.lifecycle = false ∧ plan.snapshot.policy.Fresh evaluatedAt

variable {env lifecycles limits planId plan factsText failure clockInvalid evaluatedAt}

private theorem policyReport_of_not_runs (h : ¬ Runs lifecycles plan clockInvalid evaluatedAt) :
    (policyReport env lifecycles limits planId plan factsText failure clockInvalid
      evaluatedAt).rank = 2 ∧
    (policyReport env lifecycles limits planId plan factsText failure clockInvalid
      evaluatedAt).failed = true := by
  unfold policyReport
  dsimp only
  generalize (failure.elim {} fun failure =>
    ({} : Report).fail failure.code failure.message none none) = r
  split
  · exact ⟨rfl, rfl⟩
  · next hc =>
    split
    · exact ⟨rfl, rfl⟩
    · next he =>
      split
      · exact ⟨rfl, rfl⟩
      · next hu =>
        exact absurd ⟨Bool.eq_false_iff.2 hc, Nat.not_le.1 he, Snapshot.ensureUsable_eq_ok.1 hu⟩ h

variable (env limits planId factsText failure) in
private theorem policyReport_raised (h : Runs lifecycles plan clockInvalid evaluatedAt) :
    ∃ bad, (bad = false ↔ ∃ rs,
        FactsOk env.parseJson limits evaluatedAt factsText planId plan.nodes rs) ∧
      Raised {} (max (max (if failure.isSome || bad then 2 else 0)
            (if plan.partialDecode then 1 else 0))
          (topRank (nodeRank env.engines (policyBundles plan.snapshot)
            (acceptedFacts env limits planId plan factsText evaluatedAt)) plan.nodes))
        (failure.isSome || bad || plan.nodes.any fun node =>
          nodeFails env.engines (policyBundles plan.snapshot)
            (acceptedFacts env limits planId plan factsText evaluatedAt) node ||
          systemMarked env.engines (policyBundles plan.snapshot)
            (acceptedFacts env limits planId plan factsText evaluatedAt) node)
        (policyReport env lifecycles limits planId plan factsText failure clockInvalid
          evaluatedAt) := by
  obtain ⟨hcl, hu, hus⟩ := h
  have ho := (Snapshot.ensureUsable_eq_ok (u := ())).2 hus
  have hc : FailsIf {} failure.isSome (failure.elim {} fun failure =>
      ({} : Report).fail failure.code failure.message none none) := by
    cases failure with
    | none => exact .refl {}
    | some failure => exact failsIf_fail ..
  unfold policyReport
  simp only [hcl, Bool.false_eq_true, if_false, Nat.not_le.2 hu, ho]
  generalize (failure.elim {} fun failure =>
    ({} : Report).fail failure.code failure.message none none) = r at hc ⊢
  obtain ⟨bad, hf, hb⟩ := validateFacts_failsIf env.parseJson limits evaluatedAt factsText
    planId plan.nodes r
  have hac := validateFacts_fst env.parseJson limits evaluatedAt factsText planId
    plan.nodes r {}
  rcases hvalidate : validateFacts env.parseJson limits evaluatedAt factsText planId
    plan.nodes r with ⟨accepted, r₁⟩
  rw [hvalidate] at hf hac
  have hac : accepted = acceptedFacts env limits planId plan factsText evaluatedAt := hac
  have hp : Raised r₁ (if plan.partialDecode then 1 else 0) false
      (if plan.partialDecode then
        r₁.partialDecode "transaction decoder reported partial interpretation" [] else r₁) := by
    cases plan.partialDecode with
    | true => exact raised_partialDecode ..
    | false => exact .refl r₁
  refine ⟨bad, hb, ?_⟩
  have hn := Raised.foldl _ _ (fun r node (_ : node ∈ plan.nodes) =>
    raised_evaluateNode env.engines (policyBundles plan.snapshot) accepted r node)
    (if plan.partialDecode then
      r₁.partialDecode "transaction decoder reported partial interpretation" [] else r₁)
  have ha := (Raised.trans (hc.trans hf) hp).trans hn
  rw [Bool.or_false] at ha
  simp only [← hac]
  exact ha

private theorem evaluationFails_of_runs (h : Runs lifecycles plan clockInvalid evaluatedAt) :
    EvaluationFails env lifecycles limits planId plan factsText failure clockInvalid evaluatedAt ↔
      (failure.isSome = true ∨ ¬ ∃ rs,
        FactsOk env.parseJson limits evaluatedAt factsText planId plan.nodes rs) ∨
      ∃ node ∈ plan.nodes, nodeFails env.engines (policyBundles plan.snapshot)
        (acceptedFacts env limits planId plan factsText evaluatedAt) node = true := by
  constructor
  · intro hf
    cases hf with
    | clock hcl => exact absurd (h.clock.symm.trans hcl) Bool.false_ne_true
    | check hc => exact .inl (.inl (hc ▸ rfl))
    | expired he => exact absurd h.unexpired (Nat.not_lt.2 he)
    | trust ht => exact absurd h.usable ht
    | facts hfc => exact .inl (.inr hfc)
    | planning hn hp =>
      exact .inr ⟨_, hn, nodeFails_eq_true.2 (.inl ⟨_, hp⟩)⟩
    | missing hn hca hr hm =>
      exact .inr ⟨_, hn, nodeFails_eq_true.2 (.inr (.inl ⟨_, hca, hr, hm⟩))⟩
    | engine hn hv =>
      exact .inr ⟨_, hn, nodeFails_eq_true.2 (.inr (.inr hv))⟩
  · intro hf
    rcases hf with (hc | hfc) | ⟨node, hn, hf⟩
    · obtain ⟨c, hc⟩ := Option.isSome_iff_exists.1 hc
      exact .check hc
    · exact .facts hfc
    · rcases nodeFails_eq_true.1 hf with ⟨e, hp⟩ | ⟨ca, hca, ho, hnn⟩ | hnn
      · exact .planning hn hp
      · exact .missing hn hca ho hnn
      · exact .engine hn hnn

private theorem evaluationFails_of_not_runs (h : ¬ Runs lifecycles plan clockInvalid evaluatedAt) :
    EvaluationFails env lifecycles limits planId plan factsText failure clockInvalid
      evaluatedAt := by
  cases hc : clockInvalid with
  | true => exact .clock rfl
  | false =>
    by_cases he : plan.expiresAt ≤ evaluatedAt
    · exact .expired he
    · exact .trust fun hu => h ⟨hc, Nat.not_le.1 he, hu⟩

theorem policyReport_eq_deny :
    (policyReport env lifecycles limits planId plan factsText failure clockInvalid
        evaluatedAt).decision = .deny ↔
      EvaluationFails env lifecycles limits planId plan factsText failure clockInvalid
          evaluatedAt ∨
        ∃ node ∈ plan.nodes, ∃ matched,
          planVerdict env limits planId plan factsText evaluatedAt node = some (.fail matched) := by
  rw [decision_eq_deny]
  by_cases hr : Runs lifecycles plan clockInvalid evaluatedAt
  · obtain ⟨bad, hb, hra⟩ := policyReport_raised env limits planId factsText failure hr
    have hp : ¬ (if plan.partialDecode then 1 else 0 : Fin 3) = 2 := by
      split <;> decide
    have hc : (if failure.isSome || bad then 2 else 0 : Fin 3) = 2 ↔
        failure.isSome = true ∨ ¬ ∃ results,
          FactsOk env.parseJson limits evaluatedAt factsText planId plan.nodes results := by
      rw [← hb]
      cases failure.isSome <;> cases bad <;> decide
    rw [hra.rank_eq, max_eq_two, max_eq_two, max_eq_two, topRank_eq_two,
      or_iff_right (show ¬ ({} : Report).rank = 2 by decide), or_iff_left hp, hc,
      evaluationFails_of_runs hr]
    simp only [or_assoc, nodeRank_eq_two, and_or_left, exists_or]
    rfl
  · exact iff_of_true (policyReport_of_not_runs hr).1 (.inl (evaluationFails_of_not_runs hr))

theorem policyReport_eq_allow :
    (policyReport env lifecycles limits planId plan factsText failure clockInvalid
        evaluatedAt).decision = .allow ↔
      ¬ EvaluationFails env lifecycles limits planId plan factsText failure clockInvalid
          evaluatedAt ∧
        plan.partialDecode = false ∧
        ∀ node ∈ plan.nodes, node.action.isUnknown = false ∧
          planVerdict env limits planId plan factsText evaluatedAt node = some .pass := by
  rw [decision_eq_allow]
  by_cases hr : Runs lifecycles plan clockInvalid evaluatedAt
  · obtain ⟨bad, hb, hra⟩ := policyReport_raised env limits planId factsText failure hr
    have hp : (if plan.partialDecode then 1 else 0 : Fin 3) = 0 ↔
        plan.partialDecode = false := by
      cases plan.partialDecode <;> decide
    have hc : (if failure.isSome || bad then 2 else 0 : Fin 3) = 0 ↔
        ¬ (failure.isSome = true ∨ ¬ ∃ rs,
          FactsOk env.parseJson limits evaluatedAt factsText planId plan.nodes rs) := by
      rw [← hb]
      cases failure.isSome <;> cases bad <;> decide
    rw [hra.rank_eq, max_eq_zero, max_eq_zero, max_eq_zero, topRank_eq_zero,
      and_iff_right (show ({} : Report).rank = 0 from rfl), hp, hc,
      evaluationFails_of_runs hr]
    simp only [nodeRank_eq_zero, not_or, not_exists, not_and, Bool.not_eq_true]
    constructor
    · intro ⟨⟨ho, hw⟩, hno⟩
      refine ⟨⟨ho, fun node hn => (hno node hn).2.1⟩, hw, fun node hn => ?_⟩
      exact ⟨(hno node hn).1, (hno node hn).2.2⟩
    · intro ⟨⟨ho, hf⟩, hw, hno⟩
      refine ⟨⟨ho, hw⟩, fun node hn => ?_⟩
      exact ⟨(hno node hn).1, hf node hn, (hno node hn).2⟩
  · rw [(policyReport_of_not_runs hr).1]
    exact iff_of_false (by decide) fun h => h.1 (evaluationFails_of_not_runs hr)

theorem policyReport_eq_failClosed :
    (policyReport env lifecycles limits planId plan factsText failure clockInvalid
        evaluatedAt).source = .failClosed ↔
      EvaluationFails env lifecycles limits planId plan factsText failure clockInvalid
          evaluatedAt ∨
        ∃ node ∈ plan.nodes, ∃ verdict,
          planVerdict env limits planId plan factsText evaluatedAt node = some verdict ∧
            ∃ m ∈ verdict.matched, m.policyId = systemPolicyId := by
  rw [source_eq_failClosed]
  by_cases hr : Runs lifecycles plan clockInvalid evaluatedAt
  · obtain ⟨bad, hb, hra⟩ := policyReport_raised env limits planId factsText failure hr
    have hb' : bad = true ↔ ¬ ∃ results,
        FactsOk env.parseJson limits evaluatedAt factsText planId plan.nodes results := by
      rw [← hb, Bool.not_eq_false]
    rw [hra.failed_eq, evaluationFails_of_runs hr]
    simp only [Bool.false_or, Bool.or_eq_true, List.any_eq_true, hb', systemMarked,
      Option.any_eq_true, beq_iff_eq, or_assoc, and_or_left, exists_or]
    rfl
  · exact iff_of_true (policyReport_of_not_runs hr).2 (.inl (evaluationFails_of_not_runs hr))

end Plan

end Dambi
