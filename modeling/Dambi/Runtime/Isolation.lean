import Mathlib.Data.List.Flatten
import Mathlib.Data.List.Perm.Subperm
import Dambi.Runtime.Boundary

/-!
# Isolation of bundles

Planning is joint over all bundles, evaluation is one bundle at a time. A
bundle reads the joint plan only through the calls of its own manifest, so it
contributes what it would contribute alone.
-/

namespace Dambi

open Fallible List Verdict

def EvaluateActionInput.over (input : EvaluateActionInput) (bundles : List BundleInput) :
    EvaluateActionInput :=
  { input with bundles }

/-- Bundles that do not apply to an action change nothing about its evaluation. -/
theorem evaluateAction_filter {β : Type} (engines : Engines) (input : EvaluateActionInput)
    (f : β → BundleInput) (p : β → Bool) (xs : List β) (hc : xs.length ≤ maxPolicyRpcV2Manifests)
    (hd : ∀ x ∈ xs, p x = false → (f x).manifest.applies input.action.view input.tx.view = false) :
    evaluateAction engines { input with bundles := (xs.filter p).map f } =
      evaluateAction engines { input with bundles := xs.map f } := by
  have hc' : (xs.filter p).length ≤ maxPolicyRpcV2Manifests := (length_filter_le p xs).trans hc
  have hcl : ∀ s out,
      collectManifests input.action.view input.tx.view s out
          (((xs.filter p).map f).map (·.manifest)) =
        collectManifests input.action.view input.tx.view s out
          ((xs.map f).map (·.manifest)) := by
    clear hc hc'
    induction xs with
    | nil => simp
    | cons x xs ih =>
      have ih := ih fun x' hx' => hd x' (mem_cons_of_mem x hx')
      intro s out
      cases hp : p x with
      | true =>
        rw [filter_cons_of_pos hp]
        simp only [map_cons, collectManifests, ih]
      | false =>
        have hu : (f x).manifest.usable input.action.view input.tx.view = false := by
          rw [ManifestV2.usable, hd x mem_cons_self hp, Bool.false_and]
        rw [filter_cons_of_neg (by simp [hp])]
        simp only [map_cons, collectManifests, hu, Bool.false_eq_true, if_false, ih]
  have hv lowered planned :
      ((xs.filter p).map f).filterMap
          (bundleVerdict engines input.action input.tx lowered planned input.results) =
        (xs.map f).filterMap
          (bundleVerdict engines input.action input.tx lowered planned input.results) := by
    rw [filterMap_map, filterMap_map, filterMap_filter]
    refine filterMap_congr fun x hx => ?_
    cases hp : p x with
    | true => rfl
    | false =>
      have ha := hd x hx hp
      simp [bundleVerdict, bundleOutcome, ha]
  simp only [evaluateAction, checkManifestCount, length_map, hc, hc',
    require_pos, ok_bind, matchingValidManifests, hcl, evaluateMatchingBundles, hv]

/-! ## Other orders of the hash sets -/

section Reordered

variable {engines : Engines} {g : Authorizer} (hg : engines.cedar.isAuthorized.Reorders g)
include hg

theorem evaluatePolicy_reordered (bundle : BundleInput) (tx : TxInput) (lowered : LoweredAction)
    (context : Json) : Related Reordered (evaluatePolicy engines bundle tx lowered context)
      (evaluatePolicy (engines.withAuthorizer g) bundle tx lowered context) := by
  refine .bind fun schema => .bind fun engine => .mapError ?_
  refine .bind fun _ => .bind fun _ => .bind fun _ => ?_
  refine .bind fun _ => .bind fun _ => .bind fun _ => ?_
  obtain ⟨reason, hp, he⟩ := hg lowered.principal lowered.actionUid lowered.resource context
    engine.policySet (entitiesForTx tx)
  refine .ok ?_
  change Reordered _ (engine.verdict (g ..))
  rw [he]
  exact PolicyEngine.verdict_reordered hp

theorem bundleVerdict_reordered (action : ActionBody) (tx : TxInput) (lowered : LoweredAction)
    (planned : List PlannedCallV2) (results : BTreeMap String Json) (bundle : BundleInput) :
    Reordered ((bundleVerdict engines action tx lowered planned results bundle).getD .pass)
      ((bundleVerdict (engines.withAuthorizer g) action tx lowered planned results
        bundle).getD .pass) := by
  unfold bundleVerdict bundleOutcome
  split_ifs
  · cases bundle.manifest.validate with
    | error e => exact .refl _
    | ok u =>
      simp only [Except.mapError, ok_bind]
      cases materializeV2 results lowered.context
          (planned.filter (·.manifestId = bundle.manifest.id)) with
      | error e => exact .refl _
      | ok context =>
        have hr := evaluatePolicy_reordered hg bundle tx lowered context
        revert hr
        dsimp only
        generalize evaluatePolicy engines bundle tx lowered context = x
        generalize evaluatePolicy (engines.withAuthorizer g) bundle tx lowered context = y
        rintro (h | e)
        · exact h
        · exact .refl _
  · exact .pass

theorem evaluateAction_reordered {input : EvaluateActionInput} {verdict : Verdict}
    (h : evaluateAction engines input = .ok verdict) : ∃ verdict',
      evaluateAction (engines.withAuthorizer g) input = .ok verdict' ∧
        verdict.Reordered verdict' := by
  obtain ⟨hc, lowered, hl, ms, hm, planned, hp, rfl⟩ := (evaluateAction_eq_ok engines).1 h
  refine ⟨_, (evaluateAction_eq_ok _).2 ⟨hc, lowered, hl, ms, hm, planned, hp, rfl⟩, ?_⟩
  rw [evaluateMatchingBundles, evaluateMatchingBundles, ← aggregate_map_getD,
    ← aggregate_map_getD]
  exact .aggregate (forall₂_map_left_iff.2 (forall₂_map_right_iff.2 (forall₂_same.2
    fun bundle _ => bundleVerdict_reordered hg ..)))

end Reordered

section Isolation

variable {engines : Engines} {action : ActionBody} {tx : TxInput} {lowered : LoweredAction}
  {results : BTreeMap String Json}

/-! ## One bundle in two plans -/

variable {planned : List PlannedCallV2}

theorem bundleVerdict_congr {bundle : BundleInput} {planned' : List PlannedCallV2}
    (h : bundle.manifest.applies action.view tx.view = true → bundle.manifest.WellFormed →
      planned.filter (·.manifestId = bundle.manifest.id) =
        planned'.filter (·.manifestId = bundle.manifest.id)) :
    bundleVerdict engines action tx lowered planned results bundle =
      bundleVerdict engines action tx lowered planned' results bundle := by
  unfold bundleVerdict bundleOutcome
  by_cases ha : bundle.manifest.applies action.view tx.view = true
  · cases hv : bundle.manifest.validate with
    | error error => simp [Except.mapError]
    | ok _ => rw [h ha (bundle.manifest.validate_eq_ok.1 hv)]
  · simp [ha]

variable {ms : List ManifestV2}

theorem planPolicyRpcV2_of_subperm {view : ActionView} {context : Json} {tv : TxView}
    {f : List ManifestV2} (hpl : planPolicyRpcV2 ms view context tv = .ok planned)
    (h : f.Subperm ms) : ∃ planned', planPolicyRpcV2 f view context tv = .ok planned' := by
  obtain ⟨hco, hw, rfl, hc⟩ := planPolicyRpcV2_eq_ok.1 hpl
  refine ⟨_, planPolicyRpcV2_eq_ok.2 ⟨h.length_le.trans hco,
    fun m hm => hw m (h.subset hm), rfl, le_trans ?_ hc⟩⟩
  obtain ⟨o, hp, hs⟩ := h.filter (·.applies view tv)
  rw [← (hp.flatMap_right _).length_eq]
  exact (hs.flatMap _).length_le

/-! ## Fewer bundles, other orders -/

variable {input : EvaluateActionInput} {verdict : Verdict} {bundles : List BundleInput}

/-- An evaluation of some of the bundles, in any order, succeeds as well, and each of them
contributes what it did. -/
theorem evaluateAction_of_subperm (hc : input.bundles.length ≤ maxPolicyRpcV2Manifests)
    (hl : engines.lowerAction input.action input.actionMeta input.tx input.host = .ok lowered)
    (hm : matchingValidManifests (input.bundles.map (·.manifest)) input.action input.tx = .ok ms)
    (hp : planPolicyRpcV2 ms input.action.view lowered.context input.tx.view = .ok planned)
    (h : bundles.Subperm input.bundles) :
    evaluateAction engines (input.over bundles) = .ok (.aggregate (bundles.filterMap
      (bundleVerdict engines input.action input.tx lowered planned input.results))) := by
  obtain ⟨hmanifests_eq, hn⟩ := matchingValidManifests_eq_ok.1 hm
  have ⟨_, hperm, hsub⟩ := h
  have hu := Subperm.filter (·.usable input.action.view input.tx.view)
    ⟨_, hperm.map (·.manifest), hsub.map _⟩
  rw [← hmanifests_eq] at hu
  have hf : matchingValidManifests (bundles.map (·.manifest)) input.action input.tx =
      .ok ((bundles.map (·.manifest)).filter (·.usable input.action.view input.tx.view)) := by
    refine matchingValidManifests_eq_ok.2 ⟨rfl, ?_⟩
    obtain ⟨o, hpe, hs⟩ := hu
    exact (hpe.map _).nodup_iff.1 (hn.sublist (hs.map _))
  obtain ⟨planned', hp'⟩ := planPolicyRpcV2_of_subperm hp hu
  refine (evaluateAction_eq_ok engines).2 ⟨h.length_le.trans hc, lowered, hl, _, hf,
    planned', hp', ?_⟩
  rw [evaluateMatchingBundles]
  congr 1
  apply filterMap_congr
  intro b hb
  apply bundleVerdict_congr
  intro ha hw
  rw [planned_filter_of_usable hm hp (h.subset hb) ha hw, planned_filter_of_usable hf hp' hb ha hw]

end Isolation

/-! ## The verdict of all bundles -/

/-- The verdict is determined by the verdicts of the bundles evaluated alone. -/
structure Isolated (engines : Engines) (input : EvaluateActionInput) (verdict : Verdict)
    (alone : BundleInput → Verdict) : Prop where
  /-- Each bundle evaluates alone. -/
  evaluates : ∀ bundle ∈ input.bundles,
    evaluateAction engines (input.over [bundle]) = .ok (alone bundle)
  /-- A bundle that does not match passes alone. -/
  unmatched : ∀ bundle ∈ input.bundles,
    bundle.manifest.applies input.action.view input.tx.view = false → alone bundle = .pass
  aggregated : verdict = .aggregate (input.bundles.map alone)
  /-- The bundles that do not match may be left out. -/
  matching : verdict = .aggregate ((input.bundles.filter
    (·.manifest.applies input.action.view input.tx.view)).map alone)
  rank : verdict.rank = (input.bundles.map fun bundle => (alone bundle).rank).foldr max 0
  /-- The order of the bundles does not matter. -/
  order : ∀ bundles, bundles.Perm input.bundles → ∃ verdict',
    evaluateAction engines (input.over bundles) = .ok verdict' ∧ verdict'.rank = verdict.rank
  /-- With more bundles the verdict is at least as severe. -/
  more : ∀ bundles verdict', input.bundles ⊆ bundles →
    evaluateAction engines (input.over bundles) = .ok verdict' → verdict.rank ≤ verdict'.rank
  /-- The hash sets may have other orders when the bundles are evaluated alone. -/
  reordered : ∀ alone' : BundleInput → Verdict, (∀ bundle ∈ input.bundles, ∃ g,
      engines.cedar.isAuthorized.Reorders g ∧
        evaluateAction (engines.withAuthorizer g) (input.over [bundle]) = .ok (alone' bundle)) →
    verdict.Reordered (.aggregate (input.bundles.map alone'))

section Verdict

variable {engines : Engines} {input : EvaluateActionInput} {verdict : Verdict}

theorem evaluateAction_alone (h : evaluateAction engines input = .ok verdict) :
    ∃ a : BundleInput → Verdict,
      (∀ b ∈ input.bundles, evaluateAction engines (input.over [b]) = .ok (a b)) ∧
      (∀ b ∈ input.bundles,
        b.manifest.applies input.action.view input.tx.view = false → a b = .pass) ∧
      verdict = .aggregate (input.bundles.map a) := by
  obtain ⟨hc, lowered, hl, ms, hm, planned, hp, rfl⟩ := (evaluateAction_eq_ok engines).1 h
  let c := bundleVerdict engines input.action input.tx lowered planned input.results
  refine ⟨fun b => (c b).getD .pass, fun b hb => ?_, fun b _ hu => ?_, ?_⟩
  · rw [evaluateAction_of_subperm hc hl hm hp
      (singleton_sublist.2 hb).subperm]
    exact congrArg Except.ok (by
      rw [← aggregate_map_getD, map_singleton, aggregate_singleton])
  · have hn : c b = none := by simp [c, bundleVerdict, bundleOutcome, hu]
    simp [hn]
  · exact (aggregate_map_getD c input.bundles).symm

/-- Some bundles that all evaluate alone are at most as severe as an evaluation of more. -/
theorem rank_le_of_subset {a : BundleInput → Verdict} {bundles : List BundleInput}
    {verdict' : Verdict}
    (ha : ∀ bundle ∈ input.bundles, evaluateAction engines (input.over [bundle]) = .ok (a bundle))
    (hve : verdict = .aggregate (input.bundles.map a)) (hsb : input.bundles ⊆ bundles)
    (h : evaluateAction engines (input.over bundles) = .ok verdict') :
    verdict.rank ≤ verdict'.rank := by
  obtain ⟨a', ha', -, hve'⟩ := evaluateAction_alone h
  rw [hve, hve', rank_aggregate_le]
  rintro v hv
  obtain ⟨bundle, hb, rfl⟩ := mem_map.1 hv
  have hm : bundle ∈ bundles := hsb hb
  have hs : a bundle = a' bundle := Except.ok.inj ((ha bundle hb).symm.trans (ha' bundle hm))
  rw [hs]
  exact rank_aggregate_le.1 le_rfl _ (mem_map.2 ⟨bundle, hm, rfl⟩)

/-- An evaluation that succeeds is the aggregate of its bundles evaluated alone. -/
theorem bundles_isolated (h : evaluateAction engines input = .ok verdict) :
    ∃ alone, Isolated engines input verdict alone := by
  obtain ⟨alone, hal, hu, hv⟩ := evaluateAction_alone h
  refine ⟨alone, hal, hu, hv, ?_, ?_, fun bundles hp => ?_,
    fun bundles verdict' hs h' => rank_le_of_subset hal hv hs h', fun alone' ha => ?_⟩
  · -- a bundle that does not match is a pass, which an aggregate ignores
    let matching (bundle : BundleInput) : Option Verdict :=
      if bundle.manifest.applies input.action.view input.tx.view then some (alone bundle) else none
    have hpa : input.bundles.map alone =
        input.bundles.map fun bundle => (matching bundle).getD .pass := by
      apply map_congr_left
      intro bundle hb
      cases ha : bundle.manifest.applies input.action.view input.tx.view with
      | true => simp [matching, ha]
      | false => simp [matching, ha, hu bundle hb ha]
    rw [hv, hpa, aggregate_map_getD, ← filterMap_eq_map, filterMap_filter]
    rfl
  · rw [hv, rank_aggregate, map_map]
    rfl
  · obtain ⟨hc, lowered, hl, manifests, hm, planned, hpl, -⟩ :=
      (evaluateAction_eq_ok engines).1 h
    have h' := evaluateAction_of_subperm hc hl hm hpl hp.subperm
    refine ⟨_, h', le_antisymm ?_ (rank_le_of_subset hal hv hp.symm.subset h')⟩
    obtain ⟨alone', hal', -, hv'⟩ := evaluateAction_alone h'
    exact rank_le_of_subset hal' hv' hp.subset h
  · rw [hv]
    refine .aggregate (forall₂_map_left_iff.2 (forall₂_map_right_iff.2 (forall₂_same.2 ?_)))
    intro bundle hb
    obtain ⟨g, hg, hr⟩ := ha bundle hb
    obtain ⟨v, hv, hre⟩ := evaluateAction_reordered hg (hal bundle hb)
    exact Except.ok.inj (hv.symm.trans hr) ▸ hre

/-- A planned action is evaluated, and only the answers to planned calls count; another order of
the hash sets is another order of the matches. -/
theorem planned_evaluates {planned : List PlannedCallV2} {results : BTreeMap String Json}
    (h : planAction engines ⟨input.bundles.map (·.manifest), input.action, input.actionMeta,
      input.tx, input.host⟩ = .ok planned)
    (hasked : ∀ call ∈ planned, results[call.callId]? = input.results[call.callId]?) :
    ∃ verdict, evaluateAction engines input = .ok verdict ∧
      evaluateAction engines { input with results } = .ok verdict ∧
      ∀ g, engines.cedar.isAuthorized.Reorders g → ∃ verdict',
        evaluateAction (engines.withAuthorizer g) { input with results } = .ok verdict' ∧
          verdict.Reordered verdict' := by
  simp only [planAction, bind_eq_ok, checkManifestCount, length_map, lower, planCalls,
    mapError_eq_ok, require_eq_ok] at h
  obtain ⟨-, hc, lowered, hl, ms, hm, hp⟩ := h
  have hr : evaluateAction engines { input with results } = .ok (evaluateMatchingBundles engines
      input.bundles input.action input.tx lowered planned input.results) := by
    refine (evaluateAction_eq_ok engines).2 ⟨hc, lowered, hl, ms, hm, planned, hp, ?_⟩
    unfold evaluateMatchingBundles
    congr 2
    funext bundle
    have hsteps : ∀ call ∈ planned.filter (·.manifestId = bundle.manifest.id),
        call.steps input.results = call.steps results := by
      intro call hcall
      simp only [PlannedCallV2.steps, hasked call (mem_of_mem_filter hcall)]
    simp only [bundleVerdict, bundleOutcome, materializeV2_eq, flatMap_congr hsteps]
  exact ⟨_, (evaluateAction_eq_ok engines).2 ⟨hc, lowered, hl, ms, hm, planned, hp, rfl⟩, hr,
    fun g hg => evaluateAction_reordered hg hr⟩

end Verdict

/-- The bundle whose answer is missing, with one whose policy does not parse. -/
def pairedInput : EvaluateActionInput :=
  { labelOnlyInput "context" with
    bundles := (labelOnlyInput "context").bundles ++
      [⟨"forbid(principal, action", { id := "audit", schemaVersion := 2 }⟩] }

/-- The broken bundle is quarantined to a warning and the other one still fails. -/
theorem bundles_isolated_paired :
    ∃ alone, Isolated (swapEngines (tableCedar [])) pairedInput
      (.fail [⟨"__system__", some "rpc-unavailable: cap::usd", .deny, .action⟩,
        ⟨"__engine::quarantine::install_failed",
          some "failed to parse Cedar policy: bundle #0: unexpected token", .warn, .action⟩])
      alone :=
  bundles_isolated rfl

theorem planned_evaluates_paired :
    let engines := swapEngines (tableCedar [])
    let answered := { pairedInput with results := pairedInput.results.insert "gas" .null }
    ∃ verdict, evaluateAction engines pairedInput = .ok verdict ∧
      evaluateAction engines answered = .ok verdict ∧
      ∀ g, engines.cedar.isAuthorized.Reorders g → ∃ verdict',
        evaluateAction (engines.withAuthorizer g) answered = .ok verdict' ∧
          verdict.Reordered verdict' :=
  planned_evaluates rfl (by rintro call (_ | ⟨_, _ | ⟨_, ⟨⟩⟩⟩) <;> rfl)

end Dambi
