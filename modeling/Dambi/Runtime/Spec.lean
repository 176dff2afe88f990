import Dambi.Runtime.Basic

/-!
# Closed forms of the runtime

One equation for each function of `runtime/mod.rs`: which manifests planning
uses, which calls a bundle is given and what the bundle then contributes.
-/

namespace Dambi

open Fallible List

/-! ## Manifests and calls -/

variable {m : ManifestV2} {view : ActionView} {tx : TxView} {ms result : List ManifestV2}

theorem ManifestV2.usable_iff :
    m.usable view tx = true ↔ m.applies view tx = true ∧ m.WellFormed := by
  rw [usable, Bool.and_eq_true, ← m.validate_eq_ok]
  cases m.validate <;> simp [Except.toBool]

private theorem collectManifests_eq_ok {ms out result : List ManifestV2}
    (ho : (out.map (·.id)).Nodup) :
    collectManifests view tx (out.map (·.id)) out ms = .ok result ↔
      result = out ++ ms.filter (·.usable view tx) ∧ (result.map (·.id)).Nodup := by
  induction ms generalizing out with
  | nil =>
    simp only [collectManifests, Except.ok.injEq, filter_nil, append_nil]
    constructor
    · rintro rfl
      exact ⟨rfl, ho⟩
    · exact fun h => h.1.symm
  | cons m r ih =>
    by_cases hm : m.usable view tx = true
    · simp only [collectManifests, hm, if_true, bind_eq_ok, insertFresh_eq_ok,
        filter_cons_of_pos]
      have hma : out.map (·.id) ++ [m.id] = (out ++ [m]).map (·.id) := by simp
      constructor
      · rintro ⟨s, ⟨hf, rfl⟩, h⟩
        rw [hma] at h
        have ho' : ((out ++ [m]).map (·.id)).Nodup := by
          rw [← hma, ← concat_eq_append]
          exact ho.concat hf
        simpa using (ih ho').1 h
      · rintro ⟨rfl, hn⟩
        have ha : out ++ m :: r.filter (·.usable view tx) =
            (out ++ [m]) ++ r.filter (·.usable view tx) := by simp
        have ho' : ((out ++ [m]).map (·.id)).Nodup := by
          rw [ha, map_append] at hn
          exact hn.of_append_left
        refine ⟨_, ⟨?_, rfl⟩, ?_⟩
        · intro hme
          rw [← hma] at ho'
          exact disjoint_of_nodup_append ho' hme (by simp)
        · rw [hma]
          exact (ih ho').2 ⟨ha, hn⟩
    · have hr : (m :: r).filter (·.usable view tx) = r.filter (·.usable view tx) :=
        filter_cons_of_neg hm
      rw [hr]
      simp only [collectManifests, hm, Bool.false_eq_true, if_false]
      exact ih ho

theorem matchingValidManifests_eq_ok {action : ActionBody} {tx : TxInput} :
    matchingValidManifests ms action tx = .ok result ↔
      result = ms.filter (·.usable action.view tx.view) ∧
        (result.map (·.id)).Nodup := by
  have h := @collectManifests_eq_ok action.view tx.view ms [] result (by simp)
  rwa [map_nil, nil_append] at h

theorem filter_flatMap_plannedCalls {roots : SelectorRoots}
    (hi : (ms.map (·.id)).Nodup) (hm : m ∈ ms) :
    (ms.flatMap (·.plannedCalls roots)).filter (·.manifestId = m.id) = m.plannedCalls roots := by
  induction ms with
  | nil => cases hm
  | cons m' r ih =>
    rw [map_cons, nodup_cons] at hi
    rw [flatMap_cons, filter_append]
    rcases mem_cons.1 hm with rfl | hr
    · have how : (m.plannedCalls roots).filter (·.manifestId = m.id) = m.plannedCalls roots := by
        rw [filter_eq_self]
        intro c hc
        simpa using manifestId_of_mem_plannedCalls hc
      have ho : (r.flatMap (·.plannedCalls roots)).filter (·.manifestId = m.id) = [] := by
        rw [filter_eq_nil_iff]
        intro c hc
        obtain ⟨m'', hm'', hc⟩ := mem_flatMap.1 hc
        rw [manifestId_of_mem_plannedCalls hc]
        have hn : m''.id ≠ m.id := fun heq =>
          hi.1 (heq ▸ mem_map.2 ⟨m'', hm'', rfl⟩)
        simpa using hn
      rw [how, ho, append_nil]
    · have ho : (m'.plannedCalls roots).filter (·.manifestId = m.id) = [] := by
        rw [filter_eq_nil_iff]
        intro c hc
        rw [manifestId_of_mem_plannedCalls hc]
        have hn : m'.id ≠ m.id := fun heq =>
          hi.1 (heq ▸ mem_map.2 ⟨m, hr, rfl⟩)
        simpa using hn
      rw [ho, nil_append, ih hi.2 hr]

/-! ## Writes of a well-formed manifest -/

theorem writes_outputs_sublist (c : PlannedCallV2) (p : Json) (os : List ContextProjection) :
    ((writes (os.filterMap (c.outputStep p))).map Prod.fst).Sublist
      (os.map (·.field)) := by
  induction os with
  | nil => exact .slnil
  | cons o r ih =>
    cases hs : c.outputStep p o with
    | none => simpa [hs] using ih.cons _
    | some step =>
      cases step with
      | fail e => simpa [hs] using ih.cons _
      | write field t op value =>
        have hf : field = o.field := by
          unfold PlannedCallV2.outputStep at hs
          split at hs
          · split at hs
            · simp_all
            · split at hs <;> simp at hs
          · simp at hs
        subst hf
        simpa [hs] using ih

theorem writes_steps_sublist (c : PlannedCallV2) (results : BTreeMap String Json) :
    ((writes (c.steps results)).map Prod.fst).Sublist (c.outputs.map (·.field)) := by
  unfold PlannedCallV2.steps
  split
  · split <;> exact nil_sublist _
  · exact writes_outputs_sublist c _ c.outputs

theorem writes_flatMap_sublist (cs : List PlannedCallV2) (results : BTreeMap String Json) :
    ((writes (cs.flatMap (·.steps results))).map Prod.fst).Sublist
      (cs.flatMap fun c => c.outputs.map (·.field)) := by
  induction cs with
  | nil => exact .slnil
  | cons c r ih =>
    rw [flatMap_cons, flatMap_cons, writes, filterMap_append, map_append]
    exact (writes_steps_sublist c results).append ih

private theorem specCalls_fields_sublist (rs : SelectorRoots) (m : ManifestV2)
    (ss : List PolicyRpcCallSpec) :
    ((specCalls rs m ss).flatMap fun c => c.outputs.map (·.field)).Sublist
      (ss.flatMap fun s => s.outputs.map (·.field)) := by
  induction ss with
  | nil => exact .slnil
  | cons s rest ih =>
    rw [flatMap_cons]
    cases hp : resolveParams rs s.params with
    | error e =>
      have hc : specCalls rs m (s :: rest) = specCalls rs m rest := by
        simp [specCalls, hp, Except.toOption]
      rw [hc]
      exact ih.trans (sublist_append_right ..)
    | ok ps =>
      have hc : specCalls rs m (s :: rest) =
          s.plannedCall m ps :: specCalls rs m rest := by
        simp [specCalls, hp, Except.toOption]
      rw [hc, flatMap_cons]
      exact (List.Sublist.refl _).append ih

theorem plannedCalls_fields_nodup (hw : m.WellFormed) (rs : SelectorRoots) :
    ((m.plannedCalls rs).flatMap fun c => c.outputs.map (·.field)).Nodup :=
  hw.produced.sublist (specCalls_fields_sublist rs m m.policyRpc)

theorem plannedCalls_writes_nodup (hw : m.WellFormed) (rs : SelectorRoots)
    (results : BTreeMap String Json) :
    ((writes ((m.plannedCalls rs).flatMap (·.steps results))).map Prod.fst).Nodup :=
  (plannedCalls_fields_nodup hw rs).sublist (writes_flatMap_sublist _ results)

theorem materializeV2_of_nodup {results : BTreeMap String Json} {cs : List PlannedCallV2}
    (lowered : LoweredAction) (hn : ((writes (cs.flatMap (·.steps results))).map Prod.fst).Nodup) :
    materializeV2 results lowered.context cs =
      match firstFailure (cs.flatMap (·.steps results)) with
      | some e => .error e
      | none => .ok (withCustom lowered.fields (writes (cs.flatMap (·.steps results)))) := by
  rw [materializeV2_eq]
  exact runSteps_withCustom lowered.noCustom [] _ (by simpa using hn)

/-! ## Bundles -/

section Bundles

variable (engines : Engines) {action : ActionBody} {tx : TxInput} {lowered : LoweredAction}
  {planned : List PlannedCallV2} {results : BTreeMap String Json} {bundle : BundleInput}

/-- The verdict of the Cedar half of a bundle, its faults quarantined. -/
def policyVerdict (bundle : BundleInput) (tx : TxInput) (lowered : LoweredAction)
    (context : Json) : Verdict :=
  match evaluatePolicy engines bundle tx lowered context with
  | .ok verdict => verdict
  | .error error => quarantineVerdict error

/-- What a bundle contributes once its calls are reduced to steps: its first
failure decides, and Cedar on the materialised context if there is none. -/
def stepsVerdict (bundle : BundleInput) (tx : TxInput) (lowered : LoweredAction)
    (steps : List Step) : Verdict :=
  match firstFailure steps with
  | some error =>
    (systemFailVerdict error).getD (quarantineVerdict ⟨"projection_failed", error.display⟩)
  | none => policyVerdict engines bundle tx lowered (withCustom lowered.fields (writes steps))

variable {steps : List Step}

theorem stepsVerdict_of_failure {e : PolicyRpcError} (h : firstFailure steps = some e) :
    stepsVerdict engines bundle tx lowered steps =
      (systemFailVerdict e).getD
        (quarantineVerdict ⟨"projection_failed", e.display⟩) := by
  simp only [stepsVerdict, h]

theorem stepsVerdict_of_none (h : firstFailure steps = none) :
    stepsVerdict engines bundle tx lowered steps =
      policyVerdict engines bundle tx lowered (withCustom lowered.fields (writes steps)) := by
  simp only [stepsVerdict, h]

section

variable (ha : bundle.manifest.applies action.view tx.view = true) (hw : bundle.manifest.WellFormed)
include ha hw

theorem bundleVerdict_eq {cs : List PlannedCallV2}
    (hp : planned.filter (·.manifestId = bundle.manifest.id) = cs)
    (hn : ((writes (cs.flatMap (·.steps results))).map Prod.fst).Nodup) :
    bundleVerdict engines action tx lowered planned results bundle =
      some (stepsVerdict engines bundle tx lowered (cs.flatMap (·.steps results))) := by
  have hv : bundle.manifest.validate = .ok () := bundle.manifest.validate_eq_ok.2 hw
  unfold bundleVerdict bundleOutcome
  simp only [ha, if_true, hv, Except.mapError, ok_bind, hp, materializeV2_of_nodup lowered hn]
  cases hf : firstFailure (cs.flatMap (·.steps results)) with
  | some e =>
    rw [stepsVerdict_of_failure engines hf]
    cases hs : systemFailVerdict e <;> simp [hs]
  | none =>
    rw [stepsVerdict_of_none engines hf]
    simp only [policyVerdict]
    cases evaluatePolicy engines bundle tx lowered _ <;> rfl

theorem bundleVerdict_of_usable {rs : SelectorRoots}
    (hp : planned.filter (·.manifestId = bundle.manifest.id) = bundle.manifest.plannedCalls rs) :
    bundleVerdict engines action tx lowered planned results bundle =
      some (stepsVerdict engines bundle tx lowered
        ((bundle.manifest.plannedCalls rs).flatMap (·.steps results))) :=
  bundleVerdict_eq engines ha hw hp (plannedCalls_writes_nodup hw rs results)

end

/-- The verdict of a successful evaluation: the usable manifests plan the calls,
and the bundles' contributions are aggregated. -/
theorem evaluateAction_eq_ok {input : EvaluateActionInput} {verdict : Verdict} :
    evaluateAction engines input = .ok verdict ↔
      input.bundles.length ≤ maxPolicyRpcV2Manifests ∧
      ∃ lowered, engines.lowerAction input.action input.actionMeta input.tx input.host =
          .ok lowered ∧
        ∃ ms, matchingValidManifests (input.bundles.map (·.manifest)) input.action
            input.tx = .ok ms ∧
          ∃ planned, planPolicyRpcV2 ms input.action.view lowered.context input.tx.view =
              .ok planned ∧
            verdict = evaluateMatchingBundles engines input.bundles input.action input.tx lowered
              planned input.results := by
  simp only [evaluateAction, bind_eq_ok, checkManifestCount, require_eq_ok, lower, planCalls,
    mapError_eq_ok, Except.ok.injEq]
  constructor
  · rintro ⟨-, hc, lowered, hl, ms, hm, planned, hp, rfl⟩
    exact ⟨hc, lowered, hl, ms, hm, planned, hp, rfl⟩
  · rintro ⟨hc, lowered, hl, ms, hm, planned, hp, rfl⟩
    exact ⟨(), hc, lowered, hl, ms, hm, planned, hp, rfl⟩

theorem planned_filter_of_usable {bs : List BundleInput} {ms : List ManifestV2}
    (hma : matchingValidManifests (bs.map (·.manifest)) action tx = .ok ms)
    (hp : planPolicyRpcV2 ms action.view lowered.context tx.view = .ok planned)
    (hb : bundle ∈ bs) (ha : bundle.manifest.applies action.view tx.view = true)
    (hw : bundle.manifest.WellFormed) :
    planned.filter (·.manifestId = bundle.manifest.id) =
      bundle.manifest.plannedCalls (planningRoots lowered.context tx.view) := by
  obtain ⟨rfl, hi⟩ := matchingValidManifests_eq_ok.1 hma
  obtain ⟨-, -, rfl, -⟩ := planPolicyRpcV2_eq_ok.1 hp
  have hs : ((bs.map (·.manifest)).filter (·.usable action.view tx.view)).filter
      (·.applies action.view tx.view) =
      (bs.map (·.manifest)).filter (·.usable action.view tx.view) := by
    rw [filter_eq_self]
    intro m hm
    exact (ManifestV2.usable_iff.1 (mem_filter.1 hm).2).1
  rw [hs]
  refine filter_flatMap_plannedCalls hi (mem_filter.2 ⟨?_, ?_⟩)
  · exact mem_map.2 ⟨bundle, hb, rfl⟩
  · exact ManifestV2.usable_iff.2 ⟨ha, hw⟩

end Bundles

end Dambi
