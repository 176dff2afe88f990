import Dambi.PolicyRpc.Trigger

/-!
# Planning policy-rpc calls

`policy_rpc/planning_v2.rs`: every call spec of every manifest that applies to
an action becomes one planned call, its parameter selectors resolved. The
result of a successful plan is `plannedCalls`, manifest by manifest.
-/

namespace Dambi

open Fallible List

structure PlannedCallV2 where
  manifestId : String
  callId : String
  method : String
  params : Json
  outputs : List ContextProjection
  optional : Bool

def policyRpcCallIdV2 (manifestId specId : String) : String := s!"{manifestId}::{specId}"

def rootSelectorJson (tx : TxView) : Json :=
  .obj [("chain_id", .str tx.chainId), ("from", .str tx.from_), ("to", .str tx.to_)]

/-- The selector roots of planning: results and context do not exist yet. -/
def planningRoots (loweredContext : Json) (tx : TxView) : SelectorRoots :=
  { root := rootSelectorJson tx, action := loweredContext }

variable (roots : SelectorRoots)

def resolveParam (template : Json) : Except PolicyRpcError Json :=
  match template with
  | .str selector =>
    if Text.startsWith selector "$." then resolveSelector selector roots else .ok (.str selector)
  | literal => .ok literal

/-- The parameter loop of `plan_policy_rpc_v2`. -/
def resolveParams (params : BTreeMap String Json) :
    Except PolicyRpcError (List (String × Json)) :=
  params.toList.foldlM (fun out (key, template) => do
    let value ← resolveParam roots template
    .ok (Json.insertField key value out)) []

/-- The call a spec becomes once its parameters are resolved. -/
def PolicyRpcCallSpec.plannedCall (spec : PolicyRpcCallSpec) (m : ManifestV2)
    (params : List (String × Json)) : PlannedCallV2 where
  manifestId := m.id
  callId := policyRpcCallIdV2 m.id spec.id
  method := spec.method
  params := .obj params
  outputs := spec.outputs
  optional := spec.optional

/-- The spec loop of `plan_policy_rpc_v2`, over the calls planned so far. -/
def planSpecs (roots : SelectorRoots) (m : ManifestV2) (calls : List PlannedCallV2) :
    List PolicyRpcCallSpec → Except PolicyRpcError (List PlannedCallV2)
  | [] => .ok calls
  | spec :: rest =>
    match resolveParams roots spec.params with
    | .error error => if spec.optional then planSpecs roots m calls rest else .error error
    | .ok params => do
      require (calls.length < maxPolicyRpcV2PlannedCalls)
        (.invalidManifest "planned policy-rpc call count exceeds 64")
      planSpecs roots m (calls ++ [spec.plannedCall m params]) rest

/-- The manifest loop of `plan_policy_rpc_v2`. -/
def planManifests (roots : SelectorRoots) (view : ActionView) (tx : TxView)
    (calls : List PlannedCallV2) : List ManifestV2 → Except PolicyRpcError (List PlannedCallV2)
  | [] => .ok calls
  | m :: rest =>
    if m.applies view tx then do
      m.validate
      let calls ← planSpecs roots m calls m.policyRpc
      planManifests roots view tx calls rest
    else planManifests roots view tx calls rest

def planPolicyRpcV2 (manifests : List ManifestV2) (view : ActionView) (loweredContext : Json)
    (tx : TxView) : Except PolicyRpcError (List PlannedCallV2) := do
  require (manifests.length ≤ maxPolicyRpcV2Manifests) (.invalidManifest
    s!"policy-rpc manifest count {manifests.length} exceeds 128")
  planManifests (planningRoots loweredContext tx) view tx [] manifests

/-! ## What a plan contains -/

/-- The calls of a list of specs: one whose parameters do not resolve is left out. -/
def specCalls (m : ManifestV2) (specs : List PolicyRpcCallSpec) :
    List PlannedCallV2 :=
  specs.filterMap fun spec => (resolveParams roots spec.params).toOption.map (spec.plannedCall m)

def ManifestV2.plannedCalls (m : ManifestV2) (roots : SelectorRoots) : List PlannedCallV2 :=
  specCalls roots m m.policyRpc

def PolicyRpcCallSpec.Resolves (spec : PolicyRpcCallSpec) (roots : SelectorRoots) : Prop :=
  ∃ params, resolveParams roots spec.params = .ok params

section Plan

variable {roots : SelectorRoots} {view : ActionView} {tx : TxView}

variable {m : ManifestV2} {calls : List PlannedCallV2}

variable {c : PlannedCallV2} {result : List PlannedCallV2} {ms : List ManifestV2}

theorem mem_plannedCalls :
    c ∈ m.plannedCalls roots ↔ ∃ s ∈ m.policyRpc, ∃ params,
      resolveParams roots s.params = .ok params ∧ c = s.plannedCall m params := by
  simp only [ManifestV2.plannedCalls, specCalls, mem_filterMap]
  constructor
  · rintro ⟨s, hs, hc⟩
    cases hp : resolveParams roots s.params with
    | error e => simp [hp, Except.toOption] at hc
    | ok params =>
      refine ⟨s, hs, params, hp, ?_⟩
      simpa [hp, Except.toOption, eq_comm] using hc
  · rintro ⟨s, hs, params, hp, rfl⟩
    exact ⟨s, hs, by simp [hp, Except.toOption]⟩

theorem manifestId_of_mem_plannedCalls (h : c ∈ m.plannedCalls roots) : c.manifestId = m.id := by
  obtain ⟨s, -, ps, -, rfl⟩ := mem_plannedCalls.1 h
  rfl

private theorem planSpecs_eq_ok {ss : List PolicyRpcCallSpec}
    (hl : calls.length ≤ maxPolicyRpcV2PlannedCalls) :
    planSpecs roots m calls ss = .ok result ↔
      (∀ s ∈ ss, s.optional = false → s.Resolves roots) ∧
      result = calls ++ specCalls roots m ss ∧
      result.length ≤ maxPolicyRpcV2PlannedCalls := by
  induction ss generalizing calls with
  | nil =>
    simp only [planSpecs, Except.ok.injEq, specCalls, filterMap_nil, append_nil,
      not_mem_nil, false_imp_iff, implies_true, true_and]
    constructor
    · rintro rfl
      exact ⟨rfl, hl⟩
    · exact fun h => h.1.symm
  | cons s rest ih =>
    cases hp : resolveParams roots s.params with
    | error e =>
      have hn : ¬ s.Resolves roots := by simp [PolicyRpcCallSpec.Resolves, hp]
      have hc : specCalls roots m (s :: rest) = specCalls roots m rest := by
        simp [specCalls, hp, Except.toOption]
      cases ho : s.optional with
      | false => simp [planSpecs, hp, ho, hn]
      | true =>
        simp only [planSpecs, hp, ho, if_true, hc, forall_mem_cons,
          Bool.true_eq_false, false_imp_iff, true_and]
        exact ih hl
    | ok ps =>
      have hs : s.Resolves roots := ⟨ps, hp⟩
      have hc : specCalls roots m (s :: rest) =
          s.plannedCall m ps :: specCalls roots m rest := by
        simp [specCalls, hp, Except.toOption]
      have hl' (hlt : calls.length < maxPolicyRpcV2PlannedCalls) :
          (calls ++ [s.plannedCall m ps]).length ≤ maxPolicyRpcV2PlannedCalls := by
        simpa using Nat.succ_le_of_lt hlt
      simp only [planSpecs, hp, bind_eq_ok, require_eq_ok, hc, forall_mem_cons]
      constructor
      · rintro ⟨-, hlt, h⟩
        obtain ⟨hr, hre, hb⟩ := (ih (hl' hlt)).1 h
        exact ⟨⟨fun _ => hs, hr⟩, by simpa using hre, hb⟩
      · rintro ⟨⟨-, hr⟩, rfl, hb⟩
        have hlt : calls.length < maxPolicyRpcV2PlannedCalls := by
          simp only [length_append, length_cons] at hb
          omega
        exact ⟨(), hlt, (ih (hl' hlt)).2 ⟨hr, by simp, hb⟩⟩

private theorem planManifests_eq_ok (hl : calls.length ≤ maxPolicyRpcV2PlannedCalls) :
    planManifests roots view tx calls ms = .ok result ↔
      (∀ m ∈ ms, m.applies view tx → m.WellFormed ∧
        ∀ s ∈ m.policyRpc, s.optional = false → s.Resolves roots) ∧
      result = calls ++ (ms.filter (·.applies view tx)).flatMap (·.plannedCalls roots) ∧
      result.length ≤ maxPolicyRpcV2PlannedCalls := by
  induction ms generalizing calls with
  | nil =>
    simp only [planManifests, Except.ok.injEq, filter_nil, flatMap_nil, append_nil,
      not_mem_nil, false_imp_iff, implies_true, true_and]
    constructor
    · rintro rfl
      exact ⟨rfl, hl⟩
    · exact fun h => h.1.symm
  | cons m r ih =>
    cases ha : m.applies view tx with
    | false =>
      simp only [planManifests, ha, Bool.false_eq_true, if_false, forall_mem_cons,
        false_imp_iff, true_and]
      rw [filter_cons_of_neg (by simp [ha])]
      exact ih hl
    | true =>
      simp only [planManifests, ha, if_true, bind_eq_ok, forall_mem_cons, forall_const]
      rw [filter_cons_of_pos (by simpa using ha), flatMap_cons]
      constructor
      · rintro ⟨⟨⟩, hv, calls', hs, h⟩
        obtain ⟨hr, rfl, hl'⟩ := (planSpecs_eq_ok hl).1 hs
        obtain ⟨hrs, hre, hb⟩ := (ih hl').1 h
        refine ⟨⟨⟨m.validate_eq_ok.1 hv, hr⟩, hrs⟩, ?_, hb⟩
        rw [hre, append_assoc]
        rfl
      · rintro ⟨⟨⟨hw, hr⟩, hrs⟩, rfl, hb⟩
        have hl' : (calls ++ m.plannedCalls roots).length ≤ maxPolicyRpcV2PlannedCalls := by
          simp only [length_append] at hb ⊢
          omega
        exact ⟨(), m.validate_eq_ok.2 hw, _, (planSpecs_eq_ok hl).2 ⟨hr, rfl, hl'⟩,
          (ih hl').2 ⟨hrs, by rw [append_assoc], by simpa using hb⟩⟩

/-- A plan succeeds exactly when every manifest that applies is well formed with
its required parameters resolvable and the limits hold; it then holds the calls
of these manifests in order. -/
theorem planPolicyRpcV2_eq_ok {lc : Json} :
    planPolicyRpcV2 ms view lc tx = .ok calls ↔
      ms.length ≤ maxPolicyRpcV2Manifests ∧
      (∀ m ∈ ms, m.applies view tx → m.WellFormed ∧ ∀ s ∈ m.policyRpc,
        s.optional = false → s.Resolves (planningRoots lc tx)) ∧
      calls = (ms.filter (·.applies view tx)).flatMap
        (·.plannedCalls (planningRoots lc tx)) ∧
      calls.length ≤ maxPolicyRpcV2PlannedCalls := by
  simp only [planPolicyRpcV2, bind_eq_ok, require_eq_ok]
  rw [planManifests_eq_ok (by simp)]
  simp

end Plan

end Dambi
