import Dambi.Session.Lifecycle

/-!
# Where a pending plan comes from

The nodes of a plan are the nodes of the action trees of a decoded request, in
order and each with what the runtime planned for it. In every state that a
session reaches, each pending plan has such a request, and the policy it is
pinned to is one that the session's trust has validated.
-/

namespace Dambi

open Fallible Machine List

variable {δ : Type}

/-! ## The nodes of a plan -/

def Node.PlannedBy (engines : Engines) (manifests : List ManifestV2) (node : Node) : Prop :=
  match planAction engines {
      manifests, action := node.action, actionMeta := node.actionMeta, tx := node.tx } with
  | .error error => node.planningError = some ⟨"ENGINE_ERROR", error.message⟩ ∧ node.calls = []
  | .ok planned => node.planningError = none ∧ node.calls.map (·.runtime) = planned

def PlanBuild.Grows (engines : Engines) (manifests : List ManifestV2) (build : PlanBuild)
    (actions : List ActionBody) (build' : PlanBuild) : Prop :=
  ∃ nodes, build'.nodes = build.nodes ++ nodes ∧ nodes.map (·.action) = actions ∧
    ∀ node ∈ nodes, node.PlannedBy engines manifests

namespace PlanBuild.Grows

variable {engines : Engines} {manifests : List ManifestV2} {a b c : PlanBuild}
  {actions actions' : List ActionBody}

theorem refl (a : PlanBuild) : Grows engines manifests a [] a := ⟨[], by simp⟩

theorem trans (h : Grows engines manifests a actions b)
    (h' : Grows engines manifests b actions' c) :
    Grows engines manifests a (actions ++ actions') c := by
  obtain ⟨ns, hn, ha, hp⟩ := h
  obtain ⟨ns', hn', ha', hp'⟩ := h'
  refine ⟨ns ++ ns', ?_, ?_, ?_⟩
  · rw [hn', hn, append_assoc]
  · rw [map_append, ha, ha']
  · intro node hnd
    exact (mem_append.1 hnd).elim (hp node) (hp' node)

end PlanBuild.Grows

namespace PlanScope

variable {env : SessionEnv δ} {scope : PlanScope δ}

theorem grows_planNode {ac : ActionBody} {pa : List Nat} {build build' : PlanBuild}
    (h : scope.planNode env ac pa build = .ok build') :
    build.Grows env.engines scope.snapshot.policy.manifests [ac] build' := by
  simp only [planNode, bind_eq_ok, require_eq_ok] at h
  obtain ⟨_, -, h⟩ := h
  split at h
  · next e he =>
    cases h
    refine ⟨_, rfl, rfl, ?_⟩
    simp only [mem_singleton, forall_eq]
    simp only [Node.PlannedBy, node, he]
    exact ⟨trivial, trivial⟩
  · next p hp =>
    simp only [bind_eq_ok, require_eq_ok] at h
    obtain ⟨_, -, h⟩ := h
    cases h
    refine ⟨_, rfl, rfl, ?_⟩
    simp only [mem_singleton, forall_eq]
    simp only [Node.PlannedBy, node, hp]
    refine ⟨trivial, ?_⟩
    simp only [issueCalls, map_map]
    exact zipIdx_map_fst 0 _

mutual

/-- `append_node` adds the nodes of the tree, a batch before its children. -/
theorem grows_appendNode : ∀ (ac : ActionBody) (p : List Nat) (bu bu' : PlanBuild),
    scope.appendNode env ac p bu = .ok bu' →
      bu.Grows env.engines scope.snapshot.policy.manifests ac.preorder bu'
  | .multicall actions, p, bu, bu', h => by
    simp only [appendNode, bind_eq_ok] at h
    obtain ⟨bl, hn, hc⟩ := h
    have hs := grows_planNode hn
    exact hs.trans (grows_appendChildren p 0 actions bl bu' hc)
  | .domain ac, p, bu, bu', h => grows_planNode (by simpa [appendNode] using h)
  | .unknown .., p, bu, bu', h => grows_planNode (by simpa [appendNode] using h)

theorem grows_appendChildren : ∀ (path : List Nat) (index : Nat) (actions : List ActionBody)
    (bu bu' : PlanBuild), scope.appendChildren env path index actions bu = .ok bu' →
      bu.Grows env.engines scope.snapshot.policy.manifests
        (ActionBody.preorderAll actions) bu'
  | _, _, [], bu, bu', h => by
    simp only [appendChildren, Except.ok.injEq] at h
    exact h ▸ .refl bu
  | path, index, child :: r, bu, bu', h => by
    simp only [appendChildren, bind_eq_ok] at h
    obtain ⟨bl, hc, hr⟩ := h
    exact (grows_appendNode child _ bu bl hc).trans
      (grows_appendChildren path (index + 1) r bl bu' hr)

end

end PlanScope

variable {env : SessionEnv δ}

theorem grows_buildPlan {r : Request} {s : Snapshot δ} {mc : Nat} {build : PlanBuild}
    {pi : String} (h : buildPlan env r s pi mc = .ok build) :
    PlanBuild.Grows env.engines s.policy.manifests {}
      (ActionBody.preorderAll (r.actions.map (·.body))) build := by
  unfold buildPlan at h
  rw [← zipIdx_map_fst 0 r.actions, map_map]
  generalize r.actions.zipIdx = rs at h ⊢
  generalize ({} : PlanBuild) = start at h ⊢
  induction rs generalizing start with
  | nil =>
    cases h
    exact .refl _
  | cons root rs ih =>
    simp only [foldlM_cons, bind_eq_ok] at h
    obtain ⟨bu, hro, hr⟩ := h
    exact (PlanScope.grows_appendNode _ _ _ _ hro).trans (ih bu hr)

structure PendingPlan.Of (env : SessionEnv δ) (plan : PendingPlan δ) (request : Request) :
    Prop where
  nodes : plan.nodes.map (·.action) = ActionBody.preorderAll (request.actions.map (·.body))
  planned : ∀ node ∈ plan.nodes, node.PlannedBy env.engines plan.snapshot.policy.manifests
  partialDecode : plan.partialDecode = request.partialDecode

/-- A plan that is pending after a call was pending before, or the call prepared it. -/
theorem SessionEffect.plan_origin {ls : Lifecycles} {co : SessionCommand} {answer : SessionAnswer}
    {s s' : CoreSession δ} {p : String} {plan : PendingPlan δ}
    (h : SessionEffect env ls co answer s s')
    (hp : s'.plans[p]? = some plan) :
    s.plans[p]? = some plan ∨ ∃ rt now number reply r build,
      answer = .planned reply ∧ reply.planId = p ∧
        CoreSession.Prepared env ls (s.evictExpired now) rt now number plan
          reply r build := by
  have he : ∀ now, (s.evictExpired now).plans[p]? = some plan → s.plans[p]? = some plan := by
    intro now hm
    rw [CoreSession.getElem?_evictExpired, Option.filter_eq_some_iff] at hm
    exact hm.1
  cases h with
  | kept hs => exact .inl (hs.plans ▸ hp)
  | evicted => exact .inl (he _ hp)
  | planned _ ha hpe =>
    obtain ⟨r, build, hpr⟩ := CoreSession.prepared_of_preparePlan hpe
    rw [Std.TreeMap.getElem?_insert] at hp
    split at hp
    · next hi =>
      cases hp
      exact .inr ⟨_, _, _, _, r, build, ha, Std.LawfulEqCmp.eq_of_compare hi, hpr⟩
    · exact .inl (he _ hp)
  | taken =>
    rw [CoreSession.getElem?_discard] at hp
    split at hp
    · cases hp
    · exact .inl hp
  | disposed =>
    refine absurd hp ?_
    rw [CoreSession.dispose, Std.TreeMap.getElem?_emptyc]
    exact nofun

/-! ## Runs -/

/-- What is known of the policies and the pending plans of a session. -/
structure CoreSession.Grounded (env : SessionEnv δ) (s : CoreSession δ) : Prop where
  active : ∀ state, s.store.state = some state → env.trust.Validated state.active.policy
  pinned : ∀ (p : String) (plan : PendingPlan δ), s.plans[p]? = some plan →
    env.trust.Validated plan.snapshot.policy
  decoded : ∀ (p : String) (plan : PendingPlan δ), s.plans[p]? = some plan →
    ∃ requestText now request,
      env.decodeRequest requestText plan.snapshot.decoder now s.limits.maxRequestBytes =
        .ok request ∧ plan.Of env request

namespace CoreSession.Grounded

variable {env : SessionEnv δ}

variable {s : CoreSession δ}

theorem effect {ls : Lifecycles} {co : SessionCommand} {answer : SessionAnswer} {s' : CoreSession δ}
    (hs : s.Grounded env) (h : SessionEffect env ls co answer s s') :
    s'.Grounded env := by
  have hl : s'.limits = s.limits := h.sameOwner.limits
  refine ⟨fun st hst => ?_, fun p plan hp => ?_, fun p plan hp => ?_⟩
  · obtain ⟨old, ho, heq⟩ | hnew := h.sameOwner.store.active st hst
    · exact heq ▸ hs.active old ho
    · exact hnew
  · obtain ho | ⟨_, now, _, _, _, _, -, -, hpr⟩ := h.plan_origin hp
    · exact hs.pinned p plan ho
    · obtain ⟨⟨st, ⟨-, hst⟩, ha⟩, -⟩ := SnapshotStore.current_eq_ok.1 hpr.current
      rw [s.evictExpired_eq] at hst
      exact ha ▸ hs.active st hst
  · obtain ho | ⟨rt, now, _, _, r, _, -, -, hpr⟩ := h.plan_origin hp
    · rw [hl]
      exact hs.decoded p plan ho
    · have hd := hpr.decoded
      rw [s.evictExpired_eq] at hd
      rw [hl]
      obtain ⟨ns, hn, ha, hpl⟩ := grows_buildPlan hpr.built
      rw [nil_append] at hn
      rw [← hn, ← hpr.nodes] at ha hpl
      exact ⟨rt, now, r, hd, ha, hpl, hpr.partialDecode⟩

theorem after {w : SessionWorld δ} (hw : w.session.Grounded env) (cs : List SessionCommand) :
    (sessionAfter env w cs).session.Grounded env :=
  exec_invariant (I := fun w : SessionWorld δ => w.session.Grounded env)
    (fun w c hw => hw.effect (w.step_effect env c)) hw

theorem of_new {lifecycle : LifecycleId} {ct pt : String} {now : Nat}
    {owner : Option Nat} (h : CoreSession.new env lifecycle owner ct pt now = .ok s) :
    s.Grounded env := by
  simp only [CoreSession.new, bind_eq_ok, mapError_eq_ok] at h
  obtain ⟨-, -, co, -, -, -, -, -, -, -, po, -, sto, hs, h⟩ := h
  simp only [SnapshotStore.new, bind_eq_ok] at hs
  obtain ⟨-, -, -, -, -, -, d, -, v, hv, hs⟩ := hs
  cases hs
  cases owner with
  | none => cases h
  | some owner =>
    cases h
    refine ⟨fun st hst => ?_, fun p plan hp => ?_, fun p plan hp => ?_⟩
    · cases hst
      exact ⟨_, _, _, _, _, hv⟩
    · rw [Std.TreeMap.getElem?_emptyc] at hp
      cases hp
    · rw [Std.TreeMap.getElem?_emptyc] at hp
      cases hp

end CoreSession.Grounded

/-- Whatever calls a session has had, its plans come from its requests and policies. -/
theorem plans_grounded {env : SessionEnv δ} {lifecycle : LifecycleId} {owner : Option Nat}
    {configText policyText : String} {now : Nat} {s : CoreSession δ}
    (h : CoreSession.new env lifecycle owner configText policyText now = .ok s)
    (lifecycles : Lifecycles) (cs : List SessionCommand) :
    (sessionAfter env ⟨lifecycles, s⟩ cs).session.Grounded env :=
  CoreSession.Grounded.after (.of_new h) cs

theorem plans_grounded_cap : (sessionAfter capEnv ⟨fun _ => false, capSession⟩
    [.plan "{}" 1000000]).session.Grounded capEnv :=
  plans_grounded new_capEnv _ _

end Dambi
