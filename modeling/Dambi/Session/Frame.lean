import Dambi.Session.Lifecycle

/-!
# What an evaluation reads

An evaluation reads the plan it names, the configuration of its session and
whether the session is disposed. Everything else a session does between the
plan and its evaluation, refreshes of either kind included, leaves all three.
-/

namespace Dambi

open Machine CoreSession

variable {δ : Type}

/-- Two states that an evaluation of `p` cannot tell apart: `p` is pending in both, as the
same plan. -/
structure SameForPlan (trust : Trust δ) (p : String) (plan : PendingPlan δ)
    (w v : SessionWorld δ) : Prop where
  lifecycles : v.lifecycles = w.lifecycles
  owner : w.session.SameOwner trust v.session
  before : w.session.plans[p]? = some plan
  after : v.session.plans[p]? = some plan

namespace SameForPlan

variable {env : SessionEnv δ} {p : String} {plan : PendingPlan δ} {w v : SessionWorld δ}

theorem live (h : SameForPlan env.trust p plan w v) :
    v.session.live v.lifecycles = w.session.live w.lifecycles := by
  unfold CoreSession.live SnapshotStore.isDisposed
  rw [h.owner.store.lifecycle, h.lifecycles]

theorem evaluateInner (h : SameForPlan env.trust p plan w v) (ft : String) (now : Nat)
    (c : Option (Option CheckFailure)) (si : Option String) (cl : Option ClockReadings) :
    (v.session.evaluateInner env v.lifecycles p ft now c si cl).1 =
      (w.session.evaluateInner env w.lifecycles p ft now c si cl).1 := by
  have hl : v.session.limits = w.session.limits := h.owner.limits
  have hen : v.session.enforcement = w.session.enforcement := h.owner.enforcement
  unfold CoreSession.evaluateInner
  rw [h.live, h.before, h.after, h.lifecycles]
  cases (do w.session.live w.lifecycles; sessionClock now : Except SessionError Unit) with
  | error error => rfl
  | ok u =>
    dsimp only
    by_cases he : plan.expiresAt ≤ now
    · rw [if_pos he, if_pos he]
      cases c with
      | none => rfl
      | some failure =>
        simp only [CoreSession.discard, retire, hen]
    · rw [if_neg he, if_neg he]
      simp only [CoreSession.discard, retire, hen, hl]

theorem answer {c : SessionCommand}
    (h : SameForPlan env.trust p plan w v) (hc : c.evaluates = some p) :
    (v.step env c).1 = (w.step env c).1 := by
  cases c with
  | evaluate pi fs now =>
    cases hc
    exact congrArg (SessionAnswer.ofExcept .report) (h.evaluateInner fs now none none none)
  | evaluateScam pi fs si now cl =>
    cases hc
    exact congrArg (SessionAnswer.ofExcept .report)
      (h.evaluateInner fs now none (some si) (some cl))
  | evaluateCheck pi fs now failure =>
    cases hc
    refine congrArg (SessionAnswer.ofExcept .report) ?_
    simp only [CoreSession.evaluateCheck]
    cases CheckFailure.ofText failure with
    | none => rfl
    | some failure => exact h.evaluateInner fs now (some failure) none none
  | evaluateCheckScam pi fs si now failure cl =>
    cases hc
    refine congrArg (SessionAnswer.ofExcept .report) ?_
    simp only [CoreSession.evaluateCheckScam]
    cases CheckFailure.ofText failure with
    | none => rfl
    | some failure =>
      exact h.evaluateInner fs now (some failure) (some si) (some cl)
  | _ => cases hc

end SameForPlan

/-- Calls that neither evaluate the plan `p` nor dispose of the session; a plan call has a
clock before the plan's expiry. -/
def SessionCommand.Spares (p : String) (expiresAt : Nat) : SessionCommand → Prop
  | .dispose => False
  | .plan _ now => now < expiresAt
  | command => command.evaluates ≠ some p

variable {p : String} {plan : PendingPlan δ}

theorem SessionEffect.plan_kept {env : SessionEnv δ} {ls : Lifecycles} {c : SessionCommand}
    {answer : SessionAnswer} {s s' : CoreSession δ}
    (h : SessionEffect env ls c answer s s') (hs : s.Sound)
    (hp : s.plans[p]? = some plan) (hsp : c.Spares p plan.expiresAt) :
    s'.plans[p]? = some plan := by
  have he : ∀ now, now < plan.expiresAt → (s.evictExpired now).plans[p]? = some plan := by
    intro now hn
    rw [getElem?_evictExpired, hp]
    simp [hn]
  cases h with
  | kept hsa => rw [hsa.plans, hp]
  | evicted hc =>
    rw [hc] at hsp
    exact he _ hsp
  | planned hc _ hpe =>
    rw [hc] at hsp
    obtain ⟨r, b, hpr⟩ := prepared_of_preparePlan hpe
    -- the new id was not issued before, so it is not `p`
    have his : s.Issued p := hs.pendingIssued p
      (Std.TreeMap.isSome_getElem?_iff_mem.1 (by rw [hp]; rfl))
    have hne : compare (planIdOf s.owner (s.nextPlan + 1)) p ≠ .eq :=
      fun heq => s.not_issued_next (Std.LawfulEqCmp.eq_of_compare heq ▸ his)
    have hi := hpr.planId
    rw [s.evictExpired_owner, s.evictExpired_nextPlan] at hi
    rw [Std.TreeMap.getElem?_insert, hi, if_neg hne]
    exact he _ hsp
  | taken hc =>
    rw [getElem?_discard, if_neg, hp]
    intro heq
    cases c with
    | dispose => exact hsp
    | plan => cases hc
    | _ => exact hsp (heq ▸ hc)
  | disposed hc =>
    rw [hc] at hsp
    exact hsp.elim

theorem sameForPlan_after {cs : List SessionCommand} {w : SessionWorld δ}
    (env : SessionEnv δ) (hw : w.session.Sound)
    (hp : w.session.plans[p]? = some plan) (hc : ∀ c ∈ cs, c.Spares p plan.expiresAt) :
    SameForPlan env.trust p plan w (sessionAfter env w cs) := by
  suffices h : (sessionAfter env w cs).session.Sound ∧
      SameForPlan env.trust p plan w (sessionAfter env w cs) from h.2
  refine exec_invariant_of_mem (I := fun v : SessionWorld δ =>
    v.session.Sound ∧ SameForPlan env.trust p plan w v) ?_ hc ⟨hw, rfl, .refl _, hp, hp⟩
  intro v c hsp ⟨hso, hs⟩
  have he := v.step_effect env c
  refine ⟨sound_step env v c hso, ?_, hs.owner.trans he.sameOwner, hp,
    he.plan_kept hso hs.after hsp⟩
  have hl : c ≠ .dispose := fun heq => (heq ▸ hsp : SessionCommand.Spares p _ .dispose)
  exact (v.step_lifecycles env hl).trans hs.lifecycles

/-- In a session reached by any calls, the evaluation of a pending plan answers the same
whatever spared calls come first. -/
theorem evaluation_framed {env : SessionEnv δ} {lifecycle : LifecycleId} {owner : Option Nat}
    {configText policyText : String} {now : Nat} {s : CoreSession δ}
    (h : CoreSession.new env lifecycle owner configText policyText now = .ok s)
    (lifecycles : Lifecycles) (earlier : List SessionCommand) {p : String} {plan : PendingPlan δ}
    (hplan : (sessionAfter env ⟨lifecycles, s⟩ earlier).session.plans[p]? = some plan)
    {between : List SessionCommand} (hbetween : ∀ c ∈ between, c.Spares p plan.expiresAt)
    {command : SessionCommand} (hcommand : command.evaluates = some p) :
    ((sessionAfter env (sessionAfter env ⟨lifecycles, s⟩ earlier) between).step env command).1 =
      ((sessionAfter env ⟨lifecycles, s⟩ earlier).step env command).1 := by
  have hs := sound_after env (w := ⟨lifecycles, s⟩) (sound_of_new h) earlier
  exact (sameForPlan_after env hs hplan hbetween).answer hcommand

/-- The sample session with its first plan. -/
def capPlanned : SessionWorld Unit :=
  sessionAfter capEnv ⟨fun _ => false, capSession⟩ [.plan "{}" 1000000]

/-- A refresh and a second plan come between the sample plan and its evaluation. -/
theorem evaluation_framed_cap :
    capPlanned.session.plans["p7-1"]?.map (·.expiresAt) = some 1060000 ∧
    ((sessionAfter capEnv capPlanned [.beginRefresh (some 1), .plan "{}" 1000001,
        .evaluate "p7-2" "{}" 1000002, .commitRefresh 1 "{}" 1000003]).step capEnv
          (.evaluate "p7-1" "{}" 1000004)).1 =
      (capPlanned.step capEnv (.evaluate "p7-1" "{}" 1000004)).1 := by
  have hp : capPlanned.session.plans["p7-1"]?.map (·.expiresAt) = some 1060000 := by
    decide +kernel
  obtain ⟨plan, hpl, he⟩ := Option.map_eq_some_iff.1 hp
  refine ⟨hp, evaluation_framed new_capEnv _ _ hpl ?_ rfl⟩
  rw [he]
  simp [SessionCommand.Spares, SessionCommand.evaluates]

end Dambi
