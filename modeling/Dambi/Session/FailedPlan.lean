import Dambi.Session.Frame
import Dambi.Session.Origin

/-!
# A failed plan call

`plan` evicts expired plans before its first fallible step that reads the
session, and inserts the new plan after its last one. So whatever fails in
between, all a failed call leaves behind is that eviction; a call with a clock
that `plan` refuses leaves nothing at all.
-/

namespace Dambi

open Machine Fallible

variable {δ : Type}

/-- The session, as far as it is not its plans. -/
structure CoreSession.SameBeyondPlans (s s' : CoreSession δ) : Prop where
  store : s'.store = s.store
  nextPlan : s'.nextPlan = s.nextPlan
  refresh : s'.refresh = s.refresh
  scamRefresh : s'.scamRefresh = s.scamRefresh
  scam : s'.scam = s.scam

theorem CoreSession.sameBeyondPlans_evictExpired (s : CoreSession δ) (now : Nat) :
    s.SameBeyondPlans (s.evictExpired now) := by
  rw [s.evictExpired_eq]
  exact ⟨rfl, rfl, rfl, rfl, rfl⟩

/-! ## Disposed sessions -/

def SessionWorld.DisposedEmpty (w : SessionWorld δ) : Prop :=
  w.session.store.isDisposed w.lifecycles = true → ∀ id : String, w.session.plans[id]? = none

theorem SessionWorld.disposedEmpty_step (env : SessionEnv δ) (w : SessionWorld δ)
    (c : SessionCommand) (hw : w.DisposedEmpty) : (w.step env c).2.DisposedEmpty := by
  have he := w.step_effect env c
  intro hd id
  by_cases hds : c = .dispose
  · rw [hds]
    exact Std.TreeMap.getElem?_emptyc
  · have hb : w.session.store.isDisposed w.lifecycles = true := by
      rw [SnapshotStore.isDisposed, w.step_lifecycles env hds, he.sameOwner.store.lifecycle] at hd
      exact hd
    cases hp : (w.step env c).2.session.plans[id]? with
    | none => rfl
    | some plan =>
      obtain ho | ⟨_, now, _, _, _, _, -, -, hpr⟩ := he.plan_origin hp
      · rw [hw hb id] at ho
        cases ho
      · -- the store the plan was prepared from was live
        obtain ⟨⟨s, ⟨hl, -⟩, -⟩, -⟩ := SnapshotStore.current_eq_ok.1 hpr.current
        rw [(w.session.sameBeyondPlans_evictExpired now).store] at hl
        exact absurd (hb.symm.trans hl) nofun

/-! ## Where a reported plan comes from -/

section Runs

variable (env : SessionEnv δ)

theorem pending_after {w : SessionWorld δ} {cs : List SessionCommand} {plan : PendingPlan δ}
    {id : String} (h : (sessionAfter env w cs).session.plans[id]? = some plan) :
    w.session.plans[id]? = some plan ∨
      ∃ e ∈ sessionTrace env w cs, ∃ reply, e.answer = .planned reply ∧ reply.planId = id := by
  induction cs generalizing w with
  | nil => exact .inl h
  | cons c cs ih =>
    have ht : sessionTrace env w (c :: cs) =
        event (SessionWorld.step env) w c :: sessionTrace env (w.step env c).2 cs := rfl
    rw [ht]
    obtain hn | ⟨e, he, hp⟩ := ih h
    · obtain ho | ⟨_, _, _, reply, _, _, ha, hi, -⟩ :=
        (w.step_effect env c).plan_origin hn
      · exact .inl ho
      · exact .inr ⟨_, List.mem_cons_self, reply, ha, hi⟩
    · exact .inr ⟨e, List.mem_cons_of_mem _ he, hp⟩

/-- Every report of a run is about a plan that was pending at its start, unchanged, or that
an earlier call of the run has planned. -/
def ReportsFrom (w₀ w : SessionWorld δ) : Prop :=
  ∀ cs before e after, sessionTrace env w cs = before ++ e :: after →
    ∀ id report, e.command.evaluates = some id → e.answer = .report report →
      (∃ plan, w₀.session.plans[id]? = some plan ∧ e.before.session.plans[id]? = some plan) ∨
        ∃ e' ∈ before, ∃ reply, e'.answer = .planned reply ∧ reply.planId = id

theorem ReportsFrom.of_kept {w₀ w : SessionWorld δ}
    (h : ∀ (id : String) plan, w.session.plans[id]? = some plan →
      w₀.session.plans[id]? = some plan) : ReportsFrom env w₀ w := by
  intro cs b e after ht id report hi hr
  obtain ⟨ds, c, ds', -, rfl, rfl, -⟩ := trace_eq_append_cons ht
  have he := (sessionAfter env w ds).step_effect env c
  rw [show ((sessionAfter env w ds).step env c).1 = .report report from hr] at he
  obtain ⟨plan, hp⟩ := he.pending_of_report hi
  exact (pending_after env hp).imp_left fun ho => ⟨plan, h id plan ho, hp⟩

theorem reports_planned (w : SessionWorld δ) : ReportsFrom env w w :=
  .of_kept env fun _ _ hp => hp

end Runs

/-! ## The call -/

/-- What a failed plan call does to a session. -/
structure FailedPlan (env : SessionEnv δ) (now : Nat) (w w' : SessionWorld δ) : Prop
    extends w.session.SameBeyondPlans w'.session where
  lifecycles : w'.lifecycles = w.lifecycles
  /-- The plans that have expired are gone, and no other. -/
  evicted : now ≤ maxSafeInteger → ∀ id : String,
    w'.session.plans[id]? = w.session.plans[id]?.filter (now < ·.expiresAt)
  /-- A clock that is no safe integer is refused before anything is read. -/
  refused : maxSafeInteger < now → w' = w
  /-- No later call reports on anything the failed call has built. -/
  reports : ReportsFrom env w w'

variable {env : SessionEnv δ} {now : Nat} {error : SessionError}

theorem CoreSession.plan_error {ls : Lifecycles} {rt : String} {s s' : CoreSession δ}
    (h : s.plan env ls rt now = (.error error, s')) :
    s' = s ∧ (s.store.isDisposed ls = true ∨ maxSafeInteger < now) ∨
      s' = s.evictExpired now ∧ now ≤ maxSafeInteger := by
  unfold plan at h
  cases hg : (do s.live ls; sessionClock now : Except SessionError Unit) with
  | error r =>
    rw [hg] at h
    refine .inl ⟨(Prod.mk.inj h).2.symm, ?_⟩
    by_contra hpassed
    obtain ⟨hl, hc⟩ := not_or.1 hpassed
    have ho : (do s.live ls; sessionClock now : Except SessionError Unit) = .ok () :=
      bind_eq_ok.2 ⟨(), require_eq_ok.2 (Bool.not_eq_true _ ▸ hl),
        require_eq_ok.2 (Nat.not_lt.1 hc)⟩
    rw [ho] at hg
    cases hg
  | ok u =>
    rw [hg] at h
    obtain ⟨-, -, hc⟩ := bind_eq_ok.1 hg
    refine .inr ⟨?_, require_eq_ok.1 hc⟩
    dsimp only at h
    split at h
    · exact (Prod.mk.inj h).2.symm
    · cases (Prod.mk.inj h).1

theorem failedPlan_of_error {w : SessionWorld δ} (hw : w.DisposedEmpty) {rt : String}
    (h : (w.step env (.plan rt now)).1 = .error error) :
    FailedPlan env now w (w.step env (.plan rt now)).2 := by
  rcases hcall : w.session.plan env w.lifecycles rt now with ⟨result, s'⟩
  have hst : w.step env (.plan rt now) =
      (.ofExcept .planned result, ⟨w.lifecycles, s'⟩) := by
    simp [SessionWorld.step, SessionWorld.reply, hcall]
  rw [hst] at h ⊢
  cases result with
  | ok reply => cases h
  | error r =>
    obtain ⟨hs, hwh⟩ | ⟨he, hc⟩ := CoreSession.plan_error hcall
    · rw [hs]
      refine ⟨⟨rfl, rfl, rfl, rfl, rfl⟩, rfl, fun hc id => ?_, fun _ => rfl,
        .of_kept env fun _ _ ho => ho⟩
      have hd := hwh.resolve_right (Nat.not_lt.2 hc)
      rw [hw hd id]
      rfl
    · rw [he]
      refine ⟨w.session.sameBeyondPlans_evictExpired now, rfl,
        fun _ id => w.session.getElem?_evictExpired now id,
        fun hl => absurd hl (Nat.not_lt.2 hc), .of_kept env fun id plan hp => ?_⟩
      rw [CoreSession.getElem?_evictExpired, Option.filter_eq_some_iff] at hp
      exact hp.1

theorem CoreSession.disposedEmpty_of_new {lifecycle : LifecycleId} {ct pt : String}
    {s : CoreSession δ} {owner : Option Nat}
    (h : CoreSession.new env lifecycle owner ct pt now = .ok s) (ls : Lifecycles) :
    (⟨ls, s⟩ : SessionWorld δ).DisposedEmpty := by
  simp only [CoreSession.new, bind_eq_ok] at h
  obtain ⟨-, -, c, -, -, -, -, -, -, -, p, -, st, -, h⟩ := h
  cases owner with
  | none => cases h
  | some owner =>
    cases h
    exact fun _ id => Std.TreeMap.getElem?_emptyc

/-- In a session reached by any calls, a plan call that fails evicts what has expired and
changes nothing else. -/
theorem failed_plan_evicts_only {env : SessionEnv δ} {lifecycle : LifecycleId}
    {owner : Option Nat} {configText policyText : String} {created : Nat} {s : CoreSession δ}
    (h : CoreSession.new env lifecycle owner configText policyText created = .ok s)
    (lifecycles : Lifecycles) (earlier : List SessionCommand) {requestText : String} {now : Nat}
    {error : SessionError} (herror : ((sessionAfter env ⟨lifecycles, s⟩ earlier).step env
      (.plan requestText now)).1 = .error error) :
    FailedPlan env now (sessionAfter env ⟨lifecycles, s⟩ earlier)
      ((sessionAfter env ⟨lifecycles, s⟩ earlier).step env (.plan requestText now)).2 :=
  failedPlan_of_error
    (exec_invariant (I := SessionWorld.DisposedEmpty) (SessionWorld.disposedEmpty_step env)
      (CoreSession.disposedEmpty_of_new h lifecycles)) herror

def SessionAnswer.error? : SessionAnswer → Option SessionError
  | .error refusal => some refusal
  | _ => none

theorem SessionAnswer.eq_error {answer : SessionAnswer}
    (h : answer.error? = some error) : answer = .error error := by
  cases answer with
  | error o => exact congrArg SessionAnswer.error (Option.some.inj h)
  | _ => cases h

/-- The sample session fails to plan once its policy has expired, and its first plan is
gone then. -/
theorem failed_plan_evicts_only_cap :
    (capPlanned.step capEnv (.plan "{}" 9000000000000)).1 = .error ⟨"POLICY_EXPIRED",
        "$/expires_at: policy has reached its explicit expiry or maximum age"⟩ ∧
      FailedPlan capEnv 9000000000000 capPlanned
        (capPlanned.step capEnv (.plan "{}" 9000000000000)).2 := by
  have he : (capPlanned.step capEnv (.plan "{}" 9000000000000)).1 = .error ⟨"POLICY_EXPIRED",
      "$/expires_at: policy has reached its explicit expiry or maximum age"⟩ :=
    SessionAnswer.eq_error (by decide +kernel)
  exact ⟨he, failed_plan_evicts_only new_capEnv _ [.plan "{}" 1000000] he⟩

/-- A clock that is no safe integer leaves the plan of the sample session pending, although
it has expired at that clock. -/
theorem refused_clock_keeps_expired :
    capPlanned.session.plans["p7-1"]?.map (·.expiresAt) = some 1060000 ∧
    (capPlanned.step capEnv (.plan "{}" (2 ^ 53))).1 = .error ⟨"INVALID_CONFIG",
      "clock must return a nonnegative safe integer in milliseconds"⟩ ∧
    (capPlanned.step capEnv (.plan "{}" (2 ^ 53))).2.session.plans["p7-1"]?.map (·.expiresAt) =
      some 1060000 :=
  ⟨by decide +kernel, SessionAnswer.eq_error (by decide +kernel), by decide +kernel⟩

end Dambi
