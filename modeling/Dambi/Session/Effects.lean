import Dambi.Session.Commands

/-!
# What a call can do to the plans

Every call of the API leaves the configuration of the session and acts on its
plans in one of five ways, `SessionEffect`. All later results about runs of a
session are read off `step_effect`.
-/

namespace Dambi

open Fallible SnapshotStore

variable {δ : Type}

namespace CoreSession

/-- What no call of a session changes; only the active policy of its store is renewed. -/
structure SameOwner (trust : Trust δ) (s s' : CoreSession δ) : Prop where
  owner : s'.owner = s.owner
  limits : s'.limits = s.limits
  enforcement : s'.enforcement = s.enforcement
  store : s.store.Renews trust s'.store

variable {t : Trust δ}

theorem SameOwner.refl (s : CoreSession δ) : SameOwner t s s :=
  ⟨rfl, rfl, rfl, .refl _⟩

theorem SameOwner.trans {a b c : CoreSession δ}
    (h : SameOwner t a b) (h' : SameOwner t b c) : SameOwner t a c :=
  ⟨h'.owner.trans h.owner, h'.limits.trans h.limits, h'.enforcement.trans h.enforcement,
    h.store.trans h'.store⟩

structure SamePlans (trust : Trust δ) (s s' : CoreSession δ) : Prop
    extends SameOwner trust s s' where
  plans : s'.plans = s.plans
  retired : s'.retired = s.retired
  nextPlan : s'.nextPlan = s.nextPlan

theorem SamePlans.refl (s : CoreSession δ) : SamePlans t s s :=
  ⟨.refl s, rfl, rfl, rfl⟩

/-! ## Eviction -/

section Eviction

variable {s : CoreSession δ} {id : String} {now : Nat}

theorem evictExpired_eq (s : CoreSession δ) (now : Nat) :
    s.evictExpired now = { s with
      plans := (s.evictExpired now).plans
      retired := (s.evictExpired now).retired } := by
  unfold evictExpired
  generalize s.expiredIds now = ids
  induction ids generalizing s with
  | nil => rfl
  | cons id ids ih => exact ih (s.discard id .expired)

theorem evictExpired_owner (s : CoreSession δ) (now : Nat) :
    (s.evictExpired now).owner = s.owner := by rw [s.evictExpired_eq]

theorem evictExpired_nextPlan (s : CoreSession δ) (now : Nat) :
    (s.evictExpired now).nextPlan = s.nextPlan := by rw [s.evictExpired_eq]

theorem getElem?_discard (s : CoreSession δ) (id id' : String) (r : Retirement) :
    (s.discard id r).plans[id']? = if id' = id then none else s.plans[id']? := by
  have hp : (s.discard id r).plans = s.plans.erase id := rfl
  rw [hp, Std.TreeMap.getElem?_erase]
  by_cases h : id' = id
  · simp [h]
  · rw [if_neg h, if_neg]
    exact fun heq => h (Std.LawfulEqCmp.eq_of_compare heq).symm

private theorem getElem?_foldl_discard (ids : List String) (s : CoreSession δ) (id : String) :
    (ids.foldl (fun s id => s.discard id .expired) s).plans[id]? =
      if id ∈ ids then none else s.plans[id]? := by
  induction ids generalizing s with
  | nil => simp
  | cons first r ih =>
    rw [List.foldl_cons, ih, getElem?_discard]
    by_cases hr : id ∈ r
    · rw [if_pos hr, if_pos (List.mem_cons_of_mem _ hr)]
    · rw [if_neg hr]
      by_cases hf : id = first
      · rw [if_pos hf, if_pos (List.mem_cons.2 (.inl hf))]
      · rw [if_neg hf, if_neg]
        exact fun hm => (List.mem_cons.1 hm).elim hf hr

theorem mem_expiredIds :
    id ∈ s.expiredIds now ↔ ∃ plan, s.plans[id]? = some plan ∧ plan.expiresAt ≤ now := by
  simp [expiredIds]

theorem getElem?_evictExpired (s : CoreSession δ) (now : Nat) (id : String) :
    (s.evictExpired now).plans[id]? = s.plans[id]?.filter (now < ·.expiresAt) := by
  rw [evictExpired, getElem?_foldl_discard]
  by_cases he : id ∈ s.expiredIds now
  · rw [if_pos he]
    obtain ⟨plan, hp, hl⟩ := mem_expiredIds.1 he
    simp [hp, Option.filter, Nat.not_lt.2 hl]
  · rw [if_neg he]
    cases hp : s.plans[id]? with
    | none => rfl
    | some plan =>
      have hlt : now < plan.expiresAt := by
        by_contra hge
        exact he (mem_expiredIds.2 ⟨plan, hp, Nat.not_lt.1 hge⟩)
      simp [Option.filter, hlt]

end Eviction

/-! ## Calls that leave the plans -/

section Kept

variable (env : SessionEnv δ) (lifecycles : Lifecycles) (s : CoreSession δ)

theorem installPolicy_renews (ticket : RefreshTicket) (pt : String) (now : Nat) :
    s.store.Renews env.trust (s.installPolicy env lifecycles ticket pt now).2 := by
  unfold installPolicy
  split
  · exact .refl _
  · next p hp =>
    simp only [bind_eq_ok, mapError_eq_ok] at hp
    obtain ⟨po, -, hp⟩ := hp
    simp only [SnapshotStore.prepareRefresh, bind_eq_ok] at hp
    obtain ⟨_, -, v, hv, hp⟩ := hp
    have hv : env.trust.Validated p.policy := Except.ok.inj hp ▸ ⟨_, _, _, _, _, hv⟩
    have hc := commitRefresh_renews lifecycles s.store hv now
    split
    · next heq =>
      rw [heq] at hc
      exact hc
    · next heq =>
      rw [heq] at hc
      exact hc

theorem beginRefresh_samePlans (f : Option Nat) :
    SamePlans env.trust s (s.beginRefresh lifecycles f).2 := by
  unfold beginRefresh
  split
  · exact .refl s
  · split
    · exact .refl s
    · have hb := beginRefresh_renews env.trust lifecycles s.store
      split
      · next heq =>
        rw [heq] at hb
        exact ⟨⟨rfl, rfl, rfl, hb⟩, rfl, rfl, rfl⟩
      · next heq =>
        rw [heq] at hb
        exact ⟨⟨rfl, rfl, rfl, hb⟩, rfl, rfl, rfl⟩

variable (ticket : Nat)

theorem commitRefresh_samePlans (pt : String) (now : Nat) :
    SamePlans env.trust s (s.commitRefresh env lifecycles ticket pt now).2 := by
  unfold commitRefresh
  split
  · exact .refl s
  · split
    · exact .refl s
    · next held _ =>
      have hi := s.installPolicy_renews env lifecycles held pt now
      split
      · split
        · next heq =>
          rw [heq] at hi
          exact ⟨⟨rfl, rfl, rfl, hi⟩, rfl, rfl, rfl⟩
        · next st heq =>
          rw [heq] at hi
          have hc := cancelRefresh_renews env.trust lifecycles st held
          exact ⟨⟨rfl, rfl, rfl, hi.trans hc⟩, rfl, rfl, rfl⟩
      · exact .refl s

theorem cancelRefresh_samePlans : SamePlans env.trust s (s.cancelRefresh lifecycles ticket).2 := by
  unfold cancelRefresh
  split
  · exact .refl s
  · split
    · exact .refl s
    · next held _ =>
      split
      · have hc := cancelRefresh_renews env.trust lifecycles s.store held
        exact ⟨⟨rfl, rfl, rfl, hc⟩, rfl, rfl, rfl⟩
      · exact .refl s

theorem setScamSettings_samePlans (ss : String) :
    SamePlans env.trust s (s.setScamSettings env lifecycles ss).2 := by
  unfold setScamSettings
  split
  · exact .refl s
  · split
    · exact .refl s
    · exact ⟨⟨rfl, rfl, rfl, .refl _⟩, rfl, rfl, rfl⟩

theorem beginScamRefresh_samePlans (f : Option Nat) :
    SamePlans env.trust s (s.beginScamRefresh lifecycles f).2 := by
  unfold beginScamRefresh
  split
  · exact .refl s
  · split
    · exact .refl s
    · split
      · exact .refl s
      · exact ⟨⟨rfl, rfl, rfl, .refl _⟩, rfl, rfl, rfl⟩

theorem commitScamRefresh_samePlans (envelope : String) (now : Nat) :
    SamePlans env.trust s (s.commitScamRefresh env lifecycles ticket envelope now).2 := by
  unfold commitScamRefresh
  split
  · exact .refl s
  · split
    · dsimp only
      split
      · exact ⟨⟨rfl, rfl, rfl, .refl _⟩, rfl, rfl, rfl⟩
      · exact ⟨⟨rfl, rfl, rfl, .refl _⟩, rfl, rfl, rfl⟩
    · exact .refl s

theorem cancelScamRefresh_samePlans :
    SamePlans env.trust s (s.cancelScamRefresh lifecycles ticket).2 := by
  unfold cancelScamRefresh
  split
  · exact .refl s
  · split
    · exact ⟨⟨rfl, rfl, rfl, .refl _⟩, rfl, rfl, rfl⟩
    · exact .refl s

end Kept

/-! ## Evaluation -/

/-- An evaluation call is refused and changes nothing, or its plan was pending and is
discarded, as the time of the call says. -/
theorem evaluateInner_cases (env : SessionEnv δ) (lifecycles : Lifecycles) (s : CoreSession δ)
    (pi ft : String) (now : Nat) (c : Option (Option CheckFailure))
    (si : Option String) (cl : Option ClockReadings) :
    (∃ e, s.evaluateInner env lifecycles pi ft now c si cl = (.error e, s)) ∨
    ∃ plan r result, s.plans[pi]? = some plan ∧
      s.evaluateInner env lifecycles pi ft now c si cl =
        (result, s.discard pi r) := by
  unfold evaluateInner
  split
  · next e _ => exact .inl ⟨e, rfl⟩
  · split
    · exact .inl ⟨_, rfl⟩
    · next plan hp =>
      refine .inr ⟨plan, ?_⟩
      split
      · cases c with
        | none | some failure => exact ⟨.expired, _, hp, rfl⟩
      · exact ⟨.consumed, _, hp, rfl⟩

end CoreSession

/-! ## The effect of a call -/

/-- What a call does to the plans of a session, with what it answers then. -/
inductive SessionEffect (env : SessionEnv δ) (lifecycles : Lifecycles) (command : SessionCommand)
    (answer : SessionAnswer) (s : CoreSession δ) : CoreSession δ → Prop
  /-- The call leaves the plans. -/
  | kept {s' : CoreSession δ} (hsame : s.SamePlans env.trust s')
      (hplanned : ∀ reply, answer ≠ .planned reply) (hreport : ∀ report, answer ≠ .report report) :
      SessionEffect env lifecycles command answer s s'
  /-- A request is not planned, but expired plans are gone. -/
  | evicted {request : String} {now : Nat} {error : SessionError}
      (hcommand : command = .plan request now) (hanswer : answer = .error error) :
      SessionEffect env lifecycles command answer s (s.evictExpired now)
  /-- A request is planned. -/
  | planned {request : String} {now number : Nat} {plan : PendingPlan δ} {reply : PlanReply}
      (hcommand : command = .plan request now) (hanswer : answer = .planned reply)
      (hprepare : (s.evictExpired now).preparePlan env lifecycles request now =
        .ok (number, plan, reply)) :
      SessionEffect env lifecycles command answer s { s.evictExpired now with
        plans := (s.evictExpired now).plans.insert reply.planId plan
        nextPlan := number }
  /-- An evaluation call takes the plan it names. -/
  | taken {planId : String} {plan : PendingPlan δ} {retirement : Retirement}
      (hcommand : command.evaluates = some planId) (hplan : s.plans[planId]? = some plan)
      (hplanned : ∀ reply, answer ≠ .planned reply) :
      SessionEffect env lifecycles command answer s (s.discard planId retirement)
  /-- The session is disposed. -/
  | disposed (hcommand : command = .dispose) (hanswer : answer = .done) :
      SessionEffect env lifecycles command answer s (s.dispose lifecycles).2

namespace SessionWorld

open CoreSession

variable (env : SessionEnv δ)

section Effects

variable {lifecycles : Lifecycles} {command : SessionCommand} {s : CoreSession δ}

private theorem kept_effect {α : Type} {w : α → SessionAnswer}
    {result : Except SessionError α × CoreSession δ} (hs : s.SamePlans env.trust result.2)
    (hp : ∀ a reply, w a ≠ .planned reply) (hr : ∀ a report, w a ≠ .report report) :
    SessionEffect env lifecycles command (.ofExcept w result.1) s result.2 := by
  refine .kept hs ?_ ?_
  · intro reply
    cases result.1 with
    | error error => exact nofun
    | ok a => exact hp a reply
  · intro report
    cases result.1 with
    | error error => exact nofun
    | ok a => exact hr a report

private theorem refused_effect (e : SessionError) :
    SessionEffect env lifecycles command (.error e) s s :=
  .kept (.refl s) nofun nofun

private theorem evaluateInner_effect {pi : String} (hc : command.evaluates = some pi)
    (ft : String) (now : Nat)
    (c : Option (Option CheckFailure)) (si : Option String) (cl : Option ClockReadings) :
    let result := s.evaluateInner env lifecycles pi ft now c si cl
    SessionEffect env lifecycles command (.ofExcept .report result.1) s result.2 := by
  obtain ⟨error, h⟩ | ⟨plan, r, result, hp, h⟩ :=
    evaluateInner_cases env lifecycles s pi ft now c si cl
  · simp only [h]
    exact refused_effect env error
  · simp only [h]
    refine .taken hc hp fun reply => ?_
    cases result with
    | error error => exact nofun
    | ok report => exact nofun

private theorem plan_effect (r : String) (now : Nat) :
    let result := s.plan env lifecycles r now
    SessionEffect env lifecycles (.plan r now) (.ofExcept .planned result.1) s result.2 := by
  unfold CoreSession.plan
  split
  · exact refused_effect env _
  · dsimp only
    split
    · exact .evicted rfl rfl
    · next hp => exact .planned rfl rfl hp

end Effects

theorem step_effect (w : SessionWorld δ) (command : SessionCommand) :
    SessionEffect env w.lifecycles command (w.step env command).1 w.session
      (w.step env command).2.session := by
  cases command with
  | plan r now => exact plan_effect env r now
  | evaluate pi fs now => exact evaluateInner_effect env rfl fs now none none none
  | evaluateScam pi fs si now c =>
    exact evaluateInner_effect env rfl fs now none (some si) (some c)
  | evaluateCheck pi fs now failure =>
    simp only [step, reply, evaluateCheck]
    split
    · exact refused_effect env _
    · next failure _ => exact evaluateInner_effect env rfl fs now (some failure) none none
  | evaluateCheckScam pi fs si now failure c =>
    simp only [step, reply, evaluateCheckScam]
    split
    · exact refused_effect env _
    · next failure _ =>
      exact evaluateInner_effect env rfl fs now (some failure) (some si) (some c)
  | setScamSettings ss =>
    exact kept_effect env (setScamSettings_samePlans env _ _ ss) nofun nofun
  | beginRefresh f =>
    exact kept_effect env (beginRefresh_samePlans env _ _ f) nofun nofun
  | commitRefresh ticket p now =>
    exact kept_effect env (commitRefresh_samePlans env _ _ ticket p now) nofun nofun
  | cancelRefresh ticket =>
    exact kept_effect env (cancelRefresh_samePlans env _ _ ticket) nofun nofun
  | beginScamRefresh f =>
    exact kept_effect env (beginScamRefresh_samePlans env _ _ f) nofun nofun
  | commitScamRefresh ticket envelope now =>
    exact kept_effect env (commitScamRefresh_samePlans env _ _ ticket envelope now) nofun nofun
  | cancelScamRefresh ticket =>
    exact kept_effect env (cancelScamRefresh_samePlans env _ _ ticket) nofun nofun
  | dispose => exact .disposed rfl rfl

theorem step_lifecycles {command : SessionCommand} (w : SessionWorld δ) (h : command ≠ .dispose) :
    (w.step env command).2.lifecycles = w.lifecycles := by
  cases command with
  | dispose => exact absurd rfl h
  | _ => rfl

end SessionWorld

variable {env : SessionEnv δ} {lifecycles : Lifecycles} {command : SessionCommand}
  {s s' : CoreSession δ}

theorem SessionEffect.sameOwner {answer : SessionAnswer}
    (h : SessionEffect env lifecycles command answer s s') :
    s.SameOwner env.trust s' := by
  cases h with
  | kept hs => exact hs.toSameOwner
  | evicted | planned =>
    rw [s.evictExpired_eq]
    exact ⟨rfl, rfl, rfl, .refl _⟩
  | taken => exact ⟨rfl, rfl, rfl, .refl _⟩
  | disposed => exact ⟨rfl, rfl, rfl, rfl, nofun⟩

theorem SessionEffect.evaluates_of_report {report : EvaluationReport}
    (h : SessionEffect env lifecycles command (.report report) s s') :
    ∃ planId, command.evaluates = some planId := by
  cases h with
  | kept _ _ hr => exact absurd rfl (hr report)
  | evicted _ ha | planned _ ha | disposed _ ha => cases ha
  | taken hc => exact ⟨_, hc⟩

end Dambi
