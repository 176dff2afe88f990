import Dambi.Lib.Digits
import Dambi.Runtime.Boundary
import Dambi.Session.Effects

/-!
# The life of a plan

Plan ids are numbered and never issued twice. A plan is pending until it is
evaluated or evicted; after that only its tombstone is left, until the bounded
list of tombstones drops that too. `Sound` is what every call preserves.
-/

namespace Dambi

open Machine Fallible List CoreSession SessionAnswer

variable {δ : Type}

theorem planIdOf_inj {owner m n : Nat} : planIdOf owner m = planIdOf owner n ↔ m = n := by
  refine ⟨fun h => ?_, fun h => h ▸ rfl⟩
  have hl := congrArg String.toList h
  simp only [planIdOf, String.toList_append, append_assoc, append_cancel_left_eq] at hl
  exact Digits.toString_injective (String.toList_inj.1 hl)

namespace CoreSession

def Issued (s : CoreSession δ) (id : String) : Prop :=
  ∃ number ≤ s.nextPlan, id = planIdOf s.owner number

def Gone (s : CoreSession δ) (id : String) : Prop := s.Issued id ∧ id ∉ s.plans

structure Sound (s : CoreSession δ) : Prop where
  pendingIssued : ∀ id ∈ s.plans, s.Issued id
  retiredGone : ∀ entry ∈ s.retired, s.Gone entry.1
  pendingBound : s.plans.size ≤ s.limits.maxPendingPlans
  retiredBound : s.retired.length ≤ s.limits.maxPendingPlans

variable {s : CoreSession δ} {id : String}

theorem Issued.mono {s' : CoreSession δ} (h : s.Issued id)
    (ho : s'.owner = s.owner) (hn : s.nextPlan ≤ s'.nextPlan) : s'.Issued id := by
  obtain ⟨number, hl, hi⟩ := h
  exact ⟨number, hl.trans hn, by rw [ho, hi]⟩

theorem not_issued_next (s : CoreSession δ) : ¬ s.Issued (planIdOf s.owner (s.nextPlan + 1)) := by
  intro ⟨number, hl, hi⟩
  have : s.nextPlan + 1 = number := planIdOf_inj.1 hi
  omega

theorem mem_of_mem_discard {r : Retirement} {id' : String}
    (h : id' ∈ (s.discard id r).plans) : id' ∈ s.plans :=
  Std.TreeMap.mem_of_mem_erase h

theorem not_mem_discard (s : CoreSession δ) (id : String) (r : Retirement) :
    id ∉ (s.discard id r).plans := by
  rw [Std.TreeMap.mem_iff_isSome_getElem?, getElem?_discard, if_pos rfl]
  exact Bool.false_ne_true

theorem Sound.discard (hs : s.Sound) (hi : s.Issued id)
    (r : Retirement) : (s.discard id r).Sound where
  pendingIssued other hother := hs.pendingIssued other (mem_of_mem_discard hother)
  retiredGone entry hentry := by
    have hm : entry ∈ s.retired ++ [(id, r)] := mem_of_mem_drop hentry
    rcases mem_append.1 hm with ho | hn
    · obtain ⟨his, hg⟩ := hs.retiredGone entry ho
      exact ⟨his, fun h => hg (mem_of_mem_discard h)⟩
    · rw [mem_singleton.1 hn]
      exact ⟨hi, not_mem_discard s id r⟩
  pendingBound := Std.TreeMap.size_erase_le.trans hs.pendingBound
  retiredBound := by
    simp only [CoreSession.discard, retire, length_drop]
    omega

theorem Sound.evictExpired (hs : s.Sound) (now : Nat) : (s.evictExpired now).Sound := by
  unfold CoreSession.evictExpired
  -- the fold discards pending ids only, and all of them were issued
  have hi : ∀ id ∈ s.expiredIds now, s.Issued id := by
    intro id hid
    obtain ⟨plan, hp, -⟩ := mem_expiredIds.1 hid
    refine hs.pendingIssued id ?_
    rw [Std.TreeMap.mem_iff_isSome_getElem?, hp]
    rfl
  generalize s.expiredIds now = ids at hi
  induction ids generalizing s with
  | nil => exact hs
  | cons id ids ih =>
    refine ih (hs.discard (hi id mem_cons_self) .expired) fun o ho => ?_
    exact hi o (mem_cons_of_mem id ho)

theorem Sound.insert (hs : s.Sound) (plan : PendingPlan δ)
    (hr : s.plans.size < s.limits.maxPendingPlans) : Sound { s with
      plans := s.plans.insert (planIdOf s.owner (s.nextPlan + 1)) plan
      nextPlan := s.nextPlan + 1 } where
  pendingIssued id hid := by
    rcases Std.TreeMap.mem_insert.1 hid with heq | ho
    · exact ⟨s.nextPlan + 1, le_rfl, (Std.LawfulEqCmp.eq_of_compare heq).symm⟩
    · exact (hs.pendingIssued id ho).mono rfl (Nat.le_succ _)
  retiredGone entry hentry := by
    obtain ⟨hi, hg⟩ := hs.retiredGone entry hentry
    refine ⟨hi.mono rfl (Nat.le_succ _), fun hm => ?_⟩
    rcases Std.TreeMap.mem_insert.1 hm with heq | ho
    · exact s.not_issued_next (Std.LawfulEqCmp.eq_of_compare heq ▸ hi)
    · exact hg ho
  pendingBound := Std.TreeMap.size_insert_le.trans hr
  retiredBound := hs.retiredBound

end CoreSession

/-! ## One call -/

section Call

variable {env : SessionEnv δ} {lifecycles : Lifecycles} {command : SessionCommand}
  {answer : SessionAnswer} {s s' : CoreSession δ}

theorem SessionEffect.nextPlan_le (h : SessionEffect env lifecycles command answer s s') :
    s.nextPlan ≤ s'.nextPlan := by
  cases h with
  | kept hs => exact hs.nextPlan.ge
  | evicted => exact (s.evictExpired_nextPlan _).ge
  | planned _ _ hp =>
    obtain ⟨r, b, hpr⟩ := prepared_of_preparePlan hp
    have hn := hpr.next
    rw [s.evictExpired_nextPlan] at hn
    exact hn ▸ Nat.le_succ _
  | taken => exact le_rfl
  | disposed => exact le_rfl

variable {id : String}

theorem CoreSession.Issued.effect (hi : s.Issued id)
    (h : SessionEffect env lifecycles command answer s s') : s'.Issued id :=
  hi.mono h.sameOwner.owner h.nextPlan_le

theorem CoreSession.Sound.effect (hs : s.Sound)
    (h : SessionEffect env lifecycles command answer s s') : s'.Sound := by
  cases h with
  | kept hsa =>
    have his : ∀ {id}, s.Issued id → s'.Issued id := fun hi => hi.mono hsa.owner hsa.nextPlan.ge
    refine ⟨fun id hi => ?_, fun entry he => ?_, ?_, ?_⟩
    · exact his (hs.pendingIssued id (hsa.plans ▸ hi))
    · obtain ⟨ho, hg⟩ := hs.retiredGone entry (hsa.retired ▸ he)
      exact ⟨his ho, hsa.plans ▸ hg⟩
    · rw [hsa.plans, hsa.limits]
      exact hs.pendingBound
    · rw [hsa.retired, hsa.limits]
      exact hs.retiredBound
  | evicted => exact hs.evictExpired _
  | planned _ _ hpe =>
    obtain ⟨re, b, hpr⟩ := prepared_of_preparePlan hpe
    rw [hpr.planId, hpr.next]
    exact (hs.evictExpired _).insert _ hpr.room
  | @taken pi plan r hc hp =>
    refine hs.discard (hs.pendingIssued pi ?_) r
    rw [Std.TreeMap.mem_iff_isSome_getElem?, hp]
    rfl
  | disposed =>
    exact ⟨fun id hi => absurd hi Std.TreeMap.not_mem_emptyc, nofun, Nat.zero_le _, Nat.zero_le _⟩

theorem CoreSession.Gone.effect (hid : s.Gone id)
    (h : SessionEffect env lifecycles command answer s s') : s'.Gone id := by
  obtain ⟨hi, hg⟩ := hid
  refine ⟨hi.effect h, ?_⟩
  have hno : s.plans[id]? = none := Std.TreeMap.getElem?_eq_none hg
  have he : ∀ now, id ∉ (s.evictExpired now).plans := by
    intro now
    rw [Std.TreeMap.mem_iff_isSome_getElem?, getElem?_evictExpired, hno]
    exact Bool.false_ne_true
  cases h with
  | kept hs => exact hs.plans ▸ hg
  | evicted => exact he _
  | planned _ _ hp =>
    obtain ⟨r, b, hpr⟩ := prepared_of_preparePlan hp
    intro hm
    rcases Std.TreeMap.mem_insert.1 hm with heq | ho
    · have hn := Std.LawfulEqCmp.eq_of_compare heq
      rw [hpr.planId] at hn
      refine not_issued_next (s.evictExpired _) (hn ▸ hi.mono ?_ ?_)
      · exact s.evictExpired_owner _
      · exact (s.evictExpired_nextPlan _).ge
    · exact he _ ho
  | taken => exact fun hm => hg (mem_of_mem_discard hm)
  | disposed => exact Std.TreeMap.not_mem_emptyc

theorem SessionEffect.planned_fresh {reply : PlanReply}
    (h : SessionEffect env lifecycles command (.planned reply) s s')
    : ¬ s.Issued reply.planId ∧ s'.Issued reply.planId := by
  cases h with
  | kept _ hp | taken _ _ hp => exact absurd rfl (hp reply)
  | evicted _ ha => cases ha
  | planned _ ha hpe =>
    cases ha
    obtain ⟨r, b, hpr⟩ := prepared_of_preparePlan hpe
    have hi := hpr.planId
    have hn := hpr.next
    rw [s.evictExpired_owner, s.evictExpired_nextPlan] at hi
    rw [s.evictExpired_nextPlan] at hn
    refine ⟨hi ▸ s.not_issued_next, _, le_rfl, ?_⟩
    rw [hi, hn, s.evictExpired_owner]
  | disposed _ ha => cases ha

/-- A call that reports on a plan, or removes it, had it pending and leaves it gone. -/
theorem SessionEffect.gone_of_evaluates (hs : s.Sound)
    (h : SessionEffect env lifecycles command answer s s') (hi : command.evaluates = some id)
    (hd : (∃ report, answer = .report report) ∨ id ∈ s.plans ∧ id ∉ s'.plans) : s'.Gone id := by
  cases h with
  | kept hsa _ hr =>
    obtain ⟨report, ha⟩ | ⟨hm, hg⟩ := hd
    · exact absurd ha (hr report)
    · exact absurd (hsa.plans ▸ hm) hg
  | evicted hc | planned hc | disposed hc => rw [hc] at hi; cases hi
  | taken hc hp =>
    obtain rfl : _ = id := Option.some.inj (hc.symm.trans hi)
    refine ⟨hs.pendingIssued _ ?_, s.not_mem_discard _ _⟩
    rw [Std.TreeMap.mem_iff_isSome_getElem?, hp]
    rfl

theorem SessionEffect.pending_of_report {report : EvaluationReport}
    (h : SessionEffect env lifecycles command (.report report) s s')
    (hi : command.evaluates = some id) : ∃ plan, s.plans[id]? = some plan := by
  cases h with
  | kept _ _ hr => exact absurd rfl (hr report)
  | evicted hc | planned hc | disposed hc => rw [hc] at hi; cases hi
  | taken hc hp =>
    obtain rfl : _ = id := Option.some.inj (hc.symm.trans hi)
    exact ⟨_, hp⟩

theorem SessionEffect.no_report_of_gone (hg : s.Gone id)
    (h : SessionEffect env lifecycles command answer s s') (hi : command.evaluates = some id)
    (report : EvaluationReport) : answer ≠ .report report := by
  rintro rfl
  obtain ⟨plan, hp⟩ := h.pending_of_report hi
  rw [Std.TreeMap.getElem?_eq_none hg.2] at hp
  cases hp

end Call

theorem SessionAnswer.ofExcept_cases {α : Type} (w : α → SessionAnswer)
    (result : Except SessionError α) :
    (∃ a, SessionAnswer.ofExcept w result = w a) ∨
      ∃ error, SessionAnswer.ofExcept w result = .error error := by
  cases result with
  | ok a => exact .inl ⟨a, rfl⟩
  | error error => exact .inr ⟨error, rfl⟩

theorem SessionWorld.step_evaluates {command : SessionCommand}
    (env : SessionEnv δ) (w : SessionWorld δ) {id : String}
    (h : command.evaluates = some id) :
    (∃ report, (w.step env command).1 = .report report) ∨
      ∃ error, (w.step env command).1 = .error error := by
  cases command with
  | evaluate | evaluateCheck | evaluateScam | evaluateCheckScam => exact ofExcept_cases .report _
  | _ => cases h

/-! ## Runs -/

section Runs

variable (env : SessionEnv δ) (w : SessionWorld δ) (cs : List SessionCommand)

def sessionAfter : SessionWorld δ :=
  exec (SessionWorld.step env) w cs

def sessionTrace : List (Event (SessionWorld δ) SessionCommand SessionAnswer) :=
  trace (SessionWorld.step env) w cs

/-- The event's call is an evaluation of the plan that reports on it or removes it. -/
def Spends (e : Event (SessionWorld δ) SessionCommand SessionAnswer) (id : String) : Prop :=
  e.command.evaluates = some id ∧
    ((∃ report, e.answer = .report report) ∨
      id ∈ e.before.session.plans ∧ id ∉ e.after.session.plans)

theorem sound_step (command : SessionCommand) (hw : w.session.Sound) :
    (w.step env command).2.session.Sound :=
  hw.effect (w.step_effect env command)

theorem sound_after {w : SessionWorld δ} (hw : w.session.Sound) (cs : List SessionCommand) :
    (sessionAfter env w cs).session.Sound :=
  exec_invariant (I := fun w : SessionWorld δ => w.session.Sound) (sound_step env) hw

theorem sameOwner_after : w.session.SameOwner env.trust (sessionAfter env w cs).session :=
  exec_invariant (I := fun v : SessionWorld δ => w.session.SameOwner env.trust v.session)
    (fun v c hv => hv.trans (v.step_effect env c).sameOwner) (.refl w.session)

theorem planned_pairwise {w : SessionWorld δ} (hw : w.session.Sound) (cs : List SessionCommand) :
    (sessionTrace env w cs).Pairwise fun e e' => ∀ reply reply',
      e.answer = .planned reply → e'.answer = .planned reply' → reply'.planId ≠ reply.planId := by
  refine trace_pairwise (I := fun w => w.session.Sound)
    (K := fun e w => ∀ reply, e.answer = .planned reply → w.session.Issued reply.planId)
    (sound_step env) ?_ ?_ ?_ hw
  · intro w c _ reply ha
    have he := w.step_effect env c
    rw [show (w.step env c).1 = .planned reply from ha] at he
    exact he.planned_fresh.2
  · intro e w c _ hm reply ha
    exact (hm reply ha).effect (w.step_effect env c)
  · intro e w c _ hm reply reply' ha ha' heq
    have he := w.step_effect env c
    rw [show (w.step env c).1 = .planned reply' from ha'] at he
    exact he.planned_fresh.1 (heq ▸ hm reply ha)

/-- After a call has spent a plan, every later evaluation of it is refused. -/
theorem spent_refused {w : SessionWorld δ} (hw : w.session.Sound) (cs : List SessionCommand) :
    (sessionTrace env w cs).Pairwise fun e e' => ∀ id,
      Spends e id → e'.command.evaluates = some id → ∃ error, e'.answer = .error error := by
  refine trace_pairwise (I := fun w => w.session.Sound)
    (K := fun e w => ∀ id, Spends e id → w.session.Gone id) (sound_step env) ?_ ?_ ?_ hw
  · intro w c hso id ⟨hi, hd⟩
    exact (w.step_effect env c).gone_of_evaluates hso hi hd
  · intro e w c _ hm id hs
    exact (hm id hs).effect (w.step_effect env c)
  · intro e w c _ hm id hs hi
    obtain ⟨report, hr⟩ | herror := w.step_evaluates env hi
    · exact absurd hr
        ((w.step_effect env c).no_report_of_gone (hm id hs) hi report)
    · exact herror

end Runs

theorem CoreSession.sound_of_new {env : SessionEnv δ} {lifecycle : LifecycleId}
    {owner : Option Nat} {ct pt : String} {now : Nat} {s : CoreSession δ}
    (h : CoreSession.new env lifecycle owner ct pt now = .ok s) : s.Sound := by
  simp only [CoreSession.new, bind_eq_ok] at h
  obtain ⟨-, -, c, -, -, -, -, -, -, -, p, -, st, -, h⟩ := h
  cases owner with
  | none => cases h
  | some owner =>
    cases h
    exact ⟨fun id hi => absurd hi Std.TreeMap.not_mem_emptyc, nofun, Nat.zero_le _, Nat.zero_le _⟩

/-- What holds of a list of calls on one session. -/
structure PlansSafe (env : SessionEnv δ) (w : SessionWorld δ) (cs : List SessionCommand) :
    Prop where
  /-- No plan id is returned twice. -/
  fresh : (sessionTrace env w cs).Pairwise fun e e' => ∀ reply reply',
    e.answer = .planned reply → e'.answer = .planned reply' → reply'.planId ≠ reply.planId
  /-- At most one evaluation of a plan reports. -/
  once : (sessionTrace env w cs).Pairwise fun e e' => ∀ id report report',
    e.command.evaluates = some id → e.answer = .report report →
    e'.command.evaluates = some id → e'.answer ≠ .report report'
  /-- Once an evaluation has removed a plan, every later one is refused. -/
  removed : (sessionTrace env w cs).Pairwise fun e e' => ∀ id,
    e.command.evaluates = some id → id ∈ e.before.session.plans → id ∉ e.after.session.plans →
    e'.command.evaluates = some id → ∃ error, e'.answer = .error error
  disjoint : ∀ id ∈ (sessionAfter env w cs).session.plans,
    ∀ entry ∈ (sessionAfter env w cs).session.retired, entry.1 ≠ id
  pendingBound : (sessionAfter env w cs).session.plans.size ≤ w.session.limits.maxPendingPlans
  retiredBound : (sessionAfter env w cs).session.retired.length ≤ w.session.limits.maxPendingPlans

/-- Every list of calls on a new session is safe, whatever the clocks and arguments. -/
theorem plans_safe {env : SessionEnv δ} {lifecycle : LifecycleId} {owner : Option Nat}
    {configText policyText : String} {now : Nat} {s : CoreSession δ}
    (h : CoreSession.new env lifecycle owner configText policyText now = .ok s)
    (lifecycles : Lifecycles) (cs : List SessionCommand) : PlansSafe env ⟨lifecycles, s⟩ cs := by
  have hs : s.Sound := sound_of_new h
  have ha := sound_after env (w := ⟨lifecycles, s⟩) hs cs
  have hl := (sameOwner_after env ⟨lifecycles, s⟩ cs).limits
  refine ⟨planned_pairwise env hs cs, ?_, ?_, ?_, ?_, ?_⟩
  · refine (spent_refused env hs cs).imp ?_
    intro e e' hsp id report report' hi hr hi' hr'
    obtain ⟨error, her⟩ := hsp id ⟨hi, .inl ⟨report, hr⟩⟩ hi'
    rw [her] at hr'
    cases hr'
  · refine (spent_refused env hs cs).imp ?_
    intro e e' hsp id hi hm hg hi'
    exact hsp id ⟨hi, .inr ⟨hm, hg⟩⟩ hi'
  · intro id hi entry he heq
    exact (ha.retiredGone entry he).2 (heq ▸ hi)
  · exact hl ▸ ha.pendingBound
  · exact hl ▸ ha.retiredBound

/-! ## A sample session -/

def sampleLimits : SessionLimits where
  maxBundleAgeSec := none
  allowedClockSkewMs := 0
  maxPolicyBytes := 4096
  maxDecoderBytes := 4096
  maxRequestBytes := 4096
  maxFactBytes := 4096
  maxPlanCalls := 8
  planTtlMs := 60000
  maxPendingPlans := 2
  maxFactAgeMs := 60000
  factTimeoutMs := 5000
  policyTimeoutMs := 5000

def idleScamKit : ScamKit where
  openEnvelope _ _ _ := .error CoreSession.scamNotConfigured
  readBundle _ _ _ := .error CoreSession.scamNotConfigured
  sha256 _ := ""
  settingsFromText _ := .error CoreSession.scamNotConfigured
  validateSettings _ _ := .error CoreSession.scamNotConfigured
  effectivePair _ _ _ := .error CoreSession.scamNotConfigured
  hash _ _ := .error CoreSession.scamNotConfigured
  builtinAlgorithm := .null
  subject _ _ := .ignore
  targetCalls _ _ _ _ := []
  subjectWire _ := .null
  inputFromValue _ := none
  encodedLength _ := none
  analyzeTarget _ _ _ _ _ _ _ _ _ _ := pure (.error .noTimeBudget)

/-- A session over one signed policy that decodes every request to one swap. -/
def sampleEnv (cedar : Cedar) (manifest : ManifestV2) (source : String) (batch : Json) :
    SessionEnv Unit where
  engines := swapEngines cedar
  trust := {
    trustedKeys := fun _ => .ok ()
    prepareDecoder := fun _ _ _ => .ok ()
    validateInput := validateInput (fun _ _ => .ok ⟨samplePayload manifest.id source, []⟩)
      (fun _ _ => .ok ()) (swapEngines cedar) (fun _ => .ok manifest) }
  parseJson _ := .ok batch
  configFromText _ := .ok {
    artifact := []
    expectedDigest := ""
    env := "staging"
    profile := "default"
    keys := []
    limits := sampleLimits
    enforcement := "enforcing"
    scam := none }
  validateScam _ _ := .ok ()
  policyFromText _ _ := .ok ⟨[], "", none⟩
  decodeRequest _ _ _ _ := .ok {
    original := .null
    digest := "d0"
    chain := "eip155:1"
    from_ := "0x1111"
    to_ := "0x2222"
    actions := [⟨swapMeta, swapAction⟩]
    partialDecode := false }
  scam := idleScamKit

def factBatch (results : List (String × Json)) : Json :=
  .obj [("planId", .str "p7-1"), ("results", .obj results)]

/-- The fact of the second call of a plan. -/
def usdFact : String × Json :=
  ("p7-1-c1", .obj [("observedAt", .int 1000000), ("source", .str "oracle"),
    ("value", .obj [("usd", .str "12.5")])])

/-- A session whose only policy never applies. -/
def capEnv : SessionEnv Unit :=
  sampleEnv capCedar (twoCallManifest "context") capSource (factBatch [usdFact])

def capSession : CoreSession Unit :=
  result (CoreSession.new capEnv 0 (some 7) "{}" "{}" 1000000) (by decide +kernel)

theorem new_capEnv : CoreSession.new capEnv 0 (some 7) "{}" "{}" 1000000 = .ok capSession :=
  eq_ok_result _ _

theorem plans_safe_cap : CoreSession.new capEnv 0 (some 7) "{}" "{}" 1000000 = .ok capSession ∧
    PlansSafe capEnv ⟨fun _ => false, capSession⟩
      [.plan "{}" 1000000, .evaluate "p7-1" "{}" 1000001, .evaluate "p7-1" "{}" 1000002] :=
  ⟨new_capEnv, plans_safe new_capEnv _ _⟩

end Dambi
