import Dambi.Session.Decision

/-!
# The scam channel does not interfere

The scam channel shares the clock with the evaluation and is composed into its
report. With a clock that always reads the same, two runs that differ in the
scam input and in everything the channel computes have one policy report, so
their answers differ by one reason and by `warn` for `allow` at most.
-/

namespace Dambi

open Oracle

variable {δ : Type}

/-! ## A steady clock -/

/-- Every reading of the clock is `t`. -/
def SteadyClock (clock : Option ClockReadings) (now t : Nat) : Prop :=
  ∀ reads, clock.elim now (· reads) = t

/-- What the last reading of a steady clock is, and whether it was refused. -/
def steadyReading (now t : Nat) : Nat × Bool :=
  if maxSafeInteger < t ∨ t < now then (maxSafeInteger + 1, true) else (t, false)

private def SteadyState (now t : Nat) (c : ClockState) : Prop :=
  if maxSafeInteger < t ∨ t < now then c.previous = now
  else c.invalid = false ∧ c.previous ≤ t

private theorem readClock_steady {cl : Option ClockReadings} {now t : Nat} {c : ClockState}
    (h : SteadyClock cl now t) (hc : SteadyState now t c) :
    SteadyState now t (readClock cl now c).2 ∧
      ((readClock cl now c).1, (readClock cl now c).2.invalid) = steadyReading now t := by
  unfold SteadyState steadyReading at *
  simp only [readClock, h c.reads]
  by_cases hb : maxSafeInteger < t ∨ t < now
  · rw [if_pos hb] at hc
    have hr : maxSafeInteger < t ∨ t < c.previous := hc ▸ hb
    simp only [hb, hr, if_true]
    exact ⟨hc, trivial⟩
  · rw [if_neg hb] at hc
    have ha : ¬ (maxSafeInteger < t ∨ t < c.previous) := by omega
    simp only [hb, ha, if_false]
    exact ⟨⟨hc.1, le_rfl⟩, by rw [hc.1]⟩

variable {t : Nat}

theorem lastReading_steady (env : SessionEnv δ) (w : SessionWorld δ) {ca : EvaluationCall}
    (plan : PendingPlan δ) (h : SteadyClock ca.clock ca.now t) :
    (ca.evaluatedAt env w plan, ca.clockInvalid env w plan) = steadyReading ca.now t := by
  have hs : SteadyState ca.now t { previous := ca.now } := by
    unfold SteadyState
    split
    · rfl
    · next hg => exact ⟨rfl, Nat.not_lt.1 fun hl => hg (.inr hl)⟩
  -- however often the channel reads the clock, its state stays steady
  have hch := Program.run_invariant (I := SteadyState ca.now t)
    (fun c hc => (readClock_steady h hc).1)
    (scamChannel env w.session.limits ca.planId plan ca.factsText ca.now ca.failure
      ca.scamInput) hs
  exact (readClock_steady h hch).2

/-! ## Two runs -/

/-- Two reports that the scam channel made of one policy report. -/
structure EvaluationReport.AgreeUpToScam (a b : EvaluationReport) : Prop where
  source : a.source = b.source
  facts : a.facts = b.facts
  diagnostics : a.diagnostics = b.diagnostics
  metadata : a.metadata = b.metadata
  reasons : ∃ reasons, (a.reasons = reasons ∨ a.reasons = reasons ++ [scamRiskReason]) ∧
    (b.reasons = reasons ∨ b.reasons = reasons ++ [scamRiskReason])
  decision : a.decision = b.decision ∨
    a.decision = .allow ∧ b.decision = .warn ∨ a.decision = .warn ∧ b.decision = .allow

theorem EvaluationReport.Composed.agree {p a b : EvaluationReport} (ha : p.Composed a)
    (hb : p.Composed b) : a.AgreeUpToScam b where
  source := ha.source.trans hb.source.symm
  facts := ha.facts.trans hb.facts.symm
  diagnostics := ha.diagnostics.trans hb.diagnostics.symm
  metadata := ha.metadata.trans hb.metadata.symm
  reasons := ⟨p.reasons, ha.verdict.imp And.right And.right, hb.verdict.imp And.right And.right⟩
  decision := by
    obtain ⟨hda, -⟩ | ⟨hda, -⟩ := ha.verdict
    · obtain ⟨hd, -⟩ | ⟨hd, -⟩ := hb.verdict
      · exact .inl (hda.trans hd.symm)
      · rw [hda, hd]
        cases p.decision <;> decide
    · obtain ⟨hd, -⟩ | ⟨hd, -⟩ := hb.verdict
      · rw [hda, hd]
        cases p.decision <;> decide
      · exact .inl (hda.trans hd.symm)

/-- Two answers that differ by the scam channel at most: both reports are what it made of
one policy report. -/
inductive SameOutcome : Except SessionError EvaluationReport →
    Except SessionError EvaluationReport → Prop
  | refused (error : SessionError) : SameOutcome (.error error) (.error error)
  | reported {policy a b : EvaluationReport} (ha : policy.Composed a) (hb : policy.Composed b)
      (h : a.AgreeUpToScam b) : SameOutcome (.ok a) (.ok b)

theorem policyReport_steady (env : SessionEnv δ) (kit : ScamKit) (w : SessionWorld δ)
    {c : EvaluationCall} (plan : PendingPlan δ) (h : SteadyClock c.clock c.now t) :
    c.policyReport { env with scam := kit } w plan =
      policyReport env w.lifecycles w.session.limits c.planId plan c.factsText c.failure
        (steadyReading c.now t).2 (steadyReading c.now t).1 := by
  rw [← lastReading_steady { env with scam := kit } w plan h]
  rfl

/-- With a steady clock, neither the scam input nor anything the channel computes shows in
the answer, but for one warning and its reason. -/
theorem scam_noninterference (env : SessionEnv δ) (kit kit' : ScamKit) (w : SessionWorld δ)
    (call : EvaluationCall) (scamInput : Option String) (clock : Option ClockReadings) {t : Nat}
    (h : SteadyClock call.clock call.now t) (h' : SteadyClock clock call.now t) :
    SameOutcome (call.run { env with scam := kit } w).1
      (EvaluationCall.run { env with scam := kit' } w { call with scamInput, clock }).1 := by
  unfold EvaluationCall.run CoreSession.evaluateInner
  dsimp only
  cases (do w.session.live w.lifecycles; sessionClock call.now : Except SessionError Unit) with
  | error error => exact .refused error
  | ok u =>
    dsimp only
    cases w.session.plans[call.planId]? with
    | none => exact .refused _
    | some plan =>
      dsimp only
      by_cases he : plan.expiresAt ≤ call.now
      · rw [if_pos he, if_pos he]
        cases call.check with
        | none => exact .refused _
        | some failure =>
          have hl := composed_composeScam ((expiredReport failure).finish
            w.session.enforcement (planMetadata plan.digest plan.snapshot))
            (plan.scam.map (·.failed kit .noTimeBudget))
          have hr := composed_composeScam ((expiredReport failure).finish
            w.session.enforcement (planMetadata plan.digest plan.snapshot))
            (plan.scam.map (·.failed kit' .noTimeBudget))
          exact .reported hl hr (hl.agree hr)
      · rw [if_neg he, if_neg he]
        have hl := call.composed_evaluatePlan { env with scam := kit } w plan
        have hr := EvaluationCall.composed_evaluatePlan { env with scam := kit' } w
          { call with scamInput, clock } plan
        rw [policyReport_steady env kit w plan h] at hl
        rw [policyReport_steady env kit' w plan h'] at hr
        exact .reported hl hr (hl.agree hr)

/-! ## A session whose scam channel warns -/

def watchConfig : ScamConfig where
  settings := ⟨true, "default", [], [], "en"⟩
  env := "staging"
  profile := "default"
  keys := []
  limits := {
    scamTimeoutMs := 5000
    scamEvalReserveMs := 100
    maxBundleBytes := 4096
    maxResultBytes := 4096
    maxCalls := 8
    maxTargets := 4
    maxRules := 8
    maxPoints := 64 }

/-- Every action is about the token `0xa`, and the analysis of it warns. -/
def watchKit : ScamKit :=
  { idleScamKit with
    effectivePair := fun _ _ _ => .ok ⟨"swap", .null, ⟨[.str "drain"], .null⟩, ⟨[], .null⟩⟩
    hash := fun _ _ => .ok "0x5e"
    subject := fun _ _ => .subject ⟨1, "0xa", "0xb", "0xc", "0xd", "uniswap_v2", ["0"]⟩ .null
    inputFromValue := fun _ => some (.data "p7-1" [])
    encodedLength := fun _ => some 256
    analyzeTarget := fun _ _ _ _ _ _ _ _ _ _ =>
      pure (.ok (.obj [("reasons", .arr []), ("status", .str "warn")])) }

/-- The sample session with a scam channel. -/
def watchEnv : SessionEnv Unit :=
  { capEnv with
    configFromText := fun text =>
      (capEnv.configFromText text).map fun config => { config with scam := some watchConfig }
    scam := watchKit }

def watchSession : CoreSession Unit :=
  Fallible.result (CoreSession.new watchEnv 0 (some 7) "{}" "{}" 1000000) (by decide +kernel)

def watchPlanned : SessionWorld Unit :=
  let installed : Installed := {
    bundle := ⟨"1", 0, 2000000, some .null, [], []⟩
    digest := "0xd1"
    builderVersion := "dambi-v2/2"
    module_ := some .null }
  sessionAfter watchEnv
    ⟨fun _ => false, { watchSession with scam := some ⟨watchConfig, some installed⟩ }⟩
    [.plan "{}" 1000000]

/-- An evaluation of the plan with a scam input. -/
def watchCall : EvaluationCall where
  planId := "p7-1"
  factsText := "{}"
  now := 1000001
  scamInput := some "{}"
  clock := some fun _ => 1000001

/-- A warning of the channel and a channel that has nothing to say. -/
theorem scam_noninterference_watched :
    (watchCall.run { watchEnv with scam := watchKit } watchPlanned).1.toOption.map (·.decision) =
      some .warn ∧
    (EvaluationCall.run { watchEnv with scam := idleScamKit } watchPlanned { watchCall with
      scamInput := none, clock := none }).1.toOption.map (·.decision) = some .allow ∧
    SameOutcome (watchCall.run { watchEnv with scam := watchKit } watchPlanned).1
      (EvaluationCall.run { watchEnv with scam := idleScamKit } watchPlanned { watchCall with
        scamInput := none, clock := none }).1 :=
  ⟨by decide +kernel, by decide +kernel,
    scam_noninterference watchEnv watchKit idleScamKit watchPlanned watchCall none none
      (fun _ => rfl) (fun _ => rfl)⟩

end Dambi
