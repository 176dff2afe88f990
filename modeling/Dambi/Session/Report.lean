import Dambi.Runtime.Basic

/-!
# The report of an evaluation

The nodes of a plan and the `Report` that an evaluation accumulates over them
(`session/mod.rs`). A report has a rank, which only rises, and a flag that some
part of the evaluation failed; the decision is read off the rank and the source
off the flag. The lemmas give the effect of every operation on these two.
-/

namespace Dambi

structure SessionError where
  code : String
  message : String
deriving DecidableEq, Repr

/-! ## Nodes -/

structure Call where
  id : String
  runtime : PlannedCallV2

/-- One node of the decoded action tree, with what was planned for it. -/
structure Node where
  path : List Nat
  action : ActionBody
  actionMeta : ActionMeta
  tx : TxInput
  calls : List Call
  planningError : Option SessionError
  matched : Bool

/-! ## The report -/

inductive Decision where
  | allow
  | warn
  | deny
deriving DecidableEq, Repr

inductive Source where
  | evaluated
  | failClosed
deriving DecidableEq, Repr

inductive ReasonOrigin where
  | engineError
  | action
  | tx
  | scam
deriving DecidableEq, Repr

structure Reason where
  policyId : String
  reason : Option String
  severity : Severity
  origin : ReasonOrigin
deriving DecidableEq, Repr

structure Diagnostic where
  code : String
  message : String
  callId : Option String
  nodePath : Option (List Nat)
deriving DecidableEq, Repr

/-- The accumulator of an evaluation. Its rank is a `u8` that is only ever 0, 1 or 2. -/
structure Report where
  rank : Fin 3 := 0
  failed : Bool := false
  reasons : List Reason := []
  facts : List Json := []
  diagnostics : List Diagnostic := []

def PolicyRequestOrigin.reasonOrigin : PolicyRequestOrigin → ReasonOrigin
  | .action => .action
  | .tx => .tx

namespace Report

variable (r : Report) (code message : String) (call : Option String) (path : Option (List Nat))

def diagnostic : Report :=
  { r with diagnostics := r.diagnostics ++ [⟨code, message, call, path⟩] }

def engineReason (severity : Severity) : Reason :=
  ⟨s!"__engine::{code}", some message, severity, .engineError⟩

def fail : Report :=
  { r with
    rank := 2
    failed := true
    reasons := r.reasons ++ [engineReason code message .deny] }.diagnostic code message call path

/-- `Report::partial`. -/
def partialDecode (message : String) (path : List Nat) : Report :=
  { r with
    rank := max r.rank 1
    reasons := r.reasons ++ [engineReason "partial_decode" message .warn] }.diagnostic
      "partial_decode" message none (some path)

/-- The diagnostic of the runtime's system marker: its call id is resolved back to
the id issued by the plan. -/
def systemDiagnostic (m : MatchedPolicy) (node : Node)
    (accepted : BTreeMap String Json) : Report :=
  let original := m.reason.bind (Text.stripStart · "rpc-unavailable: ")
  match node.calls.find? fun call => some call.runtime.callId = original with
  | some call =>
    if call.id ∈ accepted then
      r.diagnostic "projection_failed" "required Fact projection failed" (some call.id)
        (some node.path)
    else r
  | none =>
    r.diagnostic "engine_error" "runtime reported an unbound required Fact failure" none
      (some node.path)

/-- The body of the loop of `Report::engine` over the matched policies. -/
def recordMatched (node : Node) (accepted : BTreeMap String Json) (r : Report)
    (m : MatchedPolicy) : Report :=
  let r :=
    if m.policyId = systemPolicyId then
      { r with failed := true }.systemDiagnostic m node accepted
    else if Text.startsWith m.policyId "__engine::quarantine::" then
      r.diagnostic "bundle_quarantined" (m.reason.getD "policy bundle quarantined") none
        (some node.path)
    else r
  { r with reasons := r.reasons ++ [{
      policyId := m.policyId
      reason := m.reason
      severity := m.severity
      origin := m.origin.reasonOrigin }] }

def engine (verdict : Verdict) (node : Node) (accepted : BTreeMap String Json) :
    Report :=
  verdict.matched.foldl (recordMatched node accepted) { r with rank := max r.rank verdict.rank }

def decision : Decision :=
  match r.rank with
  | 0 => .allow
  | 1 => .warn
  | 2 => .deny

def source : Source := if r.failed then .failClosed else .evaluated

end Report

/-- `plan_metadata`, whose status is always `available`. -/
structure PlanMetadata where
  requestDigest : String
  policyVersion : String
  engineVersion : String := "policy-engine/0.1.0"
deriving DecidableEq, Repr

structure EvaluationReport where
  decision : Decision
  source : Source
  enforcement : String
  reasons : List Reason
  facts : List Json
  diagnostics : List Diagnostic
  metadata : PlanMetadata
  scam : Option Json := none

namespace Report

def finish (r : Report) (enforcement : String) (metadata : PlanMetadata) : EvaluationReport where
  decision := r.decision
  source := r.source
  enforcement
  reasons := r.reasons
  facts := r.facts
  diagnostics := r.diagnostics
  metadata

/-! ## Rank and failure -/

def topRank {α : Type} (rank : α → Fin 3) (xs : List α) : Fin 3 := (xs.map rank).foldr max 0

variable {α : Type} {rank : α → Fin 3} {xs : List α} {r : Report}

theorem topRank_eq_zero : topRank rank xs = 0 ↔ ∀ x ∈ xs, rank x = 0 := by
  induction xs with
  | nil => simp [topRank]
  | cons x xs ih =>
    have hm : ∀ a b : Fin 3, max a b = 0 ↔ a = 0 ∧ b = 0 := by decide
    rw [List.forall_mem_cons, ← ih]
    exact hm _ _

theorem topRank_eq_two : topRank rank xs = 2 ↔ ∃ x ∈ xs, rank x = 2 := by
  induction xs with
  | nil => simp [topRank]
  | cons x xs ih =>
    have hm : ∀ a b : Fin 3, max a b = 2 ↔ a = 2 ∨ b = 2 := by decide
    rw [List.exists_mem_cons_iff, ← ih]
    exact hm _ _

/-- What an operation does to the rank and the flag of a report. -/
structure Raised (r : Report) (rank : Fin 3) (failed : Bool) (r' : Report) : Prop where
  rank_eq : r'.rank = max r.rank rank
  failed_eq : r'.failed = (r.failed || failed)

namespace Raised

variable {r r' r'' : Report} {rank rank' : Fin 3} {failed failed' : Bool}

theorem refl (r : Report) : Raised r 0 false r := ⟨by simp, by simp⟩

theorem trans (h : Raised r rank failed r') (h' : Raised r' rank' failed' r'') :
    Raised r (max rank rank') (failed || failed') r'' :=
  ⟨by rw [h'.rank_eq, h.rank_eq, max_assoc], by rw [h'.failed_eq, h.failed_eq, Bool.or_assoc]⟩

theorem foldl {α : Type} {step : Report → α → Report} (rank : α → Fin 3) (failed : α → Bool)
    {xs : List α} (hs : ∀ r, ∀ x ∈ xs, Raised r (rank x) (failed x) (step r x)) (r : Report) :
    Raised r (topRank rank xs) (xs.any failed) (xs.foldl step r) := by
  induction xs generalizing r with
  | nil => exact refl r
  | cons x xs ih =>
    have hh := hs r x (List.mem_cons_self ..)
    have ht := ih (fun r y hy => hs r y (List.mem_cons_of_mem x hy)) (step r x)
    exact hh.trans ht

theorem withReasons (h : Raised r rank failed r') (reasons : List Reason) :
    Raised r rank failed { r' with reasons } := ⟨h.rank_eq, h.failed_eq⟩

end Raised

/-- The operation fails the report exactly when something is `bad`. -/
def FailsIf (r : Report) (bad : Bool) (r' : Report) : Prop :=
  Raised r (if bad then 2 else 0) bad r'

namespace FailsIf

variable {r r' r'' : Report} {bad bad' : Bool}

theorem refl (r : Report) : FailsIf r false r := Raised.refl r

theorem trans (h : FailsIf r bad r') (h' : FailsIf r' bad' r'') : FailsIf r (bad || bad') r'' := by
  have hr := Raised.trans h h'
  cases bad <;> cases bad' <;> exact hr

theorem foldl {α : Type} {step : Report → α → Report} (bad : α → Bool) {xs : List α}
    (hs : ∀ r, ∀ x ∈ xs, FailsIf r (bad x) (step r x)) (r : Report) :
    FailsIf r (xs.any bad) (xs.foldl step r) := by
  induction xs generalizing r with
  | nil => exact refl r
  | cons x xs ih =>
    have hh := hs r x (List.mem_cons_self ..)
    have ht := ih (fun r y hy => hs r y (List.mem_cons_of_mem x hy)) (step r x)
    exact hh.trans ht

end FailsIf

section

variable (r : Report) (code message : String) (c : Option String) (p : Option (List Nat))

theorem raised_diagnostic : Raised r 0 false (r.diagnostic code message c p) :=
  ⟨by simp [diagnostic], by simp [diagnostic]⟩

theorem raised_fail : Raised r 2 true (r.fail code message c p) :=
  ⟨(max_eq_right (Fin.le_last r.rank)).symm, by simp [fail, diagnostic]⟩

theorem failsIf_fail : FailsIf r true (r.fail code message c p) :=
  raised_fail r code message c p

end

theorem raised_partialDecode (r : Report) (message : String) (p : List Nat) :
    Raised r 1 false (r.partialDecode message p) :=
  ⟨rfl, by simp [partialDecode, diagnostic]⟩

theorem raised_systemDiagnostic (r : Report) (m : MatchedPolicy) (node : Node)
    (a : BTreeMap String Json) : Raised r 0 false (r.systemDiagnostic m node a) := by
  unfold systemDiagnostic
  dsimp only
  split
  · split
    · exact raised_diagnostic ..
    · exact .refl r
  · exact raised_diagnostic ..

theorem raised_recordMatched (node : Node) (a : BTreeMap String Json) (r : Report)
    (m : MatchedPolicy) : Raised r 0 (m.policyId == systemPolicyId) (recordMatched node a r m) := by
  unfold recordMatched
  apply Raised.withReasons
  split
  · next h =>
    have hm := raised_systemDiagnostic { r with failed := true } m node a
    exact ⟨hm.rank_eq, by simp [hm.failed_eq, h]⟩
  · next h =>
    have hb : (m.policyId == systemPolicyId) = false := beq_false_of_ne h
    rw [hb]
    split
    · exact raised_diagnostic ..
    · exact .refl r

theorem raised_engine (r : Report) (verdict : Verdict) (node : Node) (a : BTreeMap String Json) :
    Raised r verdict.rank (verdict.matched.any (·.policyId == systemPolicyId))
      (r.engine verdict node a) := by
  have hl := Raised.foldl (fun _ => 0) (fun m => m.policyId == systemPolicyId)
    (fun r m (_ : m ∈ verdict.matched) => raised_recordMatched node a r m)
    { r with rank := max r.rank verdict.rank }
  have hz : topRank (fun _ => 0) verdict.matched = 0 := topRank_eq_zero.2 fun _ _ => rfl
  rw [hz] at hl
  exact ⟨hl.rank_eq.trans (max_eq_left (Fin.zero_le _)), hl.failed_eq⟩

theorem decision_eq_allow : r.decision = .allow ↔ r.rank = 0 := by
  unfold decision
  match r.rank with
  | 0 | 1 | 2 => decide

theorem decision_eq_deny : r.decision = .deny ↔ r.rank = 2 := by
  unfold decision
  match r.rank with
  | 0 | 1 | 2 => decide

theorem source_eq_failClosed : r.source = .failClosed ↔ r.failed = true := by
  unfold source
  cases r.failed <;> decide

end Report

end Dambi
