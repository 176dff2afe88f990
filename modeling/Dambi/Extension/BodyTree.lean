import Mathlib.Data.List.TakeWhile
import Dambi.Action
import Dambi.Lib.Fallible
import Dambi.Policy.Verdict

/-!
# Verdicts of decoded requests

`orchestrator.ts`: a transaction or a typed signature that has been decoded is evaluated
position by position, and the verdicts of all positions are aggregated. What the engine
and the policy RPC answer at a position is an input here, a thrown error included.

A step that throws ends the walk over its action, together with the verdicts that the walk
had collected.
-/

namespace Dambi.Extension.Orchestrator

open List

/-! ## Verdicts -/

inductive MatchOrigin where
  | action
  | tx
  | engineError
deriving DecidableEq, Repr

structure MatchedPolicyDto where
  policyId : String
  reason : Option String
  severity : Severity
  origin : MatchOrigin
deriving DecidableEq, Repr

inductive VerdictDto where
  | pass
  | warn (matched : List MatchedPolicyDto)
  | fail (matched : List MatchedPolicyDto)
deriving DecidableEq, Repr

namespace VerdictDto

def matched : VerdictDto → List MatchedPolicyDto
  | .pass => []
  | .warn matched | .fail matched => matched

def isFail : VerdictDto → Bool
  | .fail _ => true
  | _ => false

def isWarn : VerdictDto → Bool
  | .warn _ => true
  | _ => false

/-- A verdict of the extension's own. -/
def engineWarn (policyId reason : String) : VerdictDto :=
  .warn [⟨policyId, some reason, .warn, .engineError⟩]

theorem eq_pass_iff {v : VerdictDto} : v = .pass ↔ v.isFail = false ∧ v.isWarn = false := by
  cases v <;> simp [isFail, isWarn]

end VerdictDto

structure EngineError where
  kind : String
  message : String
deriving DecidableEq, Repr

/-- What a step throws: an `EngineError`, or anything else. -/
inductive Thrown where
  | engine (error : EngineError)
  | other (message : String)
deriving DecidableEq, Repr

def Thrown.engineError : Thrown → Option EngineError
  | .engine error => some error
  | .other _ => none

def partialDecodeVerdict : VerdictDto :=
  .engineWarn "__engine::partial_decode"
    "Part of this batch could not be decoded — review before signing"

def noDecoderVerdict : VerdictDto :=
  .engineWarn "__engine::no_decoder" "Transaction type not recognized by any installed decoder"

def evaluateFaultVerdict : Option EngineError → VerdictDto
  | none => noDecoderVerdict
  | some error => .engineWarn s!"__engine::{error.kind}" error.message

def aggregateV2Verdicts (verdicts : List VerdictDto) : VerdictDto :=
  let matched := verdicts.flatMap VerdictDto.matched
  if verdicts.any VerdictDto.isFail then .fail matched
  else if verdicts.any VerdictDto.isWarn then .warn matched
  else .pass

theorem isFail_aggregateV2Verdicts (vs : List VerdictDto) :
    (aggregateV2Verdicts vs).isFail = vs.any VerdictDto.isFail := by
  unfold aggregateV2Verdicts
  split_ifs with hfail hwarn <;> simp_all [VerdictDto.isFail]

theorem aggregateV2Verdicts_eq_pass {vs : List VerdictDto} :
    aggregateV2Verdicts vs = .pass ↔ ∀ v ∈ vs, v = .pass := by
  unfold aggregateV2Verdicts
  split_ifs with hfail hwarn <;> simp_all [VerdictDto.eq_pass_iff]
  grind

/-! ## One action -/

/-- The answers at one position: whether the plan has calls, and what follows. -/
structure PositionSteps where
  planActionRpcV2 : Except Thrown Bool
  dispatchCallsV2 : Except Thrown Unit
  evaluateActionV2 : Except Thrown VerdictDto

def PositionSteps.run (steps : PositionSteps) : Except Thrown VerdictDto := do
  let planned ← steps.planActionRpcV2
  if planned then steps.dispatchCallsV2 else pure ()
  steps.evaluateActionV2

mutual

/-- `steps` gives the answers at each path below the body. -/
def evaluateBodyTree (steps : List Nat → PositionSteps) :
    ActionBody → Except Thrown (List VerdictDto)
  | .domain _ => do return [← (steps []).run]
  | .unknown .. => return [partialDecodeVerdict]
  | .multicall children => do
    let verdict ← (steps []).run
    return verdict :: (← evaluateChildren steps 0 children)

def evaluateChildren (steps : List Nat → PositionSteps) (index : Nat) :
    List ActionBody → Except Thrown (List VerdictDto)
  | [] => return []
  | child :: rest => do
    let verdicts ← evaluateBodyTree (fun path => steps (index :: path)) child
    return verdicts ++ (← evaluateChildren steps (index + 1) rest)

end

mutual

/-- What each position of a body would contribute, in the order of the walk. -/
def outcomes (steps : List Nat → PositionSteps) : ActionBody → List (Except Thrown VerdictDto)
  | .domain _ => [(steps []).run]
  | .unknown .. => [.ok partialDecodeVerdict]
  | .multicall children => (steps []).run :: outcomesAll steps 0 children

def outcomesAll (steps : List Nat → PositionSteps) (index : Nat) :
    List ActionBody → List (Except Thrown VerdictDto)
  | [] => []
  | child :: rest =>
    outcomes (fun path => steps (index :: path)) child ++ outcomesAll steps (index + 1) rest

end

mutual

theorem evaluateBodyTree_eq : ∀ (steps : List Nat → PositionSteps) (body : ActionBody),
    evaluateBodyTree steps body = (outcomes steps body).mapM id
  | steps, .domain _ => by simp [evaluateBodyTree, outcomes]
  | steps, .unknown .. => by simp [evaluateBodyTree, outcomes]; rfl
  | steps, .multicall children => by
    simp [evaluateBodyTree, outcomes, evaluateChildren_eq steps 0 children]

theorem evaluateChildren_eq : ∀ (steps : List Nat → PositionSteps) (index : Nat)
    (children : List ActionBody),
    evaluateChildren steps index children = (outcomesAll steps index children).mapM id
  | steps, index, [] => by simp [evaluateChildren, outcomesAll]
  | steps, index, child :: re => by
    simp [evaluateChildren, outcomesAll, evaluateBodyTree_eq _ child,
      evaluateChildren_eq steps (index + 1) re]

end

/-- An action of a decoded request, and the answers at its positions. -/
structure DecodedAction where
  body : ActionBody
  steps : List Nat → PositionSteps

namespace DecodedAction

variable (a : DecodedAction)

def evaluate : Except Thrown (List VerdictDto) :=
  evaluateBodyTree a.steps a.body

def outcomes : List (Except Thrown VerdictDto) :=
  Orchestrator.outcomes a.steps a.body

/-- No step of the action throws. -/
def Returns : Prop :=
  ∀ o ∈ a.outcomes, o.isOk = true

/-- Some position that the walk reached was evaluated to a failure. -/
def EvaluatedToFail : Prop :=
  ∃ matched, .ok (.fail matched) ∈ a.outcomes.takeWhile Except.isOk

theorem evaluate_cases :
    (a.Returns ∧ ∃ vs, a.evaluate = .ok vs ∧ ∀ v, v ∈ vs ↔ .ok v ∈ a.outcomes) ∨
    (¬ a.Returns ∧ ∃ e, a.evaluate = .error e) := by
  rw [evaluate, evaluateBodyTree_eq]
  cases h : (Orchestrator.outcomes a.steps a.body).mapM id with
  | ok vs =>
    refine .inl ⟨?_, vs, rfl, fun v => ⟨fun hv => ?_, fun hv => ?_⟩⟩
    · intro o ho
      obtain ⟨v, -, hv⟩ := Fallible.exists_mem_of_mapM h ho
      cases hv
      rfl
    · obtain ⟨o, ho, hv⟩ := Fallible.exists_of_mem_mapM h hv
      exact hv ▸ ho
    · obtain ⟨w, hw, hv⟩ := Fallible.exists_mem_of_mapM h hv
      cases hv
      exact hw
  | error e =>
    refine .inr ⟨fun hr => ?_, e, rfl⟩
    have hok : ∀ o ∈ Orchestrator.outcomes a.steps a.body, ∃ v, id o = .ok v := by
      intro o ho
      cases o with
      | ok v => exact ⟨v, rfl⟩
      | error e => exact absurd (hr _ ho) Bool.false_ne_true
    obtain ⟨vs, hok⟩ := Fallible.exists_mapM_eq_ok hok
    cases h.symm.trans hok

theorem evaluatedToFail_of_returns (h : a.Returns) :
    a.EvaluatedToFail ↔ ∃ matched, .ok (.fail matched) ∈ a.outcomes := by
  rw [EvaluatedToFail, takeWhile_eq_self_iff.2 h]

end DecodedAction

/-! ## All actions -/

/-- The state of the loop over the actions. -/
structure LegTally where
  verdicts : List VerdictDto := []
  anyLegThrew : Bool := false
  firstEngineError : Option EngineError := none

def LegTally.add (t : LegTally) (a : DecodedAction) : LegTally :=
  match a.evaluate with
  | .ok verdicts => { t with verdicts := t.verdicts ++ verdicts }
  | .error err =>
    { t with
      anyLegThrew := true
      firstEngineError := t.firstEngineError.or err.engineError }

def evaluateLegs (actions : List DecodedAction) : LegTally :=
  actions.foldl LegTally.add {}

theorem mem_foldl_add (actions : List DecodedAction) (t : LegTally) :
    (∀ v, v ∈ (actions.foldl LegTally.add t).verdicts ↔
      v ∈ t.verdicts ∨ ∃ a ∈ actions, a.Returns ∧ .ok v ∈ a.outcomes) ∧
    ((actions.foldl LegTally.add t).anyLegThrew = true ↔
      t.anyLegThrew = true ∨ ∃ a ∈ actions, ¬ a.Returns) := by
  induction actions generalizing t with
  | nil => simp
  | cons a actions ih =>
    rw [foldl_cons]
    obtain ⟨hr, vs, ho, hm⟩ | ⟨ht, e, he⟩ := a.evaluate_cases
    · simp [LegTally.add, ho, ih, hr, hm, or_assoc]
    · simp [LegTally.add, he, ih, ht]

variable {actions : List DecodedAction}

theorem mem_verdicts {v : VerdictDto} :
    v ∈ (evaluateLegs actions).verdicts ↔ ∃ a ∈ actions, a.Returns ∧ .ok v ∈ a.outcomes := by
  simpa [evaluateLegs] using (mem_foldl_add actions {}).1 v

theorem anyLegThrew_iff :
    (evaluateLegs actions).anyLegThrew = true ↔ ∃ a ∈ actions, ¬ a.Returns := by
  simpa [evaluateLegs] using (mem_foldl_add actions {}).2

inductive VerdictSource where
  | declarativeV2
  | failClosed
deriving DecidableEq, Repr

structure LifecycleResult where
  verdict : VerdictDto
  verdictSource : VerdictSource
deriving DecidableEq, Repr

/-- Bodies that are `unknown` are passed over. -/
def realActions (actions : List DecodedAction) : List DecodedAction :=
  actions.filter fun a => !a.body.isUnknown

structure V2PathResult where
  verdict : Option VerdictDto := none
  fault : Option EngineError := none

/-- `resolved` is the lookup of the wallet's bundles: whether there is one. -/
def tryV2VerdictPath (resolved : Except Thrown Bool) (actions : List DecodedAction) :
    Except Thrown V2PathResult :=
  if (realActions actions).isEmpty then .ok {}
  else do
    if ← resolved then
      let legs := evaluateLegs (realActions actions)
      let aggregate := aggregateV2Verdicts legs.verdicts
      if aggregate.isFail then .ok { verdict := some aggregate }
      else if legs.anyLegThrew then .ok { fault := legs.firstEngineError }
      else .ok { verdict := some aggregate }
    else .ok {}

variable (routed : Option (List DecodedAction)) (resolved : Except Thrown Bool)

/-- The part of `runLifecycle` for a transaction; `routed` is empty unless a decoder hit. -/
def transactionLifecycle :
    Except Thrown LifecycleResult := do
  let v2 ← match routed with
    | some actions => tryV2VerdictPath resolved actions
    | none => .ok {}
  match v2.verdict with
  | some verdict => .ok ⟨verdict, .declarativeV2⟩
  | none => .ok ⟨evaluateFaultVerdict v2.fault, .failClosed⟩

def typedSignatureLifecycle : Except Thrown LifecycleResult :=
  match routed with
  | none => .ok ⟨noDecoderVerdict, .failClosed⟩
  | some actions =>
    if (realActions actions).isEmpty then .ok ⟨noDecoderVerdict, .failClosed⟩
    else do
      if ← resolved then
        let legs := evaluateLegs (realActions actions)
        let aggregate := aggregateV2Verdicts legs.verdicts
        if !aggregate.isFail && legs.anyLegThrew then
          .ok ⟨evaluateFaultVerdict legs.firstEngineError, .failClosed⟩
        else .ok ⟨aggregate, .declarativeV2⟩
      else .ok ⟨.pass, .declarativeV2⟩

inductive DecodedKind where
  | transaction
  | typedSignature

def DecodedKind.lifecycle : DecodedKind → Option (List DecodedAction) → Except Thrown Bool →
    Except Thrown LifecycleResult
  | .transaction => transactionLifecycle
  | .typedSignature => typedSignatureLifecycle

/-! ## Aggregation -/

namespace DecodedAction

def Passes (a : DecodedAction) : Prop :=
  ∀ o ∈ a.outcomes, o = .ok .pass

theorem Passes.returns {a : DecodedAction} (h : a.Passes) : a.Returns := by
  intro o ho
  rw [h o ho]
  rfl

theorem not_unknown_of_fail {matched : List MatchedPolicyDto}
    {a : DecodedAction} (h : .ok (.fail matched) ∈ a.outcomes) :
    a.body.isUnknown = false := by
  rcases a with ⟨body, steps⟩
  cases body with
  | unknown target chain c value =>
    simp [outcomes, Orchestrator.outcomes, partialDecodeVerdict, VerdictDto.engineWarn] at h
  | domain ac => rfl
  | multicall children => rfl

end DecodedAction

mutual

theorem partialDecode_mem_outcomes : ∀ (steps : List Nat → PositionSteps) (body : ActionBody),
    body.hasUnknown = true → .ok partialDecodeVerdict ∈ outcomes steps body
  | _, .domain _, h => by simp [ActionBody.hasUnknown] at h
  | _, .unknown .., _ => by simp [outcomes]
  | steps, .multicall children, h => by
    have := partialDecode_mem_outcomesAll steps 0 children
      (by simpa [ActionBody.hasUnknown] using h)
    simp [outcomes, this]

theorem partialDecode_mem_outcomesAll : ∀ (steps : List Nat → PositionSteps) (index : Nat)
    (children : List ActionBody), ActionBody.anyUnknown children = true →
    .ok partialDecodeVerdict ∈ outcomesAll steps index children
  | _, _, [], h => by simp [ActionBody.anyUnknown] at h
  | steps, index, child :: re, h => by
    simp only [ActionBody.anyUnknown, Bool.or_eq_true] at h
    rw [outcomesAll, mem_append]
    exact h.imp (partialDecode_mem_outcomes _ child)
      (partialDecode_mem_outcomesAll steps (index + 1) re)

end

theorem DecodedAction.Passes.hasUnknown {a : DecodedAction} (h : a.Passes) :
    a.body.hasUnknown = false := by
  refine Bool.eq_false_iff.2 fun hu => ?_
  have := h _ (partialDecode_mem_outcomes a.steps a.body hu)
  simp [partialDecodeVerdict, VerdictDto.engineWarn] at this

section

variable {kind : DecodedKind} {actions : List DecodedAction} {r : LifecycleResult}

theorem mem_realActions {a : DecodedAction} :
    a ∈ realActions actions ↔ a ∈ actions ∧ a.body.isUnknown = false := by
  simp [realActions]

section

variable (h : kind.lifecycle (some actions) (.ok true) = .ok r)
include h

/-- Both paths give the aggregate, or warn: without an action to evaluate, and where a step has
thrown and nothing that returned fails. -/
theorem DecodedKind.lifecycle_cases :
    let ls := evaluateLegs (realActions actions)
    let aggregate := aggregateV2Verdicts ls.verdicts
    (r.verdict = aggregate ∧ realActions actions ≠ [] ∧
      (aggregate.isFail = true ∨ ls.anyLegThrew = false)) ∨
    ((∃ matched, r.verdict = .warn matched) ∧ aggregate.isFail = false ∧
      (realActions actions = [] ∨ ls.anyLegThrew = true)) := by
  intro ls aggregate
  by_cases he : realActions actions = []
  · have hr : r = ⟨noDecoderVerdict, .failClosed⟩ := by
      cases kind <;> simp_all [lifecycle, transactionLifecycle, tryV2VerdictPath,
        typedSignatureLifecycle, evaluateFaultVerdict]
    subst hr
    refine .inr ⟨⟨_, rfl⟩, ?_, .inl he⟩
    simp [aggregate, ls, he, evaluateLegs, aggregateV2Verdicts, VerdictDto.isFail]
  · have hs : (realActions actions).isEmpty = false := by simpa using he
    obtain ⟨matched, hfl⟩ : ∃ matched,
        evaluateFaultVerdict ls.firstEngineError = .warn matched := by
      cases ls.firstEngineError <;> exact ⟨_, rfl⟩
    cases hf : aggregate.isFail <;> cases ht : ls.anyLegThrew <;> cases kind <;>
      simp [lifecycle, transactionLifecycle, tryV2VerdictPath, typedSignatureLifecycle, hs,
        ls, aggregate, hf, ht] at h <;>
      subst h <;> simp_all [ls, aggregate]

theorem isFail_iff :
    r.verdict.isFail = true ↔
      ∃ a ∈ actions, a.Returns ∧ ∃ matched, .ok (.fail matched) ∈ a.outcomes := by
  have hag : r.verdict.isFail =
      (evaluateLegs (realActions actions)).verdicts.any VerdictDto.isFail := by
    rw [← isFail_aggregateV2Verdicts]
    obtain ⟨hr, -⟩ | ⟨⟨matched, hr⟩, hf, -⟩ := DecodedKind.lifecycle_cases h
    · rw [hr]
    · rw [hr, hf]
      rfl
  rw [hag, any_eq_true]
  constructor
  · rintro ⟨v, hv, hf⟩
    obtain ⟨a, ha, hre, hm⟩ := mem_verdicts.1 hv
    cases v with
    | fail matched => exact ⟨a, (mem_realActions.1 ha).1, hre, matched, hm⟩
    | pass => cases hf
    | warn matched => cases hf
  · rintro ⟨a, ha, hre, matched, hm⟩
    have hu := a.not_unknown_of_fail hm
    exact ⟨_, mem_verdicts.2 ⟨a, mem_realActions.2 ⟨ha, hu⟩, hre, hm⟩, rfl⟩

theorem eq_pass_iff :
    r.verdict = .pass ↔ realActions actions ≠ [] ∧ ∀ a ∈ realActions actions, a.Passes := by
  obtain ⟨hr, hn, ht⟩ | ⟨⟨matched, hr⟩, -, hw⟩ := DecodedKind.lifecycle_cases h
  · rw [hr, aggregateV2Verdicts_eq_pass]
    constructor
    · intro hp
      have hag := aggregateV2Verdicts_eq_pass.2 hp
      have hre : ∀ a ∈ realActions actions, a.Returns := by
        simpa [hag, VerdictDto.isFail, ← Bool.not_eq_true, anyLegThrew_iff] using ht
      refine ⟨hn, fun a ha o ho => ?_⟩
      cases o with
      | ok v => rw [hp v (mem_verdicts.2 ⟨a, ha, hre a ha, ho⟩)]
      | error e => cases hre a ha _ ho
    · rintro ⟨-, hp⟩ v hv
      obtain ⟨a, ha, -, hm⟩ := mem_verdicts.1 hv
      simpa using hp a ha _ hm
  · simp only [hr, reduceCtorEq, false_iff, not_and]
    intro hn hp
    obtain ⟨a, ha, hth⟩ := anyLegThrew_iff.1 (hw.resolve_left hn)
    exact hth (hp a ha).returns

end

theorem DecodedKind.exists_lifecycle (kind : DecodedKind) (actions : List DecodedAction) :
    ∃ r, kind.lifecycle (some actions) (.ok true) = .ok r := by
  cases kind with
  | transaction =>
    simp only [lifecycle, transactionLifecycle, tryV2VerdictPath, Fallible.ok_bind]
    split_ifs <;> exact ⟨_, rfl⟩
  | typedSignature =>
    simp only [lifecycle, typedSignatureLifecycle, Fallible.ok_bind]
    split_ifs <;> exact ⟨_, rfl⟩

end

/-- A computed failure fails the request, and with a bundle to evaluate a request passes only
if every position of every action was evaluated to pass. -/
structure Aggregates (actions : List DecodedAction) (resolved : Except Thrown Bool)
    (lifecycle : Except Thrown LifecycleResult) : Prop where
  fail : ∀ r, lifecycle = .ok r → resolved = .ok true →
    (∃ a ∈ actions, a.EvaluatedToFail) → r.verdict.isFail = true
  pass : ∀ r, lifecycle = .ok r → resolved = .ok true → r.verdict = .pass →
    ∀ a ∈ actions, a.body.hasUnknown = false ∧ a.Passes

/-- Verdicts are aggregated as intended exactly if no action loses a failure to a later throw,
or another action fails as well, and no `unknown` action stands beside actions that all pass. -/
theorem verdict_aggregates_iff (kind : DecodedKind) (actions : List DecodedAction)
    (resolved : Except Thrown Bool) :
    Aggregates actions resolved (kind.lifecycle (some actions) resolved) ↔
      (resolved = .ok true →
        ((∃ a ∈ actions, a.Returns ∧ a.EvaluatedToFail) ∨
          ∀ a ∈ actions, a.EvaluatedToFail → a.Returns) ∧
        ((∀ a ∈ actions, a.body.isUnknown = false) ∨ (∀ a ∈ actions, a.body.isUnknown = true) ∨
          ∃ a ∈ actions, a.body.isUnknown = false ∧ ¬ a.Passes)) := by
  constructor
  · rintro ⟨hf, hps⟩ rfl
    obtain ⟨r, hr⟩ := kind.exists_lifecycle actions
    constructor
    · by_cases hex : ∃ a ∈ actions, a.EvaluatedToFail
      · obtain ⟨a, ha, hre, hm⟩ := (isFail_iff hr).1 (hf r hr rfl hex)
        exact .inl ⟨a, ha, hre, (a.evaluatedToFail_of_returns hre).2 hm⟩
      · exact .inr fun a ha hfa => absurd ⟨a, ha, hfa⟩ hex
    · by_contra! hnone
      obtain ⟨⟨b, hb, hu⟩, ⟨c, hc, hk⟩, hp⟩ := hnone
      have hrl : realActions actions ≠ [] :=
        ne_nil_of_mem (mem_realActions.2 ⟨hc, by simpa using hk⟩)
      have hr' := (eq_pass_iff hr).2 ⟨hrl, fun a ha =>
        hp a (mem_realActions.1 ha).1 (mem_realActions.1 ha).2⟩
      have hn := (hps r hr rfl hr' b hb).1
      rw [ActionBody.hasUnknown_of_isUnknown (by simpa using hu)] at hn
      cases hn
  · intro h
    constructor
    · rintro r hr rfl ⟨a, ha, hf⟩
      rw [isFail_iff hr]
      obtain ⟨b, hb, hre, hbf⟩ | hall := (h rfl).1
      · exact ⟨b, hb, hre, (b.evaluatedToFail_of_returns hre).1 hbf⟩
      · exact ⟨a, ha, hall a ha hf, (a.evaluatedToFail_of_returns (hall a ha hf)).1 hf⟩
    · rintro r hr rfl hps a ha
      obtain ⟨hrl, hp⟩ := (eq_pass_iff hr).1 hps
      obtain hk | hu | ⟨b, hb, hk, hn⟩ := (h rfl).2
      · have := hp a (mem_realActions.2 ⟨ha, hk a ha⟩)
        exact ⟨this.hasUnknown, this⟩
      · exact absurd (filter_eq_nil_iff.2 fun b hb => by simp [hu b hb]) hrl
      · exact absurd (hp b (mem_realActions.2 ⟨hb, hk⟩)) hn

/-- The answers of a plan without calls. -/
def answers (verdict : Except Thrown VerdictDto) : PositionSteps :=
  ⟨.ok false, .ok (), verdict⟩

def sampleLeaf : ActionBody :=
  .domain { domain := .token, actionTag := "erc20_transfer" }

/-- A batch whose first child fails and whose second child throws. -/
def failsThenThrows : DecodedAction :=
  ⟨.multicall [sampleLeaf, sampleLeaf], fun path =>
    answers (if path = [0] then .ok (.fail [])
      else if path = [1] then .error (.other "rpc") else .ok .pass)⟩

def passesLeaf : DecodedAction := ⟨sampleLeaf, fun _ => answers (.ok .pass)⟩

def skipped : DecodedAction := ⟨.unknown 0 "1" "0x" 0, fun _ => answers (.ok .pass)⟩

/-- The failure of a batch is lost to a later throw, and a request passes with an action that
is unknown. -/
theorem verdict_lost :
    ¬ Aggregates [failsThenThrows] (.ok true)
        (transactionLifecycle (some [failsThenThrows]) (.ok true)) ∧
      ¬ Aggregates [passesLeaf, skipped] (.ok true)
        (transactionLifecycle (some [passesLeaf, skipped]) (.ok true)) := by
  constructor
  · intro h
    have hf : failsThenThrows.EvaluatedToFail := ⟨[], by decide⟩
    cases h.fail ⟨noDecoderVerdict, .failClosed⟩ (by decide) rfl ⟨_, mem_singleton_self _, hf⟩
  · intro h
    cases (h.pass ⟨.pass, .declarativeV2⟩ (by decide) rfl rfl skipped (by simp)).1

end Dambi.Extension.Orchestrator
