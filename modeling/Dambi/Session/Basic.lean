import Dambi.Session.Scam

/-!
# Sessions and their plans

The state of `CoreSession` (`session/mod.rs`), what a session calls, and the
bookkeeping of its pending plans: eviction and the bounded list of tombstones.
-/

namespace Dambi

open Fallible

variable {δ : Type}

/-- `config::Limits`. -/
structure SessionLimits where
  maxBundleAgeSec : Option Nat
  allowedClockSkewMs : Nat
  maxPolicyBytes : Nat
  maxDecoderBytes : Nat
  maxRequestBytes : Nat
  maxFactBytes : Nat
  maxPlanCalls : Nat
  planTtlMs : Nat
  maxPendingPlans : Nat
  maxFactAgeMs : Nat
  factTimeoutMs : Nat
  policyTimeoutMs : Nat
deriving DecidableEq, Repr

def SessionLimits.validate (limits : SessionLimits) : Except SessionError Unit := do
  forM [("maxPolicyBytes", limits.maxPolicyBytes), ("maxDecoderBytes", limits.maxDecoderBytes),
      ("maxRequestBytes", limits.maxRequestBytes), ("maxFactBytes", limits.maxFactBytes),
      ("maxPlanCalls", limits.maxPlanCalls), ("planTtlMs", limits.planTtlMs),
      ("maxPendingPlans", limits.maxPendingPlans), ("maxFactAgeMs", limits.maxFactAgeMs),
      ("factTimeoutMs", limits.factTimeoutMs), ("policyTimeoutMs", limits.policyTimeoutMs)]
    fun (name, value) => require (value ≠ 0 ∧ value ≤ maxSafeInteger)
      ⟨"INVALID_CONFIG", s!"{name} must be a positive safe integer"⟩
  require (limits.allowedClockSkewMs ≤ maxSafeInteger ∧
      limits.maxBundleAgeSec.all fun age => age ≠ 0 ∧ age ≤ maxSafeInteger)
    ⟨"INVALID_CONFIG", "invalid policy age or clock skew"⟩

structure Request where
  original : Json
  digest : String
  chain : String
  from_ : String
  to_ : String
  actions : List Action
  partialDecode : Bool

/-- `config::Config`. -/
structure SessionConfig where
  artifact : List UInt8
  expectedDigest : String
  env : String
  profile : String
  keys : List VerificationKey
  limits : SessionLimits
  enforcement : String
  scam : Option ScamConfig

/-- What a session calls: the runtime's engines, the trust of its store, strict JSON,
the wire formats of configuration and policies, the request decoder and the scam
channel's own dependencies. -/
structure SessionEnv (δ : Type) where
  engines : Engines
  trust : Trust δ
  parseJson : String → Except StrictJsonError Json
  configFromText : String → Except SessionError SessionConfig
  validateScam : ScamConfig → List VerificationKey → Except SessionError Unit
  policyFromText : String → Nat → Except SessionError SignedPolicyInput
  decodeRequest : String → δ → Nat → Nat → Except SessionError Request
  scam : ScamKit

/-- A plan waiting for its evaluation: everything the evaluation reads is in it. -/
structure PendingPlan (δ : Type) where
  request : Json
  digest : String
  snapshot : Snapshot δ
  expiresAt : Nat
  nodes : List Node
  partialDecode : Bool
  scam : Option ScamPlan

/-- Why a plan is gone. -/
inductive Retirement where
  | expired
  | consumed
deriving DecidableEq, Repr

def Retirement.code : Retirement → String
  | .expired => "PLAN_EXPIRED"
  | .consumed => "PLAN_CONSUMED"

structure CoreSession (δ : Type) where
  store : SnapshotStore δ
  limits : SessionLimits
  enforcement : String
  owner : Nat
  nextPlan : Nat := 0
  refresh : Option (Nat × RefreshTicket) := none
  scamRefresh : Option Nat := none
  plans : BTreeMap String (PendingPlan δ) := ∅
  retired : List (String × Retirement) := []
  scam : Option ScamState := none

/-- `From<SnapshotError>`. -/
def SessionError.ofSnapshot (error : SnapshotError) : SessionError :=
  ⟨error.kind.code, error.message⟩

/-- `clock`. -/
def sessionClock (now : Nat) : Except SessionError Unit :=
  require (now ≤ maxSafeInteger) ⟨"INVALID_CONFIG",
    "clock must return a nonnegative safe integer in milliseconds"⟩

def planIdOf (owner number : Nat) : String := s!"p{owner}-{number}"

namespace CoreSession

def live (lifecycles : Lifecycles) (s : CoreSession δ) : Except SessionError Unit :=
  require (s.store.isDisposed lifecycles = false) ⟨"DISPOSED", "Core session is disposed"⟩

variable (s : CoreSession δ)

/-- `retire`: the oldest tombstones make room. -/
def retire (id : String) (retirement : Retirement) : CoreSession δ :=
  let retired := s.retired ++ [(id, retirement)]
  { s with retired := retired.drop (retired.length - s.limits.maxPendingPlans) }

/-- Remove a plan and leave its tombstone. -/
def discard (id : String) (retirement : Retirement) : CoreSession δ :=
  { s with plans := s.plans.erase id }.retire id retirement

def expiredIds (now : Nat) : List String :=
  (s.plans.toList.filter fun (_, plan) => plan.expiresAt ≤ now).map Prod.fst

def evictExpired (now : Nat) : CoreSession δ :=
  (s.expiredIds now).foldl (fun s id => s.discard id .expired) s

end CoreSession

end Dambi
