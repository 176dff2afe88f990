import Dambi.Bundle.PolicyContent

/-!
# Validated policy bundles

`bundle/semantics.rs`: the local acceptance rules of an authenticated policy
bundle, its freshness and the comparison with the bundle it would replace.
Times are milliseconds below `2 ^ 53`, so their sums stay within `u64`.
-/

namespace Dambi

open Fallible

def maxSafeInteger : Nat := 9007199254740991

def defaultMaxBundleAgeSec : Nat := 259200

/-- `SignatureVerifiedPolicyBundle`, as its readers see it: the parsed payload
and the exact bytes it was parsed from. -/
structure VerifiedPolicyBundle where
  payload : Json
  payloadBytes : List UInt8

structure PolicyValidationConfig where
  env : String
  profile : String
  maxBundleAgeSec : Option Nat
  allowedClockSkewMs : Nat
deriving DecidableEq, Repr

inductive PolicyUpdate where
  | replace
  | unchanged
deriving DecidableEq, Repr

structure ValidatedPolicyBundle where
  verified : VerifiedPolicyBundle
  manifests : List ManifestV2
  sequence : Nat
  issuedAtMs : Nat
  validUntilMs : Nat
  allowedClockSkewMs : Nat

/-! ## Time -/

def checkClock (now : Nat) : Except PolicySemanticError Unit :=
  require (now ≤ maxSafeInteger) ⟨.invalidConfig, "clock/now",
    "clock must return non-negative safe-integer Unix milliseconds"⟩

def checkTime (issuedAtMs validUntilMs allowedClockSkewMs now : Nat) :
    Except PolicySemanticError Unit := do
  checkClock now
  require (issuedAtMs ≤ now + allowedClockSkewMs) ⟨.invalidPolicyBundle, "$/issued_at",
    "policy issuance is beyond the allowed future clock skew"⟩
  require (now < validUntilMs) ⟨.policyExpired, "$/expires_at",
    "policy has reached its explicit expiry or maximum age"⟩

theorem checkTime_eq_ok {i validUntil s now : Nat} {u : Unit} :
    checkTime i validUntil s now = .ok u ↔
      now ≤ maxSafeInteger ∧ i ≤ now + s ∧ now < validUntil := by
  simp only [checkTime, checkClock, bind_eq_ok, require_eq_ok]
  exact ⟨fun ⟨_, h₁, _, h₂, h₃⟩ => ⟨h₁, h₂, h₃⟩, fun ⟨h₁, h₂, h₃⟩ => ⟨(), h₁, (), h₂, h₃⟩⟩

namespace ValidatedPolicyBundle

variable (b : ValidatedPolicyBundle)

/-- `env`: the parser has checked that it is a string. -/
def env (b : ValidatedPolicyBundle) : Option String := (b.verified.payload.index "env").asStr

/-- `profile`: the parser has checked that it is a string. -/
def profile (b : ValidatedPolicyBundle) : Option String :=
  (b.verified.payload.index "profile").asStr

def ensureFresh (now : Nat) : Except PolicySemanticError Unit :=
  checkTime b.issuedAtMs b.validUntilMs b.allowedClockSkewMs now

/-- What a successful freshness check establishes. -/
def Fresh (now : Nat) : Prop :=
  now ≤ maxSafeInteger ∧ b.issuedAtMs ≤ now + b.allowedClockSkewMs ∧ now < b.validUntilMs

theorem ensureFresh_eq_ok {now : Nat} {u : Unit} {b : ValidatedPolicyBundle} :
    b.ensureFresh now = .ok u ↔ b.Fresh now := checkTime_eq_ok

/-! ## Updates -/

def checkUpdate (previous : Option ValidatedPolicyBundle)
    (now : Nat) : Except PolicySemanticError PolicyUpdate := do
  b.ensureFresh now
  match previous with
  | none => .ok .replace
  | some previous =>
    require (b.env = previous.env ∧ b.profile = previous.profile) ⟨.policyScopeMismatch, "$",
      "sequence comparison requires the same env/profile scope"⟩
    if previous.sequence < b.sequence then .ok .replace
    else if b.sequence = previous.sequence ∧
        b.verified.payloadBytes = previous.verified.payloadBytes then .ok .unchanged
    else .error ⟨.policySequenceRejected, "$/sequence",
      "sequence must increase, or repeat with the exact same B bytes"⟩

theorem checkUpdate_some_eq_ok {b p : ValidatedPolicyBundle} {now : Nat} {update : PolicyUpdate} :
    b.checkUpdate (some p) now = .ok update ↔
      b.Fresh now ∧ (b.env = p.env ∧ b.profile = p.profile) ∧
        (p.sequence < b.sequence ∧ update = .replace ∨
          b.sequence = p.sequence ∧
            b.verified.payloadBytes = p.verified.payloadBytes ∧ update = .unchanged) := by
  simp only [checkUpdate, bind_eq_ok, ensureFresh_eq_ok, require_eq_ok]
  constructor
  · intro ⟨_, hf, _, hs, hc⟩
    refine ⟨hf, hs, ?_⟩
    split at hc
    · next hl =>
      cases hc
      exact .inl ⟨hl, rfl⟩
    · split at hc
      · next heq =>
        cases hc
        exact .inr ⟨heq.1, heq.2, rfl⟩
      · cases hc
  · intro ⟨hf, hs, hc⟩
    refine ⟨(), hf, (), hs, ?_⟩
    rcases hc with ⟨hl, rfl⟩ | ⟨hse, hb, rfl⟩
    · rw [if_pos hl]
    · rw [if_neg (by omega), if_pos ⟨hse, hb⟩]

theorem sequence_lt_of_replace {b p : ValidatedPolicyBundle} {now : Nat}
    (h : b.checkUpdate (some p) now = .ok .replace) : p.sequence < b.sequence := by
  obtain ⟨-, -, ⟨hl, -⟩ | ⟨-, -, hc⟩⟩ := checkUpdate_some_eq_ok.1 h
  · exact hl
  · cases hc

end ValidatedPolicyBundle

/-! ## Validation -/

section Validation

variable (engines : Engines) (fromValue : Json → Except String ManifestV2)

/-- `validate_policy_bundle`. The parser has checked that `issued_at` and
`sequence` are integers; a payload without them would panic in the source. -/
def validatePolicyBundle (verified : VerifiedPolicyBundle) (config : PolicyValidationConfig)
    (now : Nat) : Except PolicySemanticError ValidatedPolicyBundle := do
  let maxAge := config.maxBundleAgeSec.getD defaultMaxBundleAgeSec
  require (config.env ∈ ["staging", "production"] ∧ config.profile = "default")
    ⟨.invalidConfig, "config/trust",
      "env must be staging or production and profile must be default"⟩
  require (1 ≤ maxAge ∧ maxAge ≤ maxSafeInteger ∧ config.allowedClockSkewMs ≤ maxSafeInteger)
    ⟨.invalidConfig, "config/limits",
      "maxBundleAgeSec must be positive and skew non-negative, both safe integers"⟩
  checkClock now
  let payload := verified.payload
  require ((payload.index "env").asStr = some config.env ∧
      (payload.index "profile").asStr = some config.profile)
    ⟨.policyScopeMismatch, "$", "policy env/profile does not match local trust"⟩
  require (payload.index "registry_ref").isNull
    ⟨.unsupportedRegistryRef, "$/registry_ref", "v0.1 supports only a null registry_ref"⟩
  match (payload.index "issued_at").asU64, (payload.index "sequence").asU64 with
  | some issuedAt, some sequence =>
    let expiresAt := (payload.index "expires_at").asU64
    require (expiresAt.all (issuedAt < ·)) ⟨.invalidPolicyBundle, "$/expires_at",
      "expires_at must be later than issued_at"⟩
    let ageDeadline := issuedAt + maxAge
    let validUntilMs := expiresAt.elim ageDeadline (min · ageDeadline) * 1000
    let issuedAtMs := issuedAt * 1000
    checkTime issuedAtMs validUntilMs config.allowedClockSkewMs now
    let manifests ← PolicyContent.validatePolicies engines fromValue payload
    .ok { verified, manifests, sequence, issuedAtMs, validUntilMs,
          allowedClockSkewMs := config.allowedClockSkewMs }
  | _, _ => .error ⟨.invalidPolicyBundle, "$", "parser checked issued_at and sequence"⟩

end Validation

end Dambi
