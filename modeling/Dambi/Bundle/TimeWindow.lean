import Dambi.Lib.Trapping
import Dambi.Bundle.Semantics
import Dambi.Policy.DenyOverrides
import Dambi.Runtime.Boundary

/-!
# The time window of a policy, in words

`bundle/semantics.rs` adds and scales times in `u64`. Here its functions work
on words and an overflow traps; they never do, and they compute exactly what the
model over the natural numbers computes.
-/

namespace Dambi

open Fallible Trapping

/-- `PolicyValidationConfig` with its own widths. -/
structure PolicyValidationConfigU64 where
  env : String
  profile : String
  maxBundleAgeSec : Option UInt64
  allowedClockSkewMs : UInt64

namespace PolicyValidationConfigU64

variable (config : PolicyValidationConfigU64)

def toNat : PolicyValidationConfig where
  env := config.env
  profile := config.profile
  maxBundleAgeSec := config.maxBundleAgeSec.map (·.toNat)
  allowedClockSkewMs := config.allowedClockSkewMs.toNat

def maxAge : UInt64 :=
  config.maxBundleAgeSec.getD (.ofNat defaultMaxBundleAgeSec)

/-- The limits `validate_policy_bundle` accepts. -/
def Accepted : Prop :=
  1 ≤ config.maxAge.toNat ∧ config.maxAge.toNat ≤ maxSafeInteger ∧
    config.allowedClockSkewMs.toNat ≤ maxSafeInteger

theorem toNat_maxAge (c : PolicyValidationConfigU64) :
    c.toNat.maxBundleAgeSec.getD defaultMaxBundleAgeSec = c.maxAge.toNat := by
  unfold toNat maxAge
  cases c.maxBundleAgeSec with
  | none => rfl
  | some age => rfl

end PolicyValidationConfigU64

/-- `ValidatedPolicyBundle` with its own widths. -/
structure ValidatedPolicyBundleU64 where
  verified : VerifiedPolicyBundle
  manifests : List ManifestV2
  sequence : UInt64
  issuedAtMs : UInt64
  validUntilMs : UInt64
  allowedClockSkewMs : UInt64

def ValidatedPolicyBundleU64.toNat (b : ValidatedPolicyBundleU64) : ValidatedPolicyBundle where
  verified := b.verified
  manifests := b.manifests
  sequence := b.sequence.toNat
  issuedAtMs := b.issuedAtMs.toNat
  validUntilMs := b.validUntilMs.toNat
  allowedClockSkewMs := b.allowedClockSkewMs.toNat

/-- `Value::as_u64`, as the word it is. -/
def Json.asWord (value : Json) : Option UInt64 := value.asU64.map .ofNat

theorem Json.map_toNat_asWord (value : Json) : value.asWord.map (·.toNat) = value.asU64 := by
  unfold asWord
  cases hv : value.asU64 with
  | none => rfl
  | some n =>
    have hl : n < 2 ^ 64 := by
      cases value with
      | int i =>
        simp only [asU64] at hv
        split at hv
        · cases hv
          omega
        · cases hv
      | _ => cases hv
    simpa using hl

/-! ## The functions -/

/-- `check_time`; a comparison of words is one of numbers. -/
def checkTimeU64 (issuedAtMs validUntilMs allowedClockSkewMs now : UInt64) :
    Trap PolicySemanticError Unit := do
  checked (checkClock now.toNat)
  let latest ← word (add now allowedClockSkewMs)
  checked (require (issuedAtMs ≤ latest) ⟨.invalidPolicyBundle, "$/issued_at",
    "policy issuance is beyond the allowed future clock skew"⟩)
  checked (require (now < validUntilMs) ⟨.policyExpired, "$/expires_at",
    "policy has reached its explicit expiry or maximum age"⟩)

def ValidatedPolicyBundleU64.ensureFresh (b : ValidatedPolicyBundleU64) (now : UInt64) :
    Trap PolicySemanticError Unit :=
  checkTimeU64 b.issuedAtMs b.validUntilMs b.allowedClockSkewMs now

/-- The part of `validate_policy_bundle` that fixes the window of a policy and checks the
clock against it: `issued_at_ms` and `valid_until_ms`. -/
def timeWindowU64 (issuedAt : UInt64) (expiresAt : Option UInt64)
    (maxAge allowedClockSkewMs now : UInt64) : Trap PolicySemanticError (UInt64 × UInt64) := do
  let ageDeadline ← word (add issuedAt maxAge)
  let validUntilMs ← word (mul (expiresAt.elim ageDeadline (min · ageDeadline)) 1000)
  let issuedAtMs ← word (mul issuedAt 1000)
  checkTimeU64 issuedAtMs validUntilMs allowedClockSkewMs now
  return (issuedAtMs, validUntilMs)

/-- `validate_policy_bundle`; an integer the parser has not checked traps. -/
def validatePolicyBundleU64 (engines : Engines) (fromValue : Json → Except String ManifestV2)
    (verified : VerifiedPolicyBundle) (config : PolicyValidationConfigU64) (now : UInt64) :
    Trap PolicySemanticError ValidatedPolicyBundleU64 := do
  checked (require (config.env ∈ ["staging", "production"] ∧ config.profile = "default")
    ⟨.invalidConfig, "config/trust",
      "env must be staging or production and profile must be default"⟩)
  checked (require (1 ≤ config.maxAge ∧ config.maxAge ≤ .ofNat maxSafeInteger ∧
      config.allowedClockSkewMs ≤ .ofNat maxSafeInteger)
    ⟨.invalidConfig, "config/limits",
      "maxBundleAgeSec must be positive and skew non-negative, both safe integers"⟩)
  checked (checkClock now.toNat)
  let payload := verified.payload
  checked (require ((payload.index "env").asStr = some config.env ∧
      (payload.index "profile").asStr = some config.profile)
    ⟨.policyScopeMismatch, "$", "policy env/profile does not match local trust"⟩)
  checked (require (payload.index "registry_ref").isNull
    ⟨.unsupportedRegistryRef, "$/registry_ref", "v0.1 supports only a null registry_ref"⟩)
  let issuedAt ← word (payload.index "issued_at").asWord
  let expiresAt := (payload.index "expires_at").asWord
  checked (require (expiresAt.all (issuedAt < ·)) ⟨.invalidPolicyBundle, "$/expires_at",
    "expires_at must be later than issued_at"⟩)
  let (issuedAtMs, validUntilMs) ←
    timeWindowU64 issuedAt expiresAt config.maxAge config.allowedClockSkewMs now
  let sequence ← word (payload.index "sequence").asWord
  let manifests ← checked (PolicyContent.validatePolicies engines fromValue payload)
  return { verified, manifests, sequence, issuedAtMs, validUntilMs,
           allowedClockSkewMs := config.allowedClockSkewMs }

/-! ## Exactness -/

def windowEnd (issuedAt : Nat) (expiresAt : Option Nat) (maxAge : Nat) : Nat :=
  expiresAt.elim (issuedAt + maxAge) (min · (issuedAt + maxAge))

def InWindow (issuedAt : Nat) (expiresAt : Option Nat) (maxAge skew now : Nat) : Prop :=
  now ≤ maxSafeInteger ∧ issuedAt * 1000 ≤ now + skew ∧
    now < windowEnd issuedAt expiresAt maxAge * 1000

section Exact

variable {issuedAt maxAge skew now : UInt64} {expiresAt : Option UInt64}

theorem computes_checkTime {iam vum : UInt64} (hs : skew.toNat ≤ maxSafeInteger) :
    Computes id (checkTimeU64 iam vum skew now)
      (checkTime iam.toNat vum.toNat skew.toNat now.toNat) := by
  refine .bind (.checked _) fun _ hc => ?_
  have hn : now.toNat ≤ maxSafeInteger := require_eq_ok.1 hc
  have hf : now.toNat + skew.toNat < 2 ^ 64 := by
    unfold maxSafeInteger at hn hs
    omega
  refine .bind_add hf fun l hl => ?_
  refine .bind (.require _ ?_) fun _ _ => .require _ UInt64.lt_iff_toNat_lt
  rw [UInt64.le_iff_toNat_le, hl]

theorem toNat_windowEnd {ad : UInt64}
    (expiresAt : Option UInt64) (h : ad.toNat = issuedAt.toNat + maxAge.toNat) :
    (expiresAt.elim ad (min · ad)).toNat =
      windowEnd issuedAt.toNat (expiresAt.map (·.toNat)) maxAge.toNat := by
  cases expiresAt with
  | none => exact h
  | some e =>
    simp only [Option.elim_some, Option.map_some, windowEnd]
    rw [← h]
    by_cases hl : e ≤ ad
    · rw [Nat.min_eq_left (UInt64.le_iff_toNat_le.1 hl)]
      exact congrArg UInt64.toNat (if_pos hl)
    · rw [Nat.min_eq_right (Nat.le_of_not_le (mt UInt64.le_iff_toNat_le.2 hl))]
      exact congrArg UInt64.toNat (if_neg hl)

/-- The times over the natural numbers, with the same check. -/
def timeWindow (issuedAt : Nat) (expiresAt : Option Nat) (maxAge skew now : Nat) :
    Except PolicySemanticError (Nat × Nat) := do
  let validUntilMs := windowEnd issuedAt expiresAt maxAge * 1000
  let issuedAtMs := issuedAt * 1000
  checkTime issuedAtMs validUntilMs skew now
  .ok (issuedAtMs, validUntilMs)

/-- Below `2 ^ 53` seconds the sums and products fit. -/
theorem computes_timeWindow (hi : issuedAt.toNat ≤ maxSafeInteger)
    (ha : maxAge.toNat ≤ maxSafeInteger) (hs : skew.toNat ≤ maxSafeInteger) :
    Computes (fun ts => (ts.1.toNat, ts.2.toNat)) (timeWindowU64 issuedAt expiresAt maxAge skew now)
      (timeWindow issuedAt.toNat (expiresAt.map (·.toNat)) maxAge.toNat skew.toNat now.toNat) := by
  unfold maxSafeInteger at hi ha
  refine .bind_add (by omega) fun ad hd => ?_
  have he := toNat_windowEnd expiresAt hd
  have hl : windowEnd issuedAt.toNat (expiresAt.map (·.toNat)) maxAge.toNat ≤
      issuedAt.toNat + maxAge.toNat := by
    cases expiresAt with
    | none => exact le_rfl
    | some e => exact Nat.min_le_right _ _
  have ht : (1000 : UInt64).toNat = 1000 := rfl
  refine .bind_mul (by rw [he, ht]; omega) fun vum hv => ?_
  refine .bind_mul (by rw [ht]; omega) fun iam hm => ?_
  rw [he, ht] at hv
  rw [ht] at hm
  unfold timeWindow
  rw [← hv, ← hm]
  exact .bind (computes_checkTime hs) fun _ _ => .pure (iam, vum)

theorem timeWindow_bind {α : Type} (issued : Nat) (es : Option Nat) (age skew now : Nat)
    (k : Nat × Nat → Except PolicySemanticError α) :
    (timeWindow issued es age skew now >>= k) =
      (checkTime (issued * 1000) (windowEnd issued es age * 1000) skew now >>= fun _ =>
        k (issued * 1000, windowEnd issued es age * 1000)) := by
  simp only [timeWindow]
  cases checkTime (issued * 1000) (windowEnd issued es age * 1000) skew now <;> rfl

theorem timeWindow_eq_ok {es : Option Nat} {ts : Nat × Nat} {issued age skew now : Nat} :
    timeWindow issued es age skew now = .ok ts ↔
      InWindow issued es age skew now ∧
        ts = (issued * 1000, windowEnd issued es age * 1000) := by
  simp only [timeWindow, bind_eq_ok, checkTime_eq_ok, Except.ok.injEq]
  exact ⟨fun ⟨_, hi, heq⟩ => ⟨hi, heq.symm⟩, fun ⟨hi, heq⟩ => ⟨(), hi, heq.symm⟩⟩

theorem Json.asU64_of_asWord {w : UInt64} {value : Json} (h : value.asWord = some w) :
    value.asU64 = some w.toNat := by
  rw [← value.map_toNat_asWord, h]
  rfl

theorem computes_validatePolicyBundle (es : Engines) (fv : Json → Except String ManifestV2)
    {verified : VerifiedPolicyBundle} (c : PolicyValidationConfigU64) (now : UInt64)
    {sequence : UInt64} (hi : (verified.payload.index "issued_at").asWord = some issuedAt)
    (hsa : issuedAt.toNat ≤ maxSafeInteger)
    (hs : (verified.payload.index "sequence").asWord = some sequence) :
    Computes ValidatedPolicyBundleU64.toNat
      (validatePolicyBundleU64 es fv verified c now)
      (validatePolicyBundle es fv verified c.toNat now.toNat) := by
  unfold validatePolicyBundleU64 validatePolicyBundle
  simp only [c.toNat_maxAge, Json.asU64_of_asWord hi, Json.asU64_of_asWord hs]
  refine .bind (.require _ Iff.rfl) fun _ _ => ?_
  refine .bind (.require _ (by simp only [UInt64.le_iff_toNat_le]; rfl)) fun _ hl => ?_
  obtain ⟨-, ha, hsk⟩ := require_eq_ok.1 hl
  refine .bind (.checked _) fun _ _ => .bind (.require _ Iff.rfl) fun _ _ => ?_
  refine .bind (.require _ Iff.rfl) fun _ _ => .bind_word hi ?_
  have he := (verified.payload.index "expires_at").map_toNat_asWord
  generalize (verified.payload.index "expires_at").asWord = expiresAt at he ⊢
  rw [← he]
  refine .bind (.require _ ?_) fun _ _ => ?_
  · cases expiresAt with
    | none => rfl
    | some e => simp [UInt64.lt_iff_toNat_lt]
  · have hb := timeWindow_bind issuedAt.toNat (expiresAt.map (·.toNat)) c.maxAge.toNat
      c.allowedClockSkewMs.toNat now.toNat fun ts => do
        let manifests ← PolicyContent.validatePolicies es fv verified.payload
        return ({ verified, manifests, sequence := sequence.toNat, issuedAtMs := ts.1,
                  validUntilMs := ts.2,
                  allowedClockSkewMs := c.allowedClockSkewMs.toNat } : ValidatedPolicyBundle)
    refine hb ▸ .bind (computes_timeWindow hsa ha hsk) fun ts _ => ?_
    exact .bind_word hs (.bind (.checked _) fun manifests _ => .pure _)

end Exact

/-! ## The window of a validated bundle -/

/-- What validation fixes in the bundle it returns. -/
structure ValidatedPolicyBundle.HasWindow (b : ValidatedPolicyBundle) (issuedAt : Nat)
    (expiresAt : Option Nat) (maxAge skew : Nat) : Prop where
  issuedAtMs : b.issuedAtMs = issuedAt * 1000
  validUntilMs : b.validUntilMs = windowEnd issuedAt expiresAt maxAge * 1000
  allowedClockSkewMs : b.allowedClockSkewMs = skew
  skew_le : skew ≤ maxSafeInteger

variable {now issued : Nat} {b : ValidatedPolicyBundle}

theorem hasWindow_of_validate {es : Engines} {fv : Json → Except String ManifestV2}
    {v : VerifiedPolicyBundle} {c : PolicyValidationConfig}
    (h : validatePolicyBundle es fv v c now = .ok b)
    (hi : (v.payload.index "issued_at").asU64 = some issued) :
    b.HasWindow issued (v.payload.index "expires_at").asU64
      (c.maxBundleAgeSec.getD defaultMaxBundleAgeSec) c.allowedClockSkewMs := by
  simp only [validatePolicyBundle, bind_eq_ok, require_eq_ok, hi] at h
  obtain ⟨-, -, -, ⟨-, -, hsk⟩, -, -, -, -, -, -, h⟩ := h
  cases hs : (v.payload.index "sequence").asU64 with
  | none =>
    rw [hs] at h
    cases h
  | some s =>
    simp only [hs, bind_eq_ok] at h
    obtain ⟨-, -, -, -, ms, -, h⟩ := h
    cases h
    exact ⟨rfl, rfl, rfl, hsk⟩

variable {skew : Nat}

theorem ValidatedPolicyBundle.HasWindow.fresh_iff {es : Option Nat} {age : Nat}
    (h : b.HasWindow issued es age skew) :
    b.Fresh now ↔ InWindow issued es age skew now := by
  unfold Fresh InWindow
  rw [h.issuedAtMs, h.validUntilMs, h.allowedClockSkewMs]

/-- Only the end of the window is an expiry. -/
theorem le_of_checkTime_expired {validUntil : Nat} {e : PolicySemanticError}
    (h : checkTime issued validUntil skew now = .error e)
    (hk : e.kind = .policyExpired) : validUntil ≤ now := by
  by_contra hlt
  by_cases hc : now ≤ maxSafeInteger
  · by_cases hi : issued ≤ now + skew
    · rw [(checkTime_eq_ok (u := ())).2 ⟨hc, hi, Nat.not_le.1 hlt⟩] at h
      cases h
    · simp only [checkTime, checkClock, require_pos hc, require_neg hi, ok_bind,
        error_bind] at h
      cases h
      cases hk
  · simp only [checkTime, checkClock, require_neg hc, error_bind] at h
    cases h
    cases hk

/-- The time checks of a bundle: `validate_policy_bundle` at `now`, and `ensure_fresh` of what
it returns at any clock. -/
structure TimeExact (engines : Engines) (fromValue : Json → Except String ManifestV2)
    (verified : VerifiedPolicyBundle) (config : PolicyValidationConfigU64) (now issuedAt : UInt64) :
    Prop where
  /-- Validation does not overflow and is exact. -/
  validate : Computes ValidatedPolicyBundleU64.toNat
    (validatePolicyBundleU64 engines fromValue verified config now)
    (validatePolicyBundle engines fromValue verified config.toNat now.toNat)
  /-- Its time check passes exactly inside the window. -/
  window : config.Accepted →
    let expiresAt := (verified.payload.index "expires_at").asWord
    let check := timeWindowU64 issuedAt expiresAt config.maxAge config.allowedClockSkewMs now
    check.run ≠ none ∧ ((∃ times, check.run = some (.ok times)) ↔
      InWindow issuedAt.toNat (expiresAt.map (·.toNat)) config.maxAge.toNat
        config.allowedClockSkewMs.toNat now.toNat)
  /-- So does the one of the validated bundle, at every clock. -/
  fresh : ∀ b, (validatePolicyBundleU64 engines fromValue verified config now).run = some (.ok b) →
    ∀ clock, (b.ensureFresh clock).run ≠ none ∧ ((b.ensureFresh clock).run = some (.ok ()) ↔
      InWindow issuedAt.toNat ((verified.payload.index "expires_at").asWord.map (·.toNat))
        config.maxAge.toNat config.allowedClockSkewMs.toNat clock.toNat)
  /-- Expiry is final. -/
  expired : ∀ b,
    (validatePolicyBundleU64 engines fromValue verified config now).run = some (.ok b) →
    ∀ clock error, (b.ensureFresh clock).run = some (.error error) → error.kind = .policyExpired →
      ∀ later, clock ≤ later → ∃ error', (b.ensureFresh later).run = some (.error error')

/-- For every payload with safe times, every configuration and every clock. -/
theorem policy_times_exact (engines : Engines) (fromValue : Json → Except String ManifestV2)
    {verified : VerifiedPolicyBundle} (config : PolicyValidationConfigU64) (now : UInt64)
    {issuedAt sequence : UInt64}
    (hissued : (verified.payload.index "issued_at").asWord = some issuedAt)
    (hsafe : issuedAt.toNat ≤ maxSafeInteger)
    (hsequence : (verified.payload.index "sequence").asWord = some sequence) :
    TimeExact engines fromValue verified config now issuedAt := by
  have he := computes_validatePolicyBundle engines fromValue config now hissued hsafe hsequence
  have hw : ∀ b : ValidatedPolicyBundleU64,
      (validatePolicyBundleU64 engines fromValue verified config now).run = some (.ok b) →
      b.toNat.HasWindow issuedAt.toNat
        ((verified.payload.index "expires_at").asWord.map (·.toNat)) config.maxAge.toNat
        config.allowedClockSkewMs.toNat := by
    intro b hb
    have h := hasWindow_of_validate (he.eq_ok_of_run hb) (Json.asU64_of_asWord hissued)
    rwa [config.toNat_maxAge, ← Json.map_toNat_asWord] at h
  have hf : ∀ b : ValidatedPolicyBundleU64,
      (validatePolicyBundleU64 engines fromValue verified config now).run = some (.ok b) →
      ∀ clock, (b.ensureFresh clock).run = some (b.toNat.ensureFresh clock.toNat) := by
    intro b hb clock
    have hs : b.allowedClockSkewMs.toNat ≤ maxSafeInteger :=
      (hw b hb).allowedClockSkewMs.le.trans (hw b hb).skew_le
    exact (computes_checkTime hs).run_eq
  refine ⟨he, ?_, ?_, ?_⟩
  · intro ha expiresAt check
    have hc : Computes _ check _ := computes_timeWindow hsafe ha.2.1 ha.2.2
    refine ⟨hc.run_ne_none, fun ⟨times, ht⟩ => ?_, fun hi => ?_⟩
    · exact (timeWindow_eq_ok.1 (hc.eq_ok_of_run ht)).1
    · obtain ⟨times, ht, -⟩ := hc.run_eq_ok (timeWindow_eq_ok.2 ⟨hi, rfl⟩)
      exact ⟨times, ht⟩
  · intro b hb clock
    rw [hf b hb, ← (hw b hb).fresh_iff]
    exact ⟨nofun, by rw [Option.some.injEq, ValidatedPolicyBundle.ensureFresh_eq_ok]⟩
  · intro b hb clock error her hk later hle
    rw [hf b hb] at her ⊢
    -- An expired bundle stays expired: a later clock is past the window too.
    have he : b.toNat.validUntilMs ≤ clock.toNat := le_of_checkTime_expired (Option.some.inj her) hk
    have hle := UInt64.le_iff_toNat_le.1 hle
    cases hl : b.toNat.ensureFresh later.toNat with
    | error error' => exact ⟨error', rfl⟩
    | ok u =>
      obtain ⟨_, _, hlt⟩ := ValidatedPolicyBundle.ensureFresh_eq_ok.1 hl
      omega

def capManifest (_ : Json) : Except String ManifestV2 := .ok { id := "cap", schemaVersion := 2 }

def capVerified : VerifiedPolicyBundle := ⟨samplePayload "cap" capSource, []⟩

/-- The largest skew, and an age that ends within the last second of the clock. -/
def agedConfig : PolicyValidationConfigU64 :=
  ⟨"staging", "default", some 9007199253740, 9007199254740991⟩

/-- A policy is fresh up to its last millisecond, where it is validated. -/
theorem policy_times_exact_largest : ∃ b,
    (validatePolicyBundleU64 (swapEngines capCedar) capManifest capVerified agedConfig
      9007199254739999).run = some (.ok b) ∧
    (b.ensureFresh 9007199254739999).run = some (.ok ()) ∧
    (b.ensureFresh 9007199254740000).run ≠ some (.ok ()) := by
  have h : TimeExact (swapEngines capCedar) capManifest capVerified agedConfig 9007199254739999
      1000 :=
    policy_times_exact _ _ _ _ (by decide +kernel) (by decide)
      (by decide +kernel : _ = some (1 : UInt64))
  have hv : ((validatePolicyBundleU64 (swapEngines capCedar) capManifest capVerified agedConfig
      9007199254739999).run.bind Except.toOption).isSome = true := by
    decide +kernel
  obtain ⟨b, hb⟩ := Option.isSome_iff_exists.1 hv
  obtain ⟨r, hr, hb⟩ := Option.bind_eq_some_iff.1 hb
  rw [toOption_eq_some.1 hb] at hr
  refine ⟨b, hr, ((h.fresh b hr _).2).2 ?_, mt ((h.fresh b hr _).2).1 ?_⟩
  · unfold InWindow
    decide +kernel
  · unfold InWindow
    decide +kernel

end Dambi
