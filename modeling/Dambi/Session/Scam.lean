import Dambi.Lib.MutResult
import Dambi.Lib.Oracle
import Dambi.Session.Report
import Dambi.Snapshot.Store

/-!
# The scam channel

`session/scam.rs`: the settings and the bundle of a session, what a plan pins of
them, and the evaluation of a pinned plan. The algorithm behind one target, the
wire formats and the signature check are in `ScamKit`; an analysis may read the
clock of the evaluation as often as it likes, so it is an `Oracle.Program`.
-/

namespace Dambi

open Fallible Oracle MutResult

/-! ## Configuration -/

inductive FailureReason where
  | algorithmUnavailable
  | algorithmIncompatible
  | invalidAlgorithmOutput
  | scamResultsMissing
  | invalidScamInput
  | subjectUnresolved
  | subjectMismatch
  | referenceMismatch
  | reorg
  | bundleUnavailable
  | bundleInvalid
  | dataMissing
  | fieldUnavailable
  | initialStateUnknown
  | historyUnverified
  | ageUnknown
  | marketTooYoung
  | staleData
  | unsupportedResolution
  | resourceLimit
  | noTimeBudget
  | timeout
deriving DecidableEq, Repr

def FailureReason.wire : FailureReason → Json
  | .algorithmUnavailable => .str "algorithm_unavailable"
  | .algorithmIncompatible => .str "algorithm_incompatible"
  | .invalidAlgorithmOutput => .str "invalid_algorithm_output"
  | .scamResultsMissing => .str "scam_results_missing"
  | .invalidScamInput => .str "invalid_scam_input"
  | .subjectUnresolved => .str "subject_unresolved"
  | .subjectMismatch => .str "subject_mismatch"
  | .referenceMismatch => .str "reference_mismatch"
  | .reorg => .str "reorg"
  | .bundleUnavailable => .str "bundle_unavailable"
  | .bundleInvalid => .str "bundle_invalid"
  | .dataMissing => .str "data_missing"
  | .fieldUnavailable => .str "field_unavailable"
  | .initialStateUnknown => .str "initial_state_unknown"
  | .historyUnverified => .str "history_unverified"
  | .ageUnknown => .str "age_unknown"
  | .marketTooYoung => .str "market_too_young"
  | .staleData => .str "stale_data"
  | .unsupportedResolution => .str "unsupported_resolution"
  | .resourceLimit => .str "resource_limit"
  | .noTimeBudget => .str "no_time_budget"
  | .timeout => .str "timeout"

structure ScamSettings where
  enabled : Bool
  presetId : String
  overrides : List Json
  additionalRules : List Json
  locale : String

structure ScamLimits where
  scamTimeoutMs : Nat
  scamEvalReserveMs : Nat
  maxBundleBytes : Nat
  maxResultBytes : Nat
  maxCalls : Nat
  maxTargets : Nat
  maxRules : Nat
  maxPoints : Nat
deriving DecidableEq, Repr

structure ScamConfig where
  settings : ScamSettings
  env : String
  profile : String
  keys : List VerificationKey
  limits : ScamLimits

/-- A preset by its rules and its serialised form. -/
structure Preset where
  rules : List Json
  wire : Json

structure PresetPair where
  purpose : String
  selection : Json
  newMarket : Preset
  established : Preset

structure ScamBundle where
  sequence : String
  issuedAtMs : Nat
  expiresAtMs : Nat
  algorithm : Option Json
  support : List Json
  presets : List PresetPair

/-- An installed bundle. A connected algorithm module is known by its identity. -/
structure Installed where
  bundle : ScamBundle
  digest : String
  builderVersion : String
  module_ : Option Json

structure ScamState where
  config : ScamConfig
  installed : Option Installed := none

/-! ## Plans -/

structure Subject where
  chainId : Nat
  token : String
  pool : String
  factory : String
  quoteToken : String
  venue : String
  actionPaths : List String
deriving DecidableEq, Repr

structure PinnedTarget where
  subject : Subject
  support : Json
  group : String
  historyId : String
  profileId : String

structure ScamPlan where
  config : ScamConfig
  installed : Option Installed
  pair : Option PresetPair := none
  context : Option Json := none
  targets : List PinnedTarget := []
  reason : Option FailureReason := none
  inactive : Option String := none
  calls : List Json := []
  unresolved : Bool := false
  startedAt : Nat

/-- What a node means to the scam channel. -/
inductive ScamTarget where
  | ignore
  | unresolved
  | subject (subject : Subject) (support : Json)

/-- The host's answer to the scam calls. -/
inductive ScamInput where
  | notConfigured
  | data (planId : String) (results : List (String × Json))
  | unavailable (reason : FailureReason)

/-- A text that is not strict JSON, by the path and the message of the parser. -/
structure StrictJsonError where
  path : String
  message : String

structure ScamKit where
  /-- The payload of an envelope that one of the keys has signed, under `maxBundleBytes`. -/
  openEnvelope : List VerificationKey → Nat → String → Except SessionError String
  /-- The bundle of a payload, of the configured scope, valid now and complete. -/
  readBundle : ScamConfig → String → Nat → Except SessionError ScamBundle
  /-- The digest in hexadecimal. -/
  sha256 : String → String
  settingsFromText : String → Except SessionError ScamSettings
  validateSettings : ScamSettings → ScamLimits → Except SessionError Unit
  effectivePair : ScamBundle → ScamSettings → ScamLimits → Except SessionError PresetPair
  hash : String → Json → Except SessionError String
  builtinAlgorithm : Json
  subject : Node → List Json → ScamTarget
  targetCalls : PinnedTarget → PresetPair → String → Nat → List Json
  subjectWire : Subject → Json
  inputFromValue : Json → Option ScamInput
  encodedLength : Json → Option Nat
  analyzeTarget : ScamPlan → String → PinnedTarget → PresetPair → Installed → Json →
    List (String × Json) → (now skew deadline : Nat) → Program Nat (Except FailureReason Json)

/-! ## The installed state -/

/-- `decimal`: a canonical decimal below `2 ^ 256`. -/
def decimal (value : String) : Option Nat :=
  let digits := value.toList
  if digits = [] ∨ (1 < digits.length ∧ digits.head? = some '0') ∨ ¬ digits.all Char.isDigit then
    none
  else
    let n := digits.foldl (fun n c => 10 * n + (c.toNat - 48)) 0
    if n < 2 ^ 256 then some n else none

namespace ScamState

variable (kit : ScamKit)

/-- The algorithm a bundle selects: only the built-in one can be connected. -/
def selectModule (bundle : ScamBundle) : Except SessionError (Option Json) :=
  match bundle.algorithm with
  | none => .ok none
  | some identity => do
    require ((identity == kit.builtinAlgorithm) = true)
      ⟨"INVALID_SCAM_BUNDLE", "scam algorithm identity is not installed"⟩
    .ok (some identity)

variable (s : ScamState)

/-- Whether a bundle is newer than the installed one: `false` repeats it exactly. -/
def isNewer (bundle : ScamBundle) (digest : String) : Except SessionError Bool :=
  match s.installed with
  | none => .ok true
  | some installed =>
    match decimal bundle.sequence with
    | none => .error ⟨"INVALID_SCAM_BUNDLE", "invalid scam sequence"⟩
    | some incoming =>
      match decimal installed.bundle.sequence with
      | none => .error ⟨"INVALID_SCAM_BUNDLE", "invalid installed sequence"⟩
      | some previous => do
        require (¬ (incoming < previous ∨ incoming = previous ∧ digest ≠ installed.digest))
          ⟨"SCAM_SEQUENCE_REJECTED", "scam bundle sequence rollback or equivocation"⟩
        .ok (incoming ≠ previous)

def installSigned (input : String) (now : Nat) : MutResult ScamState SessionError Unit := do
  let s ← update fun s => (s, s)
  let payload ← lift (kit.openEnvelope s.config.keys s.config.limits.maxBundleBytes input)
  let bundle ← lift (kit.readBundle s.config payload now)
  let _ ← lift ((kit.effectivePair bundle s.config.settings s.config.limits).mapError
    fun error => ⟨"INVALID_SCAM_BUNDLE", error.message⟩)
  let digest := "0x" ++ kit.sha256 payload
  if ← lift (s.isNewer bundle digest) then
    let module_ ← lift (selectModule kit bundle)
    update fun s => ((), { s with installed := some ⟨bundle, digest, "dambi-v2/2", module_⟩ })
  else pure ()

def setSettings (input : String) : MutResult ScamState SessionError Unit := do
  let s ← update fun s => (s, s)
  lift (require (input.utf8ByteSize ≤ s.config.limits.maxBundleBytes)
    ⟨"INVALID_CONFIG", "scam settings exceed maxBundleBytes"⟩)
  let settings ← lift (kit.settingsFromText input)
  lift (kit.validateSettings settings s.config.limits)
  match s.installed with
  | none => pure ()
  | some installed =>
    let _ ← lift (kit.effectivePair installed.bundle settings s.config.limits)
  update fun s => ((), { s with config := { s.config with settings } })

/-- One more subject: a second action on the same pool and token joins the first. -/
def addSubject (subject : Subject) (support : Json) : List (Subject × Json) → List (Subject × Json)
  | [] => [(subject, support)]
  | (known, knownSupport) :: rest =>
    if known.chainId = subject.chainId ∧ known.pool = subject.pool ∧ known.token = subject.token
    then ({ known with actionPaths := known.actionPaths ++ subject.actionPaths }, knownSupport) ::
      rest
    else (known, knownSupport) :: addSubject subject support rest

def collectSubjects (nodes : List Node) (support : List Json) : List (Subject × Json) × Bool :=
  nodes.foldl (fun (subjects, unresolved) node =>
    match kit.subject node support with
    | .ignore => (subjects, unresolved)
    | .unresolved => (subjects, true)
    | .subject subject support => (addSubject subject support subjects, unresolved)) ([], false)

def pinTargets (planId : String) (subjects : List (Subject × Json)) : List PinnedTarget :=
  subjects.zipIdx.map fun ((subject, support), index) => {
    subject, support
    group := s!"{planId}-sg{index}"
    historyId := s!"{planId}-s{index}-history"
    profileId := s!"{planId}-s{index}-profile" }

def pinnedContext (installed : Installed) (pair : PresetPair) (settingsHash : String) : Json :=
  .obj [
    ("algorithm", match installed.module_ with
      | some identity => .obj [("identity", identity), ("state", .str "connected")]
      | none => .obj [("state", .str "unavailable")]),
    ("bundleDigest", .str installed.digest),
    ("bundleSequence", .str installed.bundle.sequence),
    ("candidates",
      .obj [("established", pair.established.wire), ("newMarket", pair.newMarket.wire)]),
    ("contractVersion", .str "0.1"),
    ("customized", .bool (!s.config.settings.overrides.isEmpty ||
      !s.config.settings.additionalRules.isEmpty)),
    ("selection", pair.selection),
    ("settingsHash", .str settingsHash),
    ("settingsHashScheme", .str "sha256-jcs-scam-v1")]

def pin (nodes : List Node) (planId : String) (now : Nat) : ScamPlan :=
  let plan : ScamPlan := { config := s.config, installed := s.installed, startedAt := now }
  if !s.config.settings.enabled then { plan with inactive := some "user_disabled" }
  else match s.installed with
  | none => { plan with reason := some .bundleUnavailable }
  | some installed =>
    if now < installed.bundle.issuedAtMs ∨ installed.bundle.expiresAtMs ≤ now then
      { plan with reason := some .bundleInvalid }
    else match kit.effectivePair installed.bundle s.config.settings s.config.limits with
    | .error _ => { plan with reason := some .bundleInvalid }
    | .ok pair =>
      match kit.hash "dambi.scam.settings/1" (.obj [
          ("candidates", .obj [("established", pair.established.wire),
            ("newMarket", pair.newMarket.wire)]),
          ("selection", pair.selection)]) with
      | .error _ => { plan with reason := some .bundleInvalid }
      | .ok settingsHash =>
        let plan := { plan with context := some (s.pinnedContext installed pair settingsHash) }
        if pair.newMarket.rules.isEmpty && pair.established.rules.isEmpty then
          { plan with inactive := some "no_active_rules", pair := some pair }
        else
          let (subjects, unresolved) := collectSubjects kit nodes installed.bundle.support
          let plan := { plan with unresolved, pair := some pair }
          if s.config.limits.maxTargets < subjects.length ∨
              s.config.limits.maxCalls < subjects.length * 2 then
            { plan with reason := some .resourceLimit }
          else
            let targets := pinTargets planId subjects
            { plan with
              targets
              calls := if installed.module_.isSome then targets.flatMap fun target =>
                  kit.targetCalls target pair installed.builderVersion s.config.limits.maxCalls
                else [] }

end ScamState

/-! ## Evaluation -/

namespace ScamPlan

variable (kit : ScamKit)

def scopeNotice : Json := .str "patterns_only_no_sellability_guarantee"

variable (plan : ScamPlan)

def report (status : String) (reasons targets : List Json) : Json :=
  let fields := [("reasons", .arr reasons), ("scopeNotice", scopeNotice), ("status", .str status),
    ("targets", .arr targets)]
  .obj (plan.context.elim fields (Json.insertField "pinned" · fields))

def targetFailure (target : PinnedTarget) (reason : FailureReason) : Json :=
  .obj [("reasons", .arr [reason.wire]), ("rules", .arr []), ("status", .str "insufficient"),
    ("subject", kit.subjectWire target.subject)]

def exceedsBudget (report : Json) : Bool :=
  (kit.encodedLength report).all (plan.config.limits.maxResultBytes < ·)

def failed (reason : FailureReason) : Json :=
  match plan.inactive with
  | some inactive => plan.report "disabled" [.str inactive] []
  | none =>
    let report := plan.report "insufficient" [reason.wire]
      (plan.targets.map (targetFailure kit · reason))
    if plan.exceedsBudget kit report then
      .obj [("reasons", .arr [reason.wire, .str "resource_limit"]), ("scopeNotice", scopeNotice),
        ("status", .str "insufficient"), ("targets", .arr [])]
    else report

variable (parseJson : String → Except StrictJsonError Json)

def parseInput (plan : ScamPlan)
    (input : Option String) (planId : String) : Except FailureReason (List (String × Json)) :=
  match input with
  | none => .error .scamResultsMissing
  | some input => do
    require (input.utf8ByteSize ≤ plan.config.limits.maxResultBytes + 512) .resourceLimit
    let value ← (parseJson input).mapError fun _ => .invalidScamInput
    let results := ((value.get? "batch").bind (·.get? "results")).bind Json.asObject
    -- an explicit null is not an absent observation
    require (results.all fun results => results.all fun (_, fact) =>
      (fact.get? "blockNumber").all fun block => !block.isNull) .invalidScamInput
    match kit.inputFromValue value with
    | none => .error .invalidScamInput
    | some .notConfigured => .error .scamResultsMissing
    | some (.unavailable reason) => .error reason
    | some (.data batchPlan results) =>
      require (batchPlan = planId) .invalidScamInput
      let known := plan.targets.flatMap fun target => [target.historyId, target.profileId]
      require (results.all fun (key, _) => key ∈ known) .invalidScamInput
      .ok results

def analyzeTargets (analyze : PinnedTarget → Program Nat (Except FailureReason Json)) :
    List PinnedTarget → Program Nat (List Json)
  | [] => pure []
  | target :: rest => do
    let result ← analyze target
    let results ← analyzeTargets analyze rest
    pure (match result with
      | .ok report => report :: results
      | .error reason => targetFailure kit target reason :: results)

def hasStatus (status : String) (report : Json) : Bool :=
  (report.index "status").asStr == some status

/-- The reasons of the targets without repetition. -/
def mergeReasons (reasons : List Json) (results : List Json) : List Json :=
  (results.flatMap fun report => (report.index "reasons").asArray.getD []).foldl
    (fun reasons reason => if reasons.contains reason then reasons else reasons ++ [reason]) reasons

/-- The report of a plan whose targets were analysed. -/
def summarize (results : List Json) : Json :=
  let status :=
    if results.any (hasStatus "warn") then "warn"
    else if plan.unresolved || results.any (hasStatus "insufficient") then "insufficient"
    else if results.any (hasStatus "quiet") then "quiet"
    else "not_applicable"
  let reasons := mergeReasons
    (if plan.unresolved then [FailureReason.subjectUnresolved.wire] else []) results
  let report := plan.report status reasons results
  if plan.exceedsBudget kit report then plan.failed kit .resourceLimit else report

def evaluate (plan : ScamPlan)
    (planId : String) (input : Option String) (now : Nat) (policyDeadline : Option Nat)
    (allowedSkew : Nat) : Program Nat Json :=
  match plan.inactive with
  | some inactive => pure (plan.report "disabled" [.str inactive] [])
  | none => match plan.reason with
    | some reason => pure (plan.failed kit reason)
    | none => match plan.installed with
      | none => pure (plan.failed kit .bundleUnavailable)
      | some installed =>
        if now < installed.bundle.issuedAtMs ∨ installed.bundle.expiresAtMs ≤ now then
          pure (plan.failed kit .bundleInvalid)
        else match plan.pair with
        | none => pure (plan.failed kit .bundleInvalid)
        | some pair =>
          if plan.targets.isEmpty then
            pure (if plan.unresolved then plan.failed kit .subjectUnresolved
              else plan.report "not_applicable" [] [])
          else match installed.module_, policyDeadline with
          | none, _ => pure (plan.failed kit .algorithmUnavailable)
          | some _, none => pure (plan.failed kit .noTimeBudget)
          | some module_, some hardDeadline =>
            let latest := hardDeadline - plan.config.limits.scamEvalReserveMs
            if latest ≤ now then pure (plan.failed kit .noTimeBudget)
            else
              -- the host's fetch time counts against the plan's own timeout
              let timeoutAt := min (plan.startedAt + plan.config.limits.scamTimeoutMs)
                maxSafeInteger
              if timeoutAt ≤ now then pure (plan.failed kit .timeout)
              else
                let deadline := min (min latest timeoutAt) installed.bundle.expiresAtMs
                match plan.parseInput kit parseJson input planId with
                | .error reason => pure (plan.failed kit reason)
                | .ok batch => do
                  let results ← analyzeTargets kit (fun target =>
                    kit.analyzeTarget plan planId target pair installed module_ batch now
                      allowedSkew deadline) plan.targets
                  pure (plan.summarize kit results)

end ScamPlan

/-- `policy_fact_deadline`: the earliest moment at which a fact of the batch is stale. -/
def policyFactDeadline (parseJson : String → Except StrictJsonError Json) (input : String)
    (maxBytes maxAge : Nat) : Option Nat :=
  if maxBytes < input.utf8ByteSize then none
  else match parseJson input with
  | .error _ => none
  | .ok value => do
    let results ← (← value.get? "results").asObject
    results.foldlM (fun deadline (_, result) => do
      let observed ← ((← result.get? "observedAt").asU64).filter (· ≤ maxSafeInteger)
      some (min deadline (min (observed + maxAge) maxSafeInteger))) maxSafeInteger

def scamRiskReason : Reason :=
  ⟨"__scam::risk", some "scam risk pattern observed", .warn, .scam⟩

/-- `compose`: a scam warning raises an allow to a warning and adds its reason. -/
def composeScam (policy : EvaluationReport) : Option Json → EvaluationReport
  | none => policy
  | some scam =>
    if ScamPlan.hasStatus "warn" scam then
      { policy with
        decision := if policy.decision = .allow then .warn else policy.decision
        reasons := policy.reasons ++ [scamRiskReason]
        scam := some scam }
    else { policy with scam := some scam }

end Dambi
