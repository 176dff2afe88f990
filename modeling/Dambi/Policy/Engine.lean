import Dambi.PolicyRpc.Manifest
import Dambi.Policy.Verdict

/-!
# The Cedar policy engine

`policy/engine.rs` on its per-policy path, where every policy is validated
against its own schema at install and evaluation runs without a schema. The
`cedar_policy` crate is the parameter `Cedar`: its parsers, validator and
authorizer are arbitrary functions of the raw inputs they receive.
-/

namespace Dambi

open Fallible

/-! ## The `cedar_policy` crate -/

structure CedarPolicy where
  id : String
  annotations : List (String × String)
  body : String
deriving DecidableEq, Repr

def CedarPolicy.annotation (p : CedarPolicy) (key : String) : Option String :=
  p.annotations.lookup key

structure PolicySet where
  policies : List CedarPolicy
  templates : Nat := 0

inductive CedarDecision where
  | allow
  | deny
deriving DecidableEq, Repr

/-- The response of the authorizer: its determining policies in the order the
engine's hash set yields them, and the errors of policies it could not evaluate. -/
structure Response where
  decision : CedarDecision
  reason : List String
  errors : List String

abbrev Authorizer := String → String → String → Json → List CedarPolicy → Json → Response

/-- The second authorizer answers as the first one, with the hash sets in other orders. -/
def Authorizer.Reorders (f g : Authorizer) : Prop :=
  ∀ principal action resource context policies entities, ∃ reason,
    reason.Perm (f principal action resource context policies entities).reason ∧
      g principal action resource context policies entities =
        { f principal action resource context policies entities with reason }

/-- The functions of the `cedar_policy` crate that the crates call. A value that
Cedar builds from a text or a JSON is represented by that text or JSON, so its
constructor is a check. -/
structure Cedar where
  parsePolicySet : String → Except String PolicySet
  parseSchema : String → Except String Unit
  /-- The errors of a strict validation that did not pass. -/
  validate : PolicySet → String → Option (List String)
  toJson : CedarPolicy → Except String Json
  duplicateId : String → String
  parseEntityUid : String → Except String Unit
  entitiesFromJson : Json → Except String Unit
  contextFromJson : Json → Except String Unit
  newRequest : String → String → String → Json → Except String Unit
  isAuthorized : Authorizer

inductive PolicyError where
  | parse (message : String)
  | schema (message : String)
  | validation (message : String)
  | request (message : String)
  | context (message : String)
  | entities (message : String)
  | entityUid (message : String)
deriving DecidableEq, Repr

def PolicyError.display : PolicyError → String
  | .parse message => s!"failed to parse Cedar policy: {message}"
  | .schema message => s!"failed to parse Cedar schema: {message}"
  | .validation message => s!"failed to validate Cedar policy set against schema: {message}"
  | .request message => s!"failed to build Cedar request: {message}"
  | .context message => s!"failed to build Cedar context: {message}"
  | .entities message => s!"failed to build Cedar entities: {message}"
  | .entityUid message => s!"invalid entity uid: {message}"

/-! ## Installation -/

def baselinePermit : String :=
  "@id(\"engine/baseline-allow\")\npermit(principal, action, resource);\n"

def baselineAllowId : String := "engine/baseline-allow"

def schemalessEvalErrorId : String := "__schemaless_eval_error__"

/-- The engine of the per-policy path: `schema` is `None` there. -/
structure PolicyEngine where
  policySet : List CedarPolicy := []
  severities : BTreeMap String Severity := ∅
  reasons : BTreeMap String String := ∅

/-- The `@severity` annotation of a policy. -/
def CedarPolicy.severity (p : CedarPolicy) (userId : String) :
    Except PolicyError (Option Severity) :=
  match p.annotation "severity" with
  | none => .ok none
  | some "deny" => .ok (some .deny)
  | some "warn" => .ok (some .warn)
  | some other => .error (.parse
      s!"policy {userId}: unknown @severity({other.quote}); expected \"deny\" or \"warn\"")

/-- The id a policy is installed under: its `@id`, else Cedar's own. -/
def CedarPolicy.userId (p : CedarPolicy) : String := (p.annotation "id").getD p.id

variable (cedar : Cedar) (engine : PolicyEngine)

def ingestPolicy (p : CedarPolicy) : Except PolicyError PolicyEngine := do
  let severity ← p.severity p.userId
  require (p.userId ∉ engine.policySet.map (·.id)) (.parse (cedar.duplicateId p.userId))
  .ok {
    policySet := engine.policySet ++ [{ p with id := p.userId }]
    severities := severity.elim engine.severities (engine.severities.insert p.userId ·)
    reasons := (p.annotation "reason").elim engine.reasons (engine.reasons.insert p.userId ·) }

def validatePolicySet (set : PolicySet) (schema : String) : Except PolicyError Unit :=
  match cedar.validate set schema with
  | none => .ok ()
  | some [] => .error (.validation "unknown validation error")
  | some messages => .error (.validation ("; ".intercalate messages))

/-- The first pass of `build_from_per_policy` over one bundle. -/
def checkBundle (index : Nat) (policyText schemaText : String) : Except PolicyError Unit := do
  (cedar.parseSchema schemaText).mapError fun e => .schema s!"bundle #{index}: {e}"
  let set ← (cedar.parsePolicySet policyText).mapError fun e => .parse s!"bundle #{index}: {e}"
  validatePolicySet cedar set schemaText

/-- The first pass of `build_from_per_policy`. -/
def checkBundles (cedar : Cedar) (index : Nat) : List (String × String) → Except PolicyError Unit
  | [] => .ok ()
  | (policyText, schemaText) :: rest => do
    checkBundle cedar index policyText schemaText
    checkBundles cedar (index + 1) rest

def buildFromPerPolicy (bundles : List (String × String)) : Except PolicyError PolicyEngine := do
  checkBundles cedar 0 bundles
  let combined := bundles.foldl (fun text bundle => text ++ bundle.1 ++ "\n") baselinePermit
  let set ← (cedar.parsePolicySet combined).mapError .parse
  set.policies.foldlM (ingestPolicy cedar) {}

/-! ## Evaluation -/

namespace PolicyEngine

/-- The matched policies of the determining ids: the baseline permit and any
policy without `@severity` are passed over. -/
def matchedPolicies (determining : List String) : List MatchedPolicy :=
  determining.filterMap fun pid =>
    if pid = baselineAllowId then none
    else engine.severities[pid]?.map fun severity =>
      { policyId := pid, reason := engine.reasons[pid]?, severity, origin := .action }

def verdict (response : Response) : Verdict :=
  match response.errors with
  | err :: _ => .fail [{
      policyId := schemalessEvalErrorId
      reason := some s!"schema-less evaluation error: {err}"
      severity := .deny
      origin := .action }]
  | [] =>
    let matched := engine.matchedPolicies response.reason
    match response.decision with
    | .allow => .pass
    | .deny =>
      if matched.any (·.severity == .deny) then .fail matched
      else if matched ≠ [] then .warn matched
      else .fail []

def evaluate (principal action resource : String)
    (entities context : Json) : Except PolicyError Verdict := do
  (cedar.parseEntityUid principal).mapError .entityUid
  (cedar.parseEntityUid action).mapError .entityUid
  (cedar.parseEntityUid resource).mapError .entityUid
  (cedar.entitiesFromJson entities).mapError .entities
  (cedar.contextFromJson context).mapError .context
  (cedar.newRequest principal action resource context).mapError .request
  .ok (engine.verdict
    (cedar.isAuthorized principal action resource context engine.policySet entities))

variable {engine} {response : Response} {reason : List String}

theorem verdict_reordered (h : reason.Perm response.reason) :
    (engine.verdict response).Reordered (engine.verdict { response with reason }) := by
  have hm : (engine.matchedPolicies response.reason).Perm (engine.matchedPolicies reason) :=
    (h.filterMap _).symm
  unfold verdict
  cases response.errors with
  | cons err _ => exact .refl _
  | nil =>
    cases response.decision with
    | allow => exact .pass
    | deny =>
      have hn : engine.matchedPolicies response.reason = [] ↔ engine.matchedPolicies reason = [] :=
        ⟨fun h => (h ▸ hm).symm.eq_nil, fun h => (h ▸ hm).eq_nil⟩
      simp only [hm.any_eq, ne_eq, hn]
      split_ifs
      exacts [.fail hm, .refl _, .warn hm]

end PolicyEngine

end Dambi
