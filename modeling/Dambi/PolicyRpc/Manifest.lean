import Dambi.Lib.Fallible
import Dambi.Json

/-!
# Policy manifests

`policy_rpc/manifest_v2.rs`: the per-policy manifest and the structural
invariants that `ManifestV2::validate` checks. `validate_eq_ok` states these
as one predicate, `WellFormed`, and every later module cites that.
-/

namespace Dambi

open Fallible List

/-- `BTreeMap` of the standard library. -/
abbrev BTreeMap (κ ν : Type) [Ord κ] := Std.TreeMap κ ν

/-! ## Errors -/

inductive PolicyRpcError where
  | invalidManifest (message : String)
  | selector (message : String)
  | rpcResult (message : String)
  | schema (message : String)
  | systemFail (callId reason : String)
deriving DecidableEq, Repr

/-- The `Display` text of an error. -/
def PolicyRpcError.display : PolicyRpcError → String
  | .invalidManifest message => s!"invalid manifest: {message}"
  | .selector message => s!"selector error: {message}"
  | .rpcResult message => s!"rpc result error: {message}"
  | .schema message => s!"schema error: {message}"
  | .systemFail callId reason =>
    s!"rpc unavailable for required requirement `{callId}`: {reason}"

/-! ## The manifest -/

def manifestV2SchemaVersion : Nat := 2
def maxPolicyRpcV2Manifests : Nat := 128
def maxPolicyRpcV2CallSpecs : Nat := 64
def maxPolicyRpcV2PlannedCalls : Nat := 64
def maxPolicyRpcV2OutputsPerCall : Nat := 64
def maxPolicyRpcV2CustomContextFields : Nat := 64
def maxPolicyRpcV2SetStringEntries : Nat := 256

inductive TriggerScope where
  | inner
  | outer
deriving DecidableEq, Repr

inductive TriggerField where
  | actionDomain
  | actionTag
  | actionVenue
  | txChainId
  | txFrom
  | txTo
deriving DecidableEq, Repr

inductive TriggerConstraint where
  | eq (want : String)
  | ne (want : String)
  | isIn (set : List String)
  | nin (set : List String)
deriving DecidableEq, Repr

/-- `where_` is a `BTreeMap` in the source; it is only ever iterated. -/
structure Trigger where
  scope : TriggerScope := .inner
  where_ : List (TriggerField × TriggerConstraint) := []
deriving DecidableEq, Repr

inductive ProjectionType where
  | string
  | long
  | bool
  | decimal
  | usdValuation
  | windowStats
  | setString
deriving DecidableEq, Repr

structure ContextProjection where
  kind : String
  field : String
  typeName : ProjectionType
  source : String
  required : Bool := false
deriving DecidableEq, Repr

structure PolicyRpcCallSpec where
  id : String
  method : String
  params : BTreeMap String Json := ∅
  outputs : List ContextProjection := []
  optional : Bool := false

structure CustomContext where
  fields : BTreeMap String String := ∅

structure ManifestV2 where
  id : String
  schemaVersion : Nat
  trigger : Trigger := {}
  policyRpc : List PolicyRpcCallSpec := []
  customContext : CustomContext := {}

namespace ManifestV2

/-! ## Validation -/

variable (m : ManifestV2)

def producedFields : List String :=
  m.policyRpc.flatMap fun call => call.outputs.map (·.field)

/-- The loop of `validate` over the call specs: `ids` and `produced` are its two
hash sets, and the produced fields are its result. -/
def validateCalls (m : ManifestV2) (ids produced : List String) :
    List PolicyRpcCallSpec → Except PolicyRpcError (List String)
  | [] => .ok produced
  | call :: rest => do
    let ids ← insertFresh ids call.id (.invalidManifest
      s!"manifest `{m.id}` has duplicate policy_rpc id `{call.id}`")
    require (call.outputs.length ≤ maxPolicyRpcV2OutputsPerCall) (.invalidManifest
      s!"manifest `{m.id}` call `{call.id}` declares {call.outputs.length} outputs (max 64)")
    let produced ← insertAll produced (call.outputs.map (·.field)) fun field =>
      .invalidManifest s!"manifest `{m.id}` produces custom_context field `{field}` more than once"
    validateCalls m ids produced rest

/-- `ManifestV2::validate`. The source walks its produced fields in hash order;
here they keep declaration order, which only picks the field an error names. -/
def validate : Except PolicyRpcError Unit := do
  require (m.schemaVersion = manifestV2SchemaVersion) (.invalidManifest
    s!"manifest `{m.id}` has schema_version {m.schemaVersion} (expected 2)")
  require (m.policyRpc.length ≤ maxPolicyRpcV2CallSpecs) (.invalidManifest
    s!"manifest `{m.id}` declares {m.policyRpc.length} policy_rpc call specs (max 64)")
  require (m.customContext.fields.size ≤ maxPolicyRpcV2CustomContextFields) (.invalidManifest
    s!"manifest `{m.id}` declares {m.customContext.fields.size} custom_context fields (max 64)")
  let produced ← m.validateCalls [] [] m.policyRpc
  forM m.customContext.fields.keys fun field =>
    require (field ∈ produced) (.invalidManifest
      (s!"manifest `{m.id}` declares custom_context field `{field}` " ++
        "with no producing policy_rpc output"))
  forM produced fun field =>
    require (field ∈ m.customContext.fields) (.invalidManifest
      s!"manifest `{m.id}` policy_rpc output field `{field}` is not declared in custom_context")

structure WellFormed (m : ManifestV2) : Prop where
  schemaVersion : m.schemaVersion = manifestV2SchemaVersion
  callSpecs : m.policyRpc.length ≤ maxPolicyRpcV2CallSpecs
  customFields : m.customContext.fields.size ≤ maxPolicyRpcV2CustomContextFields
  callIds : (m.policyRpc.map (·.id)).Nodup
  outputs : ∀ call ∈ m.policyRpc, call.outputs.length ≤ maxPolicyRpcV2OutputsPerCall
  produced : m.producedFields.Nodup
  declared : ∀ field ∈ m.customContext.fields.keys, field ∈ m.producedFields
  fed : ∀ field ∈ m.producedFields, field ∈ m.customContext.fields

theorem validateCalls_eq_ok {cs : List PolicyRpcCallSpec}
    {ids p result : List String} (hi : ids.Nodup) (hp : p.Nodup) :
    m.validateCalls ids p cs = .ok result ↔
      (ids ++ cs.map (·.id)).Nodup ∧
      (∀ c ∈ cs, c.outputs.length ≤ maxPolicyRpcV2OutputsPerCall) ∧
      (p ++ cs.flatMap fun c => c.outputs.map (·.field)).Nodup ∧
      result = p ++ cs.flatMap fun c => c.outputs.map (·.field) := by
  induction cs generalizing ids p with
  | nil => simp [validateCalls, hi, hp, eq_comm]
  | cons c r ih =>
    simp only [validateCalls, bind_eq_ok, insertFresh_eq_ok, require_eq_ok,
      map_cons, flatMap_cons, forall_mem_cons]
    constructor
    · rintro ⟨ids', ⟨hf, rfl⟩, -, hl, p', hin, hr⟩
      obtain ⟨rfl, hp'⟩ := (insertAll_eq_ok hp).1 hin
      have hi' : (ids ++ [c.id]).Nodup := by
        rw [← concat_eq_append]
        exact hi.concat hf
      obtain ⟨h₁, h₂, h₃, h₄⟩ := (ih hi' hp').1 hr
      refine ⟨by simpa using h₁, ⟨hl, h₂⟩, by simpa using h₃, by simpa using h₄⟩
    · rintro ⟨h₁, ⟨hl, h₂⟩, h₃, h₄⟩
      have ha : ids ++ c.id :: r.map (·.id) = (ids ++ [c.id]) ++ r.map (·.id) := by
        simp
      rw [ha] at h₁
      rw [← append_assoc] at h₃ h₄
      have hi' : (ids ++ [c.id]).Nodup := h₁.of_append_left
      have hp' : (p ++ c.outputs.map (·.field)).Nodup := h₃.of_append_left
      have hf : c.id ∉ ids := fun hm =>
        disjoint_of_nodup_append hi' hm (by simp)
      exact ⟨_, ⟨hf, rfl⟩, (), hl, _, (insertAll_eq_ok hp).2 ⟨rfl, hp'⟩,
        (ih hi' hp').2 ⟨h₁, h₂, h₃, h₄⟩⟩

/-- `ManifestV2::validate` accepts exactly the well-formed manifests. -/
theorem validate_eq_ok : m.validate = .ok () ↔ m.WellFormed := by
  simp only [validate, bind_eq_ok, require_eq_ok,
    validateCalls_eq_ok m nodup_nil nodup_nil, forM_eq_ok, nil_append]
  constructor
  · rintro ⟨-, hv, -, hs, -, hf, p, ⟨hi, ho, hn, rfl⟩, -, hd,
      hfed⟩
    exact ⟨hv, hs, hf, hi, ho, hn, hd, hfed⟩
  · intro h
    exact ⟨(), h.schemaVersion, (), h.callSpecs, (), h.customFields, _,
      ⟨h.callIds, h.outputs, h.produced, rfl⟩, (), h.declared, h.fed⟩

end ManifestV2

end Dambi
