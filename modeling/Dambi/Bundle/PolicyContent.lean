import Dambi.Runtime.Basic

/-!
# Content of a policy bundle

`bundle/policy_content.rs`: the checks of an authenticated payload, entry by
entry, and the compilation of all entries together. Deserialisation of a
manifest is the parameter `fromValue`.
-/

namespace Dambi

open Fallible

/-! ## Errors -/

inductive PolicySemanticErrorKind where
  | invalidConfig
  | invalidPolicyBundle
  | unsupportedRegistryRef
  | policyScopeMismatch
  | policyExpired
  | policySequenceRejected
  | limitExceeded
deriving DecidableEq, Repr

structure PolicySemanticError where
  kind : PolicySemanticErrorKind
  path : String
  message : String
deriving DecidableEq, Repr

namespace PolicyContent

def invalid (path message : String) : PolicySemanticError :=
  ⟨.invalidPolicyBundle, path, message⟩

def checkCount (count maximum : Nat) (path : String) : Except PolicySemanticError Unit :=
  require (count ≤ maximum) ⟨.limitExceeded, path, s!"item count {count} exceeds {maximum}"⟩

def childPath (path key : String) : String := s!"{path}/{Text.escapePointer key}"

/-- A loop that knows the index of its element. -/
def forIndexed {α : Type} (xs : List α) (f : Nat → α → Except PolicySemanticError Unit) :
    Except PolicySemanticError Unit :=
  forM xs.zipIdx fun (x, index) => f index x

/-! ## Raw structure -/

def closedObject (value : Json) (path : String) (allowed : List String) :
    Except PolicySemanticError (List (String × Json)) :=
  match value.asObject with
  | none => .error (invalid path "expected an object")
  | some fields => do
    forM (fields.map Prod.fst) fun key =>
      require (key ∈ allowed) (invalid (childPath path key) "unsupported manifest field")
    .ok fields

def arrayAt (value : Json) (path message : String) : Except PolicySemanticError (List Json) :=
  match value.asArray with
  | none => .error (invalid path message)
  | some items => .ok items

/-- The check of one raw call. -/
def validateNestedCall (path : String) (call : Json) : Except PolicySemanticError Unit := do
  let fields ← closedObject call path ["id", "method", "params", "outputs", "optional"]
  match fields.lookup "outputs" with
  | none => .ok ()
  | some outputs =>
    let path := s!"{path}/outputs"
    let outputs ← arrayAt outputs path "outputs must be an array"
    forIndexed outputs fun index output => do
      let _ ← closedObject output s!"{path}/{index}" ["kind", "field", "type", "from", "required"]

def validateNestedFields (manifest : Json) (path : String) : Except PolicySemanticError Unit := do
  match manifest.get? "trigger" with
  | none => .ok ()
  | some trigger => do let _ ← closedObject trigger s!"{path}/trigger" ["scope", "where"]
  match manifest.get? "custom_context" with
  | none => .ok ()
  | some context => do let _ ← closedObject context s!"{path}/custom_context" ["fields"]
  match manifest.get? "policy_rpc" with
  | none => .ok ()
  | some calls =>
    let path := s!"{path}/policy_rpc"
    let calls ← arrayAt calls path "policy_rpc must be an array"
    forIndexed calls fun index call => validateNestedCall s!"{path}/{index}" call

/-! ## The manifest -/

def supportedType : String → Option String
  | "String" => some "String"
  | "Long" => some "Long"
  | "Bool" => some "Bool"
  | "Set<String>" => some "Set<String>"
  | "Decimal" => some "decimal"
  | "decimal" => some "decimal"
  | _ => none

def isIdentifier (name : String) : Bool :=
  match name.toList with
  | [] => false
  | first :: rest =>
    (first.isAlpha || first == '_') && rest.all fun c => c.isAlphanum || c == '_'

def validateSelector (selector : String) (output : Bool) (path : String) :
    Except PolicySemanticError Unit :=
  match Text.stripStart selector "$." with
  | none => .error (invalid path "selector must start with $.")
  | some selector => do
    require (selector.toList.all (· ∉ ['[', ']', '*', '(', ')']))
      (invalid path "unsupported selector syntax")
    let parts := Text.split selector '.'
    require (parts.all (· ≠ "")) (invalid path "selector contains an empty segment")
    if output then
      require (parts.head? = some "result") (invalid path "output selector must use $.result")
    else match parts with
      | "action" :: _ => .ok ()
      | "root" :: rest =>
        require (rest = [] ∨ rest ∈ [["chain_id"], ["from"], ["to"]])
          (invalid path "unknown transaction root field")
      | _ => .error (invalid path "parameter selector must use $.root or $.action")

/-- The declared type an output of a projection type must have: the two legacy
record projections have none. -/
def projectionType : ProjectionType → Option String
  | .string => some "String"
  | .long => some "Long"
  | .bool => some "Bool"
  | .decimal => some "decimal"
  | .setString => some "Set<String>"
  | .usdValuation | .windowStats => none

variable (m : ManifestV2) (path : String)

def validateOutput (output : ContextProjection) :
    Except PolicySemanticError Unit := do
  require (output.kind = "context") (invalid s!"{path}/kind" "projection kind must be context")
  validateSelector output.source true s!"{path}/from"
  match projectionType output.typeName with
  | none => .error (invalid s!"{path}/type"
      "legacy record projections are not supported by ManifestV2")
  | some expected =>
    require (m.customContext.fields[output.field]?.bind supportedType = some expected)
      (invalid s!"{path}/type" "projection type must match its declared custom field type")

def validateCall (call : PolicyRpcCallSpec) :
    Except PolicySemanticError Unit := do
  require (call.id ≠ "") (invalid s!"{path}/id" "call id must not be empty")
  require (call.method ≠ "") (invalid s!"{path}/method" "method must not be empty")
  -- the planner substitutes top-level strings that begin with `$.` and nothing else
  forM call.params.toList fun (name, value) =>
    match value.asStr.filter (Text.startsWith · "$.") with
    | none => .ok ()
    | some selector => validateSelector selector false (childPath s!"{path}/params" name)
  checkCount call.outputs.length maxPolicyRpcV2OutputsPerCall s!"{path}/outputs"
  forIndexed call.outputs fun index output => validateOutput m s!"{path}/outputs/{index}" output

def validateManifest : Except PolicySemanticError Unit := do
  checkCount m.policyRpc.length maxPolicyRpcV2CallSpecs s!"{path}/policy_rpc"
  checkCount m.customContext.fields.size maxPolicyRpcV2CustomContextFields
    s!"{path}/custom_context/fields"
  forM m.customContext.fields.toList fun (field, typeName) => do
    let path := childPath s!"{path}/custom_context/fields" field
    require (isIdentifier field) (invalid path "custom field must be a Cedar identifier")
    require ((supportedType typeName).isSome) (invalid path "unsupported custom field type")
  forIndexed m.policyRpc fun index call => validateCall m s!"{path}/policy_rpc/{index}" call
  m.validate.mapError fun error => invalid path s!"invalid ManifestV2: {error.display}"

/-! ## References to custom fields -/

section References

variable (m : ManifestV2) (path : String)

/-- `validate_receiver_refs`: every possible origin of an attribute receiver is
followed. The work list is a stack, so the `else` branch of a conditional goes
first. `fuel` bounds the nesting of the expression. -/
def validateReceiverRefs : Nat → Json → List String → Except PolicySemanticError Unit
  | 0, _, _ => .ok ()
  | fuel + 1, current, fields =>
    if (current.get? "Var").bind Json.asStr = some "context" then
      match fields with
      | first :: field :: _ =>
        require (first ≠ "custom" ∨ field ∈ m.customContext.fields)
          (invalid path s!"undeclared custom context field {field}")
      | _ => .ok ()
    else match current.get? "." with
    | some access =>
      match (access.index "attr").asStr with
      | some field => validateReceiverRefs fuel (access.index "left") (field :: fields)
      | none => .ok ()
    | none => match current.get? "if-then-else" with
      | some branches => do
        validateReceiverRefs fuel (branches.index "else") fields
        validateReceiverRefs fuel (branches.index "then") fields
      | none => match current.get? "Record", fields with
        | some record, field :: rest =>
          match record.get? field with
          | some value => validateReceiverRefs fuel value rest
          | none => .ok ()
        | _, _ => .ok ()

/-- The attributes an access or a `has` names. -/
def attributes (operation : Json) : List String :=
  match operation.index "attr" with
  | .str field => [field]
  | .arr items => items.filterMap Json.asStr
  | _ => []

/-- The check of one node of the policy expression. -/
def validateOperators (fields : List (String × Json)) : Except PolicySemanticError Unit :=
  forM [".", "has"] fun operator =>
    match fields.lookup operator with
    | none => .ok ()
    | some operation =>
      let left := operation.index "left"
      validateReceiverRefs m path left.depth left (attributes operation)

mutual

/-- `validate_custom_refs` over the parsed policy. The work list is a stack, so
the last child of a node is inspected first. -/
def validateCustomRefs : Json → Except PolicySemanticError Unit
  | .arr items => validateCustomItems items
  | .obj fields => do
    validateOperators m path fields
    validateCustomFields fields
  | _ => .ok ()

def validateCustomItems : List Json → Except PolicySemanticError Unit
  | [] => .ok ()
  | item :: rest => do
    validateCustomItems rest
    validateCustomRefs item

def validateCustomFields : List (String × Json) → Except PolicySemanticError Unit
  | [] => .ok ()
  | (_, value) :: rest => do
    validateCustomFields rest
    validateCustomRefs value

end

/-- The depth of the expression is enough fuel: no more of it changes the answer. -/
theorem validateReceiverRefs_fuel {f : Nat} {current : Json}
    (h : current.depth ≤ f) (fields : List String) :
    validateReceiverRefs m path f current fields =
      validateReceiverRefs m path (f + 1) current fields := by
  induction f generalizing current fields with
  | zero =>
    have hs : ∀ key, current.get? key = none := by
      intro key
      cases hg : current.get? key with
      | none => rfl
      | some value =>
        have := Json.depth_lt_of_get? hg
        omega
    simp [validateReceiverRefs, hs]
  | succ f ih =>
    unfold validateReceiverRefs
    split
    · rfl
    · split
      · next a ha =>
        have hl := Json.depth_lt_of_get? ha
        have hle := a.depth_index_le "left"
        split
        · exact ih (by omega) _
        · rfl
      · split
        · next bs hb =>
          have hl := Json.depth_lt_of_get? hb
          have he := bs.depth_index_le "else"
          have ht := bs.depth_index_le "then"
          rw [ih (by omega), ih (by omega)]
        · split
          · next record field r hr =>
            have hl := Json.depth_lt_of_get? hr
            split
            · next value hv =>
              have hv := Json.depth_lt_of_get? hv
              exact ih (by omega) _
            · rfl
          · rfl

end References

/-! ## Entries -/

/-- What the loop of `validate_policies` accumulates. -/
structure Accepted where
  ids : List String := []
  callIds : List String := []
  manifests : List ManifestV2 := []
  compilations : List (String × String) := []

def singlePolicy (set : PolicySet) (path : String) : Except PolicySemanticError CedarPolicy := do
  require (set.templates = 0) (invalid path "policy templates are not supported")
  match set.policies with
  | [] => .error (invalid path "entry must contain one static Cedar policy")
  | [policy] => .ok policy
  | _ => .error (invalid path "entry must contain exactly one static Cedar policy")

section Entries

variable (engines : Engines) (fromValue : Json → Except String ManifestV2)

def entryManifest (entry : Json) (id path : String) : Except PolicySemanticError ManifestV2 := do
  validateNestedFields (entry.index "manifest") path
  let manifest ← (fromValue (entry.index "manifest")).mapError
    fun error => invalid path s!"invalid ManifestV2: {error}"
  require (manifest.id = id) (invalid s!"{path}/id" "manifest id must equal its policy entry id")
  validateManifest manifest path
  .ok manifest

def entrySource (entry : Json) (id : String) (manifest : ManifestV2) (path : String) :
    Except PolicySemanticError String :=
  match (entry.index "policy").asStr with
  | none => .error (invalid path "policy must be Cedar text")
  | some source => do
    let set ← (engines.cedar.parsePolicySet source).mapError
      fun error => invalid path s!"invalid Cedar policy: {error}"
    let policy ← singlePolicy set path
    require (policy.annotation "id" = some id)
      (invalid path "Cedar @id must equal its policy entry id")
    let est ← (engines.cedar.toJson policy).mapError
      fun error => invalid path s!"cannot inspect Cedar policy: {error}"
    validateCustomRefs manifest path est
    .ok source

/-- The body of the loop of `validate_policies`. -/
def validateEntry (acc : Accepted) (entry : Json) (index : Nat) :
    Except PolicySemanticError Accepted :=
  let path := s!"$/policies/{index}"
  match (entry.index "id").asStr with
  | none => .error (invalid s!"{path}/id" "policy id must be a string")
  | some id => do
    let ids ← insertFresh acc.ids id (invalid s!"{path}/id" "duplicate policy id")
    let manifestPath := s!"{path}/manifest"
    let manifest ← entryManifest fromValue entry id manifestPath
    let callIds ← manifest.policyRpc.zipIdx.foldlM (fun seen (call, index) =>
      insertFresh seen s!"{manifest.id}::{call.id}"
        (invalid s!"{manifestPath}/policy_rpc/{index}/id"
        "policy RPC call id collides with another manifest/spec pair")) acc.callIds
    let source ← entrySource engines entry id manifest s!"{path}/policy"
    let schema ← (engines.composePerPolicy manifest).mapError
      fun error => invalid manifestPath s!"invalid policy schema: {error.display}"
    .ok {
      ids, callIds
      manifests := acc.manifests ++ [manifest]
      compilations := acc.compilations ++ [(source, schema)] }

def validatePolicies (payload : Json) : Except PolicySemanticError (List ManifestV2) := do
  let entries ← arrayAt (payload.index "policies") "$/policies" "policies must be an array"
  require (entries ≠ []) (invalid "$/policies" "policies must not be empty")
  checkCount entries.length maxPolicyRpcV2Manifests "$/policies"
  let acc ← entries.zipIdx.foldlM
    (fun acc (entry, index) => validateEntry engines fromValue acc entry index) {}
  let _ ← (buildFromPerPolicy engines.cedar acc.compilations).mapError
    fun error => invalid "$/policies" s!"policy compilation failed: {error.display}"
  .ok acc.manifests

end Entries

end PolicyContent

end Dambi
