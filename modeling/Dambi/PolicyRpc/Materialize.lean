import Mathlib.Data.List.Induction
import Dambi.PolicyRpc.Planning

/-!
# Materialising results into the action context

`policy_rpc/materialize_v2.rs`: the host's raw results are projected under
`context.custom`. The verdict path drops the context of a failed run, so the
mutated context is the value of the success case only.

`materializeV2_eq` restates the nested loops as a list of `Step`s, each a write
or a failure, of which the first failure decides.
-/

namespace Dambi

open Fallible List PlannedCallV2

/-- `cedar_json::decimal_json`, in key order. -/
def decimalJson (value : String) : Json :=
  .obj [("__extn", .obj [("arg", .str value), ("fn", .str "decimal")])]

/-- The entries of a `Set<String>` payload. -/
def materializeEntries : List Json → Except PolicyRpcError (List Json)
  | [] => .ok []
  | entry :: rest =>
    match entry.asStr with
    | none => .error (.rpcResult "expected Set<String> entry string")
    | some s => do
      let rest ← materializeEntries rest
      .ok (.str s :: rest)

def materializeValue (value : Json) : ProjectionType → Except PolicyRpcError Json
  | .string =>
    match value.asStr with
    | some s => .ok (.str s)
    | none => .error (.rpcResult "expected String")
  | .long =>
    match value.asI64 <|> (value.asU64.bind fun v =>
      if v < 2 ^ 63 then some (v : Int) else none) with
    | some n => .ok (.int n)
    | none => .error (.rpcResult "expected Long")
  | .bool =>
    match value.asBool with
    | some b => .ok (.bool b)
    | none => .error (.rpcResult "expected Bool")
  | .decimal =>
    match value.asStr with
    | some s => .ok (decimalJson s)
    | none => .error (.rpcResult "expected Decimal string")
  | .setString =>
    match value.asArray with
    | none => .error (.rpcResult "expected Set<String> array")
    | some entries => do
      require (entries.length ≤ maxPolicyRpcV2SetStringEntries)
        (.rpcResult "expected Set<String> array length <= 256")
      let out ← materializeEntries entries
      .ok (.arr out)
  | .usdValuation => .error (.rpcResult
      "projection type `UsdValuation` is not supported in v2 materialization")
  | .windowStats => .error (.rpcResult
      "projection type `WindowStats` is not supported in v2 materialization")

def ContextProjection.project (output : ContextProjection) (payload : Json) :
    Except PolicyRpcError Json := do
  let selected ← resolveSelector output.source { result := payload }
  materializeValue selected output.typeName

def insertCustomField (context : Json) (field : String) (value : Json) :
    Except PolicyRpcError Json :=
  match context.asObject with
  | none => .error (.rpcResult "lowered action context is not an object")
  | some object =>
    match ((object.lookup "custom").getD (.obj [])).asObject with
    | none => .error (.rpcResult "context.custom is not an object")
    | some custom =>
      match custom.lookup field with
      | some _ => .error (.invalidManifest
          s!"context projection `custom.{field}` would overwrite an existing context field")
      | none => .ok (.obj (Json.insertField "custom" (.obj (Json.insertField field value custom))
          object))

/-- `apply_call_outputs`, over the outputs not applied yet. -/
def applyCallOutputs (call : PlannedCallV2) (payload : Json) (context : Json) :
    List ContextProjection → Except PolicyRpcError Json
  | [] => .ok context
  | output :: rest => do
    require (output.kind = "context")
      (.invalidManifest s!"unsupported projection kind `{output.kind}`")
    match output.project payload with
    | .error error =>
      if call.optional then applyCallOutputs call payload context rest
      else .error (.systemFail call.callId error.display)
    | .ok value => do
      let context ← insertCustomField context output.field value
      applyCallOutputs call payload context rest

def materializeV2 (results : BTreeMap String Json) (context : Json) :
    List PlannedCallV2 → Except PolicyRpcError Json
  | [] => .ok context
  | call :: rest =>
    match results[call.callId]? with
    | none =>
      if call.optional then materializeV2 results context rest
      else .error (.systemFail call.callId "missing rpc result")
    | some payload => do
      let context ← applyCallOutputs call payload context call.outputs
      materializeV2 results context rest

/-! ## Materialisation as a list of steps -/

/-- What one output, or one missing result, asks of the context. -/
inductive Step where
  | write (field : String) (type : ProjectionType) (optional : Bool) (value : Json)
  | fail (error : PolicyRpcError)

/-- The step of an output of a call with a result; an optional call passes over
an output that does not project. -/
def PlannedCallV2.outputStep (call : PlannedCallV2) (payload : Json)
    (output : ContextProjection) : Option Step :=
  if output.kind = "context" then
    match output.project payload with
    | .ok value => some (.write output.field output.typeName call.optional value)
    | .error error =>
      if call.optional then none else some (.fail (.systemFail call.callId error.display))
  else some (.fail (.invalidManifest s!"unsupported projection kind `{output.kind}`"))

def PlannedCallV2.steps (call : PlannedCallV2) (results : BTreeMap String Json) : List Step :=
  match results[call.callId]? with
  | none => if call.optional then [] else [.fail (.systemFail call.callId "missing rpc result")]
  | some payload => call.outputs.filterMap (call.outputStep payload)

def runSteps (context : Json) : List Step → Except PolicyRpcError Json
  | [] => .ok context
  | .write field _ _ value :: rest => do
    let context ← insertCustomField context field value
    runSteps context rest
  | .fail error :: _ => .error error

theorem runSteps_append (context : Json) (left right : List Step) :
    runSteps context (left ++ right) = runSteps context left >>= fun c => runSteps c right := by
  induction left generalizing context with
  | nil => rfl
  | cons step r ih =>
    cases step with
    | fail error => rfl
    | write field t o value =>
      simp only [cons_append, runSteps]
      cases insertCustomField context field value with
      | error e => rfl
      | ok c => simpa using ih c

theorem applyCallOutputs_eq (ca : PlannedCallV2) (p context : Json) (os : List ContextProjection) :
    applyCallOutputs ca p context os =
      runSteps context (os.filterMap (ca.outputStep p)) := by
  induction os generalizing context with
  | nil => rfl
  | cons o r ih =>
    by_cases hk : o.kind = "context"
    · cases hp : o.project p with
      | ok value =>
        simp only [applyCallOutputs, hk, require_pos, ok_bind, hp,
          outputStep, if_true, filterMap_cons, runSteps]
        cases insertCustomField context o.field value with
        | error e => rfl
        | ok c => simpa [outputStep] using ih c
      | error e =>
        cases ho : ca.optional with
        | true => simp [applyCallOutputs, hk, hp, outputStep, ho, ih]
        | false =>
          simp [applyCallOutputs, hk, hp, outputStep, ho, runSteps]
    · simp [applyCallOutputs, hk, outputStep, runSteps]

theorem materializeV2_eq (rs : BTreeMap String Json) (context : Json) (cs : List PlannedCallV2) :
    materializeV2 rs context cs = runSteps context (cs.flatMap (·.steps rs)) := by
  induction cs generalizing context with
  | nil => rfl
  | cons c r ih =>
    rw [flatMap_cons, runSteps_append]
    cases hr : rs[c.callId]? with
    | none =>
      cases ho : c.optional with
      | true => simp [materializeV2, PlannedCallV2.steps, hr, ho, runSteps, ih]
      | false => simp [materializeV2, PlannedCallV2.steps, hr, ho, runSteps]
    | some p =>
      simp [materializeV2, PlannedCallV2.steps, hr, applyCallOutputs_eq, ih]

/-! ## The outcome of the steps -/

def Step.failure? : Step → Option PolicyRpcError
  | .fail error => some error
  | .write .. => none

def Step.write? : Step → Option (String × Json)
  | .write field _ _ value => some (field, value)
  | .fail _ => none

def firstFailure (steps : List Step) : Option PolicyRpcError := steps.findSome? Step.failure?

def writes (steps : List Step) : List (String × Json) := steps.filterMap Step.write?

@[simp] theorem firstFailure_nil : firstFailure [] = none := rfl

@[simp] theorem firstFailure_fail (error : PolicyRpcError) (r : List Step) :
    firstFailure (.fail error :: r) = some error := rfl

@[simp] theorem firstFailure_write (field : String) (t : ProjectionType) (o : Bool)
    (value : Json) (rest : List Step) :
    firstFailure (.write field t o value :: rest) = firstFailure rest := rfl

@[simp] theorem writes_write (field : String) (t : ProjectionType) (o : Bool)
    (value : Json) (rest : List Step) :
    writes (.write field t o value :: rest) = (field, value) :: writes rest := rfl

@[simp] theorem writes_fail (e : PolicyRpcError) (rest : List Step) :
    writes (.fail e :: rest) = writes rest := rfl

theorem firstFailure_append (left right : List Step) :
    firstFailure (left ++ right) = (firstFailure left).or (firstFailure right) := by
  simp [firstFailure]

/-- The `custom` record after the given writes. -/
def customFields (ws : List (String × Json)) : List (String × Json) :=
  ws.foldl (fun custom w => Json.insertField w.1 w.2 custom) []

/-- A context without `custom` after the given writes: the slot is allocated by
the first of them. -/
def withCustom (fields : List (String × Json)) : List (String × Json) → Json
  | [] => .obj fields
  | ws => .obj (Json.insertField "custom" (.obj (customFields ws)) fields)

private theorem customFields_concat (ws : List (String × Json)) (w : String × Json) :
    customFields (ws ++ [w]) = Json.insertField w.1 w.2 (customFields ws) := by
  simp [customFields]

variable {ws : List (String × Json)} {field : String}

/-- The record holds the last write of each field. -/
theorem lookup_customFields_of_not_mem
    (h : field ∉ ws.map Prod.fst) : (customFields ws).lookup field = none := by
  induction ws using reverseRecOn with
  | nil => rfl
  | append_singleton ws w ih =>
    rw [map_append, mem_append, not_or] at h
    have hn : field ≠ w.1 := by simpa using h.2
    rw [customFields_concat, Json.lookup_insertField, if_neg hn, ih h.1]

theorem lookup_customFields_of_mem {value : Json}
    (hn : (ws.map Prod.fst).Nodup) (h : (field, value) ∈ ws) :
    (customFields ws).lookup field = some value := by
  induction ws using reverseRecOn with
  | nil => cases h
  | append_singleton ws w ih =>
    rw [customFields_concat, Json.lookup_insertField]
    rw [map_append] at hn
    rcases mem_append.1 h with hws | hw
    · have hne : field ≠ w.1 := by
        rintro rfl
        have hm : w.1 ∈ ws.map Prod.fst := mem_map.2 ⟨_, hws, rfl⟩
        exact disjoint_of_nodup_append hn hm (by simp)
      rw [if_neg hne, ih hn.of_append_left hws]
    · obtain rfl : (field, value) = w := by simpa using hw
      simp

variable {fs : List (String × Json)}

theorem insertCustomField_withCustom (hc : fs.lookup "custom" = none) (value : Json)
    (hf : field ∉ ws.map Prod.fst) :
    insertCustomField (withCustom fs ws) field value =
      .ok (withCustom fs (ws ++ [(field, value)])) := by
  cases ws with
  | nil => simp [insertCustomField, withCustom, Json.asObject, hc, customFields]
  | cons w r =>
    have hl := lookup_customFields_of_not_mem hf
    simp only [insertCustomField, withCustom, Json.asObject, Json.lookup_insertField, if_true,
      Option.getD_some, hl, Json.insertField_insertField, cons_append]
    rw [← cons_append, customFields_concat]

/-- Steps that write distinct fields of a context without `custom` either write
them all or end in their first failure. -/
theorem runSteps_withCustom (hc : fs.lookup "custom" = none) (ws : List (String × Json))
    (steps : List Step)
    (hn : ((ws ++ writes steps).map Prod.fst).Nodup) :
    runSteps (withCustom fs ws) steps =
      match firstFailure steps with
      | some e => .error e
      | none => .ok (withCustom fs (ws ++ writes steps)) := by
  induction steps generalizing ws with
  | nil => simp [runSteps, writes]
  | cons step rest ih =>
    cases step with
    | fail e => rfl
    | write field t o value =>
      have ha : ws ++ writes (.write field t o value :: rest) =
          (ws ++ [(field, value)]) ++ writes rest := by simp
      have hf : field ∉ ws.map Prod.fst := by
        intro hm
        rw [map_append] at hn
        exact disjoint_of_nodup_append hn hm (by simp)
      rw [ha] at hn ⊢
      rw [runSteps, insertCustomField_withCustom hc value hf, ok_bind, ih _ hn]
      rfl

end Dambi
