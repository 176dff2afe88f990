import Dambi.Decode.Emit

/-!
# Routing a transaction

`route_transaction` with the traversal of multicalls and re-entry callbacks.
The functions of the mutual recursion take the router as an argument; the knot
is tied on the length of the call path, which no dispatched call exceeds.
-/

namespace Dambi

open Fallible

/-- A method that takes `&mut TransactionTraversal`. -/
abbrev RouteM := MutResult TransactionTraversal EngineError

/-- `DeclarativeRouteRequestV3ResultDto`. -/
structure RouteResult where
  actions : List Action
  decoderId : String
  reenterCallback : Option String
  decoding : Option TransactionDecoding := none

namespace RouteResult

def bodies (result : RouteResult) : List ActionBody := result.actions.map (·.body)

end RouteResult

def childTransaction (chainId : Nat) (to_ calldata value submitter : String) (submittedAt : Nat) :
    RouteRequest where
  chainId
  to_
  selector := ""
  calldata
  value
  submitter
  submittedAt

/-! ## The legs of a container -/

/-- The array a multicall recurses into: the one its manifest names, or the
only array among the arguments. -/
def arrayArgument (strategy kind : String) (args emit : Json) : Except EngineError (List Json) := do
  let selected ← match (emit.get? "recurse_arg").bind Json.asStr with
    | some arg => match args.get? arg with
      | some value => .ok value
      | none => failed s!"{strategy}: recurse_arg {arg.quote} not found"
    | none => match ((args.asObject.getD []).map Prod.snd).filter (·.asArray.isSome) with
      | [single] => .ok single
      | [] => failed s!"{strategy}: no {kind} array argument"
      | _ => failed s!"{strategy}: ambiguous (multiple array arguments)"
  match selected.asArray with
  | some items => .ok items
  | none => failed s!"{strategy}: selected argument is not a {kind} array"
where
  failed {α : Type} (message : String) : Except EngineError α :=
    .error ⟨"build_multicall_failed", message⟩

/-- A self-multicall calls its own contract, without value. -/
def selfLeg (parent : RouteRequest) (index : Nat) (item : Json) : Except EngineError RouteRequest :=
  match item.asStr with
  | some calldata => .ok (childTransaction parent.chainId parent.to_ calldata "0" parent.submitter
      parent.submittedAt)
  | none => .error ⟨"build_multicall_failed", s!"multicall child #{index} is not a hex string"⟩

/-- A `Call` tuple names its own target, calldata and value. -/
def callLeg (parent : RouteRequest) (index : Nat) (leg : Json) :
    Except EngineError RouteRequest := do
  let fields ← field leg.asArray s!"multicall_call_array leg #{index} is not a Call tuple array"
  let to_ ← field (fields[0]?.bind Json.asStr)
    s!"multicall_call_array leg #{index} missing tuple field 0 (to)"
  let data ← field (fields[1]?.bind Json.asStr)
    s!"multicall_call_array leg #{index} missing tuple field 1 (data)"
  let value := (fields[2]?.bind Json.asStr).getD "0"
  .ok (childTransaction parent.chainId to_ data value parent.submitter parent.submittedAt)
where
  field {α : Type} (value : Option α) (message : String) : Except EngineError α :=
    value.elim (.error ⟨"build_multicall_failed", message⟩) .ok

def legInput (callArray : Bool) : RouteRequest → Nat → Json → Except EngineError RouteRequest :=
  if callArray then callLeg else selfLeg

def legSegment (callArray : Bool) (index : Nat) : CallPath :=
  if callArray then .call index else .selfCall index

def legLabel (callArray : Bool) : String :=
  if callArray then "multicall_call_array leg" else "multicall child"

/-- The errors of a child that leave it opaque; every other one fails the parent. -/
def missCode (kind : String) : Option DiagnosticCode :=
  match kind with
  | "no_declarative_v3_mapper" => some .unregisteredCall
  | "route_failed" => some .routeNotApplicable
  | _ => none

section Legs

variable (kit : DecodeKit)

def opaqueCall (input : RouteRequest) (frame : TransactionFrame) (code : DiagnosticCode)
    (decoderId : Option String) : RouteM ActionBody := do
  let body ← .lift (unknownChildLeg kit input.chainId input.to_ input.calldata input.value
    "multicall child target")
  .update fun traversal => ((), traversal.record frame code decoderId)
  return body

/-- What keeps the child at a frame from being looked at. -/
def childLimit (frame : TransactionFrame) (index : Nat) : RouteM (Option DiagnosticCode) :=
  if maxMulticallChildren ≤ index then pure (some .childLimit)
  else .update fun traversal => traversal.enter frame

/-- The bodies of a child's actions. A call array refuses a leg of which the
underlying asset stayed unresolved. -/
def childBodies (callArray : Bool) (index : Nat) (actions : List Action) :
    Except EngineError (List ActionBody) :=
  if callArray && actions.any (kit.isUnresolvedMetamorphoUnderlying ·.body) then
    .error ⟨"build_multicall_failed", s!"multicall_call_array leg #{index}: MetaMorpho vault " ++
      "underlying unresolved (vault outside the committed snapshot) — refusing a 0x0-asset decode"⟩
  else .ok (actions.map (·.body))

def dispatchedChild (input : RouteRequest) (calldata : List UInt8) : RouteRequest :=
  { childTransaction input.chainId input.to_ input.calldata input.value input.submitter
      input.submittedAt with
    selector := "0x" ++ kit.hexEncode (calldata.take 4) }

variable (route : RouteRequest → TransactionFrame → RouteM RouteResult) (input : RouteRequest)

def dispatchChild (frame : TransactionFrame) (index : Nat) (callArray : Bool)
    (calldata : List UInt8) : RouteM (List ActionBody) := do
  let child := dispatchedChild kit input calldata
  match ← (route child frame).attempt with
  | .ok result => .lift (childBodies kit callArray index result.actions)
  | .error error =>
    match missCode error.kind with
    | some code => return [← opaqueCall kit input frame code none]
    | none => .fail ⟨"build_multicall_failed",
        s!"{legLabel callArray} #{index} ({child.selector}): {error.kind}: {error.message}"⟩

def processMulticallChild (frame : TransactionFrame) (index : Nat)
    (callArray : Bool) : RouteM (List ActionBody) := do
  match ← childLimit frame index with
  | some code => return [← opaqueCall kit input frame code none]
  | none =>
    let calldata ← .lift ((kit.hexDecode (stripHex input.calldata)).mapError fun error =>
      ⟨"build_multicall_failed", s!"{legLabel callArray} #{index} not hex: {error}"⟩)
    if calldata.length < 4 then
      if callArray then return [← opaqueCall kit input frame .shortCalldata none]
      else .fail ⟨"build_multicall_failed", s!"multicall child #{index} calldata < 4 bytes"⟩
    else dispatchChild kit route input frame index callArray calldata

/-- The loop over a container, from an index on. -/
def processLegs (callArray : Bool) (parent : RouteRequest) (frame : TransactionFrame) :
    Nat → List Json → RouteM (List ActionBody)
  | _, [] => return []
  | index, item :: rest => do
    let input ← .lift (legInput callArray parent index item)
    let run ← processMulticallChild kit route input (frame.child (legSegment callArray index)) index
      callArray
    let more ← processLegs callArray parent frame (index + 1) rest
    return run ++ more

def processCallLegs (parent : RouteRequest) (legs : List Json) (frame : TransactionFrame) :
    RouteM (List ActionBody) :=
  processLegs kit route true parent frame 0 legs

def batch (strategy : String) (actions : List ActionBody) : Except EngineError ActionBody :=
  if actions.isEmpty then .error ⟨"build_multicall_failed",
    s!"{strategy}: no inner leg produced a policy-visible action"⟩
  else .ok (.multicall actions)

def buildMulticallRecurseBody (args emit : Json) (frame : TransactionFrame) :
    RouteM ActionBody := do
  let ruleId := ((emit.get? "recurse_rule_id").bind Json.asStr).getD ""
  .lift (require (ruleId = "self_array_bytes_last_arg") ⟨"build_multicall_failed",
    s!"unsupported multicall recurse_rule_id {ruleId.quote} (only self_array_bytes_last_arg)"⟩)
  let innerCalls ← .lift (arrayArgument "multicall_recurse" "bytes[]" args emit)
  let actions ← processLegs kit route false input frame 0 innerCalls
  .lift (batch "multicall_recurse" actions)

def buildMulticallCallArrayBody (args emit : Json)
    (frame : TransactionFrame) : RouteM ActionBody := do
  let legs ← .lift (arrayArgument "multicall_call_array" "Call[]" args emit)
  let actions ← processCallLegs kit route input legs frame
  .lift (batch "multicall_call_array" actions)

/-! ## Re-entry callbacks -/

/-- `abi.encode(Call[])`; an empty array has no legs. -/
def decodeReenterCallArray (callback : String) : Except EngineError (Option (List Json)) :=
  if stripHex callback = "" then .ok none
  else do
    let data ← (kit.hexDecode (stripHex callback)).mapError fun error =>
      ⟨"build_multicall_failed", s!"reenter callback: data not hex: {error}"⟩
    let bundle ← (kit.decodeInputsAbiTuple "((address,bytes,uint256,bool,bytes32)[] bundle)"
      data).mapError fun error =>
        ⟨"build_multicall_failed", s!"reenter callback: Call[] decode failed: {error}"⟩
    .ok (((bundle.get? "bundle").bind Json.asArray).filter (!·.isEmpty))

def processReenterCallback (callback decoderId : String)
    (frame : TransactionFrame) : RouteM (List ActionBody) :=
  if stripHex callback = "" then return []
  else do
    let callbackFrame := frame.child .callback
    match ← .update fun traversal => traversal.enter callbackFrame with
    | some code =>
      -- The bytes have no target of their own and stay with the supplying call.
      let opaque_ := childTransaction input.chainId input.to_ callback input.value input.submitter
        input.submittedAt
      return [← opaqueCall kit opaque_ callbackFrame code (some decoderId)]
    | none =>
      match ← .lift (decodeReenterCallArray kit callback) with
      | some legs => processCallLegs kit route input legs callbackFrame
      | none => return []

end Legs

/-! ## One call -/

section Call

variable (kit : DecodeKit) (registry : DecoderRegistry) (call : PreparedCall)

/-- The frame of a call: its manifest limits the calls below it. -/
def PreparedCall.frame (call : PreparedCall) (frame : TransactionFrame) : TransactionFrame :=
  if call.traverses then frame.withManifest call.emit else frame

def PreparedCall.start (traversal : TransactionTraversal) : TransactionTraversal :=
  if call.traverses then traversal.activate else traversal

/-- An empty batch is replaced: it would be evaluated as if it did nothing. -/
def visibleBody : ActionBody → ActionBody
  | .multicall [] => .unknown call.ctx.txTo call.ctx.chain call.ctx.rawCalldata call.ctx.value
  | body => body

/-- The diagnostic of a body that holds an `Unknown` which no leg has recorded. -/
def PreparedCall.settle (frame : TransactionFrame) (body : ActionBody)
    (traversal : TransactionTraversal) : TransactionTraversal :=
  if traversal.active && !call.recursive && body.hasUnknown then
    traversal.record frame .uninterpretedAction (some call.bundleId)
  else traversal

def settleBody (frame : TransactionFrame) (body : ActionBody) : RouteM ActionBody :=
  let body := visibleBody call body
  .update fun traversal => (body, call.settle frame body traversal)

variable (route : RouteRequest → TransactionFrame → RouteM RouteResult)

def buildBody (input : RouteRequest) (call : PreparedCall) (frame : TransactionFrame) :
    RouteM (List ActionBody) :=
  match call.strategy with
  | .reenterOnly => return []
  | .body strategy => do
    let body ← .lift (emitBody kit call.ctx call.emit input.chainId strategy)
    return [← settleBody call frame body]
  | .multicallRecurse => do
    let body ← buildMulticallRecurseBody kit route input call.ctx.args call.emit frame
    return [← settleBody call frame body]
  | .multicallCallArray => do
    let body ← buildMulticallCallArrayBody kit route input call.ctx.args call.emit frame
    return [← settleBody call frame body]

def callbackBodies (input : RouteRequest) (call : PreparedCall) (frame : TransactionFrame) :
    RouteM (List ActionBody) :=
  match call.reenterCallback with
  | some callback => processReenterCallback kit route input callback call.bundleId frame
  | none => return []

/-- A call that only re-enters and re-entered nothing is opaque itself. -/
def visibleBodies (input : RouteRequest) (call : PreparedCall) (frame : TransactionFrame)
    (bodies : List ActionBody) : RouteM (List ActionBody) :=
  if call.strategy = .reenterOnly ∧ bodies.isEmpty then do
    .update fun traversal =>
      ((), traversal.record frame .uninterpretedAction (some call.bundleId))
    return [← .lift (unknownChildLeg kit input.chainId input.to_ input.calldata input.value
      "reenter_only target")]
  else return bodies

/-- The root of a traversal is one action; a leg is one for each of its bodies. -/
def wrapActions (call : PreparedCall) (frame : TransactionFrame) (bodies : List ActionBody) :
    List Action :=
  if frame.path.isEmpty && (call.hasCallback || call.strategy = .reenterOnly) then
    [⟨call.actionMeta, .multicall bodies⟩]
  else bodies.map fun body => ⟨call.actionMeta, body⟩

/-- `route_transaction`, with the router for the calls below. -/
def routeWith (input : RouteRequest) (frame : TransactionFrame) : RouteM RouteResult := do
  let call ← .lift (prepareCall kit registry input)
  .update fun traversal => ((), call.start traversal)
  let frame := call.frame frame
  let own ← buildBody kit route input call frame
  let callback ← callbackBodies kit route input call frame
  let bodies ← visibleBodies kit input call frame (own ++ callback)
  return {
    actions := wrapActions call frame bodies
    decoderId := call.bundleId
    reenterCallback := call.reenterCallback }

end Call

/-! ## The recursion -/

section Recursion

variable (kit : DecodeKit) (registry : DecoderRegistry)

/-- The router for a number of nested dispatches. -/
def routeUpTo : Nat → RouteRequest → TransactionFrame → RouteM RouteResult
  | 0, _, _ => .fail ⟨"", ""⟩
  | levels + 1, input, frame => routeWith kit registry (routeUpTo levels) input frame

/-- How many dispatches may nest at a frame: its own, and one for each longer
path within the global limit. -/
def TransactionFrame.levels (frame : TransactionFrame) : Nat :=
  maxTransactionDepth - frame.path.length + 1

def routeTransaction (input : RouteRequest) (frame : TransactionFrame) : RouteM RouteResult :=
  routeUpTo kit registry frame.levels input frame

def maxWasmInputJsonLen : Nat := 4 * 1024 * 1024

def checkInputSize (inputJson entry : String) : Except EngineError Unit :=
  require (inputJson.utf8ByteSize ≤ maxWasmInputJsonLen) ⟨"input_too_large",
    s!"{entry} input json length {inputJson.utf8ByteSize} exceeds {maxWasmInputJsonLen} byte limit"⟩

/-- The public request: the status is reported when a manifest started a traversal. -/
def routeRequest (inputJson : String) : Except EngineError RouteResult := do
  checkInputSize inputJson "declarative_route_request_v3_json"
  let input ← (kit.parseInput inputJson).mapError fun error =>
    ⟨"invalid_input_json", s!"invalid input json: {error}"⟩
  match (routeTransaction kit registry input .root).run {} with
  | (.error error, _) => .error error
  | (.ok result, traversal) =>
    .ok (if traversal.active then { result with decoding := some traversal.finish } else result)

end Recursion

end Dambi
