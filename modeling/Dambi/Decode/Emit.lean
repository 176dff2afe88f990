import Dambi.Decode.Traversal

/-!
# Decoding one call

The part of `route_transaction` that looks at one call only: the wire fields,
the lookup of its manifest, its arguments, and the emit strategies that build a
body without dispatching another call. The template interpreter, the ABI
decoder and the opcode and tag dispatchers are parameters.
-/

namespace Dambi

open Fallible

/-- `DeclarativeRouteRequestV3InputDto`, without the block timestamp that nothing reads. -/
structure RouteRequest where
  chainId : Nat
  to_ : String
  selector : String
  calldata : String
  value : String := "0"
  gasLimit : String := "0"
  gasPrice : String := "0"
  submitter : String
  submittedAt : Nat
  nonce : Nat := 0

/-- `V3MapContext`. -/
structure MapContext where
  chain : String
  txTo : Address
  txFrom : Address
  value : U256
  submittedAt : Nat
  args : Json
  rawCalldata : String
  resolved : BTreeMap String Json
  derived : BTreeMap String Json
  inputs : Option Json := none

/-- What decoding calls, by the text of its errors: parsers and codecs of other
crates, the address tables, the template interpreter and the dispatchers of one
call's own arguments. -/
structure DecodeKit where
  parseInput : String → Except String RouteRequest
  addressFromStr : String → Except String Address
  u256FromDecimal : String → Except String U256
  hexDecode : String → Except String (List UInt8)
  hexEncode : List UInt8 → String
  /-- `decode_with_json_abi` and `args_to_json`. -/
  decodeAbi : Json → List UInt8 → Except String Json
  decodeInputsAbiTuple : String → List UInt8 → Except String Json
  /-- `ActionNature::OnchainTx`: chain, nonce, gas limit, gas price, value, submission time. -/
  onchainTx : String → Nat → U256 → U256 → U256 → Nat → Json
  /-- The `$resolved` table of a chain, a lowercased target and its arguments. -/
  resolved : Nat → String → Json → BTreeMap String Json
  /-- The `$derived` table of the arguments. -/
  derived : Json → BTreeMap String Json
  buildActionBody : MapContext → Json → Option Json → Except String ActionBody
  buildArrayEmit : MapContext → String → Option Json → Json → Option Json → Option Nat →
    Except String ActionBody
  opcodeStreamDispatch : MapContext → Json → Except EngineError ActionBody
  buildTaggedDispatch : MapContext → Json → Except EngineError ActionBody
  buildParallelTaggedDispatch : MapContext → Json → Nat → Except EngineError ActionBody
  isUnresolvedMetamorphoUnderlying : ActionBody → Bool

/-! ## Wire fields -/

/-- `raw.strip_prefix("0x").unwrap_or(raw)`. -/
def stripHex (raw : String) : String := (Text.stripStart raw "0x").getD raw

def chainOf (chainId : Nat) : String := s!"eip155:{chainId}"

section Fields

variable (kit : DecodeKit)

def parseV3Address (raw field : String) : Except EngineError Address :=
  (kit.addressFromStr raw).mapError fun error =>
    ⟨"invalid_input_json", s!"invalid {field} address {raw.quote}: {error}"⟩

def parseV3U256 (raw field : String) : Except EngineError U256 :=
  if raw = "" then .ok 0
  else (kit.u256FromDecimal raw).mapError fun error =>
    ⟨"invalid_input_json", s!"invalid {field} decimal {raw.quote}: {error}"⟩

/-- The leg that stands for a call nothing could be said about. -/
def unknownChildLeg (chainId : Nat) (target calldata value context : String) :
    Except EngineError ActionBody := do
  let target ← (parseV3Address kit target context).mapError fun error =>
    ⟨"build_multicall_failed", error.message⟩
  let value ← (parseV3U256 kit value context).mapError fun error =>
    ⟨"build_multicall_failed", error.message⟩
  .ok (.unknown target (chainOf chainId) calldata value)

end Fields

/-! ## The registry -/

structure BridgeKey where
  chainId : Nat
  to_ : String
  selector : String
deriving DecidableEq, Repr

structure SelectorKey where
  chainId : Nat
  selector : String
deriving DecidableEq, Repr

/-- The tables of `DecoderRegistry` that calldata is routed by. -/
structure DecoderRegistry where
  bridge : BridgeKey → Option String
  selectorBridge : SelectorKey → Option String
  bundles : String → Option Json

/-- The key of a call without calldata. -/
def nativeTransferSelector : String := "0x00000000"

/-- An exact key wins over the address-agnostic one. -/
def DecoderRegistry.lookup (registry : DecoderRegistry) (chainId : Nat) (to_ selector : String) :
    Option (String × Json) :=
  let bundleId := (registry.bridge ⟨chainId, Text.toAsciiLowercase to_, selector⟩).or
    (registry.selectorBridge ⟨chainId, selector⟩)
  bundleId.bind fun id => (registry.bundles id).map fun bundle => (id, bundle)

/-! ## Preparing a call -/

/-- The strategies of `emit.strategy` that build a body from the call alone. -/
inductive BodyStrategy where
  | singleEmit
  | opcodeStreamDispatch
  | arrayEmit
  | taggedDispatch
  | parallelTaggedDispatch
  | compositeEmit
  | other (text : String)
deriving DecidableEq, Repr

/-- `emit.strategy`. -/
inductive EmitStrategy where
  | body (strategy : BodyStrategy)
  | multicallRecurse
  | multicallCallArray
  | reenterOnly
deriving DecidableEq, Repr

def EmitStrategy.ofText : String → EmitStrategy
  | "single_emit" => .body .singleEmit
  | "opcode_stream_dispatch" => .body .opcodeStreamDispatch
  | "array_emit" => .body .arrayEmit
  | "tagged_dispatch" => .body .taggedDispatch
  | "parallel_tagged_dispatch" => .body .parallelTaggedDispatch
  | "multicall_recurse" => .multicallRecurse
  | "multicall_call_array" => .multicallCallArray
  | "composite_emit" => .body .compositeEmit
  | "reenter_only" => .reenterOnly
  | text => .body (.other text)

/-- What `route_transaction` knows of a call when it starts to emit. -/
structure PreparedCall where
  actionMeta : ActionMeta
  ctx : MapContext
  bundleId : String
  emit : Json
  strategy : EmitStrategy

namespace PreparedCall

variable (call : PreparedCall)

def callbackArg : Option String := (call.emit.get? "reenter_callback_arg").bind Json.asStr

def reenterCallback : Option String :=
  call.callbackArg.bind fun arg => (call.ctx.args.get? arg).bind Json.asStr

def hasCallback : Bool := call.callbackArg.isSome

def recursive : Bool := call.strategy = .multicallRecurse || call.strategy = .multicallCallArray

/-- The manifest makes the decoder look below this call. -/
def traverses : Bool := call.recursive || call.hasCallback || call.strategy = .reenterOnly

end PreparedCall

/-- An absent field of a manifest. -/
def required {α : Type} (field : Option α) (message : String) : Except EngineError α :=
  field.elim (.error ⟨"invalid_bundle", message⟩) .ok

theorem required_eq_ok {α : Type} {field : Option α} {message : String} {a : α} :
    required field message = .ok a ↔ field = some a := elim_error_eq_ok

section Prepare

variable (kit : DecodeKit) (registry : DecoderRegistry)

/-- The arguments of a call: a bare transfer has none. -/
def decodeArgs (bundle : Json) (calldata : List UInt8) : Except EngineError Json :=
  if calldata.isEmpty then .ok (.obj [])
  else do
    let abi ← required ((bundle.get? "abi_fragment").bind (·.get? "abi")) "missing abi_fragment.abi"
    (kit.decodeAbi abi calldata).mapError fun error =>
      ⟨"decode_failed", s!"calldata decode failed: {error}"⟩

/-- `route_transaction` up to its choice of a strategy. -/
def prepareCall (input : RouteRequest) : Except EngineError PreparedCall := do
  let submitter ← parseV3Address kit input.submitter "submitter"
  let target ← parseV3Address kit input.to_ "to"
  let value ← parseV3U256 kit input.value "value"
  let gasLimit ← parseV3U256 kit input.gasLimit "gas_limit"
  let gasPrice ← parseV3U256 kit input.gasPrice "gas_price"
  let calldata ← (kit.hexDecode (stripHex input.calldata)).mapError fun error =>
    ⟨"invalid_calldata", s!"calldata is not valid hex: {error}"⟩
  let selector :=
    if calldata.isEmpty then nativeTransferSelector else Text.toAsciiLowercase input.selector
  match registry.lookup input.chainId input.to_ selector with
  | none => .error ⟨"no_declarative_v3_mapper",
      s!"no v3 mapper bridged for chain_id={input.chainId} to={input.to_} selector={selector}"⟩
  | some (bundleId, bundle) => do
    let args ← decodeArgs kit bundle calldata
    let emit ← required (bundle.get? "emit") "missing emit"
    let strategy ← required ((emit.get? "strategy").bind Json.asStr) "missing emit.strategy"
    .ok
      { actionMeta := ⟨input.submittedAt, submitter, kit.onchainTx (chainOf input.chainId)
          input.nonce gasLimit gasPrice value input.submittedAt⟩
        ctx :=
          { chain := chainOf input.chainId
            txTo := target
            txFrom := submitter
            value
            submittedAt := input.submittedAt
            args
            rawCalldata := input.calldata
            resolved := kit.resolved input.chainId (Text.toAsciiLowercase input.to_) args
            derived := kit.derived args }
        bundleId
        emit
        strategy := EmitStrategy.ofText strategy }

end Prepare

/-! ## Bodies of one call -/

def defaultArrayEmitMaxElements : Nat := 64

def hardArrayEmitMaxElements : Nat := 64

/-- `usize` has 64 bits, so that every `u64` is one. -/
def parseArrayEmitMaxElements (emit : Json) (fieldPath : String) :
    Except EngineError (Option Nat) :=
  match emit.get? "max_elements" with
  | none => .ok (some defaultArrayEmitMaxElements)
  | some value => do
    let max ← required value.asU64 s!"{fieldPath}.max_elements must be a positive integer"
    require (max ≠ 0) ⟨"invalid_bundle", s!"{fieldPath}.max_elements must be >= 1"⟩
    require (max ≤ hardArrayEmitMaxElements) ⟨"invalid_bundle",
      s!"{fieldPath}.max_elements must be <= {hardArrayEmitMaxElements}, got {max}"⟩
    .ok (some max)

section Bodies

variable (kit : DecodeKit) (ctx : MapContext) (entry template : Json)

def singleEmit : Except EngineError ActionBody :=
  (kit.buildActionBody ctx template (entry.get? "live_inputs")).mapError fun error =>
    ⟨"build_action_body_failed", error⟩

def arrayEmit (source fieldPath : String) :
    Except EngineError ActionBody := do
  let maxElements ← parseArrayEmitMaxElements entry fieldPath
  (kit.buildArrayEmit ctx source (entry.get? "parallel_sources") template
    (entry.get? "live_inputs") maxElements).mapError fun error => ⟨"build_array_emit_failed", error⟩

/-- One part of a `composite_emit`: the bodies of an array stand on their own. -/
def compositePart (part : Json) : Except EngineError (List ActionBody) := do
  let strategy ← required ((part.get? "strategy").bind Json.asStr)
    "composite_emit part missing strategy"
  let template ← required (part.get? "body") "composite_emit part missing body"
  match EmitStrategy.ofText strategy with
  | .body .singleEmit => do
    let body ← singleEmit kit ctx part template
    .ok [body]
  | .body .arrayEmit => do
    let source ← required ((part.get? "array_source").bind Json.asStr)
      "composite_emit array_emit part missing array_source"
    match ← arrayEmit kit ctx part template source "composite_emit part" with
    | .multicall inner => .ok inner
    | body => .ok [body]
  | _ => .error ⟨"unsupported_strategy", s!"composite_emit part strategy unsupported: {strategy}"⟩

def compositeEmit (emit : Json) : Except EngineError ActionBody := do
  let parts ← required ((emit.get? "parts").bind Json.asArray) "missing emit.parts"
  let actions ← parts.mapM (compositePart kit ctx)
  .ok (.multicall actions.flatten)

def emitBody (emit : Json) (chainId : Nat) : BodyStrategy → Except EngineError ActionBody
  | .singleEmit => do
    let template ← required (emit.get? "body") "missing emit.body"
    singleEmit kit ctx emit template
  | .opcodeStreamDispatch => kit.opcodeStreamDispatch ctx emit
  | .arrayEmit => do
    let source ← required ((emit.get? "array_source").bind Json.asStr) "missing emit.array_source"
    let template ← required (emit.get? "body") "missing emit.body"
    arrayEmit kit ctx emit template source "emit"
  | .taggedDispatch => kit.buildTaggedDispatch ctx emit
  | .parallelTaggedDispatch => kit.buildParallelTaggedDispatch ctx emit chainId
  | .compositeEmit => compositeEmit kit ctx emit
  | .other text => .error ⟨"unsupported_strategy", s!"unsupported emit.strategy: {text}"⟩

end Bodies

end Dambi
