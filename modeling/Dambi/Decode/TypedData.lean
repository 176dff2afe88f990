import Dambi.Decode.Route
import Dambi.Decode.TaggedDispatch

/-!
# Routing typed data

`route_typed_data_v3` and `route_typed_data_v4`: an EIP-712 message is looked up
by its verifying contract and its types, and one body is built from the message
as if it were the arguments of a call. The validation of the strict route is a
parameter.
-/

namespace Dambi

open Fallible

/-- `DeclarativeRouteTypedDataV3InputDto`. -/
structure TypedDataRequest where
  chainId : Nat
  verifyingContract : String
  primaryType : String
  witnessType : Option String := none
  domainName : Option String := none
  message : Json
  submitter : String
  submittedAt : Nat

structure TypedDataBridgeKey where
  chainId : Nat
  verifyingContract : String
  primaryType : String
  witnessType : Option String
deriving DecidableEq, Repr

/-- `DecoderRegistry` with the table that typed data is routed by. -/
structure TypedDataRegistry extends DecoderRegistry where
  typedDataBridge : TypedDataBridgeKey → Option String

def TypedDataRegistry.lookupTyped (registry : TypedDataRegistry) (key : TypedDataBridgeKey) :
    Option (String × Json) :=
  (registry.typedDataBridge key).bind fun id =>
    (registry.bundles id).map fun bundle => (id, bundle)

structure TypedDataError where
  kind : String
  message : String
  path : Option String
deriving DecidableEq, Repr

structure PreparedTypedData where
  original : Json
  typedData : Json
  key : TypedDataBridgeKey
  requestedSigner : String
  submitter : String
  submittedAt : Nat

structure ValidatedPermit where
  owner : String
  signedNonce : String
  deadlineSeconds : Nat
  message : Json

/-- What typed-data routing calls beside the decoding of calls. -/
structure TypedDataKit where
  parseInput : String → Except String TypedDataRequest
  parseEnvelope : String → Except String Json
  prepare : Json → Except TypedDataError PreparedTypedData
  validateManifest : PreparedTypedData → Json → Except TypedDataError ValidatedPermit
  /-- `ActionNature::OffchainSig`: the domain's name, version, chain, contract and
  salt, and the deadline. -/
  offchainSig : String → Option String → Nat → Address → Option String → Nat → Json
  /-- The deadline of an `Erc20Permit`. -/
  permitDeadline : DomainAction → Option Nat
  /-- `char::to_lowercase`. -/
  toLowercase : Char → List Char

/-! ## The arguments of a message -/

def abiType (parameter : Json) : String := ((parameter.get? "type").bind Json.asStr).getD ""

def abiName (parameter : Json) : String := ((parameter.get? "name").bind Json.asStr).getD ""

def tupleMember (value component : Json) (index : Nat) : Option Json :=
  match value with
  | .obj fields => fields.lookup (abiName component)
  | .arr items => items[index]?
  | _ => none

mutual

/-- `reshape_named_to_positional`. -/
def reshape : Json → Json → Json
  | .obj node, value =>
    let type := abiType (.obj node)
    if Text.startsWith type "tuple" ∧ type.toList.getLast? = some ']' then
      match value with
      | .arr items => .arr (items.map (reshapeTuple node))
      | value => value
    else if type = "tuple" then reshapeTuple node value
    else value
  | _, value => value

/-- `reshape_tuple`, on the fields of the ABI node that holds the components. -/
def reshapeTuple : List (String × Json) → Json → Json
  | [], value => value
  | (key, .arr components) :: rest, value =>
    if key = "components" then
      match value with
      | .obj fields => .arr (reshapeMembers components 0 (.obj fields))
      | .arr items => .arr (reshapeMembers components 0 (.arr items))
      | value => value
    else reshapeTuple rest value
  | (key, _) :: rest, value => if key = "components" then value else reshapeTuple rest value

def reshapeMembers : List Json → Nat → Json → List Json
  | [], _, _ => []
  | component :: rest, index, value =>
    (tupleMember value component index).elim .null (reshape component) ::
      reshapeMembers rest (index + 1) value

end

section Arguments

variable (kit : StreamKit) (typed : TypedDataKit)

def emitIndexesRootPositionally (template : Option Json) (root : String) : Bool :=
  root ≠ "" && template.any fun template =>
    decide (s!"$args.{root}[".toList <:+: (kit.template.jsonText template).toList)

/-- The last part of a type name, with its first letter in lower case. -/
def primaryTypeToLowerCamel (primaryType : String) : String :=
  let root := primaryType.toList.rtakeWhile (· ≠ ':')
  String.ofList ((root.take 1).flatMap typed.toLowercase ++ root.drop 1)

def signatureParameters : List String := ["owner", "signature", "v", "r", "s"]

/-- `build_typed_data_args_json`. -/
def buildTypedDataArgs (abi : Option Json) (primaryType : String) (message : Json)
    (template : Option Json) : Json :=
  let inputs := ((abi.bind (·.get? "inputs")).bind Json.asArray).getD []
  let payload := inputs.filter fun input =>
    !((input.get? "name").bind Json.asStr).any (· ∈ signatureParameters)
  match payload with
  | [] => .obj [(primaryTypeToLowerCamel typed primaryType, message)]
  | [only] =>
    if Text.startsWith (abiType only) "tuple" then
      if emitIndexesRootPositionally kit template (abiName only) then
        .obj [(abiName only, reshape only message)]
      else .obj [(abiName only, message)]
    else message
  | _ => message

/-- `str::parse::<u64>`. -/
def parseU64 (text : List Char) : Option Nat :=
  let digits := if text.head? = some '+' then text.tail else text
  (StrictJson.parseDigits digits).filter (· < 18446744073709551616)

def messageU64 (message : Json) (field : String) : Option Nat :=
  (message.get? field).bind fun value =>
    value.asU64.or (value.asStr.bind fun text => parseU64 text.toList)

end Arguments

/-! ## The two routes -/

section Routes

variable (kit : StreamKit) (typed : TypedDataKit) (registry : TypedDataRegistry)

def wethOf : Nat → Option String
  | 1 => some "0xc02aaa39b223fe8d0a0e5c4f27ead9083c756cc2"
  | 8453 | 10 => some "0x4200000000000000000000000000000000000006"
  | 42161 => some "0x82af49447d8a07e3bd95bd0d56f35241523fbab1"
  | _ => none

/-- The `$resolved` table of a signature. -/
def typedDataResolved (chainId : Nat) (verifyingContract : String) : BTreeMap String Json :=
  let resolved : BTreeMap String Json := (wethOf chainId).elim ∅ fun weth =>
    (∅ : BTreeMap String Json).insert "weth" (.str weth)
  (kit.resolveNamed chainId "compound_v3_base_asset" verifyingContract).elim resolved fun asset =>
    resolved.insert "compound_v3_base_asset" (.str asset)

def typedDataContext (chainId : Nat) (verifyingContract submitter : Address) (submittedAt : Nat)
    (args : Json) (resolved : BTreeMap String Json) : MapContext where
  chain := chainOf chainId
  txTo := verifyingContract
  txFrom := submitter
  value := 0
  submittedAt
  args
  rawCalldata := ""
  resolved
  derived := ∅

/-- The strategies that a signature may use. -/
def typedDataStrategy (strategy : String) : Except EngineError BodyStrategy :=
  match strategy with
  | "single_emit" => .ok .singleEmit
  | "array_emit" => .ok .arrayEmit
  | _ => .error ⟨"unsupported_strategy_for_typed_data", s!"emit.strategy {strategy.quote} is " ++
      "calldata-only; typed-data routing supports single_emit / array_emit only"⟩

/-- An empty batch is replaced here too. -/
def visibleTypedBody (ctx : MapContext) : ActionBody → ActionBody
  | .multicall [] => unknownLeg ctx
  | body => body

/-- `route_typed_data_v3`, on a parsed input. -/
def routeTypedDataWith (input : TypedDataRequest) : Except EngineError RouteResult := do
  let submitter ← parseV3Address kit.toDecodeKit input.submitter "submitter"
  let verifyingContract ← parseV3Address kit.toDecodeKit input.verifyingContract
    "verifying_contract"
  let contract := Text.toAsciiLowercase input.verifyingContract
  match registry.lookupTyped ⟨input.chainId, contract, input.primaryType, input.witnessType⟩ with
  | none => .error ⟨"no_typed_data_mapper", s!"no typed-data mapper bridged for " ++
      s!"chain_id={input.chainId} verifying_contract={input.verifyingContract} " ++
      s!"primary_type={input.primaryType} witness_type={debugOption input.witnessType}"⟩
  | some (bundleId, bundle) => do
    let emit ← required (bundle.get? "emit") "missing emit"
    let strategy ← required ((emit.get? "strategy").bind Json.asStr) "missing emit.strategy"
    let strategy ← typedDataStrategy strategy
    let args := buildTypedDataArgs kit typed ((bundle.get? "abi_fragment").bind (·.get? "abi"))
      input.primaryType input.message (emit.get? "body")
    let ctx := typedDataContext input.chainId verifyingContract submitter input.submittedAt args
      (typedDataResolved kit input.chainId contract)
    let body ← emitBody kit.emitters ctx emit input.chainId strategy
    let deadline := ((messageU64 input.message "sigDeadline").or
      (messageU64 input.message "deadline")).getD 0
    let nature := typed.offchainSig (input.domainName.getD "") none input.chainId verifyingContract
      none deadline
    .ok
      { actions := [⟨⟨input.submittedAt, submitter, nature⟩, visibleTypedBody ctx body⟩]
        decoderId := bundleId
        reenterCallback := none }

def routeTypedDataV3 (inputJson : String) : Except EngineError RouteResult := do
  checkInputSize inputJson "declarative_route_typed_data_v3_json"
  let input ← (typed.parseInput inputJson).mapError fun error =>
    ⟨"invalid_input_json", s!"invalid input json: {error}"⟩
  routeTypedDataWith kit typed registry input

/-- `TypedDataValidatedV4Dto`. -/
structure TypedDataValidated where
  owner : String
  requestedSigner : String
  submitter : String
  signedNonce : String
  deadlineSeconds : String

/-- `DeclarativeRouteTypedDataV4ResultDto`. -/
structure TypedDataResult where
  actions : List Action
  decoderId : String
  original : Json
  routing : TypedDataBridgeKey
  validated : TypedDataValidated
  signatureVerification : String := "not_performed"

def strictPermitBundle : String := "standard/erc20/permit@1.0.0"

/-- A body other than an ERC-20 permit with the signed deadline is refused. -/
def permitOnly (deadline : Nat) (bundleId : String) (body : ActionBody) :
    Except TypedDataError Unit :=
  let isPermit := match body with
    | .domain action => action.domain = .token && action.actionTag = "erc20_permit" &&
        typed.permitDeadline action = some deadline
    | _ => false
  require (isPermit = true) ⟨"typed_interpretation_failed", s!"decoder {bundleId}: manifest did " ++
    "not emit an ERC-20 Permit with the validated deadline", some "emit.body"⟩

def interpretationFailed (error : EngineError) : TypedDataError :=
  ⟨"typed_interpretation_failed", error.message, none⟩

/-- The part of `route_typed_data_v4` that follows the validation. -/
def emitStrictPermit (input : PreparedTypedData) (bundleId : String) (bundle : Json)
    (validated : ValidatedPermit) : Except TypedDataError TypedDataResult := do
  let invalid (message field : String) : TypedDataError := ⟨"invalid_bundle", message, some field⟩
  let emit ← (bundle.get? "emit").elim (.error (invalid "missing emit" "emit")) .ok
  require ((emit.get? "strategy").bind Json.asStr = some "single_emit")
    (invalid "strict Permit requires single_emit" "emit.strategy")
  let template ← ((emit.get? "body").filter (·.asObject.isSome)).elim
    (.error (invalid "missing emit.body object" "emit.body")) .ok
  let contract ← (parseV3Address kit.toDecodeKit input.key.verifyingContract
    "verifying_contract").mapError interpretationFailed
  let submitter ← (parseV3Address kit.toDecodeKit input.submitter "submitter").mapError
    interpretationFailed
  let args := buildTypedDataArgs kit typed ((bundle.get? "abi_fragment").bind (·.get? "abi"))
    input.key.primaryType validated.message (some template)
  let ctx := typedDataContext input.key.chainId contract submitter input.submittedAt args ∅
  let body ← (kit.emitters.buildActionBody ctx template (emit.get? "live_inputs")).mapError
    fun error => ⟨"typed_interpretation_failed", s!"decoder {bundleId}: {error}", some "emit.body"⟩
  permitOnly typed validated.deadlineSeconds bundleId body
  let domain := input.typedData.index "domain"
  let nature := typed.offchainSig ((domain.index "name").asStr.getD "")
    ((domain.get? "version").bind Json.asStr) input.key.chainId contract
    ((domain.get? "salt").bind Json.asStr) validated.deadlineSeconds
  .ok
    { actions := [⟨⟨input.submittedAt, submitter, nature⟩, body⟩]
      decoderId := bundleId
      original := input.original
      routing := input.key
      validated :=
        { owner := validated.owner
          requestedSigner := input.requestedSigner
          submitter := input.submitter
          signedNonce := validated.signedNonce
          deadlineSeconds := toString validated.deadlineSeconds } }

def routeTypedDataV4 (inputJson : String) : Except TypedDataError TypedDataResult := do
  (checkInputSize inputJson "declarative_route_typed_data_v4_json").mapError fun error =>
    ⟨error.kind, error.message, none⟩
  let envelope ← (typed.parseEnvelope inputJson).mapError fun error =>
    ⟨"invalid_input_json", s!"invalid input json: {error}", none⟩
  let input ← typed.prepare envelope
  match registry.lookupTyped input.key with
  | none => .error ⟨"no_typed_data_mapper",
      "no installed typed-data mapper for this routing key; detailed validation not performed",
      none⟩
  | some (bundleId, bundle) => do
    require (bundleId = strictPermitBundle) ⟨"unsupported_typed_data_contract",
      "installed typed-data contract is outside strict Permit support; " ++
        "detailed validation not performed", none⟩
    let validated ← typed.validateManifest input bundle
    emitStrictPermit kit typed input bundleId bundle validated

end Routes

end Dambi
