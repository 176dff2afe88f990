import Dambi.Decode.OpcodeStream

/-!
# Tagged envelopes

The strategies `tagged_dispatch` and `parallel_tagged_dispatch`: a tag inside the
arguments selects the body template and the ABI of the bytes next to it. An
unknown tag falls back to a default entry or to a visible `Unknown` body.
-/

namespace Dambi

open Fallible

def unknownTemplate : Json :=
  .obj [("domain", .str "unknown"), ("unknown", .obj [("calldata", .str "$calldata"),
    ("chain", .str "$chain"), ("target", .str "$to"), ("value", .str "$tx.value")])]

section Tagged

variable (kit : StreamKit) (ctx : MapContext)

def taggedBody (ctx : MapContext) (template : Json) (live : Option Json) :
    Except EngineError ActionBody :=
  (kit.buildActionBody ctx template live).mapError (⟨"build_action_body_failed", ·⟩)

def taggedInputs (entry : Json) (bytes : List UInt8) : Json :=
  (((entry.get? "inputs_abi").bind Json.asStr).bind fun signature =>
    (kit.decodeInputsAbiTuple signature bytes).toOption).getD .null

/-! ## One envelope -/

/-- The fallback of `tagged_dispatch`. -/
def taggedFallback (perAction : List (String × Json)) : Except EngineError ActionBody :=
  match perAction.lookup "default" with
  | some entry => do
    let template ← required (entry.get? "body") "emit.per_action_body.default missing body"
    taggedBody kit ctx template (entry.get? "live_inputs")
  | none => taggedBody kit ctx unknownTemplate none

def taggedBytes (emit : Json) : Except EngineError (List UInt8) := do
  let source ← required ((emit.get? "bytes_source").bind Json.asStr) "missing emit.bytes_source"
  let value ← (substitute kit.template ctx (.str source)).mapError fun error =>
    ⟨"invalid_bytes_source", error.text⟩
  let text ← value.asStr.elim (.error ⟨"invalid_bytes_source",
    s!"emit.bytes_source {source.quote} did not resolve to a hex string"⟩) .ok
  (kit.hexDecode (stripHex text)).mapError fun error =>
    ⟨"invalid_bytes_source", s!"emit.bytes_source not hex: {error}"⟩

def taggedEntry (key : String) (entry : Json) (bytes : List UInt8) :
    Except EngineError ActionBody := do
  let template ← required (entry.get? "body") s!"emit.per_action_body.{key} missing body"
  let child := childContext kit.toDecodeKit ctx (some (taggedInputs kit entry bytes))
  taggedBody kit child template (entry.get? "live_inputs")

/-- `build_tagged_dispatch`. The end of the tag saturates in the source; a tag
that long is never within the data. -/
def buildTaggedDispatch (emit : Json) : Except EngineError ActionBody := do
  let perAction ← required ((emit.get? "per_action_body").bind Json.asObject)
    "missing emit.per_action_body"
  let data ← taggedBytes kit ctx emit
  let version ← parseHexU8 (((emit.get? "version_byte").bind Json.asStr).getD "0x01")
    "emit.version_byte"
  let offset := ((emit.get? "tag_offset").bind Json.asU64).getD 1
  let size := ((emit.get? "tag_size").bind Json.asU64).getD 3
  if data.head? ≠ some version ∨ data.length < offset + size then
    taggedFallback kit ctx perAction
  else do
    require (size ≠ 0 ∧ size ≤ 8) ⟨"invalid_bundle", s!"emit.tag_size must be 1..=8, got {size}"⟩
    let tag := ((data.drop offset).take size).foldl (fun id byte => id * 256 + byte.toNat) 0
    match perAction.lookup (toString tag) with
    | none => taggedFallback kit ctx perAction
    | some entry => taggedEntry kit ctx (toString tag) entry (data.drop (offset + size))

/-! ## Parallel arrays -/

def deriveTagKey (tag : Json) (encoding : String) : Except String String :=
  match encoding with
  | "bytes32_ascii" =>
    match tag.asStr with
    | none => .error s!"bytes32_ascii tag must be a hex string, got {kit.template.jsonText tag}"
    | some s => do
      let bytes ← (kit.hexDecode (stripHex s)).mapError fun error =>
        s!"bytes32_ascii tag {s.quote} not hex: {error}"
      (kit.utf8FromBytes (bytes.rdropWhile (· = 0))).mapError fun error =>
        s!"bytes32_ascii tag {s.quote} not UTF-8: {error}"
  | "bytes32_hex" =>
    match tag.asStr with
    | none => .error s!"bytes32_hex tag must be a hex string, got {kit.template.jsonText tag}"
    | some s => .ok ("0x" ++ Text.toAsciiLowercase (stripHex s))
  | "uint" =>
    match tag with
    | .int n => .ok (kit.template.jsonText (.int n))
    | .float bits => .ok (kit.template.jsonText (.float bits))
    | .str s =>
      let s := String.ofList
        ((s.toList.dropWhile Text.isWhiteSpace).rdropWhile Text.isWhiteSpace)
      match Text.stripStart s "0x" with
      | some hex => ((fromHexDigits 340282366920938463463374607431768211456
          hex.toList).map toString).mapError fun error =>
            s!"uint tag {s.quote} not hex/in-range: {error}"
      | none => .ok s
    | other => .error s!"uint tag must be a number or string, got {kit.template.jsonText other}"
  | other => .error <|
      s!"unknown tag_encoding {other.quote} (expected bytes32_ascii|bytes32_hex|uint)"

/-- What `emit` declares for a parallel dispatch. -/
structure ParallelTagged where
  perTag : List (String × Json)
  encoding : String
  denyUnknown : Bool
  /-- A named table and the input whose address it is asked for. -/
  resolveFromInputs : List (String × String)

variable (declared : ParallelTagged)

/-- The asset tables of an element, asked for the addresses in its own inputs. -/
def resolveFromInputs (chainId : Nat) (inputs : Json) : BTreeMap String Json :=
  declared.resolveFromInputs.foldl (fun resolved (name, field) =>
    match ((inputs.get? field).bind Json.asStr).bind (kit.resolveNamed chainId name) with
    | some asset => resolved.insert name (.str asset)
    | none => resolved) ctx.resolved

def parallelEntry (chainId index : Nat) (key : String)
    (entry data : Json) : Except EngineError ActionBody := do
  let template ← required (entry.get? "body")
    s!"parallel_tagged_dispatch per_tag {key.quote} missing body"
  let text ← data.asStr.elim (.error ⟨"invalid_data_source",
    s!"parallel_tagged_dispatch element #{index}: data not a hex string"⟩) .ok
  let bytes ← (kit.hexDecode (stripHex text)).mapError fun error => ⟨"invalid_data_source",
    s!"parallel_tagged_dispatch element #{index}: data not hex: {error}"⟩
  let inputs := taggedInputs kit entry bytes
  let child := { childContext kit.toDecodeKit ctx (some inputs) with
    resolved := resolveFromInputs kit ctx declared chainId inputs }
  taggedBody kit child template (entry.get? "live_inputs")

def parallelElement (chainId index : Nat) (tag data : Json) : Except EngineError ActionBody := do
  let key ← (deriveTagKey kit tag declared.encoding).mapError fun error =>
    ⟨"invalid_tag", s!"parallel_tagged_dispatch element #{index}: {error}"⟩
  match (declared.perTag.lookup key).or (declared.perTag.lookup "default") with
  | some entry => parallelEntry kit ctx declared chainId index key entry data
  | none =>
    if declared.denyUnknown then
      .error ⟨"unknown_tag", s!"parallel_tagged_dispatch element #{index}: tag {key.quote} " ++
        "absent from per_tag (unknown_tag_policy=deny)"⟩
    else taggedBody kit ctx unknownTemplate none

/-- The array that a placeholder of `emit` stands for. -/
def sourceArray (source kind field : String) : Except EngineError (List Json) := do
  let value ← (substitute kit.template ctx (.str source)).mapError fun error => ⟨kind, error.text⟩
  value.asArray.elim (.error ⟨kind, s!"emit.{field} {source.quote} did not resolve to an array"⟩)
    .ok

def defaultMaxElements : Nat := 32

def hardMaxElements : Nat := 64

def buildParallelTaggedDispatch (emit : Json) (chainId : Nat) : Except EngineError ActionBody := do
  let perTag ← required ((emit.get? "per_tag").bind Json.asObject) "missing emit.per_tag"
  let actionsSource ← required ((emit.get? "actions_source").bind Json.asStr)
    "missing emit.actions_source"
  let dataSource ← required ((emit.get? "data_source").bind Json.asStr) "missing emit.data_source"
  let encoding ← required ((emit.get? "tag_encoding").bind Json.asStr) "missing emit.tag_encoding"
  let maxElements := ((emit.get? "max_elements").bind Json.asU64).getD defaultMaxElements
  require (maxElements ≠ 0 ∧ maxElements ≤ hardMaxElements) ⟨"invalid_bundle",
    s!"emit.max_elements must be 1..={hardMaxElements}, got {maxElements}"⟩
  let declared : ParallelTagged :=
    { perTag
      encoding
      denyUnknown := (emit.get? "unknown_tag_policy").bind Json.asStr = some "deny"
      resolveFromInputs := (((emit.get? "resolve_from_inputs").bind Json.asObject).getD
        []).filterMap fun (name, field) => field.asStr.map (name, ·) }
  let tags ← sourceArray kit ctx actionsSource "invalid_actions_source" "actions_source"
  let data ← sourceArray kit ctx dataSource "invalid_data_source" "data_source"
  require (tags.length = data.length) ⟨"invalid_bundle",
    s!"parallel_tagged_dispatch: actions[] len {tags.length} != data[] len {data.length}"⟩
  require (tags.length ≤ maxElements) ⟨"invalid_bundle",
    s!"parallel_tagged_dispatch: element count {tags.length} exceeds cap {maxElements}"⟩
  let actions ← (tags.zip data).zipIdx.mapM fun ((tag, item), index) =>
    parallelElement kit ctx declared chainId index tag item
  .ok (.multicall actions)

end Tagged

/-! ## Every strategy -/

namespace StreamKit

variable (kit : StreamKit)

def withTemplates : StreamKit :=
  { kit with
    buildActionBody := fun ctx template live =>
      (buildActionBody kit.template ctx template live).mapError BuildError.text
    buildArrayEmit := fun ctx source parallel template live maxElements =>
      (buildArrayEmit kit.template ctx source parallel template live maxElements).mapError
        BuildError.text }

/-- The kit with the action builder and the dispatchers of one call's own arguments. -/
def emitters : DecodeKit :=
  { kit.withTemplates.toDecodeKit with
    opcodeStreamDispatch := opcodeStreamDispatch kit.withTemplates
    buildTaggedDispatch := buildTaggedDispatch kit.withTemplates
    buildParallelTaggedDispatch := buildParallelTaggedDispatch kit.withTemplates }

end StreamKit

end Dambi
