import Dambi.Decode.ActionBuilder

/-!
# Opcode streams

The strategy `opcode_stream_dispatch`: a byte string of commands and an array
of inputs, one for each command. The inputs are decoded in a pass of their own,
under the ABI that the table of the level declares for the command at the same
index; the commands are then dispatched one by one. A command may carry a
stream of its own, one level deeper.
-/

namespace Dambi

open Fallible List Option

/-- What the dispatchers of opcodes and tags call beside `DecodeKit`. -/
structure StreamKit extends DecodeKit where
  keccak256 : List UInt8 → List UInt8
  /-- `String::from_utf8`. -/
  utf8FromBytes : List UInt8 → Except String String
  /-- `resolve_named`: the asset that a named table has for a chain and an address. -/
  resolveNamed : Nat → String → String → Option String
  template : TemplateKit

/-! ## Hexadecimal numbers -/

def hexDigit? (c : Char) : Option Nat :=
  if '0' ≤ c ∧ c ≤ '9' then some (c.toNat - 48)
  else if 'a' ≤ c ∧ c ≤ 'f' then some (c.toNat - 87)
  else if 'A' ≤ c ∧ c ≤ 'F' then some (c.toNat - 55)
  else none

/-- `from_str_radix(_, 16)` of an unsigned type with the given number of values. -/
def fromHexDigits (bound : Nat) (text : List Char) : Except String Nat :=
  if text = [] then .error "cannot parse integer from empty string"
  else
    let digits := if text.head? = some '+' ∧ text.tail ≠ [] then text.tail else text
    digits.foldlM (fun n c =>
      match hexDigit? c with
      | none => .error "invalid digit found in string"
      | some d => if n * 16 + d < bound then .ok (n * 16 + d)
        else .error "number too large to fit in target type") 0

def parseHexU8 (raw field : String) : Except EngineError UInt8 :=
  ((fromHexDigits 256 (stripHex raw).toList).map UInt8.ofNat).mapError fun error =>
    ⟨"invalid_bundle", s!"invalid {field} hex u8 {raw.quote}: {error}"⟩

/-- `format!("0x{opcode:02x}")`. -/
def opcodeKey (opcode : UInt8) : String :=
  String.ofList ['0', 'x', Nat.digitChar (opcode.toNat / 16), Nat.digitChar (opcode.toNat % 16)]

/-! ## The stream of a level -/

inductive UnknownOpcodePolicy where
  | deny
  | warn
  | skip
deriving DecidableEq, Repr

def UnknownOpcodePolicy.ofText : String → UnknownOpcodePolicy
  | "deny" => .deny
  | "skip" => .skip
  | _ => .warn

/-- What a manifest declares for a level: `per_opcode_body`, the mask of its
commands and the policy for those without an entry. -/
structure OpcodeLevel where
  table : List (String × Json)
  mask : UInt8
  policy : UnknownOpcodePolicy

namespace OpcodeLevel

variable (level : OpcodeLevel)

def key (command : UInt8) : String := opcodeKey (command &&& level.mask)

def entry (command : UInt8) : Option Json := level.table.lookup (level.key command)

end OpcodeLevel

/-- The level of `emit` or of a `nested` entry. The bit that allows a command
to revert is checked and then not used. -/
def opcodeLevel (declared : Json) (missing field : String) : Except EngineError OpcodeLevel := do
  let table ← required ((declared.get? "per_opcode_body").bind Json.asObject) missing
  let mask ← parseHexU8 (((declared.get? "mask").bind Json.asStr).getD "0xff") s!"{field}.mask"
  let _ ← parseHexU8 (((declared.get? "allow_revert_bit").bind Json.asStr).getD "0x00")
    s!"{field}.allow_revert_bit"
  let policy := ((declared.get? "unknown_opcode_policy").bind Json.asStr).getD "warn"
  .ok { table, mask, policy := .ofText policy }

/-- A level with its commands and the inputs as they came. -/
structure OpcodeStream extends OpcodeLevel where
  commands : List UInt8
  inputs : List Json

/-! ## Decoding the inputs -/

section Inputs

variable (kit : StreamKit)

def decodeInputsForOpcodeEntry (entry : Json) (bytes : List UInt8) : Option Json :=
  let primary := ((entry.get? "inputs_abi").bind Json.asStr).toList
  let alternatives := (((entry.get? "inputs_abi_alternatives").bind Json.asArray).getD []).filterMap
    Json.asStr
  (primary ++ alternatives).findSome? fun signature =>
    (kit.decodeInputsAbiTuple signature bytes).toOption

/-- The names of the members of a V4 swap tuple, by position; the hook data is
the last one however long the tuple is. -/
def v4SwapParams (key : String) (params : List Json) : List (String × Option Json) :=
  let hop := params.length = 5
  match key with
  | "0x06" => [("poolKey", params[0]?), ("zeroForOne", params[1]?), ("amountIn", params[2]?),
      ("amountOutMinimum", params[3]?), ("hookData", params.getLast?)]
  | "0x07" => [("currencyIn", params[0]?), ("path", params[1]?)] ++
      if hop then [("minHopPriceX36", params[2]?), ("amountIn", params[3]?),
        ("amountOutMinimum", params[4]?)]
      else [("amountIn", params[2]?), ("amountOutMinimum", params[3]?)]
  | "0x08" => [("poolKey", params[0]?), ("zeroForOne", params[1]?), ("amountOut", params[2]?),
      ("amountInMaximum", params[3]?), ("hookData", params.getLast?)]
  | "0x09" => [("currencyOut", params[0]?), ("path", params[1]?)] ++
      if hop then [("minHopPriceX36", params[2]?), ("amountOut", params[3]?),
        ("amountInMaximum", params[4]?)]
      else [("amountOut", params[2]?), ("amountInMaximum", params[3]?)]
  | _ => []

/-- `maybe_normalize_v4_swap_params`. -/
def normalizeV4SwapParams (key : String) (decoded : Json) : Json :=
  match decoded.asObject, (decoded.get? "params").bind Json.asArray with
  | some fields, some params => .obj <| insertFields fields <|
      (v4SwapParams key params).filterMap fun (name, value) => value.map (name, ·)
  | _, _ => decoded

def addressWord (address : String) : Option (List UInt8) := do
  let bytes ← (kit.hexDecode (stripHex address)).toOption
  if bytes.length = 20 then some (List.replicate 12 0 ++ bytes) else none

/-- The low three bytes of a number below a fill, as in an `int24`. -/
def int24Word (n : Int) : List UInt8 :=
  List.replicate 29 (if n < 0 then 0xff else 0) ++
    [UInt8.ofNat (n / 65536 % 256).toNat, UInt8.ofNat (n / 256 % 256).toNat,
      UInt8.ofNat (n % 256).toNat]

/-- `compute_v4_pool_id`: the hash of the five words of a pool key. -/
def computeV4PoolId (currency0 currency1 : String) (fee tickSpacing : Json) (hooks : String) :
    Option String := do
  let first ← addressWord kit currency0
  let second ← addressWord kit currency1
  let fee ← fee.asU64
  let spacing ← tickSpacing.asI64
  let hooks ← addressWord kit hooks
  let key := first ++ second ++ int24Word fee ++ int24Word spacing ++ hooks
  some ("0x" ++ kit.hexEncode (kit.keccak256 key))

def poolIdFromObj (key : Json) : Option String := do
  let currency0 ← (key.get? "currency0").bind Json.asStr
  let currency1 ← (key.get? "currency1").bind Json.asStr
  let fee ← key.get? "fee"
  let spacing ← key.get? "tickSpacing"
  let hooks ← (key.get? "hooks").bind Json.asStr
  computeV4PoolId kit currency0 currency1 fee spacing hooks

def poolIdFromArr (key : Json) : Option String := do
  let members ← key.asArray
  let currency0 ← members[0]?.bind Json.asStr
  let currency1 ← members[1]?.bind Json.asStr
  let fee ← members[2]?
  let spacing ← members[3]?
  let hooks ← members[4]?.bind Json.asStr
  computeV4PoolId kit currency0 currency1 fee spacing hooks

/-- `maybe_inject_v4_pool_id`. -/
def injectV4PoolId (decoded : Json) : Json :=
  let poolId := ((poolIdFromObj kit decoded).or ((decoded.get? "poolKey").bind
    (poolIdFromArr kit))).or (((decoded.get? "params").bind Json.asArray).bind fun params =>
      params.head?.bind (poolIdFromArr kit))
  match decoded, poolId with
  | .obj fields, some poolId => .obj (Json.insertField "pool_id" (.str poolId) fields)
  | decoded, _ => decoded

/-- What the bytes of one input decode to under the entry of its command; an
input without an ABI that fits is null. -/
def decodeOpcodeInput (level : OpcodeLevel) (command : UInt8) (bytes : List UInt8) : Json :=
  let decoded := ((level.entry command).bind (decodeInputsForOpcodeEntry kit · bytes)).getD .null
  injectV4PoolId kit (normalizeV4SwapParams (level.key command) decoded)

def decodeStreamInput (stream : OpcodeStream) (index : Nat) (input : Json) :
    Except EngineError Json := do
  let hex ← input.asStr.elim (.error ⟨"invalid_inputs", s!"inputs[{index}] not string"⟩) .ok
  let bytes ← (kit.hexDecode (stripHex hex)).mapError fun error =>
    ⟨"invalid_inputs_hex", s!"inputs[{index}]: {error}"⟩
  let command ← stream.commands[index]?.elim
    (.error ⟨"invalid_commands", s!"commands shorter than inputs at {index}"⟩) .ok
  .ok (decodeOpcodeInput kit stream.toOpcodeLevel command bytes)

def decodeStreamInputs (stream : OpcodeStream) : Except EngineError (List Json) :=
  stream.inputs.zipIdx.mapM fun (input, index) => decodeStreamInput kit stream index input

end Inputs

/-! ## Dispatching the commands -/

/-- The body of a call that nothing could be said about. -/
def unknownLeg (ctx : MapContext) : ActionBody :=
  .unknown ctx.txTo ctx.chain ctx.rawCalldata ctx.value

/-- `rederive_for_child`: the injectors add to the table of the parent. -/
def rederiveForChild (kit : DecodeKit) (parent : BTreeMap String Json) (inputs : Option Json) :
    BTreeMap String Json :=
  inputs.elim parent fun inputs =>
    (kit.derived inputs).foldl (fun derived key value => derived.insert key value) parent

def childContext (kit : DecodeKit) (ctx : MapContext) (inputs : Option Json) : MapContext :=
  { ctx with derived := rederiveForChild kit ctx.derived inputs, inputs }

section Dispatch

variable (kit : StreamKit) (ctx : MapContext)

/-- `$inputs.<field>`, without its root. -/
def innerSource (nested : Json) (source field : String) : String :=
  let declared := ((nested.get? source).bind Json.asStr).getD s!"$inputs.{field}"
  (Text.stripStart declared "$inputs.").getD field

def nestedStream (nested : Json) (parentInput : Option Json) (key : String) :
    Except EngineError OpcodeStream := do
  let level ← opcodeLevel nested s!"{key}.nested missing per_opcode_body" "nested"
  let actionsField := innerSource nested "inner_actions_source" "actions"
  let paramsField := innerSource nested "inner_params_source" "params"
  let parent ← field (parentInput.bind Json.asObject)
    s!"{key}.nested: parent input did not abi-decode to an object"
  let actions ← field ((parent.lookup actionsField).bind Json.asStr)
    (s!"{key}.nested: missing inner action bytes " ++ quoted actionsField)
  let commands ← (kit.hexDecode (stripHex actions)).mapError fun error =>
    ⟨"invalid_nested_input", s!"{key}.nested: inner actions not hex: {error}"⟩
  let inputs ← field ((parent.lookup paramsField).bind Json.asArray)
    (s!"{key}.nested: missing inner param array " ++ quoted paramsField)
  .ok { level with commands, inputs }
where
  field {α : Type} (value : Option α) (message : String) : Except EngineError α :=
    value.elim (.error ⟨"invalid_nested_input", message⟩) .ok
  quoted (name : String) : String := "`" ++ name ++ "`"

/-- One command with its decoded input. Nothing stands for a command that is skipped. -/
def dispatchOpcode (dispatch : OpcodeStream → List Json → Except EngineError ActionBody)
    (level : OpcodeLevel) (command : UInt8) (input : Option Json) :
    Except EngineError (Option ActionBody) :=
  match level.entry command with
  | none =>
    match level.policy with
    | .deny => .error ⟨"build_multicall_failed",
        s!"unknown opcode {level.key command} (policy: deny)"⟩
    | .warn => .ok (some (unknownLeg ctx))
    | .skip => .ok none
  | some entry =>
    match entry.get? "nested" with
    | some nested => do
      let stream ← nestedStream kit nested input (level.key command)
      let decoded ← decodeStreamInputs kit stream
      let body ← dispatch stream decoded
      .ok (some body)
    | none => do
      let template ← (entry.get? "body").elim
        (.error ⟨"build_multicall_failed", s!"{level.key command}.body missing"⟩) .ok
      let body ← (kit.buildActionBody (childContext kit.toDecodeKit ctx input) template
        none).mapError fun error => ⟨"build_multicall_failed", error⟩
      .ok (some body)

/-- The dispatcher for a number of nested levels. -/
def dispatchUpTo (maxDepth : Nat) :
    Nat → Nat → OpcodeStream → List Json → Except EngineError ActionBody
  | 0, depth, _, _ => .error ⟨"max_depth_exceeded",
      s!"opcode_stream recursion exceeded max_depth={maxDepth} at depth={depth}"⟩
  | levels + 1, depth, stream, decoded => do
    let legs ← stream.commands.zipIdx.mapM fun (command, index) =>
      dispatchOpcode kit ctx (dispatchUpTo maxDepth levels (depth + 1)) stream.toOpcodeLevel command
        decoded[index]?
    let actions := legs.filterMap id
    .ok (if actions.isEmpty then unknownLeg ctx else .multicall actions)

/-- `dispatch_opcode_stream`: no level is entered above `max_depth`. -/
def dispatchOpcodeStream (stream : OpcodeStream) (decoded : List Json) (depth maxDepth : Nat) :
    Except EngineError ActionBody :=
  dispatchUpTo kit ctx maxDepth (maxDepth + 1 - depth) depth stream decoded

end Dispatch

/-! ## The strategy -/

section Strategy

variable (kit : StreamKit) (ctx : MapContext)

def decodeV4UnlockData (source : String) : Except String (List UInt8 × List Json) := do
  let value ← (substitute kit.template ctx (.str source)).mapError fun error =>
    s!"resolve {source.quote}: {error.text}"
  let text ← value.asStr.elim (.error s!"{source.quote} did not resolve to a bytes hex string") .ok
  let bytes ← (kit.hexDecode (stripHex text)).mapError fun error => s!"unlockData not hex: {error}"
  let decoded ← kit.decodeInputsAbiTuple "(bytes actions, bytes[] params)" bytes
  let actions ← ((decoded.get? "actions").bind Json.asStr).elim
    (.error "decoded unlockData missing `actions` bytes") .ok
  let commands ← (kit.hexDecode (stripHex actions)).mapError fun error =>
    s!"actions not hex: {error}"
  let params ← ((decoded.get? "params").bind Json.asArray).elim
    (.error "decoded unlockData missing `params` array") .ok
  require (commands.length = params.length)
    s!"InputLengthMismatch: {commands.length} actions vs {params.length} params"
  .ok (commands, params)

/-- The commands and the inputs of a call: its own arguments, or the tuple
inside one of them. -/
def streamArguments (emit : Json) : Except EngineError (List UInt8 × List Json) :=
  match (emit.get? "unlock_data_source").bind Json.asStr with
  | some source => (decodeV4UnlockData kit ctx source).mapError (⟨"invalid_unlock_data", ·⟩)
  | none => do
    let commands ← ((ctx.args.get? "commands").bind Json.asStr).elim
      (.error ⟨"invalid_args", "missing args.commands"⟩) .ok
    let commands ← (kit.hexDecode (stripHex commands)).mapError fun error =>
      ⟨"invalid_commands", s!"commands not hex: {error}"⟩
    let inputs ← ((ctx.args.get? "inputs").bind Json.asArray).elim
      (.error ⟨"invalid_args", "missing args.inputs"⟩) .ok
    .ok (commands, inputs)

def streamMaxDepth (emit : Json) : Nat :=
  ((emit.get? "max_depth").bind Json.asU64).elim 3 (min · 4294967295)

/-- The arm `opcode_stream_dispatch`. -/
def opcodeStreamDispatch (emit : Json) : Except EngineError ActionBody := do
  let level ← opcodeLevel emit "missing emit.per_opcode_body" "emit"
  let (commands, inputs) ← streamArguments kit ctx emit
  let stream : OpcodeStream := { level with commands, inputs }
  let decoded ← decodeStreamInputs kit stream
  dispatchOpcodeStream kit ctx stream decoded 0 (streamMaxDepth emit)

end Strategy

/-! ## Index exactness -/

section Exact

variable (kit : StreamKit) (ctx : MapContext) (stream : OpcodeStream)

/-- The decoding of the input at the index of a command, under the ABI of that
command: no other input is read. -/
def OpcodeStream.decodedInput (command : UInt8) (index : Nat) :
    Option Json := do
  let input ← stream.inputs[index]?
  let hex ← input.asStr
  let bytes ← (kit.hexDecode (stripHex hex)).toOption
  return decodeOpcodeInput kit stream.toOpcodeLevel command bytes

def StreamDecodes (depth maxDepth : Nat) (body : ActionBody) : Prop :=
  ∃ decoded, decodeStreamInputs kit stream = .ok decoded ∧
    dispatchOpcodeStream kit ctx stream decoded depth maxDepth = .ok body

inductive StreamChild (stream : OpcodeStream) (depth maxDepth : Nat) (command : UInt8)
    (index : Nat) : ActionBody → Prop
  | unmapped (hentry : stream.entry command = none) (hpolicy : stream.policy = .warn) :
      StreamChild stream depth maxDepth command index (unknownLeg ctx)
  | leaf {entry template body} (hentry : stream.entry command = some entry)
      (hnested : entry.get? "nested" = none) (htemplate : entry.get? "body" = some template)
      (hbuild : kit.buildActionBody (childContext kit.toDecodeKit ctx
        (stream.decodedInput kit command index)) template none = .ok body) :
      StreamChild stream depth maxDepth command index body
  | nested {entry nested inner body} (hentry : stream.entry command = some entry)
      (hnested : entry.get? "nested" = some nested)
      (hinner : nestedStream kit nested (stream.decodedInput kit command index)
        (stream.key command) = .ok inner)
      (hbody : StreamDecodes kit ctx inner (depth + 1) maxDepth body) :
      StreamChild stream depth maxDepth command index body

/-- The body of a level has one child for each command, in order. -/
structure IndexExact (stream : OpcodeStream) (depth maxDepth : Nat) (body : ActionBody) : Prop where
  empty : stream.commands = [] → body = unknownLeg ctx
  children : stream.commands ≠ [] → ∃ actions, body = .multicall actions ∧
    actions.length = stream.commands.length ∧
    ∀ index command action, stream.commands[index]? = some command →
      actions[index]? = some action →
        StreamChild kit ctx stream depth maxDepth command index action

/-- The levels of a stream: a command with a `nested` entry opens one more. -/
inductive StreamLevel (root : OpcodeStream) (rootDepth : Nat) : OpcodeStream → Nat → Prop
  | root : StreamLevel root rootDepth root rootDepth
  | nested {stream depth index command entry nested inner}
      (hlevel : StreamLevel root rootDepth stream depth)
      (hcommand : stream.commands[index]? = some command)
      (hentry : stream.entry command = some entry) (hnested : entry.get? "nested" = some nested)
      (hinner : nestedStream kit nested (stream.decodedInput kit command index)
        (stream.key command) = .ok inner) :
      StreamLevel root rootDepth inner (depth + 1)

variable {kit ctx} {stream : OpcodeStream} {decoded : List Json} {depth maxDepth : Nat}

/-! ### One level -/

variable {index : Nat} {command : UInt8}

/-- The two passes meet at the index. -/
theorem getElem?_decodeStreamInputs (h : decodeStreamInputs kit stream = .ok decoded)
    (hco : stream.commands[index]? = some command) :
    decoded[index]? = stream.decodedInput kit command index := by
  have hin := mapM_getElem? h index
  rw [getElem?_zipIdx] at hin
  cases hi : stream.inputs[index]? with
  | none =>
    rw [hi] at hin
    simpa [OpcodeStream.decodedInput, hi] using hin.symm
  | some input =>
    obtain ⟨value, hv, hd⟩ : ∃ value, decoded[index]? = some value ∧
        decodeStreamInput kit stream index input = .ok value := by
      rw [hi] at hin
      simpa [eq_comm] using hin.symm
    rw [hv]
    simp only [decodeStreamInput, hco, bind_eq_ok, mapError_eq_ok] at hd
    obtain ⟨hex, hh, bs, hb, c, hc, hv⟩ := hd
    cases hc
    cases hv
    simp [OpcodeStream.decodedInput, hi, elim_error_eq_ok.1 hh, hb, Except.toOption]

/-- One command, with the levels below it. -/
def streamLeg (kit : StreamKit) (ctx : MapContext) (depth maxDepth : Nat) :
    OpcodeLevel → UInt8 → Option Json → Except EngineError (Option ActionBody) :=
  dispatchOpcode kit ctx fun stream decoded =>
    dispatchOpcodeStream kit ctx stream decoded (depth + 1) maxDepth

theorem dispatchOpcodeStream_eq (h : depth ≤ maxDepth) :
    dispatchOpcodeStream kit ctx stream decoded depth maxDepth = (do
      let ls ← stream.commands.zipIdx.mapM fun (command, index) =>
        streamLeg kit ctx depth maxDepth stream.toOpcodeLevel command decoded[index]?
      .ok (if (ls.filterMap id).isEmpty then unknownLeg ctx
        else .multicall (ls.filterMap id))) := by
  have hl : maxDepth + 1 - depth = maxDepth + 1 - (depth + 1) + 1 := by omega
  rw [dispatchOpcodeStream, hl, dispatchUpTo]
  rfl

variable {body : ActionBody}

theorem StreamDecodes.exists_legs (h : StreamDecodes kit ctx stream depth maxDepth body) :
    depth ≤ maxDepth ∧ ∃ ls : List (Option ActionBody),
      (∀ index, stream.commands[index]?.map (fun command =>
          streamLeg kit ctx depth maxDepth stream.toOpcodeLevel command
            (stream.decodedInput kit command index)) = ls[index]?.map .ok) ∧
      body = if (ls.filterMap id).isEmpty then unknownLeg ctx
        else .multicall (ls.filterMap id) := by
  obtain ⟨decoded, hde, hd⟩ := h
  have hdp : depth ≤ maxDepth := by
    by_contra hdeep
    rw [dispatchOpcodeStream, Nat.sub_eq_zero_of_le (Nat.lt_of_not_le hdeep), dispatchUpTo] at hd
    cases hd
  rw [dispatchOpcodeStream_eq hdp] at hd
  obtain ⟨ls, hl, hb⟩ := bind_eq_ok.1 hd
  cases hb
  refine ⟨hdp, ls, fun index => ?_, rfl⟩
  rw [← mapM_getElem? hl index, getElem?_zipIdx, Option.map_map]
  cases hc : stream.commands[index]? with
  | none => rfl
  | some command =>
    simp [getElem?_decodeStreamInputs hde hc]

theorem streamChild_of_streamLeg {action : ActionBody}
    (h : streamLeg kit ctx depth maxDepth stream.toOpcodeLevel command
      (stream.decodedInput kit command index) = .ok (some action)) :
    StreamChild kit ctx stream depth maxDepth command index action := by
  unfold streamLeg dispatchOpcode at h
  cases he : stream.entry command with
  | none =>
    simp only [he] at h
    cases hp : stream.policy with
    | deny => simp [hp] at h
    | skip => simp [hp] at h
    | warn =>
      simp only [hp] at h
      cases h
      exact .unmapped he hp
  | some entry =>
    simp only [he] at h
    cases hn : entry.get? "nested" with
    | some nested =>
      simp only [hn, bind_eq_ok] at h
      obtain ⟨i, hi, decoded, hd, body, hb, h⟩ := h
      cases h
      exact .nested he hn hi ⟨decoded, hd, hb⟩
    | none =>
      simp only [hn, bind_eq_ok, elim_error_eq_ok, mapError_eq_ok] at h
      obtain ⟨t, ht, body, hb, h⟩ := h
      cases h
      exact .leaf he hn ht hb

theorem isSome_of_streamLeg {level : OpcodeLevel} {input : Option Json} {leg : Option ActionBody}
    (hp : level.policy ≠ .skip)
    (h : streamLeg kit ctx depth maxDepth level command input = .ok leg) : leg.isSome = true := by
  unfold streamLeg dispatchOpcode at h
  split at h
  · split at h
    · cases h
    · cases h
      rfl
    · next hs => exact absurd hs hp
  · split at h
    · obtain ⟨_, _, h⟩ := bind_eq_ok.1 h
      obtain ⟨_, _, h⟩ := bind_eq_ok.1 h
      obtain ⟨_, _, h⟩ := bind_eq_ok.1 h
      cases h
      rfl
    · obtain ⟨_, _, h⟩ := bind_eq_ok.1 h
      obtain ⟨_, _, h⟩ := bind_eq_ok.1 h
      cases h
      rfl

theorem eq_map_some {α : Type} {ls : List (Option α)} (h : ∀ leg ∈ ls, leg.isSome = true) :
    ls = (ls.filterMap id).map some := by
  induction ls with
  | nil => rfl
  | cons leg r ih =>
    obtain ⟨a, rfl⟩ := isSome_iff_exists.1 (h leg (mem_cons_self ..))
    have hr := ih fun leg hl => h leg (mem_cons_of_mem _ hl)
    simpa using hr

section

variable (h : StreamDecodes kit ctx stream depth maxDepth body)
include h

theorem StreamDecodes.exists_actions (hp : stream.policy ≠ .skip) :
    ∃ actions : List ActionBody,
      (∀ index, stream.commands[index]?.map (fun command =>
          streamLeg kit ctx depth maxDepth stream.toOpcodeLevel command
            (stream.decodedInput kit command index)) =
        actions[index]?.map fun a => .ok (some a)) ∧
      body = if actions.isEmpty then unknownLeg ctx else .multicall actions := by
  obtain ⟨-, ls, hlg, hb⟩ := h.exists_legs
  have hs : ∀ leg ∈ ls, leg.isSome = true := by
    intro leg hl
    obtain ⟨index, hi⟩ := getElem?_of_mem hl
    have hc := hlg index
    rw [hi, map_some, map_eq_some_iff] at hc
    obtain ⟨_, _, hl⟩ := hc
    exact isSome_of_streamLeg hp hl
  refine ⟨ls.filterMap id, fun index => ?_, hb⟩
  rw [hlg index]
  conv_lhs => rw [eq_map_some hs, getElem?_map, Option.map_map]
  rfl

theorem StreamDecodes.indexExact
    (hp : stream.policy ≠ .skip) : IndexExact kit ctx stream depth maxDepth body := by
  obtain ⟨acs, ha, hb⟩ := h.exists_actions hp
  have hln : acs.length = stream.commands.length := by
    apply le_antisymm
    · rw [← List.getElem?_eq_none_iff]
      have he := ha stream.commands.length
      rw [getElem?_eq_none (le_refl _)] at he
      exact map_eq_none_iff.1 he.symm
    · rw [← List.getElem?_eq_none_iff]
      have he := ha acs.length
      rw [getElem?_eq_none (le_refl acs.length)] at he
      exact map_eq_none_iff.1 he
  constructor
  · intro hem
    rw [hem, length_nil, length_eq_zero_iff] at hln
    rw [hb, hln]
    rfl
  · intro hs
    have hn : acs ≠ [] := by
      rintro rfl
      exact hs (length_eq_zero_iff.1 hln.symm)
    refine ⟨acs, ?_, hln, fun index command a hc hat => ?_⟩
    · rw [hb, if_neg (by simpa using hn)]
    · have hl := ha index
      rw [hc, hat] at hl
      exact streamChild_of_streamLeg (some.inj hl)

/-! ### Every level -/

theorem StreamDecodes.exists_leg (hc : stream.commands[index]? = some command) :
    ∃ leg, streamLeg kit ctx depth maxDepth stream.toOpcodeLevel command
      (stream.decodedInput kit command index) = .ok leg := by
  obtain ⟨-, ls, hlg, -⟩ := h.exists_legs
  have hl := hlg index
  rw [hc, map_some, eq_comm, map_eq_some_iff] at hl
  obtain ⟨leg, -, hl⟩ := hl
  exact ⟨leg, hl.symm⟩

theorem StreamDecodes.nested {i : OpcodeStream}
    {entry nested : Json} (hc : stream.commands[index]? = some command)
    (he : stream.entry command = some entry) (hn : entry.get? "nested" = some nested)
    (hi : nestedStream kit nested (stream.decodedInput kit command index)
      (stream.key command) = .ok i) :
    ∃ body', StreamDecodes kit ctx i (depth + 1) maxDepth body' := by
  obtain ⟨leg, hl⟩ := h.exists_leg hc
  simp only [streamLeg, dispatchOpcode, he, hn, hi, ok_bind, bind_eq_ok] at hl
  obtain ⟨decoded, hd, body', hb', -⟩ := hl
  exact ⟨body', decoded, hd, hb'⟩

end

theorem StreamDecodes.level {rd : Nat}
    {root : OpcodeStream} (h : StreamDecodes kit ctx root rd maxDepth body)
    (hl : StreamLevel kit root rd stream depth) :
    ∃ body', StreamDecodes kit ctx stream depth maxDepth body' := by
  induction hl with
  | root => exact ⟨body, h⟩
  | nested _ hc he hn hi ih =>
    obtain ⟨body', hb'⟩ := ih
    exact hb'.nested hc he hn hi

theorem StreamDecodes.mapped (h : StreamDecodes kit ctx stream depth maxDepth body)
    (hp : stream.policy = .deny) (hc : command ∈ stream.commands) :
    stream.entry command ≠ none := by
  intro he
  obtain ⟨index, hi⟩ := getElem?_of_mem hc
  obtain ⟨leg, hl⟩ := h.exists_leg hi
  simp [streamLeg, dispatchOpcode, he, hp] at hl

theorem StreamDecodes.child_congr {acs : List ActionBody} {stream' : OpcodeStream}
    {acs' : List ActionBody} (h : StreamDecodes kit ctx stream depth maxDepth (.multicall acs))
    (h' : StreamDecodes kit ctx stream' depth maxDepth (.multicall acs'))
    (hp : stream.policy ≠ .skip) (hl : stream'.toOpcodeLevel = stream.toOpcodeLevel)
    (hc : stream'.commands[index]? = stream.commands[index]?)
    (hin : stream'.inputs[index]? = stream.inputs[index]?) : acs'[index]? = acs[index]? := by
  have hp' : stream'.policy ≠ .skip := hl ▸ hp
  obtain ⟨own, ho, hb⟩ := h.exists_actions hp
  obtain ⟨own', ho', hb'⟩ := h'.exists_actions hp'
  have ha : acs = own := by
    split at hb
    · cases hb
    · exact ActionBody.multicall.inj hb
  have ha' : acs' = own' := by
    split at hb'
    · cases hb'
    · exact ActionBody.multicall.inj hb'
  have hd (command : UInt8) :
      stream'.decodedInput kit command index = stream.decodedInput kit command index := by
    simp only [OpcodeStream.decodedInput, hin, hl]
  have hs := ho' index
  simp only [hc, hl, hd, ho index] at hs
  rw [ha, ha']
  have hi : Function.Injective fun ac : ActionBody =>
      (.ok (some ac) : Except EngineError (Option ActionBody)) := by
    intro a b hab
    cases hab
    rfl
  exact (map_injective hi hs).symm

end Exact

/-! ## Opcode streams are index exact -/

/-- What the dispatch of opcode streams guarantees. -/
structure StreamsExact (kit : StreamKit) (ctx : MapContext) : Prop where
  /-- Every level of a stream that is dispatched, unless it skips commands, has
  one child for each command in order, from the input at the same index; under
  `deny` every command of the level has an entry. -/
  exact_ : ∀ root rootDepth maxDepth body, StreamDecodes kit ctx root rootDepth maxDepth body →
    (root.policy ≠ .skip → IndexExact kit ctx root rootDepth maxDepth body) ∧
      ∀ stream depth, StreamLevel kit root rootDepth stream depth →
        ∃ body', StreamDecodes kit ctx stream depth maxDepth body' ∧
          (stream.policy ≠ .skip → IndexExact kit ctx stream depth maxDepth body') ∧
          (stream.policy = .deny → ∀ command ∈ stream.commands, stream.entry command ≠ none)
  /-- Changing the other inputs, or the other commands, changes no child. -/
  noOther : ∀ stream stream' depth maxDepth actions actions' (index : Nat),
    StreamDecodes kit ctx stream depth maxDepth (.multicall actions) →
    StreamDecodes kit ctx stream' depth maxDepth (.multicall actions') →
    stream.policy ≠ .skip → stream'.toOpcodeLevel = stream.toOpcodeLevel →
    stream'.commands[index]? = stream.commands[index]? →
    stream'.inputs[index]? = stream.inputs[index]? → actions'[index]? = actions[index]?
  /-- A stream with a level above the limit fails. -/
  bounded : ∀ root decoded rootDepth maxDepth stream depth,
    decodeStreamInputs kit root = .ok decoded → StreamLevel kit root rootDepth stream depth →
    maxDepth < depth →
      ∃ error, dispatchOpcodeStream kit ctx root decoded rootDepth maxDepth = .error error

theorem opcode_streams_exact (kit : StreamKit) (ctx : MapContext) : StreamsExact kit ctx where
  exact_ root rootDepth maxDepth body h := by
    refine ⟨h.indexExact, fun stream depth hl => ?_⟩
    obtain ⟨body', hb'⟩ := h.level hl
    exact ⟨body', hb', hb'.indexExact, fun hdn command => hb'.mapped hdn⟩
  noOther stream stream' depth maxDepth actions actions' index h h' := h.child_congr h'
  bounded root decoded rootDepth maxDepth stream depth hdecoded hl hdeep := by
    cases hd : dispatchOpcodeStream kit ctx root decoded rootDepth maxDepth with
    | error error => exact ⟨error, rfl⟩
    | ok body =>
      obtain ⟨body', hb'⟩ := StreamDecodes.level ⟨decoded, hdecoded, hd⟩ hl
      exact absurd hb'.exists_legs.1 (Nat.not_le_of_lt hdeep)

/-! ### A stream with a level inside -/

/-- Digits stand for bytes, and the ABI of an input is its only member. -/
def sampleStreamKit : StreamKit where
  parseInput _ := .error ""
  addressFromStr _ := .error ""
  u256FromDecimal _ := .error ""
  hexDecode text := .ok (text.toList.map fun c => UInt8.ofNat (c.toNat - 48))
  hexEncode _ := ""
  decodeAbi _ _ := .error ""
  decodeInputsAbiTuple signature bytes := .ok <|
    if signature = "plan" then
      .obj [("actions", .str "24"), ("params", .arr [.str "7", .str "8"])]
    else .obj [(signature, .arr (bytes.map fun byte => .int byte.toNat))]
  onchainTx _ _ _ _ _ _ := .null
  resolved _ _ _ := ∅
  derived _ := ∅
  buildActionBody ctx _ _ := .ok (.domain
    { domain := .token, actionTag := "erc20_transfer", fields := ctx.inputs.getD .null })
  buildArrayEmit _ _ _ _ _ _ := .error ""
  opcodeStreamDispatch _ _ := .error ⟨"", ""⟩
  buildTaggedDispatch _ _ := .error ⟨"", ""⟩
  buildParallelTaggedDispatch _ _ _ := .error ⟨"", ""⟩
  isUnresolvedMetamorphoUnderlying _ := false
  keccak256 _ := []
  utf8FromBytes _ := .error ""
  resolveNamed _ _ _ := none
  template :=
    { jsonText := fun _ => ""
      builtinFn := fun _ _ => .error ""
      u256FromDecimal := fun _ => .error ""
      tagError := fun _ => ""
      actionsFromFields := fun _ => .error ""
      unknownFromFields := fun _ => .error ""
      domainFromFields := fun _ _ => .error ""
      domainKeys := fun _ => [] }

def sampleContext : MapContext where
  chain := "eip155:1"
  txTo := 0
  txFrom := 0
  value := 0
  submittedAt := 0
  args := .null
  rawCalldata := "0x"
  resolved := ∅
  derived := ∅

/-- A transfer, a plan with a transfer and an unmapped command, and an unmapped command. -/
def sampleStream : OpcodeStream where
  table := [("0x01", .obj [("body", .null), ("inputs_abi", .str "amount")]),
    ("0x03", .obj [("inputs_abi", .str "plan"), ("nested", .obj [("per_opcode_body",
      .obj [("0x02", .obj [("body", .null), ("inputs_abi", .str "share")])])])])]
  mask := 0x3f
  policy := .warn
  commands := [0x81, 0x03, 0x09]
  inputs := [.str "5", .str "6"]

def sampleLeg (member : String) (byte : Int) : ActionBody :=
  .domain { domain := .token, actionTag := "erc20_transfer",
            fields := .obj [(member, .arr [.int byte])] }

def sampleBody : ActionBody :=
  .multicall [sampleLeg "amount" 5,
    .multicall [sampleLeg "share" 7, unknownLeg sampleContext],
    unknownLeg sampleContext]

theorem opcode_streams_exact_sample :
    IndexExact sampleStreamKit sampleContext sampleStream 0 1 sampleBody :=
  ((opcode_streams_exact sampleStreamKit sampleContext).exact_ _ _ _ _
    ⟨_, rfl, rfl⟩).1 (by decide)

end Dambi
