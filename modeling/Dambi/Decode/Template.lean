import Dambi.Bundle.StrictJson
import Dambi.Decode.Emit

/-!
# Placeholders

The first stage of `action_builder.rs`: every string of a body template that
starts with `$` is replaced by the value it names in the context of the call.
An object with the key `$match` is a value map, one with the key `$fn` is a
call of a whitelisted function.
-/

namespace Dambi

open Fallible

/-- What the action builder calls of other crates. -/
structure TemplateKit where
  /-- `Display` of a `serde_json::Value`. -/
  jsonText : Json → String
  /-- `builtin_fn::dispatch`. -/
  builtinFn : String → List Json → Except String Json
  u256FromDecimal : String → Except String U256
  /-- What serde says of a tag that names no variant, or of an absent one. -/
  tagError : Option Json → String
  /-- What serde reads of the fields beside the tag `multicall`. -/
  actionsFromFields : List (String × Json) → Except String (List ActionBody)
  /-- What serde reads of the fields beside the tag `unknown`. -/
  unknownFromFields : List (String × Json) → Except String (Address × String × String × U256)
  /-- What serde reads of the fields beside the tag of a domain. -/
  domainFromFields : Domain → List (String × Json) → Except String DomainAction
  /-- The keys of the object that serde writes for the action of a domain. -/
  domainKeys : DomainAction → List String

/-- `V3BuildError`, without the variants that nothing on these paths raises. -/
inductive BuildError where
  | unresolvedPlaceholder (text : String)
  | invalidArgPath (path args : String)
  | serdeFromValue (error : String)
  | unknownActionBodyFields (domain action : Option String) (fields : String)
  | unknownPlaceholder (name : String)
  | arraySourceNotArray (source : String)
  | parallelSourceNotArray (name placeholder : String)
  | parallelSourceLengthMismatch (name : String) (arrayLen parallelLen : Nat)
  | arraySourceTooLarge (source : String) (max actual : Nat)
  | valueMapNoMatch (matched : String)
  | valueMapMalformed (reason : String)
  | fnCall (function reason : String)
deriving DecidableEq, Repr

/-- `{:?}` of an optional string. -/
def debugOption : Option String → String
  | some text => s!"Some({text.quote})"
  | none => "None"

def BuildError.text : BuildError → String
  | .unresolvedPlaceholder text => s!"unresolved placeholder: {text}"
  | .invalidArgPath path args => s!"invalid arg path '{path}' on args {args}"
  | .serdeFromValue error => s!"serde from_value: {error}"
  | .unknownActionBodyFields domain action fields =>
    s!"unknown ActionBody field(s) for domain={debugOption domain} " ++
      s!"action={debugOption action}: {fields}"
  | .unknownPlaceholder name => s!"unknown placeholder (no fallback type registered): {name}"
  | .arraySourceNotArray source => s!"array_emit array_source did not resolve to an array: {source}"
  | .parallelSourceNotArray name placeholder =>
    s!"array_emit parallel_sources.{name} did not resolve to an array: {placeholder}"
  | .parallelSourceLengthMismatch name arrayLen parallelLen =>
    s!"array_emit parallel_sources.{name} length mismatch: array_source has {arrayLen}, " ++
      s!"parallel source has {parallelLen}"
  | .arraySourceTooLarge source max actual =>
    s!"array_emit array_source {source} has {actual} element(s), exceeding max_elements={max}"
  | .valueMapNoMatch matched =>
    s!"value-map: no case for matched key '{matched}' and no $default"
  | .valueMapMalformed reason => s!"value-map malformed: {reason}"
  | .fnCall function reason => s!"$fn '{function}' failed: {reason}"

/-! ## Paths -/

/-- The bracketed indices of a path segment; each takes two characters at least,
so that the length of the text is enough fuel. -/
def parseIndices (fullPath : String) : Nat → List Char → Except String (List Int)
  | 0, _ => .ok []
  | _, [] => .ok []
  | fuel + 1, '[' :: rest =>
    match rest.dropWhile (· ≠ ']') with
    | [] => .error s!"unterminated '[' in {fullPath.quote}"
    | _ :: remainder =>
      let text := rest.takeWhile (· ≠ ']')
      match StrictJson.parseI64 text with
      | none => .error s!"invalid index {(String.ofList text).quote} in {fullPath.quote}"
      | some index => (parseIndices fullPath fuel remainder).map (index :: ·)
  | _, remainder => .error <| s!"expected '[' after previous bracket in {fullPath.quote}, " ++
      s!"got {(String.ofList remainder).quote}"

def parseSegment (segment fullPath : String) : Except String (String × List Int) :=
  let name := segment.toList.takeWhile (· ≠ '[')
  let remainder := segment.toList.dropWhile (· ≠ '[')
  (parseIndices fullPath remainder.length remainder).map (String.ofList name, ·)

/-- An index counts from the end where it is negative. -/
def resolveIndex (length : Nat) (index : Int) : Option Nat :=
  if 0 ≤ index then
    if index.toNat < length then some index.toNat else none
  else if index.natAbs ≤ length then some (length - index.natAbs) else none

def walkIndex (name path : String) (cursor : Json) (index : Int) : Except String Json :=
  match cursor.asArray with
  | none => .error s!"indexed access on non-array at {name.quote}[{index}] in {path.quote}"
  | some items =>
    match (resolveIndex items.length index).bind (items[·]?) with
    | none => .error s!"index {index} out of bounds (len={items.length})"
    | some item => .ok item

def walkSegment (path : String) (cursor : Json) (segment : String) : Except String Json := do
  require (segment ≠ "") s!"empty path segment in {path.quote}"
  let (name, indices) ← parseSegment segment path
  let cursor ← if name = "" then .ok cursor
    else (cursor.get? name).elim (.error s!"missing field {name.quote} in {path.quote}") .ok
  indices.foldlM (walkIndex name path) cursor

def walkJsonPath (root : Json) (path : String) : Except String Json :=
  (Text.split path '.').foldlM (walkSegment path) root

/-! ## Placeholders -/

/-- The zero of the type that a name of `$resolved` or `$derived` is expected to have. -/
def placeholderZero (name : String) : Option Json :=
  if name ∈ ["weth", "factory", "pool", "pool_manager", "v3_path_first_token",
      "v3_path_last_token", "v4_token_in", "v4_token_out", "v4_hooks", "v4_recipient",
      "metamorpho_underlying"] then
    some (.str "0x0000000000000000000000000000000000000000")
  else if name ∈ ["fee_tier_bp", "slippage_bp"] then some (.int 0)
  else if name ∈ ["v4_amount_in", "v4_amount_out_min", "min_lp_out"] then some (.str "0")
  else if name = "v4_pool_id" then
    some (.str "0x0000000000000000000000000000000000000000000000000000000000000000")
  else none

/-- `{:#x}` of an address. -/
def addressText (address : Address) : String :=
  let digits := Nat.toDigits 16 address.toNat
  "0x" ++ String.ofList (List.replicate (40 - digits.length) '0' ++ digits)

/-- The root of a placeholder and what follows it: a dot is dropped, a bracket is kept. -/
def splitPlaceholder (raw : String) : String × String :=
  let body := raw.toList.drop 1
  let root := body.takeWhile fun c => c ≠ '.' && c ≠ '['
  let rest := body.dropWhile fun c => c ≠ '.' && c ≠ '['
  let rest := if rest.head? = some '.' then rest.tail else rest
  (String.ofList root, String.ofList rest)

section Placeholders

variable (kit : TemplateKit) (ctx : MapContext)

def walkFrom (root : Json) (path : String) : Except BuildError Json :=
  (walkJsonPath root path).mapError fun error =>
    .invalidArgPath path s!"{error}: {kit.jsonText root}"

def resolveTx : String → Except BuildError Json
  | "from" => .ok (.str (addressText ctx.txFrom))
  | "to" => .ok (.str (addressText ctx.txTo))
  | "value" => .ok (.str (toString ctx.value.toNat))
  | "chain" => .ok (.str ctx.chain)
  | other => .error (.unresolvedPlaceholder s!"$tx.{other}")

def resolveTable (table : BTreeMap String Json) (root name : String) : Except BuildError Json :=
  match (table.get? name).or (placeholderZero name) with
  | some value => .ok value
  | none => .error (.unknownPlaceholder s!"{root}.{name}")

def resolvePlaceholder (raw : String) : Except BuildError Json :=
  let (root, rest) := splitPlaceholder raw
  match root with
  | "chain" => .ok (.str ctx.chain)
  | "to" => .ok (.str (addressText ctx.txTo))
  | "calldata" =>
    if rest = "" then .ok (.str ctx.rawCalldata)
    else .error (.unresolvedPlaceholder s!"$calldata takes no path suffix (got {raw.quote})")
  | "tx" => resolveTx ctx rest
  | "args" =>
    if rest = "" then .error (.unresolvedPlaceholder raw) else walkFrom kit ctx.args rest
  | "resolved" => resolveTable ctx.resolved "resolved" rest
  | "derived" => resolveTable ctx.derived "derived" rest
  | "inputs" =>
    match ctx.inputs with
    | none => .error (.unresolvedPlaceholder raw)
    | some inputs => if rest = "" then .ok inputs else walkFrom kit inputs rest
  | other => .error (.unresolvedPlaceholder s!"${other} (rest={rest.quote})")

end Placeholders

/-! ## Substitution -/

/-- The first key of an object that is not among the reserved ones. -/
def strayKey (allowed : List String) (fields : List (String × Json)) : Option String :=
  (fields.map Prod.fst).find? (· ∉ allowed)

def hasKey (key : String) (fields : List (String × Json)) : Bool := (fields.lookup key).isSome

section Substitution

variable (kit : TemplateKit) (ctx : MapContext)

def matchKey : Json → Except BuildError String
  | .str s => .ok s
  | .int n => .ok (kit.jsonText (.int n))
  | .float bits => .ok (kit.jsonText (.float bits))
  | .bool b => .ok (if b then "true" else "false")
  | other => .error <| .valueMapMalformed
      s!"$match resolved to a non-keyable type: {kit.jsonText other}"

variable (fields : List (String × Json))

/-- `resolve_value_map`, given the substitution of what is below it. -/
def resolveValueMap
    (field : String → Option (Except BuildError Json))
    (case : String → Option (Option (Except BuildError Json))) : Except BuildError Json :=
  match strayKey ["$match", "$cases", "$default"] fields with
  | some key => .error <| .valueMapMalformed
      s!"unexpected key '{key}' in value-map (allowed: $match, $cases, $default)"
  | none => do
    let matched ← (field "$match").getD (.error (.valueMapMalformed "$match key missing"))
    let key ← matchKey kit matched
    match case key with
    | none => .error (.valueMapMalformed "$cases missing or not a JSON object")
    | some (some value) => value
    | some none => (field "$default").getD (.error (.valueMapNoMatch key))

/-- `resolve_fn_call`, given the substitution of its arguments. -/
def resolveFnCall
    (args : Option (Except BuildError (List Json))) : Except BuildError Json :=
  match strayKey ["$fn", "$args"] fields with
  | some key => .error <| .fnCall "<malformed>"
      s!"unexpected key '{key}' in $fn call (allowed: $fn, $args)"
  | none =>
    match (fields.lookup "$fn").bind Json.asStr with
    | none => .error (.fnCall "<malformed>" "$fn must be a string function name")
    | some name => do
      let args ← args.getD (.error (.fnCall name "$args must be a JSON array"))
      (kit.builtinFn name args).mapError (.fnCall name)

mutual

/-- `substitute_placeholders`. -/
def substitute : Json → Except BuildError Json
  | .str s => if Text.startsWith s "$" then resolvePlaceholder kit ctx s else .ok (.str s)
  | .arr items => (substituteItems items).map .arr
  | .obj fields =>
    if hasKey "$match" fields then
      resolveValueMap kit fields (fun key => substituteAt key fields)
        (fun key => substituteCase key fields)
    else if hasKey "$fn" fields then resolveFnCall kit fields (substituteArgs fields)
    else (substituteFields fields).map .obj
  | other => .ok other

def substituteItems : List Json → Except BuildError (List Json)
  | [] => .ok []
  | item :: rest => do
    let item ← substitute item
    let rest ← substituteItems rest
    .ok (item :: rest)

def substituteFields : List (String × Json) → Except BuildError (List (String × Json))
  | [] => .ok []
  | (key, value) :: rest => do
    let value ← substitute value
    let rest ← substituteFields rest
    .ok ((key, value) :: rest)

def substituteAt (key : String) : List (String × Json) → Option (Except BuildError Json)
  | [] => none
  | (k, value) :: rest => if k = key then some (substitute value) else substituteAt key rest

/-- The substitution of a case, where `$cases` is an object. -/
def substituteCase (key : String) : List (String × Json) → Option (Option (Except BuildError Json))
  | [] => none
  | (k, .obj cases) :: rest =>
    if k = "$cases" then some (substituteAt key cases) else substituteCase key rest
  | (k, _) :: rest => if k = "$cases" then none else substituteCase key rest

/-- The substitution of `$args`, where it is an array; there are none where it is absent. -/
def substituteArgs : List (String × Json) → Option (Except BuildError (List Json))
  | [] => some (.ok [])
  | (k, .arr items) :: rest =>
    if k = "$args" then some (substituteItems items) else substituteArgs rest
  | (k, _) :: rest => if k = "$args" then none else substituteArgs rest

end

end Substitution

end Dambi
