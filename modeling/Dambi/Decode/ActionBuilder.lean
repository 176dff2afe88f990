import Dambi.Decode.LiveInputs

/-!
# Building an action

`build_action_body` and `build_array_emit` of `action_builder.rs`: a body
template is filled in, flattened to the double-tagged form of the typed model
and decoded.
-/

namespace Dambi

open Fallible

/-! ## The flat form -/

def liftLiveInputs (body : Json) : Option (Json × Json) := do
  let obj ← body.asObject
  let domain ← tagOf "domain" obj
  let inner ← (obj.lookup domain).bind Json.asObject
  let action ← tagOf "action" inner
  let payload ← (inner.lookup action).bind Json.asObject
  let live ← payload.lookup "live_inputs"
  let payload := payload.filter (·.1 ≠ "live_inputs")
  return (.obj (Json.insertField domain (.obj (Json.insertField action (.obj payload) inner)) obj),
    live)

def stripInlineLiveInputs (body : Json) : Json × Option Json :=
  match liftLiveInputs body with
  | some (stripped, live) => (stripped, some live)
  | none => (body, none)

def bodyField {α : Type} (field : Option α) (message : String) : Except BuildError α :=
  field.elim (.error (.unresolvedPlaceholder message)) .ok

/-- `for (k, v) in fields { out.insert(k, v) }`. -/
def insertFields (out fields : List (String × Json)) : List (String × Json) :=
  fields.foldl (fun out (key, value) => Json.insertField key value out) out

/-- A body of a struct variant: its fields stand under its domain or beside it. -/
def flattenVariant (domain : String) (obj : List (String × Json)) : List (String × Json) :=
  insertFields [("domain", .str domain)]
    (((obj.lookup domain).bind Json.asObject).getD (obj.filter (·.1 ≠ "domain")))

def flattenDomain (domain : String) (obj : List (String × Json)) :
    Except BuildError (List (String × Json)) := do
  let inner ← bodyField ((obj.lookup domain).bind Json.asObject)
    s!"body.{domain} missing or not an object"
  let action ← bodyField (inner.lookup "action") s!"body.{domain}.action missing"
  let action ← bodyField action.asStr s!"body.{domain}.action not a string"
  let payload ← bodyField ((inner.lookup action).bind Json.asObject)
    s!"body.{domain}.{action} payload missing or not an object"
  .ok (insertFields [("action", .str action), ("domain", .str domain)] payload)

def flattenBody (body : Json) : Except BuildError (List (String × Json)) := do
  let obj ← bodyField body.asObject "body must be a JSON object"
  let domain ← bodyField (obj.lookup "domain") "body.domain missing"
  let domain ← bodyField domain.asStr "body.domain not a string"
  if domain = "multicall" ∨ domain = "unknown" then .ok (flattenVariant domain obj)
  else flattenDomain domain obj

/-! ## The typed form -/

def coerceDecimal : Json → Json
  | .str s =>
    let trimmed := (s.toList.dropWhile Text.isWhiteSpace).rdropWhile Text.isWhiteSpace
    match StrictJson.parseDigits trimmed with
    | some n => .int (min n 18446744073709551615 : Nat)
    | none => .str s
  | value => value

def timeLikeFields : List String := ["deadline", "expires_at", "sig_deadline", "valid_until"]

def coerceTimeLikeFields (flat : List (String × Json)) : List (String × Json) :=
  timeLikeFields.foldl (fun flat field => (flat.lookup field).elim flat fun value =>
    Json.insertField field (coerceDecimal value) flat) flat

/-- The domains of the typed model, in its order. -/
def Domain.all : List Domain :=
  [.token, .amm, .lending, .airdrop, .launchpad, .perp, .liquidStaking, .permission, .yield_,
    .restaking, .staking, .governance, .hyperliquidCore, .bridge, .marketplace]

def Domain.ofTag (tag : String) : Option Domain := Domain.all.find? (·.tag = tag)

section Builder

variable (kit : TemplateKit) (ctx : MapContext) (flat : List (String × Json))

/-- `from_value::<ActionBody>`, tagged by `domain`. -/
def actionFromFields : Except String ActionBody :=
  match tagOf "domain" flat with
  | some "multicall" => (kit.actionsFromFields flat).map .multicall
  | some "unknown" => (kit.unknownFromFields flat).map fun (target, chain, calldata, value) =>
      .unknown target chain calldata value
  | tag =>
    match tag.bind Domain.ofTag with
    | some domain => (kit.domainFromFields domain flat).map .domain
    | none => .error (kit.tagError (flat.lookup "domain"))

def serializedKeys : ActionBody → List String
  | .domain action => kit.domainKeys action
  | .multicall _ => ["actions", "domain"]
  | .unknown .. => ["calldata", "chain", "domain", "target", "value"]

def rejectUnknownActionBodyFields (action : ActionBody) :
    Except BuildError Unit :=
  let unknown := (flat.filter fun (key, value) =>
    !value.isNull && key ∉ serializedKeys kit action).map Prod.fst
  require (unknown = []) (.unknownActionBodyFields (tagOf "domain" flat) (tagOf "action" flat)
    (", ".intercalate unknown))

/-- The flat form of a template in a context, before its live inputs. -/
def flattenTemplate (template : Json) : Except BuildError (List (String × Json)) := do
  let substituted ← substitute kit ctx (stripInlineLiveInputs template).1
  flattenBody substituted

def buildActionBody (template : Json) (live : Option Json) : Except BuildError ActionBody := do
  let flat ← flattenTemplate kit ctx template
  let flat ← injectLiveInputs kit ctx flat (live.or (stripInlineLiveInputs template).2)
  let flat := coerceTimeLikeFields flat
  let action ← (actionFromFields kit flat).mapError .serdeFromValue
  rejectUnknownActionBodyFields kit flat action
  .ok action

/-! ## Arrays -/

def parallelSource (length : Nat) (name : String) (source : Json) :
    Except BuildError (String × List Json) := do
  let source ← bodyField source.asStr
    s!"array_emit.parallel_sources.{name} must be a placeholder string"
  let value ← resolvePlaceholder kit ctx source
  match value.asArray with
  | none => .error (.parallelSourceNotArray name source)
  | some items => do
    require (items.length = length) (.parallelSourceLengthMismatch name length items.length)
    .ok (name, items)

def parallelSources (length : Nat) : Option Json → Except BuildError (List (String × List Json))
  | none => .ok []
  | some sources => do
    let sources ← bodyField sources.asObject "array_emit.parallel_sources must be an object"
    sources.mapM fun (name, source) => parallelSource kit ctx length name source

/-- The `$inputs` of an element: the lengths agree, so that every parallel array has one. -/
def elementInputs (parallels : List (String × List Json)) (index : Nat) (element : Json) : Json :=
  if parallels.isEmpty then element
  else .obj (insertFields [("element", element)]
    (parallels.map fun (name, values) => (name, values[index]?.getD .null)))

def buildArrayEmit (source : String) (parallel : Option Json) (template : Json)
    (live : Option Json) (maxElements : Option Nat) : Except BuildError ActionBody := do
  let array ← resolvePlaceholder kit ctx source
  match array.asArray with
  | none => .error (.arraySourceNotArray source)
  | some items => do
    require (maxElements.all (items.length ≤ ·))
      (.arraySourceTooLarge source (maxElements.getD 0) items.length)
    let parallels ← parallelSources kit ctx items.length parallel
    let actions ← items.zipIdx.mapM fun (element, index) =>
      buildActionBody kit { ctx with inputs := some (elementInputs parallels index element) }
        template live
    .ok (.multicall actions)

end Builder

end Dambi
