import Mathlib.Data.List.ReduceOption
import Dambi.Json
import Dambi.Lib.Fallible

/-!
# The venue body gate

`injected/hl-exchange-parse.ts`: the body of a Hyperliquid `/exchange` POST is parsed
into one payload for each guarded action, and the POST goes out only if the policies
allow every payload. The venue reads `orders` of an `order`, `order` of a `modify` and
`modifies` of a `batchModify`; the parser decides between the last two by the shape of
the action and not by its type.
-/

namespace Dambi.Extension

open Fallible List Option

/-! ## Values -/

/-- A JavaScript number, as `JSON.parse` returns it. -/
inductive JsNumber where
  | int (n : Int)
  | float (bits : UInt64)
deriving DecidableEq, Repr

/-- `typeof v === "number"`. -/
def asNumber : Json → Option JsNumber
  | .int n => some (.int n)
  | .float bits => some (.float bits)
  | _ => none

/-- A thrown `TypeError`. -/
inductive Thrown where
  | typeError
deriving DecidableEq, Repr

/-- The conversions between numbers and text of the JavaScript engine. -/
structure JsNumbers where
  text : JsNumber → String
  toNumber : Json → Except Thrown JsNumber

section Parser

variable (js : JsNumbers)

mutual

/-- `String(v)`. An own `toString` of a parsed object is no function, so the
conversion of the object throws. -/
def jsString : Json → Except Thrown String
  | .null => .ok "null"
  | .bool b => .ok (toString b)
  | .int n => .ok (js.text (.int n))
  | .float bits => .ok (js.text (.float bits))
  | .str s => .ok s
  | .arr items => do
    let texts ← joinItems items
    .ok (String.intercalate "," texts)
  | .obj fields =>
    if (fields.lookup "toString").isSome then .error .typeError else .ok "[object Object]"

/-- The items of an array as `join` shows them: `null` is the empty text. -/
def joinItems : List Json → Except Thrown (List String)
  | [] => .ok []
  | item :: rest => do
    let text ← if item.isNull then .ok "" else jsString item
    let texts ← joinItems rest
    .ok (text :: texts)

end

/-- `String(v ?? "")`. -/
def jsTextOrEmpty (value : Option Json) : Except Thrown String :=
  match value with
  | none | some .null => .ok ""
  | some value => jsString js value

/-! ## Payloads -/

/-- `HyperliquidOrderWire`. -/
structure OrderWire where
  a : JsNumber
  b : Bool
  p : String
  s : String
  r : Bool
  t : Option Json
  c : Option String

/-- `VenueActionWire`. -/
inductive VenueAction where
  | order (order : OrderWire)
  | updateLeverage (assetIndex : JsNumber) (isCross : Bool) (leverage : JsNumber)
  | withdraw (destination amount : String)
  | usdSend (destination amount : String)
  | spotSend (destination token amount : String)
  | usdClassTransfer (amount : String) (toPerp : Bool)
  | sendAsset (destination sourceDex destinationDex token amount : String)
  | sendToEvmWithData (token amount sourceDex destinationRecipient data : String)
  | cDeposit (wei : String)
  | cWithdraw (wei : String)
  | vaultTransfer (vaultAddress : String) (isDeposit : Bool) (usd : String)
  | subAccountTransfer (subAccountUser : String) (isDeposit : Bool) (usd : String)
  | tokenDelegate (validator : String) (isUndelegate : Bool) (wei : String)
  | twapOrder (assetIndex : JsNumber) (isBuy : Bool) (size : String) (reduceOnly : Bool)
      (minutes : JsNumber) (randomize : Bool)
  | updateIsolatedMargin (assetIndex : JsNumber) (isBuy : Bool) (ntli : String)
  | unknown (actionType : String)

/-- `HyperliquidExchangeSignatureWire`; `v` is a number or a text. -/
structure SignatureWire where
  r : String
  s : String
  v : Json

/-- `HyperliquidExchangeEnvelopeWire`. -/
structure ExchangeEnvelope where
  action : List (String × Json)
  nonce : Option JsNumber
  vaultAddress : Option String
  expiresAfter : Option JsNumber
  signature : Option SignatureWire

structure HlAttribution where
  nonce : Option JsNumber
  vaultAddress : Option String
  exchange : ExchangeEnvelope

/-- Where the body is sent to, and the page that sends it. -/
structure VenueEndpoint where
  venue : String
  endpoint : String
  hostname : String

structure VenueOrderPayload where
  chainId : Nat
  hostname : String
  venue : String
  endpoint : String
  hlAction : VenueAction
  nonce : Option JsNumber
  vaultAddress : Option String
  hlEnvelope : ExchangeEnvelope

def envelope (at_ : VenueEndpoint) (attribution : HlAttribution) (hlAction : VenueAction) :
    VenueOrderPayload :=
  ⟨0, at_.hostname, at_.venue, at_.endpoint, hlAction, attribution.nonce,
    attribution.vaultAddress, attribution.exchange⟩

def signatureWireFrom (value : Option Json) : Option SignatureWire := do
  let signature ← value
  let r ← (signature.get? "r").bind Json.asStr
  let s ← (signature.get? "s").bind Json.asStr
  let v ← signature.get? "v"
  if (asNumber v).isSome ∨ v.asStr.isSome then some ⟨r, s, v⟩ else none

/-! ## Order legs -/

def orderWireFrom (leg : Option Json) : Except Thrown (Option OrderWire) :=
  match leg.bind Json.asObject with
  | none => .ok none
  | some order =>
    match (order.lookup "a").bind asNumber, (order.lookup "b").bind Json.asBool with
    | some a, some b => do
      let p ← jsTextOrEmpty js (order.lookup "p")
      let s ← jsTextOrEmpty js (order.lookup "s")
      .ok (some ⟨a, b, p, s, ((order.lookup "r").bind Json.asBool).getD false, order.lookup "t",
        (order.lookup "c").bind Json.asStr⟩)
    | _, _ => .ok none

variable (at_ : VenueEndpoint) (attribution : HlAttribution)

/-- The loop that `parseOrders` and `parseModify` share: one payload for each valid leg,
and one unknown payload if a leg is not valid or there is none. -/
def parseLegs (actionType : String) (legs : List (Option Json)) :
    Except Thrown (List VenueOrderPayload) := do
  let wires ← legs.mapM (orderWireFrom js)
  let payloads := wires.reduceOption.map fun wire => envelope at_ attribution (.order wire)
  if wires.any (·.isNone) ∨ payloads = [] then
    .ok (payloads ++ [envelope at_ attribution (.unknown actionType)])
  else .ok payloads

def parseOrders (action : List (String × Json)) : Except Thrown (List VenueOrderPayload) :=
  match action.lookup "orders" with
  | some (.arr (order :: orders)) =>
    parseLegs js at_ attribution "order" ((order :: orders).map some)
  | _ => .ok [envelope at_ attribution (.unknown "order")]

/-- The legs of `parseModify`: `modifies` wins over `order`, whatever the type is. -/
def modifyLegs (action : List (String × Json)) : List (Option Json) :=
  match action.lookup "modifies" with
  | some (.arr modifies) => modifies.map (·.get? "order")
  | _ => [action.lookup "order"]

def parseModify (actionType : String) (action : List (String × Json)) :
    Except Thrown (List VenueOrderPayload) :=
  parseLegs js at_ attribution actionType (modifyLegs action)

/-! ## The other actions -/

/-- `typeof v === "string" ? v : ""`. -/
def textOr (value : Option Json) : String := (value.bind Json.asStr).getD ""

/-- `v === true`. -/
def isTrue (value : Option Json) : Bool := (value.bind Json.asBool).getD false

/-- The cases of the switch that produce one action: `none` for a type without a case,
`some (.ok none)` where a field that the case needs is missing. -/
def parseOne (actionType : String) (action : List (String × Json)) :
    Option (Except Thrown (Option VenueAction)) :=
  let field (key : String) := action.lookup key
  let str (key : String) := (field key).bind Json.asStr
  let number (key : String) := (field key).bind asNumber
  -- a case with a text field that must be there, and a value shown as text
  let withText (value : Option Json) (make : String → VenueAction) :
      Except Thrown (Option VenueAction) :=
    match value with
    | none => .ok none
    | some value => do
      let text ← jsString js value
      .ok (some (make text))
  match actionType with
  | "updateLeverage" =>
    match number "asset", (field "isCross").bind Json.asBool, number "leverage" with
    | some asset, some isCross, some leverage =>
      some (.ok (some (.updateLeverage asset isCross leverage)))
    | _, _, _ => some (.ok none)
  | "withdraw3" =>
    match str "destination" with
    | some destination => some (withText (field "amount") (.withdraw destination))
    | none => some (.ok none)
  | "usdSend" =>
    match str "destination" with
    | some destination => some (withText (field "amount") (.usdSend destination))
    | none => some (.ok none)
  | "spotSend" =>
    match str "destination", str "token" with
    | some destination, some token => some (withText (field "amount") (.spotSend destination token))
    | _, _ => some (.ok none)
  | "usdClassTransfer" =>
    some (withText (field "amount") (.usdClassTransfer · (isTrue (field "toPerp"))))
  | "sendAsset" =>
    match str "destination" with
    | some destination =>
      some (withText (field "amount") (.sendAsset destination (textOr (field "sourceDex"))
        (textOr (field "destinationDex")) (textOr (field "token"))))
    | none => some (.ok none)
  | "sendToEvmWithData" =>
    match str "destinationRecipient" with
    | some recipient =>
      some (withText (field "amount") (.sendToEvmWithData (textOr (field "token")) ·
        (textOr (field "sourceDex")) recipient (textOr (field "data"))))
    | none => some (.ok none)
  | "cDeposit" => some (withText (field "wei") .cDeposit)
  | "cWithdraw" => some (withText (field "wei") .cWithdraw)
  | "vaultTransfer" =>
    match str "vaultAddress" with
    | some vaultAddress =>
      some (withText (field "usd") (.vaultTransfer vaultAddress (isTrue (field "isDeposit"))))
    | none => some (.ok none)
  | "subAccountTransfer" =>
    match str "subAccountUser" with
    | some user =>
      some (withText (field "usd") (.subAccountTransfer user (isTrue (field "isDeposit"))))
    | none => some (.ok none)
  | "tokenDelegate" =>
    match str "validator" with
    | some validator =>
      some (withText (field "wei") (.tokenDelegate validator (isTrue (field "isUndelegate"))))
    | none => some (.ok none)
  | "twapOrder" =>
    match (field "twap").bind Json.asObject with
    | none => some (.ok none)
    | some twap =>
      match (twap.lookup "a").bind asNumber, (twap.lookup "b").bind Json.asBool with
      | some a, some b => some do
        let size ← jsTextOrEmpty js (twap.lookup "s")
        let minutes ←
          match (twap.lookup "m").bind asNumber with
          | some minutes => .ok minutes
          | none =>
            match twap.lookup "m" with
            | none | some .null => js.toNumber (.int 0)
            | some value => js.toNumber value
        .ok (some (.twapOrder a b size (isTrue (twap.lookup "r")) minutes
          (isTrue (twap.lookup "t"))))
      | _, _ => some (.ok none)
  | "updateIsolatedMargin" =>
    match number "asset" with
    | some asset =>
      some (withText (field "ntli") (.updateIsolatedMargin asset (isTrue (field "isBuy"))))
    | none => some (.ok none)
  | _ => none

def benignPassThrough : List String :=
  ["cancel", "cancelByCloid", "twapCancel", "scheduleCancel", "noop", "reserveRequestWeight",
    "setReferrer", "createSubAccount", "subAccountModify", "vaultModify", "spotUser",
    "evmUserModify"]

/-- The switch of `parseHyperliquidExchangeOrders`; `none` is `null`. -/
def parseAction (actionType : String) (action : List (String × Json)) :
    Except Thrown (Option (List VenueOrderPayload)) :=
  if actionType = "order" then some <$> parseOrders js at_ attribution action
  else if actionType = "modify" ∨ actionType = "batchModify" then
    some <$> parseModify js at_ attribution actionType action
  else
    let unknown := [envelope at_ attribution (.unknown actionType)]
    match parseOne js actionType action with
    | some parsed => do
      let hlAction ← parsed
      .ok (some (hlAction.elim unknown fun hlAction => [envelope at_ attribution hlAction]))
    | none => .ok (if actionType ∈ benignPassThrough then none else some unknown)

/-- The request-level fields that every payload of a body shares. -/
def attributionOf (root action : List (String × Json)) : HlAttribution :=
  let nonce := (root.lookup "nonce").bind asNumber
  let vaultAddress := ((root.lookup "vaultAddress").bind Json.asStr).filter (· ≠ "")
  ⟨nonce, vaultAddress, ⟨action, nonce, vaultAddress, (root.lookup "expiresAfter").bind asNumber,
    signatureWireFrom (root.lookup "signature")⟩⟩

def actionOf (body : Json) : Option (List (String × Json) × List (String × Json) × String) := do
  let root ← body.asObject
  let action ← (root.lookup "action").bind Json.asObject
  let actionType ← (action.lookup "type").bind Json.asStr
  some (root, action, actionType)

variable (parse : String → Option Json)

/-- `parseHyperliquidExchangeOrders`, with `JSON.parse` as a parameter: a body that is a
text is parsed once more. -/
def parseHyperliquidExchangeOrders (rawBody : Json) :
    Except Thrown (Option (List VenueOrderPayload)) :=
  let body := rawBody.asStr.elim (some rawBody) parse
  match body.bind actionOf with
  | none => .ok none
  | some (root, action, actionType) =>
    parseAction js at_ (attributionOf root action) actionType action

/-! ## The decision -/

inductive DenyReason where
  | unreadableBody
  | policy
deriving DecidableEq, Repr

inductive VenueBodyDecision where
  | passthrough
  | allow (payloads : List VenueOrderPayload)
  | deny (reason : DenyReason) (payloads : Option (List VenueOrderPayload))

/-- What `decideVenueBody` did: the payloads it asked the policies about, if it did, and
its decision, if nothing threw. -/
structure VenueBodyRun where
  asked : Option (List VenueOrderPayload)
  decision : Option VenueBodyDecision

/-- `decideVenueBody` on the text of a body, `none` where the body has none. The
callback may throw. -/
def decideVenueBody (bodyStr : Option String)
    (evaluate : List VenueOrderPayload → Option Bool) : VenueBodyRun :=
  match bodyStr.bind parse with
  | none => ⟨none, some (.deny .unreadableBody none)⟩
  | some bodyJson =>
    match parseHyperliquidExchangeOrders js at_ parse bodyJson with
    | .error _ => ⟨none, none⟩
    | .ok none => ⟨none, some .passthrough⟩
    | .ok (some payloads) =>
      ⟨some payloads, (evaluate payloads).map fun allowed =>
        if allowed then .allow payloads else .deny .policy (some payloads)⟩

/-! ## What the venue executes -/

/-- What an order leg says: asset, side, price and size. -/
structure LegTerms where
  asset : JsNumber
  isBuy : Bool
  price : String
  size : String
deriving DecidableEq, Repr

def OrderWire.terms (wire : OrderWire) : LegTerms := ⟨wire.a, wire.b, wire.p, wire.s⟩

def legTerms (leg : Json) : Option LegTerms := do
  let asset ← (leg.get? "a").bind asNumber
  let isBuy ← (leg.get? "b").bind Json.asBool
  let price ← (jsTextOrEmpty js (leg.get? "p")).toOption
  let size ← (jsTextOrEmpty js (leg.get? "s")).toOption
  some ⟨asset, isBuy, price, size⟩

def itemsOf (action : List (String × Json)) (key : String) : List Json :=
  ((action.lookup key).bind Json.asArray).getD []

def venueLegs (actionType : String) (action : List (String × Json)) : List Json :=
  if actionType = "order" then itemsOf action "orders"
  else if actionType = "modify" then (action.lookup "order").toList
  else if actionType = "batchModify" then
    (itemsOf action "modifies").filterMap (·.get? "order")
  else []

def Covered (payloads : List VenueOrderPayload) (leg : Json) : Prop :=
  (∃ payload ∈ payloads, ∃ wire, payload.hlAction = .order wire ∧
    legTerms js leg = some wire.terms) ∨
  ∃ payload ∈ payloads, ∃ actionType, payload.hlAction = .unknown actionType

/-- A `modify` with an array `modifies` shows its order there too, or an entry without a
readable order. -/
def ModifiesAgree (body : Json) : Prop :=
  ∀ root action, actionOf body = some (root, action, "modify") →
    ∀ order modifies, action.lookup "order" = some order →
      action.lookup "modifies" = some (.arr modifies) →
        modifies = [] ∨ ∃ entry ∈ modifies,
          (entry.get? "order").bind (legTerms js) = none ∨
            (entry.get? "order").bind (legTerms js) = legTerms js order

end Parser

/-! ## Legs and payloads -/

section Legs

variable {js : JsNumbers} {at_ : VenueEndpoint} {attribution : HlAttribution}

theorem bind_legTerms (js : JsNumbers) (leg : Option Json) :
    leg.bind (legTerms js) = ((orderWireFrom js leg).toOption.bind id).map OrderWire.terms := by
  cases leg with
  | none => rfl
  | some leg =>
    cases leg with
    | obj o =>
      simp only [bind_some, legTerms, Json.get?, orderWireFrom, Json.asObject]
      cases (o.lookup "a").bind asNumber with
      | none => rfl
      | some a =>
        cases (o.lookup "b").bind Json.asBool with
        | none => rfl
        | some b =>
          cases jsTextOrEmpty js (o.lookup "p") with
          | error e => rfl
          | ok p =>
            cases jsTextOrEmpty js (o.lookup "s") with
            | error e => rfl
            | ok s => rfl
    | _ => rfl

variable {actionType : String} {legs : List (Option Json)} {payloads : List VenueOrderPayload}
  {leg : Json}

section

variable (h : parseLegs js at_ attribution actionType legs = .ok payloads)
include h

/-- What `parseLegs` returns: the wires of the valid legs, and an unknown payload where a
leg has none or there is no leg. -/
theorem parseLegs_eq_ok :
    ∃ ws, legs.mapM (orderWireFrom js) = .ok ws ∧ ∀ p, p ∈ payloads ↔
      (∃ wire, some wire ∈ ws ∧ p = envelope at_ attribution (.order wire)) ∨
      ((none ∈ ws ∨ ws = []) ∧ p = envelope at_ attribution (.unknown actionType)) := by
  obtain ⟨ws, hwi, h⟩ := bind_eq_ok.1 h
  refine ⟨ws, hwi, fun p => ?_⟩
  have hv : p ∈ ws.reduceOption.map
      (fun wire => envelope at_ attribution (.order wire)) ↔
      ∃ wire, some wire ∈ ws ∧ p = envelope at_ attribution (.order wire) := by
    simp [reduceOption_mem_iff, eq_comm]
  have hu : (ws.any (·.isNone) = true ∨ ws.reduceOption.map
      (fun wire => envelope at_ attribution (.order wire)) = []) ↔
      (none ∈ ws ∨ ws = []) := by
    rw [map_eq_nil_iff]
    constructor
    · rintro (ha | hn)
      · obtain ⟨wire, hw, hno⟩ := List.any_eq_true.1 ha
        rw [isNone_iff_eq_none.1 hno] at hw
        exact .inl hw
      · cases hf : ws with
        | nil => exact .inr rfl
        | cons wire r =>
          cases wire with
          | none => exact .inl mem_cons_self
          | some wire =>
            have hm : wire ∈ ws.reduceOption :=
              reduceOption_mem_iff.2 (by rw [hf]; exact mem_cons_self)
            rw [hn] at hm
            cases hm
    · rintro (hno | rfl)
      · exact .inl (List.any_eq_true.2 ⟨none, hno, rfl⟩)
      · exact .inr rfl
  dsimp only at h
  split at h
  · next hc =>
    cases h
    simp [hv, hu.1 hc]
  · next hc =>
    cases h
    simp [hv, mt hu.2 hc]

/-- `parseLegs` shows every leg it is given. -/
theorem covered_of_parseLegs (hl : some leg ∈ legs) : Covered js payloads leg := by
  obtain ⟨ws, hwi, hm⟩ := parseLegs_eq_ok h
  obtain ⟨wire, hw, hf⟩ := exists_mem_of_mapM hwi hl
  have ht := bind_legTerms js (some leg)
  rw [hf] at ht
  cases wire with
  | none => exact .inr ⟨_, (hm _).2 (.inr ⟨.inl hw, rfl⟩), actionType, rfl⟩
  | some wire => exact .inl ⟨_, (hm _).2 (.inl ⟨wire, hw, rfl⟩), wire, rfl, ht⟩

theorem parseLegs_ne_nil : payloads ≠ [] := by
  obtain ⟨ws, -, hm⟩ := parseLegs_eq_ok h
  rintro rfl
  cases ws with
  | nil => simpa using hm (envelope at_ attribution (.unknown actionType))
  | cons wire r =>
    cases wire with
    | none => simpa using hm (envelope at_ attribution (.unknown actionType))
    | some wire =>
      exact not_mem_nil ((hm (envelope at_ attribution (.order wire))).2
        (.inl ⟨wire, mem_cons_self, rfl⟩))

end

variable {actionType : String} {action : List (String × Json)}

theorem parseOrders_ne_nil
    (h : parseOrders js at_ attribution action = .ok payloads) : payloads ≠ [] := by
  unfold parseOrders at h
  split at h
  · exact parseLegs_ne_nil h
  · cases h
    simp

/-- What the switch returns: the legs of the three order types, one payload for any other
type, and nothing for a benign one. -/
theorem parseAction_eq_ok {result : Option (List VenueOrderPayload)}
    (h : parseAction js at_ attribution actionType action = .ok result) :
    (actionType = "order" ∧ ∃ payloads, parseOrders js at_ attribution action = .ok payloads ∧
      result = some payloads) ∨
    ((actionType = "modify" ∨ actionType = "batchModify") ∧
      ∃ payloads, parseModify js at_ attribution actionType action = .ok payloads ∧
        result = some payloads) ∨
    (actionType ≠ "order" ∧ ¬ (actionType = "modify" ∨ actionType = "batchModify") ∧
      ((∃ hlAction, result = some [envelope at_ attribution hlAction]) ∨
        actionType ∈ benignPassThrough ∧ result = none)) := by
  unfold parseAction at h
  split at h
  · next ho =>
    obtain ⟨payloads, hp, hr⟩ := map_eq_ok.1 h
    exact .inl ⟨ho, payloads, hp, hr.symm⟩
  · next ho =>
    split at h
    · next hm =>
      obtain ⟨payloads, hp, hr⟩ := map_eq_ok.1 h
      exact .inr (.inl ⟨hm, payloads, hp, hr.symm⟩)
    · next hm =>
      refine .inr (.inr ⟨ho, hm, ?_⟩)
      dsimp only at h
      split at h
      · obtain ⟨hlAction, -, hr⟩ := bind_eq_ok.1 h
        cases hlAction with
        | none | some hlAction => exact .inl ⟨_, (Except.ok.inj hr).symm⟩
      · have hr := (Except.ok.inj h).symm
        split at hr
        · next hb => exact .inr ⟨hb, hr⟩
        · exact .inl ⟨_, hr⟩

theorem benign_of_parseAction (h : parseAction js at_ attribution actionType action = .ok none) :
    actionType ∈ benignPassThrough := by
  rcases parseAction_eq_ok h with ⟨-, _, -, hn⟩ | ⟨-, _, -, hn⟩ | ⟨-, -, ho⟩
  · cases hn
  · cases hn
  · rcases ho with ⟨_, hn⟩ | ⟨hb, -⟩
    · cases hn
    · exact hb

theorem parseAction_ne_nil
    (h : parseAction js at_ attribution actionType action = .ok (some payloads)) :
    payloads ≠ [] := by
  rcases parseAction_eq_ok h with ⟨-, _, hp, hs⟩ | ⟨-, _, hp, hs⟩ | ⟨-, -, ho⟩
  · cases hs
    exact parseOrders_ne_nil hp
  · cases hs
    exact parseLegs_ne_nil hp
  · rcases ho with ⟨_, hs⟩ | ⟨-, hs⟩ <;> cases hs
    simp

theorem covered_of_order (h : parseOrders js at_ attribution action = .ok payloads)
    (hl : leg ∈ itemsOf action "orders") : Covered js payloads leg := by
  unfold parseOrders at h
  split at h
  · next o os hlo =>
    refine covered_of_parseLegs h (List.mem_map_of_mem ?_)
    simpa [itemsOf, hlo, Json.asArray] using hl
  · cases h
    exact .inr ⟨_, List.mem_cons_self, "order", rfl⟩

theorem covered_of_batchModify (h : parseModify js at_ attribution actionType action = .ok payloads)
    (hl : leg ∈ (itemsOf action "modifies").filterMap (·.get? "order")) :
    Covered js payloads leg := by
  obtain ⟨entry, he, ho⟩ := mem_filterMap.1 hl
  refine covered_of_parseLegs h ?_
  unfold itemsOf at he
  unfold modifyLegs
  cases hlo : action.lookup "modifies" with
  | none => simp [hlo] at he
  | some value =>
    cases value with
    | arr ms =>
      simp only [hlo, bind_some, Json.asArray, getD_some] at he
      exact List.mem_map.2 ⟨entry, he, ho⟩
    | _ => simp [hlo, Json.asArray] at he

/-- The order of a `modify` is shown exactly when `modifies` is no array, or agrees. -/
theorem covered_of_modify_iff {order : Json}
    (h : parseModify js at_ attribution actionType action = .ok payloads)
    (ho : action.lookup "order" = some order) :
    Covered js payloads order ↔
      ∀ modifies, action.lookup "modifies" = some (.arr modifies) →
        modifies = [] ∨ ∃ entry ∈ modifies,
          (entry.get? "order").bind (legTerms js) = none ∨
            (entry.get? "order").bind (legTerms js) = legTerms js order := by
  by_cases har : ∃ modifies, action.lookup "modifies" = some (.arr modifies)
  · obtain ⟨modifies, hmo⟩ := har
    have hle : modifyLegs action = modifies.map (·.get? "order") := by
      simp only [modifyLegs, hmo]
    unfold parseModify at h
    rw [hle] at h
    obtain ⟨ws, hw, hm⟩ := parseLegs_eq_ok h
    have ht {leg : Option Json} {wire : Option OrderWire}
        (hwr : orderWireFrom js leg = .ok wire) :
        leg.bind (legTerms js) = wire.map OrderWire.terms := by
      rw [bind_legTerms, hwr]
      rfl
    constructor
    · intro hco modifies' hmo'
      cases hmo.symm.trans hmo'
      rcases hco with ⟨p, hp, wire, ha, ho⟩ |
        ⟨p, hp, actionType', ha⟩
      · rcases (hm p).1 hp with ⟨wire', hwr', rfl⟩ | ⟨-, rfl⟩
        · cases ha
          obtain ⟨leg, hl, hf⟩ := exists_of_mem_mapM hw hwr'
          obtain ⟨entry, he, rfl⟩ := List.mem_map.1 hl
          exact .inr ⟨entry, he, .inr ((ht hf).trans ho.symm)⟩
        · cases ha
      · rcases (hm p).1 hp with ⟨wire', -, rfl⟩ | ⟨hno | hn, -⟩
        · cases ha
        · obtain ⟨leg, hl, hf⟩ := exists_of_mem_mapM hw hno
          obtain ⟨entry, he, rfl⟩ := List.mem_map.1 hl
          exact .inr ⟨entry, he, .inl (ht hf)⟩
        · rw [hn, mapM_eq_ok, forall₂_nil_right_iff, map_eq_nil_iff] at hw
          exact .inl hw
    · intro hag
      have hu : none ∈ ws ∨ ws = [] → Covered js payloads order := fun hc =>
        .inr ⟨_, (hm _).2 (.inr ⟨hc, rfl⟩), actionType, rfl⟩
      rcases hag modifies hmo with rfl | ⟨entry, he, he'⟩
      · rw [map_nil, mapM_eq_ok, forall₂_nil_left_iff] at hw
        exact hu (.inr hw)
      · obtain ⟨wire, hwr, hf⟩ := exists_mem_of_mapM hw (List.mem_map_of_mem he)
        rw [ht hf] at he'
        cases wire with
        | none => exact hu (.inl hwr)
        | some wire =>
          rcases he' with hno | ho
          · cases hno
          · exact .inl ⟨_, (hm _).2 (.inl ⟨wire, hwr, rfl⟩), wire, rfl, ho.symm⟩
  · have hle : modifyLegs action = [some order] := by
      unfold modifyLegs
      split
      · next modifies hmo => exact absurd ⟨modifies, hmo⟩ har
      · rw [ho]
    refine iff_of_true (covered_of_parseLegs h ?_) fun modifies hmo =>
      absurd ⟨modifies, hmo⟩ har
    rw [hle]
    exact mem_singleton.2 rfl

end Legs

/-! ## The gate -/

section Gate

variable (js : JsNumbers) (at_ : VenueEndpoint) (parse : String → Option Json)

def Guarded (body : Json) : Prop :=
  ∃ root action actionType, actionOf body = some (root, action, actionType) ∧
    actionType ∉ benignPassThrough

/-- What the gate promises for a body that parses to `body`: only an unguarded one passes
unasked, one is allowed only by the policies, and they are asked about every leg that the
venue executes. -/
structure GatesBody (text : String) (body : Json)
    (evaluate : List VenueOrderPayload → Option Bool) : Prop where
  passthrough : (decideVenueBody js at_ parse (some text) evaluate).decision = some .passthrough →
    ¬ Guarded body
  allow : ∀ payloads,
    (decideVenueBody js at_ parse (some text) evaluate).decision = some (.allow payloads) →
      (decideVenueBody js at_ parse (some text) evaluate).asked = some payloads ∧
        payloads ≠ [] ∧ evaluate payloads = some true
  legs : ∀ root action actionType payloads, actionOf body = some (root, action, actionType) →
    (decideVenueBody js at_ parse (some text) evaluate).asked = some payloads →
      ∀ leg ∈ venueLegs actionType action, Covered js payloads leg

variable {js at_ parse} {text : String} {body : Json}
  {evaluate : List VenueOrderPayload → Option Bool}

variable {action : List (String × Json)} {payloads : List VenueOrderPayload}

variable {root : List (String × Json)} {actionType : String}

theorem parseHyperliquidExchangeOrders_of_action
    (h : actionOf body = some (root, action, actionType)) :
    parseHyperliquidExchangeOrders js at_ parse body =
      parseAction js at_ (attributionOf root action) actionType action := by
  have ho : body.asStr = none := by
    cases body with
    | str s => cases h
    | _ => rfl
  simp [parseHyperliquidExchangeOrders, ho, h]

theorem parseHyperliquidExchangeOrders_ne_nil
    (h : parseHyperliquidExchangeOrders js at_ parse body = .ok (some payloads)) :
    payloads ≠ [] := by
  unfold parseHyperliquidExchangeOrders at h
  dsimp only at h
  split at h
  · cases h
  · exact parseAction_ne_nil h

section

variable (hp : parse text = some body)
include hp

theorem decideVenueBody_of_parse : decideVenueBody js at_ parse (some text) evaluate =
      match parseHyperliquidExchangeOrders js at_ parse body with
      | .error _ => ⟨none, none⟩
      | .ok none => ⟨none, some .passthrough⟩
      | .ok (some payloads) =>
        ⟨some payloads, (evaluate payloads).map fun allowed =>
          if allowed then .allow payloads else .deny .policy (some payloads)⟩ := by
  simp [decideVenueBody, hp]

theorem decision_eq_passthrough
    (h : (decideVenueBody js at_ parse (some text) evaluate).decision = some .passthrough) :
    parseHyperliquidExchangeOrders js at_ parse body = .ok none := by
  rw [decideVenueBody_of_parse hp] at h
  split at h
  · cases h
  · next hn => exact hn
  · next payloads _ =>
    obtain ⟨allowed, -, hd⟩ := map_eq_some_iff.1 h
    cases allowed <;> cases hd

theorem decision_eq_allow
    (h : (decideVenueBody js at_ parse (some text) evaluate).decision = some (.allow payloads)) :
    parseHyperliquidExchangeOrders js at_ parse body = .ok (some payloads) ∧
      evaluate payloads = some true := by
  rw [decideVenueBody_of_parse hp] at h
  split at h
  · cases h
  · cases h
  · next payloads' hpy =>
    obtain ⟨allowed, he, hd⟩ := map_eq_some_iff.1 h
    cases allowed
    · cases hd
    · cases hd
      exact ⟨hpy, he⟩

theorem asked_eq_some_iff :
    (decideVenueBody js at_ parse (some text) evaluate).asked = some payloads ↔
      parseHyperliquidExchangeOrders js at_ parse body = .ok (some payloads) := by
  rw [decideVenueBody_of_parse hp]
  split
  · next ht => simp [ht]
  · next hn => simp [hn]
  · next payloads' hpy => simp [hpy]

end

/-- Where every entry of `modifies` has terms, a `modify` is parsed. -/
theorem exists_parseModify {modifies : List Json}
    (at_ : VenueEndpoint) (attribution : HlAttribution) (actionType : String)
    (hm : action.lookup "modifies" = some (.arr modifies))
    (hte : ∀ entry ∈ modifies, (entry.get? "order").bind (legTerms js) ≠ none) :
    ∃ payloads, parseModify js at_ attribution actionType action = .ok payloads := by
  have hle : modifyLegs action = modifies.map (·.get? "order") := by
    simp only [modifyLegs, hm]
  obtain ⟨wires, hw⟩ : ∃ wires, (modifies.map (·.get? "order")).mapM (orderWireFrom js) =
      .ok wires := by
    refine exists_mapM_eq_ok fun leg hl => ?_
    obtain ⟨entry, he, rfl⟩ := List.mem_map.1 hl
    have ht := hte entry he
    rw [bind_legTerms] at ht
    cases hwr : orderWireFrom js (entry.get? "order") with
    | error e => simp [hwr, Except.toOption] at ht
    | ok wire => exact ⟨wire, rfl⟩
  unfold parseModify parseLegs
  rw [hle, hw, ok_bind]
  dsimp only
  split <;> exact ⟨_, rfl⟩

theorem not_guarded_of_passthrough
    (h : parseHyperliquidExchangeOrders js at_ parse body = .ok none) : ¬ Guarded body := by
  rintro ⟨root, action, actionType, ha, hg⟩
  rw [parseHyperliquidExchangeOrders_of_action ha] at h
  exact hg (benign_of_parseAction h)

/-- A gate that holds has seen the order of a `modify`. -/
theorem modifiesAgree_of_gatesBody (hpa : parse text = some body)
    (hg : GatesBody js at_ parse text body evaluate) : ModifiesAgree js body := by
  intro root action hac o ms ho hm
  by_cases ht : ∀ entry ∈ ms, (entry.get? "order").bind (legTerms js) ≠ none
  · obtain ⟨payloads, hp⟩ := exists_parseModify at_ (attributionOf root action)
      "modify" hm ht
    have ha : (decideVenueBody js at_ parse (some text) evaluate).asked = some payloads := by
      rw [asked_eq_some_iff hpa, parseHyperliquidExchangeOrders_of_action hac]
      exact map_eq_ok.2 ⟨payloads, hp, rfl⟩
    have hc := hg.legs root action "modify" payloads hac ha o
      (by simp [venueLegs, ho])
    exact (covered_of_modify_iff hp ho).1 hc ms hm
  · obtain ⟨entry, he, hn⟩ : ∃ entry ∈ ms,
        (entry.get? "order").bind (legTerms js) = none := by simpa using ht
    exact .inr ⟨entry, he, .inl hn⟩

/-- Where a `modify` agrees with its `modifies`, every leg of the venue is shown. -/
theorem covered_of_modifiesAgree {leg : Json} (hag : ModifiesAgree js body)
    (ha : actionOf body = some (root, action, actionType))
    (hpy : parseAction js at_ (attributionOf root action) actionType action = .ok (some payloads))
    (hl : leg ∈ venueLegs actionType action) : Covered js payloads leg := by
  unfold venueLegs at hl
  split at hl
  · next ho =>
    subst ho
    obtain ⟨payloads', hp, hs⟩ := map_eq_ok.1 hpy
    cases hs
    exact covered_of_order hp hl
  · split at hl
    · next hm =>
      subst hm
      obtain ⟨payloads', hp, hs⟩ := map_eq_ok.1 hpy
      cases hs
      have ho : action.lookup "order" = some leg := by simpa using hl
      exact (covered_of_modify_iff hp ho).2 (hag root action ha leg · ho)
    · split at hl
      · next hb =>
        subst hb
        obtain ⟨payloads', hp, hs⟩ := map_eq_ok.1 hpy
        cases hs
        exact covered_of_batchModify hp hl
      · cases hl

/-- The gate holds for a body exactly when a `modify` with an array `modifies` agrees with
it: the venue executes `order`, and the policies are asked about `modifies`. -/
theorem gatesBody_iff (hparse : parse text = some body) :
    GatesBody js at_ parse text body evaluate ↔ ModifiesAgree js body := by
  constructor
  · exact modifiesAgree_of_gatesBody hparse
  · intro hag
    refine ⟨fun h => not_guarded_of_passthrough (decision_eq_passthrough hparse h), ?_, ?_⟩
    · intro payloads h
      obtain ⟨hp, he⟩ := decision_eq_allow hparse h
      exact ⟨(asked_eq_some_iff hparse).2 hp, parseHyperliquidExchangeOrders_ne_nil hp, he⟩
    · intro root action actionType payloads hac ha leg hl
      rw [asked_eq_some_iff hparse, parseHyperliquidExchangeOrders_of_action hac] at ha
      exact covered_of_modifiesAgree hag hac ha hl

end Gate

/-! A `modify` that opens a large short behind a small resting order. -/

section Sample

def jsPlain : JsNumbers := ⟨fun _ => "0", fun _ => .ok (.int 0)⟩

def hyperliquid : VenueEndpoint :=
  ⟨"hyperliquid", "https://api.hyperliquid.xyz/exchange", "app.hyperliquid.xyz"⟩

def orderLeg (isBuy : Bool) (size : String) : Json :=
  .obj [("a", .int 0), ("b", .bool isBuy), ("p", .str "60000"), ("s", .str size)]

def orderText (isBuy : Bool) (size : String) : String :=
  "\x7b\"a\":0,\"b\":" ++ toString isBuy ++ ",\"p\":\"60000\",\"s\":\"" ++ size ++ "\"\x7d"

def modifyBody (order entry : Json) : Json :=
  .obj [("action", .obj [("type", .str "modify"), ("oid", .int 1), ("order", order),
    ("modifies", .arr [.obj [("order", entry)]])])]

def modifyText (order entry : String) : String :=
  "\x7b\"action\":\x7b\"type\":\"modify\",\"oid\":1,\"order\":" ++ order ++
    ",\"modifies\":[\x7b\"order\":" ++ entry ++ "\x7d]\x7d\x7d"

/-- `JSON.parse` at the text of one value. -/
def parsesOne (text : String) (body : Json) (t : String) : Option Json :=
  if t = text then some body else none

theorem gatesBody_iff_modify :
    let text := modifyText (orderText true "1") (orderText true "1")
    let body := modifyBody (orderLeg true "1") (orderLeg true "1")
    GatesBody jsPlain hyperliquid (parsesOne text body) text body fun _ => some true := by
  refine (gatesBody_iff (if_pos rfl)).2 ?_
  intro root action ha order modifies ho hm
  cases ha
  cases ho
  cases hm
  exact .inr ⟨_, mem_singleton_self _, .inr rfl⟩

/-- The venue executes a short of 1000, and the policies see a long of 1. -/
theorem modify_hides_order :
    let text := modifyText (orderText false "1000") (orderText true "1")
    let body := modifyBody (orderLeg false "1000") (orderLeg true "1")
    ¬ GatesBody jsPlain hyperliquid (parsesOne text body) text body fun _ => some true := by
  intro text body hg
  rcases modifiesAgree_of_gatesBody (if_pos rfl) hg _ _ rfl _ _ rfl rfl with hn | ⟨entry, he, ht⟩
  · cases hn
  · cases mem_singleton.1 he
    revert ht
    decide

end Sample

end Dambi.Extension
