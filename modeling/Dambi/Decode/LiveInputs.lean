import Dambi.Decode.Template

/-!
# Live inputs

The third stage of `action_builder.rs`: the fields of an action that the host
fills in later get a source, a default value and the time of the submission.
-/

namespace Dambi

open Fallible

/-! ## Where live inputs stand -/

inductive LiveInputLayout where
  | nested
  | inline
  | unsupported
deriving DecidableEq, Repr

/-- The actions of a domain whose live inputs are an object of their own. -/
def nestedLiveActions : List (String × List String) :=
  [("amm", ["swap", "add_liquidity", "remove_liquidity", "collect_fees", "sign_intent_order"]),
    ("airdrop", ["claim", "delegate"]),
    ("lending", ["supply", "withdraw", "borrow", "repay", "swap_rate_mode", "set_e_mode",
      "enable_collateral", "disable_collateral", "liquidate"]),
    ("launchpad", ["commit", "claim_allocation", "claim_vested", "refund", "withdraw_commit"]),
    ("perp", ["open_position", "close_position", "increase_position", "decrease_position",
      "adjust_margin", "change_leverage", "change_margin_mode", "place_order", "claim_funding"]),
    ("liquid_staking", ["wrap", "unwrap", "transfer_shares"]),
    ("yield", ["pt_swap", "yt_swap", "add_market_liquidity", "remove_market_liquidity"]),
    ("governance", ["delegate"])]

/-- The actions of `token` that carry a Permit2 nonce. -/
def permit2Actions : List String :=
  ["permit2_sign_allowance", "permit2_sign_transfer", "permit2_transfer_from"]

def liveInputLayout : Option String → Option String → LiveInputLayout
  | some domain, some action =>
    if domain = "token" ∧ (action = "erc20_permit" ∨ action ∈ permit2Actions) then .inline
    else if action ∈ (nestedLiveActions.lookup domain).getD [] then .nested
    else .unsupported
  | _, _ => .unsupported

/-! ## Default values -/

def zeroText : Json := .str "0"

def zeroAddress : Json := .str "0x0000000000000000000000000000000000000000"

def lendingReserveState : Json :=
  .obj [("is_frozen", .bool false), ("is_paused", .bool false), ("liquidation_bonus_bp", .int 0),
    ("liquidation_threshold_bp", .int 0), ("ltv_bp", .int 0), ("reserve_factor_bp", .int 0),
    ("total_borrow", zeroText), ("total_supply", zeroText), ("utilization_bp", .int 0)]

def lendingUserState : Json :=
  .obj [("available_borrow_usd", zeroText), ("health_factor", zeroText),
    ("total_collat_usd", zeroText), ("total_debt_usd", zeroText)]

def lendingEmodeConfig : Json :=
  .obj [("assets_in_category", .arr []), ("liquidation_bonus_bp", .int 0),
    ("liquidation_threshold_bp", .int 0), ("ltv_bp", .int 0)]

def launchpadSaleState : Json :=
  .obj [("is_active", .bool false), ("sale_window", .arr [.int 0, .int 0]),
    ("total_committed", zeroText)]

def poolState : Json :=
  .obj [("fee_bp", .int 0), ("kind", .str "xy_constant"), ("reserve_in", zeroText),
    ("reserve_out", zeroText)]

/-- A `TokenRef` of no particular token. -/
def anyToken : Json :=
  .obj [("key", .obj [("address", zeroAddress), ("chain", .str "eip155:1"),
    ("standard", .str "erc20")])]

def marketTokens : List (String × Json) :=
  [("sy", zeroAddress), ("pt", zeroAddress), ("yt", zeroAddress), ("maturity", zeroText)]

def liveDefaults : List ((String × String) × List (String × Json)) :=
  [(("amm", "swap"), [("route", .obj [("paths", .arr [])]), ("expected_amount_out", zeroText),
      ("price_impact_bp", .int 0), ("gas_estimate", zeroText)]),
    (("amm", "add_liquidity"), [("pool_state", poolState), ("current_price", zeroText)]),
    (("amm", "remove_liquidity"), [("pool_state", poolState), ("fees_owed", .arr [])]),
    (("amm", "collect_fees"), [("fees_owed", .arr [])]),
    (("amm", "sign_intent_order"), [("expected_fill_price", zeroText),
      ("competing_orders", .int 0)]),
    (("airdrop", "claim"), [("is_still_claimable", .bool false), ("actual_amount", zeroText),
      ("claim_token", anyToken)]),
    (("airdrop", "delegate"), [("voting_power", zeroText)]),
    (("token", "erc20_permit"), [("nonce", zeroText)]),
    (("token", "permit2_approve"), [("nonce", zeroText)]),
    (("token", "permit2_sign_allowance"), [("nonce", .arr [zeroText, .int 0])]),
    (("token", "permit2_sign_transfer"), [("nonce", .arr [zeroText, .int 0])]),
    (("token", "permit2_transfer_from"), [("nonce", .arr [zeroText, .int 0])]),
    (("lending", "supply"), [("reserve_state", lendingReserveState), ("supply_apy", zeroText),
      ("a_token_price_usd", zeroText), ("eligible_as_collat", .bool false),
      ("user_state_before", lendingUserState)]),
    (("lending", "borrow"), [("reserve_state", lendingReserveState),
      ("user_state_before", lendingUserState), ("asset_price_usd", zeroText),
      ("current_borrow_rate", zeroText), ("available_liquidity", zeroText)]),
    (("lending", "withdraw"), [("reserve_state", lendingReserveState),
      ("available_to_withdraw", zeroText), ("user_state_before", lendingUserState)]),
    (("lending", "repay"), [("reserve_state", lendingReserveState), ("current_debt", zeroText),
      ("user_state_before", lendingUserState)]),
    (("lending", "liquidate"), [("victim_state", lendingUserState), ("liquidation_bonus", .int 0),
      ("debt_asset_price", zeroText), ("collat_asset_price", zeroText)]),
    (("lending", "set_e_mode"), [("category_config", lendingEmodeConfig),
      ("user_state_before", lendingUserState)]),
    (("lending", "swap_rate_mode"), [("current_debts", .arr [zeroText, zeroText]),
      ("rates", .arr [zeroText, zeroText])]),
    (("lending", "enable_collateral"), [("reserve_state", lendingReserveState),
      ("user_state_before", lendingUserState)]),
    (("lending", "disable_collateral"), [("reserve_state", lendingReserveState),
      ("user_state_before", lendingUserState)]),
    (("liquid_staking", "wrap"), [("expected_wsteth", zeroText)]),
    (("liquid_staking", "unwrap"), [("expected_steth", zeroText)]),
    (("liquid_staking", "transfer_shares"), [("pooled_eth", zeroText)]),
    (("yield", "pt_swap"), marketTokens),
    (("yield", "yt_swap"), marketTokens),
    (("yield", "add_market_liquidity"), marketTokens),
    (("yield", "remove_market_liquidity"), marketTokens),
    (("launchpad", "commit"), [("sale_state", launchpadSaleState), ("user_cap", zeroText),
      ("user_committed", zeroText)]),
    (("launchpad", "claim_allocation"), [("allocated", .arr [anyToken, zeroText]),
      ("refund_due", zeroText), ("is_claimable", .bool false)])]

def liveInputDefault (domain action : Option String) (field : String) : Json :=
  ((domain.bind fun domain => action.bind fun action =>
    (liveDefaults.lookup (domain, action)).bind (·.lookup field))).getD .null

/-! ## Wrapping a field -/

section Wrap

variable (kit : TemplateKit) (ctx : MapContext)

def u256FromJson : Json → Option U256
  | .str s => (kit.u256FromDecimal s).toOption
  | .int n => (kit.u256FromDecimal (kit.jsonText (.int n))).toOption
  | .float bits => (kit.u256FromDecimal (kit.jsonText (.float bits))).toOption
  | _ => none

def permit2NonceTuple (value : Json) : Option Json :=
  (u256FromJson kit value).map fun nonce =>
    .arr [.str (toString (nonce.toNat / 256)), .int (nonce.toNat % 256)]

variable (domain action : Option String)

def liveInputDefaultWithOverride (field : String) : Option Json → Json
  | none => liveInputDefault domain action field
  | some value =>
    if domain = some "token" ∧ (action.any (· ∈ permit2Actions)) ∧ field = "nonce" then
      (permit2NonceTuple kit value).getD (liveInputDefault domain action field)
    else value

/-- The fields of `LiveField`. -/
def wrapLiveField (field : String) (source : Json) (override : Option Json) : Json :=
  let out := [("value", liveInputDefaultWithOverride kit domain action field override)]
  let out := match source with
    | .obj fields =>
      let out := (fields.lookup "source").elim out fun value =>
        Json.insertField "source" value out
      (fields.lookup "ttl_s").elim out fun value => Json.insertField "ttl" value out
    | bare => Json.insertField "source" bare out
  .obj (Json.insertField "synced_at" (.int ctx.submittedAt) out)

def nestedLiveFields (fields : List (String × Json)) : List (String × Json) :=
  fields.foldl (fun out (name, source) =>
    let route := if domain = some "amm" ∧ action = some "swap" ∧ name = "route" then
      source.get? "value" else none
    Json.insertField name (wrapLiveField kit ctx domain action name source route) out) []

def inlineLiveFields (flat fields : List (String × Json)) : List (String × Json) :=
  fields.foldl (fun flat (name, source) => Json.insertField name
    (wrapLiveField kit ctx domain action name source (flat.lookup name)) flat) flat

end Wrap

/-! ## Injection -/

def tagOf (key : String) (flat : List (String × Json)) : Option String :=
  (flat.lookup key).bind Json.asStr

section Inject

variable (kit : TemplateKit) (ctx : MapContext)

def injectLiveFields (layout : LiveInputLayout) (flat fields : List (String × Json)) :
    List (String × Json) :=
  let domain := tagOf "domain" flat
  let action := tagOf "action" flat
  match layout with
  | .nested =>
    Json.insertField "live_inputs" (.obj (nestedLiveFields kit ctx domain action fields)) flat
  | .inline => inlineLiveFields kit ctx domain action flat fields
  | .unsupported => flat

/-- The live inputs of a body; those of an action without any are not even looked at. -/
def injectLiveInputs (flat : List (String × Json)) (template : Option Json) :
    Except BuildError (List (String × Json)) :=
  match liveInputLayout (tagOf "domain" flat) (tagOf "action" flat), template with
  | .unsupported, _ => .ok flat
  | _, none => .ok flat
  | layout, some template => do
    let live ← substitute kit ctx template
    .ok (live.asObject.elim flat (injectLiveFields kit ctx layout flat))

variable {kit ctx}

theorem tagOf_insertField {key key' : String} {value : Json} {flat : List (String × Json)} :
    tagOf key (Json.insertField key' value flat) =
      if key = key' then value.asStr else tagOf key flat := by
  unfold tagOf
  rw [Json.lookup_insertField]
  split <;> rfl

variable {key tag : String}

variable {f : List (String × Json)}

theorem tagOf_inlineLiveFields {d a : Option String} {fs : List (String × Json)}
    (h : tagOf key (inlineLiveFields kit ctx d a f fs) = some tag) :
    tagOf key f = some tag := by
  unfold inlineLiveFields at h
  induction fs generalizing f with
  | nil => exact h
  | cons entry r ih =>
    have hr := ih h
    rw [tagOf_insertField] at hr
    split at hr
    · -- a live field is an object, never a string
      cases hr
    · exact hr

theorem tagOf_injectLiveInputs {t : Option Json} {f' : List (String × Json)}
    (h : injectLiveInputs kit ctx f t = .ok f')
    (ht : tagOf key f' = some tag) : tagOf key f = some tag := by
  unfold injectLiveInputs at h
  split at h
  · cases h
    exact ht
  · cases h
    exact ht
  · obtain ⟨live, -, h⟩ := bind_eq_ok.1 h
    cases h
    cases hf : live.asObject with
    | none => rwa [hf] at ht
    | some fs =>
      rw [hf, Option.elim_some] at ht
      unfold injectLiveFields at ht
      split at ht
      · rw [tagOf_insertField] at ht
        split at ht
        · cases ht
        · exact ht
      · exact tagOf_inlineLiveFields ht
      · exact ht

end Inject

end Dambi
