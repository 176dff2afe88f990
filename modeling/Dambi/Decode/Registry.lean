import Dambi.Decode.TypedData
import Dambi.Lib.Digits
import Dambi.Lib.RoutingTable

/-!
# Installing manifests

`DecoderRegistry::install`: a manifest is read, and every key that its match
declares is led to its id. The manifest is replaced when its id is installed
again, but the keys that only the earlier one declared are left in the tables.
-/

namespace Dambi

open Fallible RoutingTable TypedDataRegistry

/-! ## Match criteria -/

/-- `BundleMatch`. The map of addresses is ascending in its chains. -/
structure BundleMatch where
  chainToAddresses : List (Nat × List String)
  chainIds : List Nat
  to_ : List String
  addressAgnostic : Bool
  selector : String
deriving DecidableEq, Repr

/-- `(chain_id, address)` pairs: the map where it is given, else the product. -/
def BundleMatch.entries (m : BundleMatch) : List (Nat × String) :=
  if m.chainToAddresses.isEmpty then m.chainIds.flatMap fun chain => m.to_.map fun a => (chain, a)
  else m.chainToAddresses.flatMap fun entry => entry.2.map fun a => (entry.1, a)

/-- `BTreeMap::insert`. -/
def insertChain {α : Type} (chain : Nat) (value : α) : List (Nat × α) → List (Nat × α)
  | [] => [(chain, value)]
  | (c, v) :: rest =>
    if chain < c then (chain, value) :: (c, v) :: rest
    else if chain = c then (chain, value) :: rest
    else (c, v) :: insertChain chain value rest

/-- The numeral of a 64-bit number without leading zeros, which is what a JSON map key of that
type is. -/
def canonicalU64 (text : String) : Option Nat :=
  let n := Digits.value 10 text.toList
  if toString n = text ∧ n < 2 ^ 64 then some n else none

/-- `Vec<T>`. -/
def readVec {α : Type} (read : Json → Option α) (value : Json) : Option (List α) :=
  value.asArray.bind (List.mapM read)

/-- `BTreeMap<u64, Vec<String>>`. -/
def readChains (value : Json) : Option (List (Nat × List String)) :=
  value.asObject.bind fun fields => fields.foldlM (fun chains field => do
    let chain ← canonicalU64 field.1
    let addresses ← readVec Json.asStr field.2
    return insertChain chain addresses chains) []

/-- The derived `Deserialize` of `BundleMatch`: absent fields have their defaults, but for the
selector; other fields are ignored. A sequence is read by position. -/
def BundleMatch.read : Json → Option BundleMatch
  | .obj fields => do
    let chainToAddresses ← (fields.lookup "chain_to_addresses").elim (some []) readChains
    let chainIds ← (fields.lookup "chain_ids").elim (some []) (readVec Json.asU64)
    let to_ ← (fields.lookup "to").elim (some []) (readVec Json.asStr)
    let addressAgnostic ← (fields.lookup "address_agnostic").elim (some false) Json.asBool
    let selector ← (fields.lookup "selector").bind Json.asStr
    return { chainToAddresses, chainIds, to_, addressAgnostic, selector }
  | .arr [chainToAddresses, chainIds, to_, addressAgnostic, selector] => do
    let chainToAddresses ← readChains chainToAddresses
    let chainIds ← readVec Json.asU64 chainIds
    let to_ ← readVec Json.asStr to_
    let addressAgnostic ← addressAgnostic.asBool
    let selector ← selector.asStr
    return { chainToAddresses, chainIds, to_, addressAgnostic, selector }
  | _ => none

/-! ## Manifests -/

/-- `serde_json`, by the texts of its errors. -/
structure ManifestText where
  fromStr : String → Except String Json
  matchError : Json → String

def agnosticSelectorAllowlist : List String := ["0xa22cb465"]

def typedDataRoute (matchValue : Json) : Option (String × String × Option String) := do
  let fields ← (matchValue.get? "typed_data").bind Json.asObject
  let contract ← (fields.lookup "verifying_contract").bind Json.asStr
  let primaryType ← (fields.lookup "primary_type").bind Json.asStr
  return (Text.toAsciiLowercase contract, primaryType,
    (fields.lookup "witness_type").bind Json.asStr)

structure Manifest where
  id : String
  matches_ : BundleMatch
  typedRoute : Option (String × String × Option String)
deriving DecidableEq, Repr

namespace Manifest

variable (m : Manifest)

def selector : String := Text.toAsciiLowercase m.matches_.selector

/-- The keys of calls that the manifest declares. -/
def bridgeKeys : List BridgeKey :=
  m.matches_.entries.map fun entry => ⟨entry.1, Text.toAsciiLowercase entry.2, m.selector⟩

/-- The keys of typed data that the manifest declares, one for each of its entries. -/
def typedDataKeys : List TypedDataBridgeKey :=
  m.typedRoute.elim [] fun route => m.matches_.entries.map fun entry =>
    ⟨entry.1, route.1, route.2.1, route.2.2⟩

/-- The keys of calls of any address that the manifest declares. -/
def selectorKeys : List SelectorKey :=
  if m.matches_.addressAgnostic then m.matches_.chainIds.map fun chain => ⟨chain, m.selector⟩
  else []

end Manifest

section Installing

variable (text : ManifestText)

/-- The checks of an installation on a manifest that has been parsed. -/
def readManifest (bundleValue : Json) : Except EngineError Manifest := do
  let id ← (((bundleValue.get? "id").bind Json.asStr).elim
    (.error ⟨"missing_id", "bundle.id missing or not a string"⟩) .ok : Except EngineError String)
  let matchValue ← ((bundleValue.get? "match").elim
    (.error ⟨"invalid_match", "bundle.match missing"⟩) .ok : Except EngineError Json)
  let matches_ ← ((BundleMatch.read matchValue).elim
    (.error ⟨"invalid_match", s!"bundle.match parse failed: {text.matchError matchValue}"⟩) .ok :
      Except EngineError BundleMatch)
  let selector := Text.toAsciiLowercase matches_.selector
  require (matches_.addressAgnostic = true → selector ∈ agnosticSelectorAllowlist)
    ⟨"agnostic_selector_not_allowed",
      s!"address-agnostic install refused for selector {selector}: only " ++
        s!"{agnosticSelectorAllowlist.map String.quote} may install as any-contract decoders"⟩
  return { id, matches_, typedRoute := typedDataRoute matchValue }

/-- `DecoderRegistry::default`. -/
def TypedDataRegistry.empty : TypedDataRegistry where
  bridge _ := none
  selectorBridge _ := none
  bundles _ := none
  typedDataBridge _ := none

variable (registry : TypedDataRegistry)

def TypedDataRegistry.insertManifest (m : Manifest) (bundleValue : Json) : TypedDataRegistry where
  bridge := assign registry.bridge m.bridgeKeys m.id
  typedDataBridge := assign registry.typedDataBridge m.typedDataKeys m.id
  selectorBridge := assign registry.selectorBridge m.selectorKeys m.id
  bundles := Function.update registry.bundles m.id (some bundleValue)

/-- The content and the manifest of a text, before anything is installed. -/
def parseManifest (bundleJson : String) : Except EngineError (Json × Manifest) := do
  checkInputSize bundleJson "declarative_install_v3_json"
  let bundleValue ← (text.fromStr bundleJson).mapError fun error =>
    ⟨"invalid_bundle_json", s!"invalid bundle json: {error}"⟩
  return (bundleValue, ← readManifest text bundleValue)

def TypedDataRegistry.install (bundleJson : String) :
    Except EngineError (TypedDataRegistry × String) := do
  let parsed ← parseManifest text bundleJson
  return (registry.insertManifest parsed.2 parsed.1, parsed.2.id)

/-- A registry after a sequence of installations. One that fails leaves it as it is. -/
def installAll (bundles : List String) : TypedDataRegistry :=
  bundles.foldl (fun r bundle => (r.install text bundle).toOption.elim r Prod.fst) registry

end Installing

/-! ## Consistency -/

section Consistency

variable {text : ManifestText} {r : TypedDataRegistry} {m : Manifest} {bundleValue : Json}

def TypedDataRegistry.Stores (text : ManifestText) (r : TypedDataRegistry) (id : String)
    (p : Manifest → Prop) : Prop :=
  ∃ value m, r.bundles id = some value ∧ readManifest text value = .ok m ∧ p m

/-- Every key of a table leads to a stored manifest that declares it. -/
structure TypedDataRegistry.Consistent (text : ManifestText) (r : TypedDataRegistry) : Prop where
  bridge : ∀ key id, r.bridge key = some id → r.Stores text id (key ∈ ·.bridgeKeys)
  typedDataBridge : ∀ key id, r.typedDataBridge key = some id →
    r.Stores text id (key ∈ ·.typedDataKeys)
  selectorBridge : ∀ key id, r.selectorBridge key = some id →
    r.Stores text id (key ∈ ·.selectorKeys)

/-- The manifest declares every key that its id already has. -/
structure TypedDataRegistry.CoveredBy (r : TypedDataRegistry) (m : Manifest) : Prop where
  bridge : ∀ key, r.bridge key = some m.id → key ∈ m.bridgeKeys
  typedDataBridge : ∀ key, r.typedDataBridge key = some m.id → key ∈ m.typedDataKeys
  selectorBridge : ∀ key, r.selectorBridge key = some m.id → key ∈ m.selectorKeys

theorem stores_insertManifest_self (hm : readManifest text bundleValue = .ok m)
    (p : Manifest → Prop) : (r.insertManifest m bundleValue).Stores text m.id p ↔ p m := by
  constructor
  · rintro ⟨value, m', hv, hm', hp⟩
    cases (Function.update_self ..).symm.trans hv
    cases hm.symm.trans hm'
    exact hp
  · exact fun hp => ⟨bundleValue, m, Function.update_self .., hm, hp⟩

theorem table_consistent_iff {K : Type} [DecidableEq K] {t : K → Option String}
    {ko : Manifest → List K} (ht : ∀ key id, t key = some id → r.Stores text id (key ∈ ko ·))
    (hm : readManifest text bundleValue = .ok m) :
    (∀ key id, assign t (ko m) m.id key = some id →
        (r.insertManifest m bundleValue).Stores text id (key ∈ ko ·)) ↔
      ∀ key, t key = some m.id → key ∈ ko m :=
  assign_declared_iff ht (fun _ => stores_insertManifest_self hm _)
    (fun _ _ hn => by
      simp [TypedDataRegistry.Stores, insertManifest, Function.update_of_ne hn])

/-- An installation keeps a registry consistent exactly if the manifest declares every key that
its id already has. -/
theorem insertManifest_consistent_iff (hr : r.Consistent text)
    (hm : readManifest text bundleValue = .ok m) :
    (r.insertManifest m bundleValue).Consistent text ↔ r.CoveredBy m := by
  constructor
  · intro h
    exact ⟨(table_consistent_iff hr.bridge hm).1 h.bridge,
      (table_consistent_iff hr.typedDataBridge hm).1 h.typedDataBridge,
      (table_consistent_iff hr.selectorBridge hm).1 h.selectorBridge⟩
  · intro h
    exact ⟨(table_consistent_iff hr.bridge hm).2 h.bridge,
      (table_consistent_iff hr.typedDataBridge hm).2 h.typedDataBridge,
      (table_consistent_iff hr.selectorBridge hm).2 h.selectorBridge⟩

theorem empty_consistent : TypedDataRegistry.empty.Consistent text where
  bridge _ _ h := absurd h (Option.some_ne_none _).symm
  typedDataBridge _ _ h := absurd h (Option.some_ne_none _).symm
  selectorBridge _ _ h := absurd h (Option.some_ne_none _).symm

theorem readManifest_of_parseManifest {bj : String}
    (h : parseManifest text bj = .ok (bundleValue, m)) :
    readManifest text bundleValue = .ok m := by
  simp only [parseManifest, bind_eq_ok] at h
  obtain ⟨_, -, value, -, m', hm, h⟩ := h
  cases h
  exact hm

theorem installAll_append (re : TypedDataRegistry) (bs : List String) (b : String) :
    installAll text re (bs ++ [b]) =
      ((installAll text re bs).install text b).toOption.elim
        (installAll text re bs) Prod.fst := by
  rw [installAll, List.foldl_append]
  rfl

/-- A sequence of installations keeps the registry consistent all along exactly if every manifest
that is installed declares the keys that its id already has. -/
theorem registry_consistent_iff (text : ManifestText) (bundles : List String) :
    (∀ before after, bundles = before ++ after → (installAll text .empty before).Consistent text) ↔
    ∀ before bundle after, bundles = before ++ bundle :: after → ∀ value m, parseManifest text
    bundle = .ok (value, m) → (installAll text .empty before).CoveredBy m := by
  have hs (before : List String) (bundle : String) (value : Json) (m : Manifest)
      (h : parseManifest text bundle = .ok (value, m)) :
      installAll text .empty (before ++ [bundle]) =
        (installAll text .empty before).insertManifest m value := by
    rw [installAll_append, install, h]
    rfl
  constructor
  · intro ha before bundle after hb value m hm
    have hbe := ha before (bundle :: after) hb
    have haf := ha (before ++ [bundle]) after (by rw [hb, List.append_assoc]; rfl)
    rw [hs before bundle value m hm] at haf
    exact (insertManifest_consistent_iff hbe (readManifest_of_parseManifest hm)).1 haf
  · intro hc before
    induction before using List.reverseRecOn with
    | nil => exact fun _ _ => empty_consistent
    | append_singleton before bundle ih =>
      intro after hb
      rw [List.append_assoc] at hb
      have hbe := ih ([bundle] ++ after) hb
      cases hm : parseManifest text bundle with
      | error e =>
        rw [installAll_append, install, hm]
        exact hbe
      | ok parsed =>
        rw [hs before bundle parsed.1 parsed.2 hm]
        exact (insertManifest_consistent_iff hbe (readManifest_of_parseManifest hm)).2
          (hc before bundle after hb parsed.1 parsed.2 hm)

end Consistency

/-! ## A manifest that is installed twice -/

def transferManifest (address : String) : Json :=
  .obj [("id", .str "token/transfer@1.0.0"),
    ("match", .obj [("chain_to_addresses", .obj [("1", .arr [.str address])]),
      ("selector", .str "0xa9059cbb")])]

/-- A text is the address of its manifest. -/
def transferText : ManifestText where
  fromStr bundleJson := .ok (transferManifest bundleJson)
  matchError _ := ""

/-- The second installation takes the first address out of the manifest and leaves it in the
table. -/
theorem stale_key_after_reinstall :
    ¬ (installAll transferText .empty ["0xaa", "0xbb"]).Consistent transferText := by
  intro h
  obtain ⟨value, m, hv, hm, hme⟩ := h.bridge ⟨1, "0xaa", "0xa9059cbb"⟩ "token/transfer@1.0.0"
    (by decide +kernel)
  have hs : (installAll transferText .empty ["0xaa", "0xbb"]).bundles "token/transfer@1.0.0" =
      some (transferManifest "0xbb") := rfl
  cases hs.symm.trans hv
  have hk : (readManifest transferText (transferManifest "0xbb")).map (·.bridgeKeys) =
      .ok [⟨1, "0xbb", "0xa9059cbb"⟩] := by decide +kernel
  rw [hm] at hk
  rw [show m.bridgeKeys = _ from Except.ok.inj hk] at hme
  exact absurd hme (by decide +kernel)

end Dambi
