import Mathlib.Data.List.ReduceOption
import Dambi.Runtime.Isolation

/-!
# The action pre-filter

`policy-store/resolve.ts`: before the engine sees a decoded action, the service worker
drops the bundles whose trigger cannot hold anywhere in it. It reads domain, tag and
venue from the JSON form of the action, and the engine reads them from the typed one:
`collectActionMetas_toJson` states what the two have in common. They part on the two
domains whose venue name is not a `venue` field.
-/

namespace Dambi

/-! ## The trigger of a manifest -/

def TriggerField.key : TriggerField → String
  | .actionDomain => "action.domain"
  | .actionTag => "action.tag"
  | .actionVenue => "action.venue"
  | .txChainId => "tx.chain_id"
  | .txFrom => "tx.from"
  | .txTo => "tx.to"

/-- The trigger fields in the order of the `BTreeMap`. -/
def TriggerField.all : List TriggerField :=
  [.actionDomain, .actionTag, .actionVenue, .txChainId, .txFrom, .txTo]

theorem TriggerField.mem_all (field : TriggerField) : field ∈ TriggerField.all := by
  cases field <;> decide

def Json.asStrings (j : Json) : Option (List String) := j.asArray.bind (·.mapM Json.asStr)

/-- How serde reads a `TriggerConstraint`: an object with one key, the operator. -/
def TriggerConstraint.ofJson : Json → Option TriggerConstraint
  | .obj [(operator, value)] =>
    if operator = "eq" then value.asStr.map .eq
    else if operator = "ne" then value.asStr.map .ne
    else if operator = "in" then value.asStrings.map .isIn
    else if operator = "nin" then value.asStrings.map .nin
    else none
  | _ => none

/-- One entry of `where`, if the manifest has it. -/
def Trigger.readEntry (entries : List (String × Json)) (field : TriggerField) :
    Option (Option (TriggerField × TriggerConstraint)) :=
  match entries.lookup field.key with
  | none => some none
  | some value => (TriggerConstraint.ofJson value).map fun constraint => some (field, constraint)

/-- How serde reads `where`; a key that is no trigger field is an error. -/
def Trigger.readWhere : Json → Option (List (TriggerField × TriggerConstraint))
  | .obj entries =>
    if entries.all fun entry => TriggerField.all.any (·.key = entry.1) then
      (TriggerField.all.mapM (Trigger.readEntry entries)).map List.reduceOption
    else none
  | _ => none

def TriggerScope.ofJson : Json → Option TriggerScope
  | .str "inner" => some .inner
  | .str "outer" => some .outer
  | .obj [("inner", .null)] => some .inner
  | .obj [("outer", .null)] => some .outer
  | _ => none

/-- A field of a derived struct, which serde reads from an object by name or from an
array by position. -/
def Json.structField (j : Json) (name : String) (position : Nat) : Option Json :=
  match j with
  | .obj fields => fields.lookup name
  | .arr items => items[position]?
  | _ => none

/-- How serde reads a `Trigger`; both fields have a default. -/
def Trigger.ofJson (j : Json) : Option Trigger := do
  let scope ← (j.structField "scope" 0).elim (some .inner) TriggerScope.ofJson
  let where_ ← (j.structField "where" 1).elim (some []) Trigger.readWhere
  some ⟨scope, where_⟩

def readTrigger (manifest : Json) : Option Trigger :=
  (manifest.structField "trigger" 2).elim (some {}) Trigger.ofJson

/-- The values that a constraint allows, for `eq` and `in`. -/
def TriggerConstraint.allowed : TriggerConstraint → Option (List String)
  | .eq want => some [want]
  | .isIn set => some set
  | .ne _ | .nin _ => none

def Trigger.indexed (t : Trigger) : Trigger :=
  { t with where_ := t.where_.filter fun entry =>
      decide (entry.1 ∈ [.actionTag, .actionDomain, .actionVenue]) && entry.2.allowed.isSome }

/-! ## The JSON form of an action -/

namespace DomainAction

variable (a : DomainAction)

/-- The fields of an action beside its two tags. -/
def entries : List (String × Json) := a.fields.asObject.getD []

/-- Whether the venue of a typed action is its `venue` field. For Hyperliquid
`venue_name` is a constant, and for permissions it is the protocol's name. -/
def writesVenue : Bool :=
  match a.domain with
  | .hyperliquidCore | .permission => false
  | _ => true

/-- `venue_name` of the typed action with these fields. -/
def typedVenue : Option String :=
  match a.domain with
  | .hyperliquidCore => some "hyperliquid"
  | .permission => (a.entries.lookup "protocol_name").bind Json.asStr
  | _ => ((a.entries.lookup "venue").bind (·.get? "name")).bind Json.asStr

/-- What the domain enums guarantee of a serialised action: the `venue` field, where the
action has one, is an enum with the tag `name`, and the venue name follows the type. -/
structure Typed (a : DomainAction) : Prop where
  venueName : a.venueName = a.typedVenue
  venue : ∀ value, a.entries.lookup "venue" = some value →
    a.writesVenue = true ∧ ∃ fields name, value = .obj fields ∧
      fields.lookup "name" = some (.str name)

end DomainAction

namespace ActionBody

mutual

/-- The JSON form of an `ActionBody`, by its serde attributes. -/
def toJson : ActionBody → Json
  | .domain a =>
    .obj (("domain", .str a.domain.tag) :: ("action", .str a.actionTag) :: a.entries)
  | .multicall actions => .obj [("domain", .str "multicall"), ("actions", .arr (toJsonAll actions))]
  | .unknown target chain calldata value =>
    .obj [("domain", .str "unknown"), ("target", .str ("0x" ++ target.toHex)),
      ("chain", .str chain), ("calldata", .str calldata),
      ("value", .str ("0x" ++ String.ofList (Nat.toDigits 16 value.toNat)))]

def toJsonAll : List ActionBody → List Json
  | [] => []
  | body :: rest => toJson body :: toJsonAll rest

end

/-- Every action of the tree is serialised from its type. -/
def Typed (body : ActionBody) : Prop :=
  ∀ a, ActionBody.domain a ∈ body.preorder → a.Typed

/-- The venue that the JSON form of a position shows. -/
def writtenVenue : ActionBody → Option String
  | .domain a => if a.writesVenue then a.venueName else none
  | _ => none

/-- A position as its JSON form shows it. -/
def writtenView (body : ActionBody) : ActionView :=
  { body.view with venueName := body.writtenVenue }

/-- A position whose venue name is not in its JSON form. -/
def HidesVenue : ActionBody → Prop
  | .domain a => a.writesVenue = false
  | _ => False

end ActionBody

namespace Extension

/-! ## The index of a bundle -/

structure TriggerIndex where
  tags : Option (List String)
  domains : Option (List String)
  venues : Option (List String)
deriving DecidableEq, Repr

/-- `pick` of `extractTrigger`: the values that an `eq` or `in` constraint allows. -/
def pick (where_ : Json) (key : String) : Option (List String) :=
  match where_.get? key with
  | some constraint =>
    match constraint.get? "eq" with
    | some (.str want) => some [want]
    | _ => (constraint.get? "in").bind Json.asStrings
  | none => none

def extractTrigger (manifest : Json) : Option TriggerIndex :=
  match (manifest.get? "trigger").bind (·.get? "where") with
  | some where_ =>
    let tags := pick where_ "action.tag"
    let domains := pick where_ "action.domain"
    let venues := pick where_ "action.venue"
    if tags.isNone ∧ domains.isNone ∧ venues.isNone then none else some ⟨tags, domains, venues⟩
  | none => none

structure ResolvedBundle where
  id : String
  policy : String
  manifest : Json

/-- The index that `resolveBundlesForWallet` stores with a bundle. -/
def ResolvedBundle.trigger (b : ResolvedBundle) : Option TriggerIndex := extractTrigger b.manifest

/-! ## The metas of an action -/

/-- What the pre-filter knows of a field: its value, that it is absent (`null`), or
nothing (`undefined`). -/
inductive Reading where
  | known (value : String)
  | absent
  | unknown
deriving DecidableEq, Repr

def Reading.ofOption : Option String → Reading
  | some value => .known value
  | none => .absent

structure ActionMeta where
  domain : Reading := .unknown
  tag : Reading := .unknown
  venue : Reading := .unknown
deriving DecidableEq, Repr

/-- The venue of a decoded body: a field of unknown shape is unknown, a missing one absent. -/
def venueReading : Option Json → Reading
  | some (.str name) => .known name
  | some (.obj venue) =>
    match venue.lookup "name" with
    | some (.str name) => .known name
    | _ => .unknown
  | some (.arr _) => .unknown
  | _ => .absent

def tagReading : Option Json → Reading
  | some (.str tag) => .known tag
  | _ => .absent

/-- `self` of `collectActionMetas`. -/
def selfMeta (domain : String) (body : List (String × Json)) : ActionMeta :=
  ⟨.known domain, tagReading (body.lookup "action"), venueReading (body.lookup "venue")⟩

/-- A position's own metas: an unknown Hyperliquid action also counts as `unknown`. -/
def positionMetas (self : ActionMeta) : List ActionMeta :=
  if self.domain = .known "hyperliquid_core" ∧ self.tag = .known "hl_unknown" then
    [self, { self with domain := .known "unknown" }]
  else [self]

mutual

def collectActionMetas : Json → List ActionMeta
  | .obj body =>
    match body.lookup "domain" with
    | some (.str domain) =>
      positionMetas (selfMeta domain body) ++
        if domain = "multicall" then childMetas body else []
    | _ => [{}]
  | _ => [{}]

/-- The metas of the first `actions` field, if that is an array. -/
def childMetas : List (String × Json) → List ActionMeta
  | [] => []
  | (key, value) :: rest => if key = "actions" then itemMetas value else childMetas rest

def itemMetas : Json → List ActionMeta
  | .arr items => collectAll items
  | _ => []

def collectAll : List Json → List ActionMeta
  | [] => []
  | item :: rest => collectActionMetas item ++ collectAll rest

end

/-! ## The filter -/

/-- `dimOk` of `filterForAction`. -/
def dimOk : Option (List String) → Reading → Bool
  | none, _ => true
  | some _, .unknown => true
  | some allow, .known value => allow.contains value
  | some _, .absent => false

def TriggerIndex.admits (index : TriggerIndex) (m : ActionMeta) : Bool :=
  dimOk index.tags m.tag && dimOk index.domains m.domain && dimOk index.venues m.venue

/-- The predicate of `filterForAction`. -/
def keeps (metas : List ActionMeta) (b : ResolvedBundle) : Bool :=
  b.trigger.elim true fun index => metas.any index.admits

def filterForAction (bundles : List ResolvedBundle) (metas : List ActionMeta) :
    List ResolvedBundle := bundles.filter (keeps metas)

/-! ## The metas of a typed action -/

open ActionBody List DomainAction Option Trigger Reading

def viewMetas (view : ActionView) : List ActionMeta :=
  positionMetas ⟨.known view.domain, .ofOption view.actionTag, .ofOption view.venueName⟩

theorem selfMeta_typed {a : DomainAction} (h : a.Typed) :
    selfMeta a.domain.tag (("domain", .str a.domain.tag) :: ("action", .str a.actionTag) ::
        a.entries) =
      ⟨.known a.domain.tag, .known a.actionTag, .ofOption (writtenVenue (.domain a))⟩ := by
  have hv : venueReading (a.entries.lookup "venue") =
      .ofOption (writtenVenue (.domain a)) := by
    cases hl : a.entries.lookup "venue" with
    | none =>
      have hn : a.writesVenue = true → a.typedVenue = none := by
        intro hw
        unfold typedVenue
        split
        · next hd => simp [writesVenue, hd] at hw
        · next hd => simp [writesVenue, hd] at hw
        · rw [hl]
          rfl
      simp only [writtenVenue, h.venueName]
      split
      · next hw => rw [hn hw]; rfl
      · rfl
    | some value =>
      obtain ⟨hw, fs, name, rfl, hn⟩ := h.venue value hl
      have ht : a.typedVenue = some name := by
        unfold typedVenue
        split
        · next hd => simp [writesVenue, hd] at hw
        · next hd => simp [writesVenue, hd] at hw
        · simp [hl, Json.get?, hn, Json.asStr]
      simp [writtenVenue, hw, h.venueName, ht, venueReading, hn, ofOption]
  simp [selfMeta, Json.lookup_cons_ite, tagReading, hv]

theorem domain_tag_ne_multicall (d : Domain) : d.tag ≠ "multicall" := by
  cases d <;> decide

mutual

/-- The pre-filter sees every position of an action, as its JSON form shows it. -/
theorem collectActionMetas_toJson : ∀ body : ActionBody, body.Typed →
    collectActionMetas body.toJson = body.preorder.flatMap fun node => viewMetas node.writtenView
  | .domain a, h => by
    have hs := selfMeta_typed (h a (by simp [preorder]))
    simp only [toJson, collectActionMetas, Json.lookup_cons_ite, if_true, hs,
      domain_tag_ne_multicall, if_false, preorder, append_nil, flatMap_cons,
      flatMap_nil]
    rfl
  | .multicall acs, h => by
    have hal := collectAll_toJson acs fun a ha => h a (by simp [preorder, ha])
    simp only [toJson, collectActionMetas, Json.lookup_cons_ite, if_true, childMetas,
      String.reduceEq, if_false, itemMetas, hal, preorder, flatMap_cons]
    rfl
  | .unknown target chain c value, _ => by
    simp only [toJson, collectActionMetas, Json.lookup_cons_ite, if_true, preorder,
      String.reduceEq, if_false, append_nil, flatMap_cons, flatMap_nil]
    rfl

theorem collectAll_toJson : ∀ acs : List ActionBody,
    (∀ a, ActionBody.domain a ∈ preorderAll acs → a.Typed) →
    collectAll (toJsonAll acs) = (preorderAll acs).flatMap fun node => viewMetas node.writtenView
  | [], _ => by simp [collectAll, toJsonAll, preorderAll]
  | body :: r, h => by
    have hb := collectActionMetas_toJson body fun a ha => h a (by simp [preorderAll, ha])
    have hr := collectAll_toJson r fun a ha => h a (by simp [preorderAll, ha])
    simp [toJsonAll, collectAll, hb, hr, preorderAll]

end

/-! ## The index and the trigger -/

variable {where_ : Json} {constraints : List (TriggerField × TriggerConstraint)}
  {constraint : TriggerConstraint} {allow : List String} {t : Trigger} {view : ActionView}

theorem mem_readWhere (h : Trigger.readWhere where_ = some constraints) (field : TriggerField)
    (constraint : TriggerConstraint) :
    (field, constraint) ∈ constraints ↔
      ∃ value, where_.get? field.key = some value ∧
        TriggerConstraint.ofJson value = some constraint := by
  cases where_ with
  | obj entries =>
    simp only [readWhere] at h
    split at h
    · obtain ⟨read, hr, rfl⟩ := map_eq_some_iff.1 h
      rw [reduceOption_mem_iff, Fallible.mem_of_mapM_eq_some hr]
      constructor
      · rintro ⟨field', -, he⟩
        unfold readEntry at he
        split at he
        · cases he
        · next value hl =>
          obtain ⟨constraint', hc, heq⟩ := map_eq_some_iff.1 he
          cases heq
          exact ⟨value, hl, hc⟩
      · rintro ⟨value, hl, hc⟩
        refine ⟨field, field.mem_all, ?_⟩
        have hl' : entries.lookup field.key = some value := hl
        simp [readEntry, hl', hc]
    · cases h
  | _ => cases h

variable {field : TriggerField} {m value : Json} {tx : TxView} {index : TriggerIndex}

theorem exists_constraint (h : Trigger.readWhere where_ = some constraints)
    (hv : where_.get? field.key = some value) :
    ∃ constraint, TriggerConstraint.ofJson value = some constraint := by
  cases where_ with
  | obj entries =>
    simp only [readWhere] at h
    split at h
    · obtain ⟨read, hr, -⟩ := map_eq_some_iff.1 h
      obtain ⟨entry, he⟩ := Fallible.exists_of_mapM_eq_some hr field.mem_all
      have hl : entries.lookup field.key = some value := hv
      simp only [readEntry, hl] at he
      obtain ⟨constraint, hc, -⟩ := map_eq_some_iff.1 he
      exact ⟨constraint, hc⟩
    · cases h
  | _ => cases h

/-- The constraint that serde reads is the one that the index reads. -/
theorem allowed_ofJson (h : TriggerConstraint.ofJson value = some constraint) : constraint.allowed =
      match value.get? "eq" with
      | some (.str want) => some [want]
      | _ => (value.get? "in").bind Json.asStrings := by
  unfold TriggerConstraint.ofJson at h
  split at h
  · next operator a =>
    simp only [Json.get?, Json.lookup_cons_ite]
    split_ifs at h with heq hne hin hnin
    · obtain ⟨want, hw, rfl⟩ := map_eq_some_iff.1 h
      obtain rfl : a = .str want := by
        unfold Json.asStr at hw
        split at hw <;> simp_all
      simp [heq, TriggerConstraint.allowed]
    · obtain ⟨want, -, rfl⟩ := map_eq_some_iff.1 h
      simp [hne, TriggerConstraint.allowed]
    · obtain ⟨set, hs, rfl⟩ := map_eq_some_iff.1 h
      simp [hin, hs, TriggerConstraint.allowed]
    · obtain ⟨set, -, rfl⟩ := map_eq_some_iff.1 h
      simp [hnin, TriggerConstraint.allowed]
  · cases h

/-- A dimension of the index is the `eq` or `in` constraint of its field. -/
theorem pick_eq_some_iff (h : Trigger.readWhere where_ = some constraints) (field : TriggerField)
    (allow : List String) :
    pick where_ field.key = some allow ↔
      ∃ constraint, (field, constraint) ∈ constraints ∧ constraint.allowed = some allow := by
  simp only [mem_readWhere h]
  unfold pick
  cases hv : where_.get? field.key with
  | none => simp
  | some value =>
    obtain ⟨constraint, hc⟩ := exists_constraint h hv
    have ha := allowed_ofJson hc
    simp only [← ha]
    constructor
    · intro hal
      exact ⟨constraint, ⟨value, rfl, hc⟩, hal⟩
    · rintro ⟨constraint', ⟨value', hv', hc'⟩, hal⟩
      cases hv'
      rw [hc] at hc'
      cases hc'
      exact hal

/-- The alias of `matches_field`: an unknown Hyperliquid action. -/
def IsAlias (view : ActionView) : Prop :=
  view.domain = "hyperliquid_core" ∧ view.actionTag = some "hl_unknown"

instance decidableIsAlias (view : ActionView) : Decidable (IsAlias view) := by
  unfold IsAlias
  infer_instance

def domainOk (allow : Option (List String)) (view : ActionView) : Bool :=
  dimOk allow (.known view.domain) || (decide (IsAlias view) && dimOk allow (.known "unknown"))

/-- A position passes the index when its three dimensions do. -/
theorem any_viewMetas (index : TriggerIndex) (view : ActionView) :
    (viewMetas view).any index.admits =
      (dimOk index.tags (.ofOption view.actionTag) && domainOk index.domains view &&
        dimOk index.venues (.ofOption view.venueName)) := by
  have ha : (Reading.known view.domain = .known "hyperliquid_core" ∧
      ofOption view.actionTag = .known "hl_unknown") ↔ IsAlias view := by
    unfold IsAlias
    cases view.actionTag <;> simp [ofOption]
  unfold viewMetas positionMetas domainOk
  simp only [ha]
  by_cases h : IsAlias view
  · simp only [h, if_true, any_cons, any_nil, TriggerIndex.admits, Bool.or_false,
      decide_true, Bool.true_and]
    cases dimOk index.tags (.ofOption view.actionTag) <;>
      cases dimOk index.venues (.ofOption view.venueName) <;> simp
  · simp [h, TriggerIndex.admits]

section

variable (h : constraint.allowed = some allow) (view : ActionView) (tx : TxView)
include h

theorem matchesField_tag :
    matchesField .actionTag constraint view tx = dimOk (some allow) (.ofOption view.actionTag) := by
  obtain ⟨d, tag, v⟩ := view
  rw [Bool.eq_iff_iff]
  cases constraint <;> cases h <;> cases tag <;> simp [matchesField, dimOk, ofOption]

theorem matchesField_venue :
    matchesField .actionVenue constraint view tx =
      dimOk (some allow) (.ofOption view.venueName) := by
  obtain ⟨d, tag, v⟩ := view
  rw [Bool.eq_iff_iff]
  cases constraint <;> cases h <;> cases v <;> simp [matchesField, dimOk, ofOption]

theorem matchesField_domain :
    matchesField .actionDomain constraint view tx = domainOk (some allow) view := by
  rw [Bool.eq_iff_iff]
  by_cases ha : view.domain = "hyperliquid_core" ∧ view.actionTag = some "hl_unknown"
  · cases constraint <;> cases h <;>
      simp [matchesField, matchesPresentValues, domainOk, IsAlias, ha, dimOk,
        and_or_left, exists_or]
  · cases constraint <;> cases h <;>
      simp [matchesField, matchesPresentValues, domainOk, IsAlias, ha, dimOk]

end

theorem evaluateTrigger_indexed :
    evaluateTrigger t.indexed view tx = true ↔
      ∀ field ∈ [TriggerField.actionTag, .actionDomain, .actionVenue], ∀ constraint allow,
        (field, constraint) ∈ t.where_ → constraint.allowed = some allow →
          matchesField field constraint view tx = true := by
  simp only [evaluateTrigger, indexed, List.all_eq_true, mem_filter,
    Bool.and_eq_true, decide_eq_true_eq, isSome_iff_exists]
  constructor
  · intro h field hf constraint allow hm ha
    exact h (field, constraint) ⟨hm, hf, allow, ha⟩
  · rintro h ⟨field, constraint⟩ ⟨hm, hf, allow, ha⟩
    exact h field hf constraint allow hm ha

theorem evaluateTrigger_of_indexed (h : evaluateTrigger t view tx = true) :
    evaluateTrigger t.indexed view tx = true := by
  rw [evaluateTrigger_indexed]
  intro field _ constraint _ hm _
  exact List.all_eq_true.1 h (field, constraint) hm

/-- A bundle's index comes from the constraints that serde reads. -/
theorem extractTrigger_eq_some (hr : readTrigger m = some t) (hi : extractTrigger m = some index) :
    ∃ where_, Trigger.readWhere where_ = some t.where_ ∧
      index = ⟨pick where_ TriggerField.actionTag.key, pick where_ TriggerField.actionDomain.key,
        pick where_ TriggerField.actionVenue.key⟩ := by
  unfold extractTrigger at hi
  split at hi
  · next where_ hw =>
    dsimp only at hi
    split at hi
    · cases hi
    · cases hi
      refine ⟨where_, ?_, rfl⟩
      obtain ⟨trigger, ht, hw⟩ := bind_eq_some_iff.1 hw
      -- both paths go through objects, where serde reads by name too
      have hm : m.structField "trigger" 2 = some trigger := by
        cases m with
        | obj fs => exact ht
        | _ => cases ht
      have hf : trigger.structField "where" 1 = some where_ := by
        cases trigger with
        | obj fs => exact hw
        | _ => cases hw
      simp only [readTrigger, hm, elim_some, Trigger.ofJson, hf,
        bind_eq_bind, bind_eq_some_iff, some.injEq] at hr
      obtain ⟨s, -, constraints, hc, rfl⟩ := hr
      exact hc
  · cases hi

private theorem forall_allowed_iff
    (h : Trigger.readWhere where_ = some constraints) (tx : TxView)
    (ok : Option (List String) → Bool) (hn : ok none = true)
    (ho : ∀ constraint allow, constraint.allowed = some allow →
      matchesField field constraint view tx = ok (some allow)) :
    (∀ constraint allow, (field, constraint) ∈ constraints → constraint.allowed = some allow →
      matchesField field constraint view tx = true) ↔ ok (pick where_ field.key) = true := by
  constructor
  · intro hall
    cases hp : pick where_ field.key with
    | none => exact hn
    | some allow =>
      obtain ⟨constraint, hm, ha⟩ := (pick_eq_some_iff h field allow).1 hp
      exact (ho constraint allow ha).symm.trans (hall constraint allow hm ha)
  · intro hp constraint allow hm ha
    rw [(pick_eq_some_iff h field allow).2 ⟨constraint, hm, ha⟩] at hp
    exact (ho constraint allow ha).trans hp

theorem any_viewMetas_iff (hr : readTrigger m = some t) (hi : extractTrigger m = some index)
    (view : ActionView) (tx : TxView) :
    (viewMetas view).any index.admits = true ↔ evaluateTrigger t.indexed view tx = true := by
  obtain ⟨where_, hw, rfl⟩ := extractTrigger_eq_some hr hi
  have ht := forall_allowed_iff hw tx (dimOk · (.ofOption view.actionTag)) rfl
    fun _ _ ha => matchesField_tag ha view tx
  have hd := forall_allowed_iff hw tx (domainOk · view) rfl
    fun _ _ ha => matchesField_domain ha view tx
  have hv := forall_allowed_iff hw tx (dimOk · (.ofOption view.venueName)) rfl
    fun _ _ ha => matchesField_venue ha view tx
  rw [any_viewMetas, evaluateTrigger_indexed]
  simp only [forall_mem_cons, ht, hd, hv, Bool.and_eq_true, and_assoc,
    not_mem_nil, false_imp_iff, implies_true, and_true]

/-! ## Which bundles are lost -/

section Kept

variable (manifestOf : Json → ManifestV2) (bundles : List ResolvedBundle)

/-- The engine's reading of a manifest keeps the trigger that serde reads. -/
def Readable : Prop :=
  ∀ b ∈ bundles, readTrigger b.manifest = some (manifestOf b.manifest).trigger

variable (body : ActionBody)

/-- A bundle whose trigger holds at a position of the body is kept. -/
def KeepsFiring : Prop :=
  ∀ b ∈ bundles, ∀ node ∈ body.preorder, ∀ tx,
    evaluateTrigger (manifestOf b.manifest).trigger node.view tx = true →
      b ∈ filterForAction bundles (collectActionMetas body.toJson)

def ResolvedBundle.input (b : ResolvedBundle) : BundleInput := ⟨b.policy, manifestOf b.manifest⟩

/-- The kept bundles get the verdict of all of them, at every position. -/
def SameVerdict : Prop :=
  bundles.length ≤ maxPolicyRpcV2Manifests →
    ∀ node ∈ body.preorder, ∀ engines actionMeta tx results host,
      evaluateAction engines ⟨node, actionMeta, tx,
          (filterForAction bundles (collectActionMetas body.toJson)).map (·.input manifestOf),
          results, host⟩ =
        evaluateAction engines
          ⟨node, actionMeta, tx, bundles.map (·.input manifestOf), results, host⟩

/-- A bundle indexed by venue that fires where the venue is not in the JSON form also
has its indexed constraints met where it is. -/
def VenueShown : Prop :=
  ∀ b ∈ bundles, (b.trigger.bind (·.venues)).isSome = true →
    ∀ node ∈ body.preorder, node.HidesVenue → ∀ tx,
      evaluateTrigger (manifestOf b.manifest).trigger node.view tx = true →
        ∃ shown ∈ body.preorder, ¬ shown.HidesVenue ∧
          evaluateTrigger (manifestOf b.manifest).trigger.indexed shown.view tx = true

variable {manifestOf}

variable {node : ActionBody} {tx : TxView}

theorem writtenView_of_shown (h : ¬ node.HidesVenue) : node.writtenView = node.view := by
  cases node with
  | domain a =>
    have hw : a.writesVenue = true := by simpa [HidesVenue] using h
    simp [writtenView, writtenVenue, hw, view]
  | _ => rfl

theorem writtenVenue_of_hidden (h : node.HidesVenue) : node.writtenVenue = none := by
  cases node with
  | domain a =>
    have hw : a.writesVenue = false := h
    simp [writtenVenue, hw]
  | _ => rfl

variable {body : ActionBody}

variable {b : ResolvedBundle} {t : Trigger}

/-- A bundle is kept when it has no index, or its indexed constraints hold at some
position as the JSON form shows it. -/
theorem keeps_iff (hr : readTrigger b.manifest = some t) (ht : body.Typed) (tx : TxView) :
    keeps (collectActionMetas body.toJson) b = true ↔
      b.trigger = none ∨
        ∃ node ∈ body.preorder, evaluateTrigger t.indexed node.writtenView tx = true := by
  unfold keeps
  cases hi : b.trigger with
  | none => simp
  | some index =>
    simp [collectActionMetas_toJson body ht, any_viewMetas_iff hr hi _ tx]

theorem indexed_of_no_venues (hr : readTrigger b.manifest = some t) (hi : b.trigger = some index)
    (hv : index.venues = none) (v : Option String) (h : evaluateTrigger t.indexed view tx = true) :
    evaluateTrigger t.indexed { view with venueName := v } tx = true := by
  rw [← any_viewMetas_iff hr hi, any_viewMetas, hv] at h ⊢
  simpa [dimOk, domainOk, IsAlias] using h

theorem venue_of_indexed (hr : readTrigger b.manifest = some t)
    (hv : (b.trigger.bind (·.venues)).isSome = true) (h : evaluateTrigger t.indexed view tx = true)
    : view.venueName ≠ none := by
  intro hn
  obtain ⟨allow, ha⟩ := isSome_iff_exists.1 hv
  obtain ⟨index, hi, ha⟩ := bind_eq_some_iff.1 ha
  rw [← any_viewMetas_iff hr hi, any_viewMetas, hn, ha] at h
  simp [dimOk, ofOption] at h

variable {bundles : List ResolvedBundle}

theorem keepsFiring_of_venueShown (hr : Readable manifestOf bundles) (ht : body.Typed)
    (h : VenueShown manifestOf bundles body) : KeepsFiring manifestOf bundles body := by
  intro b hb node hn tx hf
  refine mem_filter.2 ⟨hb, (keeps_iff (hr b hb) ht tx).2 ?_⟩
  have hin := evaluateTrigger_of_indexed hf
  by_cases hh : node.HidesVenue
  · cases hi : b.trigger with
    | none => exact .inl rfl
    | some index =>
      refine .inr ?_
      cases hv : index.venues with
      | none =>
        exact ⟨node, hn, indexed_of_no_venues (hr b hb) hi hv _ hin⟩
      | some allow =>
        obtain ⟨s, hs, hvi, hm⟩ := h b hb (by simp [hi, hv]) node hn hh tx hf
        exact ⟨s, hs, by rwa [writtenView_of_shown hvi]⟩
  · exact .inr ⟨node, hn, by rwa [writtenView_of_shown hh]⟩

theorem venueShown_of_keepsFiring (hr : Readable manifestOf bundles) (ht : body.Typed)
    (h : KeepsFiring manifestOf bundles body) : VenueShown manifestOf bundles body := by
  intro b hb hv node hno _ tx hf
  have hk := (mem_filter.1 (h b hb node hno tx hf)).2
  rcases (keeps_iff (hr b hb) ht tx).1 hk with hn | ⟨s, hs, hm⟩
  · simp [hn] at hv
  · have hvi : ¬ s.HidesVenue := fun hh =>
      venue_of_indexed (hr b hb) hv hm (writtenVenue_of_hidden hh)
    exact ⟨s, hs, hvi, by rwa [writtenView_of_shown hvi] at hm⟩

theorem sameVerdict_of_keepsFiring (h : KeepsFiring manifestOf bundles body) :
    SameVerdict manifestOf bundles body := by
  intro hc node hn es a tx rs host
  refine evaluateAction_filter es ⟨node, a, tx, [], rs, host⟩
    (·.input manifestOf) (keeps (collectActionMetas body.toJson)) bundles hc ?_
  intro b hb hd
  rw [ManifestV2.applies, Bool.and_eq_false_iff]
  refine .inr (Bool.eq_false_iff.2 fun hf => ?_)
  have hk := (mem_filter.1 (h b hb node hn tx.view hf)).2
  rw [hd] at hk
  cases hk

/-- The pre-filter keeps every bundle that fires, and with them the verdict, exactly when no
bundle fires only by a venue name that the JSON form does not show. -/
theorem prefilter_keeps_firing_iff (hread : Readable manifestOf bundles) (htyped : body.Typed) :
    KeepsFiring manifestOf bundles body ∧ SameVerdict manifestOf bundles body ↔
      VenueShown manifestOf bundles body := by
  constructor
  · rintro ⟨h, -⟩
    exact venueShown_of_keepsFiring hread htyped h
  · intro h
    have hk := keepsFiring_of_venueShown hread htyped h
    exact ⟨hk, sameVerdict_of_keepsFiring hk⟩

end Kept

/-! A deny policy for some venues, a Hyperliquid withdrawal and a supply to Aave. -/

section Sample

variable (venues : List String)

def venueManifest : Json :=
  .obj [("id", .str "venue-deny"), ("schema_version", .int 2),
    ("trigger", .obj [("where",
      .obj [("action.venue", .obj [("in", .arr (venues.map .str))])])])]

def venueBundle : ResolvedBundle := ⟨"venue-deny", "", venueManifest venues⟩

def readVenue (manifest : Json) : ManifestV2 :=
  { id := ((manifest.get? "id").bind Json.asStr).getD "", schemaVersion := 2,
    trigger := (readTrigger manifest).getD {} }

def hlWithdraw : ActionBody :=
  .domain { domain := .hyperliquidCore, actionTag := "hl_withdraw",
            venueName := some "hyperliquid", fields := .obj [("amount", .str "100")] }

def aaveSupply : ActionBody :=
  .domain { domain := .lending, actionTag := "supply", venueName := some "aave_v3",
            fields := .obj [("venue", .obj [("name", .str "aave_v3")])] }

theorem hlWithdraw_typed : hlWithdraw.Typed := by
  intro a ha
  obtain rfl := ActionBody.domain.inj (mem_singleton.1 ha)
  exact ⟨rfl, fun value hv => by cases hv⟩

theorem aaveSupply_typed : aaveSupply.Typed := by
  intro a ha
  obtain rfl := ActionBody.domain.inj (mem_singleton.1 ha)
  refine ⟨rfl, fun value hv => ⟨rfl, ?_⟩⟩
  cases hv
  exact ⟨_, "aave_v3", rfl, rfl⟩

/-- The withdrawal hides its venue. A bundle for both venues is kept by the supply. -/
theorem prefilter_keeps_firing_iff_multicall :
    let bundles := [venueBundle ["hyperliquid", "aave_v3"], venueBundle ["aave_v3"],
      venueBundle ["uniswap_v3"]]
    let body := ActionBody.multicall [hlWithdraw, aaveSupply]
    hlWithdraw ∈ body.preorder ∧ hlWithdraw.HidesVenue ∧
    (filterForAction bundles (collectActionMetas body.toJson)).length = 2 ∧
    KeepsFiring readVenue bundles body ∧ SameVerdict readVenue bundles body := by
  intro bundles body
  have hm : ∀ node, node ∈ body.preorder ↔ node = body ∨ node = hlWithdraw ∨ node = aaveSupply := by
    simp [body, hlWithdraw, aaveSupply, preorder, preorderAll]
  refine ⟨(hm _).2 (.inr (.inl rfl)), rfl, rfl, (prefilter_keeps_firing_iff ?_ ?_).2 ?_⟩
  · intro b hb
    obtain rfl | rfl | rfl : b = _ ∨ b = _ ∨ b = _ := by simpa [bundles] using hb
    all_goals rfl
  · intro a ha
    obtain h | h | h := (hm _).1 ha
    · exact ActionBody.noConfusion h
    · exact hlWithdraw_typed a (mem_singleton.2 h)
    · exact aaveSupply_typed a (mem_singleton.2 h)
  · intro b hb _ node hn hh tx hf
    refine ⟨aaveSupply, (hm _).2 (.inr (.inr rfl)), Bool.noConfusion, ?_⟩
    obtain rfl | rfl | rfl := (hm _).1 hn
    · cases hh
    · obtain rfl | rfl | rfl : b = _ ∨ b = _ ∨ b = _ := by simpa [bundles] using hb
      exacts [rfl, rfl, Bool.noConfusion hf]
    · cases hh

/-- A policy scoped to Hyperliquid fires on a withdrawal and is dropped before it. -/
theorem prefilter_drops_hyperliquid :
    hlWithdraw.Typed ∧ Readable readVenue [venueBundle ["hyperliquid"]] ∧
      (∀ tx, evaluateTrigger (readVenue (venueManifest ["hyperliquid"])).trigger
          hlWithdraw.view tx =
        true) ∧
      filterForAction [venueBundle ["hyperliquid"]] (collectActionMetas hlWithdraw.toJson) = [] ∧
      ¬ KeepsFiring readVenue [venueBundle ["hyperliquid"]] hlWithdraw := by
  have hd : filterForAction [venueBundle ["hyperliquid"]]
      (collectActionMetas hlWithdraw.toJson) = [] := rfl
  refine ⟨hlWithdraw_typed, fun b hb => ?_, fun tx => rfl, hd, fun hke => ?_⟩
  · obtain rfl := mem_singleton.1 hb
    rfl
  have hk := hke (venueBundle ["hyperliquid"]) (List.mem_singleton.2 rfl) hlWithdraw
    (List.mem_singleton.2 rfl) ⟨"", "", ""⟩ rfl
  rw [hd] at hk
  cases hk

end Sample

end Extension

end Dambi
