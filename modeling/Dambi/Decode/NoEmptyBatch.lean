import Dambi.Decode.BodyTemplates
import Dambi.Decode.Legs
import Dambi.Decode.TypedData

/-!
# No empty batch

A batch without children would be evaluated as if it did nothing. Only the
outermost body of a call can be an empty batch, and there it is replaced, as
long as no body template is filled in to be a batch of its own.
-/

namespace Dambi

open Fallible List

/-! ## Trees without an empty batch -/

namespace ActionBody

def isEmptyBatch : ActionBody → Bool
  | .multicall [] => true
  | _ => false

/-- No node of the tree is a batch without children. -/
def NoEmptyBatch (body : ActionBody) : Prop :=
  ∀ node ∈ body.preorder, node.isEmptyBatch = false

variable {acs : List ActionBody}

theorem noEmptyBatch_multicall :
    NoEmptyBatch (.multicall acs) ↔ acs ≠ [] ∧ ∀ body ∈ acs, NoEmptyBatch body := by
  simp only [NoEmptyBatch, preorder, preorderAll_eq_flatMap, forall_mem_cons,
    forall_mem_flatMap]
  cases acs with
  | nil | cons body r => simp [isEmptyBatch]

theorem IsLeaf.noEmptyBatch {body : ActionBody} (h : body.IsLeaf) : body.NoEmptyBatch := by
  cases body with
  | domain a | unknown target chain c value => simp [NoEmptyBatch, preorder, isEmptyBatch]
  | multicall acs => exact absurd rfl (h acs)

theorem noEmptyBatch_unknown {target : Address} {chain c : String}
    {value : U256} : NoEmptyBatch (.unknown target chain c value) :=
  IsLeaf.noEmptyBatch nofun

/-- What an emit strategy may return: only the outermost batch can be empty. -/
def AtMostTopEmpty (body : ActionBody) : Prop := body = .multicall [] ∨ body.NoEmptyBatch

theorem atMostTopEmpty_multicall (h : ∀ body ∈ acs, NoEmptyBatch body) :
    AtMostTopEmpty (.multicall acs) := by
  cases acs with
  | nil => exact .inl rfl
  | cons body r => exact .inr (noEmptyBatch_multicall.2 ⟨cons_ne_nil _ _, h⟩)

end ActionBody

open ActionBody

theorem noEmptyBatch_visibleTypedBody {ctx : MapContext} {body : ActionBody}
    (h : body.AtMostTopEmpty) :
    (visibleTypedBody ctx body).NoEmptyBatch := by
  unfold visibleTypedBody
  split
  · exact noEmptyBatch_unknown
  · next hn =>
    rcases h with rfl | h
    · exact absurd rfl hn
    · exact h

/-- The two routes replace an empty batch alike. -/
theorem visibleBody_eq (ca : PreparedCall) (body : ActionBody) :
    visibleBody ca body = visibleTypedBody ca.ctx body := by
  cases body with
  | multicall acs => cases acs <;> rfl
  | domain a => rfl
  | unknown target chain c value => rfl

/-! ## The templates of a registry -/

/-- The body templates of an opcode table, at every level. -/
inductive StreamTemplate : Json → Json → Prop
  | body {declared table key entry template}
      (htable : (declared.get? "per_opcode_body").bind Json.asObject = some table)
      (hentry : table.lookup key = some entry) (hbody : entry.get? "body" = some template) :
      StreamTemplate declared template
  | nested {declared table key entry nested template}
      (htable : (declared.get? "per_opcode_body").bind Json.asObject = some table)
      (hentry : table.lookup key = some entry) (hnested : entry.get? "nested" = some nested)
      (htemplate : StreamTemplate nested template) : StreamTemplate declared template

/-- The body templates of `emit`. -/
inductive EmitTemplate (emit : Json) : Json → Prop
  | body {template} (hbody : emit.get? "body" = some template) : EmitTemplate emit template
  | part {parts part template} (hparts : (emit.get? "parts").bind Json.asArray = some parts)
      (hpart : part ∈ parts) (hbody : part.get? "body" = some template) :
      EmitTemplate emit template
  | opcode {template} (htemplate : StreamTemplate emit template) : EmitTemplate emit template
  | action {table key entry template}
      (htable : (emit.get? "per_action_body").bind Json.asObject = some table)
      (hentry : table.lookup key = some entry) (hbody : entry.get? "body" = some template) :
      EmitTemplate emit template
  | tag {table key entry template}
      (htable : (emit.get? "per_tag").bind Json.asObject = some table)
      (hentry : table.lookup key = some entry) (hbody : entry.get? "body" = some template) :
      EmitTemplate emit template

/-- No template of `emit` is filled in to a batch. -/
def EmitsNoBatch (kit : TemplateKit) (emit : Json) : Prop :=
  ∀ template, EmitTemplate emit template → NeverBatch kit template

def DecoderRegistry.BodyTemplate (registry : DecoderRegistry) (template : Json) : Prop :=
  ∃ id bundle emit, registry.bundles id = some bundle ∧ bundle.get? "emit" = some emit ∧
    EmitTemplate emit template

/-! ## Emit strategies -/

section Strategies

variable {kit : StreamKit} {ctx : MapContext} {emit : Json} {body : ActionBody}

variable {template : Json} {chainId : Nat}

variable {live : Option Json} {entry : Json} {level : OpcodeLevel}

theorem NeverBatch.isLeaf_emitters (h : NeverBatch kit.template template)
    (hb : kit.withTemplates.buildActionBody ctx template live = .ok body) : body.IsLeaf :=
  h.isLeaf (mapError_eq_ok.1 hb)

theorem isLeaf_singleEmit (h : NeverBatch kit.template template)
    (he : singleEmit kit.emitters ctx entry template = .ok body) : body.IsLeaf :=
  h.isLeaf_emitters (mapError_eq_ok.1 he)

theorem isLeaf_arrayEmit {source p : String} (h : NeverBatch kit.template template)
    (he : arrayEmit kit.emitters ctx entry template source p = .ok body) :
    ∃ acs, body = .multicall acs ∧ ∀ a ∈ acs, a.IsLeaf := by
  obtain ⟨m, _, he⟩ := bind_eq_ok.1 he
  exact h.buildArrayEmit (mapError_eq_ok.1 (mapError_eq_ok.1 he))

theorem isLeaf_compositePart {p : Json} {acs : List ActionBody}
    (h : ∀ template, p.get? "body" = some template → NeverBatch kit.template template)
    (hp : compositePart kit.emitters ctx p = .ok acs) : ∀ a ∈ acs, a.IsLeaf := by
  simp only [compositePart, bind_eq_ok, required_eq_ok] at hp
  obtain ⟨s, _, template, ht, hp⟩ := hp
  have hn := h template ht
  split at hp
  · obtain ⟨body, hb, hp⟩ := bind_eq_ok.1 hp
    cases hp
    simpa using isLeaf_singleEmit hn hb
  · simp only [bind_eq_ok] at hp
    obtain ⟨source, _, body, hb, hp⟩ := hp
    obtain ⟨i, rfl, hi⟩ := isLeaf_arrayEmit hn hb
    cases hp
    exact hi
  · cases hp

theorem isLeaf_compositeEmit (h : EmitsNoBatch kit.template emit)
    (he : compositeEmit kit.emitters ctx emit = .ok body) :
    ∃ acs, body = .multicall acs ∧ ∀ a ∈ acs, a.IsLeaf := by
  simp only [compositeEmit, bind_eq_ok, required_eq_ok] at he
  obtain ⟨ps, hpa, rs, hru, hb⟩ := he
  cases hb
  refine ⟨rs.flatten, rfl, fun a ha => ?_⟩
  obtain ⟨run, hr, ha⟩ := mem_flatten.1 ha
  obtain ⟨p, hm, hp⟩ := exists_of_mem_mapM hru hr
  exact isLeaf_compositePart (fun template hb => h template (.part hpa hm hb)) hp
    a ha

/-! ### Opcode streams -/

def TableNoBatch (kit : TemplateKit) (table : List (String × Json)) : Prop :=
  ∀ key entry, table.lookup key = some entry →
    (∀ template, entry.get? "body" = some template → NeverBatch kit template) ∧
    ∀ nested, entry.get? "nested" = some nested →
      ∀ template, StreamTemplate nested template → NeverBatch kit template

theorem tableNoBatch_of_opcodeLevel {d : Json} {m field : String}
    (h : ∀ template, StreamTemplate d template → NeverBatch kit.template template)
    (hl : opcodeLevel d m field = .ok level) : TableNoBatch kit.template level.table := by
  simp only [opcodeLevel, bind_eq_ok, required_eq_ok] at hl
  obtain ⟨t, ht, ma, _, _, _, hl⟩ := hl
  cases hl
  intro key entry he
  exact ⟨fun template hb => h template (.body ht he hb),
    fun nested hn template hte =>
      h template (.nested ht he hn hte)⟩

theorem noEmptyBatch_dispatchOpcode {di : OpcodeStream → List Json → Except EngineError ActionBody}
    {input : Option Json} {c : UInt8} (ht : TableNoBatch kit.template level.table)
    (hd : ∀ s d body, TableNoBatch kit.template s.table → di s d = .ok body → body.NoEmptyBatch)
    (h : dispatchOpcode kit.withTemplates ctx di level c input = .ok (some body)) :
    body.NoEmptyBatch := by
  unfold dispatchOpcode at h
  split at h
  · split at h
    · cases h
    · cases h
      exact noEmptyBatch_unknown
    · cases h
  · next entry he =>
    obtain ⟨hb, hbe⟩ := ht _ entry he
    split at h
    · next nested hn =>
      simp only [bind_eq_ok] at h
      obtain ⟨s, hs, d, _, i, hi, h⟩ := h
      cases h
      refine hd s d _ ?_ hi
      simp only [nestedStream, bind_eq_ok] at hs
      obtain ⟨level, hl, _, _, _, _, _, _, _, _, hs⟩ := hs
      cases hs
      exact tableNoBatch_of_opcodeLevel (hbe nested hn) hl
    · simp only [bind_eq_ok, elim_error_eq_ok, mapError_eq_ok] at h
      obtain ⟨template, hte, l, hl, h⟩ := h
      cases h
      exact ((hb template hte).isLeaf_emitters hl).noEmptyBatch

/-- A stream is an `Unknown` or a batch with children, at every level. -/
theorem noEmptyBatch_dispatchUpTo {maxDepth levels depth : Nat} {s : OpcodeStream} {d : List Json}
    (ht : TableNoBatch kit.template s.table)
    (h : dispatchUpTo kit.withTemplates ctx maxDepth levels depth s d = .ok body) :
    body.NoEmptyBatch := by
  induction levels generalizing depth s d body with
  | zero => cases h
  | succ levels ih =>
    obtain ⟨ls, hlg, h⟩ := bind_eq_ok.1 h
    cases h
    split
    · exact noEmptyBatch_unknown
    · next hs =>
      refine noEmptyBatch_multicall.2 ⟨by simpa using hs, fun a ha => ?_⟩
      obtain ⟨leg, hl, hi⟩ := mem_filterMap.1 ha
      cases hi
      obtain ⟨_, _, hc⟩ := exists_of_mem_mapM hlg hl
      exact noEmptyBatch_dispatchOpcode ht (fun _ _ _ ht h => ih ht h) hc

theorem noEmptyBatch_opcodeStreamDispatch (h : EmitsNoBatch kit.template emit)
    (he : opcodeStreamDispatch kit.withTemplates ctx emit = .ok body) : body.NoEmptyBatch := by
  simp only [opcodeStreamDispatch, bind_eq_ok] at he
  obtain ⟨level, hl, ⟨cs, ins⟩, _, d, _, hb⟩ := he
  have ht := tableNoBatch_of_opcodeLevel (fun template hte =>
    h template (.opcode hte)) hl
  exact noEmptyBatch_dispatchUpTo ht hb

/-! ### Tags -/

theorem isLeaf_taggedBody (h : NeverBatch kit.template template)
    (hb : taggedBody kit.withTemplates ctx template live = .ok body) : body.IsLeaf :=
  h.isLeaf_emitters (mapError_eq_ok.1 hb)

theorem isLeaf_taggedFallback {pa : List (String × Json)}
    (h : ∀ key entry template, pa.lookup key = some entry →
      entry.get? "body" = some template → NeverBatch kit.template template)
    (hb : taggedFallback kit.withTemplates ctx pa = .ok body) : body.IsLeaf := by
  unfold taggedFallback at hb
  split at hb
  · next entry he =>
    simp only [bind_eq_ok, required_eq_ok] at hb
    obtain ⟨template, ht, hb⟩ := hb
    exact isLeaf_taggedBody (h _ entry template he ht) hb
  · exact isLeaf_taggedBody neverBatch_unknownTemplate hb

theorem isLeaf_buildTaggedDispatch (h : EmitsNoBatch kit.template emit)
    (he : buildTaggedDispatch kit.withTemplates ctx emit = .ok body) : body.IsLeaf := by
  simp only [buildTaggedDispatch, bind_eq_ok, required_eq_ok] at he
  obtain ⟨pa, ht, d, _, v, _, he⟩ := he
  have het (key : String) (entry template : Json) (hen : pa.lookup key = some entry)
      (hb : entry.get? "body" = some template) : NeverBatch kit.template template :=
    h template (.action ht hen hb)
  split at he
  · exact isLeaf_taggedFallback het he
  · obtain ⟨_, _, he⟩ := bind_eq_ok.1 he
    split at he
    · exact isLeaf_taggedFallback het he
    · next entry hen =>
      simp only [taggedEntry, bind_eq_ok, required_eq_ok] at he
      obtain ⟨template, hte, hb⟩ := he
      exact isLeaf_taggedBody (het _ entry template hen hte) hb

theorem isLeaf_parallelElement {d : ParallelTagged} {index : Nat} {tag da : Json}
    (h : ∀ key entry template, d.perTag.lookup key = some entry →
      entry.get? "body" = some template → NeverBatch kit.template template)
    (hb : parallelElement kit.withTemplates ctx d chainId index tag da = .ok body) :
    body.IsLeaf := by
  obtain ⟨key, _, hb⟩ := bind_eq_ok.1 hb
  split at hb
  · next entry he =>
    simp only [parallelEntry, bind_eq_ok, required_eq_ok] at hb
    obtain ⟨template, ht, _, _, _, _, hb⟩ := hb
    rcases Option.or_eq_some_iff.1 he with he | ⟨_, he⟩ <;>
      exact isLeaf_taggedBody (h _ entry template he ht) hb
  · split at hb
    · cases hb
    · exact isLeaf_taggedBody neverBatch_unknownTemplate hb

theorem isLeaf_buildParallelTaggedDispatch (h : EmitsNoBatch kit.template emit)
    (he : buildParallelTaggedDispatch kit.withTemplates ctx emit chainId = .ok body) :
    ∃ acs, body = .multicall acs ∧ ∀ a ∈ acs, a.IsLeaf := by
  simp only [buildParallelTaggedDispatch, bind_eq_ok, required_eq_ok] at he
  obtain ⟨pt, ht, _, _, _, _, _, _, _, _, ts, _, d, _, _, _, _, _, acs, ha, hb⟩ := he
  cases hb
  refine ⟨acs, rfl, fun a hac => ?_⟩
  obtain ⟨_, _, hel⟩ := exists_of_mem_mapM ha hac
  exact isLeaf_parallelElement (fun key entry template hen hb =>
    h template (.tag ht hen hb)) hel

/-! ### All of them -/

theorem atMostTopEmpty_emitBody {s : BodyStrategy} (h : EmitsNoBatch kit.template emit)
    (he : emitBody kit.emitters ctx emit chainId s = .ok body) : body.AtMostTopEmpty := by
  have hb (hl : ∃ acs, body = .multicall acs ∧
      ∀ a ∈ acs, a.IsLeaf) : body.AtMostTopEmpty := by
    obtain ⟨acs, rfl, ha⟩ := hl
    exact atMostTopEmpty_multicall fun a hac => (ha a hac).noEmptyBatch
  cases s with
  | singleEmit =>
    simp only [emitBody, bind_eq_ok, required_eq_ok] at he
    obtain ⟨template, ht, hbd⟩ := he
    exact .inr (isLeaf_singleEmit (h template (.body ht)) hbd).noEmptyBatch
  | opcodeStreamDispatch => exact .inr (noEmptyBatch_opcodeStreamDispatch h he)
  | arrayEmit =>
    simp only [emitBody, bind_eq_ok, required_eq_ok] at he
    obtain ⟨source, _, template, ht, hbd⟩ := he
    exact hb (isLeaf_arrayEmit (h template (.body ht)) hbd)
  | taggedDispatch => exact .inr (isLeaf_buildTaggedDispatch h he).noEmptyBatch
  | parallelTaggedDispatch => exact hb (isLeaf_buildParallelTaggedDispatch h he)
  | compositeEmit => exact hb (isLeaf_compositeEmit h he)
  | other text => cases he

end Strategies

/-! ## Routes -/

section Routes

variable {kit : StreamKit} {registry : DecoderRegistry}

section

variable (h : ∀ template, registry.BodyTemplate template → NeverBatch kit.template template)
include h

theorem emitsNoBatch_of_bundle {b emit : Json} {id : String} (hb : registry.bundles id = some b)
    (he : b.get? "emit" = some emit) : EmitsNoBatch kit.template emit :=
  fun template ht => h template ⟨id, b, emit, hb, he, ht⟩

theorem emitsNoBatch_of_prepareCall {input : RouteRequest} {c : PreparedCall}
    {d : DecodeKit} (hp : prepareCall d registry input = .ok c) :
    EmitsNoBatch kit.template c.emit := by
  simp only [prepareCall, bind_eq_ok] at hp
  obtain ⟨_, _, _, _, _, _, _, _, _, _, _, _, hp⟩ := hp
  split at hp
  · cases hp
  · next id b hl =>
    simp only [bind_eq_ok, required_eq_ok] at hp
    obtain ⟨_, _, emit, he, _, _, hc⟩ := hp
    cases hc
    obtain ⟨_, _, hb⟩ := Option.bind_eq_some_iff.1 hl
    obtain ⟨_, hb, hs⟩ := Option.map_eq_some_iff.1 hb
    cases hs
    exact emitsNoBatch_of_bundle h hb he

end

def CallPart.EmitsNoBatch (kit : TemplateKit) : CallPart → Prop
  | .own _ _ prepared => Dambi.EmitsNoBatch kit prepared.emit
  | _ => True

theorem UnknownOf.noEmptyBatch {d : DecodeKit} {input : RouteRequest} {body : ActionBody}
    (h : UnknownOf d input body) :
    ∀ body' ∈ [body], body'.NoEmptyBatch := by
  obtain ⟨_, _, _, _, rfl⟩ := h
  simpa using noEmptyBatch_unknown

section

variable (h : ∀ template, registry.BodyTemplate template → NeverBatch kit.template template)
include h

variable {t t' : TransactionTraversal} {result : RouteResult}

theorem Decodes.noEmptyBatch {p : CallPart} {bodies : List ActionBody}
    (hd : Decodes kit.emitters registry p t bodies t')
    (hp : p.EmitsNoBatch kit.template) : ∀ body ∈ bodies, body.NoEmptyBatch := by
  induction hd with
  | legsNil | ownNone _ | callbackEmpty _ => exact nofun
  | legsCons _ _ _ ihl ihr =>
    exact forall_mem_append.2 ⟨ihl trivial, ihr trivial⟩
  | legOpaque _ hb | callOpaque _ _ _ hb | callbackOpaque _ _ hb => exact hb.noEmptyBatch
  | legRouted _ _ _ _ _ _ ih => exact ih trivial
  | call hpr _ _ _ iho i =>
    exact forall_mem_append.2
      ⟨iho (emitsNoBatch_of_prepareCall h hpr), i trivial⟩
  | ownBody _ hb =>
    rw [forall_mem_singleton, visibleBody_eq]
    exact noEmptyBatch_visibleTypedBody (atMostTopEmpty_emitBody hp hb)
  | ownBatch _ _ hs ih =>
    exact forall_mem_singleton.2 (noEmptyBatch_multicall.2 ⟨hs, ih trivial⟩)
  | callbackLegs _ _ _ _ ih => exact ih trivial

theorem noEmptyBatch_routeTransaction {input : RouteRequest} {frame : TransactionFrame}
    (hr : (routeTransaction kit.emitters registry input frame).run t = (.ok result, t')) :
    ∀ body ∈ result.bodies, body.NoEmptyBatch := by
  obtain ⟨bodies, hd, hdl⟩ := decodesAt frame input t result t' hr
  have hb := hd.noEmptyBatch h trivial
  rcases hdl with hs | ⟨_, hw⟩
  · rwa [hs]
  · rw [hw, forall_mem_singleton]
    exact noEmptyBatch_multicall.2 ⟨hd.call_ne_nil, hb⟩

theorem noEmptyBatch_routeRequest {ij : String}
    (hr : routeRequest kit.emitters registry ij = .ok result) :
    ∀ a ∈ result.actions, a.body.NoEmptyBatch := by
  simp only [routeRequest, bind_eq_ok] at hr
  obtain ⟨_, _, input, _, hr⟩ := hr
  split at hr
  · cases hr
  · next r t hru =>
    have hb := noEmptyBatch_routeTransaction h hru
    have ha : result.actions = r.actions := by
      cases hr
      split <;> rfl
    intro a hac
    rw [ha] at hac
    exact hb a.body (mem_map_of_mem hac)

end

end Routes

section TypedRoutes

variable {kit : StreamKit} {typed : TypedDataKit} {registry : TypedDataRegistry}

theorem noEmptyBatch_routeTypedDataV3 {ij : String} {result : RouteResult}
    (h : ∀ template, registry.BodyTemplate template → NeverBatch kit.template template)
    (hr : routeTypedDataV3 kit typed registry ij = .ok result) :
    ∀ a ∈ result.actions, a.body.NoEmptyBatch := by
  simp only [routeTypedDataV3, routeTypedDataWith, bind_eq_ok] at hr
  obtain ⟨_, _, input, _, s, _, contract, _, hr⟩ := hr
  split at hr
  · cases hr
  · next id b hl =>
    simp only [bind_eq_ok, required_eq_ok] at hr
    obtain ⟨emit, he, _, _, st, _, body, hbd, hre⟩ := hr
    cases hre
    obtain ⟨_, _, hb⟩ := Option.bind_eq_some_iff.1 hl
    obtain ⟨_, hb, hs⟩ := Option.map_eq_some_iff.1 hb
    cases hs
    rw [forall_mem_singleton]
    exact noEmptyBatch_visibleTypedBody
      (atMostTopEmpty_emitBody (emitsNoBatch_of_bundle h hb he) hbd)

theorem noEmptyBatch_routeTypedDataV4 {ij : String} {result : TypedDataResult}
    (hr : routeTypedDataV4 kit typed registry ij = .ok result) :
    ∀ a ∈ result.actions, a.body.NoEmptyBatch := by
  simp only [routeTypedDataV4, bind_eq_ok] at hr
  obtain ⟨_, _, _, _, input, _, hr⟩ := hr
  split at hr
  · cases hr
  · simp only [emitStrictPermit, permitOnly, bind_eq_ok, require_eq_ok] at hr
    obtain ⟨_, _, _, _, _, _, _, _, _, _, _, _, _, _, body, _, _, hp, hre⟩ := hr
    cases hre
    rw [forall_mem_singleton]
    apply IsLeaf.noEmptyBatch
    rintro acs rfl
    cases hp

/-- No empty batch at any depth of what the three routes return. -/
theorem no_empty_batch (kit : StreamKit) (typed : TypedDataKit) (registry : TypedDataRegistry)
    (h : ∀ template, registry.BodyTemplate template → NeverBatch kit.template template) :
    (∀ inputJson result,
      routeRequest kit.emitters registry.toDecoderRegistry inputJson = .ok result →
        ∀ action ∈ result.actions, action.body.NoEmptyBatch) ∧
    (∀ inputJson result, routeTypedDataV3 kit typed registry inputJson = .ok result →
      ∀ action ∈ result.actions, action.body.NoEmptyBatch) ∧
    ∀ inputJson result, routeTypedDataV4 kit typed registry inputJson = .ok result →
      ∀ action ∈ result.actions, action.body.NoEmptyBatch :=
  ⟨fun _ _ => noEmptyBatch_routeRequest h, fun _ _ => noEmptyBatch_routeTypedDataV3 h,
    fun _ _ => noEmptyBatch_routeTypedDataV4⟩

end TypedRoutes

/-! ## A batch that the calldata asks for -/

namespace Json

mutual

/-- A string or a key of the value contains the text. -/
def mentions (text : String) : Json → Bool
  | .str s => decide (text.toList <:+: s.toList)
  | .arr items => mentionsItems text items
  | .obj fields => mentionsFields text fields
  | _ => false

def mentionsItems (text : String) : List Json → Bool
  | [] => false
  | item :: rest => item.mentions text || mentionsItems text rest

def mentionsFields (text : String) : List (String × Json) → Bool
  | [] => false
  | (key, value) :: rest => decide (text.toList <:+: key.toList) || value.mentions text ||
      mentionsFields text rest

end

end Json

/-- A call whose only argument is an array with the string `multicall`. -/
def namesKit : StreamKit where
  parseInput _ := .ok
    { chainId := 1
      to_ := "0xa"
      selector := "0x01020304"
      calldata := "0x01020304"
      submitter := "0xe"
      submittedAt := 0 }
  addressFromStr _ := .ok 0
  u256FromDecimal _ := .ok 0
  hexDecode _ := .ok [1, 2, 3, 4]
  hexEncode _ := "01020304"
  decodeAbi _ _ := .ok (.obj [("names", .arr [.str "multicall"])])
  decodeInputsAbiTuple _ _ := .error ""
  onchainTx _ _ _ _ _ _ := .null
  resolved _ _ _ := ∅
  derived _ := ∅
  buildActionBody _ _ _ := .error ""
  buildArrayEmit _ _ _ _ _ _ := .error ""
  opcodeStreamDispatch _ _ := .error ⟨"", ""⟩
  buildTaggedDispatch _ _ := .error ⟨"", ""⟩
  buildParallelTaggedDispatch _ _ _ := .error ⟨"", ""⟩
  isUnresolvedMetamorphoUnderlying _ := false
  keccak256 _ := []
  utf8FromBytes _ := .error ""
  resolveNamed _ _ _ := none
  template :=
    { jsonText := fun _ => ""
      builtinFn := fun _ _ => .error ""
      u256FromDecimal := fun _ => .error ""
      tagError := fun _ => ""
      -- A list of actions without elements is all that serde is asked for here.
      actionsFromFields := fun fields =>
        if ((fields.lookup "actions").bind Json.asArray).any List.isEmpty then .ok []
        else .error ""
      unknownFromFields := fun _ => .error ""
      domainFromFields := fun domain _ => .ok { domain, actionTag := "erc20_transfer" }
      domainKeys := fun _ => ["action", "domain", "recipient"] }

/-- A registry with one manifest: a body for each name. -/
def namesRegistry (template : Json) : TypedDataRegistry where
  bridge _ := some "names"
  selectorBridge _ := none
  typedDataBridge _ := none
  bundles _ := some (.obj [("abi_fragment", .obj [("abi", .null)]),
    ("emit", .obj [("array_source", .str "$args.names"), ("body", template),
      ("strategy", .str "array_emit")])])

theorem eq_of_namesRegistry {own template : Json}
    (h : (namesRegistry own).BodyTemplate template) : template = own := by
  obtain ⟨id, b, emit, hbu, he, hte⟩ := h
  cases hbu
  cases he
  cases hte with
  | body hb => exact (Option.some.inj hb).symm
  | part hp _ _ => cases hp
  | opcode hte =>
    cases hte with
    | body ht _ _ => cases ht
    | nested ht _ _ _ => cases ht
  | action ht _ _ => cases ht
  | tag ht _ _ => cases ht

/-- A body whose domain is an element of the calldata. -/
def namedTemplate : Json := .obj [("actions", .arr []), ("domain", .str "$inputs")]

def namedResult : RouteResult :=
  Fallible.result (routeRequest namesKit.emitters (namesRegistry namedTemplate).toDecoderRegistry
    "") (by decide +kernel)

/-- The batch of the array stays, and with it the empty batch inside. -/
theorem empty_batch_from_calldata :
    (∀ template, (namesRegistry namedTemplate).BodyTemplate template →
      template.mentions "multicall" = false) ∧
    routeRequest namesKit.emitters (namesRegistry namedTemplate).toDecoderRegistry "" =
      .ok namedResult ∧
    ∃ action ∈ namedResult.actions, ∃ node ∈ action.body.preorder, node.isEmptyBatch = true := by
  refine ⟨fun template h => ?_, eq_ok_result _ _, ?_⟩
  · rw [eq_of_namesRegistry h]
    decide +kernel
  · have ha : (namedResult.actions.any fun action =>
        action.body.preorder.any ActionBody.isEmptyBatch) = true := by decide +kernel
    simpa only [any_eq_true] using ha

/-- A body that writes its domain out. -/
def writtenTemplate : Json :=
  .obj [("domain", .str "token"), ("token", .obj [("action", .str "erc20_transfer"),
    ("erc20_transfer", .obj [("recipient", .str "$inputs")])])]

def writtenResult : RouteResult :=
  Fallible.result (routeRequest namesKit.emitters (namesRegistry writtenTemplate).toDecoderRegistry
    "") (by decide +kernel)

def noTypedData : TypedDataKit where
  parseInput _ := .error ""
  parseEnvelope _ := .error ""
  prepare _ := .error ⟨"", "", none⟩
  validateManifest _ _ := .error ⟨"", "", none⟩
  offchainSig _ _ _ _ _ _ := .null
  permitDeadline _ := none
  toLowercase c := [c]

theorem no_empty_batch_written :
    routeRequest namesKit.emitters (namesRegistry writtenTemplate).toDecoderRegistry "" =
      .ok writtenResult ∧ writtenResult.actions.length = 1 ∧
    ∀ action ∈ writtenResult.actions, action.body.NoEmptyBatch := by
  have hr : routeRequest namesKit.emitters
      (namesRegistry writtenTemplate).toDecoderRegistry "" = .ok writtenResult := eq_ok_result _ _
  have hw : writtenDomain writtenTemplate = some "token" := by decide +kernel
  refine ⟨hr, by decide +kernel, (no_empty_batch namesKit noTypedData
    (namesRegistry writtenTemplate) fun template h => ?_).1 "" writtenResult hr⟩
  rw [eq_of_namesRegistry h]
  exact neverBatch_of_writtenDomain hw (by decide)

end Dambi
