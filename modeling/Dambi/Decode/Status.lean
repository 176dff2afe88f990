import Dambi.Decode.Legs

/-!
# The decoding status

A traversal reports `complete` exactly when the tree it decoded holds no
`Unknown`: every part of the call tree adds a diagnostic if and only if it
contributes one.
-/

namespace Dambi

open Fallible TransactionTraversal List
open ActionBody (anyUnknown hasUnknown)

variable {kit : DecodeKit} {registry : DecoderRegistry}
variable {frame : TransactionFrame} {input : RouteRequest}
variable {t mid t' : TransactionTraversal} {bodies : List ActionBody}

/-! ## Diagnostics and bodies -/

/-- Between two traversals a diagnostic was added exactly if the bodies hold an `Unknown`. -/
structure Tallies (t : TransactionTraversal) (bodies : List ActionBody)
    (t' : TransactionTraversal) : Prop where
  active : t'.active = true
  added : ∃ added, t'.diagnostics = t.diagnostics ++ added ∧
    (added = [] ↔ anyUnknown bodies = false)

namespace Tallies

theorem nil (ha : t.active = true) : Tallies t [] t :=
  ⟨ha, [], by simp, by simp [anyUnknown]⟩

theorem append {m : List ActionBody}
    (h : Tallies t bodies mid) (h' : Tallies mid m t') : Tallies t (bodies ++ m) t' := by
  obtain ⟨a, ha, hi⟩ := h.added
  obtain ⟨a', ha', hi'⟩ := h'.added
  refine ⟨h'.active, a ++ a', ?_, ?_⟩
  · rw [ha', ha, append_assoc]
  · rw [append_eq_nil_iff, hi, hi', ActionBody.anyUnknown_append, Bool.or_eq_false_iff]

theorem extends_ (h : Tallies t bodies t') : t.Extends t' := by
  obtain ⟨a, ha, -⟩ := h.added
  exact ⟨⟨a, ha.symm⟩, fun _ => h.active⟩

/-- A batch holds the `Unknown`s of its legs. -/
theorem multicall (h : Tallies t bodies t') : Tallies t [.multicall bodies] t' := by
  obtain ⟨a, ha, hi⟩ := h.added
  exact ⟨h.active, a, ha, by simpa [anyUnknown, hasUnknown] using hi⟩

theorem of_diagnostics (hd : mid.diagnostics = t.diagnostics)
    (h : Tallies mid bodies t') : Tallies t bodies t' := by
  obtain ⟨a, ha, hi⟩ := h.added
  exact ⟨h.active, a, by rw [ha, hd], hi⟩

theorem of_enter {l : Option DiagnosticCode}
    (he : t.enter frame = (l, mid)) (h : Tallies mid bodies t') :
    Tallies t bodies t' :=
  h.of_diagnostics (by rw [← t.diagnostics_enter frame, he])

variable {call : PreparedCall} {body : ActionBody}

theorem of_start (h : Tallies (call.start t) bodies t') : Tallies t bodies t' := by
  apply h.of_diagnostics
  unfold PreparedCall.start
  split <;> rfl

/-- An opaque part is an `Unknown` with its diagnostic, whatever was added before. -/
theorem unknown {code : DiagnosticCode} {di : Option String}
    (ha : t.active = true) (he : t.Extends mid) (hb : UnknownOf kit input body) :
    Tallies t [body] (mid.record frame code di) := by
  obtain ⟨a, had⟩ := he.diagnostics
  obtain ⟨target, value, -, -, rfl⟩ := hb
  refine ⟨he.active ha, a ++ [⟨code, frame.path, di⟩], ?_, ?_⟩
  · rw [record, ← had, append_assoc]
  · simp [anyUnknown, hasUnknown]

theorem settle (ha : t.active = true) (hr : call.recursive = false) :
    Tallies t [body] (call.settle frame body t) := by
  unfold PreparedCall.settle
  cases hb : body.hasUnknown with
  | true =>
    refine ⟨by simp [ha, hr, record], [⟨.uninterpretedAction, frame.path,
      some call.bundleId⟩], by simp [ha, hr, record], ?_⟩
    simp [anyUnknown, hb]
  | false => exact ⟨by simp [ha], [], by simp, by simp [anyUnknown, hb]⟩

end Tallies

theorem extends_of_enter {l : Option DiagnosticCode}
    (hen : t.enter frame = (l, mid)) : t.Extends mid := by
  have he := t.extends_enter frame
  rwa [hen] at he

theorem Opaque.extends_ {ca : Bool} {index : Nat} {code : DiagnosticCode}
    (h : Opaque kit registry ca index frame input t code mid) : t.Extends mid :=
    by
  cases h with
  | childLimit _ => exact Std.Refl.refl t
  | notEntered _ he | shortCalldata _ he _ _ _ => exact extends_of_enter he
  | noRoute _ he _ _ hr _ =>
    have hf := (routeTransaction_extends _ frame).of_run hr
    exact IsTrans.trans _ _ _ (extends_of_enter he) hf

theorem active_start {call : PreparedCall} (ha : t.active = true) : (call.start t).active = true :=
  (extends_start call t).active ha

/-- In an active traversal every part of the call tree is accounted for: by
induction on how it was decoded. -/
theorem Decodes.tallies {p : CallPart} (h : Decodes kit registry p t bodies t')
    (ha : t.active = true) : Tallies t bodies t' := by
  induction h with
  | legsNil | ownNone _ | callbackEmpty _ => exact .nil ha
  | legsCons _ _ _ ihl ihr =>
    have hl := ihl ha
    exact hl.append (ihr hl.active)
  | legOpaque hw hb => exact .unknown ha hw.extends_ hb
  | legRouted _ he _ _ _ _ ih =>
    exact (ih ((extends_of_enter he).active ha)).of_enter he
  | call _ _ _ _ iho i =>
    have ho := iho (active_start ha)
    exact (ho.append (i ho.active)).of_start
  | callOpaque _ _ _ hb iho i =>
    have ho := iho (active_start ha)
    have hn := (ho.append (i ho.active)).of_start
    exact .unknown ha hn.extends_ hb
  | ownBody hs _ => exact .settle ha (by simp [PreparedCall.recursive, hs])
  | ownBatch _ _ _ ih => exact (ih ha).multicall
  | callbackOpaque _ he hb => exact .unknown ha (extends_of_enter he) hb
  | callbackLegs _ he _ _ ih =>
    exact (ih ((extends_of_enter he).active ha)).of_enter he

/-! ## The root -/

section Root

variable {call : PreparedCall} {own callback : List ActionBody}

theorem Decodes.idle (hi : t.active = false) (ht : call.traverses = false)
    (ho : Decodes kit registry (.own frame input call) t own mid)
    (hc : Decodes kit registry (.callback frame input call.bundleId
      (call.reenterCallback.getD "")) mid callback t') : t' = t := by
  simp only [PreparedCall.traverses, Bool.or_eq_false_iff, decide_eq_false_iff_not] at ht
  obtain ⟨⟨hr, hn⟩, hst⟩ := ht
  have hm : mid = t := by
    cases ho with
    | ownNone hrn => exact (hst hrn).elim
    | ownBody _ _ => simp [PreparedCall.settle, hi]
    | ownBatch hb _ _ => simp [hb.recursive] at hr
  have he : call.reenterCallback.getD "" = "" := by
    have hnn : call.callbackArg = none := by simpa [PreparedCall.hasCallback] using hn
    simp [PreparedCall.reenterCallback, hnn]
  rw [he] at hc
  cases hc with
  | callbackEmpty _ => exact hm
  | callbackOpaque hs _ _ | callbackLegs hs _ _ _ => exact (hs (by decide)).elim

theorem Decodes.started (ho : Decodes kit registry (.own frame input call) (call.start t) own mid)
    (hc : Decodes kit registry (.callback frame input call.bundleId
      (call.reenterCallback.getD "")) mid callback t')
    (ha : t'.active = true) : (call.start t).active = true := by
  by_contra hidle
  rw [Bool.not_eq_true] at hidle
  have ht : call.traverses = false := by
    by_contra ht
    rw [Bool.not_eq_false] at ht
    simp [PreparedCall.start, ht, activate] at hidle
  rw [Decodes.idle hidle ht ho hc, hidle] at ha
  cases ha

theorem Decodes.tallies_call (h : Decodes kit registry (.call frame input) t bodies t')
    (ha : t'.active = true) : Tallies t bodies t' := by
  cases h with
  | call _ ho hc _ =>
    have ht := ho.tallies (Decodes.started ho hc ha)
    exact (ht.append (hc.tallies ht.active)).of_start
  | callOpaque _ ho hc hb =>
    have hs := Decodes.started ho hc ha
    have ht := ho.tallies hs
    have hn := ht.append (hc.tallies ht.active)
    exact (Tallies.unknown hs hn.extends_ hb).of_start

end Root

variable {result : RouteResult}

/-- A complete traversal of a fresh request is one without an `Unknown`. -/
theorem Tallies.complete_iff (h : Tallies {} bodies t') (hd : result.Delivers frame bodies) :
    t'.finish.status = .complete ↔ anyUnknown result.bodies = false := by
  obtain ⟨a, ha, hi⟩ := h.added
  have hs : anyUnknown result.bodies = anyUnknown bodies := by
    cases hd with
    | inl hb => rw [hb]
    | inr hr => simp [hr.2, anyUnknown, hasUnknown]
  rw [hs, ← hi]
  simp [finish, ha]

theorem decoding_of_routeTransaction
    (h : (routeTransaction kit registry input frame).run t = (.ok result, t')) :
    result.decoding = none := by
  rw [routeTransaction_eq] at h
  simp only [routeWith, MutResult.bind_eq_ok, MutResult.pure_eq_ok] at h
  obtain ⟨_, _, _, _, _, _, _, _, _, _, _, _, _, _, _, rfl, _⟩ := h
  rfl

theorem routeRequest_eq_ok {ij : String} {d : TransactionDecoding}
    (h : routeRequest kit registry ij = .ok result)
    (hd : result.decoding = some d) :
    ∃ input r tr, (routeTransaction kit registry input .root).run {} =
        (.ok r, tr) ∧ tr.active = true ∧
      d = tr.finish ∧ result.bodies = r.bodies := by
  simp only [routeRequest, bind_eq_ok] at h
  obtain ⟨_, _, input, _, h⟩ := h
  split at h
  · cases h
  · next r tr hr =>
    refine ⟨input, r, tr, hr, ?_⟩
    cases ha : tr.active with
    | true =>
      rw [ha, if_pos rfl] at h
      cases h
      cases hd
      exact ⟨rfl, rfl, rfl⟩
    | false =>
      rw [ha, if_neg Bool.false_ne_true] at h
      cases h
      rw [decoding_of_routeTransaction hr] at hd
      cases hd

/-! ## No leg is lost -/

/-- What a registry's router keeps of every transaction it accepts. -/
structure LegsKept (kit : DecodeKit) (registry : DecoderRegistry) : Prop where
  /-- An accepted call, at any frame and in any traversal, is decoded leg by leg. -/
  decoded : ∀ input frame t result t',
    (routeTransaction kit registry input frame).run t = (.ok result, t') →
      ∃ bodies, Decodes kit registry (.call frame input) t bodies t' ∧ result.Delivers frame bodies
  /-- A container met on the way contributes one run for each element, none of
  them empty, in its order and with nothing in between. -/
  runs : ∀ callArray frame parent items t bodies t',
    Decodes kit registry (.legs callArray frame parent 0 items) t bodies t' →
      ∃ runs : List (List ActionBody), bodies = runs.flatten ∧
        List.Forall₂ (IsRun kit registry callArray frame parent) items.zipIdx runs
  /-- A leg that is not dispatched or has no route is one `Unknown` with its own data. -/
  opaque_ : ∀ callArray index frame input t code mid bodies t',
    Opaque kit registry callArray index frame input t code mid →
      Decodes kit registry (.leg callArray frame input index) t bodies t' →
        ∃ body, bodies = [body] ∧ UnknownOf kit input body
  /-- A reported status is complete exactly when no node of the tree is an `Unknown`. -/
  status : ∀ inputJson result decoding, routeRequest kit registry inputJson = .ok result →
    result.decoding = some decoding →
      (decoding.status = .complete ↔
        ∀ action ∈ result.actions, ∀ node ∈ action.body.preorder, node.isUnknown = false)

theorem anyUnknown_bodies :
    anyUnknown result.bodies = false ↔
      ∀ a ∈ result.actions, ∀ node ∈ a.body.preorder, node.isUnknown = false := by
  rw [← Bool.not_eq_true, ActionBody.anyUnknown_iff, ActionBody.preorderAll_eq_flatMap]
  constructor
  · intro hnn a ha node hn
    rw [← Bool.not_eq_true]
    intro hu
    have hb : a.body ∈ result.bodies := mem_map_of_mem ha
    exact hnn ⟨node, mem_flatMap.2 ⟨a.body, hb, hn⟩, hu⟩
  · intro hal ⟨node, hn, hu⟩
    obtain ⟨body, hb, hn⟩ := mem_flatMap.1 hn
    obtain ⟨a, ha, rfl⟩ := mem_map.1 hb
    rw [hal a ha node hn] at hu
    cases hu

/-- Two calls with the same selector, one to `0xa` and one to `0xc`. -/
def bundleArgs : Json :=
  .obj [("bundle", .arr [
    .arr [.str "0xa", .str "0x01020304"],
    .arr [.str "0xc", .str "0x01020304"]])]

def bundleKit : DecodeKit where
  parseInput _ := .ok
    { chainId := 1
      to_ := "0xb"
      selector := "0x01020304"
      calldata := "0x01020304"
      submitter := "0xe"
      submittedAt := 0 }
  addressFromStr _ := .ok 0
  u256FromDecimal _ := .ok 0
  hexDecode _ := .ok [1, 2, 3, 4]
  hexEncode _ := "01020304"
  decodeAbi _ _ := .ok bundleArgs
  decodeInputsAbiTuple _ _ := .error ""
  onchainTx _ _ _ _ _ _ := .null
  resolved _ _ _ := ∅
  derived _ := ∅
  buildActionBody _ _ _ := .ok (.domain { domain := .token, actionTag := "erc20_transfer" })
  buildArrayEmit _ _ _ _ _ _ := .error ""
  opcodeStreamDispatch _ _ := .error ⟨"", ""⟩
  buildTaggedDispatch _ _ := .error ⟨"", ""⟩
  buildParallelTaggedDispatch _ _ _ := .error ⟨"", ""⟩
  isUnresolvedMetamorphoUnderlying _ := false

def bundleManifest (strategy : String) : Json :=
  .obj [("abi_fragment", .obj [("abi", .null)]),
    ("emit", .obj [("body", .null), ("strategy", .str strategy)])]

/-- A bundler at `0xb` and a token at `0xa`. -/
def bundleRegistry : DecoderRegistry where
  bridge key :=
    if key.to_ = "0xb" then some "bundler"
    else if key.to_ = "0xa" then some "token"
    else none
  selectorBridge _ := none
  bundles id :=
    some (bundleManifest (if id = "bundler" then "multicall_call_array" else "single_emit"))

def bundleResult : RouteResult :=
  Fallible.result (routeRequest bundleKit bundleRegistry "") (by decide +kernel)

end Dambi
