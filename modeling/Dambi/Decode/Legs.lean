import Dambi.Decode.Recursion

/-!
# No leg is lost

What a transaction decodes to, as a relation between a part of its call tree,
the bodies it contributes and the traversal before and after. A container
contributes the runs of its legs one after another; a leg that is not
dispatched, or has no route, contributes one `Unknown` with its own data.
-/

namespace Dambi

open Fallible hiding bind_eq_ok
open MutResult

section Relation

variable (kit : DecodeKit) (registry : DecoderRegistry)

/-- An `Unknown` that carries a call's own chain, target, calldata and value. -/
def UnknownOf (input : RouteRequest) (body : ActionBody) : Prop :=
  ∃ target value, (∀ field, parseV3Address kit input.to_ field = .ok target) ∧
    (∀ field, parseV3U256 kit input.value field = .ok value) ∧
    body = .unknown target (chainOf input.chainId) input.calldata value

/-- Why a leg is opaque, with the traversal at the time that is known. -/
inductive Opaque (callArray : Bool) (index : Nat) (frame : TransactionFrame) (input : RouteRequest)
    (t : TransactionTraversal) : DiagnosticCode → TransactionTraversal → Prop
  | childLimit (hindex : maxMulticallChildren ≤ index) :
      Opaque callArray index frame input t .childLimit t
  | notEntered {code t'} (hindex : index < maxMulticallChildren)
      (henter : t.enter frame = (some code, t')) : Opaque callArray index frame input t code t'
  | shortCalldata {calldata t'} (hindex : index < maxMulticallChildren)
      (henter : t.enter frame = (none, t')) (hcallArray : callArray = true)
      (hcalldata : kit.hexDecode (stripHex input.calldata) = .ok calldata)
      (hshort : calldata.length < 4) : Opaque callArray index frame input t .shortCalldata t'
  | noRoute {calldata error code mid t'} (hindex : index < maxMulticallChildren)
      (henter : t.enter frame = (none, mid))
      (hcalldata : kit.hexDecode (stripHex input.calldata) = .ok calldata)
      (hlong : 4 ≤ calldata.length)
      (hroute : (routeTransaction kit registry (dispatchedChild kit input calldata) frame).run mid =
        (.error error, t'))
      (hcode : missCode error.kind = some code) : Opaque callArray index frame input t code t'

inductive CallPart where
  /-- A dispatched call. -/
  | call (frame : TransactionFrame) (input : RouteRequest)
  /-- What a call itself contributes. -/
  | own (frame : TransactionFrame) (input : RouteRequest) (call : PreparedCall)
  /-- The re-entry callback of a call, as its manifest supplied it. -/
  | callback (frame : TransactionFrame) (input : RouteRequest) (decoderId callback : String)
  /-- The elements of a container, from an index on. -/
  | legs (callArray : Bool) (frame : TransactionFrame) (parent : RouteRequest) (index : Nat)
    (items : List Json)
  /-- One element of a container. -/
  | leg (callArray : Bool) (frame : TransactionFrame) (input : RouteRequest) (index : Nat)

def PreparedCall.Batches (call : PreparedCall) (callArray : Bool) (items : List Json) : Prop :=
  if callArray then
    call.strategy = .multicallCallArray ∧
      arrayArgument "multicall_call_array" "Call[]" call.ctx.args call.emit = .ok items
  else
    call.strategy = .multicallRecurse ∧
      arrayArgument "multicall_recurse" "bytes[]" call.ctx.args call.emit = .ok items

/-- A part of the call tree contributes a list of bodies. -/
inductive Decodes : CallPart → TransactionTraversal → List ActionBody → TransactionTraversal → Prop
  -- The legs of a container stand in its order, each as a run of its own.
  | legsNil {callArray frame parent index t} :
      Decodes (.legs callArray frame parent index []) t [] t
  | legsCons {callArray frame parent index item rest input run more t mid t'}
      (hinput : legInput callArray parent index item = .ok input)
      (hleg : Decodes (.leg callArray (frame.child (legSegment callArray index)) input index) t
        run mid)
      (hrest : Decodes (.legs callArray frame parent (index + 1) rest) mid more t') :
      Decodes (.legs callArray frame parent index (item :: rest)) t (run ++ more) t'
  -- A leg is opaque or dispatched.
  | legOpaque {callArray frame input index code body t mid}
      (hwhy : Opaque kit registry callArray index frame input t code mid)
      (hbody : UnknownOf kit input body) :
      Decodes (.leg callArray frame input index) t [body] (mid.record frame code none)
  | legRouted {callArray frame input index calldata result bodies t mid t'}
      (hindex : index < maxMulticallChildren) (henter : t.enter frame = (none, mid))
      (hcalldata : kit.hexDecode (stripHex input.calldata) = .ok calldata)
      (hlong : 4 ≤ calldata.length)
      (hroute : (routeTransaction kit registry (dispatchedChild kit input calldata) frame).run mid =
        (.ok result, t'))
      (hcall : Decodes (.call frame (dispatchedChild kit input calldata)) mid bodies t') :
      Decodes (.leg callArray frame input index) t bodies t'
  -- A call contributes its own bodies and then those of its callback, and
  -- stands for itself where there are none.
  | call {frame input call own callback t mid t'}
      (hprepare : prepareCall kit registry input = .ok call)
      (hown : Decodes (.own (call.frame frame) input call) (call.start t) own mid)
      (hcallback : Decodes (.callback (call.frame frame) input call.bundleId
        (call.reenterCallback.getD "")) mid callback t')
      (hsome : own ++ callback ≠ []) :
      Decodes (.call frame input) t (own ++ callback) t'
  | callOpaque {frame input call body t mid t'}
      (hprepare : prepareCall kit registry input = .ok call)
      (hown : Decodes (.own (call.frame frame) input call) (call.start t) [] mid)
      (hcallback : Decodes (.callback (call.frame frame) input call.bundleId
        (call.reenterCallback.getD "")) mid [] t')
      (hbody : UnknownOf kit input body) :
      Decodes (.call frame input) t [body]
        (t'.record (call.frame frame) .uninterpretedAction (some call.bundleId))
  | ownNone {frame input call t} (hstrategy : call.strategy = .reenterOnly) :
      Decodes (.own frame input call) t [] t
  | ownBody {frame input call strategy body t} (hstrategy : call.strategy = .body strategy)
      (hbody : emitBody kit call.ctx call.emit input.chainId strategy = .ok body) :
      Decodes (.own frame input call) t [visibleBody call body]
        (call.settle frame (visibleBody call body) t)
  | ownBatch {callArray frame input call items actions t t'}
      (hbatch : call.Batches callArray items)
      (hlegs : Decodes (.legs callArray frame input 0 items) t actions t')
      (hsome : actions ≠ []) :
      Decodes (.own frame input call) t [.multicall actions] t'
  -- A callback is a container of its own level; one that is not entered is
  -- opaque as a whole, with its bytes in the context of the supplying call.
  | callbackEmpty {frame input decoderId callback t} (hempty : stripHex callback = "") :
      Decodes (.callback frame input decoderId callback) t [] t
  | callbackOpaque {frame input decoderId callback code body t mid}
      (hsome : stripHex callback ≠ "")
      (henter : t.enter (frame.child .callback) = (some code, mid))
      (hbody : UnknownOf kit { input with calldata := callback } body) :
      Decodes (.callback frame input decoderId callback) t [body]
        (mid.record (frame.child .callback) code (some decoderId))
  | callbackLegs {frame input decoderId callback legs bodies t mid t'}
      (hsome : stripHex callback ≠ "")
      (henter : t.enter (frame.child .callback) = (none, mid))
      (hdecoded : decodeReenterCallArray kit callback = .ok legs)
      (hlegs : Decodes (.legs true (frame.child .callback) input 0 (legs.getD [])) mid bodies t') :
      Decodes (.callback frame input decoderId callback) t bodies t'

end Relation

section Refinement

variable {kit : DecodeKit} {registry : DecoderRegistry}
variable {frame : TransactionFrame} {input : RouteRequest} {t t' : TransactionTraversal}

/-! ## Every leg has a run -/

variable {bodies : List ActionBody} {callArray : Bool} {index : Nat} {code : DiagnosticCode}

theorem Decodes.call_ne_nil
    (h : Decodes kit registry (.call frame input) t bodies t') : bodies ≠ [] := by
  cases h with
  | call _ _ _ hs => exact hs
  | callOpaque _ _ _ _ => exact List.cons_ne_nil _ _

theorem Decodes.leg_ne_nil
    (h : Decodes kit registry (.leg callArray frame input index) t bodies t') : bodies ≠ [] := by
  cases h with
  | legOpaque _ _ => exact List.cons_ne_nil _ _
  | legRouted _ _ _ _ _ hc => exact hc.call_ne_nil

def IsRun (kit : DecodeKit) (registry : DecoderRegistry) (callArray : Bool)
    (frame : TransactionFrame) (parent : RouteRequest) (element : Json × Nat)
    (run : List ActionBody) : Prop :=
  run ≠ [] ∧ ∃ input t t', legInput callArray parent element.2 element.1 = .ok input ∧
    Decodes kit registry
      (.leg callArray (frame.child (legSegment callArray element.2)) input element.2) t run t'

theorem Decodes.exists_runs {p : RouteRequest} {items : List Json}
    (h : Decodes kit registry (.legs callArray frame p index items) t bodies t') :
    ∃ runs : List (List ActionBody), bodies = runs.flatten ∧
      List.Forall₂ (IsRun kit registry callArray frame p) (items.zipIdx index) runs := by
  induction items generalizing index t bodies with
  | nil =>
    cases h
    exact ⟨[], rfl, .nil⟩
  | cons i r ih =>
    cases h with
    | legsCons hi hl hr =>
      obtain ⟨runs, hb, hru⟩ := ih hr
      rw [hb]
      exact ⟨_ :: runs, rfl, .cons ⟨hl.leg_ne_nil, _, _, _, hi, hl⟩ hru⟩

/-- A leg that is not dispatched or has no route is one `Unknown` with its own data. -/
theorem Decodes.unknown_of_undispatched {mid : TransactionTraversal}
    (hw : Opaque kit registry callArray index frame input t code mid)
    (h : Decodes kit registry (.leg callArray frame input index) t bodies t') :
    ∃ body, bodies = [body] ∧ UnknownOf kit input body := by
  cases h with
  | legOpaque _ hb => exact ⟨_, rfl, hb⟩
  | legRouted hi he hc hlo hr _ =>
    -- No reason for an opaque leg holds of one that was routed.
    cases hw with
    | childLimit hl => omega
    | notEntered _ he' =>
      rw [he] at he'
      cases he'
    | shortCalldata _ _ _ hc' hs =>
      rw [hc] at hc'
      cases hc'
      omega
    | noRoute _ he' hc' _ hr' _ =>
      rw [hc] at hc'
      rw [he] at he'
      cases hc'
      cases he'
      rw [hr] at hr'
      cases hr'

/-! ## The router follows the relation -/

variable {body : ActionBody}

theorem unknownOf_of_unknownChildLeg {context : String}
    (h : unknownChildLeg kit input.chainId input.to_ input.calldata input.value context = .ok body)
    : UnknownOf kit input body := by
  simp only [unknownChildLeg, Fallible.bind_eq_ok, mapError_eq_ok] at h
  obtain ⟨target, ht, value, hv, hb⟩ := h
  cases hb
  refine ⟨target, value, ?_, ?_, rfl⟩
  · intro field
    exact mapError_eq_ok.2 (mapError_eq_ok.1 ht)
  · intro field
    by_cases he : input.value = ""
    · rw [parseV3U256, if_pos he] at hv ⊢
      exact hv
    · rw [parseV3U256, if_neg he] at hv ⊢
      exact mapError_eq_ok.2 (mapError_eq_ok.1 hv)

theorem opaqueCall_eq_ok {decoderId : Option String}
    (h : (opaqueCall kit input frame code decoderId).run t = (.ok body, t')) :
    UnknownOf kit input body ∧ t' = t.record frame code decoderId := by
  simp only [opaqueCall, bind_eq_ok, lift_eq_ok, update_eq_ok,
    pure_eq_ok] at h
  obtain ⟨_, _, ⟨hb, rfl⟩, _, _, hr, rfl, rfl⟩ := h
  cases hr
  exact ⟨unknownOf_of_unknownChildLeg hb, rfl⟩

/-- The bodies of a call, as its result delivers them: the root of a traversal
wraps them in one batch. -/
def RouteResult.Delivers (result : RouteResult) (frame : TransactionFrame)
    (bodies : List ActionBody) : Prop :=
  result.bodies = bodies ∨ frame.path = [] ∧ result.bodies = [.multicall bodies]

/-- The router follows the relation at a frame. -/
def DecodesAt (kit : DecodeKit) (registry : DecoderRegistry) (frame : TransactionFrame) : Prop :=
  ∀ input t result t', (routeTransaction kit registry input frame).run t = (.ok result, t') →
    ∃ bodies, Decodes kit registry (.call frame input) t bodies t' ∧ result.Delivers frame bodies

theorem opaque_of_childLimit (h : (childLimit frame index).run t = (.ok (some code), t')) :
    Opaque kit registry callArray index frame input t code t' := by
  unfold childLimit at h
  split at h
  · next hi =>
    cases h
    exact .childLimit hi
  · next hi => exact .notEntered (Nat.lt_of_not_le hi) (update_eq_ok.1 h)

section Leg

variable {callArray : Bool} {index : Nat} {run : List ActionBody}

variable {mid : TransactionTraversal}

theorem decodes_undispatched (hw : Opaque kit registry callArray index frame input t code mid)
    (h : (do return [← opaqueCall kit input frame code none] : RouteM _).run mid = (.ok run, t')) :
    Decodes kit registry (.leg callArray frame input index) t run t' := by
  simp only [bind_eq_ok, pure_eq_ok] at h
  obtain ⟨body, _, hc, rfl, rfl⟩ := h
  obtain ⟨hb, rfl⟩ := opaqueCall_eq_ok hc
  exact .legOpaque hw hb

/-- A leg sits below the root, so that its result is its bodies. -/
theorem decodes_dispatched {c : List UInt8}
    (ha : DecodesAt kit registry frame) (hp : frame.path ≠ [])
    (hi : index < maxMulticallChildren) (he : t.enter frame = (none, mid))
    (hca : kit.hexDecode (stripHex input.calldata) = .ok c) (hl : 4 ≤ c.length)
    (h : (dispatchChild kit (routeTransaction kit registry) input frame index callArray
      c).run mid = (.ok run, t')) :
    Decodes kit registry (.leg callArray frame input index) t run t' := by
  simp only [dispatchChild, bind_eq_ok, attempt_eq_ok] at h
  obtain ⟨result, l, hro, h⟩ := h
  cases result with
  | ok result =>
    obtain ⟨bodies, hc, hd⟩ := ha _ _ _ _ hro
    obtain ⟨hr, rfl⟩ := lift_eq_ok.1 h
    have hb : run = bodies := by
      unfold childBodies at hr
      split at hr
      · cases hr
      · cases hr
        exact hd.resolve_right fun hrt => hp hrt.1
    rw [hb]
    exact .legRouted hi he hca hl hro hc
  | error error =>
    cases hco : missCode error.kind with
    | some code =>
      simp only [hco] at h
      exact decodes_undispatched (.noRoute hi he hca hl hro hco) h
    | none =>
      simp only [hco] at h
      exact (fail_eq_ok.1 h).elim

theorem decodes_leg (ha : frame.path.length ≤ maxTransactionDepth → DecodesAt kit registry frame)
    (hp : frame.path ≠ [])
    (h : (processMulticallChild kit (routeTransaction kit registry) input frame index
      callArray).run t = (.ok run, t')) :
    Decodes kit registry (.leg callArray frame input index) t run t' := by
  rw [processMulticallChild, bind_eq_ok] at h
  obtain ⟨l, mid, hl, h⟩ := h
  cases l with
  | some code => exact decodes_undispatched (opaque_of_childLimit hl) h
  | none =>
    obtain ⟨hi, he⟩ := enter_of_childLimit hl
    obtain ⟨c, _, hlf, hr⟩ := bind_eq_ok.1 h
    obtain ⟨hd, rfl⟩ := lift_eq_ok.1 hlf
    have hc := mapError_eq_ok.1 hd
    by_cases hs : c.length < 4
    · rw [if_pos hs] at hr
      cases callArray with
      | true => exact decodes_undispatched (.shortCalldata hi he rfl hc hs) hr
      | false => exact (fail_eq_ok.1 hr).elim
    · rw [if_neg hs] at hr
      exact decodes_dispatched (ha (length_path_le_of_enter he)) hp hi he hc
        (Nat.le_of_not_lt hs) hr

end Leg

section Call

variable {call : PreparedCall} {bodies : List ActionBody}

variable {callArray : Bool} {items : List Json}

/-- The loop over a container follows the relation, by induction on what is left of it. -/
theorem decodes_legs (hb : Below frame (DecodesAt kit registry))
    (h : (processLegs kit (routeTransaction kit registry) callArray input frame index items).run t =
      (.ok bodies, t')) :
    Decodes kit registry (.legs callArray frame input index items) t bodies t' := by
  induction items generalizing index t bodies with
  | nil =>
    obtain ⟨rfl, rfl⟩ := pure_eq_ok.1 h
    exact .legsNil
  | cons i r ih =>
    simp only [processLegs, bind_eq_ok, lift_eq_ok, pure_eq_ok] at h
    obtain ⟨leg, _, ⟨hi, rfl⟩, run, mid, hc, m, _, hr, rfl, rfl⟩ := h
    have hl := decodes_leg (hb (frame.child (legSegment callArray index)) (by simp))
      (by simp [TransactionFrame.child]) hc
    exact .legsCons hi hl (ih hr)

variable {di : String} {body : ActionBody} {mid : TransactionTraversal}

theorem decodes_callback {c : String} (hbe : Below frame (DecodesAt kit registry))
    (h : (processReenterCallback kit (routeTransaction kit registry) input c di
      frame).run t = (.ok bodies, t')) :
    Decodes kit registry (.callback frame input di c) t bodies t' := by
  unfold processReenterCallback at h
  split at h
  · next hem =>
    obtain ⟨rfl, rfl⟩ := pure_eq_ok.1 h
    exact .callbackEmpty hem
  · next hs =>
    obtain ⟨l, mid, hu, hr⟩ := bind_eq_ok.1 h
    have he := update_eq_ok.1 hu
    cases l with
    | some code =>
      obtain ⟨body, _, hc, hp⟩ := bind_eq_ok.1 hr
      obtain ⟨rfl, rfl⟩ := pure_eq_ok.1 hp
      obtain ⟨hb, rfl⟩ := opaqueCall_eq_ok hc
      exact .callbackOpaque hs he hb
    | none =>
      obtain ⟨ls, _, hlf, hl⟩ := bind_eq_ok.1 hr
      obtain ⟨hd, rfl⟩ := lift_eq_ok.1 hlf
      cases ls with
      | some ls =>
        exact .callbackLegs hs he hd (decodes_legs (hbe.child .callback) hl)
      | none =>
        obtain ⟨rfl, rfl⟩ := pure_eq_ok.1 hl
        exact .callbackLegs hs he hd .legsNil

theorem decodes_callbackBodies (hb : Below frame (DecodesAt kit registry))
    (h : (callbackBodies kit (routeTransaction kit registry) input call frame).run t =
      (.ok bodies, t')) :
    Decodes kit registry
      (.callback frame input call.bundleId (call.reenterCallback.getD "")) t bodies t' := by
  unfold callbackBodies at h
  cases hc : call.reenterCallback with
  | some c =>
    rw [hc] at h
    exact decodes_callback hb h
  | none =>
    rw [hc] at h
    obtain ⟨rfl, rfl⟩ := pure_eq_ok.1 h
    exact .callbackEmpty (by decide)

theorem settle_eq_ok
    (h : (do return [← settleBody call frame body] : RouteM _).run t = (.ok bodies, t')) :
    bodies = [visibleBody call body] ∧ t' = call.settle frame (visibleBody call body) t := by
  simp only [settleBody, bind_eq_ok, update_eq_ok, pure_eq_ok] at h
  obtain ⟨_, _, hs, rfl, rfl⟩ := h
  cases hs
  exact ⟨rfl, rfl⟩

theorem PreparedCall.Batches.recursive
    (h : call.Batches callArray items) : call.recursive = true := by
  unfold PreparedCall.Batches at h
  split at h <;> simp [PreparedCall.recursive, h.1]

theorem decodes_batch {actions : List ActionBody} {s : String} (hba : call.Batches callArray items)
    (hl : Decodes kit registry (.legs callArray frame input 0 items) t actions mid)
    (hb : batch s actions = .ok body)
    (h : (do return [← settleBody call frame body] : RouteM _).run mid = (.ok bodies, t')) :
    Decodes kit registry (.own frame input call) t bodies t' := by
  unfold batch at hb
  split at hb
  · cases hb
  · next hso =>
    cases hb
    obtain ⟨rfl, rfl⟩ := settle_eq_ok h
    have ha : actions ≠ [] := by simpa using hso
    have hv : visibleBody call (.multicall actions) = .multicall actions := by
      cases actions with
      | nil => exact (ha rfl).elim
      | cons body r => rfl
    have hs : call.settle frame (.multicall actions) mid = mid := by
      simp [PreparedCall.settle, hba.recursive]
    rw [hv, hs]
    exact .ownBatch hba hl ha

theorem decodes_own (hbe : Below frame (DecodesAt kit registry))
    (h : (buildBody kit (routeTransaction kit registry) input call frame).run t =
      (.ok bodies, t')) : Decodes kit registry (.own frame input call) t bodies t' := by
  unfold buildBody at h
  split at h
  · next hs =>
    obtain ⟨rfl, rfl⟩ := pure_eq_ok.1 h
    exact .ownNone hs
  · next hs =>
    obtain ⟨body, _, hlf, hse⟩ := bind_eq_ok.1 h
    obtain ⟨hb, rfl⟩ := lift_eq_ok.1 hlf
    obtain ⟨rfl, rfl⟩ := settle_eq_ok hse
    exact .ownBody hs hb
  · next hs =>
    obtain ⟨body, mid, hbu, hse⟩ := bind_eq_ok.1 h
    simp only [buildMulticallRecurseBody, bind_eq_ok, lift_eq_ok] at hbu
    obtain ⟨_, _, ⟨-, rfl⟩, items, _, ⟨hi, rfl⟩, acs, _, hl, hb, rfl⟩ := hbu
    have hba : call.Batches false items := ⟨hs, hi⟩
    exact decodes_batch hba (decodes_legs hbe hl) hb hse
  · next hs =>
    obtain ⟨body, mid, hbu, hse⟩ := bind_eq_ok.1 h
    simp only [buildMulticallCallArrayBody, processCallLegs, bind_eq_ok,
      lift_eq_ok] at hbu
    obtain ⟨items, _, ⟨hi, rfl⟩, acs, _, hl, hb, rfl⟩ := hbu
    have hba : call.Batches true items := ⟨hs, hi⟩
    exact decodes_batch hba (decodes_legs hbe hl) hb hse

theorem delivers_wrapActions {c : Option String} :
    RouteResult.Delivers ⟨wrapActions call (call.frame frame) bodies, di, c, none⟩
      frame bodies := by
  unfold wrapActions RouteResult.Delivers RouteResult.bodies
  split
  · next hr =>
    rw [Bool.and_eq_true, path_frame, List.isEmpty_iff] at hr
    exact .inr ⟨hr.1, rfl⟩
  · exact .inl (by simp [Function.comp_def])

theorem Decodes.own_ne_nil (h : Decodes kit registry (.own frame input call) t bodies t')
    (hs : call.strategy ≠ .reenterOnly) : bodies ≠ [] := by
  cases h with
  | ownNone hr => exact (hs hr).elim
  | ownBody _ _ | ownBatch _ _ _ => exact List.cons_ne_nil _ _

theorem decodes_visible {own c : List ActionBody} {l : TransactionTraversal}
    (hp : prepareCall kit registry input = .ok call)
    (ho : Decodes kit registry (.own (call.frame frame) input call) (call.start t) own mid)
    (hc : Decodes kit registry (.callback (call.frame frame) input call.bundleId
      (call.reenterCallback.getD "")) mid c l)
    (h : (visibleBodies kit input call (call.frame frame) (own ++ c)).run l = (.ok bodies, t')) :
    Decodes kit registry (.call frame input) t bodies t' := by
  unfold visibleBodies at h
  split at h
  · next hno =>
    obtain ⟨rfl, rfl⟩ := List.append_eq_nil_iff.1 (List.isEmpty_iff.1 hno.2)
    simp only [bind_eq_ok, lift_eq_ok, update_eq_ok,
      pure_eq_ok] at h
    obtain ⟨_, _, hr, body, _, ⟨hb, rfl⟩, rfl, rfl⟩ := h
    cases hr
    exact .callOpaque hp ho hc (unknownOf_of_unknownChildLeg hb)
  · next hso =>
    obtain ⟨rfl, rfl⟩ := pure_eq_ok.1 h
    refine .call hp ho hc ?_
    by_cases hs : call.strategy = .reenterOnly
    · intro hn
      exact hso ⟨hs, List.isEmpty_iff.2 hn⟩
    · exact List.append_ne_nil_of_left_ne_nil (ho.own_ne_nil hs) _

theorem decodesAt_of_below (hb : Below frame (DecodesAt kit registry)) :
    DecodesAt kit registry frame := by
  intro input t result t' h
  rw [routeTransaction_eq] at h
  simp only [routeWith, bind_eq_ok, lift_eq_ok, update_eq_ok,
    pure_eq_ok] at h
  obtain ⟨call, _, ⟨hp, rfl⟩, _, _, hs, own, mid, ho, c, l, hc, bodies, _, hv, rfl, rfl⟩ := h
  cases hs
  have hb' := hb.of_path (path_frame call frame)
  have ho' := decodes_own hb' ho
  have hc' := decodes_callbackBodies hb' hc
  exact ⟨bodies, decodes_visible hp ho' hc' hv, delivers_wrapActions⟩

theorem decodesAt (frame : TransactionFrame) : DecodesAt kit registry frame :=
  Below.induction (fun _ => decodesAt_of_below) frame

end Call

end Refinement

end Dambi
