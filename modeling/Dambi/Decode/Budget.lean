import Dambi.Decode.Legs

/-!
# The budget of a traversal

The nodes that one request enters, as a relation that follows every run of the
router, the failing ones included. Each of them is counted once, lies within
the depth limit of its own frame, and that limit only shrinks from a call to the
calls below it.
-/

namespace Dambi

open MutResult List TransactionTraversal

/-- A call above a node: the frame it was dispatched at, and what its manifest made of it. -/
structure CallAbove where
  frame : TransactionFrame
  call : PreparedCall

namespace CallAbove

def below (above : CallAbove) : TransactionFrame := above.call.frame above.frame

/-- The depth a manifest allows below its own call. -/
def maxDepth (above : CallAbove) : Option Nat :=
  (above.call.emit.get? "max_depth").bind Json.asU64

end CallAbove

/-- A node that was entered, with the calls above it, the nearest first. -/
structure Visit where
  above : List CallAbove
  frame : TransactionFrame

/-- Only diagnostics are written. -/
def SameNodes (t t' : TransactionTraversal) : Prop := t'.nodes = t.nodes

instance : Std.Refl SameNodes := ⟨fun _ => rfl⟩

instance : IsTrans TransactionTraversal SameNodes := ⟨fun _ _ _ h h' => h'.trans h⟩

/-! ## The nodes of a run -/

/-- A part of the traversal; the frame of a call is the one it was dispatched at. -/
inductive RoutePart where
  | call (frame : TransactionFrame) (input : RouteRequest)
  /-- What a call itself emits. -/
  | own (frame : TransactionFrame) (input : RouteRequest) (call : PreparedCall)
  /-- The re-entry callback of a call. -/
  | callback (frame : TransactionFrame) (input : RouteRequest) (call : PreparedCall)
  /-- The elements of a container, from an index on. -/
  | legs (callArray : Bool) (frame : TransactionFrame) (parent : RouteRequest) (index : Nat)
    (items : List Json)
  /-- One element of a container. -/
  | leg (callArray : Bool) (frame : TransactionFrame) (input : RouteRequest) (index : Nat)

section Relation

variable (kit : DecodeKit) (registry : DecoderRegistry)

/-- A part of the traversal enters a list of nodes, and succeeds or fails. -/
inductive Enters : List CallAbove → RoutePart → TransactionTraversal → List Visit →
    TransactionTraversal → Bool → Prop
  -- The elements of a container follow one another until one fails.
  | legsNil {above callArray frame parent index t} :
      Enters above (.legs callArray frame parent index []) t [] t true
  | legsUnread {above callArray frame parent index item rest error t}
      (hinput : legInput callArray parent index item = .error error) :
      Enters above (.legs callArray frame parent index (item :: rest)) t [] t false
  | legsFail {above callArray frame parent index item rest input visits t t'}
      (hinput : legInput callArray parent index item = .ok input)
      (hleg : Enters above (.leg callArray (frame.child (legSegment callArray index)) input index)
        t visits t' false) :
      Enters above (.legs callArray frame parent index (item :: rest)) t visits t' false
  | legsCons {above callArray frame parent index item rest input visits more t mid t' ok}
      (hinput : legInput callArray parent index item = .ok input)
      (hleg : Enters above (.leg callArray (frame.child (legSegment callArray index)) input index)
        t visits mid true)
      (hrest : Enters above (.legs callArray frame parent (index + 1) rest) mid more t' ok) :
      Enters above (.legs callArray frame parent index (item :: rest)) t (visits ++ more) t' ok
  -- An element over a limit is not entered; one that is entered is dispatched
  -- if it has a selector.
  | legRefused {above callArray frame input index t t' ok}
      (hlimit : maxMulticallChildren ≤ index ∨ ∃ code, (t.enter frame).1 = some code)
      (hsame : SameNodes t t') :
      Enters above (.leg callArray frame input index) t [] t' ok
  | legOpaque {above callArray frame input index t mid t' ok}
      (hindex : index < maxMulticallChildren) (henter : t.enter frame = (none, mid))
      (hshort : ∀ calldata, kit.hexDecode (stripHex input.calldata) = .ok calldata →
        calldata.length < 4)
      (hsame : SameNodes mid t') :
      Enters above (.leg callArray frame input index) t [⟨above, frame⟩] t' ok
  | legDispatched {above callArray frame input index calldata visits result t mid last t' called ok}
      (hindex : index < maxMulticallChildren) (henter : t.enter frame = (none, mid))
      (hcalldata : kit.hexDecode (stripHex input.calldata) = .ok calldata)
      (hroute : (routeTransaction kit registry (dispatchedChild kit input calldata) frame).run mid =
        (result, last))
      (hcall : Enters above (.call frame (dispatchedChild kit input calldata)) mid visits last
        called)
      (hsame : SameNodes last t') :
      Enters above (.leg callArray frame input index) t (⟨above, frame⟩ :: visits) t' ok
  -- A call emits its own body and then traverses its callback.
  | callUnprepared {above frame input error t}
      (hprepare : prepareCall kit registry input = .error error) :
      Enters above (.call frame input) t [] t false
  | callFail {above frame input call visits t t'}
      (hprepare : prepareCall kit registry input = .ok call)
      (hown : Enters above (.own frame input call) (call.start t) visits t' false) :
      Enters above (.call frame input) t visits t' false
  | call {above frame input call visits more t mid last t' done ok}
      (hprepare : prepareCall kit registry input = .ok call)
      (hown : Enters above (.own frame input call) (call.start t) visits mid true)
      (hcallback : Enters above (.callback frame input call) mid more last done)
      (hsame : SameNodes last t') :
      Enters above (.call frame input) t (visits ++ more) t' ok
  | ownSelf {above frame input call t t' ok} (hstrategy : call.recursive = false)
      (hsame : SameNodes t t') : Enters above (.own frame input call) t [] t' ok
  | ownUnread {above frame input call t} (hstrategy : call.recursive = true) :
      Enters above (.own frame input call) t [] t false
  | ownBatch {above callArray frame input call items visits t mid t' done ok}
      (hbatch : call.Batches callArray items)
      (hlegs : Enters (⟨frame, call⟩ :: above) (.legs callArray (call.frame frame) input 0 items) t
        visits mid done)
      (hsame : SameNodes mid t') :
      Enters above (.own frame input call) t visits t' ok
  | callbackNone {above frame input call t}
      (hnone : stripHex (call.reenterCallback.getD "") = "") :
      Enters above (.callback frame input call) t [] t true
  | callbackRefused {above frame input call callback code t t' ok}
      (hcallback : call.reenterCallback = some callback)
      (henter : (t.enter ((call.frame frame).child .callback)).1 = some code)
      (hsame : SameNodes t t') : Enters above (.callback frame input call) t [] t' ok
  | callbackOpaque {above frame input call callback t t' ok}
      (hcallback : call.reenterCallback = some callback)
      (henter : t.enter ((call.frame frame).child .callback) = (none, t'))
      (hlegs : ∀ legs, decodeReenterCallArray kit callback ≠ .ok (some legs)) :
      Enters above (.callback frame input call) t
        [⟨⟨frame, call⟩ :: above, (call.frame frame).child .callback⟩] t' ok
  | callbackLegs {above frame input call callback legs visits t mid t' ok}
      (hcallback : call.reenterCallback = some callback)
      (henter : t.enter ((call.frame frame).child .callback) = (none, mid))
      (hdecoded : decodeReenterCallArray kit callback = .ok (some legs))
      (hlegs : Enters (⟨frame, call⟩ :: above)
        (.legs true ((call.frame frame).child .callback) input 0 legs) mid visits t' ok) :
      Enters above (.callback frame input call) t
        (⟨⟨frame, call⟩ :: above, (call.frame frame).child .callback⟩ :: visits) t' ok

end Relation

/-! ## What the relation bounds -/

variable {above : List CallAbove}

theorem nodes_of_enter {frame : TransactionFrame} {t t' : TransactionTraversal}
    (h : t.enter frame = (none, t')) :
    t.nodes < maxTransactionNodes ∧ t'.nodes = t.nodes + 1 := by
  unfold enter at h
  split at h
  · cases h
  · split at h
    · cases h
    · next hn =>
      cases h
      exact ⟨Nat.lt_of_not_le hn, rfl⟩

theorem nodes_start (call : PreparedCall) (t : TransactionTraversal) :
    (call.start t).nodes = t.nodes := by
  unfold PreparedCall.start
  split <;> rfl

section Bounds

variable {kit : DecodeKit} {registry : DecoderRegistry} {above : List CallAbove} {part : RoutePart}
  {t t' : TransactionTraversal} {visits : List Visit} {ok : Bool}

/-- The nodes are counted, and their number never passes the limit. -/
theorem Enters.nodes (h : Enters kit registry above part t visits t' ok) :
    t'.nodes = t.nodes + visits.length ∧
      (t.nodes ≤ maxTransactionNodes → t'.nodes ≤ maxTransactionNodes) := by
  induction h with
  | legsNil | legsUnread | callUnprepared | ownUnread | callbackNone => exact ⟨rfl, id⟩
  | legsFail _ _ ih => exact ih
  | legsCons _ _ _ ihl ihr =>
    rw [length_append]
    omega
  | legRefused _ hs | ownSelf _ hs | callbackRefused _ _ hs => exact ⟨hs, hs.le.trans⟩
  | legOpaque _ he _ hs =>
    have hn := nodes_of_enter he
    unfold SameNodes at hs
    rw [length_singleton]
    omega
  | legDispatched _ he _ _ _ hs ih =>
    have hn := nodes_of_enter he
    unfold SameNodes at hs
    rw [length_cons]
    omega
  | callFail _ _ ih => rwa [nodes_start] at ih
  | call _ _ _ hs iho i =>
    unfold SameNodes at hs
    rw [nodes_start] at iho
    rw [length_append]
    omega
  | ownBatch _ _ hs ih => exact ⟨Eq.trans hs ih.1, fun ht => hs.le.trans (ih.2 ht)⟩
  | callbackOpaque _ he _ =>
    have hn := nodes_of_enter he
    rw [length_singleton]
    omega
  | callbackLegs _ he _ _ ih =>
    have hn := nodes_of_enter he
    rw [length_cons]
    omega

end Bounds

/-- The calls above a frame: each is on its path, and the limits only shrink on the way down. -/
structure Inherits (above : List CallAbove) (frame : TransactionFrame) : Prop where
  onPath : ∀ a ∈ above, a.frame.path <+: frame.path
  traverses : ∀ a ∈ above, a.call.traverses = true
  limits : ∀ a ∈ above, frame.depthLimit ≤ a.below.depthLimit
  shrink : above.Pairwise fun lower upper => lower.below.depthLimit ≤ upper.below.depthLimit

namespace Inherits

variable {above : List CallAbove} {frame : TransactionFrame}

theorem nil (frame : TransactionFrame) : Inherits [] frame := ⟨nofun, nofun, nofun, .nil⟩

theorem child {frame : TransactionFrame} (h : Inherits above frame) (s : CallPath) :
    Inherits above (frame.child s) :=
  ⟨fun a ha => (h.onPath a ha).trans (prefix_append _ _), h.traverses, h.limits, h.shrink⟩

theorem depthLimit_frame_le (call : PreparedCall) (frame : TransactionFrame) :
    (call.frame frame).depthLimit ≤ frame.depthLimit := by
  unfold PreparedCall.frame
  split
  · exact min_le_left _ _
  · exact le_rfl

theorem cons {frame : TransactionFrame} {call : PreparedCall} (h : Inherits above frame)
    (hc : call.traverses = true) :
    Inherits (⟨frame, call⟩ :: above) (call.frame frame) := by
  have hl := depthLimit_frame_le call frame
  refine ⟨?_, ?_, ?_, pairwise_cons.2 ⟨fun a ha => hl.trans (h.limits a ha), h.shrink⟩⟩
  · rw [path_frame]
    exact forall_mem_cons.2 ⟨prefix_rfl, h.onPath⟩
  · exact forall_mem_cons.2 ⟨hc, h.traverses⟩
  · exact forall_mem_cons.2 ⟨le_rfl, fun a ha => hl.trans (h.limits a ha)⟩

end Inherits

theorem CallAbove.depthLimit_below_le {n : Nat} {a : CallAbove} (ht : a.call.traverses = true)
    (h : a.maxDepth = some n) : a.below.depthLimit ≤ a.frame.path.length + n := by
  unfold CallAbove.below PreparedCall.frame
  rw [if_pos ht]
  unfold maxDepth at h
  simp only [TransactionFrame.withManifest, h, Option.getD_some]
  omega

/-- The limits a node keeps. -/
structure Visit.Within (v : Visit) : Prop where
  depth : v.frame.path.length ≤ maxTransactionDepth
  onPath : ∀ a ∈ v.above, a.frame.path <+: v.frame.path
  /-- The depth limit each call above has left for the calls below it, and the number in its
  manifest. -/
  limits : ∀ a ∈ v.above, v.frame.path.length ≤ a.below.depthLimit
  manifests : ∀ a ∈ v.above, ∀ n, a.maxDepth = some n →
    v.frame.path.length ≤ a.frame.path.length + n
  /-- From the root down, the limit never grows. -/
  shrink : (v.frame.depthLimit :: v.above.map (·.below.depthLimit)).Pairwise (· ≤ ·)

theorem Inherits.within {frame : TransactionFrame} {t t' : TransactionTraversal}
    (h : Inherits above frame)
    (he : t.enter frame = (none, t')) : Visit.Within ⟨above, frame⟩ := by
  have hl := le_depthLimit_of_enter he
  refine ⟨hl.trans frame.bounded, h.onPath, fun a ha => hl.trans (h.limits a ha),
    fun a ha n hn => ?_, ?_⟩
  · exact (hl.trans (h.limits a ha)).trans (a.depthLimit_below_le (h.traverses a ha) hn)
  · rw [pairwise_cons, forall_mem_map, pairwise_map]
    exact ⟨h.limits, h.shrink⟩

def RoutePart.frame : RoutePart → TransactionFrame
  | .call frame _ => frame
  | .own frame _ _ => frame
  | .callback frame _ _ => frame
  | .legs _ frame _ _ _ => frame
  | .leg _ frame _ _ => frame

theorem PreparedCall.traverses_of_callback {call : PreparedCall} {c : String}
    (h : call.reenterCallback = some c) : call.traverses = true := by
  obtain ⟨arg, ha, -⟩ := Option.bind_eq_some_iff.1 h
  simp [traverses, hasCallback, ha]

theorem Enters.within {kit : DecodeKit} {registry : DecoderRegistry} {t : TransactionTraversal}
    {visits : List Visit} {t' : TransactionTraversal} {ok : Bool}
    {part : RoutePart} (h : Enters kit registry above part t visits t' ok)
    (hp : Inherits above part.frame) : ∀ v ∈ visits, v.Within := by
  induction h with
  | legsNil | legsUnread | legRefused | callUnprepared | ownSelf | ownUnread | callbackNone
  | callbackRefused => exact nofun
  | legsFail _ _ ih => exact ih (hp.child _)
  | legsCons _ _ _ ihl ihr =>
    exact forall_mem_append.2 ⟨ihl (hp.child _), ihr hp⟩
  | legOpaque _ he => exact forall_mem_singleton.2 (hp.within he)
  | legDispatched _ he _ _ _ _ ih =>
    exact forall_mem_cons.2 ⟨hp.within he, ih hp⟩
  | callFail _ _ ih => exact ih hp
  | call _ _ _ _ iho i =>
    exact forall_mem_append.2 ⟨iho hp, i hp⟩
  | ownBatch hba _ _ ih =>
    exact ih (hp.cons (by simp [PreparedCall.traverses, hba.recursive]))
  | callbackOpaque hc he _ =>
    have hb := hp.cons (PreparedCall.traverses_of_callback hc)
    exact forall_mem_singleton.2 ((hb.child _).within he)
  | callbackLegs hc he _ _ ih =>
    have hb := (hp.cons (PreparedCall.traverses_of_callback hc)).child .callback
    exact forall_mem_cons.2 ⟨hb.within he, ih hb⟩

/-! ## Every run follows the relation -/

section Refinement

variable {kit : DecodeKit} {registry : DecoderRegistry}
variable {frame : TransactionFrame} {input : RouteRequest} {t t' : TransactionTraversal}

section

variable (input : RouteRequest) (frame : TransactionFrame) (code : DiagnosticCode)
  (di : Option String)

theorem sameNodes_opaqueLeg :
    Moves SameNodes (do return [← opaqueCall kit input frame code di] : RouteM _) :=
  .bind (.bind (.lift _) fun _ => .bind (.update fun _ => rfl) fun _ => .pure _) fun _ => .pure _

end

theorem sameNodes_settleBody (call : PreparedCall) (frame : TransactionFrame) (body : ActionBody) :
    Moves SameNodes (do return [← settleBody call frame body] : RouteM _) := by
  refine .bind (.update fun t => ?_) fun _ => .pure _
  dsimp only [PreparedCall.settle]
  split <;> rfl

theorem sameNodes_visibleBodies (input : RouteRequest) (call : PreparedCall)
    (frame : TransactionFrame) (bodies : List ActionBody) :
    Moves SameNodes (visibleBodies kit input call frame bodies) := by
  unfold visibleBodies
  split
  · exact .bind (.update fun _ => rfl) fun _ => .bind (.lift _) fun _ => .pure _
  · exact .pure _

/-- The calls at a frame follow the relation, however they end. -/
def EntersAt (kit : DecodeKit) (registry : DecoderRegistry) (frame : TransactionFrame) : Prop :=
  ∀ above input t result t', (routeTransaction kit registry input frame).run t = (result, t') →
    ∃ visits ok, Enters kit registry above (.call frame input) t visits t' ok

section Leg

variable {above : List CallAbove} {callArray : Bool} {index : Nat}
  {result : Except EngineError (List ActionBody)}

variable {mid : TransactionTraversal}

variable {code : DiagnosticCode}

theorem enter_refused (h : t.enter frame = (some code, mid)) : mid = t := by
  unfold enter at h
  split at h
  · cases h
    rfl
  · split at h
    · cases h
      rfl
    · cases h

theorem refused_of_childLimit (h : (childLimit frame index).run t = (.ok (some code), mid)) :
    (maxMulticallChildren ≤ index ∨ ∃ code, (t.enter frame).1 = some code) ∧ mid = t := by
  unfold childLimit at h
  split at h
  · next hi =>
    cases h
    exact ⟨.inl hi, rfl⟩
  · have he := MutResult.update_eq_ok.1 h
    exact ⟨.inr ⟨code, by rw [he]⟩, enter_refused he⟩

/-- What is left of an element once its call has returned writes diagnostics only. -/
theorem dispatchChild_cases {ca : List UInt8}
    (h : (dispatchChild kit (routeTransaction kit registry) input frame index callArray
      ca).run mid = (result, t')) :
    ∃ c l, (routeTransaction kit registry (dispatchedChild kit input ca) frame).run
      mid = (c, l) ∧ SameNodes l t' := by
  obtain ⟨error, hro, -⟩ | ⟨c, l, hro, hr⟩ := bind_run h
  · cases hro
  · refine ⟨c, l, MutResult.attempt_eq_ok.1 hro, ?_⟩
    cases c with
    | ok c => exact congrArg _ (lift_run.1 hr).2
    | error error =>
      cases hc : missCode error.kind with
      | some code =>
        simp only [hc] at hr
        exact (sameNodes_opaqueLeg ..).of_run hr
      | none =>
        simp only [hc] at hr
        cases hr
        rfl

theorem enters_leg (ha : frame.path.length ≤ maxTransactionDepth → EntersAt kit registry frame)
    (h : (processMulticallChild kit (routeTransaction kit registry) input frame index
      callArray).run t = (result, t')) :
    ∃ visits, Enters kit registry above (.leg callArray frame input index) t visits t'
      result.isOk := by
  obtain ⟨e, hl, -⟩ | ⟨l, mid, hl, hlo⟩ := bind_run h
  · unfold childLimit at hl
    split at hl <;> cases hl
  · cases l with
    | some code =>
      obtain ⟨hrf, rfl⟩ := refused_of_childLimit hl
      exact ⟨[], .legRefused hrf ((sameNodes_opaqueLeg ..).of_run hlo)⟩
    | none =>
      obtain ⟨hi, he⟩ := enter_of_childLimit hl
      obtain ⟨e, hlf, -⟩ | ⟨c, _, hlf, hr⟩ := bind_run hlo
      · obtain ⟨hd, rfl⟩ := lift_run.1 hlf
        refine ⟨_, .legOpaque hi he (fun c hc => ?_) rfl⟩
        rw [hc] at hd
        cases hd
      · obtain ⟨hd, rfl⟩ := lift_eq_ok.1 hlf
        have hc := Fallible.mapError_eq_ok.1 hd
        by_cases hs : c.length < 4
        · rw [if_pos hs] at hr
          refine ⟨_, .legOpaque hi he (fun o ho => ?_) ?_⟩
          · rw [hc] at ho
            cases ho
            exact hs
          · cases callArray with
            | true => exact (sameNodes_opaqueLeg ..).of_run hr
            | false =>
              cases hr
              rfl
        · rw [if_neg hs] at hr
          obtain ⟨ca, la, hro, hsa⟩ := dispatchChild_cases hr
          obtain ⟨visits, ok, hca⟩ := ha (length_path_le_of_enter he) above _ _ _ _ hro
          exact ⟨_, .legDispatched hi he hc hro hca hsa⟩

end Leg

theorem enters_legs {callArray : Bool} {index : Nat} {its : List Json}
    {result : Except EngineError (List ActionBody)} {above : List CallAbove}
    (hb : Below frame (EntersAt kit registry))
    (h : (processLegs kit (routeTransaction kit registry) callArray input frame index its).run t =
      (result, t')) :
    ∃ visits, Enters kit registry above (.legs callArray frame input index its) t visits t'
      result.isOk := by
  induction its generalizing index t result with
  | nil =>
    cases h
    exact ⟨[], .legsNil⟩
  | cons i r ih =>
    obtain ⟨e, hlf, rfl⟩ | ⟨leg, _, hlf, hlp⟩ := bind_run h
    · obtain ⟨hi, rfl⟩ := lift_run.1 hlf
      exact ⟨[], .legsUnread hi⟩
    · obtain ⟨hi, rfl⟩ := lift_eq_ok.1 hlf
      have ha := hb (frame.child (legSegment callArray index)) (by simp)
      obtain ⟨e, hc, rfl⟩ | ⟨run, mid, hc, hm⟩ := bind_run hlp
      · obtain ⟨visits, hl⟩ := enters_leg ha hc
        exact ⟨visits, .legsFail hi hl⟩
      · obtain ⟨visits, hl⟩ := enters_leg ha hc
        obtain ⟨e, hr, rfl⟩ | ⟨m, l, hr, hp⟩ := bind_run hm
        · obtain ⟨os, ho⟩ := ih hr
          exact ⟨_, .legsCons hi hl ho⟩
        · cases hp
          obtain ⟨os, ho⟩ := ih hr
          exact ⟨_, .legsCons hi hl ho⟩

section Call

variable {above : List CallAbove} {call : PreparedCall}
  {result : Except EngineError (List ActionBody)}

theorem enters_container {source : Except EngineError (List Json)} {callArray : Bool} {s : String}
    {body : Except EngineError ActionBody} (hbe : Below (call.frame frame) (EntersAt kit registry))
    (hb : ∀ its, source = .ok its → call.Batches callArray its)
    (h : (do
        let its ← .lift source
        let acs ← processLegs kit (routeTransaction kit registry) callArray input
          (call.frame frame) 0 its
        .lift (batch s acs) : RouteM ActionBody).run t = (body, t')) :
    body.isOk = false ∧ t' = t ∨ ∃ its visits done, call.Batches callArray its ∧
      Enters kit registry (⟨frame, call⟩ :: above)
        (.legs callArray (call.frame frame) input 0 its) t visits t' done := by
  obtain ⟨e, hlf, rfl⟩ | ⟨its, _, hlf, hl⟩ := bind_run h
  · exact .inl ⟨rfl, (lift_run.1 hlf).2⟩
  · obtain ⟨hi, rfl⟩ := lift_eq_ok.1 hlf
    refine .inr ⟨its, ?_⟩
    obtain ⟨e, hlp, -⟩ | ⟨acs, mid, hlp, hbo⟩ := bind_run hl
    · obtain ⟨visits, hl⟩ := enters_legs hbe hlp
      exact ⟨visits, _, hb its hi, hl⟩
    · obtain ⟨-, rfl⟩ := lift_run.1 hbo
      obtain ⟨visits, hl⟩ := enters_legs hbe hlp
      exact ⟨visits, _, hb its hi, hl⟩

theorem enters_multicall {b : RouteM ActionBody} (callArray : Bool) (hr : call.recursive = true)
    (hbu : ∀ body mid, b.run t = (body, mid) →
      body.isOk = false ∧ mid = t ∨ ∃ its visits d, call.Batches callArray its ∧
        Enters kit registry (⟨frame, call⟩ :: above)
          (.legs callArray (call.frame frame) input 0 its) t visits mid d)
    (h : (do
        let body ← b
        return [← settleBody call (call.frame frame) body] : RouteM _).run t = (result, t')) :
    ∃ visits, Enters kit registry above (.own frame input call) t visits t' result.isOk := by
  obtain ⟨e, hbo, rfl⟩ | ⟨body, mid, hbo, hs⟩ := bind_run h
  · obtain ⟨-, rfl⟩ | ⟨its, visits, d, hb, hl⟩ := hbu _ _ hbo
    · exact ⟨[], .ownUnread hr⟩
    · exact ⟨visits, .ownBatch hb hl rfl⟩
  · obtain ⟨hf, -⟩ | ⟨its, visits, d, hb, hl⟩ := hbu _ _ hbo
    · cases hf
    · exact ⟨visits, .ownBatch hb hl ((sameNodes_settleBody ..).of_run hs)⟩

theorem enters_own (hbe : Below (call.frame frame) (EntersAt kit registry))
    (h : (buildBody kit (routeTransaction kit registry) input call (call.frame frame)).run t =
      (result, t')) :
    ∃ visits, Enters kit registry above (.own frame input call) t visits t' result.isOk := by
  unfold buildBody at h
  split at h
  · next hs =>
    cases h
    exact ⟨[], .ownSelf (by simp [PreparedCall.recursive, hs]) rfl⟩
  · next s hs =>
    have hsa : Moves SameNodes (do
        let body ← .lift (emitBody kit call.ctx call.emit input.chainId s)
        return [← settleBody call (call.frame frame) body] : RouteM _) :=
      .bind (.lift _) fun _ => sameNodes_settleBody ..
    exact ⟨[], .ownSelf (by simp [PreparedCall.recursive, hs]) (hsa.of_run h)⟩
  · next hs =>
    have hr : call.recursive = true := by simp [PreparedCall.recursive, hs]
    refine enters_multicall false hr (fun body mid hb => ?_) h
    obtain ⟨e, hru, rfl⟩ | ⟨_, _, hru, hc⟩ := bind_run hb
    · exact .inl ⟨rfl, (lift_run.1 hru).2⟩
    · obtain ⟨-, rfl⟩ := lift_run.1 hru
      exact enters_container hbe (fun its hi => ⟨hs, hi⟩) hc
  · next hs =>
    have hr : call.recursive = true := by simp [PreparedCall.recursive, hs]
    refine enters_multicall true hr (fun body mid hb => ?_) h
    exact enters_container hbe (fun its hi => ⟨hs, hi⟩) hb

theorem enters_callback (hb : Below (call.frame frame) (EntersAt kit registry))
    (h : (callbackBodies kit (routeTransaction kit registry) input call (call.frame frame)).run t =
      (result, t')) :
    ∃ visits, Enters kit registry above (.callback frame input call) t visits t' result.isOk := by
  unfold callbackBodies at h
  cases hc : call.reenterCallback with
  | none =>
    rw [hc] at h
    cases h
    exact ⟨[], .callbackNone (by rw [hc]; decide)⟩
  | some c =>
    rw [hc] at h
    dsimp only [processReenterCallback] at h
    by_cases hem : stripHex c = ""
    · rw [if_pos hem] at h
      cases h
      exact ⟨[], .callbackNone (by rw [hc]; exact hem)⟩
    · rw [if_neg hem] at h
      obtain ⟨e, hu, -⟩ | ⟨l, mid, hu, hlo⟩ := bind_run h
      · cases hu
      · have he := update_eq_ok.1 hu
        cases l with
        | some code =>
          obtain rfl := enter_refused he
          have hr := congrArg Prod.fst he
          exact ⟨[], .callbackRefused hc hr ((sameNodes_opaqueLeg ..).of_run hlo)⟩
        | none =>
          obtain ⟨e, hlf, rfl⟩ | ⟨ls, _, hlf, hl⟩ := bind_run hlo
          · obtain ⟨hd, rfl⟩ := lift_run.1 hlf
            exact ⟨_, .callbackOpaque hc he fun ls => by rw [hd]; exact nofun⟩
          · obtain ⟨hd, rfl⟩ := lift_eq_ok.1 hlf
            cases ls with
            | none =>
              cases hl
              exact ⟨_, .callbackOpaque hc he fun ls => by rw [hd]; exact nofun⟩
            | some ls =>
              obtain ⟨visits, hl⟩ := enters_legs (hb.child .callback) hl
              exact ⟨_, .callbackLegs hc he hd hl⟩

theorem entersAt_of_below (hb : Below frame (EntersAt kit registry)) :
    EntersAt kit registry frame := by
  intro above input t result t' h
  rw [routeTransaction_eq] at h
  obtain ⟨e, hl, -⟩ | ⟨call, _, hl, hpe⟩ := bind_run h
  · obtain ⟨hp, rfl⟩ := lift_run.1 hl
    exact ⟨[], false, .callUnprepared hp⟩
  · obtain ⟨hp, rfl⟩ := lift_eq_ok.1 hl
    obtain ⟨e, hs, -⟩ | ⟨_, _, hs, hst⟩ := bind_run hpe
    · cases hs
    · cases hs
      have hb' := hb.of_path (path_frame call frame)
      obtain ⟨e, ho, -⟩ | ⟨own, mid, ho, he⟩ := bind_run hst
      · obtain ⟨visits, ho⟩ := enters_own hb' ho
        exact ⟨visits, false, .callFail hp ho⟩
      · obtain ⟨visits, ho⟩ := enters_own hb' ho
        obtain ⟨e, hc, -⟩ | ⟨c, l, hc, hcl⟩ := bind_run he
        · obtain ⟨m, hc⟩ := enters_callback hb' hc
          exact ⟨_, false, .call hp ho hc rfl⟩
        · obtain ⟨m, hc⟩ := enters_callback hb' hc
          have hsa : Moves SameNodes (do
              let bodies ← visibleBodies kit input call (call.frame frame) (own ++ c)
              return ({ actions := wrapActions call (call.frame frame) bodies
                        decoderId := call.bundleId
                        reenterCallback := call.reenterCallback } : RouteResult) : RouteM _) :=
            .bind (sameNodes_visibleBodies ..) fun _ => .pure _
          exact ⟨_, true, .call hp ho hc (hsa.of_run hcl)⟩

theorem entersAt (frame : TransactionFrame) : EntersAt kit registry frame :=
  Below.induction (fun _ => entersAt_of_below) frame

end Call

end Refinement

/-! ## One request -/

/-- The nodes a request enters below its root are counted, as is the root, within the budget
of nodes, and each keeps its limits. -/
def BudgetKept (kit : DecodeKit) (registry : DecoderRegistry) (input : RouteRequest)
    (t' : TransactionTraversal) : Prop :=
  ∃ visits ok, Enters kit registry [] (.call .root input) {} visits t' ok ∧
    1 + visits.length = t'.nodes ∧ t'.nodes ≤ maxTransactionNodes ∧ ∀ v ∈ visits, v.Within

/-- For every registry and every request the recursion ends, whatever the registry routes
to what: five levels are enough at any frame, and the router is the recursion of the
source. One request then keeps the budget, also when it fails. -/
theorem traversal_within_budget (kit : DecodeKit) (registry : DecoderRegistry) :
    (∀ levels, maxTransactionDepth < levels → ∀ input frame,
      routeUpTo kit registry levels input frame = routeTransaction kit registry input frame) ∧
    (∀ input frame, routeTransaction kit registry input frame =
      routeWith kit registry (routeTransaction kit registry) input frame) ∧
    ∀ input result t', (routeTransaction kit registry input .root).run {} = (result, t') →
      BudgetKept kit registry input t' := by
  refine ⟨fun levels hl input frame => ?_, routeTransaction_eq, fun input result t' h => ?_⟩
  · refine routeUpTo_eq ?_ le_rfl input
    unfold TransactionFrame.levels
    omega
  · obtain ⟨visits, ok, hv⟩ := entersAt .root [] input {} result t' h
    obtain ⟨hn, hb⟩ := hv.nodes
    exact ⟨visits, ok, hv, hn.symm, hb (by decide), hv.within (.nil _)⟩

end Dambi
