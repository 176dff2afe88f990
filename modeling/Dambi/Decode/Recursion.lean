import Dambi.Decode.Route

/-!
# The recursion of the router

A call is dispatched only at a path within the global depth limit, so the
router is a fixed point of `routeWith` and its number of levels never shows.
-/

namespace Dambi

open Fallible

/-! ## The calls below a frame -/

/-- A property of every frame at which a call may be dispatched below another. -/
def Below (frame : TransactionFrame) (P : TransactionFrame → Prop) : Prop :=
  ∀ below : TransactionFrame, frame.path.length < below.path.length →
    below.path.length ≤ maxTransactionDepth → P below

namespace Below

variable {frame : TransactionFrame} {P : TransactionFrame → Prop}

theorem of_path {frame' : TransactionFrame}
    (hp : frame'.path = frame.path) (h : Below frame P) : Below frame' P := by
  intro below hl
  rw [hp] at hl
  exact h below hl

theorem child (s : CallPath) (h : Below frame P) : Below (frame.child s) P := by
  intro below hl
  rw [TransactionFrame.length_path_child] at hl
  exact h below (Nat.lt_of_succ_lt hl)

/-- Paths are bounded, so what the frames below give a frame holds of every frame. -/
theorem induction (step : ∀ frame, Below frame P → P frame) (frame : TransactionFrame) :
    P frame := by
  induction hdepth : maxTransactionDepth + 1 - frame.path.length using Nat.strong_induction_on
    generalizing frame with
  | _ depth ih =>
    apply step
    intro below hlt hl
    exact ih (maxTransactionDepth + 1 - below.path.length) (by omega) below rfl

end Below

def AgreeBelow (frame : TransactionFrame)
    (route route' : RouteRequest → TransactionFrame → RouteM RouteResult) : Prop :=
  Below frame fun below => ∀ child, route child below = route' child below

section Congruence

variable {kit : DecodeKit} {registry : DecoderRegistry}
variable {route route' : RouteRequest → TransactionFrame → RouteM RouteResult}
variable {input : RouteRequest} {frame : TransactionFrame}

variable {index : Nat} {t t' : TransactionTraversal}

theorem enter_of_childLimit (h : (childLimit frame index).run t = (.ok none, t')) :
    index < maxMulticallChildren ∧ t.enter frame = (none, t') := by
  unfold childLimit at h
  split at h
  · cases h
  · next hi => exact ⟨Nat.lt_of_not_le hi, MutResult.update_eq_ok.1 h⟩

theorem length_path_le_of_enter (h : t.enter frame = (none, t')) :
    frame.path.length ≤ maxTransactionDepth :=
  (TransactionTraversal.le_depthLimit_of_enter h).trans frame.bounded

theorem processMulticallChild_congr {callArray : Bool}
    (h : frame.path.length ≤ maxTransactionDepth → ∀ child, route child frame = route' child frame)
    :
    processMulticallChild kit route input frame index callArray =
      processMulticallChild kit route' input frame index callArray := by
  ext1
  funext t
  apply MutResult.bind_congr
  intro l mid hl
  cases l with
  | some code => rfl
  | none =>
    have hroute := h (length_path_le_of_enter (enter_of_childLimit hl).2)
    simp only [dispatchChild, hroute]

section

variable (h : AgreeBelow frame route route')
include h

theorem processLegs_congr {callArray : Bool} (index : Nat) (items : List Json) :
    processLegs kit route callArray input frame index items =
      processLegs kit route' callArray input frame index items := by
  induction items generalizing index with
  | nil => rfl
  | cons i r ih =>
    have hc (leg : RouteRequest) :
        processMulticallChild kit route leg (frame.child (legSegment callArray index)) index
            callArray =
          processMulticallChild kit route' leg (frame.child (legSegment callArray index)) index
            callArray :=
      processMulticallChild_congr (h (frame.child _) (by simp))
    simp only [processLegs, hc, ih]

theorem processReenterCallback_congr {c di : String} :
    processReenterCallback kit route input c di frame =
      processReenterCallback kit route' input c di frame := by
  simp [processReenterCallback, processCallLegs, processLegs_congr (Below.child .callback h)]

theorem buildBody_congr {c : PreparedCall} :
    buildBody kit route input c frame = buildBody kit route' input c frame := by
  simp [buildBody, buildMulticallRecurseBody, buildMulticallCallArrayBody, processCallLegs,
    processLegs_congr h]

end

@[simp] theorem path_frame (c : PreparedCall) (frame : TransactionFrame) :
    (c.frame frame).path = frame.path := by
  unfold PreparedCall.frame
  split <;> rfl

theorem routeWith_congr (h : AgreeBelow frame route route') :
    routeWith kit registry route input frame = routeWith kit registry route' input frame := by
  ext1
  funext t
  apply MutResult.bind_congr
  intro c mid _
  have hb : AgreeBelow (c.frame frame) route route' := Below.of_path (path_frame c frame) h
  simp [buildBody_congr hb, callbackBodies, processReenterCallback_congr hb]

end Congruence

/-! ## The fixed point -/

section FixedPoint

variable {kit : DecodeKit} {registry : DecoderRegistry}

theorem routeUpTo_eq {n m : Nat} {frame : TransactionFrame}
    (hn : frame.levels ≤ n) (hm : frame.levels ≤ m) (input : RouteRequest) :
    routeUpTo kit registry n input frame = routeUpTo kit registry m input frame := by
  induction n generalizing m frame input with
  | zero => cases hn
  | succ n ih =>
    cases m with
    | zero => cases hm
    | succ m =>
      apply routeWith_congr
      intro below hlt hl child
      have hne : below.levels < frame.levels := by
        unfold TransactionFrame.levels
        omega
      exact ih (by omega) (by omega) child

theorem routeTransaction_eq (input : RouteRequest) (frame : TransactionFrame) :
    routeTransaction kit registry input frame =
      routeWith kit registry (routeTransaction kit registry) input frame := by
  unfold routeTransaction
  rw [show frame.levels = (maxTransactionDepth - frame.path.length) + 1 from rfl, routeUpTo]
  apply routeWith_congr
  intro below hlt hl child
  apply routeUpTo_eq
  · unfold TransactionFrame.levels
    omega
  · exact le_rfl

end FixedPoint

/-! ## What a call does to the traversal

Diagnostics are only ever added, also by a call that fails. -/

section Extends

open TransactionTraversal MutResult

variable {kit : DecodeKit} {registry : DecoderRegistry}
variable {route : RouteRequest → TransactionFrame → RouteM RouteResult}

theorem opaqueCall_extends (input : RouteRequest) (frame : TransactionFrame) (code : DiagnosticCode)
    (di : Option String) : Moves Extends (opaqueCall kit input frame code di) :=
  .bind (.lift _) fun _ => .bind (.update fun t => t.extends_record ..) fun _ => .pure _

theorem childLimit_extends (frame : TransactionFrame) (index : Nat) :
    Moves Extends (childLimit frame index) := by
  unfold childLimit
  split
  · exact .pure _
  · exact .update fun t => t.extends_enter frame

theorem settleBody_extends (c : PreparedCall) (frame : TransactionFrame) (body : ActionBody) :
    Moves Extends (settleBody c frame body) := by
  apply Moves.update
  intro t
  dsimp only [PreparedCall.settle]
  split
  · exact t.extends_record ..
  · exact Std.Refl.refl t

theorem extends_start (c : PreparedCall) (t : TransactionTraversal) : t.Extends (c.start t) := by
  unfold PreparedCall.start
  split
  · exact t.extends_activate
  · exact Std.Refl.refl t

theorem visibleBodies_extends (input : RouteRequest) (c : PreparedCall)
    (frame : TransactionFrame) (bodies : List ActionBody) :
    Moves Extends (visibleBodies kit input c frame bodies) := by
  unfold visibleBodies
  split
  · exact .bind (.update fun t => t.extends_record ..) fun _ => .bind (.lift _) fun _ => .pure _
  · exact .pure _

section Below

variable (hroute : ∀ child below, Moves Extends (route child below))
include hroute

variable (input : RouteRequest) (frame : TransactionFrame)

theorem dispatchChild_extends (index : Nat) (ca : Bool) (c : List UInt8) :
    Moves Extends (dispatchChild kit route input frame index ca c) := by
  apply Moves.bind (.attempt (hroute _ frame))
  intro result
  cases result with
  | ok result => exact .lift _
  | error error =>
    dsimp only
    split
    · exact .bind (opaqueCall_extends ..) fun _ => .pure _
    · exact .fail _

theorem processMulticallChild_extends (index : Nat) (ca : Bool) :
    Moves Extends (processMulticallChild kit route input frame index ca) := by
  apply Moves.bind (childLimit_extends frame index)
  intro l
  cases l with
  | some code => exact .bind (opaqueCall_extends ..) fun _ => .pure _
  | none =>
    dsimp only
    apply Moves.bind (.lift _)
    intro c
    split
    · split
      · exact .bind (opaqueCall_extends ..) fun _ => .pure _
      · exact .fail _
    · exact dispatchChild_extends hroute ..

theorem processLegs_extends (ca : Bool) (p : RouteRequest) (frame : TransactionFrame)
    (index : Nat) (its : List Json) :
    Moves Extends (processLegs kit route ca p frame index its) := by
  induction its generalizing index with
  | nil => exact .pure _
  | cons i r ih =>
    exact .bind (.lift _) fun _ => .bind (processMulticallChild_extends hroute ..) fun _ =>
      .bind (ih (index + 1)) fun _ => .pure _

theorem processReenterCallback_extends (c di : String) (frame : TransactionFrame) :
    Moves Extends (processReenterCallback kit route input c di frame) := by
  unfold processReenterCallback
  split
  · exact .pure _
  · dsimp only
    apply Moves.bind (.update fun t => extends_enter t _)
    intro l
    cases l with
    | some code => exact .bind (opaqueCall_extends ..) fun _ => .pure _
    | none =>
      dsimp only
      apply Moves.bind (.lift _)
      intro ls
      cases ls with
      | some ls => exact processLegs_extends hroute ..
      | none => exact .pure _

theorem buildBody_extends (c : PreparedCall) (frame : TransactionFrame) :
    Moves Extends (buildBody kit route input c frame) := by
  have hs (body : ActionBody) :
      Moves Extends (do return [← settleBody c frame body] : RouteM (List ActionBody)) :=
    .bind (settleBody_extends ..) fun _ => .pure _
  unfold buildBody
  split
  · exact .pure _
  · exact .bind (.lift _) hs
  · exact .bind (.bind (.lift _) fun _ => .bind (.lift _) fun _ =>
      .bind (processLegs_extends hroute ..) fun _ => .lift _) hs
  · exact .bind (.bind (.lift _) fun _ => .bind (processLegs_extends hroute ..) fun _ => .lift _)
      hs

theorem callbackBodies_extends (c : PreparedCall) (frame : TransactionFrame) :
    Moves Extends (callbackBodies kit route input c frame) := by
  unfold callbackBodies
  split
  · exact processReenterCallback_extends hroute ..
  · exact .pure _

theorem routeWith_extends : Moves Extends (routeWith kit registry route input frame) :=
  .bind (.lift _) fun c => .bind (.update (extends_start c)) fun _ =>
    .bind (buildBody_extends hroute ..) fun _ => .bind (callbackBodies_extends hroute ..) fun _ =>
      .bind (visibleBodies_extends ..) fun _ => .pure _

end Below

theorem routeTransaction_extends (input : RouteRequest) (frame : TransactionFrame) :
    Moves Extends (routeTransaction kit registry input frame) := by
  unfold routeTransaction
  generalize frame.levels = levels
  induction levels generalizing input frame with
  | zero => exact .fail _
  | succ levels ih => exact routeWith_extends ih input frame

end Extends

end Dambi
