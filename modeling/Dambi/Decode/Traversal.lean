import Dambi.Lib.MutResult
import Dambi.Runtime.Basic

/-!
# The call tree of one transaction

The frames and the budget of `decode/mod.rs`. One `TransactionTraversal` is
owned by one public request and threaded through every nested call; a
`TransactionFrame` is the absolute position of a call, with the deepest
position that the manifests above it allow.
-/

namespace Dambi

def maxTransactionDepth : Nat := 4

def maxTransactionNodes : Nat := 256

def maxMulticallChildren : Nat := 64

/-- `TransactionCallPathDto`. -/
inductive CallPath where
  | selfCall (index : Nat)
  | call (index : Nat)
  | callback
deriving DecidableEq, Repr

/-- `TransactionDiagnosticCodeDto`. -/
inductive DiagnosticCode where
  | depthLimit
  | childLimit
  | nodeLimit
  | unregisteredCall
  | shortCalldata
  | routeNotApplicable
  | uninterpretedAction
deriving DecidableEq, Repr

/-- `TransactionDiagnosticDto`. -/
structure TransactionDiagnostic where
  code : DiagnosticCode
  path : List CallPath
  decoderId : Option String
deriving DecidableEq, Repr

inductive DecodingStatus where
  | complete
  | partial_
deriving DecidableEq, Repr

/-- `TransactionDecodingDto`. -/
structure TransactionDecoding where
  status : DecodingStatus
  diagnostics : List TransactionDiagnostic
deriving DecidableEq, Repr

/-! ## Frames -/

/-- A frame's limit never exceeds the global one. -/
structure TransactionFrame where
  path : List CallPath
  depthLimit : Nat
  bounded : depthLimit ≤ maxTransactionDepth

namespace TransactionFrame

def root : TransactionFrame := ⟨[], maxTransactionDepth, le_rfl⟩

def child (frame : TransactionFrame) (segment : CallPath) : TransactionFrame :=
  { frame with path := frame.path ++ [segment] }

/-- A manifest may lower the limit below its own call, never raise it. -/
def withManifest (frame : TransactionFrame) (emit : Json) : TransactionFrame :=
  let remaining := min (((emit.get? "max_depth").bind Json.asU64).getD maxTransactionDepth)
    maxTransactionDepth
  { frame with
    depthLimit := min frame.depthLimit (frame.path.length + remaining)
    bounded := (min_le_left _ _).trans frame.bounded }

@[simp] theorem length_path_child (frame : TransactionFrame) (s : CallPath) :
    (frame.child s).path.length = frame.path.length + 1 := by
  simp [child]

end TransactionFrame

/-! ## The budget -/

structure TransactionTraversal where
  nodes : Nat := 1
  active : Bool := false
  diagnostics : List TransactionDiagnostic := []
deriving DecidableEq, Repr

namespace TransactionTraversal

variable (traversal : TransactionTraversal)

/-- The limit that keeps a frame from being entered, or the budget after it was. -/
def enter (frame : TransactionFrame) : Option DiagnosticCode × TransactionTraversal :=
  if frame.depthLimit < frame.path.length then (some .depthLimit, traversal)
  else if maxTransactionNodes ≤ traversal.nodes then (some .nodeLimit, traversal)
  else (none, { traversal with nodes := traversal.nodes + 1 })

def record (frame : TransactionFrame) (code : DiagnosticCode)
    (decoderId : Option String) : TransactionTraversal :=
  { traversal with diagnostics := traversal.diagnostics ++ [⟨code, frame.path, decoderId⟩] }

def activate : TransactionTraversal :=
  { traversal with active := true }

def finish : TransactionDecoding where
  status := if traversal.diagnostics.isEmpty then .complete else .partial_
  diagnostics := traversal.diagnostics

theorem le_depthLimit_of_enter {frame : TransactionFrame}
    {t t' : TransactionTraversal} (h : t.enter frame = (none, t')) :
    frame.path.length ≤ frame.depthLimit := by
  unfold enter at h
  split at h
  · cases h
  · next hd => exact Nat.le_of_not_lt hd

variable (t : TransactionTraversal) (frame : TransactionFrame)

@[simp] theorem diagnostics_enter : (t.enter frame).2.diagnostics = t.diagnostics := by
  unfold enter
  split
  · rfl
  · split <;> rfl

@[simp] theorem active_enter : (t.enter frame).2.active = t.active := by
  unfold enter
  split
  · rfl
  · split <;> rfl

/-! What every call does to the traversal, whether or not it succeeds. -/

/-- The diagnostics of a later traversal continue those of an earlier one, and
an active traversal stays active. -/
structure Extends (earlier later : TransactionTraversal) : Prop where
  diagnostics : earlier.diagnostics <+: later.diagnostics
  active : earlier.active = true → later.active = true

instance : Std.Refl Extends := ⟨fun _ => ⟨List.prefix_rfl, id⟩⟩

instance : IsTrans TransactionTraversal Extends :=
  ⟨fun _ _ _ h h' => ⟨h.diagnostics.trans h'.diagnostics, h'.active ∘ h.active⟩⟩

theorem extends_enter : t.Extends (t.enter frame).2 := by
  constructor
  · rewrite [diagnostics_enter]
    exact List.prefix_rfl
  · rw [active_enter]
    exact id

theorem extends_record (code : DiagnosticCode) (di : Option String) :
    t.Extends (t.record frame code di) :=
  ⟨List.prefix_append _ _, id⟩

theorem extends_activate : t.Extends t.activate :=
  ⟨List.prefix_rfl, fun _ => rfl⟩

end TransactionTraversal

end Dambi
