import Dambi.Json
import Dambi.Lib.MutResult

/-!
# Cedar expressions

The expressions of a Cedar policy, the JSON form Cedar gives them, and an
evaluator that keeps a list of the context attributes it has read. What the
operators of Cedar compute is an arbitrary `CedarAlgebra`.
-/

namespace Dambi

inductive CedarVar where
  | principal
  | action
  | resource
  | context
deriving DecidableEq, Repr

inductive CedarUnary where
  | not
  | neg
  | isEmpty
deriving DecidableEq, Repr

/-- The operators that evaluate both sides. -/
inductive CedarBinary where
  | eq
  | ne
  | lt
  | le
  | gt
  | ge
  | add
  | sub
  | mul
  | in_
  | contains
  | containsAll
  | containsAny
  | getTag
  | hasTag
deriving DecidableEq, Repr

inductive CedarExpr where
  | literal (json : Json)
  | var (v : CedarVar)
  | getAttr (left : CedarExpr) (attr : String)
  | hasAttr (left : CedarExpr) (attr : String)
  /-- `left has a.b.c`. -/
  | hasPath (left : CedarExpr) (attrs : List String)
  | ite (cond thenExpr elseExpr : CedarExpr)
  | and (left right : CedarExpr)
  | or (left right : CedarExpr)
  | unary (op : CedarUnary) (arg : CedarExpr)
  | binary (op : CedarBinary) (left right : CedarExpr)
  | like (left : CedarExpr) (pattern : Json)
  | is_ (left : CedarExpr) (entityType : String)
  | isIn (left : CedarExpr) (entityType : String) (entity : CedarExpr)
  | set (items : List CedarExpr)
  | record (fields : List (String × CedarExpr))
  /-- An extension function or method. -/
  | call (function : String) (args : List CedarExpr)

/-! ## The JSON form -/

def CedarVar.est : CedarVar → String
  | .principal => "principal"
  | .action => "action"
  | .resource => "resource"
  | .context => "context"

def CedarUnary.est : CedarUnary → String
  | .not => "!"
  | .neg => "neg"
  | .isEmpty => "isEmpty"

def CedarBinary.est : CedarBinary → String
  | .eq => "=="
  | .ne => "!="
  | .lt => "<"
  | .le => "<="
  | .gt => ">"
  | .ge => ">="
  | .add => "+"
  | .sub => "-"
  | .mul => "*"
  | .in_ => "in"
  | .contains => "contains"
  | .containsAll => "containsAll"
  | .containsAny => "containsAny"
  | .getTag => "getTag"
  | .hasTag => "hasTag"

namespace CedarExpr

/-- An operator with two operands. -/
def estBinary (op : String) (left right : Json) : Json :=
  .obj [(op, .obj [("left", left), ("right", right)])]

mutual

def est : CedarExpr → Json
  | .literal json => .obj [("Value", json)]
  | .var v => .obj [("Var", .str v.est)]
  | .getAttr left attr => .obj [(".", .obj [("attr", .str attr), ("left", left.est)])]
  | .hasAttr left attr => .obj [("has", .obj [("attr", .str attr), ("left", left.est)])]
  | .hasPath left attrs =>
    .obj [("has", .obj [("attr", .arr (attrs.map .str)), ("left", left.est)])]
  | .ite cond thenExpr elseExpr => .obj [("if-then-else",
      .obj [("else", elseExpr.est), ("if", cond.est), ("then", thenExpr.est)])]
  | .and left right => estBinary "&&" left.est right.est
  | .or left right => estBinary "||" left.est right.est
  | .unary op arg => .obj [(op.est, .obj [("arg", arg.est)])]
  | .binary op left right => estBinary op.est left.est right.est
  | .like left pattern => .obj [("like", .obj [("left", left.est), ("pattern", pattern)])]
  | .is_ left entityType =>
    .obj [("is", .obj [("entity_type", .str entityType), ("left", left.est)])]
  | .isIn left entityType entity => .obj [("is",
      .obj [("entity_type", .str entityType), ("in", entity.est), ("left", left.est)])]
  | .set items => .obj [("Set", .arr (estItems items))]
  | .record fields => .obj [("Record", .obj (estFields fields))]
  | .call function args => .obj [(function, .arr (estItems args))]

def estItems : List CedarExpr → List Json
  | [] => []
  | item :: rest => item.est :: estItems rest

def estFields : List (String × CedarExpr) → List (String × Json)
  | [] => []
  | (name, value) :: rest => (name, value.est) :: estFields rest

end

/-! ## Where a value comes from -/

/-- The attributes `fs` of what an expression may evaluate to are the attributes `p` of the
context. Neither branch of a conditional is ruled out. -/
inductive Origin : CedarExpr → List String → List String → Prop
  | context {fs} : Origin (.var .context) fs fs
  | getAttr {left attr fs p} (h : Origin left (attr :: fs) p) : Origin (.getAttr left attr) fs p
  | thenExpr {cond thenExpr elseExpr fs p} (h : Origin thenExpr fs p) :
      Origin (.ite cond thenExpr elseExpr) fs p
  | elseExpr {cond thenExpr elseExpr fs p} (h : Origin elseExpr fs p) :
      Origin (.ite cond thenExpr elseExpr) fs p
  | record {fields attr value fs p} (hfield : fields.lookup attr = some value)
      (h : Origin value fs p) : Origin (.record fields) (attr :: fs) p

theorem Origin.append {e : CedarExpr} {fs p : List String}
    (h : Origin e fs p) (m : List String) : Origin e (fs ++ m) (p ++ m) := by
  induction h with
  | context => exact .context
  | getAttr _ ih => exact .getAttr ih
  | thenExpr _ ih => exact .thenExpr ih
  | elseExpr _ ih => exact .elseExpr ih
  | record hf _ ih => exact .record hf ih

def children : CedarExpr → List CedarExpr
  | .literal _ => []
  | .var _ => []
  | .getAttr left _ => [left]
  | .hasAttr left _ => [left]
  | .hasPath left _ => [left]
  | .ite cond thenExpr elseExpr => [cond, thenExpr, elseExpr]
  | .and left right => [left, right]
  | .or left right => [left, right]
  | .unary _ arg => [arg]
  | .binary _ left right => [left, right]
  | .like left _ => [left]
  | .is_ left _ => [left]
  | .isIn left _ entity => [left, entity]
  | .set items => items
  | .record fields => fields.map Prod.snd
  | .call _ args => args

/-- Somewhere in the expression the attribute `p` of the context is accessed, or asked for
with `has`. -/
inductive Accesses : CedarExpr → List String → Prop
  | getAttr {left attr p} (h : Origin left [attr] p) : Accesses (.getAttr left attr) p
  | hasAttr {left attr p} (h : Origin left [attr] p) : Accesses (.hasAttr left attr) p
  | hasPath {left attrs fs p} (hfs : fs <+: attrs) (h : Origin left fs p) :
      Accesses (.hasPath left attrs) p
  | child {e c p} (hc : c ∈ e.children) (h : Accesses c p) : Accesses e p

/-! ## Evaluation -/

end CedarExpr

/-- What Cedar computes on values of type `V`. -/
structure CedarAlgebra (V ε : Type) where
  var : CedarVar → V
  literal : Json → V
  /-- An attribute of a record or an entity. -/
  attr : V → String → Except ε V
  hasAttr : V → String → Except ε Bool
  truth : V → Except ε Bool
  ofBool : Bool → V
  unary : CedarUnary → V → Except ε V
  binary : CedarBinary → V → V → Except ε V
  like : V → Json → Except ε V
  is_ : V → String → Except ε Bool
  set : List V → V
  record : List (String × V) → V
  call : String → List V → Except ε V
  /-- The error for a record without the attribute. -/
  missing : String → ε

/-- A value that knows whether it is an attribute of the context. -/
inductive Tracked (V : Type) where
  | other (v : V)
  | context (path : List String) (v : V)
  | record (fields : List (String × Tracked V))

/-- An evaluation with the attributes of the context it has read. -/
abbrev EvalM (ε : Type) := MutResult (List (List String)) ε

section Evaluation

variable {V ε : Type} (alg : CedarAlgebra V ε)

namespace Tracked

mutual

def forget : Tracked V → V
  | .other v => v
  | .context _ v => v
  | .record fields => alg.record (forgetFields fields)

def forgetFields : List (String × Tracked V) → List (String × V)
  | [] => []
  | (name, field) :: rest => (name, field.forget) :: forgetFields rest

end

/-- The attributes `fs` of the value are the attributes `p` of the context. -/
inductive Origin : Tracked V → List String → List String → Prop
  | context {path v fs} : Origin (.context path v) fs (path ++ fs)
  | record {fields attr field fs p} (hfield : fields.lookup attr = some field)
      (h : Origin field fs p) : Origin (.record fields) (attr :: fs) p

def readContext (path : List String) : EvalM ε Unit := .update fun reads => ((), reads ++ [path])

def getAttr (attr : String) : Tracked V → EvalM ε (Tracked V)
  | .other v => return .other (← .lift (alg.attr v attr))
  | .context path v => do
    readContext (path ++ [attr])
    return .context (path ++ [attr]) (← .lift (alg.attr v attr))
  | .record fields => .lift ((fields.lookup attr).elim (.error (alg.missing attr)) .ok)

def hasAttr (attr : String) : Tracked V → EvalM ε Bool
  | .other v => .lift (alg.hasAttr v attr)
  | .context path v => do
    readContext (path ++ [attr])
    .lift (alg.hasAttr v attr)
  | .record fields => return (fields.lookup attr).isSome

/-- `v has a.b.c` stops at the first attribute that is absent. -/
def hasPath : List String → Tracked V → EvalM ε Bool
  | [], _ => return true
  | attr :: rest, v => do
    if ← hasAttr alg attr v then
      if rest = [] then return true
      else hasPath rest (← getAttr alg attr v)
    else return false

end Tracked

namespace CedarExpr

mutual

def eval : CedarExpr → EvalM ε (Tracked V)
  | .literal json => return .other (alg.literal json)
  | .var .context => return .context [] (alg.var .context)
  | .var v => return .other (alg.var v)
  | .getAttr left attr => do Tracked.getAttr alg attr (← left.eval)
  | .hasAttr left attr => do return .other (alg.ofBool (← Tracked.hasAttr alg attr (← left.eval)))
  | .hasPath left attrs => do return .other (alg.ofBool (← Tracked.hasPath alg attrs (← left.eval)))
  | .ite cond thenExpr elseExpr => do
    let c ← cond.eval
    if ← .lift (alg.truth (c.forget alg)) then thenExpr.eval else elseExpr.eval
  | .and left right => do
    let l ← left.eval
    if ← .lift (alg.truth (l.forget alg)) then
      let r ← right.eval
      return .other (alg.ofBool (← .lift (alg.truth (r.forget alg))))
    else return .other (alg.ofBool false)
  | .or left right => do
    let l ← left.eval
    if ← .lift (alg.truth (l.forget alg)) then return .other (alg.ofBool true)
    else
      let r ← right.eval
      return .other (alg.ofBool (← .lift (alg.truth (r.forget alg))))
  | .unary op arg => do
    let a ← arg.eval
    return .other (← .lift (alg.unary op (a.forget alg)))
  | .binary op left right => do
    let l ← left.eval
    let r ← right.eval
    return .other (← .lift (alg.binary op (l.forget alg) (r.forget alg)))
  | .like left pattern => do
    let l ← left.eval
    return .other (← .lift (alg.like (l.forget alg) pattern))
  | .is_ left entityType => do
    let l ← left.eval
    return .other (alg.ofBool (← .lift (alg.is_ (l.forget alg) entityType)))
  | .isIn left entityType entity => do
    let l ← left.eval
    if ← .lift (alg.is_ (l.forget alg) entityType) then
      let e ← entity.eval
      return .other (← .lift (alg.binary .in_ (l.forget alg) (e.forget alg)))
    else return .other (alg.ofBool false)
  | .set items => do return .other (alg.set (← evalItems items))
  | .record fields => do return .record (← evalFields fields)
  | .call function args => do
    let values ← evalItems args
    return .other (← .lift (alg.call function values))

def evalItems : List CedarExpr → EvalM ε (List V)
  | [] => return []
  | item :: rest => do
    let v ← item.eval
    return v.forget alg :: (← evalItems rest)

def evalFields : List (String × CedarExpr) → EvalM ε (List (String × Tracked V))
  | [] => return []
  | (name, field) :: rest => do
    let v ← field.eval
    return (name, v) :: (← evalFields rest)

end

/-- The attributes of the context that an evaluation has read when it ends. -/
def reads (e : CedarExpr) : List (List String) := ((e.eval alg).run []).2

end CedarExpr

/-! ## Reads are accesses -/

/-- Reads are only added, and those that are added satisfy `P`. -/
def Adds (P : List String → Prop) (reads reads' : List (List String)) : Prop :=
  ∃ added, reads' = reads ++ added ∧ ∀ p ∈ added, P p

instance {P : List String → Prop} : Std.Refl (Adds P) :=
  ⟨fun _ => ⟨[], (List.append_nil _).symm, nofun⟩⟩

instance {P : List String → Prop} : IsTrans (List (List String)) (Adds P) where
  trans := by
    rintro _ _ _ ⟨added, rfl, hadded⟩ ⟨more, rfl, hmore⟩
    exact ⟨added ++ more, List.append_assoc .., List.forall_mem_append.2 ⟨hadded, hmore⟩⟩

open MutResult List

section Steps

variable {alg} {P : List String → Prop} {v : Tracked V} {attr : String}

theorem readContext_adds {p : List String}
    (h : P p) : Moves (Adds P) (Tracked.readContext p : EvalM ε Unit) :=
  .update fun _ => ⟨[p], rfl, forall_mem_singleton.2 h⟩

theorem getAttr_adds (h : ∀ p, v.Origin [attr] p → P p) :
    Moves (Adds P) (Tracked.getAttr alg attr v) := by
  cases v with
  | other v => exact .bind (.lift _) fun _ => .pure _
  | context pa v =>
    exact .bind (readContext_adds (h _ .context)) fun _ => .bind (.lift _) fun _ => .pure _
  | record fields => exact .lift _

theorem hasAttr_adds (h : ∀ p, v.Origin [attr] p → P p) :
    Moves (Adds P) (Tracked.hasAttr alg attr v) := by
  cases v with
  | other v => exact .lift _
  | context pa v => exact .bind (readContext_adds (h _ .context)) fun _ => .lift _
  | record fields => exact .pure _

theorem getAttr_origin : Yields (fun w => ∀ fs p, w.Origin fs p → v.Origin (attr :: fs) p)
    (Tracked.getAttr alg attr v) := by
  cases v with
  | other v => exact .bind fun _ => .pure nofun
  | context pa v =>
    refine .bind fun _ => .bind fun _ => .pure fun fs p hp => ?_
    cases hp
    rw [append_assoc]
    exact .context
  | record fields =>
    refine .lift fun w hw fs p hp => ?_
    cases hf : fields.lookup attr with
    | none =>
      rw [hf] at hw
      cases hw
    | some field =>
      rw [hf] at hw
      cases hw
      exact .record hf hp

theorem hasPath_adds {ats : List String} (h : ∀ fs p, fs <+: ats → v.Origin fs p → P p) :
    Moves (Adds P) (Tracked.hasPath alg ats v) := by
  induction ats generalizing v with
  | nil => exact .pure _
  | cons attr r ih =>
    have ha : ∀ p, v.Origin [attr] p → P p :=
      fun p hp => h [attr] p (prefix_append [attr] r) hp
    refine .bind (hasAttr_adds ha) fun pr => ?_
    split
    · split
      · exact .pure _
      · refine .bind_of (getAttr_adds ha) getAttr_origin fun w hw => ih fun fs p hf hp => ?_
        exact h (attr :: fs) p (cons_prefix_cons.2 ⟨rfl, hf⟩) (hw fs p hp)
    · exact .pure _

theorem Adds.mono {Q : List String → Prop} {reads reads' : List (List String)}
    (h : ∀ p, P p → Q p) (ha : Adds P reads reads') : Adds Q reads reads' := by
  obtain ⟨a, heq, had⟩ := ha
  exact ⟨a, heq, fun p hp => h p (had p hp)⟩

end Steps

namespace CedarExpr

/-- What the evaluation of an expression reads and returns. -/
structure Traced (e : CedarExpr) : Prop where
  adds : Moves (Adds e.Accesses) (e.eval alg)
  origin : Yields (fun v => ∀ fs p, v.Origin fs p → e.Origin fs p) (e.eval alg)

variable {alg}

theorem Traced.child {e c : CedarExpr} (h : c.Traced alg) (hc : c ∈ e.children) :
    Moves (Adds e.Accesses) (c.eval alg) :=
  h.adds.mono fun _ _ => Adds.mono fun _ => .child hc

/-- A computation reads and returns what an expression accounts for. -/
structure TracedBy (e : CedarExpr) (x : EvalM ε (Tracked V)) : Prop where
  adds : Moves (Adds e.Accesses) x
  origin : Yields (fun v => ∀ fs p, v.Origin fs p → e.Origin fs p) x

section Cases

variable {e c cond left : CedarExpr} {attr : String} {α : Type}

theorem Traced.of (h : e.TracedBy (e.eval alg)) : e.Traced alg := ⟨h.adds, h.origin⟩

theorem TracedBy.other {v : V} : e.TracedBy (pure (.other v) : EvalM ε (Tracked V)) :=
  ⟨.pure _, .pure nofun⟩

variable {x : Except ε α} {P : List String → Prop}

theorem TracedBy.lift {k : α → EvalM ε (Tracked V)}
    (h : ∀ a, e.TracedBy (k a)) : e.TracedBy (.lift x >>= k) :=
  ⟨.bind (.lift _) fun a => (h a).adds, .bind fun a => (h a).origin⟩

theorem TracedBy.value {f : α → V} : e.TracedBy (.lift x >>= fun a => pure (.other (f a))) :=
  .lift fun _ => .other

theorem TracedBy.child (h : c.Traced alg) {k : Tracked V → EvalM ε (Tracked V)}
    (hk : ∀ v, e.TracedBy (k v)) (hc : c ∈ e.children := by simp [children]) :
    e.TracedBy (c.eval alg >>= k) :=
  ⟨.bind (h.child hc) fun v => (hk v).adds, .bind fun v => (hk v).origin⟩

theorem TracedBy.ite {b : Bool} {x y : EvalM ε (Tracked V)} (hx : e.TracedBy x)
    (hy : e.TracedBy y) : e.TracedBy (if b then x else y) := by
  cases b
  · exact hy
  · exact hx

theorem traced_var (v : CedarVar) : (var v).Traced alg := by
  cases v with
  | context =>
    refine ⟨.pure _, .pure fun fs p hp => ?_⟩
    cases hp
    exact .context
  | principal | action | resource => exact .of .other

theorem traced_getAttr (h : left.Traced alg) : (getAttr left attr).Traced alg where
  adds := .bind_of (h.child (List.mem_singleton.2 rfl)) h.origin fun _ hv =>
    getAttr_adds fun p hp => .getAttr (hv _ p hp)
  origin := .bind_of h.origin fun _ hv =>
    ⟨fun s w s' hw fs p hp => .getAttr (hv _ _ (getAttr_origin.yields s w s' hw fs p hp))⟩

theorem traced_hasAttr (h : left.Traced alg) : (hasAttr left attr).Traced alg where
  adds := .bind_of (h.child (List.mem_singleton.2 rfl)) h.origin fun _ hv =>
    .bind (hasAttr_adds fun p hp => .hasAttr (hv _ p hp)) fun _ => .pure _
  origin := .bind fun _ => .bind fun _ => .pure nofun

theorem traced_hasPath {ats : List String} (h : left.Traced alg) :
    (hasPath left ats).Traced alg where
  adds := .bind_of (h.child (List.mem_singleton.2 rfl)) h.origin fun _ hv =>
    .bind (hasPath_adds fun fs p hf hp => .hasPath hf (hv fs p hp)) fun _ => .pure _
  origin := .bind fun _ => .bind fun _ => .pure nofun

theorem traced_ite {te ee : CedarExpr} (hc : cond.Traced alg)
    (ht : te.Traced alg) (he : ee.Traced alg) : (ite cond te ee).Traced alg := by
  refine Traced.of (.child hc fun c => .lift fun b => .ite ?_ ?_)
  · exact ⟨ht.child (by simp [children]),
      ⟨fun s v s' hv fs p hp => .thenExpr (ht.origin.yields s v s' hv fs p hp)⟩⟩
  · exact ⟨he.child (by simp [children]),
      ⟨fun s v s' hv fs p hp => .elseExpr (he.origin.yields s v s' hv fs p hp)⟩⟩

variable {items : List CedarExpr} {fields : List (String × CedarExpr)}

theorem evalItems_adds (h : ∀ c ∈ items, Moves (Adds P) (c.eval alg)) :
    Moves (Adds P) (evalItems alg items) := by
  induction items with
  | nil => exact .pure _
  | cons i r ih =>
    obtain ⟨hi, hr⟩ := forall_mem_cons.1 h
    exact .bind hi fun _ => .bind (ih hr) fun _ => .pure _

theorem evalFields_adds (h : ∀ field ∈ fields, Moves (Adds P) (field.2.eval alg)) :
    Moves (Adds P) (evalFields alg fields) := by
  induction fields with
  | nil => exact .pure _
  | cons field r ih =>
    obtain ⟨hf, hr⟩ := forall_mem_cons.1 h
    exact .bind hf fun _ => .bind (ih hr) fun _ => .pure _

theorem evalFields_origin (h : ∀ field ∈ fields, field.2.Traced alg) :
    Yields (fun values => ∀ attr v, values.lookup attr = some v →
      ∃ field, fields.lookup attr = some field ∧ ∀ fs p, v.Origin fs p → field.Origin fs p)
      (evalFields alg fields) := by
  induction fields with
  | nil => exact .pure nofun
  | cons field r ih =>
    obtain ⟨hf, hr⟩ := forall_mem_cons.1 h
    refine .bind_of hf.origin fun value hvl => .bind_of (ih hr) fun values hva =>
      .pure fun attr v hv => ?_
    rw [lookup_cons] at hv ⊢
    split at hv
    · cases hv
      exact ⟨field.2, rfl, hvl⟩
    · exact hva attr v hv

theorem TracedBy.list (h : ∀ c ∈ items, c.Traced alg) {k : List V → EvalM ε (Tracked V)}
    (hk : ∀ vs, e.TracedBy (k vs)) (hc : items ⊆ e.children) :
    e.TracedBy (evalItems alg items >>= k) :=
  ⟨.bind (evalItems_adds fun c hm => (h c hm).child (hc hm)) fun vs => (hk vs).adds,
    .bind fun vs => (hk vs).origin⟩

theorem traced_record (h : ∀ field ∈ fields, field.2.Traced alg) : (record fields).Traced alg where
  adds := .bind (evalFields_adds fun field hf =>
    (h field hf).child (mem_map_of_mem hf)) fun _ => .pure _
  origin := by
    refine .bind_of (evalFields_origin h) fun values hva => .pure fun fs p hp => ?_
    cases hp with
    | record hv hp =>
      obtain ⟨field, hf, ho⟩ := hva _ _ hv
      exact .record hf (ho _ _ hp)

end Cases

mutual

theorem traced : ∀ e : CedarExpr, e.Traced alg
  | .literal _ => .of .other
  | .var v => traced_var v
  | .getAttr left _ => traced_getAttr left.traced
  | .hasAttr left _ => traced_hasAttr left.traced
  | .hasPath left _ => traced_hasPath left.traced
  | .ite cond te ee => traced_ite cond.traced te.traced ee.traced
  | .and left right => .of (.child left.traced fun _ => .lift fun b =>
      .ite (.child right.traced fun _ => .value) .other)
  | .or left right => .of (.child left.traced fun _ => .lift fun b =>
      .ite .other (.child right.traced fun _ => .value))
  | .unary _ arg => .of (.child arg.traced fun _ => .value)
  | .binary _ left right => .of (.child left.traced fun _ => .child right.traced fun _ => .value)
  | .like left _ => .of (.child left.traced fun _ => .value)
  | .is_ left _ => .of (.child left.traced fun _ => .value)
  | .isIn left _ en => .of (.child left.traced fun _ => .lift fun b =>
      .ite (.child en.traced fun _ => .value) .other)
  | .set items => .of (.list (tracedItems items) (fun _ => .other) (List.Subset.refl _))
  | .record fields => traced_record (tracedFields fields)
  | .call _ ars => .of (.list (tracedItems ars) (fun _ => .value) (List.Subset.refl _))

theorem tracedItems : ∀ items : List CedarExpr, ∀ c ∈ items, c.Traced alg
  | [] => nofun
  | item :: r => forall_mem_cons.2 ⟨item.traced, tracedItems r⟩

theorem tracedFields : ∀ fields : List (String × CedarExpr), ∀ field ∈ fields, field.2.Traced alg
  | [] => nofun
  | (_, value) :: r => forall_mem_cons.2 ⟨value.traced, tracedFields r⟩

end

theorem accesses_of_mem_reads {p : List String}
    {e : CedarExpr} (h : p ∈ e.reads alg) : e.Accesses p := by
  have ht : e.Traced alg := e.traced
  obtain ⟨a, hr, ha⟩ := ht.adds.moves []
  rw [reads, hr, nil_append] at h
  exact ha p h

end CedarExpr

end Evaluation

end Dambi
