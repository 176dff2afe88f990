import Mathlib.Algebra.GroupWithZero.Nat
import Mathlib.Order.Fin.Basic

/-!
# Verdicts

`policy/verdict.rs`: the tri-state outcome of one evaluation and its
deny-overrides aggregation. `aggregate_eq` gives the loop in closed form.
-/

namespace Dambi

open List

inductive Severity where
  | deny
  | warn
deriving DecidableEq, Repr

inductive PolicyRequestOrigin where
  | action
  | tx
deriving DecidableEq, Repr

structure MatchedPolicy where
  policyId : String
  reason : Option String
  severity : Severity
  origin : PolicyRequestOrigin
deriving DecidableEq, Repr

inductive Verdict where
  | pass
  | warn (matched : List MatchedPolicy)
  | fail (matched : List MatchedPolicy)
deriving DecidableEq, Repr

namespace Verdict

def isFailure : Verdict → Bool
  | .fail _ => true
  | _ => false

def isWarning : Verdict → Bool
  | .warn _ => true
  | _ => false

def matched : Verdict → List MatchedPolicy
  | .pass => []
  | .warn v | .fail v => v

/-- The numerals of every rank rest on this one proof. -/
instance neZero_ranks : NeZero 3 := inferInstance

/-- How severe a verdict is: also the rank it raises a report to. -/
def rank : Verdict → Fin 3
  | .pass => 0
  | .warn _ => 1
  | .fail _ => 2

/-- The loop state of `aggregate`. -/
structure Tally where
  matched : List MatchedPolicy := []
  anyDeny : Bool := false
  anyWarn : Bool := false

variable (t : Tally)

def Tally.add : Verdict → Tally
  | .pass => t
  | .warn v => { t with matched := t.matched ++ v, anyWarn := true }
  | .fail v =>
    { matched := t.matched ++ v, anyDeny := true,
      anyWarn := t.anyWarn || v.any (·.severity == .warn) }

def aggregate (verdicts : List Verdict) : Verdict :=
  let t := verdicts.foldl Tally.add {}
  if t.anyDeny then .fail t.matched
  else if t.anyWarn then .warn t.matched
  else .pass

section

variable (vs : List Verdict)

private theorem foldl_add_matched :
    (vs.foldl Tally.add t).matched = t.matched ++ vs.flatMap matched := by
  induction vs generalizing t with
  | nil => simp
  | cons v r ih =>
    rw [foldl_cons, ih, flatMap_cons, ← append_assoc]
    cases v <;> simp [Tally.add, matched]

private theorem foldl_add_anyDeny :
    (vs.foldl Tally.add t).anyDeny = (t.anyDeny || vs.any isFailure) := by
  induction vs generalizing t with
  | nil => simp
  | cons v r ih =>
    rw [foldl_cons, ih]
    cases v <;> simp [Tally.add, isFailure]

private theorem foldl_add_anyWarn (h : vs.any isFailure = false) :
    (vs.foldl Tally.add t).anyWarn = (t.anyWarn || vs.any isWarning) := by
  induction vs generalizing t with
  | nil => simp
  | cons v r ih =>
    simp only [any_cons, Bool.or_eq_false_iff] at h
    rw [foldl_cons, ih _ h.2]
    cases v with
    | pass | warn v => simp [Tally.add, isWarning]
    | fail v => simp [isFailure] at h

theorem aggregate_eq :
    aggregate vs =
      if vs.any isFailure then .fail (vs.flatMap matched)
      else if vs.any isWarning then .warn (vs.flatMap matched)
      else .pass := by
  unfold aggregate
  simp only [foldl_add_matched, foldl_add_anyDeny, Bool.false_or, nil_append]
  cases h : vs.any isFailure with
  | true => simp
  | false => simp [foldl_add_anyWarn _ _ h]

theorem aggregate_isFailure : (aggregate vs).isFailure = vs.any isFailure := by
  rw [aggregate_eq]
  split
  · next h => simp [isFailure, h]
  · next h =>
    split <;> simpa [isFailure] using h

theorem aggregate_eq_pass : aggregate vs = .pass ↔ ∀ v ∈ vs, v = .pass := by
  rw [aggregate_eq]
  constructor
  · intro h v hv
    split at h
    · cases h
    · next hf =>
      split at h
      · cases h
      · next hw =>
        simp only [any_eq_true, not_exists, not_and] at hf hw
        cases v with
        | pass => rfl
        | warn m => exact absurd rfl (hw _ hv)
        | fail m => exact absurd rfl (hf _ hv)
  · intro h
    have hf : vs.any isFailure = false :=
      any_eq_false.2 fun v hv => by simp [h v hv, isFailure]
    have hw : vs.any isWarning = false :=
      any_eq_false.2 fun v hv => by simp [h v hv, isWarning]
    simp [hf, hw]

end

example : aggregate [.pass, .warn [], .fail []] = .fail [] := rfl

/-! ## The order of matches -/

/-- The same verdict with its matched policies in any order. -/
inductive Reordered : Verdict → Verdict → Prop
  | pass : Reordered .pass .pass
  | warn {m m' : List MatchedPolicy} (h : m.Perm m') : Reordered (.warn m) (.warn m')
  | fail {m m' : List MatchedPolicy} (h : m.Perm m') : Reordered (.fail m) (.fail m')

@[refl] theorem Reordered.refl (v : Verdict) : Reordered v v := by
  cases v with
  | pass => exact .pass
  | warn m => exact .warn (.refl m)
  | fail m => exact .fail (.refl m)

theorem Reordered.aggregate {vs vs' : List Verdict} (h : List.Forall₂ Reordered vs vs') :
    Reordered (aggregate vs) (aggregate vs') := by
  have hp : vs.any isFailure = vs'.any isFailure ∧ vs.any isWarning = vs'.any isWarning ∧
      (vs.flatMap matched).Perm (vs'.flatMap matched) := by
    induction h with
    | nil => exact ⟨rfl, rfl, .nil⟩
    | cons hv _ ih =>
      obtain ⟨hf, hw, hm⟩ := ih
      simp only [any_cons, flatMap_cons, hf, hw]
      cases hv with
      | pass => exact ⟨rfl, rfl, hm⟩
      | warn h | fail h => exact ⟨rfl, rfl, h.append hm⟩
  obtain ⟨hf, hw, hm⟩ := hp
  rw [aggregate_eq, aggregate_eq, hf, hw]
  split_ifs
  exacts [.fail hm, .warn hm, .pass]

/-! ## Aggregates and ranks -/

@[simp] theorem aggregate_singleton (v : Verdict) : aggregate [v] = v := by
  cases v <;> rfl

theorem aggregate_map_getD {α : Type} (f : α → Option Verdict) (xs : List α) :
    aggregate (xs.map fun x => (f x).getD .pass) = aggregate (xs.filterMap f) := by
  have ht (t : Tally) : (xs.map fun x => (f x).getD .pass).foldl Tally.add t =
      (xs.filterMap f).foldl Tally.add t := by
    induction xs generalizing t with
    | nil => rfl
    | cons x r ih => cases hx : f x <;> simp [hx, ih, Tally.add]
  simp only [aggregate, ht]

theorem rank_aggregate_le {vs : List Verdict} {r : Fin 3} :
    (aggregate vs).rank ≤ r ↔ ∀ v ∈ vs, v.rank ≤ r := by
  rw [aggregate_eq]
  split
  · next hf =>
    obtain ⟨v, hv, hfa⟩ := any_eq_true.1 hf
    refine ⟨fun h v _ => le_trans (Fin.le_last v.rank) h, fun h => ?_⟩
    cases v with
    | fail m => exact h (.fail m) hv
    | _ => cases hfa
  · next hf =>
    have hn : ∀ v ∈ vs, v.isFailure = false := by simpa using hf
    split
    · next hw =>
      obtain ⟨v, hv, hwa⟩ := any_eq_true.1 hw
      refine ⟨fun h v hv => le_trans ?_ h, fun h => ?_⟩
      · cases v with
        | pass => exact Fin.zero_le _
        | warn m => exact le_rfl
        | fail m => cases hn _ hv
      · cases v with
        | warn m => exact h (.warn m) hv
        | _ => cases hwa
    · next hw =>
      have hnw : ∀ v ∈ vs, v.isWarning = false := by simpa using hw
      refine ⟨fun _ v hv => ?_, fun _ => Fin.zero_le r⟩
      cases v with
      | pass => exact Fin.zero_le r
      | warn m => cases hnw _ hv
      | fail m => cases hn _ hv

theorem rank_aggregate (vs : List Verdict) : (aggregate vs).rank = (vs.map rank).foldr max 0 := by
  have hm (r : Fin 3) : (vs.map rank).foldr max 0 ≤ r ↔ ∀ v ∈ vs, v.rank ≤ r := by
    induction vs with
    | nil => simp
    | cons v re ih => simp [ih]
  exact eq_of_forall_ge_iff fun r => rank_aggregate_le.trans (hm r).symm

end Verdict

end Dambi
