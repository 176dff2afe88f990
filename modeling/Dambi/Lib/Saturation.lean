import Mathlib.Algebra.Order.Group.Int
import Mathlib.Algebra.Order.Ring.Int
import Mathlib.Data.List.Basic
import Mathlib.Algebra.BigOperators.Group.List.Defs

/-!
# Sums under a ceiling

A running total that is cut off at a ceiling after every term and must not
fall below zero. The whole run has a closed form in four numbers of the list
of terms: its sum, its lowest and highest partial sum and its largest fall.
-/

namespace Saturation

open List

/-! ## Partial sums -/

/-- The lowest partial sum, the empty one included. -/
def low : List Int → Int
  | [] => 0
  | d :: ds => min 0 (d + low ds)

/-- The highest partial sum, the empty one included. -/
def high : List Int → Int
  | [] => 0
  | d :: ds => max 0 (d + high ds)

/-- The largest fall from one partial sum to a later one. -/
def fall : List Int → Int
  | [] => 0
  | d :: ds => max (-low (d :: ds)) (fall ds)

variable (ds : List Int)

theorem low_le_zero : low ds ≤ 0 := by
  cases ds with
  | nil => exact le_refl 0
  | cons d ds => exact min_le_left 0 _

theorem zero_le_high : 0 ≤ high ds := by
  cases ds with
  | nil => exact le_refl 0
  | cons d ds => exact le_max_left 0 _

theorem sum_le_high : ds.sum ≤ high ds := by
  induction ds with
  | nil => exact le_refl 0
  | cons d ds ih =>
    simp only [high, sum_cons]
    omega

theorem neg_low_le_fall : -low ds ≤ fall ds := by
  cases ds with
  | nil => exact le_refl 0
  | cons d ds => exact le_max_left _ _

theorem fall_le : fall ds ≤ high ds - low ds := by
  induction ds with
  | nil => exact le_refl 0
  | cons d ds ih =>
    simp only [fall, low, high]
    omega

/-! ## Runs -/

section Runs

variable (ceiling : Int)

/-- One term: the total is cut off before and after it, and must not fall below zero. -/
def step (x d : Int) : Option Int :=
  let y := min (min x ceiling + d) ceiling
  if y < 0 then none else some y

def run (x : Int) (ds : List Int) : Option Int := ds.foldlM (step ceiling) x

/-- Where a run ends that never falls below zero. -/
def finish (x : Int) : List Int → Int
  | [] => x
  | d :: ds => min (min x ceiling + (d :: ds).sum) (ceiling + ds.sum - high ds)

variable {ceiling : Int} {x y d : Int} {ds : List Int}

theorem run_cons : run ceiling x (d :: ds) = (step ceiling x d).bind (run ceiling · ds) :=
  foldlM_cons

theorem step_eq_some : step ceiling x d = some y ↔
    0 ≤ min (min x ceiling + d) ceiling ∧ y = min (min x ceiling + d) ceiling := by
  simp only [step]
  split
  · simp only [reduceCtorEq, false_iff, not_and]
    omega
  · rw [Option.some.injEq]
    omega

theorem run_eq_some_of_le (hx : 0 ≤ x) (hle : x ≤ ceiling) : run ceiling x ds = some y ↔
    -low ds ≤ x ∧ fall ds ≤ ceiling ∧ y = min (x + ds.sum) (ceiling + ds.sum - high ds) := by
  induction ds generalizing x with
  | nil =>
    simp only [run, foldlM_nil, pure, Option.some.injEq, low, fall, high, sum_nil]
    omega
  | cons d ds ih =>
    have hl := low_le_zero ds
    have hh := zero_le_high ds
    have hfa := neg_low_le_fall ds
    simp only [run_cons, Option.bind_eq_some_iff, step_eq_some, low, fall, high, sum_cons]
    constructor
    · rintro ⟨mid, ⟨hm, rfl⟩, hr⟩
      obtain ⟨hc, hf, rfl⟩ := (ih hm (min_le_right _ _)).1 hr
      omega
    · rintro ⟨hc, hf, rfl⟩
      have hm : 0 ≤ min (min x ceiling + d) ceiling := by omega
      refine ⟨_, ⟨hm, rfl⟩, (ih hm (min_le_right _ _)).2 ?_⟩
      omega

theorem run_eq_some (hx : 0 ≤ x) (hce : 0 ≤ ceiling) : run ceiling x ds = some y ↔
    -low ds ≤ min x ceiling ∧ fall ds ≤ ceiling ∧ y = finish ceiling x ds := by
  cases ds with
  | nil =>
    simp only [run, foldlM_nil, pure, Option.some.injEq, low, fall, finish]
    omega
  | cons d ds =>
    have hc : run ceiling x (d :: ds) = run ceiling (min x ceiling) (d :: ds) := by
      simp [run_cons, step]
    have hh := zero_le_high ds
    rw [hc, run_eq_some_of_le (by omega) (min_le_right _ _)]
    simp only [finish, high, sum_cons]
    omega

/-- An amount taken before the terms lowers the end of the run by itself exactly when the run
stays under the ceiling. -/
theorem finish_sub {a : Int} (ha : 0 ≤ a) :
    finish ceiling x ds - finish ceiling (x - a) ds = a ↔
      a = 0 ∨ ds = [] ∨ x + high ds ≤ ceiling := by
  cases ds with
  | nil =>
    simp only [finish, true_or, or_true, iff_true]
    omega
  | cons d ds =>
    simp only [finish, high, sum_cons, reduceCtorEq, false_or]
    omega

theorem finish_le (hn : ds ≠ []) : finish ceiling x ds ≤ ceiling := by
  cases ds with
  | nil => exact absurd rfl hn
  | cons d ds =>
    have hs := sum_le_high ds
    simp only [finish]
    omega

theorem run_eq_sum (hx : 0 ≤ x) (hh : x + high ds ≤ ceiling) (hl : -low ds ≤ x) :
    run ceiling x ds = some (x + ds.sum) := by
  have hz := zero_le_high ds
  have hf := fall_le ds
  refine (run_eq_some hx (by omega)).2 ⟨by omega, by omega, ?_⟩
  cases ds with
  | nil => exact add_zero x
  | cons d ds =>
    simp only [finish, high, sum_cons] at *
    omega

end Runs

end Saturation
