import Mathlib.Algebra.Order.Floor.Ring
import Mathlib.Analysis.Real.Sqrt
import Mathlib.Tactic.Linarith
import Mathlib.Tactic.Ring
import Mathlib.Tactic.LinearCombination
import Mathlib.Tactic.Positivity

/-!
# Newton rounds for a quadratic equation

The iteration `x ↦ ⌊(x² + c) / (2x + p)⌋` over the integers, against the greater
real root of `x² + px = c`. A round never falls a whole unit below the root, and
from above it halves the distance; so a run stops at neighbouring values, and
these are within one unit of the root.
-/

namespace Newton

/-- The greater root of `x² + px = c`. -/
structure IsRoot (p c : Int) (r : ℝ) : Prop where
  eq : r * r + p * r = c
  slope : 0 ≤ 2 * r + p

/-- One round, over a positive slope. -/
structure Round (p c x y : Int) : Prop where
  pos : 0 < 2 * x + p
  eq : y = (x * x + c) / (2 * x + p)

/-- A value that is no unit below the root and at most `2 ^ k` above it. -/
def Near (r : ℝ) (k : Nat) (x : Int) : Prop := r < x + 1 ∧ x - r ≤ 2 ^ k

variable {p c x y : Int} {r : ℝ}

/-! ## The root -/

theorem IsRoot.le (h : IsRoot p c r) {t : ℝ} (ht : t * t + p * t = c) : t ≤ r := by
  by_contra hlt
  have heq : (t - r) * (t + r + p) = 0 := by linear_combination ht - h.eq
  have hs := h.slope
  rcases mul_eq_zero.1 heq with hz | hz <;> linarith

theorem exists_isRoot (p : Int) (hc : 0 ≤ c) : ∃ r, IsRoot p c r ∧ 0 ≤ r := by
  have hc' : (0 : ℝ) ≤ c := Int.cast_nonneg hc
  have hs := Real.sq_sqrt (show (0 : ℝ) ≤ p * p + 4 * c by nlinarith [mul_self_nonneg (p : ℝ)])
  have hp := Real.sqrt_nonneg (p * p + 4 * c : ℝ)
  refine ⟨(√(p * p + 4 * c) - p) / 2, ⟨by linear_combination hs / 4, by linarith⟩, ?_⟩
  have hl : (p : ℝ) ≤ √(p * p + 4 * c) := Real.le_sqrt_of_sq_le (by linarith [sq (p : ℝ)])
  linarith

/-! ## One round -/

namespace Round

section

variable (h : Round p c x y)
include h

theorem slope_pos : (1 : ℝ) ≤ 2 * x + p := by
  exact_mod_cast Int.add_one_le_of_lt h.pos

section

variable (hr : IsRoot p c r)
include hr

/-- The quotient of a round lies between two multiples of the slope, and the root's multiple is
less than the dividend by the square of the distance. -/
theorem bounds :
    (y - r) * (2 * x + p) ≤ (x - r) * (x - r) ∧ (x - r) * (x - r) < (y + 1 - r) * (2 * x + p) := by
  have hl : y * (2 * x + p) ≤ x * x + c := h.eq ▸ Int.ediv_mul_le _ h.pos.ne'
  have hu : x * x + c < (y + 1) * (2 * x + p) := h.eq ▸ Int.lt_ediv_add_one_mul_self _ h.pos
  have hl' : (y * (2 * x + p) : ℝ) ≤ x * x + c := by exact_mod_cast hl
  have hu' : (x * x + c : ℝ) < (y + 1) * (2 * x + p) := by exact_mod_cast hu
  have hc := hr.eq
  constructor <;> nlinarith

/-- A round never falls a whole unit below the root. -/
theorem lt_add_one : r < y + 1 := by
  have hs := h.slope_pos
  have hu := (h.bounds hr).2
  by_contra hle
  nlinarith [mul_self_nonneg (x - r)]

theorem halves (hx : r ≤ x) : 2 * (y - r) ≤ x - r := by
  have hs := h.slope_pos
  have hl := (h.bounds hr).1
  have hro := hr.slope
  by_contra hlt
  -- The slope is at least twice the distance, so twice the quotient is at most the distance.
  have he : (0 : ℝ) < 2 * (y - r) - (x - r) := by linarith
  have hp : (0 : ℝ) < 2 * x + p := by linarith
  nlinarith [mul_pos he hp]

/-- From less than a unit below, a round stays less than a unit above the root. -/
theorem lt_of_below (hx : x < r) (hn : r < x + 1) : y < r + 1 := by
  have hs := h.slope_pos
  have hlo := (h.bounds hr).1
  by_contra hl
  have hl := not_lt.1 hl
  nlinarith

/-- Neighbouring values are within one unit of the root. -/
theorem accurate (hs : |y - x| ≤ 1) : |(y : ℝ) - r| ≤ 1 := by
  have hb := h.lt_add_one hr
  obtain ⟨hl, hu⟩ := abs_le.1 hs
  have hl' : (-1 : ℝ) ≤ y - x := by exact_mod_cast hl
  have hu' : (y - x : ℝ) ≤ 1 := by exact_mod_cast hu
  rw [abs_le]
  rcases le_total r x with hx | hx
  · have hh := h.halves hr hx
    constructor <;> linarith
  · constructor <;> linarith

/-- At most one unit above the root a round moves by at most one. -/
theorem stops (hx : Near r 0 x) : |y - x| ≤ 1 := by
  obtain ⟨hb, ha⟩ := hx
  have hy := h.lt_add_one hr
  rw [pow_zero] at ha
  have hl : x - 2 < y := by
    have hc : ((x - 2 : Int) : ℝ) < y := by push_cast; linarith
    exact_mod_cast hc
  have hu : y < x + 2 := by
    have hc : (y : ℝ) < ((x + 2 : Int) : ℝ) := by
      push_cast
      rcases le_or_gt r x with hx | hx
      · linarith [h.halves hr hx]
      · linarith [h.lt_of_below hr hx hb]
    exact_mod_cast hc
  rw [abs_le]
  omega

theorem near {k : Nat} (hx : Near r (k + 1) x) : Near r k y := by
  refine ⟨h.lt_add_one hr, ?_⟩
  have hp : (1 : ℝ) ≤ 2 ^ k := one_le_pow₀ (by norm_num)
  rcases le_or_gt r x with hl | hlt
  · have ha := hx.2
    rw [pow_succ] at ha
    linarith [h.halves hr hl]
  · linarith [h.lt_of_below hr hlt hx.1]

end

/-- Only a round that moves by at most one reaches the double root of `x² = 0`. -/
theorem ne_zero (hx : 0 ≤ x) (hm : ¬ |y - x| ≤ 1) : y ≠ 0 ∨ p ≠ 0 ∨ c ≠ 0 := by
  by_contra hzero
  obtain ⟨rfl, rfl, rfl⟩ : y = 0 ∧ p = 0 ∧ c = 0 := by simpa using hzero
  have hu : x * x + 0 < (0 + 1) * (2 * x + 0) :=
    lt_of_lt_of_eq (Int.lt_ediv_add_one_mul_self _ h.pos) (by rw [← h.eq])
  have hl : x < 2 := by nlinarith
  exact hm (abs_le.2 (by omega))

end

end Round

/-! ## The slope along a run -/

/-- Past the first round the slope is positive, unless the equation is `x² = 0` and the run has
reached its root. -/
theorem slope_pos_of_near (hr : IsRoot p c r) (hc : 0 ≤ c) (hnr : r < x + 1) (hx : 0 ≤ x)
    (hn : x ≠ 0 ∨ p ≠ 0 ∨ c ≠ 0) : 0 < 2 * x + p := by
  by_contra hle
  have hle' : (2 * x + p : ℝ) ≤ 0 := by exact_mod_cast not_lt.1 hle
  have hs := hr.slope
  have heq := hr.eq
  have hx' : (0 : ℝ) ≤ x := Int.cast_nonneg hx
  -- The square of the slope at the root is `p² + 4c`, and it is less than four.
  have hd : ((p * p + 4 * c : Int) : ℝ) < ((4 : Int) : ℝ) := by
    push_cast
    nlinarith
  have hd : p * p + 4 * c < 4 := by exact_mod_cast hd
  have hp : -2 < p ∧ p < 2 := ⟨by nlinarith, by nlinarith⟩
  obtain rfl : c = 0 := by nlinarith [mul_self_nonneg p]
  have hca : p = -1 ∨ p = 0 ∨ p = 1 := by omega
  rcases hca with rfl | rfl | rfl
  · have hro : (1 : ℝ) ≤ r := by
      push_cast at heq hs
      nlinarith
    have ho : x < 1 := by omega
    have ho' : (x : ℝ) + 1 ≤ 1 := by
      have hz : x = 0 := by omega
      rw [hz]
      norm_num
    linarith
  · omega
  · omega

end Newton
