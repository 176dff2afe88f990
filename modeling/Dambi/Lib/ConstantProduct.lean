import Mathlib.Algebra.Order.Ring.Nat
import Mathlib.Tactic.Linarith
import Mathlib.Tactic.Ring

/-!
# Constant products over the integers

What a pool of two reserves pays out for an amount when the product of its
reserves must not fall, rounded down.
-/

namespace ConstantProduct

/-- The payout from `y` for `p` paid into `x`. -/
def payout (x y p : Nat) : Nat := y * p / (x + p)

variable {x y p q : Nat}

theorem payout_zero (x y : Nat) : payout x y 0 = 0 := by
  rw [payout, Nat.mul_zero, Nat.zero_div]

theorem payout_mul_le (x y p : Nat) : payout x y p * (x + p) ≤ y * p := Nat.div_mul_le_self _ _

theorem payout_le (x y p : Nat) : payout x y p ≤ y := by
  refine Nat.div_le_of_le_mul ?_
  rw [Nat.mul_comm]
  exact Nat.mul_le_mul_right y (Nat.le_add_left p x)

theorem payout_mono (x y : Nat) : Monotone (payout x y) := by
  intro p q hpq
  rcases Nat.eq_zero_or_pos (x + q) with hz | hp
  · obtain rfl : p = q := by omega
    exact Nat.le_refl _
  · obtain ⟨more, rfl⟩ := Nat.exists_eq_add_of_le hpq
    refine (Nat.le_div_iff_mul_le hp).2 ?_
    calc payout x y p * (x + (p + more))
        = payout x y p * (x + p) + payout x y p * more := by ring
      _ ≤ y * p + y * more :=
        Nat.add_le_add (payout_mul_le x y p) (Nat.mul_le_mul_right more (payout_le x y p))
      _ = y * (p + more) := by ring

/-- A pool that holds both coins never pays out its whole reserve. -/
theorem payout_lt (hx : 0 < x) (hy : 0 < y) (p : Nat) : payout x y p < y := by
  refine (Nat.div_lt_iff_lt_mul (Nat.add_pos_left hx p)).2 ?_
  exact Nat.mul_lt_mul_of_pos_left (Nat.lt_add_of_pos_left hx) hy

/-- A pool that holds none of the paid coin pays out everything. -/
theorem payout_of_empty (hp : 0 < p) (y : Nat) : payout 0 y p = y := by
  rw [payout, Nat.zero_add, Nat.mul_div_cancel _ hp]

/-- The product of the reserves does not fall, also where only part of the amount counts and where
reserve and amount are in a smaller unit. -/
theorem product_le {k a : Nat} (hk : 0 < k) (hp : p ≤ k * a) :
    x * y ≤ (x + a) * (y - payout (k * x) y p) := by
  obtain ⟨ke, hke⟩ := Nat.exists_eq_add_of_le (payout_le (k * x) y p)
  have hm := payout_mul_le (k * x) y p
  generalize payout (k * x) y p = out at hke hm ⊢
  subst hke
  rw [Nat.add_sub_cancel_left]
  -- In the smaller unit: what is kept, times the reserve with the amount, is the product at least.
  have hs : k * (x * (out + ke)) ≤ k * ((x + a) * ke) := by
    have hke := Nat.mul_le_mul_right ke hp
    nlinarith
  exact Nat.le_of_mul_le_mul_left hs hk

end ConstantProduct
