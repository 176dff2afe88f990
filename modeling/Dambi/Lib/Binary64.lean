import Mathlib.Algebra.Order.Field.Power
import Mathlib.Data.Int.Log
import Dambi.Lib.Decimal

/-!
# Doubles

The finite doubles as rationals, rounding to nearest with ties to even, and the
shortest decimal that rounds to a given double. A magnitude is coded by the
lower 63 bits of its word, so the codes are ordered as the magnitudes are.
-/

@[ext] structure Binary64 where
  bits : UInt64
deriving DecidableEq

namespace Binary64

open List

/-! ## Rounding -/

/-- The code of infinity; greater codes are no numbers. -/
def infinity : Nat := 2047 * 2 ^ 52

/-- The magnitude with a code: a code below `2 ^ 52` is subnormal. -/
def magnitude (code : Nat) : ℚ :=
  if code < 2 ^ 52 then code * 2 ^ (-1074 : Int)
  else (2 ^ 52 + code % 2 ^ 52 : Nat) * 2 ^ ((code / 2 ^ 52 : Nat) - 1075 : Int)

def roundEven (r : ℚ) : Nat :=
  let low := ⌊r⌋₊
  if r - low < 1 / 2 then low
  else if 1 / 2 < r - low then low + 1
  else if low % 2 = 0 then low else low + 1

/-- The exponent of the last place of the doubles around `r`. -/
def lastPlace (r : ℚ) : Int := max (-1074) (Int.log 2 r - 52)

/-- The code of the double nearest to a magnitude. -/
def roundCode (r : ℚ) : Nat :=
  if r = 0 then 0
  else min infinity ((lastPlace r + 1074).toNat * 2 ^ 52 + roundEven (r / 2 ^ lastPlace r))

theorem roundEven_natCast (n : Nat) : roundEven n = n := by
  simp [roundEven]

theorem le_roundEven {n : Nat} {r : ℚ} (h : (n : ℚ) ≤ r) : n ≤ roundEven r := by
  have hl : n ≤ ⌊r⌋₊ := Nat.le_floor h
  simp only [roundEven]
  split_ifs <;> omega

/-- A mantissa and the exponent of its last place, as a code keeps them: it is full, or the
exponent is the least one. -/
structure Fields (k m : Nat) : Prop where
  lt : m < 2 ^ 53
  full : 2 ^ 52 ≤ m ∨ k = 0

theorem exists_fields (c : Nat) : ∃ k m, Fields k m ∧ c = k * 2 ^ 52 + m := by
  by_cases hc : c < 2 ^ 52
  · exact ⟨0, c, ⟨by omega, .inr rfl⟩, by omega⟩
  · exact ⟨c / 2 ^ 52 - 1, 2 ^ 52 + c % 2 ^ 52, ⟨by omega, .inl (by omega)⟩, by omega⟩

namespace Fields

variable {k m : Nat} (h : Fields k m)

include h

theorem magnitude_eq : magnitude (k * 2 ^ 52 + m) = m * 2 ^ (k - 1074 : Int) := by
  have hl := h.lt
  unfold magnitude
  split
  · next hs =>
    obtain rfl : k = 0 := by omega
    simp
  · next hn =>
    have hf : 2 ^ 52 ≤ m := by
      rcases h.full with hf | rfl <;> omega
    have hq : (k * 2 ^ 52 + m) / 2 ^ 52 = k + 1 := by omega
    have hm : 2 ^ 52 + (k * 2 ^ 52 + m) % 2 ^ 52 = m := by omega
    rw [hq, hm]
    congr 2
    push_cast
    ring

theorem lastPlace_eq (hm : 0 < m) : lastPlace (m * 2 ^ (k - 1074 : Int)) = k - 1074 := by
  have hp : (0 : ℚ) < m * 2 ^ (k - 1074 : Int) :=
    mul_pos (by exact_mod_cast hm) (zpow_pos (by norm_num) _)
  have hu : Int.log 2 ((m : ℚ) * 2 ^ (k - 1074 : Int)) < 53 + (k - 1074) := by
    refine (Int.lt_zpow_iff_log_lt (by decide) hp).1 ?_
    push_cast
    rw [zpow_add₀ (by norm_num)]
    gcongr
    exact_mod_cast h.lt
  unfold lastPlace
  rcases h.full with hf | rfl
  · have hl : 52 + (k - 1074) ≤ Int.log 2 ((m : ℚ) * 2 ^ (k - 1074 : Int)) := by
      refine (Int.zpow_le_iff_le_log (by decide) hp).1 ?_
      push_cast
      rw [zpow_add₀ (by norm_num)]
      gcongr
      exact_mod_cast hf
    omega
  · simp only [Nat.cast_zero] at hu ⊢
    omega

theorem roundCode_eq (hm : 0 < m) :
    roundCode (m * 2 ^ (k - 1074 : Int)) = min infinity (k * 2 ^ 52 + m) := by
  have hn : (m : ℚ) * 2 ^ (k - 1074 : Int) ≠ 0 :=
    mul_ne_zero (by exact_mod_cast hm.ne') (zpow_ne_zero _ (by norm_num))
  rw [roundCode, if_neg hn, h.lastPlace_eq hm, mul_div_assoc,
    div_self (zpow_ne_zero _ (by norm_num)), mul_one, roundEven_natCast]
  congr 3
  omega

end Fields

variable {c n : Nat}

theorem roundCode_magnitude (h : c < infinity) : roundCode (magnitude c) = c := by
  obtain ⟨k, m, hf, rfl⟩ := exists_fields c
  rw [hf.magnitude_eq]
  rcases Nat.eq_zero_or_pos m with rfl | hm
  · rcases hf.full with hfu | rfl
    · omega
    · simp [roundCode]
  · rw [hf.roundCode_eq hm, min_eq_right h.le]

/-! ## Natural numbers -/

/-- A natural number below `2 ^ 53` is a double. -/
theorem magnitude_roundCode_natCast (h : n < 2 ^ 53) : magnitude (roundCode n) = n := by
  rcases Nat.eq_zero_or_pos n with rfl | hn
  · simp [roundCode, magnitude]
  have hl : Nat.log 2 n ≤ 52 := Nat.le_of_lt_succ (Nat.log_lt_of_lt_pow hn.ne' h)
  have hf : Fields (Nat.log 2 n + 1022) (n * 2 ^ (52 - Nat.log 2 n)) := by
    have hp : 2 ^ Nat.log 2 n * 2 ^ (52 - Nat.log 2 n) = 2 ^ 52 := by
      rw [← pow_add, Nat.add_sub_cancel' hl]
    constructor
    · calc n * 2 ^ (52 - Nat.log 2 n)
        _ < 2 ^ (Nat.log 2 n + 1) * 2 ^ (52 - Nat.log 2 n) :=
          Nat.mul_lt_mul_of_pos_right (Nat.lt_pow_succ_log_self (by decide) n) (by positivity)
        _ = 2 ^ 53 := by rw [pow_succ, mul_right_comm, hp]; rfl
    · left
      rw [← hp]
      exact Nat.mul_le_mul_right _ (Nat.pow_log_le_self 2 hn.ne')
  have heq : (n : ℚ) = (n * 2 ^ (52 - Nat.log 2 n) : Nat) *
      2 ^ ((Nat.log 2 n + 1022 : Nat) - 1074 : Int) := by
    push_cast
    rw [mul_assoc, ← zpow_natCast, ← zpow_add₀ (by norm_num)]
    have hz : ((52 - Nat.log 2 n : Nat) : Int) + (Nat.log 2 n + 1022 - 1074) = 0 := by omega
    rw [hz, zpow_zero, mul_one]
  conv_lhs => rw [heq, hf.roundCode_eq (by positivity)]
  rw [min_eq_right, hf.magnitude_eq, ← heq]
  have hlt := hf.lt
  unfold infinity
  omega

theorem le_roundCode (h : 2 ^ 53 ≤ n) : 1076 * 2 ^ 52 ≤ roundCode n := by
  have hn : n ≠ 0 := by omega
  have hl : 53 ≤ Nat.log 2 n := Nat.le_log_of_pow_le (by decide) h
  have hpl : lastPlace n = (Nat.log 2 n - 52 : Nat) := by
    rw [lastPlace, Int.log_natCast]
    omega
  have hr : 2 ^ 52 ≤ roundEven (n / 2 ^ lastPlace n) := by
    refine le_roundEven ?_
    rw [hpl, zpow_natCast, le_div_iff₀ (by positivity)]
    have hp : 2 ^ 52 * 2 ^ (Nat.log 2 n - 52) ≤ n := by
      rw [← pow_add, Nat.add_sub_cancel' (by omega)]
      exact Nat.pow_log_le_self 2 hn
    exact_mod_cast hp
  rw [roundCode, if_neg (by exact_mod_cast hn)]
  unfold infinity
  omega

theorem le_magnitude (h : 1076 * 2 ^ 52 ≤ c) : (2 : ℚ) ^ 53 ≤ magnitude c := by
  obtain ⟨k, m, hf, rfl⟩ := exists_fields c
  have hl := hf.lt
  have hfu : 2 ^ 52 ≤ m := hf.full.resolve_right (by omega)
  have hk : (1 : Int) ≤ k - 1074 := by omega
  rw [hf.magnitude_eq]
  calc (2 : ℚ) ^ 53
    _ = (2 ^ 52 : Nat) * 2 ^ (1 : Int) := by norm_num
    _ ≤ m * 2 ^ (k - 1074 : Int) := by
      gcongr
      norm_num

/-- Only the number itself rounds to the double of a natural number below `2 ^ 53`. -/
theorem eq_of_roundCode_eq {d : Nat} (hn : n < 2 ^ 53) (hc : magnitude c = n)
    (h : roundCode d = c) : d = n := by
  by_cases hd : d < 2 ^ 53
  · have hm := magnitude_roundCode_natCast hd
    rw [h, hc] at hm
    exact_mod_cast hm.symm
  · have hl := le_magnitude (le_roundCode (Nat.le_of_not_lt hd))
    rw [h, hc] at hl
    exact absurd (by exact_mod_cast hl : 2 ^ 53 ≤ n) (Nat.not_le.2 hn)

/-! ## The shortest decimal -/

/-- The coefficient of a decimal next to a double that rounds to it, with `10 ^ k` as its
last place. If both neighbours do, the nearer one is taken. -/
def coefficient? (c : Nat) (k : Int) : Option Nat :=
  let r := magnitude c / 10 ^ k
  let low := ⌊r⌋₊
  let down := roundCode (low * 10 ^ k) = c
  let up := roundCode ((low + 1 : Nat) * 10 ^ k) = c
  if up ∧ (¬ down ∨ 1 / 2 ≤ r - low) then some (low + 1)
  else if down then some low
  else none

def lastPlaces (c : Nat) : List Int :=
  (List.range 17).map fun n : Nat => Int.log 10 (magnitude c) - n

/-- The decimal with the fewest digits that rounds to a double. Seventeen digits suffice, so the
exact decimal is never taken. -/
def shortest (c : Nat) : Nat × Int :=
  ((lastPlaces c).findSome? fun k => (coefficient? c k).map (·, k)).getD
    (⌊magnitude c * 10 ^ 1074⌋₊, -1074)

theorem roundCode_of_coefficient? {d : Nat} {k : Int} (h : coefficient? c k = some d) :
    roundCode (d * 10 ^ k) = c := by
  simp only [coefficient?] at h
  split at h
  · next hu =>
    cases h
    exact hu.1
  · split at h
    · next hd =>
      cases h
      exact hd
    · cases h

theorem coefficient?_zero_isSome (hc : c < infinity) (hn : magnitude c = n) :
    (coefficient? c 0).isSome := by
  have hd : roundCode n = c := by rw [← hn, roundCode_magnitude hc]
  unfold coefficient?
  simp only [hn, zpow_zero, div_one, Nat.floor_natCast, mul_one, hd, if_true]
  split <;> rfl

theorem shortest_natCast (hc : c < infinity) (h : n < 2 ^ 53) (hn : magnitude c = n) :
    ∃ d k : Nat, shortest c = (d, (k : Int)) ∧ d * 10 ^ k = n := by
  have hl : Nat.log 10 n + 1 ≤ 17 := by
    have hlt : n < 10 ^ 16 := by omega
    have hle : Nat.log 10 n ≤ Nat.log 10 (10 ^ 16) := Nat.log_mono_right hlt.le
    rw [Nat.log_pow (by decide)] at hle
    omega
  -- the decimals of at most as many digits as the number has are natural numbers
  obtain ⟨mo, hm⟩ := Nat.exists_eq_add_of_le hl
  have hp : lastPlaces c =
      (range (Nat.log 10 n + 1)).map (fun i : Nat => (Nat.log 10 n : Int) - i) ++
        (range mo).map (fun i => (Nat.log 10 n : Int) - (Nat.log 10 n + 1 + i : Nat)) := by
    rw [lastPlaces, hn, Int.log_natCast, hm, range_add, map_append, map_map]
    rfl
  have hs : (((range (Nat.log 10 n + 1)).map fun i : Nat =>
      (Nat.log 10 n : Int) - i).findSome? fun k => (coefficient? c k).map (·, k)).isSome := by
    rw [findSome?_isSome_iff]
    refine ⟨0, mem_map.2 ⟨Nat.log 10 n, by simp, by simp⟩, ?_⟩
    rw [Option.isSome_map]
    exact coefficient?_zero_isSome hc hn
  obtain ⟨⟨d, k⟩, hf⟩ := Option.isSome_iff_exists.1 hs
  obtain ⟨p, hpl, hd⟩ := exists_of_findSome?_eq_some hf
  obtain ⟨i, hi, rfl⟩ := mem_map.1 hpl
  obtain ⟨co, hco, heq⟩ := Option.map_eq_some_iff.1 hd
  cases heq
  have hi : i ≤ Nat.log 10 n := Nat.le_of_lt_succ (mem_range.1 hi)
  refine ⟨d, Nat.log 10 n - i, ?_, ?_⟩
  · rw [shortest, hp, findSome?_append, hf, Nat.cast_sub hi]
    rfl
  · have hr := roundCode_of_coefficient? hco
    rw [← Nat.cast_sub hi, zpow_natCast] at hr
    refine eq_of_roundCode_eq h hn ?_
    exact_mod_cast hr

/-! ## Words -/

variable (x : Binary64)

def negative : Bool := 2 ^ 63 ≤ x.bits.toNat

def code : Nat := x.bits.toNat % 2 ^ 63

def isFinite : Bool := x.code < infinity

/-- The value of a finite double. -/
def toRat : ℚ := Decimal.signed x.negative (magnitude x.code)

theorem abs_toRat : |x.toRat| = magnitude x.code := by
  have hn : 0 ≤ magnitude x.code := by
    unfold magnitude
    split <;> positivity
  unfold toRat Decimal.signed
  split
  · rw [abs_neg, abs_of_nonneg hn]
  · exact abs_of_nonneg hn

def ofCode (negative : Bool) (code : Nat) : Binary64 :=
  ⟨.ofNat (if negative then 2 ^ 63 + code else code)⟩

/-- The double nearest to the number of a literal. -/
def ofLiteral (l : Decimal.Literal) : Binary64 :=
  ofCode l.negative (roundCode (Decimal.value l.digits * 10 ^ l.scale))

/-- The shortest decimal that rounds to a double, without zeros at its end. -/
def coefficient : List (Fin 10) := (Decimal.digits (shortest x.code).1).rdropWhile (· = 0)

def scale : Int :=
  (shortest x.code).2 + ((Decimal.digits (shortest x.code).1).length - x.coefficient.length : Nat)

theorem value_coefficient : (Decimal.value x.coefficient : ℚ) * 10 ^ x.scale =
    (shortest x.code).1 * 10 ^ (shortest x.code).2 := by
  have hv := Decimal.value_rdropWhile (Decimal.digits (shortest x.code).1)
  rw [Decimal.value_digits] at hv
  conv_rhs => rw [hv]
  rw [scale, zpow_add₀ (by norm_num), zpow_natCast]
  push_cast
  rw [coefficient]
  ring

/-- The shortest decimal that rounds to a double, written without an exponent. -/
def display : Decimal.Literal := .positional x.negative x.coefficient x.scale

/-- A natural number below `2 ^ 53` is displayed as it is, with its sign. -/
theorem display_toRat {x : Binary64} (hx : x.isFinite) (h : n < 2 ^ 53)
    (hn : |x.toRat| = n) : x.display.toRat = x.toRat := by
  rw [abs_toRat] at hn
  obtain ⟨d, k, hs, hd⟩ := shortest_natCast (of_decide_eq_true hx) h hn
  rw [display, Decimal.Literal.positional_toRat, value_coefficient, toRat, hn, hs, ← hd]
  push_cast
  rw [zpow_natCast]

example : (ofLiteral ⟨false, [0], by decide, some [1], by decide, none⟩).display.text =
    ['0', '.', '1'] := by
  decide +kernel

end Binary64
