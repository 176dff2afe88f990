import Mathlib.Algebra.Order.Ring.Int

/-!
# Integers of a fixed width

Unsigned integers of `w` bits, signed integers of `w` bits and a sign, and the
checked, saturating and wrapping operations between them. An integer carries
the proof that it is in range; every operation is specified by its value.
-/

namespace FixedWidth

/-- An unsigned integer of `w` bits. -/
@[ext]
structure Unsigned (w : Nat) where
  val : Nat
  isLt : val < 2 ^ w
deriving DecidableEq

/-- A signed integer of `w` bits and a sign. -/
@[ext]
structure Signed (w : Nat) where
  val : Int
  lower : -(2 ^ w) ≤ val
  upper : val < 2 ^ w
deriving DecidableEq

variable {w : Nat}

theorem two_pow_pos (w : Nat) : (0 : Int) < 2 ^ w := pow_pos (by decide) w

/-! ## Unsigned integers -/

namespace Unsigned

instance : LinearOrder (Unsigned w) :=
  LinearOrder.lift' val fun _ _ h => Unsigned.ext h

variable {a b : Unsigned w} {n : Nat}

theorem le_iff : a ≤ b ↔ a.val ≤ b.val := Iff.rfl

theorem lt_iff : a < b ↔ a.val < b.val := Iff.rfl

/-- The number modulo `2 ^ w`. -/
def ofNat (n : Nat) : Unsigned w := ⟨n % 2 ^ w, Nat.mod_lt _ (Nat.two_pow_pos w)⟩

/-- The number, or the largest integer of the width. -/
def saturate (n : Nat) : Unsigned w :=
  ⟨min n (2 ^ w - 1), by have := Nat.two_pow_pos w; omega⟩

/-- The number, where it fits the width. -/
def ofNat? (n : Nat) : Option (Unsigned w) := if h : n < 2 ^ w then some ⟨n, h⟩ else none

instance {n : Nat} : OfNat (Unsigned w) n := ⟨ofNat n⟩

instance : Inhabited (Unsigned w) := ⟨ofNat 0⟩

/-- The largest integer of the width. -/
def maxValue : Unsigned w := saturate (2 ^ w)

instance : ToString (Unsigned w) := ⟨fun a => toString a.val⟩

theorem val_ofNat (h : n < 2 ^ w) : (ofNat n : Unsigned w).val = n := Nat.mod_eq_of_lt h

@[simp] theorem val_zero : (0 : Unsigned w).val = 0 := Nat.zero_mod _

@[simp] theorem val_saturate (n : Nat) : (saturate n : Unsigned w).val = min n (2 ^ w - 1) := rfl

theorem ofNat?_eq_some : ofNat? n = some a ↔ a.val = n := by
  unfold ofNat?
  split
  · rename_i h
    constructor
    · intro heq
      rw [← Option.some.inj heq]
    · intro heq
      exact congrArg some (Unsigned.ext heq.symm)
  · rename_i h
    constructor
    · intro heq
      cases heq
    · intro heq
      exact absurd a.isLt (heq ▸ h)

theorem ofNat?_eq_none : (ofNat? n : Option (Unsigned w)) = none ↔ 2 ^ w ≤ n := by
  unfold ofNat?
  split <;> simp <;> omega

def checkedAdd (a b : Unsigned w) : Option (Unsigned w) := ofNat? (a.val + b.val)

def checkedMul (a b : Unsigned w) : Option (Unsigned w) := ofNat? (a.val * b.val)

def checkedSub (a b : Unsigned w) : Option (Unsigned w) :=
  if b.val ≤ a.val then some ⟨a.val - b.val, by have := a.isLt; omega⟩ else none

def checkedDiv (a b : Unsigned w) : Option (Unsigned w) :=
  if b.val = 0 then none else some ⟨a.val / b.val, (Nat.div_le_self _ _).trans_lt a.isLt⟩

def saturatingAdd (a b : Unsigned w) : Unsigned w := saturate (a.val + b.val)

def saturatingSub (a b : Unsigned w) : Unsigned w := saturate (a.val - b.val)

def saturatingMul (a b : Unsigned w) : Unsigned w := saturate (a.val * b.val)

@[simp] theorem val_saturatingAdd (a b : Unsigned w) :
    (a.saturatingAdd b).val = min (a.val + b.val) (2 ^ w - 1) := rfl

@[simp] theorem val_saturatingSub (a b : Unsigned w) : (a.saturatingSub b).val = a.val - b.val := by
  have := a.isLt
  simp only [saturatingSub, val_saturate]
  omega

theorem checkedSub_eq_some {c : Unsigned w} :
    a.checkedSub b = some c ↔ b.val ≤ a.val ∧ c.val = a.val - b.val := by
  unfold checkedSub
  split
  · rename_i h
    simp only [Option.some.injEq, Unsigned.ext_iff, h, true_and]
    exact eq_comm
  · rename_i h
    simp [h]

theorem checkedSub_eq_none : a.checkedSub b = none ↔ a.val < b.val := by
  unfold checkedSub
  split <;> simp <;> omega

theorem exists_checkedSub (h : b.val ≤ a.val) :
    ∃ c, a.checkedSub b = some c ∧ c.val = a.val - b.val :=
  ⟨_, if_pos h, rfl⟩

@[simp] theorem checkedSub_zero (a : Unsigned w) : a.checkedSub 0 = some a := by
  rw [checkedSub_eq_some, val_zero]
  omega

@[simp] theorem saturatingAdd_zero (a : Unsigned w) : a.saturatingAdd 0 = a := by
  have := a.isLt
  refine Unsigned.ext ?_
  rw [val_saturatingAdd, val_zero]
  omega

end Unsigned

/-! ## Signed integers -/

namespace Signed

instance : LinearOrder (Signed w) :=
  LinearOrder.lift' val fun _ _ h => Signed.ext h

theorem le_iff {a b : Signed w} : a ≤ b ↔ a.val ≤ b.val := Iff.rfl

/-- The nearest integer of the width. -/
def clamp (i : Int) : Signed w :=
  ⟨max (-(2 ^ w)) (min i (2 ^ w - 1)), by omega, by have hpow := two_pow_pos w; omega⟩

/-- The integer, where it fits the width. -/
def ofInt? (i : Int) : Option (Signed w) :=
  if h : -(2 ^ w) ≤ i ∧ i < 2 ^ w then some ⟨i, h.1, h.2⟩ else none

instance : OfNat (Signed w) 0 := ⟨clamp 0⟩

def one : Signed w := clamp 1

def maxValue : Signed w := clamp (2 ^ w)

instance : ToString (Signed w) := ⟨fun a => toString a.val⟩

@[simp] theorem val_clamp (i : Int) :
    (clamp i : Signed w).val = max (-(2 ^ w)) (min i (2 ^ w - 1)) := rfl

variable (a b : Signed w)

def saturatingAdd : Signed w := clamp (a.val + b.val)

/-- The negation. The least integer has none in the width and stays itself, as a wrapping
negation has it. -/
def neg (a : Signed w) : Signed w := if a.val = -(2 ^ w) then a else clamp (-a.val)

instance : Neg (Signed w) := ⟨neg⟩

def isNegative (a : Signed w) : Bool := a.val < 0

def isPositive (a : Signed w) : Bool := 0 < a.val

def checkedAdd : Option (Signed w) := ofInt? (a.val + b.val)

def checkedSub : Option (Signed w) := ofInt? (a.val - b.val)

@[simp] theorem val_saturatingAdd :
    (a.saturatingAdd b).val = max (-(2 ^ w)) (min (a.val + b.val) (2 ^ w - 1)) := rfl

theorem isNegative_iff {a : Signed w} : a.isNegative = true ↔ a.val < 0 := decide_eq_true_iff

theorem val_neg {a : Signed w} (h : -(2 ^ w) < a.val) : (-a).val = -a.val := by
  have hn : a.val ≠ -(2 ^ w) := by omega
  have hu := a.upper
  show (neg a).val = -a.val
  rw [neg, if_neg hn, val_clamp]
  omega

/-- The absolute value, which always fits one bit more. -/
def unsignedAbs (a : Signed w) : Unsigned (w + 1) :=
  ⟨a.val.natAbs, by
    have hlower := a.lower
    have hupper := a.upper
    have hpow : ((2 ^ w : Nat) : Int) = 2 ^ w := by norm_cast
    rw [Nat.pow_succ]
    omega⟩

end Signed

/-! ## Conversions that saturate -/

def Unsigned.toSigned (a : Unsigned (w + 1)) : Signed w := .clamp a.val

/-- The signed integer, or zero where it is negative. -/
def Signed.toUnsigned (a : Signed w) : Unsigned (w + 1) := .saturate a.val.toNat

theorem Unsigned.val_toSigned (a : Unsigned (w + 1)) :
    a.toSigned.val = min (a.val : Int) (2 ^ w - 1) := by
  have hp := two_pow_pos w
  simp only [toSigned, Signed.val_clamp]
  omega

theorem Signed.val_toUnsigned {a : Signed w} (h : 0 ≤ a.val) :
    (a.toUnsigned.val : Int) = a.val := by
  have hu := a.upper
  have hp : ((2 ^ w : Nat) : Int) = 2 ^ w := by norm_cast
  have hs : 2 ^ (w + 1) = 2 ^ w + 2 ^ w := by rw [Nat.pow_succ]; omega
  simp only [toUnsigned, Unsigned.val_saturate]
  omega

end FixedWidth
