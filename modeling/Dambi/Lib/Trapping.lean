import Mathlib.Algebra.Group.Nat.Defs
import Dambi.Lib.Fallible

/-!
# Word arithmetic that traps

Fallible computations over 64-bit words in which an overflow stops the program.
`Computes f x y` says that such a computation does not trap and computes what
`y` computes over the natural numbers; `f` reads the words of the result.
-/

namespace Trapping

open Fallible

variable {ε α β γ δ : Type}

/-- A fallible computation that may trap; the trap is `none`. -/
abbrev Trap (ε α : Type) := ExceptT ε Option α

def checked (x : Except ε α) : Trap ε α := ExceptT.mk (some x)

/-- A step that cannot fail but may trap. -/
def word (x : Option α) : Trap ε α := ExceptT.lift x

def add (a b : UInt64) : Option UInt64 :=
  if a.toNat + b.toNat < 2 ^ 64 then some (a + b) else none

def mul (a b : UInt64) : Option UInt64 :=
  if a.toNat * b.toNat < 2 ^ 64 then some (a * b) else none

/-! ## Exact computations -/

/-- The computation does not trap, and its result read by `f` is that of `y`. -/
def Computes (f : α → β) (x : Trap ε α) (y : Except ε β) : Prop :=
  x.run.map (Except.map f) = some y

namespace Computes

variable {f : α → β} {g : γ → δ} {x : Trap ε α} {y : Except ε β}

theorem pure (a : α) : Computes f (Pure.pure a : Trap ε α) (.ok (f a)) := rfl

theorem checked (x : Except ε α) : Computes id (checked x) x := by cases x <;> rfl

theorem bind {k : α → Trap ε γ} {l : β → Except ε δ} (h : Computes f x y)
    (hk : ∀ a, y = .ok (f a) → Computes g (k a) (l (f a))) : Computes g (x >>= k) (y >>= l) := by
  unfold Computes at h
  obtain ⟨result, hr, rfl⟩ := Option.map_eq_some_iff.1 h
  unfold Computes
  rw [ExceptT.run_bind, hr]
  cases result with
  | error e => rfl
  | ok a => exact hk a rfl

theorem require {c d : Prop} [Decidable c] [Decidable d] (e : ε) (h : c ↔ d) :
    Computes id (Trapping.checked (Fallible.require c e)) (Fallible.require d e) := by
  by_cases hc : c
  · rw [require_pos hc, require_pos (h.1 hc)]
    rfl
  · rw [require_neg hc, require_neg (mt h.2 hc)]
    rfl

variable {z : Except ε δ} {a b : UInt64} {k : UInt64 → Trap ε γ}

theorem bind_word {a : α} {v : Option α} {k : α → Trap ε γ} (hv : v = some a)
    (hk : Computes g (k a) z) : Computes g (word v >>= k) z := by
  subst hv
  exact hk

theorem bind_add (hf : a.toNat + b.toNat < 2 ^ 64)
    (hk : ∀ c : UInt64, c.toNat = a.toNat + b.toNat → Computes g (k c) z) :
    Computes g (word (add a b) >>= k) z :=
  bind_word (if_pos hf) (hk _ ((UInt64.toNat_add a b).trans (Nat.mod_eq_of_lt hf)))

theorem bind_mul (hf : a.toNat * b.toNat < 2 ^ 64)
    (hk : ∀ c : UInt64, c.toNat = a.toNat * b.toNat → Computes g (k c) z) :
    Computes g (word (mul a b) >>= k) z :=
  bind_word (if_pos hf) (hk _ ((UInt64.toNat_mul a b).trans (Nat.mod_eq_of_lt hf)))

theorem run_eq {y : Except ε α} (h : Computes id x y) : x.run = some y := by
  obtain ⟨result, hr, rfl⟩ := Option.map_eq_some_iff.1 h
  rw [hr]
  cases result <;> rfl

theorem run_eq_ok (h : Computes f x y) {b : β} (hy : y = .ok b) :
    ∃ a, x.run = some (.ok a) ∧ f a = b := by
  unfold Computes at h
  obtain ⟨result, hr, hm⟩ := Option.map_eq_some_iff.1 h
  cases result with
  | error e =>
    rw [hy] at hm
    cases hm
  | ok a => exact ⟨a, hr, Except.ok.inj (hm.trans hy)⟩

theorem eq_ok_of_run (h : Computes f x y) {a : α} (hx : x.run = some (.ok a)) : y = .ok (f a) := by
  unfold Computes at h
  rw [hx] at h
  exact (Option.some.inj h).symm

theorem run_ne_none (h : Computes f x y) : x.run ≠ none := by
  intro hn
  unfold Computes at h
  rw [hn] at h
  cases h

end Computes

end Trapping
