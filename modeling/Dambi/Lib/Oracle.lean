import Mathlib.Logic.Basic

/-!
# Programs that consult an oracle

A terminating program that may ask for a value any number of times, as a
callback argument lets it, and has no other effect. `run` answers its questions
from a source that the caller owns, so what the program can do to that source is
exactly what asking does.
-/

namespace Oracle

universe u

/-- A program with answers in `τ` and a result in `α`. -/
inductive Program (τ : Type) (α : Type u) where
  | done (a : α)
  | ask (next : τ → Program τ α)

namespace Program

variable {τ : Type} {α β : Type u} {σ : Type}

def bind : Program τ α → (α → Program τ β) → Program τ β
  | .done a, f => f a
  | .ask next, f => .ask fun t => (next t).bind f

instance : Monad (Program τ) where
  pure := .done
  bind := bind

/-- Run a program, answering each question by `read`. -/
def run (read : σ → τ × σ) : Program τ α → σ → α × σ
  | .done a, s => (a, s)
  | .ask next, s => (next (read s).1).run read (read s).2

/-- What every answer preserves of the source, the program preserves. -/
theorem run_invariant {I : σ → Prop} {read : σ → τ × σ} (hr : ∀ s, I s → I (read s).2)
    (p : Program τ α) {s : σ} (hs : I s) : I (p.run read s).2 := by
  induction p generalizing s with
  | done a => exact hs
  | ask next ih => exact ih (read s).1 (hr s hs)

end Program

end Oracle
