import Mathlib.Order.Defs.Unbundled

/-!
# Fallible computations on mutable state

A function of type `fn(&mut S, ..) -> Result<T, E>`: what it wrote before it
failed stays written. This is the difference to `StateT S (Except E)`, and it
matters wherever a caller inspects the error and goes on.
-/

/-- `fn(&mut σ) -> Result<α, ε>`. -/
@[ext] structure MutResult (σ ε α : Type) where
  run : σ → Except ε α × σ

namespace MutResult

variable {σ ε α β : Type}

instance : Monad (MutResult σ ε) where
  pure a := ⟨fun s => (.ok a, s)⟩
  bind x f := ⟨fun s =>
    match x.run s with
    | (.ok a, s') => (f a).run s'
    | (.error e, s') => (.error e, s')⟩

/-- `return Err(e)`. -/
def fail (e : ε) : MutResult σ ε α := ⟨fun s => (.error e, s)⟩

/-- A computation that does not touch the state, under `?`. -/
def lift (x : Except ε α) : MutResult σ ε α := ⟨fun s => (x, s)⟩

/-- The result of a call that is matched on rather than passed to `?`. -/
def attempt (x : MutResult σ ε α) : MutResult σ ε (Except ε α) :=
  ⟨fun s => (.ok (x.run s).1, (x.run s).2)⟩

/-- A call that cannot fail. -/
def update (f : σ → α × σ) : MutResult σ ε α := ⟨fun s => (.ok (f s).1, (f s).2)⟩

/-! ## Reading a successful run back -/

section Runs

variable {s s' : σ} {a : α} {b : β}

theorem pure_eq_ok {a' : α} :
    (pure a' : MutResult σ ε α).run s = (.ok a, s') ↔ a = a' ∧ s' = s := by
  simp [pure, eq_comm]

theorem fail_eq_ok {e : ε} : (fail e : MutResult σ ε α).run s = (.ok a, s') ↔ False := by
  simp [fail]

variable {r x : Except ε α}

theorem lift_run : (lift x : MutResult σ ε α).run s = (r, s') ↔ x = r ∧ s' = s := by
  simp [lift, eq_comm]

theorem lift_eq_ok :
    (lift x : MutResult σ ε α).run s = (.ok a, s') ↔ x = .ok a ∧ s' = s := lift_run

variable {x : MutResult σ ε α} {f : α → MutResult σ ε β}

theorem attempt_eq_ok : x.attempt.run s = (.ok r, s') ↔ x.run s = (r, s') := by
  simp [attempt, Prod.ext_iff]

theorem update_eq_ok {f : σ → α × σ} :
    (update f : MutResult σ ε α).run s = (.ok a, s') ↔ f s = (a, s') := by
  simp [update, Prod.ext_iff]

theorem bind_eq_ok :
    (x >>= f).run s = (.ok b, s') ↔
      ∃ a mid, x.run s = (.ok a, mid) ∧ (f a).run mid = (.ok b, s') := by
  simp only [bind]
  obtain ⟨result, mid⟩ := x.run s
  cases result with
  | error e => simp
  | ok a =>
    constructor
    · intro h
      exact ⟨a, mid, rfl, h⟩
    · intro ⟨_, _, hr, h⟩
      cases hr
      exact h

theorem bind_run {r : Except ε β} (h : (x >>= f).run s = (r, s')) :
    (∃ e, x.run s = (.error e, s') ∧ r = .error e) ∨
      ∃ a mid, x.run s = (.ok a, mid) ∧ (f a).run mid = (r, s') := by
  simp only [bind] at h
  generalize hr : x.run s = run at h
  obtain ⟨result, mid⟩ := run
  cases result with
  | error e =>
    cases h
    exact .inl ⟨e, rfl, rfl⟩
  | ok a => exact .inr ⟨a, mid, rfl, h⟩

/-- Two continuations that agree on what the first half can return. -/
theorem bind_congr {g : α → MutResult σ ε β}
    (h : ∀ a mid, x.run s = (.ok a, mid) → (f a).run mid = (g a).run mid) :
    (x >>= f).run s = (x >>= g).run s := by
  simp only [bind]
  generalize hr : x.run s = run
  obtain ⟨result, mid⟩ := run
  cases result with
  | error e => rfl
  | ok a => exact h a mid hr

end Runs

/-! ## What every successful run returns -/

/-- Whatever a run returns satisfies `Q`. -/
structure Yields (Q : α → Prop) (x : MutResult σ ε α) : Prop where
  yields : ∀ s a s', x.run s = (.ok a, s') → Q a

namespace Yields

variable {P : α → Prop} {Q : β → Prop}

theorem pure {a : α} (h : P a) : Yields P (Pure.pure a : MutResult σ ε α) where
  yields s a' s' hrun := by
    obtain ⟨rfl, -⟩ := pure_eq_ok.1 hrun
    exact h

theorem lift {x : Except ε α} (h : ∀ a, x = .ok a → P a) :
    Yields P (MutResult.lift x : MutResult σ ε α) where
  yields _ a _ hrun := h a (lift_eq_ok.1 hrun).1

variable {x : MutResult σ ε α} {f : α → MutResult σ ε β}

theorem bind_of (hx : Yields P x) (hf : ∀ a, P a → Yields Q (f a)) : Yields Q (x >>= f) where
  yields s b s' hrun := by
    obtain ⟨a, mid, hfi, hs⟩ := bind_eq_ok.1 hrun
    exact (hf a (hx.yields s a mid hfi)).yields mid b s' hs

theorem bind (hf : ∀ a, Yields Q (f a)) : Yields Q (x >>= f) :=
  bind_of (P := fun _ => True) ⟨fun _ _ _ _ => trivial⟩ fun a _ => hf a

end Yields

/-! ## What every run does to the state -/

/-- Every run, successful or not, relates the state before it to the state after it. -/
structure Moves (R : σ → σ → Prop) (x : MutResult σ ε α) : Prop where
  moves : ∀ s, R s (x.run s).2

namespace Moves

variable {R : σ → σ → Prop}

variable {x : MutResult σ ε α} {f : α → MutResult σ ε β}

theorem of_run {r : Except ε α} {s s' : σ} (h : Moves R x) (hr : x.run s = (r, s')) : R s s' := by
  have hm := h.moves s
  rwa [hr] at hm

theorem update {f : σ → α × σ} (h : ∀ s, R s (f s).2) :
    Moves R (MutResult.update f : MutResult σ ε α) := ⟨h⟩

theorem attempt (h : Moves R x) : Moves R x.attempt := ⟨h.moves⟩

section Reflexive

variable [Std.Refl R]

theorem pure (a : α) : Moves R (Pure.pure a : MutResult σ ε α) := ⟨Std.Refl.refl⟩

theorem fail (e : ε) : Moves R (MutResult.fail e : MutResult σ ε α) := ⟨Std.Refl.refl⟩

theorem lift (x : Except ε α) : Moves R (MutResult.lift x : MutResult σ ε α) := ⟨Std.Refl.refl⟩

end Reflexive

variable {x : MutResult σ ε α}

/-- A sequence whose second half relies on what the first half returns. -/
theorem bind_of [IsTrans σ R] {P : α → Prop} (hx : Moves R x) (hy : Yields P x)
    (hf : ∀ a, P a → Moves R (f a)) : Moves R (x >>= f) := by
  constructor
  intro s
  have hm := hx.moves s
  simp only [Bind.bind]
  generalize hr : x.run s = run at hm ⊢
  obtain ⟨result, mid⟩ := run
  cases result with
  | error e => exact hm
  | ok a => exact IsTrans.trans _ _ _ hm ((hf a (hy.yields s a mid hr)).moves mid)

theorem bind [IsTrans σ R] (hx : Moves R x) (hf : ∀ a, Moves R (f a)) : Moves R (x >>= f) :=
  hx.bind_of (P := fun _ => True) ⟨fun _ _ _ _ => trivial⟩ fun a _ => hf a

theorem mono {R' : σ → σ → Prop} (hx : Moves R x) (h : ∀ s s', R s s' → R' s s') : Moves R' x :=
  ⟨fun s => h _ _ (hx.moves s)⟩

end Moves

/-- A run that fails has written nothing. -/
structure Atomic (x : MutResult σ ε α) : Prop where
  kept : ∀ s e s', x.run s = (.error e, s') → s' = s

namespace Atomic

theorem lift (x : Except ε α) : Atomic (MutResult.lift x : MutResult σ ε α) :=
  ⟨fun _ _ _ h => (lift_run.1 h).2⟩

theorem update (f : σ → α × σ) : Atomic (MutResult.update f : MutResult σ ε α) := ⟨nofun⟩

theorem pure (a : α) : Atomic (Pure.pure a : MutResult σ ε α) := ⟨nofun⟩

/-- What fails comes before the first write. -/
theorem bind {x : MutResult σ ε α} {f : α → MutResult σ ε β} (hx : Moves Eq x)
    (hf : ∀ a, Atomic (f a)) : Atomic (x >>= f) where
  kept s e s' h := by
    obtain ⟨_, hr, -⟩ | ⟨a, mid, hr, h⟩ := bind_run h
    · exact (hx.of_run hr).symm
    · exact ((hf a).kept mid e s' h).trans (hx.of_run hr).symm

end Atomic

end MutResult
