import Mathlib.Data.List.Nodup
import Mathlib.Data.List.Basic

/-!
# Fallible computations

Early returns, checked insertions and fallible loops in `Except`. A model
written with these is read back through the `_eq_ok` lemmas below, so no proof
about it has to unfold the monad.
-/

namespace Fallible

open List Option

universe u v

variable {ε ε' : Type u} {α β σ : Type v}

/-! ## Sequencing -/

variable {x : Except ε α} {a : α}

theorem bind_eq_ok {f : α → Except ε β} {b : β} :
    (x >>= f) = .ok b ↔ ∃ a, x = .ok a ∧ f a = .ok b := by
  cases x with
  | error e | ok a => simp [bind, Except.bind]

@[simp] theorem ok_bind (a : α) (f : α → Except ε β) :
    ((Except.ok a : Except ε α) >>= f) = f a := rfl

@[simp] theorem error_bind (e : ε) (f : α → Except ε β) :
    ((Except.error e : Except ε α) >>= f) = .error e := rfl

theorem map_eq_ok {f : α → β} {b : β} : f <$> x = .ok b ↔ ∃ a, x = .ok a ∧ f a = b := by
  cases x <;> simp [Functor.map, Except.map]

theorem toOption_eq_some : x.toOption = some a ↔ x = .ok a := by
  cases x <;> simp [Except.toOption]

theorem toOption_congr {y : Except ε' α} (h : ∀ a, x = .ok a ↔ y = .ok a) :
    x.toOption = y.toOption :=
  ext fun a => toOption_eq_some.trans ((h a).trans toOption_eq_some.symm)

theorem mapError_eq_ok {f : ε → ε'} : x.mapError f = .ok a ↔ x = .ok a := by
  cases x <;> simp [Except.mapError]

theorem elim_error_eq_ok {o : Option α} {e : ε} :
    o.elim (.error e : Except ε α) .ok = .ok a ↔ o = some a := by
  cases o <;> simp

def result (x : Except ε α) (h : x.toOption.isSome = true) : α := x.toOption.get h

theorem eq_ok_result (x : Except ε α) (h : x.toOption.isSome = true) : x = .ok (result x h) := by
  cases x with
  | error e => cases h
  | ok a => rfl

/-! ## Related results -/

/-- Both succeed with related values, or both fail with one error. -/
inductive Related (R : α → α → Prop) : Except ε α → Except ε α → Prop
  | ok {a b : α} (h : R a b) : Related R (.ok a) (.ok b)
  | error (e : ε) : Related R (.error e) (.error e)

section Related

variable {R : β → β → Prop}

theorem Related.bind {f g : α → Except ε β} (h : ∀ a, Related R (f a) (g a)) :
    Related R (x >>= f) (x >>= g) := by
  cases x with
  | error e => exact .error e
  | ok a => exact h a

theorem Related.mapError {f : ε → ε'} {y z : Except ε β} (h : Related R y z) :
    Related R (y.mapError f) (z.mapError f) := by
  cases h with
  | ok h => exact .ok h
  | error e => exact .error (f e)

end Related

/-! ## Early returns -/

/-- The early return `if !c { return Err(e) }`. -/
def require (c : Prop) [Decidable c] (e : ε) : Except ε Unit :=
  if c then .ok () else .error e

section Require

variable {c : Prop} [Decidable c] {e : ε} {u : Unit}

theorem require_eq_ok : require c e = .ok u ↔ c := by
  unfold require
  split <;> simp_all

@[simp] theorem require_pos (h : c) : require c e = .ok () := if_pos h

@[simp] theorem require_neg (h : ¬ c) : require c e = .error e := if_neg h

end Require

/-! ## Checked insertion -/

section InsertFresh

variable [DecidableEq α]

/-- `if !set.insert(x) { return Err(e) }`: the set is kept in insertion order. -/
def insertFresh (seen : List α) (x : α) (e : ε) : Except ε (List α) :=
  if x ∈ seen then .error e else .ok (seen ++ [x])

variable {seen seen' : List α}

theorem insertFresh_eq_ok {x : α} {e : ε} :
    insertFresh seen x e = .ok seen' ↔ x ∉ seen ∧ seen' = seen ++ [x] := by
  unfold insertFresh
  split <;> simp_all [eq_comm]

/-- Insert every element in turn, failing at the first repetition. -/
def insertAll (seen : List α) (xs : List α) (e : α → ε) : Except ε (List α) :=
  xs.foldlM (fun seen x => insertFresh seen x (e x)) seen

variable {xs : List α} {e : α → ε}

theorem insertAll_eq_ok (hs : seen.Nodup) :
    insertAll seen xs e = .ok seen' ↔ seen' = seen ++ xs ∧ (seen ++ xs).Nodup := by
  unfold insertAll
  induction xs generalizing seen with
  | nil => simp [hs, pure, Except.pure, eq_comm]
  | cons x xs ih =>
    simp only [foldlM_cons, bind_eq_ok, insertFresh_eq_ok]
    constructor
    · rintro ⟨mid, ⟨hx, rfl⟩, h⟩
      have hm : (seen ++ [x]).Nodup := by
        rw [← concat_eq_append]
        exact hs.concat hx
      simpa using (ih hm).1 h
    · rintro ⟨rfl, hn⟩
      have ha : seen ++ x :: xs = (seen ++ [x]) ++ xs := by simp
      rw [ha] at hn
      have hm : (seen ++ [x]).Nodup := hn.of_append_left
      refine ⟨seen ++ [x], ⟨?_, rfl⟩, ?_⟩
      · intro hme
        exact disjoint_of_nodup_append hm hme (by simp)
      · exact (ih hm).2 ⟨ha, hn⟩

end InsertFresh

/-! ## Loops -/

variable {xs : List α} {f : α → Except ε β} {ys : List β} {x : α} {s s' : σ}

theorem forM_eq_ok {f : α → Except ε PUnit} {u : PUnit} :
    forM xs f = .ok u ↔ ∀ x ∈ xs, f x = .ok u := by
  induction xs with
  | nil => simp [pure, Except.pure]
  | cons x xs ih =>
    simp only [forM_cons, bind_eq_ok, ih, forall_mem_cons]
    exact ⟨fun ⟨_, hx, h⟩ => ⟨hx, h⟩, fun ⟨hx, h⟩ => ⟨u, hx, h⟩⟩

theorem mapM_eq_ok : xs.mapM f = .ok ys ↔ List.Forall₂ (fun x y => f x = .ok y) xs ys := by
  induction xs generalizing ys with
  | nil => simp [pure, Except.pure]
  | cons x xs ih =>
    rw [mapM_cons, bind_eq_ok, forall₂_cons_left_iff]
    constructor
    · rintro ⟨y, hy, h⟩
      obtain ⟨ys, hys, h⟩ := bind_eq_ok.1 h
      cases h
      exact ⟨y, ys, hy, ih.1 hys, rfl⟩
    · rintro ⟨y, ys, hy, hys, rfl⟩
      exact ⟨y, hy, bind_eq_ok.2 ⟨ys, ih.2 hys, rfl⟩⟩

theorem mapM_getElem? (h : xs.mapM f = .ok ys) (i : Nat) : xs[i]?.map f = ys[i]?.map .ok := by
  have ha := mapM_eq_ok.1 h
  clear h
  induction ha generalizing i with
  | nil => rfl
  | cons hx _ ih =>
    cases i with
    | zero => simp [hx]
    | succ i => simpa using ih i

theorem exists_of_mem_mapM {y : β}
    (h : xs.mapM f = .ok ys) (hy : y ∈ ys) : ∃ x ∈ xs, f x = .ok y := by
  obtain ⟨i, hi⟩ := getElem?_of_mem hy
  have hx := mapM_getElem? h i
  rw [hi, map_some, map_eq_some_iff] at hx
  obtain ⟨x, hm, hx⟩ := hx
  exact ⟨x, mem_of_getElem? hm, hx⟩

theorem exists_mem_of_mapM (h : xs.mapM f = .ok ys) (hx : x ∈ xs) : ∃ y ∈ ys, f x = .ok y := by
  obtain ⟨i, hi⟩ := getElem?_of_mem hx
  have hy := mapM_getElem? h i
  rw [hi, map_some, eq_comm, map_eq_some_iff] at hy
  obtain ⟨y, hm, hy⟩ := hy
  exact ⟨y, mem_of_getElem? hm, hy.symm⟩

theorem exists_mapM_eq_ok (h : ∀ x ∈ xs, ∃ y, f x = .ok y) : ∃ ys, xs.mapM f = .ok ys := by
  induction xs with
  | nil => exact ⟨[], rfl⟩
  | cons x xs ih =>
    obtain ⟨y, hy⟩ := h x mem_cons_self
    obtain ⟨ys, hys⟩ := ih fun x' hx' => h x' (mem_cons_of_mem x hx')
    exact ⟨y :: ys, by rw [mapM_cons, hy, ok_bind, hys, ok_bind]; rfl⟩

/-- Invariant rule for a fallible loop: what every successful iteration
preserves holds of the final state. -/
theorem foldlM_invariant {f : σ → α → Except ε σ} (I : σ → Prop)
    (step : ∀ s x s', x ∈ xs → I s → f s x = .ok s' → I s')
    (h : xs.foldlM f s = .ok s') (hs : I s) : I s' := by
  induction xs generalizing s with
  | nil =>
    cases h
    exact hs
  | cons x xs ih =>
    rw [foldlM_cons, bind_eq_ok] at h
    obtain ⟨mid, hx, h⟩ := h
    have hm : I mid := step s x mid (mem_cons_self ..) hs hx
    exact ih (fun s y s' hy => step s y s' (mem_cons_of_mem _ hy)) h hm

/-- Invariant rule for a fallible loop whose invariant knows what has been passed. -/
theorem foldlM_progress {f : σ → α → Except ε σ} (I : List α → σ → Prop)
    (step : ∀ d x s s', x ∈ xs → I d s → f s x = .ok s' → I (d ++ [x]) s')
    (h : xs.foldlM f s = .ok s') (hs : I [] s) : I xs s' := by
  suffices hf : ∀ d r s, r ⊆ xs → r.foldlM f s = .ok s' → I d s →
      I (d ++ r) s' from hf [] xs s (List.Subset.refl xs) h hs
  intro d r
  induction r generalizing d with
  | nil =>
    intro s _ h hs
    cases h
    rwa [append_nil]
  | cons x r ih =>
    intro s hr h hs
    obtain ⟨hx, hr⟩ := cons_subset.1 hr
    rw [foldlM_cons, bind_eq_ok] at h
    obtain ⟨mid, hm, h⟩ := h
    rw [append_cons]
    exact ih (d ++ [x]) mid hr h (step d x s mid hx hs hm)

/-- A loop whose iterations read and write one part of the state runs on that part. -/
theorem foldlM_part {τ : Type v} (get : σ → τ) (set : σ → τ → σ) {f : σ → α → Except ε σ}
    {g : τ → α → Except ε τ} (hg : ∀ s t, get (set s t) = t)
    (hs : ∀ s t t', set (set s t) t' = set s t') (hsl : ∀ s, set s (get s) = s)
    (hf : ∀ s x, f s x = set s <$> g (get s) x) (xs : List α) (s : σ) :
    xs.foldlM f s = set s <$> xs.foldlM g (get s) := by
  induction xs generalizing s with
  | nil => exact congrArg Except.ok (hsl s).symm
  | cons x xs ih =>
    rw [foldlM_cons, foldlM_cons, hf]
    cases g (get s) x with
    | error e => rfl
    | ok t =>
      have hfu : set (set s t) = set s := funext (hs s t)
      exact (ih (set s t)).trans (by rw [hg, hfu]; rfl)

theorem foldlM_step_of_mem {f : σ → α → Except ε σ} (h : xs.foldlM f s = .ok s') (hx : x ∈ xs) :
    ∃ before after b mid, xs = before ++ x :: after ∧ before.foldlM f s = .ok b ∧
      f b x = .ok mid ∧ after.foldlM f mid = .ok s' := by
  obtain ⟨before, after, rfl⟩ := append_of_mem hx
  rw [foldlM_append] at h
  obtain ⟨b, hb, h⟩ := bind_eq_ok.1 h
  obtain ⟨mid, hm, h⟩ := bind_eq_ok.1 h
  exact ⟨before, after, b, mid, rfl, hb, hm, h⟩

/-! ## Optional results -/

theorem mem_of_mapM_eq_some {f : α → Option β}
    (h : xs.mapM f = some ys) (y : β) : y ∈ ys ↔ ∃ x ∈ xs, f x = some y := by
  induction xs generalizing ys with
  | nil =>
    obtain rfl : ys = [] := by simpa using h.symm
    simp
  | cons x xs ih =>
    rw [mapM_cons, bind_eq_bind, bind_eq_some_iff] at h
    obtain ⟨y', hh, h⟩ := h
    rw [bind_eq_bind, bind_eq_some_iff] at h
    obtain ⟨ys', ht, h⟩ := h
    obtain rfl : y' :: ys' = ys := by simpa using h
    simp [hh, ih ht, eq_comm]

theorem exists_of_mapM_eq_some {f : α → Option β}
    (h : xs.mapM f = some ys) (hx : x ∈ xs) : ∃ y, f x = some y := by
  induction xs generalizing ys with
  | nil => cases hx
  | cons x' xs ih =>
    rw [mapM_cons, bind_eq_bind, bind_eq_some_iff] at h
    obtain ⟨y', hh, h⟩ := h
    rw [bind_eq_bind, bind_eq_some_iff] at h
    obtain ⟨ys', ht, -⟩ := h
    rcases mem_cons.1 hx with rfl | hx
    · exact ⟨y', hh⟩
    · exact ih ht hx

end Fallible
