import Mathlib.Data.List.Basic

/-!
# Runs of a command machine

A component that answers one command at a time is a function from a state and a
command to an answer and the next state. This file has its runs, the events
observed along a run, and the induction rules for them: what every step
preserves, what every step relates, and what two events of one run have to do
with each other.
-/

namespace Machine

universe u v w

variable {σ : Type u} {κ : Type v} {ρ : Type w}

structure Event (σ : Type u) (κ : Type v) (ρ : Type w) where
  before : σ
  command : κ
  answer : ρ
  after : σ

section Runs

variable (step : σ → κ → ρ × σ)

/-- The state after a list of commands. -/
def exec (s : σ) : List κ → σ
  | [] => s
  | c :: cs => exec (step s c).2 cs

def event (s : σ) (c : κ) : Event σ κ ρ := ⟨s, c, (step s c).1, (step s c).2⟩

def trace (s : σ) : List κ → List (Event σ κ ρ)
  | [] => []
  | c :: cs => event step s c :: trace (step s c).2 cs

end Runs

variable {step : σ → κ → ρ × σ} (s : σ)

@[simp] theorem exec_nil : exec step s [] = s := rfl

@[simp] theorem exec_cons (c : κ) (cs : List κ) :
    exec step s (c :: cs) = exec step (step s c).2 cs := rfl

@[simp] theorem trace_nil : trace step s [] = [] := rfl

@[simp] theorem trace_cons (c : κ) (cs : List κ) :
    trace step s (c :: cs) = event step s c :: trace step (step s c).2 cs := rfl

theorem exec_append (cs ds : List κ) : exec step s (cs ++ ds) = exec step (exec step s cs) ds := by
  induction cs generalizing s with
  | nil => rfl
  | cons c cs ih => exact ih (step s c).2

theorem trace_append (cs ds : List κ) :
    trace step s (cs ++ ds) = trace step s cs ++ trace step (exec step s cs) ds := by
  induction cs generalizing s with
  | nil => rfl
  | cons c cs ih =>
    simp only [List.cons_append, trace_cons, exec_cons]
    rw [ih (step s c).2]

variable {s : σ} {cs : List κ} {e : Event σ κ ρ}

/-- Splitting a trace splits the commands, and the event is the step taken there. -/
theorem trace_eq_append_cons {pre post : List (Event σ κ ρ)}
    (h : trace step s cs = pre ++ e :: post) :
    ∃ ds c ds', cs = ds ++ c :: ds' ∧ pre = trace step s ds ∧
      e = event step (exec step s ds) c ∧ post = trace step e.after ds' := by
  induction cs generalizing s pre with
  | nil => simp at h
  | cons c cs ih =>
    rw [trace_cons] at h
    cases pre with
    | nil =>
      obtain ⟨he, hp⟩ := List.cons.inj h
      subst he
      exact ⟨[], c, cs, rfl, rfl, rfl, hp.symm⟩
    | cons e' pre =>
      obtain ⟨he, hr⟩ := List.cons.inj h
      obtain ⟨ds, d, ds', hc, hpr, hev, hp⟩ := ih hr
      refine ⟨c :: ds, d, ds', ?_, ?_, hev, hp⟩
      · rw [hc, List.cons_append]
      · rw [trace_cons, ← he, hpr]

theorem mem_trace (h : e ∈ trace step s cs) :
    ∃ ds c ds', cs = ds ++ c :: ds' ∧ e = event step (exec step s ds) c := by
  obtain ⟨pre, post, hs⟩ := List.append_of_mem h
  obtain ⟨ds, c, ds', hc, -, he, -⟩ := trace_eq_append_cons hs
  exact ⟨ds, c, ds', hc, he⟩

theorem after_of_mem_trace (h : e ∈ trace step s cs) : ∃ ds, e.after = exec step s ds := by
  obtain ⟨ds, c, -, -, rfl⟩ := mem_trace h
  exact ⟨ds ++ [c], (exec_append s ds [c]).symm⟩

/-! ## Rules -/

section Rules

variable {I : σ → Prop} {s : σ} {cs : List κ}

theorem exec_invariant (hst : ∀ s c, I s → I (step s c).2) (hs : I s) : I (exec step s cs) := by
  induction cs generalizing s with
  | nil => exact hs
  | cons c cs ih => exact ih (hst s c hs)

theorem exec_invariant_of_mem {P : κ → Prop} (hst : ∀ s c, P c → I s → I (step s c).2)
    (hcs : ∀ c ∈ cs, P c) (hs : I s) : I (exec step s cs) := by
  induction cs generalizing s with
  | nil => exact hs
  | cons c cs ih =>
    have hc : P c := hcs c (List.mem_cons_self ..)
    exact ih (fun d hd => hcs d (List.mem_cons_of_mem c hd)) (hst s c hc hs)

/-- A transitive relation that every step satisfies holds between the ends of a run. -/
theorem exec_relation {R : σ → σ → Prop} (hr : ∀ s, R s s)
    (ht : ∀ a b c, R a b → R b c → R a c) (hI : ∀ s c, I s → I (step s c).2)
    (hst : ∀ s c, I s → R s (step s c).2) (hs : I s) : R s (exec step s cs) := by
  induction cs generalizing s with
  | nil => exact hr s
  | cons c cs ih => exact ht _ _ _ (hst s c hs) (ih (hI s c hs))

theorem forall_mem_trace {Q : Event σ κ ρ → Prop} (hI : ∀ s c, I s → I (step s c).2)
    (hst : ∀ s c, I s → Q (event step s c)) (hs : I s) : ∀ e ∈ trace step s cs, Q e := by
  intro e he
  obtain ⟨ds, c, ds', -, rfl⟩ := mem_trace he
  exact hst _ c (exec_invariant hI hs)

/-- What an event leaves behind and no later step destroys constrains every
later event: `K e` is that mark. -/
theorem trace_pairwise {K : Event σ κ ρ → σ → Prop} {Q : Event σ κ ρ → Event σ κ ρ → Prop}
    (hI : ∀ s c, I s → I (step s c).2) (hm : ∀ s c, I s → K (event step s c) (step s c).2)
    (hk : ∀ e s c, I s → K e s → K e (step s c).2)
    (hl : ∀ e s c, I s → K e s → Q e (event step s c)) (hs : I s) :
    (trace step s cs).Pairwise Q := by
  induction cs generalizing s with
  | nil => exact List.Pairwise.nil
  | cons c cs ih =>
    have hn : I (step s c).2 := hI s c hs
    refine List.Pairwise.cons ?_ (ih hn)
    -- the mark of the first event travels along the rest of the run
    have htr : I (step s c).2 ∧ K (event step s c) (step s c).2 := ⟨hn, hm s c hs⟩
    exact forall_mem_trace (I := fun t => I t ∧ K (event step s c) t)
      (fun t d ht => ⟨hI t d ht.1, hk _ t d ht.1 ht.2⟩)
      (fun t d ht => hl _ t d ht.1 ht.2) htr

end Rules

end Machine
