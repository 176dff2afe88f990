import Mathlib.Data.Finset.Card
import Mathlib.Data.Finset.SDiff
import Mathlib.Logic.Relation
import Dambi.Lib.Fallible

/-!
# Depth-first search with a stack

A search with an explicit stack of entries and exit markers, over a graph whose nodes are
expanded on demand, which may fail. It succeeds exactly if every node that is reached can be
expanded and none of them lies on a cycle, and it collects the nodes that are reached.
-/

namespace DepthFirst

open Fallible List

/-- A graph in which finitely many nodes can be expanded. -/
structure Graph (α β ε : Type) where
  nodes : Finset α
  expand : α → Except ε (β × List α)
  mem_nodes : ∀ {a r}, expand a = .ok r → a ∈ nodes
  cyclic : α → ε

namespace Graph

variable {α β ε : Type} {g : Graph α β ε} {a b root : α} {st : List (α × Bool)}

/-! ## Reachable nodes -/

def Refers (g : Graph α β ε) (a b : α) : Prop := ∃ d bs, g.expand a = .ok (d, bs) ∧ b ∈ bs

def Reaches (g : Graph α β ε) : α → α → Prop := Relation.ReflTransGen g.Refers

def Expands (g : Graph α β ε) (a : α) : Prop := ∃ r, g.expand a = .ok r

theorem not_cyclic_of_acc (h : Acc (fun b a => g.Refers a b) a) :
    ¬ Relation.TransGen g.Refers a a := by
  induction h with
  | intro a _ ih =>
    intro hc
    obtain ⟨b, ha, hb⟩ := Relation.TransGen.head'_iff.1 hc
    exact ih b ha (Relation.TransGen.tail' hb ha)

/-! ## Stacks -/

/-- The marker next below the top of a stack. -/
def owner (st : List (α × Bool)) : Option α := (st.find? (·.2)).map (·.1)

def Linked (g : Graph α β ε) (root : α) : List (α × Bool) → Prop
  | [] => True
  | (a, _) :: st => (owner st).elim (a = root) (g.Refers · a) ∧ Linked g root st

/-- What the node of a marker refers to is complete or stands above the marker. -/
def Covered (g : Graph α β ε) (complete : Finset α) : List α → List (α × Bool) → Prop
  | _, [] => True
  | above, (a, false) :: st => Covered g complete (a :: above) st
  | above, (a, true) :: st => (g.Expands a ∧ ∀ b, g.Refers a b → b ∈ complete ∨ b ∈ above) ∧
    Covered g complete (a :: above) st

theorem Linked.reaches (h : g.Linked root st) {m : Bool} (ha : (a, m) ∈ st) : g.Reaches root a := by
  induction st generalizing a m with
  | nil => cases ha
  | cons e st ih =>
    obtain ⟨x, k⟩ := e
    obtain ⟨hx, hs⟩ := h
    obtain heq | ha := mem_cons.1 ha
    · cases heq
      cases ho : owner st with
      | none =>
        rw [ho] at hx
        exact hx ▸ .refl
      | some p =>
        rw [ho] at hx
        obtain ⟨e, he, rfl⟩ := Option.map_eq_some_iff.1 ho
        exact (ih hs (mem_of_find?_eq_some he)).tail hx
    · exact ih hs ha

/-- The markers are the path to the top of the stack. -/
theorem Linked.reaches_owner (h : g.Linked root st) (ha : (a, true) ∈ st) :
    ∃ p, owner st = some p ∧ g.Reaches a p := by
  induction st with
  | nil => cases ha
  | cons e st ih =>
    obtain ⟨x, k⟩ := e
    obtain ⟨hx, hs⟩ := h
    cases k with
    | false => exact ih hs (by simpa using ha)
    | true =>
      refine ⟨x, rfl, ?_⟩
      obtain heq | ha := mem_cons.1 ha
      · cases heq
        exact .refl
      · obtain ⟨p, hp, hap⟩ := ih hs ha
        rw [hp] at hx
        exact hap.tail hx

theorem Linked.append (h : g.Linked root ((a, true) :: st)) {bs : List α}
    (hbs : ∀ b ∈ bs, g.Refers a b) : g.Linked root (bs.map (·, false) ++ (a, true) :: st) ∧
      owner (bs.map (·, false) ++ (a, true) :: st) = some a := by
  induction bs with
  | nil => exact ⟨h, rfl⟩
  | cons b bs ih =>
    obtain ⟨hl, ho⟩ := ih fun c hc => hbs c (mem_cons_of_mem b hc)
    have hb : (owner (bs.map (·, false) ++ (a, true) :: st)).elim (b = root) (g.Refers · b) := by
      rw [ho]
      exact hbs b mem_cons_self
    exact ⟨⟨hb, hl⟩, ho⟩

theorem Covered.mono {c c' : Finset α} {above above' : List α} (h : g.Covered c above st)
    (hl : ∀ b, b ∈ c ∨ b ∈ above → b ∈ c' ∨ b ∈ above') : g.Covered c' above' st := by
  induction st generalizing above above' with
  | nil => trivial
  | cons e st ih =>
    obtain ⟨x, k⟩ := e
    have hl' : ∀ b, b ∈ c ∨ b ∈ x :: above → b ∈ c' ∨ b ∈ x :: above' := by
      intro b hb
      have := hl b
      simp only [mem_cons] at hb ⊢
      tauto
    cases k with
    | false => exact ih h hl'
    | true => exact ⟨⟨h.1.1, fun b hb => hl b (h.1.2 b hb)⟩, ih h.2 hl'⟩

theorem covered_append {c : Finset α} {bs ab : List α} :
    g.Covered c ab (bs.map (·, false) ++ st) ↔ g.Covered c (bs.reverse ++ ab) st := by
  induction bs generalizing ab with
  | nil => rfl
  | cons b bs ih =>
    rw [reverse_cons, append_assoc]
    exact ih

end Graph

/-! ## The search -/

/-- An entry of the stack is a node to visit, or marks the exit of a node. -/
structure State (α β : Type) where
  found : List (α × β)
  active : Finset α
  complete : Finset α
  stack : List (α × Bool)

namespace Graph

variable {α β ε : Type} [DecidableEq α] (g : Graph α β ε)

/-- One round; without an entry there is none. -/
def step (s : State α β) : Except ε (Option (State α β)) :=
  match s.stack with
  | [] => .ok none
  | (a, true) :: stack =>
    .ok (some { s with stack, active := s.active.erase a, complete := insert a s.complete })
  | (a, false) :: stack =>
    if a ∈ s.complete then .ok (some { s with stack })
    else if a ∈ s.active then .error (g.cyclic a)
    else do
      let r ← g.expand a
      .ok (some { s with
        found := (a, r.1) :: s.found
        active := insert a s.active
        stack := r.2.map (·, false) ++ (a, true) :: stack })

variable {g} {s s' : State α β} {a b root : α}

theorem step_cases (h : g.step s = .ok (some s')) :
    (∃ a st, s.stack = (a, true) :: st ∧
      s' = ⟨s.found, s.active.erase a, insert a s.complete, st⟩) ∨
    (∃ a st, s.stack = (a, false) :: st ∧ a ∈ s.complete ∧
      s' = ⟨s.found, s.active, s.complete, st⟩) ∨
    ∃ a st d bs, s.stack = (a, false) :: st ∧ a ∉ s.complete ∧ a ∉ s.active ∧
      g.expand a = .ok (d, bs) ∧
      s' = ⟨(a, d) :: s.found, insert a s.active, s.complete,
        bs.map (·, false) ++ (a, true) :: st⟩ := by
  unfold step at h
  split at h
  · cases h
  · next a st hs =>
    cases h
    exact .inl ⟨a, st, hs, rfl⟩
  · next a st hs =>
    split at h
    · next hc =>
      cases h
      exact .inr (.inl ⟨a, st, hs, hc, rfl⟩)
    · next hc =>
      split at h
      · cases h
      · next ha =>
        obtain ⟨⟨d, bs⟩, hd, h⟩ := bind_eq_ok.1 h
        cases h
        exact .inr (.inr ⟨a, st, d, bs, hs, hc, ha, hd, rfl⟩)

theorem step_error {e : ε} (h : g.step s = .error e) :
    ∃ a st, s.stack = (a, false) :: st ∧ (a ∈ s.active ∨ ¬ g.Expands a) := by
  unfold step at h
  split at h
  · cases h
  · cases h
  · next a st hs =>
    refine ⟨a, st, hs, ?_⟩
    split at h
    · cases h
    · split at h
      · next ha => exact .inl ha
      · right
        rintro ⟨r, hr⟩
        rw [hr, ok_bind] at h
        cases h

theorem stack_of_none (h : g.step s = .ok none) : s.stack = [] := by
  unfold step at h
  split at h
  · assumption
  · cases h
  · split at h
    · cases h
    · split at h
      · cases h
      · obtain ⟨_, -, h⟩ := bind_eq_ok.1 h
        cases h

/-- The nodes that are still to come. -/
def unseen (g : Graph α β ε) (s : State α β) : Finset α := g.nodes \ (s.active ∪ s.complete)

theorem step_lt (h : g.step s = .ok (some s')) :
    Prod.Lex (· < ·) (· < ·) ((g.unseen s').card, s'.stack.length)
      ((g.unseen s).card, s.stack.length) := by
  rw [Prod.lex_def]
  obtain ⟨a, st, hs, rfl⟩ | ⟨a, st, hs, -, rfl⟩ | ⟨a, st, d, bs, hs, hc, ha, hd, rfl⟩ :=
    step_cases h
  · have hl : g.unseen ⟨s.found, s.active.erase a, insert a s.complete, st⟩ ⊆ g.unseen s := by
      intro x hx
      simp only [unseen, Finset.mem_sdiff, Finset.mem_union, Finset.mem_erase,
        Finset.mem_insert] at hx ⊢
      tauto
    have := Finset.card_le_card hl
    simp only [hs, length_cons]
    omega
  · right
    simp [unseen, hs]
  · left
    refine Finset.card_lt_card ⟨fun x hx => ?_, fun hl => ?_⟩
    · simp only [unseen, Finset.mem_sdiff, Finset.mem_union, Finset.mem_insert] at hx ⊢
      tauto
    · have hm : a ∈ g.unseen s := by simp [unseen, g.mem_nodes hd, hc, ha]
      have := hl hm
      simp [unseen] at this

variable (g) in
/-- Rounds until the stack is empty. -/
def run (s : State α β) : Except ε (List (α × β)) :=
  match _h : g.step s with
  | .error e => .error e
  | .ok none => .ok s.found
  | .ok (some s') => run s'
termination_by ((g.unseen s).card, s.stack.length)
decreasing_by exact step_lt _h

variable (g) in
def search (root : α) : Except ε (List (α × β)) := g.run ⟨[], ∅, ∅, [(root, false)]⟩

variable (g) in
/-- What holds in every round. -/
structure Inv (root : α) (s : State α β) : Prop where
  linked : g.Linked root s.stack
  covered : g.Covered s.complete [] s.stack
  markers : (s.stack.filter (·.2)).Nodup
  active : ∀ a, a ∈ s.active ↔ (a, true) ∈ s.stack
  found : ∀ a, a ∈ s.found.map Prod.fst ↔ a ∈ s.active ∨ a ∈ s.complete
  complete : ∀ a ∈ s.complete, g.Expands a ∧ g.Reaches root a ∧
    (∀ b, g.Refers a b → b ∈ s.complete) ∧ Acc (fun b a => g.Refers a b) a
  root : root ∈ s.complete ∨ ∃ m, (root, m) ∈ s.stack

omit [DecidableEq α] in
theorem inv_start (root : α) : g.Inv root ⟨[], ∅, ∅, [(root, false)]⟩ where
  linked := ⟨rfl, trivial⟩
  covered := trivial
  markers := nodup_nil
  active := by simp
  found := by simp
  complete := by simp
  root := .inr ⟨false, mem_cons_self⟩

theorem Inv.step (h : g.Inv root s) (hs : g.step s = .ok (some s')) : g.Inv root s' := by
  obtain ⟨l, co, ms, active, f, cm, hro⟩ := h
  obtain ⟨a, st, hst, rfl⟩ | ⟨a, st, hst, hc, rfl⟩ | ⟨a, st, d, bs, hst, hc, ha, hd, rfl⟩ :=
    step_cases hs
  · -- an exit: all that the node refers to is complete
    rw [hst] at l co ms active hro
    obtain ⟨⟨he, hrf⟩, hco⟩ := co
    have hma : (a, true) ∉ st := by simpa using (nodup_cons.1 ms).1
    have hdo : ∀ b, g.Refers a b → b ∈ s.complete := fun b hb =>
      (hrf b hb).resolve_right not_mem_nil
    have hre : g.Reaches root a := l.reaches mem_cons_self
    have hacc : Acc (fun b a => g.Refers a b) a := .intro a fun b hb => (cm b (hdo b hb)).2.2.2
    refine ⟨l.2, hco.mono fun b hb => ?_, (nodup_cons.1 ms).2, fun b => ?_,
      fun b => ?_, fun b hb => ?_, ?_⟩
    · simpa [or_comm] using hb
    · rw [Finset.mem_erase, active]
      constructor
      · rintro ⟨hn, hme⟩
        simpa [hn] using hme
      · intro hme
        refine ⟨?_, mem_cons_of_mem _ hme⟩
        rintro rfl
        exact hma hme
    · have hac := (active a).2 mem_cons_self
      rw [f, Finset.mem_erase, Finset.mem_insert]
      by_cases hab : b = a
      · simp [hab, hac]
      · simp [hab]
    · obtain rfl | hb := Finset.mem_insert.1 hb
      · exact ⟨he, hre, fun c hc => Finset.mem_insert_of_mem (hdo c hc), hacc⟩
      · obtain ⟨h1, h2, h3, h4⟩ := cm b hb
        exact ⟨h1, h2, fun c hc => Finset.mem_insert_of_mem (h3 c hc), h4⟩
    · obtain hr | ⟨m, hm⟩ := hro
      · exact .inl (Finset.mem_insert_of_mem hr)
      · obtain heq | hm := mem_cons.1 hm
        · cases heq
          exact .inl (Finset.mem_insert_self _ _)
        · exact .inr ⟨m, hm⟩
  · -- an entry of a complete node
    rw [hst] at l co ms active hro
    have hco : g.Covered s.complete [a] st := co
    refine ⟨l.2, hco.mono fun b hb => ?_, ms, fun b => ?_, f, cm, ?_⟩
    · obtain hb | hb := hb
      · exact .inl hb
      · exact .inl (mem_singleton.1 hb ▸ hc)
    · rw [active]
      simp
    · obtain hr | ⟨m, hm⟩ := hro
      · exact .inl hr
      · obtain heq | hm := mem_cons.1 hm
        · cases heq
          exact .inl hc
        · exact .inr ⟨m, hm⟩
  · -- an entry of a new node: it is marked below what it refers to
    rw [hst] at l co ms active hro
    have hma : (a, true) ∉ st := fun hm => ha ((active a).2 (mem_cons_of_mem _ hm))
    have hl : g.Linked root ((a, true) :: st) := l
    refine ⟨(hl.append fun b hb => ⟨d, bs, hd, hb⟩).1,
      covered_append.2 ⟨⟨⟨_, hd⟩, fun b hb => ?_⟩, co.mono fun b hb => ?_⟩, ?_, fun b => ?_,
      fun b => ?_, cm, ?_⟩
    · obtain ⟨d', bs', hd', hb⟩ := hb
      rw [hd] at hd'
      cases hd'
      exact .inr (by simpa using hb)
    · exact hb.imp_right fun hb => absurd hb not_mem_nil
    · simpa [filter_append, filter_map, Function.comp_def] using ⟨hma, ms⟩
    · rw [Finset.mem_insert, active]
      simp
    · rw [map_cons, mem_cons, f, Finset.mem_insert, or_assoc]
    · obtain hr | ⟨m, hm⟩ := hro
      · exact .inl hr
      · obtain heq | hm := mem_cons.1 hm
        · cases heq
          exact .inr ⟨true, by simp⟩
        · exact .inr ⟨m, by simp [hm]⟩

variable (g) in
/-- Every node that is reached can be expanded, and none lies on a cycle. -/
def Accepts (root : α) : Prop :=
  ∀ a, g.Reaches root a → g.Expands a ∧ ¬ Relation.TransGen g.Refers a a

theorem Inv.not_accepts (h : g.Inv root s) {e : ε} (hs : g.step s = .error e) :
    ¬ g.Accepts root := by
  obtain ⟨a, st, hst, hb⟩ := step_error hs
  have hl := h.linked
  rw [hst] at hl
  have hr : g.Reaches root a := hl.reaches mem_cons_self
  intro ho
  obtain ha | ha := hb
  · -- the path of the markers leads from the node back to it
    have hm : (a, true) ∈ st := by simpa [hst] using (h.active a).1 ha
    obtain ⟨p, hp, hap⟩ := hl.2.reaches_owner hm
    have hpa := hl.1
    rw [hp] at hpa
    exact (ho a hr).2 (Relation.TransGen.tail' hap hpa)
  · exact ha (ho a hr).1

omit [DecidableEq α] in
theorem Inv.accepts (h : g.Inv root s) (hs : s.stack = []) :
    g.Accepts root ∧ ∀ a, a ∈ s.found.map Prod.fst ↔ g.Reaches root a := by
  have hro : root ∈ s.complete := by simpa [hs] using h.root
  have hr : ∀ a, g.Reaches root a → a ∈ s.complete := by
    intro a ha
    induction ha with
    | refl => exact hro
    | tail _ hb ih => exact (h.complete _ ih).2.2.1 _ hb
  refine ⟨fun a ha => ?_, fun a => ?_⟩
  · obtain ⟨he, -, -, hac⟩ := h.complete a (hr a ha)
    exact ⟨he, not_cyclic_of_acc hac⟩
  · rw [h.found, h.active, hs]
    exact ⟨fun hm => (h.complete a (hm.resolve_left not_mem_nil)).2.1,
      fun ha => .inr (hr a ha)⟩

theorem Inv.run (h : g.Inv root s) : ((∃ f, g.run s = .ok f) ↔ g.Accepts root) ∧
    ∀ f, g.run s = .ok f → ∀ a, a ∈ f.map Prod.fst ↔ g.Reaches root a := by
  fun_induction g.run s with
  | case1 s e hs => exact ⟨iff_of_false nofun (h.not_accepts hs), nofun⟩
  | case2 s hs =>
    obtain ⟨ho, hf⟩ := h.accepts (stack_of_none hs)
    refine ⟨iff_of_true ⟨_, rfl⟩ ho, fun f heq => ?_⟩
    cases heq
    exact hf
  | case3 s s' hs ih => exact ih (h.step hs)

/-- The search succeeds exactly if its root is accepted, and then finds what it reaches. -/
theorem search_iff (root : α) : ((∃ f, g.search root = .ok f) ↔ g.Accepts root) ∧
    ∀ f, g.search root = .ok f → ∀ a, a ∈ f.map Prod.fst ↔ g.Reaches root a :=
  (inv_start root).run

end Graph

end DepthFirst
