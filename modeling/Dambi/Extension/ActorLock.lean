import Mathlib.Logic.Function.Basic
import Mathlib.Data.List.Basic

/-!
# One decision of an actor at a time

`withActorLock` in `orchestrator.ts` chains the decisions of an actor by promises. What
it stores is the promise that `finally` makes, and what it compares with that when a
decision ends is the promise of the decision, so an entry is never taken out.
-/

namespace Dambi.Extension.ActorLock

open Function

inductive Message where
  | transaction («from» : String)
  | typedSignature (address : String)
  | untypedSignature
  | venueOrder (wallet : Option String) (hostname : String)

def inferActor : Message → Option String
  | .transaction sender => some sender
  | .typedSignature address => some address
  | .venueOrder wallet hostname => some (wallet.getD ("venue:" ++ hostname))
  | .untypedSignature => none

/-- The promise of a decision, and the one that its `finally` returns. -/
inductive Promise where
  | next (id : Nat)
  | cleared (id : Nat)
deriving DecidableEq

inductive Phase where
  | uncalled | waiting | running | settled (rejected : Bool) | cleared
deriving DecidableEq

/-- The decisions by the number of their call, and `actorChain`. -/
structure Chain where
  called : Nat
  actor : Nat → Option String
  prev : Nat → Option Promise
  phase : Nat → Phase
  table : String → Option Promise

inductive Step where
  | call (message : Message)
  | start (id : Nat)
  | settle (id : Nat) (rejected : Bool)
  | clear (id : Nat)

namespace Chain

def empty : Chain := ⟨0, fun _ => none, fun _ => none, fun _ => .uncalled, fun _ => none⟩

def setPhase (c : Chain) (id : Nat) (phase : Phase) : Chain :=
  { c with phase := update c.phase id phase }

/-- A key without an entry counts as `Promise.resolve()`. -/
def isSettled (c : Chain) : Option Promise → Bool
  | none => true
  | some (.next id) => match c.phase id with
    | .settled _ | .cleared => true
    | _ => false
  | some (.cleared id) => c.phase id = .cleared

variable (lower : String → String) (actor : Option String)

/-- The key of the lock; an empty actor takes none. -/
def keyOf : Option String := (actor.filter (· ≠ "")).map lower

variable (c : Chain)

def key (id : Nat) : Option String := keyOf lower (c.actor id)

/-- Without a key the decision runs at once; with one it takes the place of the entry. -/
def withActorLock : Chain :=
  let id := c.called
  let key := keyOf lower actor
  { called := id + 1
    actor := update c.actor id actor
    prev := update c.prev id (key.bind c.table)
    phase := update c.phase id (if key.isNone then .running else .waiting)
    table := fun k => if key = some k then some (.cleared id) else c.table k }

/-- One turn of the event loop; a turn that is not enabled does nothing. -/
def step : Step → Chain
  | .call message => c.withActorLock lower (inferActor message)
  | .start id =>
    if c.phase id = .waiting ∧ c.isSettled (c.prev id) then c.setPhase id .running else c
  | .settle id rejected => if c.phase id = .running then c.setPhase id (.settled rejected) else c
  | .clear id =>
    match c.phase id, c.key lower id with
    | .settled _, some key =>
      -- Release the slot only when this is still the most recent waiter.
      let table := if c.table key = some (.next id) then update c.table key none else c.table
      { c.setPhase id .cleared with table }
    | _, _ => c

def run (steps : List Step) : Chain := steps.foldl (step lower) empty

def Started (id : Nat) : Prop := c.phase id ≠ .uncalled ∧ c.phase id ≠ .waiting

def Done (id : Nat) : Prop :=
  (∃ rejected, c.phase id = .settled rejected) ∨ c.phase id = .cleared

/-- No decision of the actor is waiting or running. -/
def Idle (k : String) : Prop := ∀ i, c.key lower i = some k → c.Done i

/-! ## The entries follow the calls -/

/-- What the last decision of a key among the first `n` left in the table. -/
def entry (key : Nat → Option String) (k : String) : Nat → Option Promise
  | 0 => none
  | n + 1 => if key n = some k then some (.cleared n) else entry key k n

structure Valid (c : Chain) : Prop where
  fresh : ∀ i, c.called ≤ i → c.phase i = .uncalled ∧ c.actor i = none
  table : ∀ k, c.table k = entry (c.key lower) k c.called
  prev : ∀ j k, c.key lower j = some k → c.prev j = entry (c.key lower) k j
  order : ∀ i j k, i < j → c.key lower i = some k → c.key lower j = some k → c.Started j →
    c.phase i = .cleared

variable {lower} {c : Chain} {key : Nat → Option String} {k : String}

theorem entry_congr {key' : Nat → Option String} :
    ∀ {n}, (∀ i < n, key' i = key i) → entry key' k n = entry key k n
  | 0, _ => rfl
  | n + 1, h => by
    rw [entry, entry, h n n.lt_succ_self, entry_congr fun i hi => h i (by omega)]

theorem entry_cases (key : Nat → Option String) (k : String) (n : Nat) :
    (entry key k n = none ∧ ∀ i < n, key i ≠ some k) ∨
      ∃ p < n, entry key k n = some (.cleared p) ∧ key p = some k ∧
        ∀ i < n, key i = some k → i ≤ p := by
  induction n with
  | zero => exact .inl ⟨rfl, nofun⟩
  | succ n ih =>
    rw [entry]
    split
    · exact .inr ⟨n, n.lt_succ_self, rfl, ‹_›, fun i hi _ => Nat.le_of_lt_succ hi⟩
    · grind

/-- A decision may move on once the earlier ones of its key have been cleared. -/
theorem Valid.setPhase (hc : c.Valid lower) {id : Nat} (phase : Phase)
    (hu : c.phase id ≠ .uncalled) (hcl : c.phase id ≠ .cleared)
    (hord : ∀ i < id, ∀ k, c.key lower i = some k → c.key lower id = some k →
      c.phase i = .cleared) : (c.setPhase id phase).Valid lower where
  fresh i hi := by
    have hne : i ≠ id := by
      rintro rfl
      exact hu (hc.fresh i hi).1
    simpa [Chain.setPhase, update_of_ne hne] using hc.fresh i hi
  table := hc.table
  prev := hc.prev
  order i j k hij hi hj hs := by
    have hcleared : c.phase i = .cleared := by
      by_cases h : j = id
      · subst h
        exact hord i hij k hi hj
      · exact hc.order i j k hij hi hj (by simpa [Started, Chain.setPhase, update_of_ne h] using hs)
    have hne : i ≠ id := by
      rintro rfl
      exact hcl hcleared
    simpa [Chain.setPhase, update_of_ne hne] using hcleared

theorem Valid.lt_called {i : Nat}
    (hc : c.Valid lower) (hi : c.key lower i = some k) : i < c.called := by
  by_contra h
  simp [Chain.key, keyOf, (hc.fresh i (by omega)).2] at hi

theorem Valid.withActorLock (hc : c.Valid lower) (actor : Option String) :
    (c.withActorLock lower actor).Valid lower := by
  have hnew : (c.withActorLock lower actor).key lower c.called = keyOf lower actor := by
    simp [key, Chain.withActorLock]
  have hold : ∀ i, i ≠ c.called → (c.withActorLock lower actor).key lower i = c.key lower i := by
    intro i hi
    simp [key, Chain.withActorLock, update_of_ne hi]
  have hentry : ∀ k n, n ≤ c.called →
      entry ((c.withActorLock lower actor).key lower) k n = entry (c.key lower) k n :=
    fun k n hn => entry_congr fun i hi => hold i (by omega)
  constructor
  · intro i hi
    have hlt : c.called < i := hi
    simpa [Chain.withActorLock, update_of_ne (Nat.ne_of_gt hlt)] using hc.fresh i (by omega)
  · intro k
    change (if _ then _ else c.table k) = entry _ k (c.called + 1)
    rw [entry, hnew, hc.table, hentry k _ (Nat.le_refl _)]
  · intro j k hj
    by_cases h : j = c.called
    · subst h
      rw [hentry k _ (Nat.le_refl _), ← hc.table]
      simp [Chain.withActorLock, hnew ▸ hj]
    · have hj' := hold j h ▸ hj
      rw [hentry k j (Nat.le_of_lt (hc.lt_called hj')), ← hc.prev j k hj']
      exact update_of_ne h ..
  · intro i j k hij hi hj hs
    by_cases h : j = c.called
    · subst h
      simp [Started, Chain.withActorLock, hnew ▸ hj] at hs
    · have hj' := hold j h ▸ hj
      have hne : i ≠ c.called := by have := hc.lt_called hj'; omega
      simp only [Started, Chain.withActorLock, update_of_ne h, update_of_ne hne] at hs ⊢
      exact hc.order i j k hij (hold i hne ▸ hi) hj' hs

theorem Valid.step (hc : c.Valid lower) (s : Step) : (c.step lower s).Valid lower := by
  cases s with
  | call message => exact hc.withActorLock _
  | start id =>
    simp only [Chain.step]
    split
    · rename_i h
      refine hc.setPhase _ (by simp [h.1]) (by simp [h.1]) fun i hi k hki hk => ?_
      rcases entry_cases (c.key lower) k id with ⟨-, hne⟩ | ⟨p, -, he, hp, hmax⟩
      · exact absurd hki (hne i hi)
      have hcl : c.phase p = .cleared := by simpa [hc.prev id k hk, he, isSettled] using h.2
      rcases Nat.eq_or_lt_of_le (hmax i hi hki) with rfl | hlt
      · exact hcl
      · exact hc.order i p k hlt hki hp (by simp [Started, hcl])
    · exact hc
  | settle id rejected =>
    simp only [Chain.step]
    split
    · rename_i h
      exact hc.setPhase _ (by simp [h]) (by simp [h]) fun i hi k hki hk =>
        hc.order i id k hi hki hk (by simp [Started, h])
    · exact hc
  | clear id =>
    simp only [Chain.step]
    split
    · rename_i h _
      rw [if_neg (by grind [hc.table, entry_cases])]
      exact hc.setPhase _ (by simp [h]) (by simp [h]) fun i hi k hki hk =>
        hc.order i id k hi hki hk (by simp [Started, h])
    · exact hc

theorem valid_run (steps : List Step) : (run lower steps).Valid lower := by
  have hrun : ∀ (steps : List Step) (c : Chain), c.Valid lower →
      (steps.foldl (Chain.step lower) c).Valid lower := by
    intro steps
    induction steps with
    | nil => exact fun _ h => h
    | cons s steps ih => exact fun c h => ih _ (h.step s)
  exact hrun steps empty ⟨fun _ _ => ⟨rfl, rfl⟩, fun _ => rfl, nofun, nofun⟩

/-- Decisions of an actor run one at a time and in the order of their calls, and one that
has ended, resolved or rejected, lets the next one start. When an actor is idle its entry
is missing only if it has never called. -/
theorem decisions_exclusive (steps : List Step) (k : String) :
    let c := run lower steps
    (∀ i j, i < j → c.key lower i = some k → c.key lower j = some k → c.Started j → c.Done i) ∧
    (∀ j, c.key lower j = some k → c.phase j = .waiting →
      (∀ i < j, c.key lower i = some k → c.Done i) →
      ∃ p, ((c.step lower (.clear p)).step lower (.start j)).phase j = .running) ∧
    ((c.Idle lower k → c.table k = none) ↔
      ¬c.Idle lower k ∨ ∀ i, c.key lower i ≠ some k) := by
  intro c
  have hv : c.Valid lower := valid_run steps
  refine ⟨fun i j hij hi hj hs => ?_, fun j hj hw hdone => ?_, ?_⟩
  · exact .inr (hv.order i j k hij hi hj hs)
  · have hprev := hv.prev j k hj
    rcases entry_cases (c.key lower) k j with ⟨he, -⟩ | ⟨p, hpj, he, hp, -⟩
    · exact ⟨j, by simp [Chain.step, hw, hprev, he, isSettled, Chain.setPhase]⟩
    · refine ⟨p, ?_⟩
      rcases hdone p hpj hp with ⟨r, hr⟩ | hr <;>
        simp [Chain.step, hw, hprev, he, hr, hp, isSettled, Chain.setPhase, Nat.ne_of_gt hpj]
  · rw [hv.table]
    rcases entry_cases (c.key lower) k c.called with ⟨he, hne⟩ | ⟨p, -, he, hp, -⟩
    · have hcall : ∀ i, c.key lower i ≠ some k := fun i hi => hne i (hv.lt_called hi) hi
      simp [he, hcall]
    · have hcall : ¬∀ i, c.key lower i ≠ some k := fun h => h p hp
      simp [he, hcall]

theorem phase_of_called (steps : List Step) :
    ∀ i < (run lower steps).called, (run lower steps).phase i ≠ .uncalled := by
  refine List.foldlRecOn (motive := fun c : Chain => ∀ i < c.called, c.phase i ≠ .uncalled) steps _
    (fun _ => nofun) fun c hc s _ i => ?_
  cases s with
  | call message =>
    simp only [step, withActorLock, update_apply]
    grind
  | _ =>
    simp only [step]
    split
    · simp only [Chain.setPhase, update_apply]
      grind
    · exact hc i

/-- The decisions of an actor have all been cleared, or one has a turn that moves it on. -/
theorem never_stuck (steps : List Step) (k : String) :
    let c := run lower steps
    (∀ i, c.key lower i = some k → c.phase i = .cleared) ∨
      ∃ i, c.key lower i = some k ∧ ∃ s ∈ [.start i, .settle i false, .clear i],
        (c.step lower s).phase i ≠ c.phase i := by
  intro c
  have hv : c.Valid lower := valid_run steps
  rw [or_iff_not_imp_right]
  intro hstuck i
  -- the oldest decision that has not been cleared waits for nobody
  induction i using Nat.strongRecOn with
  | ind i ih =>
    intro hi
    by_contra hphase
    have hprev : c.isSettled (c.prev i) := by
      rw [hv.prev i k hi]
      grind [entry_cases, isSettled]
    refine hstuck ⟨i, hi, ?_⟩
    cases h : c.phase i with
    | uncalled => exact absurd h (phase_of_called steps i (hv.lt_called hi))
    | cleared => exact absurd h hphase
    | _ => simp [step, Chain.setPhase, h, hprev, hi]

/-- The entry outlives the only decision of the actor, and two decisions of the empty actor
run at once. -/
theorem entry_kept : let c := run id [.call (.transaction "a"), .start 0, .settle 0 false, .clear 0]
    (c.key id 0 = some "a" ∧ c.called = 1 ∧ c.phase 0 = .cleared ∧
      c.table "a" = some (.cleared 0)) ∧
    let c := run id [.call (.transaction ""), .call (.transaction "")]
    c.actor 0 = c.actor 1 ∧ c.phase 0 = .running ∧ c.phase 1 = .running := by
  decide

end Chain

end Dambi.Extension.ActorLock
