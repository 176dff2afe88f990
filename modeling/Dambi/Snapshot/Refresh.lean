import Dambi.Lib.Machine
import Dambi.Snapshot.Store

/-!
# The refresh protocol

Any number of stores side by side, driven by any list of commands. Tickets and
prepared candidates are arguments of the commands, so a run may use stale ones,
ones of another store and ones never issued. `World.step_effect` says once what a
command can do to one store; the safety of the protocol is read off from it.
-/

namespace Dambi

open Fallible List Machine SnapshotStore ValidatedPolicyBundle Option

variable {δ : Type}

/-! ## Stores side by side -/

structure World (δ : Type) where
  lifecycles : Lifecycles
  stores : LifecycleId → Option (SnapshotStore δ)
  next : LifecycleId

/-- A call on a store, which is named by its lifecycle. -/
inductive StoreCommand where
  | create (config : SnapshotStoreConfig) (decoder : DecoderInput) (initial : SignedPolicyInput)
      (now : Nat)
  | current (store : LifecycleId) (now : Nat)
  | beginRefresh (store : LifecycleId)
  | prepareRefresh (store : LifecycleId) (ticket : RefreshTicket) (policy : SignedPolicyInput)
      (now : Nat)
  | commitRefresh (store : LifecycleId) (prepared : PreparedRefresh) (now : Nat)
  | cancelRefresh (store : LifecycleId) (ticket : RefreshTicket)
  | dispose (store : LifecycleId)

/-- The store a fallible call is made on. -/
def StoreCommand.target : StoreCommand → Option LifecycleId
  | .create .. | .dispose _ => none
  | .current store _ | .beginRefresh store | .prepareRefresh store .. | .commitRefresh store ..
  | .cancelRefresh store _ => some store

inductive StoreAnswer (δ : Type) where
  | created (store : LifecycleId)
  | snapshot (snapshot : Snapshot δ)
  | ticket (ticket : RefreshTicket)
  | prepared (prepared : PreparedRefresh)
  | updated (update : PolicyUpdate)
  | done
  | error (error : SnapshotError)
  /-- There is no such store to call. -/
  | noStore

def StoreAnswer.ofExcept {α : Type} (wrap : α → StoreAnswer δ) :
    Except SnapshotError α → StoreAnswer δ
  | .ok a => wrap a
  | .error e => .error e

def activeOf (store : Option (SnapshotStore δ)) : Option (Snapshot δ) :=
  (store.bind (·.state)).map (·.active)

/-- A store owns the lifecycle it is named by, has at most its latest attempt pending,
and keeps its state only while it is live. -/
structure SnapshotStore.Sound (i : LifecycleId) (disposed : Bool) (store : SnapshotStore δ) :
    Prop where
  owner : store.lifecycle = i
  pending : ∀ {g}, store.pending = some g → g = store.generation
  live : ∀ {state}, store.state = some state → state.active.lifecycle = i ∧ disposed = false

namespace World

def empty : World δ := ⟨fun _ => false, fun _ => none, 0⟩

def active (w : World δ) (i : LifecycleId) : Option (Snapshot δ) := activeOf (w.stores i)

def onStore (w : World δ) (i : LifecycleId)
    (op : SnapshotStore δ → StoreAnswer δ × SnapshotStore δ) : StoreAnswer δ × World δ :=
  match w.stores i with
  | none => (.noStore, w)
  | some store =>
    ((op store).1, { w with stores := Function.update w.stores i (some (op store).2) })

def step (trust : Trust δ) (w : World δ) : StoreCommand → StoreAnswer δ × World δ
  | .create config decoder initial now =>
    match SnapshotStore.new trust w.next config decoder initial now with
    | .error error => (.error error, w)
    | .ok store => (.created w.next, { w with
        stores := Function.update w.stores w.next (some store)
        next := w.next + 1 })
  | .current i now => w.onStore i fun store =>
      (.ofExcept .snapshot (store.current w.lifecycles now), store)
  | .beginRefresh i => w.onStore i fun store =>
      ((store.beginRefresh w.lifecycles).map (.ofExcept .ticket) id)
  | .prepareRefresh i ticket policy now => w.onStore i fun store =>
      (.ofExcept .prepared (store.prepareRefresh w.lifecycles trust ticket policy now), store)
  | .commitRefresh i prepared now => w.onStore i fun store =>
      ((store.commitRefresh w.lifecycles prepared now).map (.ofExcept .updated) id)
  | .cancelRefresh i ticket => w.onStore i fun store =>
      ((store.cancelRefresh w.lifecycles ticket).map (.ofExcept fun _ => .done) id)
  | .dispose i =>
    match w.stores i with
    | none => (.noStore, w)
    | some store => (.done, { w with
        lifecycles := (store.dispose w.lifecycles).1
        stores := Function.update w.stores i (some (store.dispose w.lifecycles).2) })

/-- The invariant: every store is sound, and a name not yet given is unused. -/
structure WellFormed (w : World δ) : Prop where
  sound : ∀ {i store}, w.stores i = some store → store.Sound i (w.lifecycles i)
  fresh : ∀ {i}, w.next ≤ i → w.stores i = none ∧ w.lifecycles i = false

theorem wellFormed_empty : (empty : World δ).WellFormed where
  sound h := by cases h
  fresh _ := ⟨rfl, rfl⟩

end World

/-! ## The effect of a command on one store -/

def issuedTicket (i : LifecycleId) (command : StoreCommand) (answer : StoreAnswer δ) :
    Option RefreshTicket :=
  match command, answer with
  | .beginRefresh j, .ticket ticket => if j = i then some ticket else none
  | _, _ => none

/-- What a command with its answer does to the flag and the store of one lifecycle. -/
inductive StoreEffect (i : LifecycleId) (command : StoreCommand) (answer : StoreAnswer δ) :
    Bool × Option (SnapshotStore δ) → Bool × Option (SnapshotStore δ) → Prop
  | same {flag store} (issued : issuedTicket i command answer = none) :
      StoreEffect i command answer (flag, store) (flag, store)
  | created {store state} (issued : issuedTicket i command answer = none)
      (hanswer : answer = .created i) (hpending : store.pending = none)
      (hstate : store.state = some state) (howner : store.lifecycle = i)
      (hactive : state.active.lifecycle = i) :
      StoreEffect i command answer (false, none) (false, some store)
  | begun {store} (hlive : store.generation + 1 < 2 ^ 64)
      (issued : issuedTicket i command answer = some ⟨store.lifecycle, store.generation + 1⟩) :
      StoreEffect i command answer (false, some store) (false, some { store with
        generation := store.generation + 1
        pending := some (store.generation + 1) })
  | finished {flag store} (issued : issuedTicket i command answer = none) :
      StoreEffect i command answer (flag, some store) (flag, some { store with pending := none })
  | replaced {store state prepared now} (issued : issuedTicket i command answer = none)
      (hcommand : command = .commitRefresh i prepared now) (hanswer : answer = .updated .replace)
      (howner : prepared.owner = store.lifecycle)
      (hpending : store.pending = some prepared.generation) (hstate : store.state = some state)
      (hupdate : prepared.policy.checkUpdate (some state.active.policy) now = .ok .replace) :
      StoreEffect i command answer (false, some store) (false, some { store with
        pending := none
        state := some { state with
          active := ⟨prepared.policy, state.active.decoder, store.lifecycle⟩ } })
  | disposed {flag store} (issued : issuedTicket i command answer = none)
      (hcommand : command = .dispose i) (hanswer : answer = .done) :
      StoreEffect i command answer (flag, some store)
        (true, some { store with pending := none, state := none })

namespace StoreEffect

variable {i : LifecycleId} {command : StoreCommand} {answer : StoreAnswer δ}
  {flag flag' : Bool} {store store' : Option (SnapshotStore δ)}

section

variable (h : StoreEffect i command answer (flag, store) (flag', store'))
include h

theorem sound
    (hso : ∀ s, store = some s → s.Sound i flag) : ∀ s, store' = some s → s.Sound i flag' := by
  intro s hs
  cases h with
  | same => exact hso s hs
  | created _ _ hp hsa ho ha =>
    cases hs
    refine ⟨ho, fun hg => ?_, fun hst => ?_⟩
    · rw [hp] at hg
      cases hg
    · rw [hsa] at hst
      cases hst
      exact ⟨ha, rfl⟩
  | begun =>
    cases hs
    obtain ⟨ho, -, hl⟩ := hso _ rfl
    refine ⟨ho, fun hg => ?_, hl⟩
    cases hg
    rfl
  | finished =>
    cases hs
    obtain ⟨ho, -, hl⟩ := hso _ rfl
    refine ⟨ho, fun hg => ?_, hl⟩
    cases hg
  | replaced =>
    cases hs
    obtain ⟨ho, -, -⟩ := hso _ rfl
    refine ⟨ho, fun hg => ?_, fun hst => ?_⟩
    · cases hg
    · cases hst
      exact ⟨ho, rfl⟩
  | disposed =>
    cases hs
    obtain ⟨ho, -, -⟩ := hso _ rfl
    refine ⟨ho, fun hg => ?_, fun hst => ?_⟩
    · cases hg
    · cases hst

theorem of_none (hs : store = none) (hf : flag = false) :
    (store' = none ∧ flag' = false) ∨ answer = .created i := by
  cases h with
  | same => exact .inl ⟨hs, hf⟩
  | created _ ha => exact .inr ha
  | begun | finished | replaced | disposed => cases hs

theorem persists : (store.isSome → store'.isSome) ∧ (flag = true → flag' = true) := by
  cases h <;> simp

end

end StoreEffect

namespace World

section Effects

variable (trust : Trust δ) {w : World δ}

variable {command : StoreCommand} {i : LifecycleId}

private theorem onStore_effect {j : LifecycleId}
    {op : SnapshotStore δ → StoreAnswer δ × SnapshotStore δ}
    (his : ∀ answer : StoreAnswer δ, i ≠ j → issuedTicket j command answer = none)
    (hn : issuedTicket j command (.noStore : StoreAnswer δ) = none)
    (hop : ∀ store, w.stores i = some store → i = j → StoreEffect j command (op store).1
      (w.lifecycles j, some store) (w.lifecycles j, some (op store).2)) :
    StoreEffect j command (w.onStore i op).1 (w.lifecycles j, w.stores j)
      ((w.onStore i op).2.lifecycles j, (w.onStore i op).2.stores j) := by
  unfold onStore
  cases hs : w.stores i with
  | none => exact .same hn
  | some store =>
    by_cases hi : i = j
    · have he := hop store hs hi
      subst hi
      simpa only [Function.update_self, hs] using he
    · simp only [Function.update_of_ne (Ne.symm hi)]
      exact .same (his _ hi)

theorem step_effect (hw : w.WellFormed) (command : StoreCommand) (j : LifecycleId) :
    StoreEffect j command (step trust w command).1 (w.lifecycles j, w.stores j)
      ((step trust w command).2.lifecycles j, (step trust w command).2.stores j) := by
  cases command with
  | create c d ini now =>
    simp only [step]
    cases hn : SnapshotStore.new trust w.next c d ini now with
    | error error => exact .same rfl
    | ok store =>
      obtain ⟨hfr, hf⟩ := hw.fresh (Nat.le_refl w.next)
      by_cases hj : w.next = j
      · subst hj
        simp only [SnapshotStore.new, bind_eq_ok, Except.ok.injEq] at hn
        obtain ⟨_, _, _, _, _, _, _, _, _, _, heq⟩ := hn
        subst heq
        rw [hfr, hf]
        simp only [Function.update_self]
        exact .created rfl rfl rfl rfl rfl rfl
      · simp only [Function.update_of_ne (Ne.symm hj)]
        exact .same rfl
  | current i now | prepareRefresh i ticket po now =>
    exact onStore_effect (fun _ _ => rfl) rfl fun store _ _ => .same rfl
  | beginRefresh i =>
    refine onStore_effect (fun answer hi => ?_) rfl fun store hs hi => ?_
    · cases answer <;> simp [issuedTicket, hi]
    · subst hi
      rcases beginRefresh_cases w.lifecycles store with
        ⟨error, heq⟩ | ⟨hl, hroom, heq⟩
      · rw [heq]
        exact .same rfl
      · rw [heq, ← (hw.sound hs).owner, hl]
        exact .begun hroom (by simp [issuedTicket, StoreAnswer.ofExcept])
  | commitRefresh i p now =>
    refine onStore_effect (fun _ _ => rfl) rfl fun store hs hi => ?_
    subst hi
    rcases commitRefresh_cases w.lifecycles store p now with
      ⟨error, heq⟩ | ⟨state, hattempt, ⟨error, heq⟩ | ⟨-, heq⟩ | ⟨hupdate, heq⟩⟩
    · rw [heq]
      exact .same rfl
    · rw [heq]
      exact .finished rfl
    · rw [heq]
      exact .finished rfl
    · obtain ⟨⟨hl, hst⟩, ho, hp⟩ := checkAttempt_eq_ok.1 hattempt
      rw [(hw.sound hs).owner] at hl
      rw [heq, hl]
      exact .replaced rfl rfl rfl ho hp hst hupdate
  | cancelRefresh i ticket =>
    refine onStore_effect (fun _ _ => rfl) rfl fun store hs hi => ?_
    subst hi
    rcases cancelRefresh_cases w.lifecycles store ticket with
      ⟨error, heq⟩ | heq
    · rw [heq]
      exact .same rfl
    · rw [heq]
      exact .finished rfl
  | dispose i =>
    simp only [step]
    cases hs : w.stores i with
    | none => exact .same rfl
    | some store =>
      have hfl : (store.dispose w.lifecycles).1 = Function.update w.lifecycles i true := by
        rw [SnapshotStore.dispose, (hw.sound hs).owner]
      simp only [hfl]
      by_cases hi : j = i
      · subst hi
        simp only [Function.update_self, hs]
        exact .disposed rfl rfl rfl
      · simp only [Function.update_of_ne hi]
        exact .same rfl

theorem step_next (command : StoreCommand) :
    w.next ≤ (step trust w command).2.next ∧
      ∀ i, (step trust w command).1 = .created i → i < (step trust w command).2.next := by
  have hon : ∀ i op, (∀ store k, (op store).1 ≠ .created k) →
      w.next ≤ (w.onStore i op).2.next ∧
        ∀ k, (w.onStore i op).1 = .created k → k < (w.onStore i op).2.next := by
    intro i op hop
    unfold onStore
    cases w.stores i with
    | none => exact ⟨Nat.le_refl _, fun k hk => by cases hk⟩
    | some store => exact ⟨Nat.le_refl _, fun k hk => absurd hk (hop store k)⟩
  have ho : ∀ {α : Type} {wr : α → StoreAnswer δ} (r : Except SnapshotError α) (k : LifecycleId),
      (∀ a, wr a ≠ .created k) → StoreAnswer.ofExcept wr r ≠ .created k := by
    intro α wr r k hw
    cases r with
    | ok a => exact hw a
    | error e => simp [StoreAnswer.ofExcept]
  cases command with
  | create c d ini now =>
    simp only [step]
    cases SnapshotStore.new trust w.next c d ini now with
    | error error => exact ⟨Nat.le_refl _, fun k hk => by cases hk⟩
    | ok store =>
      refine ⟨Nat.le_succ _, fun k hk => ?_⟩
      cases hk
      exact Nat.lt_succ_self _
  | dispose i =>
    simp only [step]
    cases w.stores i with
    | none | some store => exact ⟨Nat.le_refl _, fun k hk => by cases hk⟩
  | current i now | prepareRefresh i ticket policy now | beginRefresh i
  | commitRefresh i prepared now | cancelRefresh i ticket =>
    exact hon i _ fun store k => ho _ k (by simp)

theorem wellFormed_step (hw : w.WellFormed) (command : StoreCommand) :
    (step trust w command).2.WellFormed := by
  obtain ⟨hnx, hc⟩ := step_next trust (w := w) command
  refine ⟨fun {i store} hs => ?_, fun {i} hi => ?_⟩
  · exact (step_effect trust hw command i).sound (fun _ h => hw.sound h) store hs
  · obtain ⟨hn, hf⟩ := hw.fresh (Nat.le_trans hnx hi)
    rcases (step_effect trust hw command i).of_none hn hf with h | h
    · exact h
    · exact absurd (hc i h) (Nat.not_lt.2 hi)

theorem step_error_of_disposed {store : SnapshotStore δ}
    (hw : w.WellFormed) (hs : w.stores i = some store)
    (hf : w.lifecycles i = true) (ht : command.target = some i) :
    ∃ e, (step trust w command).1 = .error e := by
  have hl : store.liveState w.lifecycles = .error disposedError := by
    simp [liveState, ensureLive, (hw.sound hs).owner, hf]
  have ha : ∀ ticket, store.checkAttempt w.lifecycles ticket = .error disposedError := by
    intro ticket
    simp [checkAttempt, hl]
  refine ⟨disposedError, ?_⟩
  cases command with
  | create | dispose => cases ht
  | current | beginRefresh | prepareRefresh | commitRefresh | cancelRefresh =>
    cases ht
    simp [step, onStore, hs, StoreAnswer.ofExcept, SnapshotStore.current,
      SnapshotStore.beginRefresh, SnapshotStore.prepareRefresh, SnapshotStore.commitRefresh,
      SnapshotStore.cancelRefresh, hl, ha]

theorem step_error_of_forged {a : Snapshot δ} {p : PreparedRefresh}
    (now : Nat) (ha : w.active i = some a)
    (hse : p.policy.sequence = a.policy.sequence)
    (hb : p.policy.verified.payloadBytes ≠ a.policy.verified.payloadBytes) :
    ∃ e, (step trust w (.commitRefresh i p now)).1 = .error e := by
  cases hst : w.stores i with
  | none =>
    rw [active, hst] at ha
    cases ha
  | some store =>
    simp only [active, activeOf, hst, bind_some, map_eq_some_iff] at ha
    obtain ⟨state, hs, rfl⟩ := ha
    simp only [step, onStore, hst]
    rcases commitRefresh_cases w.lifecycles store p now with
      ⟨er, heq⟩ | ⟨state', hattempt, hcompare⟩
    · exact ⟨er, by simp [heq, StoreAnswer.ofExcept]⟩
    · obtain ⟨⟨-, hs'⟩, -⟩ := checkAttempt_eq_ok.1 hattempt
      obtain rfl : state = state' := some.inj (hs.symm.trans hs')
      rcases hcompare with ⟨er, heq⟩ | ⟨hu, -⟩ | ⟨hu, -⟩
      · exact ⟨er, by simp [heq, StoreAnswer.ofExcept]⟩
      · obtain ⟨-, -, ⟨hl, -⟩ | ⟨-, hsa, -⟩⟩ :=
          checkUpdate_some_eq_ok.1 hu
        · omega
        · exact absurd hsa hb
      · have hl := sequence_lt_of_replace hu
        omega

theorem lifecycle_of_current {now : Nat} {s : Snapshot δ} (hw : w.WellFormed)
    (h : (step trust w (.current i now)).1 = .snapshot s) : s.lifecycle = i := by
  simp only [step, onStore] at h
  cases hs : w.stores i with
  | none =>
    simp only [hs] at h
    cases h
  | some store =>
    simp only [hs] at h
    cases hc : store.current w.lifecycles now with
    | error e =>
      rw [hc] at h
      cases h
    | ok f =>
      rw [hc] at h
      cases h
      obtain ⟨⟨st, ⟨-, hst⟩, rfl⟩, -⟩ := current_eq_ok.1 hc
      exact ((hw.sound hs).live hst).1

end Effects

end World

/-! ## Changes of the active snapshot -/

namespace StoreEffect

variable {i : LifecycleId} {command : StoreCommand} {answer : StoreAnswer δ}
  {flag flag' : Bool} {store store' : Option (SnapshotStore δ)}

section

variable (h : StoreEffect i command answer (flag, store) (flag', store'))
include h

variable {b : Snapshot δ}

/-- An active snapshot gives way only to the candidate of the pending attempt, whose
sequence is greater; the attempt is then finished. -/
theorem active_cases {a : Snapshot δ}
    (ha : activeOf store = some a) (hb : activeOf store' = some b) :
    b = a ∨ a.policy.sequence < b.policy.sequence ∧ ∃ p now s s',
      command = .commitRefresh i p now ∧ store = some s ∧ store' = some s' ∧
        p.owner = s.lifecycle ∧ s.pending = some p.generation ∧
        s'.pending = none ∧ s'.generation = s.generation := by
  cases h with
  | same | begun | finished =>
    rw [activeOf] at ha hb
    exact .inl (some.inj (hb.symm.trans ha))
  | created => cases ha
  | disposed => cases hb
  | replaced _ hc _ ho hp hs hu =>
    simp only [activeOf, bind_some, hs, map_some, some.injEq] at ha hb
    subst ha hb
    exact .inr ⟨sequence_lt_of_replace hu, _, _, _, _, hc, rfl,
      rfl, ho, hp, rfl, rfl⟩

theorem pending_cases {s' : SnapshotStore δ} {g : Nat}
    (hs' : store' = some s') (hg : s'.pending = some g) :
    (issuedTicket i command answer = none ∧ ∃ s, store = some s ∧ s.pending = some g) ∨
      issuedTicket i command answer = some ⟨s'.lifecycle, g⟩ := by
  cases h with
  | same iss => exact .inl ⟨iss, s', hs', hg⟩
  | created _ _ hp =>
    cases hs'
    rw [hp] at hg
    cases hg
  | begun _ iss =>
    cases hs'
    cases hg
    exact .inr iss
  | finished | replaced | disposed =>
    cases hs'
    cases hg

/-- Generations never go back, and a newly pending attempt is beyond the generation so far. -/
theorem generation_le {s : SnapshotStore δ} (hs : store = some s) :
    ∃ s', store' = some s' ∧ s.generation ≤ s'.generation ∧
      ∀ g, s'.pending = some g → s.pending = some g ∨ s.generation < g := by
  cases h with
  | same => exact ⟨s, hs, Nat.le_refl _, fun g hg => .inl hg⟩
  | created => cases hs
  | begun =>
    cases hs
    refine ⟨_, rfl, Nat.le_succ _, fun g hg => ?_⟩
    cases hg
    exact .inr (Nat.lt_succ_self _)
  | finished | replaced | disposed =>
    cases hs
    refine ⟨_, rfl, Nat.le_refl _, fun g hg => ?_⟩
    cases hg

theorem active_le (hb : activeOf store' = some b) :
    store = none ∨ ∃ a, activeOf store = some a ∧ a.policy.sequence ≤ b.policy.sequence := by
  cases h with
  | same | begun | finished => exact .inr ⟨b, hb, Nat.le_refl _⟩
  | created => exact .inl rfl
  | disposed => cases hb
  | replaced _ _ _ _ _ hs hu =>
    cases hb
    have hl := sequence_lt_of_replace hu
    exact .inr ⟨_, by simp [activeOf, hs], Nat.le_of_lt hl⟩

theorem active_eq (hq : (∃ e, answer = .error e) ∨ answer = .updated .unchanged) :
    activeOf store' = activeOf store := by
  cases h with
  | same | begun | finished => rfl
  | created _ ha | replaced _ _ ha | disposed _ _ ha =>
    rw [ha] at hq
    rcases hq with ⟨e, he⟩ | he <;> cases he

end

end StoreEffect

/-! ## Runs -/

abbrev StoreEvent (δ : Type) := Machine.Event (World δ) StoreCommand (StoreAnswer δ)

def latestTicket (i : LifecycleId) (events : List (StoreEvent δ)) : Option RefreshTicket :=
  (events.filterMap fun e => issuedTicket i e.command e.answer).getLast?

def StoreCommand.spentTicket : StoreCommand → Option RefreshTicket
  | .commitRefresh _ prepared _ => some prepared.ticket
  | _ => none

def ChangesActive (i : LifecycleId) (e : StoreEvent δ) : Prop :=
  ∃ a b, e.before.active i = some a ∧ e.after.active i = some b ∧ b ≠ a

section Runs

open World

variable (trust : Trust δ) (cs : List StoreCommand)

abbrev storesAfter : World δ :=
  Machine.exec (World.step trust) World.empty cs

abbrev storeTrace : List (StoreEvent δ) :=
  Machine.trace (World.step trust) World.empty cs

variable {w : World δ} {i : LifecycleId}

theorem World.wellFormed_exec (hw : w.WellFormed) (cs : List StoreCommand) :
    (Machine.exec (World.step trust) w cs).WellFormed :=
  exec_invariant (fun _ c hv => wellFormed_step trust hv c) hw

variable (cs : List StoreCommand)

theorem storesAfter_wellFormed : (storesAfter trust cs).WellFormed :=
  wellFormed_exec trust wellFormed_empty cs

theorem latestTicket_of_pending {store : SnapshotStore δ} {g : Nat}
    (hst : (storesAfter trust cs).stores i = some store)
    (hg : store.pending = some g) : latestTicket i (storeTrace trust cs) = some ⟨i, g⟩ := by
  induction cs using reverseRecOn generalizing store with
  | nil => cases hst
  | append_singleton cs c ih =>
    have hw := storesAfter_wellFormed trust cs
    have ho := ((storesAfter_wellFormed trust (cs ++ [c])).sound hst).owner
    simp only [storesAfter, exec_append, exec_cons, exec_nil] at hst
    have he := World.step_effect trust hw c i
    simp only [latestTicket, storeTrace, trace_append, filterMap_append]
    rcases he.pending_cases hst hg with ⟨hn, s, hs, hp⟩ | hi
    · have hl : filterMap (fun e : StoreEvent δ => issuedTicket i e.command e.answer)
          (trace (World.step trust) (storesAfter trust cs) [c]) = [] := by
        simp [event, hn]
      rw [hl, append_nil]
      exact ih hs hp
    · have hl : filterMap (fun e : StoreEvent δ => issuedTicket i e.command e.answer)
          (trace (World.step trust) (storesAfter trust cs) [c]) = [⟨i, g⟩] := by
        rw [ho] at hi
        simp [event, hi]
      rw [hl, getLast?_append]
      rfl

theorem sequence_le_exec {a b : Snapshot δ}
    (hw : w.WellFormed) (cs : List StoreCommand) (ha : w.active i = some a)
    (hb : (Machine.exec (World.step trust) w cs).active i = some b) :
    a.policy.sequence ≤ b.policy.sequence := by
  -- a snapshot that is active later was active before or belongs to a store created since
  let R (v v' : World δ) : Prop := (v'.stores i = none → v.stores i = none) ∧
    ∀ b, v'.active i = some b → v.stores i = none ∨
      ∃ a, v.active i = some a ∧ a.policy.sequence ≤ b.policy.sequence
  suffices hr : R w (exec (World.step trust) w cs) by
    rcases hr.2 b hb with hn | ⟨a', ha', hl⟩
    · rw [World.active, hn] at ha
      cases ha
    · obtain rfl : a' = a := some.inj (ha'.symm.trans ha)
      exact hl
  refine exec_relation (I := World.WellFormed)
    (fun v => ⟨id, fun b hb => .inr ⟨b, hb, Nat.le_refl _⟩⟩) ?_
    (fun _ c hv => wellFormed_step trust hv c) (fun v c hv => ?_) hw
  · intro v₁ v₂ v₃ ⟨hs₁, hac₁⟩ ⟨hs₂, hac₂⟩
    refine ⟨fun h => hs₁ (hs₂ h), fun b hb => ?_⟩
    rcases hac₂ b hb with hn | ⟨a, ha, hl⟩
    · exact .inl (hs₁ hn)
    · rcases hac₁ a ha with hn | ⟨a', ha', hl'⟩
      · exact .inl hn
      · exact .inr ⟨a', ha', Nat.le_trans hl' hl⟩
  · have he := World.step_effect trust hv c i
    refine ⟨fun hn => ?_, fun b hb => he.active_le hb⟩
    cases hs : v.stores i with
    | none => rfl
    | some store =>
      have hsm := he.persists.1 (by simp [hs])
      rw [hn] at hsm
      cases hsm

/-- A ticket that has changed the active snapshot is spent: every attempt pending from
then on has a later generation. -/
theorem spent_pairwise :
    (storeTrace trust cs).Pairwise fun e e' => ∀ i, ChangesActive i e → ChangesActive i e' →
      e.command.spentTicket ≠ e'.command.spentTicket := by
  refine trace_pairwise (I := World.WellFormed)
    (K := fun e v => ∀ i t, ChangesActive i e → e.command.spentTicket = some t →
      ∃ s, v.stores i = some s ∧ t.generation ≤ s.generation ∧
        ∀ g, s.pending = some g → t.generation < g)
    (fun _ c hw => wellFormed_step trust hw c) ?_ ?_ ?_ wellFormed_empty
  · intro w c hw i t ⟨a, b, ha, hb, hn⟩ ht
    rcases (World.step_effect trust hw c i).active_cases ha hb with heq | ⟨-, p, now, s, s',
      hcommand, hs, hs', -, hpending, hfinished, hgeneration⟩
    · exact absurd heq hn
    · simp only [event, hcommand, StoreCommand.spentTicket, some.injEq] at ht
      subst ht
      have hcu : p.generation = s.generation := (hw.sound hs).pending hpending
      refine ⟨s', hs', ?_, fun g hg => ?_⟩
      · rw [hgeneration, ← hcu]
        exact Nat.le_refl _
      · rw [hfinished] at hg
        cases hg
  · intro e w c hw hm i t hc ht
    obtain ⟨s, hs, hl, hla⟩ := hm i t hc ht
    obtain ⟨s', hs', hl', hnw⟩ := (World.step_effect trust hw c i).generation_le hs
    refine ⟨s', hs', Nat.le_trans hl hl', fun g hg => ?_⟩
    rcases hnw g hg with ho | hbe
    · exact hla g ho
    · exact Nat.lt_of_le_of_lt hl hbe
  · intro e w c hw hm i hc ⟨a, b, ha, hb, hn⟩ hsa
    rcases (World.step_effect trust hw c i).active_cases ha hb with heq | ⟨-, p, now, s, s',
      hcommand, hs, -, -, hpending, -, -⟩
    · exact hn heq
    · have hsp : e.command.spentTicket = some p.ticket := by
        rw [hsa]
        simp [event, hcommand, StoreCommand.spentTicket]
      obtain ⟨s₁, hs₁, -, hla⟩ := hm i p.ticket hc hsp
      obtain rfl : s = s₁ := some.inj (hs.symm.trans hs₁)
      exact Nat.lt_irrefl _ (hla _ hpending)

theorem disposed_exec (hw : w.WellFormed) (cs : List StoreCommand) (hs : (w.stores i).isSome)
    (hf : w.lifecycles i = true) :
    ((Machine.exec (World.step trust) w cs).stores i).isSome ∧
      (Machine.exec (World.step trust) w cs).lifecycles i = true := by
  let I (v : World δ) : Prop := v.WellFormed ∧ (v.stores i).isSome ∧ v.lifecycles i = true
  suffices hfi : I (exec (World.step trust) w cs) from hfi.2
  refine exec_invariant (fun v c hv => ?_) ⟨hw, hs, hf⟩
  obtain ⟨hk, hst⟩ := (World.step_effect trust hv.1 c i).persists
  exact ⟨wellFormed_step trust hv.1 c, hk hv.2.1, hst hv.2.2⟩

/-- The safety of the refresh protocol over one run. -/
structure RefreshSafe (cs : List StoreCommand) : Prop where
  /-- The active sequence never decreases. -/
  monotone : ∀ ds ds', cs = ds ++ ds' → ∀ i a b, (storesAfter trust ds).active i = some a →
    (storesAfter trust cs).active i = some b → a.policy.sequence ≤ b.policy.sequence
  /-- A change of the active snapshot raises the sequence, and it is a commit under the
  ticket that the store has issued last. -/
  change : ∀ pre e post, storeTrace trust cs = pre ++ e :: post → ∀ i a b,
    e.before.active i = some a → e.after.active i = some b → b ≠ a →
      a.policy.sequence < b.policy.sequence ∧
        ∃ prepared now, e.command = .commitRefresh i prepared now ∧
          latestTicket i pre = some prepared.ticket
  /-- A ticket changes the active snapshot at most once. -/
  once : (storeTrace trust cs).Pairwise fun e e' => ∀ i, ChangesActive i e →
    ChangesActive i e' → e.command.spentTicket ≠ e'.command.spentTicket
  /-- A call that fails, and a commit that finds nothing new, keep every active snapshot. -/
  quiet : ∀ e ∈ storeTrace trust cs,
    ((∃ error, e.answer = .error error) ∨ e.answer = .updated .unchanged) →
      ∀ i, e.after.active i = e.before.active i
  /-- The active sequence with other payload bytes is refused. -/
  forged : ∀ e ∈ storeTrace trust cs, ∀ i prepared now a,
    e.command = .commitRefresh i prepared now → e.before.active i = some a →
      prepared.policy.sequence = a.policy.sequence →
      prepared.policy.verified.payloadBytes ≠ a.policy.verified.payloadBytes →
        (∃ error, e.answer = .error error) ∧ e.after.active i = some a
  /-- After `dispose` every operation of the store fails, and no snapshot that it has
  handed out is usable at any time. -/
  disposed : ∀ pre e post, storeTrace trust cs = pre ++ e :: post → ∀ i,
    e.command = .dispose i → e.answer = .done →
      (∀ e' ∈ post, e'.command.target = some i → ∃ error, e'.answer = .error error) ∧
      ∀ e' ∈ pre, ∀ now snapshot, e'.command = .current i now → e'.answer = .snapshot snapshot →
        ∀ w ∈ e.after :: post.map (·.after), ∀ later,
          ∃ error, snapshot.ensureUsable w.lifecycles later = .error error

/-- What disposal leaves behind in the world right after it. -/
private theorem disposed_step (hw : w.WellFormed)
    (ha : (World.step trust w (.dispose i)).1 = .done) :
    ((World.step trust w (.dispose i)).2.stores i).isSome ∧
      (World.step trust w (.dispose i)).2.lifecycles i = true := by
  cases hs : w.stores i with
  | none =>
    simp only [World.step, hs] at ha
    cases ha
  | some store =>
    have ho := (hw.sound hs).owner
    simp [World.step, hs, SnapshotStore.dispose, ho]

/-- A store that is disposed of stays dead: its operations fail, and so does every
snapshot that was read from it. -/
private theorem disposed_run (hw : w.WellFormed)
    (han : (World.step trust w (.dispose i)).1 = .done) (ds ds' : List StoreCommand) :
    (∀ e ∈ Machine.trace (World.step trust) (World.step trust w (.dispose i)).2 ds',
      e.command.target = some i → ∃ error, e.answer = .error error) ∧
    ∀ e ∈ storeTrace trust ds, ∀ now s, e.command = .current i now →
      e.answer = .snapshot s →
        ∀ v ∈ (World.step trust w (.dispose i)).2 ::
            (Machine.trace (World.step trust) (World.step trust w (.dispose i)).2 ds').map
              (·.after),
          ∀ l, ∃ error, s.ensureUsable v.lifecycles l = .error error := by
  have hw' := wellFormed_step trust hw (.dispose i)
  obtain ⟨hs, hf⟩ := disposed_step trust hw han
  refine ⟨fun e he ht => ?_, fun e he now s hcu hg v hm l => ?_⟩
  · obtain ⟨ds₁, c, -, -, rfl⟩ := mem_trace he
    obtain ⟨hs₁, hf₁⟩ := disposed_exec trust hw' ds₁ hs hf
    obtain ⟨store, hst⟩ := isSome_iff_exists.1 hs₁
    have hw₁ := wellFormed_exec trust hw' ds₁
    exact step_error_of_disposed trust hw₁ hst hf₁ ht
  · have hli : s.lifecycle = i := by
      obtain ⟨ds₀, c, -, -, rfl⟩ := mem_trace he
      have hc : c = .current i now := hcu
      subst hc
      exact lifecycle_of_current trust (storesAfter_wellFormed trust ds₀) hg
    have hl : v.lifecycles i = true := by
      rcases mem_cons.1 hm with rfl | hm
      · exact hf
      · obtain ⟨e₁, he₁, rfl⟩ := List.mem_map.1 hm
        obtain ⟨ds₁, ha⟩ := after_of_mem_trace he₁
        rw [ha]
        exact (disposed_exec trust hw' ds₁ hs hf).2
    refine ⟨disposedError, ?_⟩
    simp [Snapshot.ensureUsable, ensureLive, hli, hl]

/-- Every run of the refresh protocol is safe. -/
theorem refresh_safe (cs : List StoreCommand) : RefreshSafe trust cs where
  monotone := by
    intro ds ds' hcs i a b ha hb
    subst hcs
    rw [storesAfter, exec_append] at hb
    exact sequence_le_exec trust (storesAfter_wellFormed trust ds) ds' ha hb
  change := by
    intro pre e post hsp i a b ha hb hn
    obtain ⟨ds, c, -, -, hp, he, -⟩ := trace_eq_append_cons hsp
    subst he
    have hw := storesAfter_wellFormed trust ds
    rcases (World.step_effect trust hw c i).active_cases ha hb with heq | ⟨hl, prepared, now, s,
      -, hco, hs, -, howner, hpending, -, -⟩
    · exact absurd heq hn
    · refine ⟨hl, prepared, now, hco, ?_⟩
      rw [hp, latestTicket_of_pending trust ds hs hpending, PreparedRefresh.ticket, howner,
        (hw.sound hs).owner]
  once := spent_pairwise trust cs
  quiet := by
    refine forall_mem_trace (I := World.WellFormed)
      (fun _ c hw => wellFormed_step trust hw c) ?_ wellFormed_empty
    intro w c hw hq i
    exact (World.step_effect trust hw c i).active_eq hq
  forged := by
    intro e he i prepared now a hco ha hse hby
    obtain ⟨ds, c, -, -, rfl⟩ := mem_trace he
    have hc : c = .commitRefresh i prepared now := hco
    subst hc
    have han := step_error_of_forged trust now ha hse hby
    have hw := storesAfter_wellFormed trust ds
    refine ⟨han, ?_⟩
    exact ((World.step_effect trust hw _ i).active_eq (.inl han)).trans ha
  disposed := by
    intro pre e post hsp i hco han
    obtain ⟨ds, c, ds', -, hp, he, hpo⟩ := trace_eq_append_cons hsp
    subst he
    have hc : c = .dispose i := hco
    subst hc
    rw [hp, hpo]
    exact disposed_run trust (storesAfter_wellFormed trust ds) han ds ds'

end Runs

end Dambi
