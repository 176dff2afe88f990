import Dambi.Asset.State
import Dambi.Lib.Machine
import Dambi.Lib.RoundRobin

/-!
# The sync scheduler

`scheduler.rs` syncs a limited number of wallets on every tick. The store lists the wallets in
the order of their addresses, starting after the last wallet that was saved, and the scheduler
takes the first ones that are due.
-/

namespace Dambi.Server

open Asset (WalletId)
open RoundRobin List

deriving instance DecidableEq for WalletId

/-- The key is the address as a text; the texts have one length, so it orders the addresses. -/
def walletSyncOrderKey (wid : WalletId) : Nat := wid.address.val

def rotateWalletsAfterCursor (wallets : List WalletId) (cursorAfter : Option Nat) : List WalletId :=
  RoundRobin.after walletSyncOrderKey wallets cursorAfter

structure SchedulerConfig where
  maxWalletsPerTick : Nat
  walletMinSyncInterval : Nat

structure Scheduler where
  walletCursor : Option Nat
  walletNextDue : WalletId → Option Nat

/-- What a tick meets: the clock, the wallets of the store, and which of them it can load and
save. -/
structure Tick where
  now : Nat
  wallets : List WalletId
  loads : WalletId → Bool
  saves : WalletId → Bool

namespace Scheduler

def new : Scheduler := ⟨none, fun _ => none⟩

def due (s : Scheduler) (now : Nat) (wid : WalletId) : Bool := (s.walletNextDue wid).all (· ≤ now)

def selectWalletsForTick (s : Scheduler) (wallets : List WalletId) (limit now : Nat) :
    List WalletId :=
  (wallets.filter (s.due now)).take limit

variable (config : SchedulerConfig) (s : Scheduler)

def markWalletSynced (wid : WalletId) (now : Nat) : Scheduler where
  walletCursor := some (walletSyncOrderKey wid)
  walletNextDue := Function.update s.walletNextDue wid
    (some (min (now + config.walletMinSyncInterval) (2 ^ 64 - 1)))

/-- The body of the loop; a failed sync is only reported. -/
def syncWallet (tick : Tick) (s : Scheduler) (wid : WalletId) : Scheduler :=
  if tick.loads wid && tick.saves wid then s.markWalletSynced config wid tick.now else s

def tickOnce (tick : Tick) : List WalletId × Scheduler :=
  let selected := s.selectWalletsForTick (rotateWalletsAfterCursor tick.wallets s.walletCursor)
    config.maxWalletsPerTick tick.now
  (selected, selected.foldl (syncWallet config tick) s)

/-- The ticks of a run, each with the state before and after it. -/
abbrev run (ticks : List Tick) :
    List (Machine.Event Scheduler Tick (List WalletId)) :=
  Machine.trace (tickOnce config) s ticks

end Scheduler

/-! ## Fairness -/

/-- The last wallet that the tick attempts, if there is one, is loaded and saved. -/
def LastSaved (e : Machine.Event Scheduler Tick (List WalletId)) : Prop :=
  ∀ w ∈ e.answer.getLast?, e.command.loads w ∧ e.command.saves w

namespace Scheduler

variable {config : SchedulerConfig} {s : Scheduler} {tick : Tick} {l U V : List WalletId}
  {w : WalletId}

theorem tickOnce_cursor {P : List Asset.WalletId} {x : Asset.WalletId}
    (h : (tickOnce config s tick).1 = P ++ [x])
    (hx : tick.loads x ∧ tick.saves x) :
    (tickOnce config s tick).2.walletCursor = some (walletSyncOrderKey x) := by
  have hs : (tickOnce config s tick).2 =
      (tickOnce config s tick).1.foldl (syncWallet config tick) s := rfl
  rw [hs, h, foldl_append]
  simp [syncWallet, hx, markWalletSynced]

theorem tickOnce_nodup (h : tick.wallets.Nodup) : (tickOnce config s tick).1.Nodup :=
  (((after_perm _ _ _).nodup_iff.2 h).filter _).sublist (take_sublist _ _)

theorem mem_tickOnce (hl : tick.wallets.length ≤ config.maxWalletsPerTick) (hm : w ∈ tick.wallets)
    (hw : s.due tick.now w) : w ∈ (tickOnce config s tick).1 := by
  have hp := after_perm walletSyncOrderKey tick.wallets s.walletCursor
  have hf := (length_filter_le (s.due tick.now) _).trans (hp.length_eq.trans_le hl)
  have hs : (tickOnce config s tick).1 = _ := take_of_length_le hf
  rw [hs]
  exact mem_filter.2 ⟨hp.mem_iff.2 hm, hw⟩

/-- Every tick that passes a due wallet over takes its fill from the wallets before it. -/
theorem attempted_of_position {ticks : List Tick} (hd : (l.map walletSyncOrderKey).Nodup)
    (hl : ∀ t ∈ ticks, t.wallets.Perm l) (ho : ∀ e ∈ s.run config ticks, LastSaved e)
    (hr : after walletSyncOrderKey l s.walletCursor = U ++ w :: V)
    (hn : U.length < config.maxWalletsPerTick * ticks.length)
    (hw : ∀ e ∈ s.run config ticks, e.before.due e.command.now w) :
    ∃ e ∈ s.run config ticks, w ∈ e.answer := by
  induction ticks generalizing s U V with
  | nil => simp at hn
  | cons t ticks ih =>
    rw [forall_mem_cons] at hl
    rw [Scheduler.run, Machine.trace_cons, forall_mem_cons] at ho hw
    by_cases hs : w ∈ (tickOnce config s t).1
    · exact ⟨_, mem_cons_self, hs⟩
    obtain ⟨k, hk⟩ : ∃ k, config.maxWalletsPerTick = k + 1 :=
      Nat.exists_eq_add_one.2 (Nat.pos_of_mul_pos_right (Nat.zero_lt_of_lt hn))
    have hc := (after_congr hd hl.1.symm).symm.trans hr
    have ht : (tickOnce config s t).1 = ((U ++ w :: V).filter (s.due t.now)).take (k + 1) := by
      rw [← hc, ← hk]
      rfl
    rw [ht] at hs
    obtain ⟨P, x, Q, rfl, hP, hPk⟩ := exists_last_of_notMem_take hw.1 hs
    have hlast := ht.trans hP
    have hx : (tickOnce config s t).1.getLast? = some x := by simp [hlast]
    have hcur := tickOnce_cursor hlast (ho.1 x hx)
    have hnext := after_key hd (P := P) (Q := Q ++ w :: V) (by simpa using hr)
    rw [← hcur, append_assoc] at hnext
    rw [length_append, length_cons, length_cons, Nat.mul_succ] at hn
    obtain ⟨e, he, hwe⟩ := ih hl.2 ho.2 hnext (by omega) hw.2
    exact ⟨e, mem_cons_of_mem _ he, hwe⟩

end Scheduler

/-- No wallet is attempted early or twice in a tick; a due wallet is attempted in as many ticks
as it takes to attempt all, if a tick has room for all or the last attempt of every tick ends in a
save. -/
theorem scheduler_fair (config : SchedulerConfig) (hk : 1 ≤ config.maxWalletsPerTick)
    (wallets : List WalletId) (hw : wallets.Nodup) (s : Scheduler) (ticks : List Tick)
    (hl : ∀ t ∈ ticks, t.wallets.Perm wallets) :
    (∀ e ∈ s.run config ticks, e.answer.Nodup ∧ ∀ w ∈ e.answer, e.before.due e.command.now w) ∧
    ((wallets.length ≤ config.maxWalletsPerTick ∨ (wallets.map walletSyncOrderKey).Nodup ∧
        ∀ e ∈ s.run config ticks, LastSaved e) →
      (wallets.length + config.maxWalletsPerTick - 1) / config.maxWalletsPerTick ≤ ticks.length →
      ∀ w ∈ wallets, (∀ e ∈ s.run config ticks, e.before.due e.command.now w) →
      ∃ e ∈ s.run config ticks, w ∈ e.answer) := by
  constructor
  · intro e he
    obtain ⟨_, t, _, rfl, rfl⟩ := Machine.mem_trace he
    exact ⟨Scheduler.tickOnce_nodup ((hl t (by simp)).nodup_iff.2 hw),
      fun w h => of_mem_filter (mem_of_mem_take h)⟩
  · intro hc hn w hm hdue
    rw [Nat.div_le_iff_le_mul_add_pred hk] at hn
    rcases hc with hc | ⟨hd, ho⟩
    · cases ticks with
      | nil =>
        have := length_pos_of_mem hm
        rw [length_nil, Nat.mul_zero] at hn
        omega
      | cons t ticks =>
        have ht := hl t mem_cons_self
        exact ⟨_, mem_cons_self, Scheduler.mem_tickOnce (ht.length_eq.trans_le hc)
          (ht.mem_iff.2 hm) (hdue _ mem_cons_self)⟩
    · have hr := (after_perm walletSyncOrderKey wallets s.walletCursor).mem_iff.2 hm
      obtain ⟨U, V, hr⟩ := append_of_mem hr
      refine Scheduler.attempted_of_position hd hl ho hr ?_ hdue
      have := congrArg length hr
      rw [(after_perm _ _ _).length_eq, length_append, length_cons] at this
      omega

/-! ## A wallet that fails to load -/

def sampleWallet (address : Asset.Address) : WalletId := ⟨address, ∅⟩

def sampleTick (addresses : List Asset.Address) (loads : WalletId → Bool) : Tick :=
  ⟨0, addresses.map sampleWallet, loads, fun _ => true⟩

/-- The first wallet fails once, before a wallet that is saved. -/
theorem scheduler_fair_three :
    let ticks := [sampleTick [1, 2, 3] (· ≠ sampleWallet 1), sampleTick [3, 2, 1] fun _ => true]
    ∃ e ∈ Scheduler.new.run ⟨2, 60⟩ ticks, sampleWallet 3 ∈ e.answer := by
  intro ticks
  refine (scheduler_fair ⟨2, 60⟩ (by decide) ([1, 2, 3].map sampleWallet) (by decide) .new ticks
    (by decide)).2 (.inr ⟨by decide, ?_⟩) (by decide) _ (by decide) (by decide)
  unfold LastSaved
  decide

/-- The first wallet cannot be loaded, and the second one is due and never attempted. -/
theorem second_wallet_starves :
    (Scheduler.new.run ⟨1, 60⟩ (replicate 2 (sampleTick [1, 2] (· ≠ sampleWallet 1)))).map
      (fun e => (e.answer, e.before.due e.command.now (sampleWallet 2))) =
      replicate 2 ([sampleWallet 1], true) := by
  decide

end Dambi.Server
