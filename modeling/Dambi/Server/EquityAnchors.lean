import Mathlib.Algebra.BigOperators.Group.List.Basic
import Mathlib.Algebra.Order.Ring.Rat

/-!
# Equity anchors

`hyperliquid.rs` keeps a high-water mark and a day baseline of the perp equity, net of the
cash flows that the ledger sync has added up. The scheduler reads the account value on
every tick and the ledger on every `N`-th; here both read a venue whose account value moves
by its ledger only. Amounts are exact.
-/

namespace Dambi.Server.Equity

open List

/-! ## The ledger -/

/-- The `delta` of a ledger entry, as far as the reader looks at it. -/
inductive LedgerDelta
  | accountClassTransfer (usdc : Rat) (toPerp : Bool)
  | vaultDeposit (usdc : Rat)
  | vaultWithdrawal (usdc : Rat)
  | other

/-- What the perp account gains; spot movements and unknown types do not touch it. -/
def LedgerDelta.usd : LedgerDelta → Rat
  | accountClassTransfer usdc toPerp => if toPerp then usdc else -usdc
  | vaultDeposit usdc => -usdc
  | vaultWithdrawal usdc => usdc
  | other => 0

structure LedgerEntry where
  time : Nat
  delta : LedgerDelta

def total (entries : List LedgerEntry) : Rat := (entries.map (·.delta.usd)).sum

def newest (cursorMs : Nat) (entries : List LedgerEntry) : Nat :=
  entries.foldl (fun latest item => max latest item.time) cursorMs

def addEntry (cursorMs : Nat) (acc : Rat × Nat) (item : LedgerEntry) : Rat × Nat :=
  if item.time ≤ cursorMs then acc else (acc.1 + item.delta.usd, max acc.2 item.time)

def parseLedgerNetFlow (ledger : List LedgerEntry) (cursorMs : Nat) : Rat × Nat :=
  ledger.foldl (addEntry cursorMs) (0, cursorMs)

/-! ## The account -/

structure EquityAnchor where
  value : Rat
  anchoredAt : Nat
  trusted : Bool

/-- The fields of `HlAccount` behind the drawdown. -/
structure Account where
  perpAccountValueUsd : Option Rat := none
  cumulativeNetFlow : Rat := 0
  ledgerCursorMs : Nat := 0
  equityBaseline : Option EquityAnchor := none
  equityHwm : Option Rat := none

def utcDay (t : Nat) : Nat := t / 86400

namespace Account

variable (a : Account)

def rollEquityAnchors (now : Nat) : Account :=
  match a.perpAccountValueUsd with
  | none => a
  | some raw =>
    let current := raw - a.cumulativeNetFlow
    let prevDay := a.equityBaseline.map fun b => utcDay b.anchoredAt
    { a with
      equityHwm := if a.equityHwm.all (· < current) then some current else a.equityHwm
      equityBaseline :=
        if prevDay = some (utcDay now) then a.equityBaseline
        else some ⟨current, now, prevDay.any (· + 1 = utcDay now)⟩ }

/-- `merge_longtail` with a fresh ledger. -/
def mergeLongtail (read : Rat × Nat) : Account :=
  { a with
    cumulativeNetFlow := a.cumulativeNetFlow + read.1
    ledgerCursorMs := read.2 }

end Account

/-! ## Ticks -/

/-- The venue's account value and ledger, and the wallet's account position. -/
structure World where
  value : Rat
  ledger : List LedgerEntry
  account : Option Account

inductive Event
  | flow (entry : LedgerEntry)
  | core (now : Nat) (ok : Bool)
  | longtail (now : Nat) (ok : Bool)

/-- `now.as_unix().saturating_mul(1000)`. -/
def nowMs (now : Nat) : Nat := min (now * 1000) (2 ^ 64 - 1)

namespace World

variable (w : World)

def held : Account := w.account.getD {}

def upsertHyperliquidMerge (f : Account → Account) : World :=
  { w with account := some (f w.held) }

def syncHyperliquidCore (now : Nat) (ok : Bool) : World :=
  w.upsertHyperliquidMerge fun a =>
    if ok then { a with perpAccountValueUsd := some w.value }.rollEquityAnchors now else a

def ledgerSinceMs (now : Nat) : Nat :=
  match w.account.map (·.ledgerCursorMs) with
  | some c => if 0 < c then c else nowMs now
  | none => nowMs now

/-- The venue answers with the entries at or after `startTime`. -/
def syncHyperliquidLongtail (now : Nat) (ok : Bool) : World :=
  w.upsertHyperliquidMerge fun a =>
    if ok then
      a.mergeLongtail (parseLedgerNetFlow (w.ledger.filter (w.ledgerSinceMs now ≤ ·.time))
        (w.ledgerSinceMs now))
    else a

def step : Event → World
  | .flow entry => { w with value := w.value + entry.delta.usd, ledger := w.ledger ++ [entry] }
  | .core now ok => w.syncHyperliquidCore now ok
  | .longtail now ok => w.syncHyperliquidLongtail now ok

def run (events : List Event) : World := events.foldl step w

def counted : Rat := w.held.cumulativeNetFlow

def anchors : Option Rat × Option Rat :=
  (w.held.equityHwm, w.held.equityBaseline.map (·.value))

end World

/-- One tick of the scheduler, with the flows before its core read and those before its
ledger read. -/
structure Tick where
  now : Nat
  arrived : List LedgerEntry := []
  coreOk : Bool := true
  meanwhile : List LedgerEntry := []
  longtailOk : Bool := true

def Tick.events (every index : Nat) (t : Tick) : List Event :=
  t.arrived.map .flow ++ .core t.now t.coreOk :: t.meanwhile.map .flow ++
    if index % max every 1 = 0 then [.longtail t.now t.longtailOk] else []

def schedule (every : Nat) : Nat → List Tick → List Event
  | _, [] => []
  | index, t :: ticks => t.events every index ++ schedule every (index + 1) ticks

/-! ## Neutrality to cash flows -/

def flows (events : List Event) : List LedgerEntry :=
  events.filterMap fun | .flow entry => some entry | _ => none

/-- From the first anchor on, every flow is counted once it has been read, and the anchors
keep their value. -/
structure Neutral (w : World) (events : List Event) : Prop where
  counted {pre now mid n rest}
    (h : events = pre ++ .core now true :: (mid ++ .longtail n true :: rest))
    (hf : ∀ t, .core t true ∉ pre) :
    (w.run (pre ++ .core now true :: (mid ++ [.longtail n true]))).counted =
      (w.run (pre ++ [.core now true])).counted + total (flows mid)
  anchors {pre now post} (h : events = pre ++ .core now true :: post)
    (hf : ∀ t, .core t true ∉ pre) :
    (w.run events).anchors = (w.run (pre ++ [.core now true])).anchors

/-- Events after the first anchor: no core read finds an unread flow, and a ledger read
tells the flows it has not read by their time. -/
def Settled (old : List LedgerEntry) : Option Nat → List LedgerEntry → List Event → Prop
  | _, _, [] => True
  | seen, unread, .flow entry :: events => Settled old seen (unread ++ [entry]) events
  | seen, unread, .core _ ok :: events =>
    (ok = true → unread = []) ∧ Settled old seen unread events
  | seen, unread, .longtail _ false :: events => Settled old seen unread events
  | none, unread, .longtail now true :: events =>
    0 < now ∧ (∀ e ∈ old, e.time ≤ nowMs now) ∧ (∀ e ∈ unread, nowMs now < e.time) ∧
      Settled old (some (newest (nowMs now) unread)) [] events
  | some seen, unread, .longtail _ true :: events =>
    (∀ e ∈ unread, seen < e.time) ∧ Settled old (some (newest seen unread)) [] events

/-- No ledger read succeeds before the first core read does. -/
def FlowsRead (old : List LedgerEntry) : List Event → Prop
  | [] => True
  | .flow entry :: events => FlowsRead (old ++ [entry]) events
  | .core _ true :: events => Settled old none [] events
  | .core _ false :: events => FlowsRead old events
  | .longtail _ true :: _ => False
  | .longtail _ false :: events => FlowsRead old events

/-! ### Reading the ledger -/

theorem le_newest (c : Nat) (entries : List LedgerEntry) :
    c ≤ newest c entries ∧ ∀ e ∈ entries, e.time ≤ newest c entries := by
  induction entries generalizing c with
  | nil => simp [newest]
  | cons e entries ih =>
    obtain ⟨hc, hl⟩ := ih (max c e.time)
    refine ⟨le_trans (le_max_left _ _) hc, ?_⟩
    rintro d (_ | ⟨_, hd⟩)
    · exact le_trans (le_max_right _ _) hc
    · exact hl d hd

variable {c : Nat} {old new : List LedgerEntry}

theorem foldl_addEntry_old (h : ∀ e ∈ old, e.time ≤ c) (acc : Rat × Nat) :
    old.foldl (addEntry c) acc = acc := by
  induction old with
  | nil => rfl
  | cons e old ih =>
    rw [foldl_cons, addEntry, if_pos (h e (by simp)), ih fun d hd => h d (by simp [hd])]

theorem foldl_addEntry_new (h : ∀ e ∈ new, c < e.time) (acc : Rat × Nat) :
    new.foldl (addEntry c) acc = (acc.1 + total new, newest acc.2 new) := by
  induction new generalizing acc with
  | nil => simp [total, newest]
  | cons e new ih =>
    rw [foldl_cons, addEntry, if_neg (Nat.not_le.2 (h e (by simp))),
      ih fun d hd => h d (by simp [hd])]
    simp [total, newest, add_assoc]

/-- A read skips the entries up to its cursor and adds up the others. -/
theorem parseLedgerNetFlow_append (ho : ∀ e ∈ old, e.time ≤ c) (hn : ∀ e ∈ new, c < e.time) :
    parseLedgerNetFlow ((old ++ new).filter (c ≤ ·.time)) c = (total new, newest c new) := by
  have hall : new.filter (c ≤ ·.time) = new :=
    filter_eq_self.2 fun e he => by simpa using (hn e he).le
  rw [parseLedgerNetFlow, filter_append, hall, foldl_append,
    foldl_addEntry_old fun e he => ho e (mem_of_mem_filter he), foldl_addEntry_new hn]
  simp

/-! ### The run -/

variable {w : World} {v : Rat} {unread : List LedgerEntry} {seen : Option Nat}
  {events : List Event}

theorem ledgerSinceMs_eq (now : Nat) :
    w.ledgerSinceMs now =
      if 0 < w.held.ledgerCursorMs then w.held.ledgerCursorMs else nowMs now := by
  unfold World.ledgerSinceMs World.held
  cases w.account <;> rfl

theorem run_append (es ds : List Event) : w.run (es ++ ds) = (w.run es).run ds :=
  foldl_append

theorem run_value (es : List Event) : (w.run es).value = w.value + total (flows es) := by
  induction es generalizing w with
  | nil => simp [World.run, flows, total]
  | cons e es ih =>
    have h := ih (w := w.step e)
    cases e with
    | flow entry => simpa [World.run, World.step, flows, total, add_assoc] using h
    | core now ok => exact h
    | longtail now ok => exact h

/-- The ledger is what has been read and what has not, and the value is the anchored one
moved by the counted and the unread flows. -/
structure Anchored (v : Rat) (old : List LedgerEntry) (seen : Option Nat)
    (unread : List LedgerEntry) (w : World) : Prop where
  anchors : w.anchors = (some v, some v)
  value : w.value = v + w.counted + total unread
  ledger : ∃ read, w.ledger = read ++ unread ∧ match seen with
    | none => read = old ∧ w.held.ledgerCursorMs = 0
    | some c => 0 < c ∧ w.held.ledgerCursorMs = c ∧ ∀ e ∈ read, e.time ≤ c

theorem Anchored.of_held {w' : World} (h : Anchored v old seen unread w) (hv : w'.value = w.value)
    (hl : w'.ledger = w.ledger) (hh : w'.held = w.held) :
    Anchored v old seen unread w' where
  anchors := by rw [World.anchors, hh]; exact h.anchors
  value := by rw [World.counted, hh, hv]; exact h.value
  ledger := by rw [hl, hh]; exact h.ledger

variable {now : Nat}

theorem anchors_core (hv : w.value = v + w.counted) (hm : w.held.equityHwm.getD v = v)
    (hb : (w.held.equityBaseline.map (·.value)).getD v = v) :
    (w.syncHyperliquidCore now true).anchors = (some v, some v) := by
  have hc : w.value - w.held.cumulativeNetFlow = v := by
    rw [hv, World.counted, add_sub_cancel_right]
  have hh : (w.syncHyperliquidCore now true).held =
      { w.held with perpAccountValueUsd := some w.value }.rollEquityAnchors now := rfl
  rw [World.anchors, hh]
  simp only [Account.rollEquityAnchors, hc]
  refine Prod.ext ?_ ?_
  · cases hq : w.held.equityHwm with
    | none => rfl
    | some q =>
      obtain rfl : q = v := by simpa [hq] using hm
      simp
  · cases hq : w.held.equityBaseline with
    | none => simp
    | some b =>
      have hbv : b.value = v := by simpa [hq] using hb
      simp only [Option.map_some]
      split <;> simp [hbv]

section

variable (h : Anchored v old seen unread w)
include h

theorem Anchored.longtail {now : Nat} {read : List LedgerEntry} (hl : w.ledger = read ++ unread)
    (hp : 0 < w.ledgerSinceMs now) (ho : ∀ e ∈ read, e.time ≤ w.ledgerSinceMs now)
    (hn : ∀ e ∈ unread, w.ledgerSinceMs now < e.time) :
    Anchored v old (some (newest (w.ledgerSinceMs now) unread)) []
      (w.syncHyperliquidLongtail now true) := by
  have hr := parseLedgerNetFlow_append ho hn
  obtain ⟨hc, hu⟩ := le_newest (w.ledgerSinceMs now) unread
  rw [← hl] at hr
  refine ⟨h.anchors, ?_, w.ledger, by simp [World.syncHyperliquidLongtail,
    World.upsertHyperliquidMerge], Nat.lt_of_lt_of_le hp hc, ?_, ?_⟩
  · have hv := h.value
    simp only [World.counted, World.held, World.syncHyperliquidLongtail,
      World.upsertHyperliquidMerge, Account.mergeLongtail, Option.getD_some, if_true, hr] at hv ⊢
    rw [hv]
    simp [total, add_assoc]
  · simp [World.held, World.syncHyperliquidLongtail, World.upsertHyperliquidMerge,
      Account.mergeLongtail, hr]
  · rw [hl]
    intro e he
    rcases mem_append.1 he with he | he
    · exact le_trans (ho e he) hc
    · exact hu e he

theorem Anchored.read {now : Nat} (hs : Settled old seen unread (.longtail now true :: events)) :
    ∃ seen', Anchored v old seen' [] (w.step (.longtail now true)) ∧
      Settled old seen' [] events := by
  obtain ⟨read, hl, hc⟩ := h.ledger
  cases seen with
  | none =>
    obtain ⟨rfl, hc⟩ := hc
    obtain ⟨hp, ho, hn, hs⟩ := hs
    have hw : w.ledgerSinceMs now = nowMs now := by simp [ledgerSinceMs_eq, hc]
    have hpos : 0 < nowMs now := by
      unfold nowMs
      omega
    rw [← hw] at ho hn hs hpos
    exact ⟨_, h.longtail hl hpos ho hn, hs⟩
  | some c =>
    obtain ⟨hp, hc, ho⟩ := hc
    have hw : w.ledgerSinceMs now = c := by simp [ledgerSinceMs_eq, hc, hp]
    rw [Settled, ← hw] at hs
    exact ⟨_, h.longtail hl (hw ▸ hp) (hw ▸ ho) hs.1, hs.2⟩

theorem Anchored.step {e : Event} (hs : Settled old seen unread (e :: events)) :
    ∃ seen' unread', Anchored v old seen' unread' (w.step e) ∧
      Settled old seen' unread' events := by
  obtain ⟨read, hl, hc⟩ := h.ledger
  cases e with
  | flow entry =>
    refine ⟨seen, unread ++ [entry], ⟨h.anchors, ?_, read, ?_, hc⟩, by simpa [Settled] using hs⟩
    · have hv := h.value
      simp [World.step, World.counted, World.held, total, add_assoc] at hv ⊢
      simp [hv, add_assoc]
    · simp [World.step, hl]
  | core now ok =>
    simp only [Settled] at hs
    cases ok with
    | false => exact ⟨seen, unread, h.of_held rfl rfl rfl, hs.2⟩
    | true =>
      obtain rfl := hs.1 rfl
      obtain ⟨hm, hb⟩ := Prod.mk.inj h.anchors
      have hv : w.value = v + w.counted := by simpa [total] using h.value
      exact ⟨seen, [], ⟨anchors_core hv (by simp [hm]) (by simp [hb]), h.value, h.ledger⟩, hs.2⟩
  | longtail now ok =>
    cases ok with
    | false => exact ⟨seen, unread, h.of_held rfl rfl rfl, by simpa [Settled] using hs⟩
    | true =>
      obtain ⟨seen', h', hs'⟩ := h.read hs
      exact ⟨seen', [], h', hs'⟩

theorem Anchored.run {es : List Event} (hs : Settled old seen unread (es ++ events)) :
    ∃ seen' unread', Anchored v old seen' unread' (w.run es) ∧
      Settled old seen' unread' events := by
  induction es generalizing w seen unread with
  | nil => exact ⟨seen, unread, h, hs⟩
  | cons e es ih =>
    obtain ⟨seen', unread', h', hs'⟩ := h.step hs
    exact ih h' hs'

end

theorem anchored_first {pre post : List Event}
    (hh : w.held = {}) (hs : FlowsRead w.ledger (pre ++ .core now true :: post))
    (hf : ∀ t, .core t true ∉ pre) :
    ∃ old, Anchored (w.run pre).value old none [] (w.run (pre ++ [.core now true])) ∧
      Settled old none [] post := by
  induction pre generalizing w with
  | nil =>
    have hc : w.counted = 0 := by rw [World.counted, hh]
    have hv : w.value = w.value + w.counted := by simp [hc]
    refine ⟨w.ledger, ⟨anchors_core hv (by simp [hh]) (by simp [hh]), ?_, w.ledger, ?_, rfl, ?_⟩,
      hs⟩
    · exact hv.trans (by simp [total]; rfl)
    · exact (append_nil _).symm
    · exact congrArg Account.ledgerCursorMs hh
  | cons e pre ih =>
    have hf' : ∀ t, .core t true ∉ pre := fun t ht => hf t (by simp [ht])
    cases e with
    | flow entry => exact ih (w := w.step (.flow entry)) hh hs hf'
    | core t ok =>
      cases ok with
      | true => exact absurd (by simp) (hf t)
      | false => exact ih (w := w.step (.core t false)) hh hs hf'
    | longtail t ok =>
      cases ok with
      | true => exact hs.elim
      | false => exact ih (w := w.step (.longtail t false)) hh hs hf'

/-- What an unwatched wallet starts from. -/
def start (value : Rat) (ledger : List LedgerEntry) : World := ⟨value, ledger, none⟩

theorem neutral_of_flowsRead (every : Nat) (value : Rat) (ledger : List LedgerEntry)
    (ticks : List Tick) (h : FlowsRead ledger (schedule every 0 ticks)) :
    Neutral (start value ledger) (schedule every 0 ticks) where
  counted {pre now mid n rest} he hf := by
    rw [he] at h
    obtain ⟨old, ha, hs⟩ := anchored_first (w := start value ledger) rfl h hf
    obtain ⟨_, _, hr, hs⟩ := ha.run hs
    obtain ⟨_, hl, -⟩ := hr.read hs
    have hv := hl.value
    have ho := ha.value
    rw [append_cons, run_append, run_append]
    generalize (start value ledger).run (pre ++ [.core now true]) = first at hv ho ⊢
    have hm := run_value (w := first) mid
    change (first.run mid).value = _ at hv
    change ((first.run mid).step (.longtail n true)).counted = _
    simp only [total, map_nil, sum_nil] at hm hv ho ⊢
    grind
  anchors {pre now post} he hf := by
    rw [he] at h
    obtain ⟨old, ha, hs⟩ := anchored_first (w := start value ledger) rfl h hf
    rw [← append_nil post] at hs
    obtain ⟨_, _, hr, -⟩ := ha.run hs
    rw [he, append_cons, run_append, hr.anchors, ha.anchors]

theorem neutral_of_flowsRead_late :
    Neutral (start 100 [⟨5, .vaultDeposit 7⟩]) (schedule 2 0 [{ now := 1000 }, { now := 1015 },
      { now := 1030, meanwhile := [⟨1030500, .accountClassTransfer 50 true⟩] },
      { now := 1045 }]) :=
  neutral_of_flowsRead 2 100 _ _
    (by simp [schedule, Tick.events, FlowsRead, Settled, nowMs, newest])

/-- A transfer of 50 into the perp account before the second core read raises the mark. -/
theorem deposit_raises_mark :
    ¬ Neutral (start 100 []) (schedule 10 0 [{ now := 1000 },
      { now := 1015, arrived := [⟨1010000, .accountClassTransfer 50 true⟩] }]) := by
  intro h
  have ha := @Neutral.anchors _ _ h [] 1000 _ rfl (by simp)
  revert ha
  decide +kernel

end Dambi.Server.Equity
