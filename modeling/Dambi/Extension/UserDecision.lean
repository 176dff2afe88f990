import Mathlib.Data.List.Nodup
import Dambi.Lib.Separator
import Dambi.Extension.VerdictChannel

/-!
# How long a gate waits for the user

`awaiting-user` is meant to give the user five minutes instead of ten seconds. The
service worker posts it under the id that the bridge generated for its own port, and the
content script relays it only under the id of the page: the two are never equal, so the
session in the bridge waits for the user and the gate in the page does not.

The schedules have no attacker and instant delivery (`System.instant`). Requests do not
interfere: `Hop` is the machine of one request, and `At.instant` says that the system
runs it for each of them.
-/

namespace Dambi.Extension

open List Gate

/-! ## Request ids -/

/-- `RequestType` and the two advisory types. -/
def requestTypes : List String :=
  ["transaction", "typed-signature", "untyped-signature", "venue-order", "execution-report",
    "raw-transaction-advisory", "provider-frozen-warning"]

theorem colon_notMem_type {t : String} (h : t ∈ requestTypes) : ':' ∉ t.toList := by
  simp only [requestTypes, mem_cons, not_mem_nil, or_false] at h
  rcases h with rfl | rfl | rfl | rfl | rfl | rfl | rfl <;> decide

section Ids

variable {ch : Channel}

/-- `objectHash` is a hexadecimal text. -/
def Channel.HexHash (ch : Channel) : Prop := ∀ data, ':' ∉ (ch.objectHash data).toList

theorem nonce_of_generateRequestId {nonce : String} {d : MessageData} {nonce' : String}
    {d' : MessageData} (hh : ch.HexHash) (ht : d.type ∈ requestTypes)
    (ht' : d'.type ∈ requestTypes)
    (h : ch.generateRequestId nonce d = ch.generateRequestId nonce' d') : nonce = nonce' := by
  have hl : d.type.toList ++ ':' :: (nonce.toList ++ ':' :: (ch.objectHash d).toList) =
      d'.type.toList ++ ':' :: (nonce'.toList ++ ':' :: (ch.objectHash d').toList) := by
    have := congrArg String.toList h
    simpa [Channel.generateRequestId] using this
  obtain ⟨-, hr⟩ := Separator.append_cons_inj (colon_notMem_type ht) (colon_notMem_type ht') hl
  obtain ⟨hn, -⟩ := Separator.append_cons_inj_last (hh d) (hh d') hr
  exact String.toList_injective hn

end Ids

/-! ## Schedules -/

inductive Event where
  /-- A gate is opened; its request reaches the service worker at once. -/
  | request (nonce portNonce : String) (data : MessageData)
  | awaiting (i : Nat)
  | answer (i : Nat)
  | tick

def Event.requestId (ch : Channel) : Event → Option RequestId
  | .request nonce _ data => some (ch.generateRequestId nonce data)
  | _ => none

def Event.labels : Event → List Label
  | .request nonce portNonce data => [.gate nonce data, .deliver portNonce true]
  | .awaiting i => [.awaiting i]
  | .answer i => [.answer i]
  | .tick => [.tick]

namespace System

variable (ch : Channel) (s : System)

/-- The page reads everything that is on the authenticated port. -/
def drain : System := s.run ch (List.replicate s.port.length .receive)

def instant (e : Event) : System := (s.run ch e.labels).drain ch

def play (events : List Event) (s : System) : System := events.foldl (instant ch) s

variable {ch}

private theorem run_receive :
    s.run ch (List.replicate s.port.length .receive) =
      { s with
        port := []
        gates := s.gates.map fun gate =>
          s.port.foldl (fun gate msg => gate.receive s.now msg) gate } := by
  obtain ⟨now, gates, bus, ss, port, a⟩ := s
  induction port generalizing gates with
  | nil => simp
  | cons msg port ih =>
    simp only [length_cons, replicate_succ, run_cons, step, receive]
    rw [ih]
    simp

theorem drain_eq :
    s.drain ch = { s with
      port := []
      gates := s.gates.map fun gate =>
        s.port.foldl (fun gate msg => gate.receive s.now msg) gate } :=
  run_receive s

end System

/-! ## One request -/

/-- The gate and the session of one request. -/
structure Hop where
  now : Nat
  gate : Gate
  session : Session

variable (now : Nat)

/-- The gate reads what the bridge sends. -/
def Gate.receiveAll (msgs : List PortMessage) (gate : Gate) : Gate :=
  msgs.foldl (fun gate msg => gate.receive now msg) gate

def Hop.step (ch : Channel) (k : Nat) (hop : Hop) : Event → Hop
  | .request .. => hop
  | .awaiting i =>
    if i = k then { hop with session := (hop.session.awaitingUser hop.now).1 } else hop
  | .answer i =>
    if i = k then
      { hop with
        session := (hop.session.finish (ch.answer hop.session.data)).1
        gate := hop.gate.receiveAll hop.now (hop.session.finish (ch.answer hop.session.data)).2 }
    else hop
  | .tick =>
    { now := hop.now + 1
      session := (hop.session.expire (hop.now + 1)).1
      gate := (hop.gate.expire (hop.now + 1)).receiveAll (hop.now + 1)
        (hop.session.expire (hop.now + 1)).2 }

/-- The milliseconds that pass during some events. -/
def elapsed : List Event → Nat
  | [] => 0
  | .tick :: events => elapsed events + 1
  | _ :: events => elapsed events

/-- What one session makes of an event, and what of it reaches the page. -/
def Event.handle (ch : Channel) (now k : Nat) (session : Session) :
    Event → Session × List PortMessage
  | .request .. => (session, [])
  | .awaiting i => if i = k then ((session.awaitingUser now).1, []) else (session, [])
  | .answer i => if i = k then session.finish (ch.answer session.data) else (session, [])
  | .tick => session.expire (now + 1)

def Event.onGate (gate : Gate) : Event → Gate
  | .tick => gate.expire (now + 1)
  | _ => gate

theorem Hop.step_eq (ch : Channel) (k : Nat) (hop : Hop) (e : Event) :
    hop.step ch k e =
      { now := hop.now + elapsed [e]
        session := (e.handle ch hop.now k hop.session).1
        gate := (e.onGate hop.now hop.gate).receiveAll (hop.now + elapsed [e])
          (e.handle ch hop.now k hop.session).2 } := by
  cases e with
  | request | tick => rfl
  | awaiting i | answer i =>
    simp only [Hop.step, Event.handle]
    split <;> rfl

/-! ## The system runs every request on its own -/

open Event Hop Extension.System

section Simulation

theorem Gate.requestId_receive (msg : PortMessage) (gate : Gate) :
    (gate.receive now msg).requestId = gate.requestId := by
  unfold Gate.receive
  split
  · cases msg <;> rfl
  · rfl

theorem Event.requestId_onGate (gate : Gate) (e : Event) :
    (e.onGate now gate).requestId = gate.requestId := by
  cases e with
  | tick =>
    simp only [onGate, Gate.expire]
    split <;> rfl
  | _ => rfl

theorem Gate.requestId_receiveAll (ms : List PortMessage) (gate : Gate) :
    (gate.receiveAll now ms).requestId = gate.requestId := by
  induction ms generalizing gate with
  | nil => rfl
  | cons msg ms ih => exact (ih _).trans (gate.requestId_receive now msg)

variable {now : Nat} {session : Session}

variable {gate : Gate} {msg : PortMessage} {k : Nat}

theorem Gate.receiveAll_of_ne {ms : List PortMessage}
    (h : ∀ msg ∈ ms, msg.requestId ≠ gate.requestId) :
    gate.receiveAll now ms = gate := by
  induction ms with
  | nil => rfl
  | cons msg ms ih =>
    have hn : gate.requestId ≠ msg.requestId := (h msg mem_cons_self).symm
    have hr : gate.receive now msg = gate := by simp [Gate.receive, hn]
    have hrs := ih fun msg' hm' => h msg' (mem_cons_of_mem msg hm')
    simpa [receiveAll, hr] using hrs

theorem Session.requestId_finish {value : Bool} (h : msg ∈ (session.finish value).2) :
    msg.requestId = session.origin := by
  unfold Session.finish at h
  split at h
  · cases h
  · cases mem_singleton.1 h
    rfl

theorem Event.requestId_handle {ch : Channel}
    {e : Event} (h : msg ∈ (e.handle ch now k session).2) :
    msg.requestId = session.origin := by
  cases e with
  | request => cases h
  | awaiting i =>
    simp only [handle] at h
    split at h <;> cases h
  | answer i =>
    simp only [handle] at h
    split at h
    · exact Session.requestId_finish h
    · cases h
  | tick =>
    simp only [handle, Session.expire] at h
    split at h
    · exact Session.requestId_finish h
    · cases h

theorem Gate.receiveAll_flatten {se : Nat → Session → List PortMessage} (now : Nat)
    (hs : ∀ k session, ∀ msg ∈ se k session, msg.requestId = session.origin) {ss : List Session}
    (hd : (ss.map (·.origin)).Nodup) (hse : ss[k]? = some session)
    (hid : gate.requestId = session.origin) :
    gate.receiveAll now (ss.mapIdx se).flatten = gate.receiveAll now (se k session) := by
  induction ss generalizing k se with
  | nil => cases hse
  | cons first r ih =>
    obtain ⟨hf, hr⟩ := nodup_cons.1 hd
    rw [mapIdx_cons, flatten_cons, receiveAll, foldl_append, ← receiveAll, ← receiveAll]
    cases k with
    | zero =>
      cases hse
      refine receiveAll_of_ne fun msg hm => ?_
      obtain ⟨ms, hms, hm⟩ := mem_flatten.1 hm
      obtain ⟨i, hi, rfl⟩ := mem_mapIdx.1 hms
      rw [requestId_receiveAll, hid, hs _ _ msg hm]
      exact fun heq => hf (mem_map.2 ⟨_, getElem_mem hi, heq⟩)
    | succ k =>
      have hu : gate.receiveAll now (se 0 first) = gate := by
        refine receiveAll_of_ne fun msg hm => ?_
        rw [hid, hs 0 first msg hm]
        exact fun heq => hf (mem_map.2 ⟨session, mem_of_getElem? hse, heq.symm⟩)
      rw [hu]
      exact ih (fun k => hs (k + 1)) hr hse

def Session.ids (session : Session) : RequestId × RequestId := (session.origin, session.portId)

theorem Session.ids_finish (session : Session) (value : Bool) :
    (session.finish value).1.ids = session.ids := by
  unfold Session.finish
  split <;> rfl

theorem Event.ids_handle (ch : Channel) (now k : Nat) (session : Session) (e : Event) :
    (e.handle ch now k session).1.ids = session.ids := by
  cases e with
  | request => rfl
  | awaiting i =>
    simp only [handle, Session.awaitingUser]
    repeat' split <;> try rfl
  | answer i =>
    simp only [handle]
    split
    · exact session.ids_finish _
    · rfl
  | tick =>
    simp only [handle, Session.expire]
    split
    · exact session.ids_finish false
    · rfl

/-- Gates and sessions correspond, and nothing is under way. -/
structure System.Aligned (s : System) : Prop where
  bus : s.bus = []
  port : s.port = []
  ids : s.gates.map (·.requestId) = s.sessions.map (·.origin)
  distinct : (s.sessions.map (·.origin)).Nodup
  portIds : ∀ session ∈ s.sessions, session.portId ≠ session.origin

/-- The request with index `k` is in the state `hop`. -/
structure System.At (s : System) (k : Nat) (hop : Hop) : Prop where
  now : s.now = hop.now
  gate : s.gates[k]? = some hop.gate
  session : s.sessions[k]? = some hop.session

variable {ch : Channel} {s : System} {k : Nat} {hop : Hop}

theorem System.At.requestId (h : s.At k hop) (ha : s.Aligned) :
    hop.gate.requestId = hop.session.origin := by
  have hi := congrArg (·[k]?) ha.ids
  simpa [getElem?_map, h.gate, h.session] using hi

/-- What a new request must be: its ids are fresh, and the bridge asks about it. -/
def FreshFor (ch : Channel) (s : System) : Event → Prop
  | .request nonce portNonce data =>
    ch.generateRequestId nonce data ∉ s.sessions.map (·.origin) ∧
      ch.generateRequestId portNonce (data.onHost ch.hostname) ≠
        ch.generateRequestId nonce data ∧
      ch.disregards (data.onHost ch.hostname) = false
  | _ => True

def newHop (ch : Channel) (now : Nat) (nonce portNonce : String) (data : MessageData) : Hop where
  now := now
  gate := ⟨ch.generateRequestId nonce data, data, now + phase1Ms, none⟩
  session := ⟨ch.generateRequestId nonce data,
    ch.generateRequestId portNonce (data.onHost ch.hostname), data.onHost ch.hostname,
    now + phase1Ms, false⟩

namespace System

theorem instant_request {n pn : String} {d : MessageData}
    (ha : s.Aligned) (hs : ch.disregards (d.onHost ch.hostname) = false) :
    s.instant ch (.request n pn d) =
      { s with
        gates := s.gates ++ [(newHop ch s.now n pn d).gate]
        sessions := s.sessions ++ [(newHop ch s.now n pn d).session] } := by
  obtain ⟨now, gates, bus, sessions, p, a⟩ := s
  cases ha.bus
  cases ha.port
  simp [instant, labels, step, deliver, hs, drain, newHop]

variable {α β : Type} {e : Event}

private theorem mapIdx_const (f : α → β) (xs : List α) : xs.mapIdx (fun _ x => f x) = xs.map f := by
  refine ext_getElem? fun k => ?_
  rw [getElem?_mapIdx, getElem?_map]

/-- What one session handles, told over all sessions. -/
private theorem mapIdx_single (f : α → α × List β) (i : Nat) (xs : List α) :
    (xs.mapIdx fun k x => (if i = k then f x else (x, [])).1) =
        xs[i]?.elim xs (fun x => xs.set i (f x).1) ∧
      (xs.mapIdx fun k x => (if i = k then f x else (x, [])).2).flatten =
        xs[i]?.elim [] (fun x => (f x).2) := by
  induction xs generalizing i with
  | nil => exact ⟨rfl, rfl⟩
  | cons x xs ih =>
    rw [mapIdx_cons, mapIdx_cons, flatten_cons]
    cases i with
    | zero => simp [mapIdx_const fun x => x]
    | succ i =>
      obtain ⟨hss, hs⟩ := ih i
      cases hx : xs[i]? <;> simp [hss, hs, hx]

/-- Every event but a request: the sessions handle it, each on its own, and every gate reads what
they send. `awaiting-user` relays nothing, as the ids of a session differ. -/
theorem instant_eq (ha : s.Aligned) (he : e.requestId ch = none) :
    ∃ answered, s.instant ch e =
      { s with
        now := s.now + elapsed [e]
        sessions := s.sessions.mapIdx fun k session => (e.handle ch s.now k session).1
        gates := s.gates.map fun gate => (e.onGate s.now gate).receiveAll (s.now + elapsed [e])
          (s.sessions.mapIdx fun k session => (e.handle ch s.now k session).2).flatten
        answered } := by
  have hp := ha.port
  have hr : ∀ session ∈ s.sessions, (session.awaitingUser s.now).2 = [] := by
    intro session hs
    cases hx : session.settled <;> simp [Session.awaitingUser, hx, ha.portIds session hs]
  obtain ⟨now, gates, bus, sessions, port, answered⟩ := s
  cases hp
  unfold instant
  rw [drain_eq]
  cases e with
  | request => cases he
  | awaiting i =>
    obtain ⟨hss, hsn⟩ := mapIdx_single
      (fun session => ((session.awaitingUser now).1, ([] : List PortMessage))) i sessions
    simp only [handle, hss, hsn]
    cases hs : sessions[i]? with
    | none => simp [labels, step, onSession, hs, elapsed, onGate, receiveAll]
    | some session =>
      simp [labels, step, onSession, hs, elapsed, onGate, receiveAll,
        hr session (mem_of_getElem? hs)]
  | answer i =>
    obtain ⟨hss, hsn⟩ := mapIdx_single
      (fun session => session.finish (ch.answer session.data)) i sessions
    simp only [handle, hss, hsn]
    cases hs : sessions[i]? with
    | none => simp [labels, step, answerSession, hs, elapsed, onGate, receiveAll]
    | some session =>
      simp [labels, step, answerSession, onSession, hs, elapsed, onGate, receiveAll]
  | tick =>
    simp [labels, step, tick, receiveAll, elapsed, onGate, handle, mapIdx_const, flatMap_def]

theorem Aligned.of_ids (h : s.Aligned) {s' : System} (hb : s'.bus = []) (hpo : s'.port = [])
    (hg : s'.gates.map (·.requestId) = s.gates.map (·.requestId))
    (hs : s'.sessions.map Session.ids = s.sessions.map Session.ids) : s'.Aligned := by
  have hor : s'.sessions.map (·.origin) = s.sessions.map (·.origin) := by
    have hf := congrArg (List.map Prod.fst) hs
    rw [map_map, map_map] at hf
    exact hf
  refine ⟨hb, hpo, hg.trans (h.ids.trans hor.symm), hor ▸ h.distinct, ?_⟩
  intro session hse
  have hm : session.ids ∈ s.sessions.map Session.ids := hs ▸ mem_map_of_mem hse
  obtain ⟨b, hbe, hi⟩ := mem_map.1 hm
  have ho : b.origin = session.origin := congrArg Prod.fst hi
  have hp : b.portId = session.portId := congrArg Prod.snd hi
  rw [← ho, ← hp]
  exact h.portIds b hbe

theorem ids_instant (ch : Channel) (h : s.Aligned) (e : Event) (he : e.requestId ch = none) :
    (s.instant ch e).sessions.map Session.ids = s.sessions.map Session.ids := by
  obtain ⟨_, heq⟩ := instant_eq h he
  rw [heq]
  refine ext_getElem? fun k => ?_
  simp [Function.comp_def, ids_handle]

theorem Aligned.instant (h : s.Aligned) (hf : FreshFor ch s e) : (s.instant ch e).Aligned := by
  cases he : e.requestId ch with
  | none =>
    have hi := ids_instant ch h e he
    obtain ⟨_, heq⟩ := instant_eq h he
    rw [heq] at hi ⊢
    refine h.of_ids h.bus h.port ?_ hi
    rw [map_map]
    exact map_congr_left fun gate _ =>
      (requestId_receiveAll _ _ _).trans (e.requestId_onGate _ gate)
  | some _ =>
    cases e with
    | request nonce portNonce data =>
      obtain ⟨hid, hp, hsn⟩ := hf
      rw [instant_request h hsn]
      refine ⟨h.bus, h.port, ?_, ?_, ?_⟩
      · simp [h.ids, newHop]
      · simp only [map_append, map_cons, map_nil]
        rw [← concat_eq_append]
        exact h.distinct.concat hid
      · intro session hs
        rcases mem_append.1 hs with hs | hs
        · exact h.portIds session hs
        · cases mem_singleton.1 hs
          exact hp
    | _ => cases he

theorem At.instant (h : s.At k hop) (ha : s.Aligned) (hf : FreshFor ch s e) :
    (s.instant ch e).At k (hop.step ch k e) := by
  cases he : e.requestId ch with
  | none =>
    obtain ⟨_, heq⟩ := instant_eq ha he
    have hi := (e.requestId_onGate s.now hop.gate).trans (h.requestId ha)
    have hr := receiveAll_flatten (s.now + elapsed [e])
      (fun k session msg (hm : msg ∈ (e.handle ch s.now k session).2) => e.requestId_handle hm)
      ha.distinct h.session hi
    rw [heq, step_eq, ← h.now]
    refine ⟨rfl, ?_, ?_⟩
    · simp [h.gate, hr]
    · simp [h.session]
  | some _ =>
    cases e with
    | request nonce portNonce data =>
      rw [instant_request ha hf.2.2]
      refine ⟨h.now, ?_, ?_⟩
      · exact getElem?_append_left (List.getElem?_eq_some_iff.1 h.gate).1 ▸ h.gate
      · exact getElem?_append_left (List.getElem?_eq_some_iff.1 h.session).1 ▸ h.session
    | _ => cases he

end System

def FreshAlong (ch : Channel) : System → List Event → Prop
  | _, [] => True
  | s, e :: events => FreshFor ch s e ∧ FreshAlong ch (s.instant ch e) events

def Hop.run (ch : Channel) (k : Nat) (events : List Event) (hop : Hop) : Hop :=
  events.foldl (Hop.step ch k) hop

namespace System

variable {events : List Event}

theorem At.play (h : s.At k hop) (ha : s.Aligned) (hf : FreshAlong ch s events) :
    (s.play ch events).At k (hop.run ch k events) := by
  induction events generalizing s hop with
  | nil => exact h
  | cons e events ih => exact ih (h.instant ha hf.1) (ha.instant hf.1) hf.2

theorem Aligned.play (h : s.Aligned) (hf : FreshAlong ch s events) :
    (s.play ch events).Aligned := by
  induction events generalizing s with
  | nil => exact h
  | cons e events ih => exact ih (h.instant hf.1) hf.2

end System

theorem FreshAlong.append {events events' : List Event} (h : FreshAlong ch s (events ++ events')) :
    FreshAlong ch s events ∧ FreshAlong ch (s.play ch events) events' := by
  induction events generalizing s with
  | nil => exact ⟨trivial, h⟩
  | cons e events ih =>
    obtain ⟨hh, ht⟩ := ih h.2
    exact ⟨⟨h.1, hh⟩, ht⟩

end Simulation

/-! ## Distinct nonces -/

section Nonces

variable {ch : Channel}

def Event.nonces : Event → List String
  | .request nonce portNonce _ => [nonce, portNonce]
  | _ => []

/-- A schedule without an attacker: random nonces are pairwise distinct, and its requests
are of the types of the extension and are answered. -/
structure Genuine (ch : Channel) (events : List Event) : Prop where
  hash : ch.HexHash
  nonces : (events.flatMap Event.nonces).Nodup
  requests : ∀ nonce portNonce data, .request nonce portNonce data ∈ events →
    data.type ∈ requestTypes ∧ ch.disregards (data.onHost ch.hostname) = false

variable {s : System}

theorem origins_instant {e : Event} (ha : s.Aligned) (hf : FreshFor ch s e) :
    (s.instant ch e).sessions.map (·.origin) =
      s.sessions.map (·.origin) ++ (e.requestId ch).toList := by
  cases hid : e.requestId ch with
  | none =>
    have hi := congrArg (List.map Prod.fst) (ids_instant ch ha e hid)
    rw [map_map, map_map] at hi
    rw [Option.toList_none, append_nil]
    exact hi
  | some requestId =>
    cases e with
    | request n pn d =>
      cases hid
      rw [instant_request ha hf.2.2]
      simp [newHop]
    | _ => cases hid

theorem Genuine.freshAlong {p events : List Event} (h : Genuine ch (p ++ events)) (ha : s.Aligned)
    (hp : s.sessions.map (·.origin) = p.filterMap (Event.requestId ch)) :
    FreshAlong ch s events := by
  induction events generalizing s p with
  | nil => trivial
  | cons e events ih =>
    have hf : FreshFor ch s e := by
      cases e with
      | request n pn d =>
        obtain ⟨ht, hsn⟩ := h.requests n pn d (by simp)
        have hn := h.nonces
        simp only [flatMap_append, flatMap_cons, Event.nonces] at hn
        refine ⟨?_, ?_, hsn⟩
        · rw [hp]
          intro hm
          obtain ⟨e', he', hi⟩ := mem_filterMap.1 hm
          cases e' with
          | request n' pn' d' =>
            obtain ⟨ht', -⟩ := h.requests n' pn' d' (by simp [he'])
            have heq := nonce_of_generateRequestId h.hash ht' ht (Option.some.inj hi)
            refine disjoint_of_nodup_append hn (a := n) ?_ (by simp)
            exact mem_flatMap.2 ⟨_, he', by simp [Event.nonces, heq]⟩
          | _ => cases hi
        · intro heq
          have ht' : (d.onHost ch.hostname).type ∈ requestTypes := ht
          have hs := nonce_of_generateRequestId h.hash ht' ht heq
          have hpr := (nodup_append.1 hn).2.1
          simp [hs] at hpr
      | _ => trivial
    have h' : Genuine ch ((p ++ [e]) ++ events) := by simpa using h
    refine ⟨hf, ih h' (ha.instant hf) ?_⟩
    rw [origins_instant ha hf, hp, filterMap_append]
    cases hi : e.requestId ch <;> simp [hi]

end Nonces

/-! ## The clock of one request -/

section Clock

variable {ch : Channel} {k : Nat} {hop : Hop}

/-- The service worker does not post about request `k`. -/
def Quiet (k : Nat) (events : List Event) : Prop :=
  .awaiting k ∉ events ∧ .answer k ∉ events

variable {result : Bool × Nat} {e : Event} {events : List Event} {s : System}

theorem Gate.receiveAll_of_result {gate : Gate}
    (h : gate.result = some result) (now : Nat) (ms : List PortMessage) :
    gate.receiveAll now ms = gate := by
  induction ms with
  | nil => rfl
  | cons msg ms ih => simpa [receiveAll, Gate.receive, h] using ih

theorem Hop.result_step (ch : Channel) (k : Nat) (h : hop.gate.result = some result) (e : Event) :
    (hop.step ch k e).gate.result = some result := by
  cases e with
  | request n pn d => exact h
  | awaiting i =>
    simp only [Hop.step]
    split <;> exact h
  | answer i =>
    simp only [Hop.step]
    split
    · rwa [receiveAll_of_result h]
    · exact h
  | tick =>
    have he : hop.gate.expire (hop.now + 1) = hop.gate := by simp [Gate.expire, h]
    simp only [Hop.step, he]
    rwa [receiveAll_of_result h]

theorem Hop.result_run (ch : Channel) (k : Nat) (h : hop.gate.result = some result)
    (events : List Event) : (hop.run ch k events).gate.result = some result := by
  induction events generalizing hop with
  | nil => exact h
  | cons e events ih => exact ih (result_step ch k h e)

theorem Quiet.head (h : Quiet k (e :: events)) : Quiet k [e] := by
  simp only [Quiet, mem_cons, not_mem_nil, or_false] at h ⊢
  tauto

theorem Quiet.tail (h : Quiet k (e :: events)) : Quiet k events :=
  ⟨fun hm => h.1 (mem_cons_of_mem e hm), fun hm => h.2 (mem_cons_of_mem e hm)⟩

theorem elapsed_cons (e : Event) (events : List Event) :
    elapsed (e :: events) = elapsed [e] + elapsed events := by
  cases e <;> simp [elapsed]; omega

theorem Hop.step_of_quiet (hq : Quiet k [e]) (hg : hop.now + elapsed [e] < hop.gate.deadline)
    (hs : hop.now + elapsed [e] < hop.session.deadline) :
    hop.step ch k e = { hop with now := hop.now + elapsed [e] } := by
  cases e with
  | request n pn d => rfl
  | awaiting i =>
    have hn : i ≠ k := fun heq => hq.1 (by simp [heq])
    simp [Hop.step, hn, elapsed]
  | answer i =>
    have hn : i ≠ k := fun heq => hq.2 (by simp [heq])
    simp [Hop.step, hn, elapsed]
  | tick =>
    simp only [elapsed] at hg hs
    have he : hop.gate.expire (hop.now + 1) = hop.gate := by
      unfold Gate.expire
      rw [if_neg (by omega)]
    have hs' : hop.session.expire (hop.now + 1) = (hop.session, []) := by
      unfold Session.expire
      rw [if_neg (by omega)]
    simp [Hop.step, he, hs', receiveAll, elapsed]

theorem Hop.run_of_quiet (hq : Quiet k events) (hg : hop.now + elapsed events < hop.gate.deadline)
    (hs : hop.now + elapsed events < hop.session.deadline) :
    hop.run ch k events = { hop with now := hop.now + elapsed events } := by
  induction events generalizing hop with
  | nil => rfl
  | cons e events ih =>
    rw [elapsed_cons] at hg hs ⊢
    have hr := @ih { hop with now := hop.now + elapsed [e] } hq.tail
      (by simpa using by omega) (by simpa using by omega)
    simp only [Hop.run, foldl_cons]
    rw [step_of_quiet hq.head (by omega) (by omega)]
    simpa [Hop.run, Nat.add_assoc] using hr

/-- A gate whose session waits longer is resolved by its own timer. -/
theorem Hop.result_of_due (hq : Quiet k events)
    (hr : hop.gate.result = none) (hn : hop.now < hop.gate.deadline)
    (hd : hop.gate.deadline ≤ hop.now + elapsed events)
    (hs : hop.gate.deadline < hop.session.deadline) :
    (hop.run ch k events).gate.result = some (false, hop.gate.deadline) := by
  induction events generalizing hop with
  | nil =>
    simp only [elapsed] at hd
    omega
  | cons e events ih =>
    rw [elapsed_cons] at hd
    have ho : elapsed [e] ≤ 1 := by cases e <;> simp [elapsed]
    simp only [Hop.run, foldl_cons]
    by_cases hb : hop.now + elapsed [e] < hop.gate.deadline
    · rw [step_of_quiet hq.head hb (by omega)]
      exact @ih { hop with now := hop.now + elapsed [e] } hq.tail hr hb
        (by simpa using by omega) hs
    · -- the tick that reaches the deadline of the gate
      refine result_run ch k ?_ events
      cases e with
      | tick =>
        simp only [elapsed] at hb ho
        have he : hop.gate.expire (hop.now + 1) =
            { hop.gate with result := some (false, hop.gate.deadline) } := by
          unfold Gate.expire
          rw [if_pos ⟨hr, by omega⟩]
        simp only [Hop.step, he]
        rw [receiveAll_of_result rfl]
      | _ => exact absurd (by simpa [elapsed] using hn) hb

theorem System.now_instant (ha : s.Aligned)
    (hf : FreshFor ch s e) : (s.instant ch e).now = s.now + elapsed [e] := by
  cases he : e.requestId ch with
  | none =>
    obtain ⟨_, heq⟩ := instant_eq ha he
    rw [heq]
  | some _ =>
    cases e with
    | request nonce portNonce data =>
      rw [instant_request ha hf.2.2]
      rfl
    | _ => cases he

theorem System.now_play (ha : s.Aligned)
    (hf : FreshAlong ch s events) : (s.play ch events).now = s.now + elapsed events := by
  induction events generalizing s with
  | nil => rfl
  | cons e events ih =>
    have hr := ih (ha.instant hf.1) hf.2
    rw [now_instant ha hf.1] at hr
    rw [elapsed_cons, ← Nat.add_assoc]
    exact hr

theorem System.origins_play (ha : s.Aligned) (hf : FreshAlong ch s events) :
    (s.play ch events).sessions.map (·.origin) =
      s.sessions.map (·.origin) ++ events.filterMap (Event.requestId ch) := by
  induction events generalizing s with
  | nil => simp [System.play]
  | cons e events ih =>
    have hr := ih (ha.instant hf.1) hf.2
    rw [origins_instant ha hf.1] at hr
    refine hr.trans ?_
    cases hi : e.requestId ch <;> simp [hi]

end Clock

/-! ## The user's answer -/

section Decision

/-- What comes after `awaiting-user`: the answer, or no answer for as long as the user has. -/
inductive Ending where
  | answered (deciding rest : List Event)
  | unanswered (waiting : List Event)

def Ending.events (k : Nat) : Ending → List Event
  | .answered deciding rest => deciding ++ .answer k :: rest
  | .unanswered waiting => waiting

def Ending.Valid (k : Nat) : Ending → Prop
  | .answered deciding _ => Quiet k deciding ∧ elapsed deciding < phase2Ms
  | .unanswered waiting => Quiet k waiting ∧ phase2Ms ≤ elapsed waiting

def isRequest : Event → Bool
  | .request .. => true
  | _ => false

/-- The schedule of one gated request among others. -/
structure UserSchedule where
  past : List Event
  nonce : String
  portNonce : String
  data : MessageData
  before : List Event
  ending : Ending

namespace UserSchedule

variable (u : UserSchedule) (ch : Channel)

def index : Nat := u.past.countP isRequest

def events : List Event :=
  u.past ++ .request u.nonce u.portNonce u.data ::
    (u.before ++ .awaiting u.index :: u.ending.events u.index)

/-- `awaiting-user` comes in the first ten seconds, and the answer in the five minutes
after it, if it comes. -/
structure Valid : Prop where
  genuine : Genuine ch u.events
  quiet : Quiet u.index u.before
  soon : elapsed u.before < phase1Ms
  ending : u.ending.Valid u.index

def answer : Bool := ch.answer (u.data.onHost ch.hostname)

/-- What the gate resolved to at the end of the schedule. -/
def result : Option (Bool × Nat) :=
  ((({} : System).play ch u.events).gates[u.index]?).bind (·.result)

/-- The user's decision reaches the page: the gate resolves to the answer, and without an
answer to false at the end of the extended deadline. -/
def Reaches : Prop :=
  match u.ending with
  | .answered _ _ => ∃ t, u.result ch = some (u.answer ch, t)
  | .unanswered _ => u.result ch = some (false, elapsed u.past + elapsed u.before + phase2Ms)

/-- The answer comes in the first ten seconds, or is the one that the timer gives. -/
def InTime : Prop :=
  match u.ending with
  | .answered deciding _ => elapsed u.before + elapsed deciding < phase1Ms ∨ u.answer ch = false
  | .unanswered _ => False

variable {u ch}

theorem length_filterMap_requestId (events : List Event) :
    (events.filterMap (Event.requestId ch)).length = events.countP isRequest := by
  induction events with
  | nil => rfl
  | cons e events ih =>
    rw [filterMap_cons, countP_cons]
    cases e <;> simp [Event.requestId, isRequest, ih]

theorem aligned_empty : ({} : System).Aligned := ⟨rfl, rfl, rfl, List.nodup_nil, nofun⟩

theorem result_eq (h : u.Valid ch) :
    u.result ch = ((newHop ch (elapsed u.past) u.nonce u.portNonce u.data).run ch u.index
      (u.before ++ .awaiting u.index :: u.ending.events u.index)).gate.result := by
  have hge : Genuine ch ([] ++ u.events) := h.genuine
  have hall : FreshAlong ch {} u.events := hge.freshAlong aligned_empty rfl
  obtain ⟨hp, hr, hrs⟩ := FreshAlong.append hall
  have ha := aligned_empty.play hp
  have hn : (({} : System).play ch u.past).now = elapsed u.past := by
    simpa using now_play aligned_empty hp
  have hs : (({} : System).play ch u.past).sessions.length = u.index := by
    have ho := congrArg length (origins_play aligned_empty hp)
    simpa [length_filterMap_requestId, index] using ho
  have hg : (({} : System).play ch u.past).gates.length = u.index := by
    have hi := congrArg length ha.ids
    rw [length_map, length_map] at hi
    exact hi.trans hs
  -- the request starts its machine at the end of both lists
  have hat : ((({} : System).play ch u.past).instant ch
      (.request u.nonce u.portNonce u.data)).At u.index
        (newHop ch (elapsed u.past) u.nonce u.portNonce u.data) := by
    rw [instant_request ha hr.2.2, hn]
    refine ⟨rfl, ?_, ?_⟩
    · simp [← hg]
    · simp [← hs]
  have he := hat.play (ha.instant hr) hrs
  unfold result events
  rw [System.play, foldl_append]
  exact congrArg (Option.bind · (·.result)) he.gate

variable (u ch) in
/-- The state of the request when the user is asked. -/
def asked : Hop :=
  { newHop ch (elapsed u.past) u.nonce u.portNonce u.data with
    now := elapsed u.past + elapsed u.before
    session := { (newHop ch (elapsed u.past) u.nonce u.portNonce u.data).session with
      deadline := elapsed u.past + elapsed u.before + phase2Ms } }

section

variable (h : u.Valid ch)
include h

theorem result_eq_asked :
    u.result ch = ((u.asked ch).run ch u.index (u.ending.events u.index)).gate.result := by
  have hs := h.soon
  have hb : (newHop ch (elapsed u.past) u.nonce u.portNonce u.data).run ch u.index u.before =
      { newHop ch (elapsed u.past) u.nonce u.portNonce u.data with
        now := elapsed u.past + elapsed u.before } :=
    run_of_quiet h.quiet (by simp only [newHop]; omega) (by simp only [newHop]; omega)
  rw [result_eq h]
  unfold Hop.run at hb ⊢
  rw [foldl_append, foldl_cons, hb]
  simp [Hop.step, Session.awaitingUser, newHop, asked]

/-- Without an answer in the first ten seconds the gate has given up. -/
theorem result_of_late {w : List Event}
    (hq : Quiet u.index w) (hl : phase1Ms ≤ elapsed u.before + elapsed w) :
    ((u.asked ch).run ch u.index w).gate.result = some (false, elapsed u.past + phase1Ms) := by
  have hs := h.soon
  refine @result_of_due ch u.index (u.asked ch) w hq rfl ?_ ?_ ?_
  · simp only [asked, newHop]
    omega
  · simp only [asked, newHop]
    omega
  · simp only [asked, newHop, phase1Ms, phase2Ms]
    omega

variable {r d : List Event}

theorem result_of_answered (he : u.ending = .answered d r)
    (hi : elapsed u.before + elapsed d < phase1Ms) :
    u.result ch = some (u.answer ch, elapsed u.past + elapsed u.before + elapsed d) := by
  have hv := h.ending
  rw [he] at hv
  obtain ⟨hq, hd⟩ := hv
  have hw : (u.asked ch).run ch u.index d =
      { u.asked ch with now := elapsed u.past + elapsed u.before + elapsed d } :=
    run_of_quiet hq (by simp only [asked, newHop]; omega)
      (by simp only [asked, newHop]; omega)
  rw [result_eq_asked h, he]
  unfold Hop.run at hw
  simp only [Ending.events, Hop.run, foldl_append, foldl_cons, hw]
  refine result_run ch u.index ?_ r
  simp [Hop.step, asked, newHop, Session.finish, receiveAll, Gate.receive,
    PortMessage.requestId, answer]

theorem result_of_answered_late (he : u.ending = .answered d r)
    (hl : phase1Ms ≤ elapsed u.before + elapsed d) :
    u.result ch = some (false, elapsed u.past + phase1Ms) := by
  have hv := h.ending
  rw [he] at hv
  have hr := result_of_late h hv.1 hl
  rw [result_eq_asked h, he]
  unfold Hop.run at hr
  simp only [Ending.events, Hop.run, foldl_append, foldl_cons]
  exact result_run ch u.index (result_step ch u.index hr (.answer u.index)) r

theorem result_of_unanswered {waiting : List Event} (he : u.ending = .unanswered waiting) :
    u.result ch = some (false, elapsed u.past + phase1Ms) := by
  have hv := h.ending
  rw [he] at hv
  obtain ⟨hq, hw⟩ := hv
  have hl : phase1Ms ≤ elapsed u.before + elapsed waiting := by
    simp only [phase1Ms, phase2Ms] at hw ⊢
    omega
  rw [result_eq_asked h, he]
  exact result_of_late h hq hl

end

/-- The user's decision reaches the page exactly when it comes in the first ten seconds, or
is the refusal that the timer gives anyway. -/
theorem user_decision_reaches_iff (h : u.Valid ch) : u.Reaches ch ↔ u.InTime ch := by
  unfold Reaches InTime
  cases he : u.ending with
  | answered deciding rest =>
    by_cases hi : elapsed u.before + elapsed deciding < phase1Ms
    · exact iff_of_true ⟨_, result_of_answered h he hi⟩ (.inl hi)
    · dsimp only
      rw [result_of_answered_late h he (Nat.le_of_not_lt hi)]
      constructor
      · rintro ⟨t, heq⟩
        exact .inr (congrArg Prod.fst (Option.some.inj heq)).symm
      · rintro (hl | ha)
        · exact absurd hl hi
        · exact ⟨_, by rw [ha]⟩
  | unanswered waiting =>
    dsimp only
    rw [result_of_unanswered h he]
    simp only [phase1Ms, phase2Ms, Option.some.injEq, Prod.mk.injEq, true_and, iff_false]
    omega

/-! A request that the user allows after one second, and one after twenty. -/

section Sample

/-- A transaction that the service worker allows once the user has. -/
def allowed : Channel where
  objectHash _ := "0a1b"
  hostname := "dapp.example"
  disregards _ := false
  answer _ := true

/-- The user is asked at once and decides after a time. -/
def decidedAfter (deciding : List Event) : UserSchedule where
  past := []
  nonce := "page"
  portNonce := "bridge"
  data := ⟨"transaction", "dapp.example", .null⟩
  before := []
  ending := .answered deciding []

theorem quiet_replicate_tick (k n : Nat) : Quiet k (List.replicate n .tick) := by
  constructor <;> simp

theorem elapsed_replicate_tick (n : Nat) : elapsed (List.replicate n .tick) = n := by
  induction n with
  | zero => rfl
  | succ n ih => simp [replicate_succ, elapsed, ih]

theorem decidedAfter_valid {n : Nat} (h : n < phase2Ms) :
    (decidedAfter (List.replicate n .tick)).Valid allowed := by
  have ht : (replicate n Event.tick).flatMap Event.nonces = [] := by
    simp [Event.nonces]
  refine ⟨⟨fun _ => (by decide : ':' ∉ "0a1b".toList), ?_, ?_⟩, ⟨nofun, nofun⟩,
    (by decide : 0 < phase1Ms), quiet_replicate_tick _ _, ?_⟩
  · simp [events, decidedAfter, Ending.events, Event.nonces, ht]
  · intro nn pn d hm
    simp only [events, decidedAfter, Ending.events, nil_append, mem_cons,
      mem_append, mem_replicate, reduceCtorEq, and_false, or_false,
      Event.request.injEq, not_mem_nil] at hm
    obtain ⟨-, -, rfl⟩ := hm
    exact ⟨by decide, rfl⟩
  · rwa [elapsed_replicate_tick]

theorem user_decision_reaches_iff_second :
    (decidedAfter (List.replicate 1000 .tick)).Reaches allowed :=
  (user_decision_reaches_iff (decidedAfter_valid (by decide))).2
    (.inl (by rw [elapsed_replicate_tick]; decide))

/-- The user allows after twenty seconds, and the page has refused after ten. -/
theorem late_decision_lost :
    (decidedAfter (List.replicate 20000 .tick)).Valid allowed ∧
      ¬ (decidedAfter (List.replicate 20000 .tick)).Reaches allowed := by
  have hv : (decidedAfter (replicate 20000 .tick)).Valid allowed :=
    decidedAfter_valid (by decide)
  refine ⟨hv, ?_⟩
  rintro ⟨t, ht⟩
  rw [result_of_answered_late hv rfl (by rw [elapsed_replicate_tick]; decide)] at ht
  cases ht

end Sample

end UserSchedule

end Decision

end Dambi.Extension
