import Dambi.Json

/-!
# The verdict channel

The page's gates, the bridge in the isolated world and the service worker, as
`lib/messages.ts`, `lib/verdict-channel.ts` and the two content scripts connect them.
A gate writes its request on the window bus, which the page can read and write; the
bridge relays every request it finds there over a port of its own and sends the verdict
back on the authenticated port, under the id that the request had.

Gates and sessions are state machines with a deadline. `System.step` composes them with
the two queues and a clock in milliseconds; a run is a list of labels.
-/

namespace Dambi.Extension

/-! ## Messages -/

/-- `MessageData`: the fields that the channel reads, and the others. -/
structure MessageData where
  type : String
  hostname : String
  fields : Json

/-- The bridge overwrites the hostname. -/
def MessageData.onHost (hostname : String) (data : MessageData) : MessageData :=
  { data with hostname }

/-- Equal apart from the hostname. -/
def MessageData.SameRequest (data data' : MessageData) : Prop :=
  data.type = data'.type ∧ data.fields = data'.fields

@[simp] theorem MessageData.sameRequest_onHost {hostname : String} {data data' : MessageData} :
    (data.onHost hostname).SameRequest data' ↔ data.SameRequest data' := Iff.rfl

abbrev RequestId := String

/-- `StreamResponse`, as it travels on the authenticated port. -/
inductive PortMessage where
  | verdict (requestId : RequestId) (data : Bool)
  | awaitingUser (requestId : RequestId)
deriving DecidableEq, Repr

def PortMessage.requestId : PortMessage → RequestId
  | .verdict requestId _ => requestId
  | .awaitingUser requestId => requestId

def phase1Ms : Nat := 10000

def phase2Ms : Nat := 300000

/-- What the channel depends on: `objectHash`, the hostname of the page, whether the bridge
only forwards a message (an execution report on the fetch bridge) and the answer of the
service worker. -/
structure Channel where
  objectHash : MessageData → String
  hostname : String
  disregards : MessageData → Bool
  answer : MessageData → Bool

/-- `generateRequestId`, with its nonce. -/
def Channel.generateRequestId (ch : Channel) (nonce : String) (data : MessageData) : RequestId :=
  data.type ++ ":" ++ nonce ++ ":" ++ ch.objectHash data

/-! ## Gates -/

/-- A promise of `awaitVerdict` in the page, with the request it was made for. The result
has the time at which it was resolved. -/
structure Gate where
  requestId : RequestId
  data : MessageData
  deadline : Nat
  result : Option (Bool × Nat) := none

variable (now : Nat)

/-- The handler that `awaitVerdict` registers under its request id. -/
def Gate.receive (msg : PortMessage) (gate : Gate) : Gate :=
  if gate.requestId = msg.requestId ∧ gate.result = none then
    match msg with
    | .awaitingUser _ => { gate with deadline := now + phase2Ms }
    | .verdict _ value => { gate with result := some (value, now) }
  else gate

def Gate.expire (gate : Gate) : Gate :=
  if gate.result = none ∧ gate.deadline ≤ now then
    { gate with result := some (false, gate.deadline) }
  else gate

/-! ## Sessions -/

/-- One request in the bridge: the id it came with, the id that
`sendToPortAndAwaitResponse` gives it on the way to the service worker, and the data it
sends there. -/
structure Session where
  origin : RequestId
  portId : RequestId
  data : MessageData
  deadline : Nat
  settled : Bool := false

/-- The service worker posts `awaiting-user` under the id that it knows. The listener of
the content script relays it only under the id of the page. -/
def Session.awaitingUser (session : Session) : Session × List PortMessage :=
  if session.settled then (session, [])
  else
    ({ session with deadline := now + phase2Ms },
      if session.portId = session.origin then [.awaitingUser session.origin] else [])

def Session.finish (value : Bool) (session : Session) : Session × List PortMessage :=
  if session.settled then (session, [])
  else ({ session with settled := true }, [.verdict session.origin value])

def Session.expire (session : Session) : Session × List PortMessage :=
  if session.deadline ≤ now then session.finish false else (session, [])

/-! ## The system -/

structure System where
  now : Nat := 0
  gates : List Gate := []
  bus : List (RequestId × MessageData) := []
  sessions : List Session := []
  port : List PortMessage := []
  /-- What the service worker has answered. -/
  answered : List (MessageData × Bool) := []

inductive Label where
  /-- `sendRequestAndAwaitVerdict` in the page. -/
  | gate (nonce : String) (data : MessageData)
  /-- The page script posts a request of its own. -/
  | post (requestId : RequestId) (data : MessageData)
  /-- The bridge reads the next request; it may fail to reach the service worker. -/
  | deliver (nonce : String) (reachable : Bool)
  | awaiting (session : Nat)
  | answer (session : Nat)
  /-- The page reads the next message of the authenticated port. -/
  | receive
  | tick

namespace System

variable (ch : Channel)

/-- The `data` handler of the bridge. -/
def deliver (nonce : String) (reachable : Bool) (s : System) : System :=
  match s.bus with
  | [] => s
  | (requestId, message) :: bus =>
    let data := message.onHost ch.hostname
    if !reachable then { s with bus, port := s.port ++ [.verdict requestId false] }
    else if ch.disregards data then { s with bus }
    else
      { s with
        bus
        sessions := s.sessions ++
          [⟨requestId, ch.generateRequestId nonce data, data, s.now + phase1Ms, false⟩] }

/-- A step of one session: what it becomes, and what the bridge sends. -/
def onSession (i : Nat) (f : Session → Session × List PortMessage) (s : System) : System :=
  match s.sessions[i]? with
  | none => s
  | some session =>
    { s with sessions := s.sessions.set i (f session).1, port := s.port ++ (f session).2 }

def answerSession (i : Nat) (s : System) : System :=
  match s.sessions[i]? with
  | none => s
  | some session =>
    { s.onSession i (Session.finish (ch.answer session.data)) with
      answered := s.answered ++ [(session.data, ch.answer session.data)] }

variable (s : System)

/-- `onPortMessage` of the receiver. -/
def receive : System :=
  match s.port with
  | [] => s
  | msg :: port => { s with port, gates := s.gates.map (Gate.receive s.now msg) }

/-- A millisecond passes, and the timers that are due fire. -/
def tick : System :=
  { s with
    now := s.now + 1
    gates := s.gates.map (Gate.expire (s.now + 1))
    sessions := s.sessions.map fun session => (session.expire (s.now + 1)).1
    port := s.port ++ s.sessions.flatMap fun session => (session.expire (s.now + 1)).2 }

def step : Label → System
  | .gate nonce data =>
    let requestId := ch.generateRequestId nonce data
    { s with
      gates := s.gates ++ [⟨requestId, data, s.now + phase1Ms, none⟩]
      bus := s.bus ++ [(requestId, data)] }
  | .post requestId data => { s with bus := s.bus ++ [(requestId, data)] }
  | .deliver nonce reachable => s.deliver ch nonce reachable
  | .awaiting i => s.onSession i (Session.awaitingUser s.now)
  | .answer i => s.answerSession ch i
  | .receive => s.receive
  | .tick => s.tick

def run (labels : List Label) (s : System) : System := labels.foldl (step ch) s

@[simp] theorem run_nil : s.run ch [] = s := rfl

@[simp] theorem run_cons (l : Label) (labels : List Label) (s : System) :
    s.run ch (l :: labels) = (s.step ch l).run ch labels := rfl

end System

end Dambi.Extension
