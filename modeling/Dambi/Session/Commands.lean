import Dambi.Lib.Machine
import Dambi.Session.Evaluate

/-!
# The session as a machine

The remaining operations of `CoreSession` (`session/mod.rs`) and the machine of
all of them. The counters `NEXT_SESSION` and `NEXT_REFRESH` are shared by every
session of the process, so what they yield is an argument of the operation that
asks them; `none` is the exhausted counter.
-/

namespace Dambi

open Fallible

variable {δ : Type}

namespace CoreSession

/-- `CoreSession::new`, with the lifecycle its store allocates. -/
def new (env : SessionEnv δ) (lifecycle : LifecycleId) (owner : Option Nat)
    (configText policyText : String) (now : Nat) : Except SessionError (CoreSession δ) := do
  sessionClock now
  let config ← env.configFromText configText
  require (config.enforcement ∈ ["advisory", "enforcing"])
    ⟨"INVALID_CONFIG", "invalid enforcement"⟩
  config.limits.validate
  config.scam.elim (.ok ()) (env.validateScam · config.keys)
  let policy ← env.policyFromText policyText config.limits.maxPolicyBytes
  let store ← (SnapshotStore.new env.trust lifecycle {
      keys := config.keys
      policy := {
        env := config.env
        profile := config.profile
        maxBundleAgeSec := config.limits.maxBundleAgeSec
        allowedClockSkewMs := config.limits.allowedClockSkewMs }
      maxPolicyBytes := config.limits.maxPolicyBytes
      maxDecoderBytes := config.limits.maxDecoderBytes }
    (.pinned config.artifact config.expectedDigest) policy now).mapError .ofSnapshot
  match owner with
  | none => .error ⟨"LIMIT_EXCEEDED", "session identifier space exhausted"⟩
  | some owner =>
    .ok {
      store
      limits := config.limits
      enforcement := config.enforcement
      owner
      scam := config.scam.map fun config => { config } }

variable (env : SessionEnv δ) (lifecycles : Lifecycles) (s : CoreSession δ)

def scamNotConfigured : SessionError := ⟨"INVALID_CONFIG", "scam is not configured"⟩

def setScamSettings (settings : String) : Except SessionError Unit × CoreSession δ :=
  match s.live lifecycles with
  | .error error => (.error error, s)
  | .ok _ => match s.scam with
    | none => (.error scamNotConfigured, s)
    | some state =>
      let (result, state) := (ScamState.setSettings env.scam settings).run state
      (result, { s with scam := some state })

def beginRefresh (fetched : Option Nat) : Except SessionError Nat × CoreSession δ :=
  match s.live lifecycles with
  | .error error => (.error error, s)
  | .ok _ => match fetched with
    | none => (.error ⟨"LIMIT_EXCEEDED", "refresh identifier space exhausted"⟩, s)
    | some id => match s.store.beginRefresh lifecycles with
      | (.error error, store) => (.error (.ofSnapshot error), { s with store })
      | (.ok ticket, store) => (.ok id, { s with store, refresh := some (id, ticket) })

def beginScamRefresh (fetched : Option Nat) : Except SessionError Nat × CoreSession δ :=
  match s.live lifecycles with
  | .error error => (.error error, s)
  | .ok _ =>
    if s.scam.isNone then (.error scamNotConfigured, s)
    else match fetched with
    | none => (.error ⟨"LIMIT_EXCEEDED", "refresh identifier space exhausted"⟩, s)
    | some id => (.ok id, { s with scamRefresh := some id })

def staleScamTicket : SessionError := ⟨"ABORTED", "scam refresh ticket is stale or foreign"⟩

variable (ticket : Nat)

/-- `commit_scam_refresh`: the ticket is spent even where the bundle is refused. -/
def commitScamRefresh (envelope : String) (now : Nat) :
    Except SessionError Unit × CoreSession δ :=
  match (do s.live lifecycles; sessionClock now : Except SessionError Unit) with
  | .error error => (.error error, s)
  | .ok _ =>
    if s.scamRefresh = some ticket then
      let s := { s with scamRefresh := none }
      match s.scam with
      | none => (.error scamNotConfigured, s)
      | some state =>
        let (result, state) := (ScamState.installSigned env.scam envelope now).run state
        (result, { s with scam := some state })
    else (.error staleScamTicket, s)

def cancelScamRefresh : Except SessionError Unit × CoreSession δ :=
  match s.live lifecycles with
  | .error error => (.error error, s)
  | .ok _ =>
    if s.scamRefresh = some ticket then (.ok (), { s with scamRefresh := none })
    else (.error staleScamTicket, s)

def staleTicket : SessionError := ⟨"ABORTED", "refresh ticket is stale or foreign"⟩

/-- The closure of `commit_refresh`. -/
def installPolicy (ticket : RefreshTicket) (policyText : String) (now : Nat) :
    Except SessionError Unit × SnapshotStore δ :=
  match (do
      let policy ← env.policyFromText policyText s.limits.maxPolicyBytes
      (s.store.prepareRefresh lifecycles env.trust ticket policy now).mapError .ofSnapshot :
        Except SessionError PreparedRefresh) with
  | .error error => (.error error, s.store)
  | .ok prepared => match s.store.commitRefresh lifecycles prepared now with
    | (.error error, store) => (.error (.ofSnapshot error), store)
    | (.ok _, store) => (.ok (), store)

/-- `commit_refresh`: a failed installation cancels its attempt. -/
def commitRefresh (policyText : String) (now : Nat) :
    Except SessionError Unit × CoreSession δ :=
  match (do s.live lifecycles; sessionClock now : Except SessionError Unit) with
  | .error error => (.error error, s)
  | .ok _ => match s.refresh with
    | none => (.error staleTicket, s)
    | some (id, held) =>
      if id = ticket then
        match s.installPolicy env lifecycles held policyText now with
        | (.ok _, store) => (.ok (), { s with store, refresh := none })
        | (.error error, store) =>
          (.error error,
            { s with store := (store.cancelRefresh lifecycles held).2, refresh := none })
      else (.error staleTicket, s)

def cancelRefresh : Except SessionError Unit × CoreSession δ :=
  match s.live lifecycles with
  | .error error => (.error error, s)
  | .ok _ => match s.refresh with
    | none => (.error staleTicket, s)
    | some (id, held) =>
      if id = ticket then
        match s.store.cancelRefresh lifecycles held with
        | (result, store) => (result.mapError .ofSnapshot, { s with store, refresh := none })
      else (.error staleTicket, s)

def dispose : Lifecycles × CoreSession δ :=
  ((s.store.dispose lifecycles).1, { s with
    store := (s.store.dispose lifecycles).2
    plans := ∅
    retired := []
    refresh := none
    scamRefresh := none
    scam := none })

end CoreSession

/-! ## Commands -/

/-- A call of the public API. -/
inductive SessionCommand where
  | plan (request : String) (now : Nat)
  | evaluate (planId facts : String) (now : Nat)
  | evaluateCheck (planId facts : String) (now : Nat) (failure : String)
  | evaluateScam (planId facts scamInput : String) (now : Nat) (clock : ClockReadings)
  | evaluateCheckScam (planId facts scamInput : String) (now : Nat) (failure : String)
      (clock : ClockReadings)
  | setScamSettings (settings : String)
  | beginRefresh (fetched : Option Nat)
  | commitRefresh (ticket : Nat) (policy : String) (now : Nat)
  | cancelRefresh (ticket : Nat)
  | beginScamRefresh (fetched : Option Nat)
  | commitScamRefresh (ticket : Nat) (envelope : String) (now : Nat)
  | cancelScamRefresh (ticket : Nat)
  | dispose

/-- The plan an evaluation call names. -/
def SessionCommand.evaluates : SessionCommand → Option String
  | .evaluate planId .. | .evaluateCheck planId .. | .evaluateScam planId ..
  | .evaluateCheckScam planId .. => some planId
  | _ => none

inductive SessionAnswer where
  | planned (reply : PlanReply)
  | report (report : EvaluationReport)
  | ticket (id : Nat)
  | done
  | error (error : SessionError)

def SessionAnswer.ofExcept {α : Type} (wrap : α → SessionAnswer) :
    Except SessionError α → SessionAnswer
  | .ok a => wrap a
  | .error e => .error e

/-- A session with the flags its snapshots share. -/
structure SessionWorld (δ : Type) where
  lifecycles : Lifecycles
  session : CoreSession δ

namespace SessionWorld

variable (env : SessionEnv δ)

/-- The answer of an operation that keeps the flags. -/
def reply {α : Type} (w : SessionWorld δ) (wrap : α → SessionAnswer)
    (result : Except SessionError α × CoreSession δ) : SessionAnswer × SessionWorld δ :=
  (.ofExcept wrap result.1, { w with session := result.2 })

def step (w : SessionWorld δ) : SessionCommand → SessionAnswer × SessionWorld δ
  | .plan request now => w.reply .planned (w.session.plan env w.lifecycles request now)
  | .evaluate planId facts now =>
    w.reply .report (w.session.evaluate env w.lifecycles planId facts now)
  | .evaluateCheck planId facts now failure =>
    w.reply .report (w.session.evaluateCheck env w.lifecycles planId facts now failure)
  | .evaluateScam planId facts scamInput now clock =>
    w.reply .report (w.session.evaluateScam env w.lifecycles planId facts scamInput now clock)
  | .evaluateCheckScam planId facts scamInput now failure clock =>
    w.reply .report
      (w.session.evaluateCheckScam env w.lifecycles planId facts scamInput now failure clock)
  | .setScamSettings settings =>
    w.reply (fun _ => .done) (w.session.setScamSettings env w.lifecycles settings)
  | .beginRefresh fetched => w.reply .ticket (w.session.beginRefresh w.lifecycles fetched)
  | .commitRefresh ticket policy now =>
    w.reply (fun _ => .done) (w.session.commitRefresh env w.lifecycles ticket policy now)
  | .cancelRefresh ticket =>
    w.reply (fun _ => .done) (w.session.cancelRefresh w.lifecycles ticket)
  | .beginScamRefresh fetched =>
    w.reply .ticket (w.session.beginScamRefresh w.lifecycles fetched)
  | .commitScamRefresh ticket envelope now =>
    w.reply (fun _ => .done) (w.session.commitScamRefresh env w.lifecycles ticket envelope now)
  | .cancelScamRefresh ticket =>
    w.reply (fun _ => .done) (w.session.cancelScamRefresh w.lifecycles ticket)
  | .dispose => (.done, ⟨(w.session.dispose w.lifecycles).1, (w.session.dispose w.lifecycles).2⟩)

end SessionWorld

end Dambi
