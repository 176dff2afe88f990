import Mathlib.Data.List.Nodup
import Mathlib.Data.Set.Basic
import Dambi.Extension.VerdictChannel

/-!
# Which request an allow belongs to

The verdict travels on a port that the page cannot write, but it is addressed by an id
that the page can read and use for a request of its own. A gate that resolves to true is
backed by an answer for its own data exactly when no request that the page posts under
the id of a gate is allowed for other data.
-/

namespace Dambi.Extension

open List Session

namespace Gate

variable (now : Nat) (msg : PortMessage) (gate : Gate)

/-- The request that a gate waits for. -/
def key : RequestId × MessageData := (gate.requestId, gate.data)

@[simp] theorem receive_key : (gate.receive now msg).key = gate.key := by
  unfold receive
  split
  · cases msg <;> rfl
  · rfl

@[simp] theorem expire_key : (gate.expire now).key = gate.key := by
  unfold expire
  split <;> rfl

variable {now msg gate}

theorem receive_eq_true {t : Nat} (h : (gate.receive now msg).result = some (true, t)) :
    gate.result = some (true, t) ∨ msg = .verdict gate.requestId true := by
  unfold receive at h
  split at h
  · next hc =>
    cases msg with
    | awaitingUser requestId => exact .inl h
    | verdict requestId value =>
      cases h
      exact .inr (by rw [hc.1]; rfl)
  · exact .inl h

end Gate

variable {session : Session} {requestId : RequestId}

variable {value : Bool} {now : Nat}

theorem Session.finish_true (h : .verdict requestId true ∈ (session.finish value).2) :
    requestId = session.origin ∧ value = true := by
  unfold Session.finish at h
  split at h
  · cases h
  · cases mem_singleton.1 h
    exact ⟨rfl, rfl⟩

theorem Session.expire_not_true : .verdict requestId true ∉ (session.expire now).2 := by
  intro h
  unfold Session.expire at h
  split at h
  · cases (finish_true h).2
  · cases h

theorem Session.awaitingUser_not_verdict :
    .verdict requestId value ∉ (session.awaitingUser now).2 := by
  intro h
  unfold Session.awaitingUser at h
  split at h
  · cases h
  · dsimp only at h
    split at h
    · cases mem_singleton.1 h
    · cases h

/-- What a session is about does not change. -/
def Session.key (session : Session) : RequestId × MessageData := (session.origin, session.data)

@[simp] theorem Session.finish_key (session : Session) (value : Bool) :
    (session.finish value).1.key = session.key := by
  unfold Session.finish
  split <;> rfl

@[simp] theorem Session.expire_key (session : Session) (now : Nat) :
    (session.expire now).1.key = session.key := by
  unfold Session.expire
  split
  · exact session.finish_key false
  · rfl

@[simp] theorem Session.awaitingUser_key (session : Session) (now : Nat) :
    (session.awaitingUser now).1.key = session.key := by
  unfold Session.awaitingUser
  split <;> rfl

/-! ## Statement -/

section Soundness

variable (ch : Channel) (posts : Set (RequestId × MessageData))

/-- A gate that resolved to true is backed by an answer for the data it wrote. -/
def System.Sound (s : System) : Prop :=
  ∀ gate ∈ s.gates, ∀ t, gate.result = some (true, t) →
    ∃ data, (data, true) ∈ s.answered ∧ data.SameRequest gate.data

/-- The page script posts only these requests. -/
def PostsIn (labels : List Label) : Prop :=
  ∀ requestId data, .post requestId data ∈ labels → (requestId, data) ∈ posts

/-- The request ids that the gates of a run generate. -/
def gateIds (labels : List Label) : List RequestId :=
  labels.filterMap fun
    | .gate nonce data => some (ch.generateRequestId nonce data)
    | _ => none

/-- A request posted under the id of a gate is allowed only for the data of the gate. -/
def Unforged : Prop :=
  ∀ requestId data, (requestId, data) ∈ posts →
    ch.disregards (data.onHost ch.hostname) = false →
    ch.answer (data.onHost ch.hostname) = true →
    ∀ nonce data', ch.generateRequestId nonce data' = requestId → data.SameRequest data'

/-! ## The invariant -/

variable {ch posts}

namespace System

variable {s : System}

/-- The requests that the gates wait for. -/
def keys (s : System) : List (RequestId × MessageData) := s.gates.map Gate.key

def Written (posts : Set (RequestId × MessageData)) (s : System)
    (request : RequestId × MessageData) : Prop :=
  request ∈ s.keys ∨ request ∈ posts

variable (ch posts) in
/-- Everything in the system is traced back to a request that was written. -/
structure Traced (s : System) : Prop where
  gates : ∀ gate ∈ s.gates, ∃ nonce, gate.requestId = ch.generateRequestId nonce gate.data
  distinct : (s.gates.map (·.requestId)).Nodup
  bus : ∀ request ∈ s.bus, s.Written posts request
  sessions : ∀ session ∈ s.sessions, ∃ message, s.Written posts (session.origin, message) ∧
    session.data = message.onHost ch.hostname ∧ ch.disregards session.data = false
  port : ∀ requestId, .verdict requestId true ∈ s.port → ∃ message,
    s.Written posts (requestId, message) ∧
      ch.disregards (message.onHost ch.hostname) = false ∧
      ch.answer (message.onHost ch.hostname) = true ∧
      (message.onHost ch.hostname, true) ∈ s.answered
  sound : s.Sound

/-- What is traced stays so while the gates keep what they wait for and the answers stay. -/
theorem Traced.of_keys (h : s.Traced ch posts) {s' : System} (hke : s'.keys = s.keys)
    (hb : ∀ request ∈ s'.bus, s.Written posts request)
    (hss : ∀ session ∈ s'.sessions, ∃ message, s.Written posts (session.origin, message) ∧
      session.data = message.onHost ch.hostname ∧ ch.disregards session.data = false)
    (hp : ∀ requestId, .verdict requestId true ∈ s'.port → ∃ message,
      s.Written posts (requestId, message) ∧
        ch.disregards (message.onHost ch.hostname) = false ∧
        ch.answer (message.onHost ch.hostname) = true ∧
        (message.onHost ch.hostname, true) ∈ s'.answered) (hs : s'.Sound) : s'.Traced ch posts := by
  have hw request : s'.Written posts request ↔ s.Written posts request := by
    unfold Written
    rw [hke]
  have hi : s'.gates.map (·.requestId) = s.gates.map (·.requestId) := by
    have hf := congrArg (List.map Prod.fst) hke
    rw [keys, keys, map_map, map_map] at hf
    exact hf
  refine ⟨?_, hi ▸ h.distinct, ?_, ?_, ?_, hs⟩
  · intro gate hg
    have hm : gate.key ∈ s.keys := hke ▸ mem_map_of_mem hg
    obtain ⟨gate', hg', hk⟩ := mem_map.1 hm
    obtain ⟨n, hn⟩ := h.gates gate' hg'
    have hid : gate'.requestId = gate.requestId := congrArg Prod.fst hk
    have hd : gate'.data = gate.data := congrArg Prod.snd hk
    exact ⟨n, by rw [← hid, hn, hd]⟩
  · simpa only [hw] using hb
  · simpa only [hw] using hss
  · simpa only [hw] using hp

theorem Traced.gate {n : String} {d : MessageData} (h : s.Traced ch posts)
    (hf : ch.generateRequestId n d ∉ s.gates.map (·.requestId)) :
    (s.step ch (.gate n d)).Traced ch posts := by
  have hk : (s.step ch (.gate n d)).keys =
      s.keys ++ [(ch.generateRequestId n d, d)] := by
    simp [step, keys, Gate.key]
  have hw {request} (hr : s.Written posts request) :
      (s.step ch (.gate n d)).Written posts request := by
    rcases hr with hr | hr
    · exact .inl (by rw [hk]; exact mem_append_left _ hr)
    · exact .inr hr
  refine ⟨?_, ?_, ?_, ?_, ?_, ?_⟩
  · intro gate hg
    rcases mem_append.1 hg with hg | hg
    · exact h.gates gate hg
    · cases mem_singleton.1 hg
      exact ⟨n, rfl⟩
  · simp only [step, map_append, map_cons, map_nil]
    rw [← concat_eq_append]
    exact h.distinct.concat hf
  · intro request hr
    rcases mem_append.1 hr with hr | hr
    · exact hw (h.bus request hr)
    · exact .inl (by rw [hk]; exact mem_append_right _ hr)
  · intro session hs
    obtain ⟨message, hm, hres⟩ := h.sessions session hs
    exact ⟨message, hw hm, hres⟩
  · intro requestId hv
    obtain ⟨message, hm, hres⟩ := h.port requestId hv
    exact ⟨message, hw hm, hres⟩
  · intro gate hg t hrs
    rcases mem_append.1 hg with hg | hg
    · exact h.sound gate hg t hrs
    · cases mem_singleton.1 hg
      cases hrs

theorem Traced.post (h : s.Traced ch posts) {d : MessageData} (hp : (requestId, d) ∈ posts) :
    (s.step ch (.post requestId d)).Traced ch posts := by
  refine h.of_keys rfl ?_ h.sessions h.port h.sound
  intro r hr
  rcases mem_append.1 hr with hr | hr
  · exact h.bus r hr
  · cases mem_singleton.1 hr
    exact .inr hp

theorem Traced.deliver (h : s.Traced ch posts) (n : String) (r : Bool) :
    (s.deliver ch n r).Traced ch posts := by
  unfold System.deliver
  split
  · exact h
  · next requestId message bus hb =>
    have hh : s.Written posts (requestId, message) := h.bus _ (by simp [hb])
    have ht : ∀ request ∈ bus, s.Written posts request :=
      fun request hr => h.bus request (by simp [hb, hr])
    dsimp only
    split_ifs with hreach hdisregards
    · refine h.of_keys rfl ht h.sessions ?_ h.sound
      intro requestId' hv
      rcases mem_append.1 hv with hv | hv
      · exact h.port requestId' hv
      · cases mem_singleton.1 hv
    · exact h.of_keys rfl ht h.sessions h.port h.sound
    · refine h.of_keys rfl ht ?_ h.port h.sound
      intro session hs
      rcases mem_append.1 hs with hs | hs
      · exact h.sessions session hs
      · cases mem_singleton.1 hs
        exact ⟨message, hh, rfl, by simpa using hdisregards⟩

theorem mem_onSession {f : Session → Session × List PortMessage} {i : Nat}
    (hf : ∀ session, (f session).1.key = session.key)
    (h : session ∈ (s.onSession i f).sessions) : ∃ b ∈ s.sessions, session.key = b.key := by
  unfold onSession at h
  split at h
  · exact ⟨session, h, rfl⟩
  · next b hb =>
    rcases mem_or_eq_of_mem_set h with hm | rfl
    · exact ⟨session, hm, rfl⟩
    · exact ⟨b, mem_of_getElem? hb, hf b⟩

theorem keys_onSession (i : Nat) (f : Session → Session × List PortMessage) :
    (s.onSession i f).keys = s.keys := by
  unfold onSession
  split <;> rfl

section

variable (h : s.Traced ch posts)
include h

theorem Traced.session_of_key {b : Session} (hb : b ∈ s.sessions) (hk : session.key = b.key) :
    ∃ message, s.Written posts (session.origin, message) ∧
      session.data = message.onHost ch.hostname ∧ ch.disregards session.data = false := by
  have ho : session.origin = b.origin := congrArg Prod.fst hk
  have hd : session.data = b.data := congrArg Prod.snd hk
  rw [ho, hd]
  exact h.sessions b hb

theorem Traced.awaiting (i now : Nat) :
    (s.onSession i (Session.awaitingUser now)).Traced ch posts := by
  refine h.of_keys (keys_onSession i _) ?_ ?_ ?_ ?_
  · unfold onSession
    split <;> exact h.bus
  · intro session hs
    obtain ⟨b, hb, hk⟩ := mem_onSession (fun _ => awaitingUser_key _ _) hs
    exact h.session_of_key hb hk
  · unfold onSession
    split
    · exact h.port
    · intro requestId hv
      rcases mem_append.1 hv with hv | hv
      · exact h.port requestId hv
      · exact absurd hv awaitingUser_not_verdict
  · unfold onSession
    split <;> exact h.sound

theorem Traced.answer (i : Nat) : (s.answerSession ch i).Traced ch posts := by
  unfold answerSession
  split
  · exact h
  · next session hse =>
    have hmm : session ∈ s.sessions := mem_of_getElem? hse
    have hs : s.onSession i (Session.finish (ch.answer session.data)) =
        { s with
          sessions := s.sessions.set i (session.finish (ch.answer session.data)).1
          port := s.port ++ (session.finish (ch.answer session.data)).2 } := by
      simp only [onSession, hse]
    refine h.of_keys (keys_onSession i _) ?_ ?_ ?_ ?_
    · rw [hs]
      exact h.bus
    · intro session' hse'
      obtain ⟨b, hb, hk⟩ := mem_onSession (fun _ => finish_key _ _) hse'
      exact h.session_of_key hb hk
    · intro requestId hv
      rw [hs] at hv
      rcases mem_append.1 hv with hv | hv
      · obtain ⟨message, hm, hsn, ha, hl⟩ := h.port requestId hv
        exact ⟨message, hm, hsn, ha, mem_append_left _ hl⟩
      · obtain ⟨rfl, hva⟩ := finish_true hv
        obtain ⟨message, hm, hd, hsn⟩ := h.sessions session hmm
        refine ⟨message, hm, hd ▸ hsn, hd ▸ hva, mem_append_right _ ?_⟩
        rw [← hd, hva]
        exact mem_singleton.2 rfl
    · intro gate hg t hr
      rw [hs] at hg
      obtain ⟨d, hd, hsa⟩ := h.sound gate hg t hr
      exact ⟨d, mem_append_left _ hd, hsa⟩

theorem Traced.sameRequest {message : MessageData}
    (hu : Unforged ch posts) {gate : Gate} (hg : gate ∈ s.gates)
    (hw : s.Written posts (gate.requestId, message))
    (hs : ch.disregards (message.onHost ch.hostname) = false)
    (ha : ch.answer (message.onHost ch.hostname) = true) : message.SameRequest gate.data := by
  rcases hw with hk | hp
  · obtain ⟨gate', hg', hk⟩ := mem_map.1 hk
    have hi : gate'.requestId = gate.requestId := congrArg Prod.fst hk
    have hd : gate'.data = message := congrArg Prod.snd hk
    cases inj_on_of_nodup_map h.distinct hg' hg hi
    rw [hd]
    exact ⟨rfl, rfl⟩
  · obtain ⟨n, hn⟩ := h.gates gate hg
    exact hu _ message hp hs ha n gate.data hn.symm

theorem Traced.receive (hu : Unforged ch posts) : s.receive.Traced ch posts := by
  unfold System.receive
  split
  · exact h
  · next msg p hp =>
    refine h.of_keys ?_ h.bus h.sessions ?_ ?_
    · simp [keys]
    · intro requestId hv
      exact h.port requestId (by rw [hp]; exact mem_cons_of_mem _ hv)
    · intro gate' hg' t hr
      obtain ⟨gate, hg, rfl⟩ := mem_map.1 hg'
      have hd : (gate.receive s.now msg).data = gate.data :=
        congrArg Prod.snd (gate.receive_key s.now msg)
      rw [hd]
      rcases Gate.receive_eq_true hr with hb | rfl
      · exact h.sound gate hg t hb
      · obtain ⟨message, hw, hsn, ha, hl⟩ :=
          h.port gate.requestId (by rw [hp]; exact mem_cons_self)
        have hs := h.sameRequest hu hg hw hsn ha
        exact ⟨_, hl, MessageData.sameRequest_onHost.2 hs⟩

theorem Traced.tick : s.tick.Traced ch posts := by
  refine h.of_keys ?_ h.bus ?_ ?_ ?_
  · simp [System.tick, keys]
  · intro session' hs'
    obtain ⟨session, hs, rfl⟩ := mem_map.1 hs'
    exact h.session_of_key hs (session.expire_key _)
  · intro requestId hv
    rcases mem_append.1 hv with hv | hv
    · exact h.port requestId hv
    · obtain ⟨session, -, hsn⟩ := mem_flatMap.1 hv
      exact absurd hsn expire_not_true
  · intro gate' hg' t hr
    obtain ⟨gate, hg, rfl⟩ := mem_map.1 hg'
    have hd : (gate.expire (s.now + 1)).data = gate.data :=
      congrArg Prod.snd (gate.expire_key (s.now + 1))
    rw [hd]
    refine h.sound gate hg t ?_
    unfold Gate.expire at hr
    split at hr
    · cases hr
    · exact hr

end

theorem Traced.run {labels : List Label}
    (hu : Unforged ch posts) (h : s.Traced ch posts) (hp : PostsIn posts labels)
    (hf : (s.gates.map (·.requestId) ++ gateIds ch labels).Nodup) :
    (s.run ch labels).Traced ch posts := by
  induction labels generalizing s with
  | nil => exact h
  | cons l labels ih =>
    rw [run_cons]
    have hp' : PostsIn posts labels := fun requestId d hm =>
      hp requestId d (mem_cons_of_mem l hm)
    -- only a gate adds an id, and it is the next one of the run
    have ho (hi : gateIds ch (l :: labels) = gateIds ch labels)
        (hn : (s.step ch l).Traced ch posts)
        (hs : (s.step ch l).gates.map (·.requestId) = s.gates.map (·.requestId)) :
        ((s.step ch l).run ch labels).Traced ch posts := by
      rw [hi, ← hs] at hf
      exact ih hn hp' hf
    cases l with
    | gate n d =>
      have hi : gateIds ch (.gate n d :: labels) =
          ch.generateRequestId n d :: gateIds ch labels := rfl
      rw [hi] at hf
      refine ih (h.gate fun hm => ?_) hp' ?_
      · exact disjoint_of_nodup_append hf hm mem_cons_self
      · simpa [step] using hf
    | post requestId d =>
      exact ho rfl (h.post (hp requestId d mem_cons_self)) rfl
    | deliver n r =>
      refine ho rfl (h.deliver n r) ?_
      simp only [step, System.deliver]
      split
      · rfl
      · split_ifs <;> rfl
    | awaiting i =>
      refine ho rfl (h.awaiting i s.now) ?_
      simp only [step, onSession]
      split <;> rfl
    | answer i =>
      refine ho rfl (h.answer i) ?_
      simp only [step, answerSession, onSession]
      split <;> rfl
    | receive =>
      refine ho rfl (h.receive hu) ?_
      simp only [step, System.receive]
      split
      · rfl
      · next msg p _ =>
        rw [map_map]
        exact map_congr_left fun gate _ => congrArg Prod.fst (gate.receive_key s.now msg)
    | tick =>
      refine ho rfl h.tick ?_
      simp only [step, System.tick, map_map]
      exact map_congr_left fun gate _ => congrArg Prod.fst (gate.expire_key (s.now + 1))

theorem traced_empty : ({} : System).Traced ch posts :=
  ⟨by simp, by simp, by simp, by simp, by simp, by simp [Sound]⟩

end System

theorem forged_run (ch : Channel) (n : String) (d d' : MessageData)
    (hi : ch.generateRequestId n d' = requestId) (hs : ch.disregards (d.onHost ch.hostname) = false)
    (ha : ch.answer (d.onHost ch.hostname) = true) :
    (({} : System).run ch [.post requestId d, .gate n d', .deliver "" true, .answer 0,
        .receive]).gates = [⟨requestId, d', phase1Ms, some (true, 0)⟩] ∧
      (({} : System).run ch [.post requestId d, .gate n d', .deliver "" true, .answer 0,
        .receive]).answered = [(d.onHost ch.hostname, true)] := by
  simp [System.step, System.deliver, hs, System.answerSession, System.onSession, Session.finish, ha,
    System.receive, Gate.receive, PortMessage.requestId, hi]

/-- In every run in which the page posts only requests from `posts`, a gate resolves to true
only on an answer for its own data, exactly when no such request is a forgery. -/
theorem allow_belongs_iff :
    (∀ labels, PostsIn posts labels → (gateIds ch labels).Nodup →
      (({} : System).run ch labels).Sound) ↔ Unforged ch posts := by
  constructor
  · intro hso requestId data hps hsn han nonce data' hi
    obtain ⟨hg, ha⟩ := forged_run ch nonce data data' hi hsn han
    have hr := hso [.post requestId data, .gate nonce data', .deliver "" true, .answer 0,
      .receive] (by intro requestId' data'' hm; simp at hm; rwa [hm.1, hm.2])
      (by simp [gateIds])
    obtain ⟨data'', hl, hs⟩ := hr _ (by rw [hg]; exact mem_singleton.2 rfl) 0 rfl
    rw [ha, mem_singleton] at hl
    cases hl
    exact hs
  · intro hu labels hp hn
    exact (System.traced_empty.run hu hp (by simpa using hn)).sound

end Soundness

/-! A page that asks for a transfer to an attacker and posts a harmless request under the
same id. -/

section Sample

def transfer (to_ : String) : MessageData := ⟨"transaction", "dapp.example", .str to_⟩

/-- The service worker allows transfers to the owner only. -/
def ownerOnly : Channel where
  objectHash data := toString (repr data.fields)
  hostname := "dapp.example"
  disregards _ := false
  answer data := data.fields.asStr == some "owner"

/-- The gate of the transfer to the attacker resolves to true, and the only answer that the
service worker gave is about the other one. -/
theorem allow_of_other_request :
    ¬ (({} : System).run ownerOnly
      [.post (ownerOnly.generateRequestId "nonce" (transfer "attacker")) (transfer "owner"),
        .gate "nonce" (transfer "attacker"), .deliver "" true, .answer 0, .receive]).Sound := by
  intro hso
  obtain ⟨hg, ha⟩ := forged_run ownerOnly "nonce" (transfer "owner")
    (transfer "attacker") rfl rfl rfl
  obtain ⟨data, hl, hs⟩ := hso _ (by rw [hg]; exact mem_singleton.2 rfl) 0 rfl
  rw [ha, mem_singleton] at hl
  cases hl
  exact absurd (Json.str.inj hs.2) (by decide)

end Sample

end Dambi.Extension
