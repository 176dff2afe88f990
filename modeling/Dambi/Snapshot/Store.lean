import Dambi.Bundle.Semantics

/-!
# The snapshot store

`snapshot/store.rs`: one decoder, a replaceable policy and staged refreshes of
it. `Arc<Lifecycle>` is shared by a store, its tickets, its prepared candidates
and every snapshot it hands out; here a handle is a `LifecycleId` and the flag
behind it is in `Lifecycles`, which every operation is given. Pointer equality
of two handles is equality of their ids.
-/

namespace Dambi

open Fallible

/-! ## Errors and inputs -/

inductive SnapshotErrorKind where
  | invalidConfig
  | invalidPolicyBundle
  | invalidSignature
  | unsupportedRegistryRef
  | policyScopeMismatch
  | policyExpired
  | policySequenceRejected
  | invalidDecoderSnapshot
  | decoderIntegrityMismatch
  | limitExceeded
  | disposed
  | aborted
deriving DecidableEq, Repr

def SnapshotErrorKind.code : SnapshotErrorKind → String
  | .invalidConfig => "INVALID_CONFIG"
  | .invalidPolicyBundle => "INVALID_POLICY_BUNDLE"
  | .invalidSignature => "INVALID_SIGNATURE"
  | .unsupportedRegistryRef => "UNSUPPORTED_REGISTRY_REF"
  | .policyScopeMismatch => "POLICY_SCOPE_MISMATCH"
  | .policyExpired => "POLICY_EXPIRED"
  | .policySequenceRejected => "POLICY_SEQUENCE_REJECTED"
  | .invalidDecoderSnapshot => "INVALID_DECODER_SNAPSHOT"
  | .decoderIntegrityMismatch => "DECODER_INTEGRITY_MISMATCH"
  | .limitExceeded => "LIMIT_EXCEEDED"
  | .disposed => "DISPOSED"
  | .aborted => "ABORTED"

structure SnapshotError where
  kind : SnapshotErrorKind
  message : String
deriving DecidableEq, Repr

/-- `From<PolicySemanticError>`. -/
def SnapshotError.ofSemantic (error : PolicySemanticError) : SnapshotError where
  kind := match error.kind with
    | .invalidConfig => .invalidConfig
    | .invalidPolicyBundle => .invalidPolicyBundle
    | .unsupportedRegistryRef => .unsupportedRegistryRef
    | .policyScopeMismatch => .policyScopeMismatch
    | .policyExpired => .policyExpired
    | .policySequenceRejected => .policySequenceRejected
    | .limitExceeded => .limitExceeded
  message := s!"{error.path}: {error.message}"

def disposedError : SnapshotError := ⟨.disposed, "snapshot Store has been disposed"⟩

inductive KeyRole where
  | policy
  | decoder
  | scam
deriving DecidableEq, Repr

structure VerificationKey where
  keyId : String
  role : KeyRole
  publicKeySpkiBase64 : String
deriving DecidableEq, Repr

structure SignedPolicyInput where
  payload : List UInt8
  signature : String
  keyId : Option String

inductive DecoderInput where
  | pinned (artifact : List UInt8) (expectedDigest : String)
  | signedBundle (bundle : List UInt8) (signature : String) (keyId : Option String)
      (expectedBundleDigest : String)

structure SnapshotStoreConfig where
  keys : List VerificationKey
  policy : PolicyValidationConfig
  maxPolicyBytes : Nat
  maxDecoderBytes : Nat

/-- What the store trusts: key loading, decoder preparation and the
authentication and validation of a policy input. `δ` is a prepared decoder. -/
structure Trust (δ : Type) where
  trustedKeys : List VerificationKey → Except SnapshotError Unit
  prepareDecoder : DecoderInput → List VerificationKey → Nat → Except SnapshotError δ
  validateInput : List VerificationKey → PolicyValidationConfig → Nat → SignedPolicyInput →
    Nat → Except SnapshotError ValidatedPolicyBundle

/-- `validate_input`: parse, verify, then the local acceptance rules. -/
def validateInput (parse : SignedPolicyInput → Nat → Except SnapshotError VerifiedPolicyBundle)
    (verify : List VerificationKey → VerifiedPolicyBundle → Except SnapshotError Unit)
    (engines : Engines) (fromValue : Json → Except String ManifestV2)
    (keys : List VerificationKey) (config : PolicyValidationConfig) (maxPolicyBytes : Nat)
    (input : SignedPolicyInput) (now : Nat) : Except SnapshotError ValidatedPolicyBundle := do
  let parsed ← parse input maxPolicyBytes
  verify keys parsed
  (validatePolicyBundle engines fromValue parsed config now).mapError .ofSemantic

/-! ## State -/

abbrev LifecycleId := Nat

abbrev Lifecycles := LifecycleId → Bool

variable {δ : Type}

structure Snapshot (δ : Type) where
  policy : ValidatedPolicyBundle
  decoder : δ
  lifecycle : LifecycleId

def Trust.Validated (trust : Trust δ) (policy : ValidatedPolicyBundle) : Prop :=
  ∃ keys config maxPolicyBytes input now,
    trust.validateInput keys config maxPolicyBytes input now = .ok policy

structure RefreshTicket where
  owner : LifecycleId
  generation : Nat
deriving DecidableEq, Repr

structure PreparedRefresh where
  owner : LifecycleId
  generation : Nat
  policy : ValidatedPolicyBundle

def PreparedRefresh.ticket (prepared : PreparedRefresh) : RefreshTicket :=
  ⟨prepared.owner, prepared.generation⟩

structure StoreState (δ : Type) where
  keys : List VerificationKey
  policyConfig : PolicyValidationConfig
  maxPolicyBytes : Nat
  active : Snapshot δ

structure SnapshotStore (δ : Type) where
  lifecycle : LifecycleId
  generation : Nat
  pending : Option Nat
  state : Option (StoreState δ)

def ensureLive (lifecycles : Lifecycles) (id : LifecycleId) : Except SnapshotError Unit :=
  require (lifecycles id = false) disposedError

def Snapshot.ensureUsable (snapshot : Snapshot δ) (lifecycles : Lifecycles) (now : Nat) :
    Except SnapshotError Unit := do
  ensureLive lifecycles snapshot.lifecycle
  (snapshot.policy.ensureFresh now).mapError .ofSemantic

/-! ## Operations -/

def checkByteLimit (limit : Nat) (name : String) : Except SnapshotError Unit :=
  require (limit ≠ 0 ∧ limit ≤ maxSafeInteger)
    ⟨.invalidConfig, s!"{name} must be a positive JS-safe integer"⟩

namespace SnapshotStore

/-- `SnapshotStore::new`, with the fresh lifecycle it allocates. -/
def new (trust : Trust δ) (lifecycle : LifecycleId) (config : SnapshotStoreConfig)
    (decoderInput : DecoderInput) (initial : SignedPolicyInput) (now : Nat) :
    Except SnapshotError (SnapshotStore δ) := do
  checkByteLimit config.maxPolicyBytes "maxPolicyBytes"
  checkByteLimit config.maxDecoderBytes "maxDecoderBytes"
  trust.trustedKeys config.keys
  let decoder ← trust.prepareDecoder decoderInput config.keys config.maxDecoderBytes
  let policy ← trust.validateInput config.keys config.policy config.maxPolicyBytes initial now
  .ok {
    lifecycle
    generation := 0
    pending := none
    state := some {
      keys := config.keys
      policyConfig := config.policy
      maxPolicyBytes := config.maxPolicyBytes
      active := ⟨policy, decoder, lifecycle⟩ } }

variable (lifecycles : Lifecycles) (store : SnapshotStore δ)

def isDisposed : Bool := lifecycles store.lifecycle

def liveState : Except SnapshotError (StoreState δ) := do
  ensureLive lifecycles store.lifecycle
  match store.state with
  | none => .error disposedError
  | some state => .ok state

/-- `check_attempt`, with the live state it has established. -/
def checkAttempt (ticket : RefreshTicket) : Except SnapshotError (StoreState δ) := do
  let state ← store.liveState lifecycles
  require (ticket.owner = store.lifecycle ∧ store.pending = some ticket.generation) ⟨.aborted,
    "refresh attempt is foreign, superseded, cancelled, or already finished"⟩
  .ok state

def current (now : Nat) : Except SnapshotError (Snapshot δ) := do
  let state ← store.liveState lifecycles
  state.active.ensureUsable lifecycles now
  .ok state.active

def beginRefresh : Except SnapshotError RefreshTicket × SnapshotStore δ :=
  match store.liveState lifecycles with
  | .error error => (.error error, store)
  | .ok _ =>
    if store.generation + 1 < 2 ^ 64 then
      (.ok ⟨store.lifecycle, store.generation + 1⟩,
        { store with generation := store.generation + 1, pending := some (store.generation + 1) })
    else (.error ⟨.invalidConfig, "refresh generation exhausted"⟩, store)

def prepareRefresh (trust : Trust δ) (ticket : RefreshTicket) (policy : SignedPolicyInput)
    (now : Nat) : Except SnapshotError PreparedRefresh := do
  let state ← store.checkAttempt lifecycles ticket
  let policy ← trust.validateInput state.keys state.policyConfig state.maxPolicyBytes policy now
  .ok ⟨store.lifecycle, ticket.generation, policy⟩

/-- `commit_refresh`. The attempt is finished even where the update is refused. -/
def commitRefresh (prepared : PreparedRefresh) (now : Nat) :
    Except SnapshotError PolicyUpdate × SnapshotStore δ :=
  match store.checkAttempt lifecycles prepared.ticket with
  | .error error => (.error error, store)
  | .ok state =>
    match prepared.policy.checkUpdate (some state.active.policy) now with
    | .error error => (.error (.ofSemantic error), { store with pending := none })
    | .ok .unchanged => (.ok .unchanged, { store with pending := none })
    | .ok .replace =>
      let active := ⟨prepared.policy, state.active.decoder, store.lifecycle⟩
      (.ok .replace, { store with pending := none, state := some { state with active } })

def cancelRefresh (ticket : RefreshTicket) : Except SnapshotError Unit × SnapshotStore δ :=
  match store.checkAttempt lifecycles ticket with
  | .error error => (.error error, store)
  | .ok _ => (.ok (), { store with pending := none })

/-- `dispose`, with the flag it raises. -/
def dispose : Lifecycles × SnapshotStore δ :=
  (Function.update lifecycles store.lifecycle true, { store with pending := none, state := none })

/-! ## What each operation does -/

section Spec

variable {lifecycles : Lifecycles} {store : SnapshotStore δ}

theorem liveState_eq_ok {state : StoreState δ} :
    store.liveState lifecycles = .ok state ↔
      lifecycles store.lifecycle = false ∧ store.state = some state := by
  simp only [liveState, ensureLive, bind_eq_ok, require_eq_ok]
  cases store.state with
  | none => simp
  | some o => simp

theorem checkAttempt_eq_ok {ticket : RefreshTicket} {s : StoreState δ} :
    store.checkAttempt lifecycles ticket = .ok s ↔
      (lifecycles store.lifecycle = false ∧ store.state = some s) ∧
        ticket.owner = store.lifecycle ∧ store.pending = some ticket.generation := by
  simp only [checkAttempt, bind_eq_ok, liveState_eq_ok, require_eq_ok, Except.ok.injEq]
  constructor
  · intro ⟨_, hl, _, ht, heq⟩
    subst heq
    exact ⟨hl, ht⟩
  · intro ⟨hl, ht⟩
    exact ⟨s, hl, (), ht, rfl⟩

variable (lifecycles store) in
theorem beginRefresh_cases :
    (∃ error, store.beginRefresh lifecycles = (.error error, store)) ∨
      lifecycles store.lifecycle = false ∧ store.generation + 1 < 2 ^ 64 ∧
        store.beginRefresh lifecycles = (.ok ⟨store.lifecycle, store.generation + 1⟩,
          { store with
            generation := store.generation + 1
            pending := some (store.generation + 1) }) := by
  unfold beginRefresh
  cases hl : store.liveState lifecycles with
  | error error => exact .inl ⟨error, rfl⟩
  | ok s =>
    by_cases hr : store.generation + 1 < 2 ^ 64
    · refine .inr ⟨(liveState_eq_ok.1 hl).1, hr, ?_⟩
      simp only [hr, if_true]
    · refine .inl ⟨⟨.invalidConfig, "refresh generation exhausted"⟩, ?_⟩
      simp only [hr, if_false]

variable (lifecycles store) in
/-- A commit is refused without effect, or it finishes the pending attempt; then only
the answer of the comparison with the active policy decides. -/
theorem commitRefresh_cases (p : PreparedRefresh) (now : Nat) :
    (∃ error, store.commitRefresh lifecycles p now = (.error error, store)) ∨
      ∃ state, store.checkAttempt lifecycles p.ticket = .ok state ∧
        ((∃ error, store.commitRefresh lifecycles p now =
            (.error error, { store with pending := none })) ∨
          p.policy.checkUpdate (some state.active.policy) now = .ok .unchanged ∧
            store.commitRefresh lifecycles p now =
              (.ok .unchanged, { store with pending := none }) ∨
          p.policy.checkUpdate (some state.active.policy) now = .ok .replace ∧
            store.commitRefresh lifecycles p now = (.ok .replace, { store with
              pending := none
              state := some { state with
                active := ⟨p.policy, state.active.decoder, store.lifecycle⟩ } })) := by
  unfold commitRefresh
  cases ha : store.checkAttempt lifecycles p.ticket with
  | error error => exact .inl ⟨error, rfl⟩
  | ok state =>
    refine .inr ⟨state, rfl, ?_⟩
    cases hu : p.policy.checkUpdate (some state.active.policy) now with
    | error error =>
      simp only [hu]
      exact .inl ⟨_, rfl⟩
    | ok update =>
      cases update with
      | unchanged =>
        simp only [hu]
        exact .inr (.inl ⟨trivial, trivial⟩)
      | replace =>
        simp only [hu]
        exact .inr (.inr ⟨trivial, trivial⟩)

variable (lifecycles store) in
theorem cancelRefresh_cases (ticket : RefreshTicket) :
    (∃ error, store.cancelRefresh lifecycles ticket = (.error error, store)) ∨
      store.cancelRefresh lifecycles ticket = (.ok (), { store with pending := none }) := by
  unfold cancelRefresh
  cases store.checkAttempt lifecycles ticket with
  | error error => exact .inl ⟨error, rfl⟩
  | ok s => exact .inr rfl

theorem current_eq_ok {s : Snapshot δ} {now : Nat} :
    store.current lifecycles now = .ok s ↔
      (∃ st, (lifecycles store.lifecycle = false ∧ store.state = some st) ∧
        st.active = s) ∧ s.ensureUsable lifecycles now = .ok () := by
  simp only [current, bind_eq_ok, liveState_eq_ok, Except.ok.injEq]
  constructor
  · intro ⟨st, hl, _, hu, heq⟩
    subst heq
    exact ⟨⟨st, hl, rfl⟩, hu⟩
  · intro ⟨⟨st, hl, heq⟩, hu⟩
    subst heq
    exact ⟨st, hl, (), hu, rfl⟩

end Spec

/-! ## Renewal -/

/-- The store is the same one, and its active policy is as before or newly validated. -/
structure Renews (trust : Trust δ) (store store' : SnapshotStore δ) : Prop where
  lifecycle : store'.lifecycle = store.lifecycle
  active : ∀ state', store'.state = some state' →
    (∃ state, store.state = some state ∧ state'.active = state.active) ∨
      trust.Validated state'.active.policy

namespace Renews

variable {trust : Trust δ} {a b c : SnapshotStore δ}

theorem of_state_eq (hl : b.lifecycle = a.lifecycle) (hs : b.state = a.state) : Renews trust a b :=
  ⟨hl, fun state' h => .inl ⟨state', hs ▸ h, rfl⟩⟩

theorem refl (a : SnapshotStore δ) : Renews trust a a := of_state_eq rfl rfl

theorem trans (h : Renews trust a b) (h' : Renews trust b c) : Renews trust a c := by
  refine ⟨h'.lifecycle.trans h.lifecycle, fun s'' hc => ?_⟩
  obtain ⟨s', hb, heq⟩ | hnew := h'.active s'' hc
  · rw [heq]
    exact h.active s' hb
  · exact .inr hnew

end Renews

section Renewal

variable (trust : Trust δ) (lifecycles : Lifecycles) (store : SnapshotStore δ)

theorem beginRefresh_renews : Renews trust store (store.beginRefresh lifecycles).2 := by
  obtain ⟨e, h⟩ | ⟨-, -, h⟩ := beginRefresh_cases lifecycles store
  · rw [h]
    exact .refl store
  · rw [h]
    exact .of_state_eq rfl rfl

theorem cancelRefresh_renews (ticket : RefreshTicket) :
    Renews trust store (store.cancelRefresh lifecycles ticket).2 := by
  obtain ⟨e, h⟩ | h := cancelRefresh_cases lifecycles store ticket
  · rw [h]
    exact .refl store
  · rw [h]
    exact .of_state_eq rfl rfl

variable {trust} in
theorem commitRefresh_renews {p : PreparedRefresh} (hp : trust.Validated p.policy) (now : Nat) :
    Renews trust store (store.commitRefresh lifecycles p now).2 := by
  obtain ⟨e, h⟩ | ⟨s, -, ⟨e, h⟩ | ⟨-, h⟩ | ⟨-, h⟩⟩ := commitRefresh_cases lifecycles store p now
  · rw [h]
    exact .refl store
  · rw [h]
    exact .of_state_eq rfl rfl
  · rw [h]
    exact .of_state_eq rfl rfl
  · rw [h]
    refine ⟨rfl, fun s' hs => .inr ?_⟩
    cases hs
    exact hp

end Renewal

end SnapshotStore

theorem Snapshot.ensureUsable_eq_ok {lifecycles : Lifecycles} {now : Nat} {u : Unit}
    {s : Snapshot δ} :
    s.ensureUsable lifecycles now = .ok u ↔
      lifecycles s.lifecycle = false ∧ s.policy.Fresh now := by
  simp only [ensureUsable, ensureLive, bind_eq_ok, require_eq_ok, mapError_eq_ok,
    ValidatedPolicyBundle.ensureFresh_eq_ok]
  exact ⟨fun ⟨_, h⟩ => h, fun h => ⟨(), h⟩⟩

end Dambi
