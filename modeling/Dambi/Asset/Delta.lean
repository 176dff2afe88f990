import Dambi.Asset.State
import Dambi.Lib.Fallible

/-!
# Applying and merging state deltas

`helpers/delta.rs`: `apply_delta` plays the changes of a delta onto a wallet
group by group, tokens first and gas last; `merge_delta` concatenates two
deltas. Positions are patched through their JSON form.
-/

namespace Dambi.Asset

open FixedWidth Fallible

/-! ## Errors -/

inductive ReducerError where
  | unknownAction (action : String)
  | missingField (field : String)
  | tokenNotFound (key : TokenKey)
  | positionNotFound (id : String)
  | invariant (message : String)
  | unsupportedProtocol (action protocol : String)
deriving DecidableEq

/-- How a reducer stops without a result: with an error, or by a panic of the process. -/
inductive Stop where
  | error (e : ReducerError)
  | panic (message : String)
deriving DecidableEq

abbrev ReducerResult (α : Type) := Except Stop α

variable {α : Type}

def fail (e : ReducerError) : ReducerResult α := .error (.error e)

/-- `ReducerError::Invariant`, the error of every broken precondition. -/
def broken (message : String) : ReducerResult α := fail (.invariant message)

/-- `Option::ok_or_else(..)?`. -/
def orFail (o : Option α) (e : ReducerError) : ReducerResult α :=
  o.elim (fail e) .ok

def orBroken (o : Option α) (message : String) : ReducerResult α :=
  orFail o (.invariant message)

/-- `if !c { return Err(Invariant(message)) }`. -/
def ensure (c : Prop) [Decidable c] (message : String) : ReducerResult Unit :=
  require c (.error (.invariant message))

variable {e : ReducerError} {a : α}

theorem orFail_eq_ok {o : Option α} : orFail o e = .ok a ↔ o = some a :=
  elim_error_eq_ok

theorem fail_ne_ok : fail e ≠ .ok a := nofun

/-! ## Tokens -/

def u256ToSignedSaturating (v : U256) : I256 := v.toSigned

def signedToU256Saturating (v : I256) : U256 := v.toUnsigned

def approvalScopeForSet : TokenKey → ApprovalScope
  | .native _ => .erc20
  | .erc20 _ _ => .erc20
  | .erc721 _ _ _ => .setForAll
  | .erc1155 _ _ _ => .setForAll

def contractAddrKey (key : TokenKey) : ReducerResult ContractAddrKey := do
  let addr ← orBroken key.contract s!"token key {key.debug} has no contract address"
  return (key.chain, addr)

def mintStubHolding (key : TokenKey) (kindHint : TokenKind) : TokenHolding where
  key := key
  kind := kindHint
  symbol := ""
  decimals := 0
  balance := .fungible 0
  committed := .fungible 0
  approvedTo := none
  priceUsd := none
  metadata := none
  valueUsd := none
  lastSyncedAt := 0
  primitivesSource :=
    .onchainView key.chain (key.contract.getD 0) "balanceOf(address)" "erc20_balance"

variable (next : WalletState) (key : TokenKey)

/-- `tokens.get_mut(key)` with the error of a missing holding, and a change of the holding. -/
def changeHolding
    (change : TokenHolding → ReducerResult TokenHolding) : ReducerResult WalletState := do
  let holding ← orFail (next.tokens.lookup key) (.tokenNotFound key)
  let holding ← change holding
  return { next with tokens := next.tokens.insert key holding }

/-- The balance after a signed change. The current balance and the sum saturate. -/
def addToBalance (d : I256) (holding : TokenHolding) : ReducerResult TokenHolding := do
  let current ← orBroken holding.balance.asFungible
    s!"BalanceDelta on non-fungible holding {key.debug}"
  let signed := (u256ToSignedSaturating current).saturatingAdd d
  ensure (signed.isNegative = false)
    s!"balance underflow applying delta to {key.debug}: current {current}, delta {d}"
  return { holding with balance := .fungible (signedToU256Saturating signed) }

def applyBalanceDelta (d : I256) : ReducerResult WalletState :=
  changeHolding next key (addToBalance key d)

def applyApprovalSet (spender : Address)
    (allowance : AllowanceSpec) : ReducerResult WalletState := do
  match approvalScopeForSet key with
  | .erc20 =>
    let addrKey ← contractAddrKey key
    let spenders := (next.approvals.erc20.lookup addrKey).getD ∅
    let erc20 := next.approvals.erc20.insert addrKey (spenders.insert spender allowance)
    return { next with approvals := { next.approvals with erc20 } }
  | .setForAll =>
    let addrKey ← contractAddrKey key
    let spenders := (next.approvals.setForAll.lookup addrKey).getD ∅
    let setForAll := next.approvals.setForAll.insert addrKey (insert spender spenders)
    return { next with approvals := { next.approvals with setForAll } }
  | .permit2 => broken (unroutable "Permit2")
  | .erc721Token => broken (unroutable "Erc721Token")
where
  unroutable (scope : String) : String :=
    s!"ApprovalSet scope {scope} cannot be inferred from key {key.debug}; add an explicit " ++
      "scope field on TokenChange::ApprovalSet to route Permit2 / Erc721Token"

/-- The map without an entry of an inner collection, and without the collection when it is
left empty. -/
def pruned {K V : Type} [DecidableEq K] [DecidableEq V] (map : BTreeMap K V) (key : K) (empty : V)
    (remove : V → V) : BTreeMap K V :=
  match map.lookup key with
  | none => map
  | some inner => if remove inner = empty then map.erase key else map.insert key (remove inner)

def applyApprovalRevoke (spender : Address) : ApprovalScope → ReducerResult WalletState
  | .erc20 => do
    let addrKey ← contractAddrKey key
    let erc20 := pruned next.approvals.erc20 addrKey ∅ (·.erase spender)
    return { next with approvals := { next.approvals with erc20 } }
  | .setForAll => do
    let addrKey ← contractAddrKey key
    let setForAll := pruned next.approvals.setForAll addrKey ∅ (·.erase spender)
    return { next with approvals := { next.approvals with setForAll } }
  | .permit2 => do
    let (chain, addr) ← contractAddrKey key
    let permit2 := next.approvals.permit2.erase (chain, addr, spender)
    return { next with approvals := { next.approvals with permit2 } }
  | .erc721Token =>
    changeHolding next key fun holding => return { holding with approvedTo := none }

def applyTokenChange : TokenChange → ReducerResult WalletState
  | .balanceDelta key d => applyBalanceDelta next key d
  | .approvalSet key spender allowance => applyApprovalSet next key spender allowance
  | .approvalRevoke key spender scope => applyApprovalRevoke next key spender scope
  | .erc721ApprovedTo key spender =>
    changeHolding next key fun holding => return { holding with approvedTo := spender }
  | .mint key kindHint =>
    match next.tokens.lookup key with
    | some _ => return next
    | none => return { next with tokens := next.tokens.insert key (mintStubHolding key kindHint) }

/-! ## Positions -/

/-- The JSON form of positions: `serde_json::to_value` and `from_value` at `Position`, the text of
a JSON value, and the `Debug` form of a kind. -/
structure PositionCodec where
  toValue : Position → Except String Json
  fromValue : Json → Except String Position
  display : Json → String
  debugKind : PositionKind → String
  fromValue_toValue : ∀ position, ∃ value,
    toValue position = .ok value ∧ fromValue value = .ok position

noncomputable def positionNumber (position : Position) : Json :=
  .int (Classical.choose (exists_injective_nat Position) position)

theorem positionNumber_injective : Function.Injective positionNumber := fun _ _ h =>
  Classical.choose_spec (exists_injective_nat Position) (Int.ofNat.inj (Json.int.inj h))

/-- A JSON form of positions: each is written as its number. -/
noncomputable def PositionCodec.numbered : PositionCodec where
  toValue position := .ok (positionNumber position)
  fromValue value := open Classical in
    if h : ∃ position, value = positionNumber position then .ok (Classical.choose h)
    else .error "not the number of a position"
  display _ := ""
  debugKind _ := ""
  fromValue_toValue position := by
    have hex : ∃ p, positionNumber position = positionNumber p := ⟨position, rfl⟩
    have heq := positionNumber_injective (Classical.choose_spec hex)
    exact ⟨_, rfl, (dif_pos hex).trans (congrArg Except.ok heq.symm)⟩

/-- `.map_err(|e| Invariant(format!("{label}: {e}")))`. -/
def described (label : String) : Except String α → ReducerResult α
  | .ok a => .ok a
  | .error e => broken s!"{label}: {e}"

theorem described_eq_ok {l : String} {x : Except String α} : described l x = .ok a ↔ x = .ok a := by
  cases x <;> simp [described, broken, fail]

/-- `iter_mut().find(..)` with the error of a missing element, and a change of the element. -/
def changeFirst {α : Type} (p : α → Bool) (missing : ReducerError) (change : α → ReducerResult α) :
    List α → ReducerResult (List α)
  | [] => fail missing
  | x :: xs =>
    if p x then do return (← change x) :: xs
    else do return x :: (← changeFirst p missing change xs)

/-- `retain(|x| !p(x))` with the error of a list that did not get shorter. -/
def removeAll (p : α → Bool) (missing : ReducerError) (xs : List α) : ReducerResult (List α) :=
  let kept := xs.filter (!p ·)
  if kept.length = xs.length then fail missing else .ok kept

section Positions

variable (codec : PositionCodec)

def applyPositionPatch (patch : PositionPatch) (target : Position) : ReducerResult Position :=
  match patch.fields.get? "after" with
  | some after =>
    described "PositionPatch.after did not deserialise as Position" (codec.fromValue after)
  | none => do
    let asJson ← described "Position serialise failed" (codec.toValue target)
    let targetObj ← orBroken asJson.asObject "Position did not serialise as JSON object"
    let patchObj ← orBroken patch.fields.asObject
      ("PositionPatch.fields must be a JSON object, got " ++ codec.display patch.fields)
    let merged := patchObj.foldl (fun obj (key, value) => Json.insertField key value obj) targetObj
    described "Position re-deserialise failed" (codec.fromValue (.obj merged))

def changePositions (positions : List Position) : PositionChange → ReducerResult (List Position)
  | .opened position => .ok (positions ++ [position])
  | .update id patch =>
    changeFirst (·.id = id) (.positionNotFound id) (applyPositionPatch codec patch) positions
  | .close id => removeAll (·.id = id) (.positionNotFound id) positions

def applyPositionChange (next : WalletState) (pc : PositionChange) : ReducerResult WalletState := do
  return { next with positions := ← changePositions codec next.positions pc }

end Positions

/-! ## Pending signatures -/

/-- What a change does to the list of pending signatures. An update keeps everything but the
status; the partial fill is dropped. -/
def changePending (pending : List PendingTx) : PendingChange → ReducerResult (List PendingTx)
  | .add tx => .ok (pending ++ [tx])
  | .update id status _ =>
    changeFirst (·.id = id) (.invariant s!"pending id {id} not found for update")
      (fun tx => return { tx with lifecycle := { tx.lifecycle with status } }) pending
  | .remove id _ =>
    removeAll (·.id = id) (.invariant s!"pending id {id} not found for remove") pending

def applyPendingChange (next : WalletState) (pc : PendingChange) : ReducerResult WalletState := do
  return { next with pending := ← changePending next.pending pc }

/-! ## Gas -/

def chargeGas (key : TokenKey) (amount : U256) (holding : TokenHolding) :
    ReducerResult TokenHolding := do
  let current ← orBroken holding.balance.asFungible
    s!"gas charged against non-fungible holding {key.debug}"
  let nextAmount ← orBroken (current.checkedSub amount)
    s!"gas underflow on {key.debug}: current {current}, gas {amount}"
  return { holding with balance := .fungible nextAmount }

def applyGasPaid (next : WalletState) (token : TokenRef) (amount : U256) :
    ReducerResult WalletState :=
  changeHolding next token.key (chargeGas token.key amount)

def applyGas (next : WalletState) : Option (TokenRef × U256) → ReducerResult WalletState
  | none => .ok next
  | some (token, amount) => applyGasPaid next token amount

/-! ## Deltas -/

def applyDelta (codec : PositionCodec) (state : WalletState) (delta : StateDelta) :
    ReducerResult WalletState := do
  let next ← delta.tokenChanges.foldlM applyTokenChange state
  let next ← delta.positionChanges.foldlM (applyPositionChange codec) next
  let next ← delta.pendingChanges.foldlM applyPendingChange next
  applyGas next delta.gasPaid

def mergeGas : Option (TokenRef × U256) → Option (TokenRef × U256) →
    ReducerResult (Option (TokenRef × U256))
  | none, gas => .ok gas
  | some gas, none => .ok (some gas)
  | some (tokA, amtA), some (tokB, amtB) => do
    ensure (tokA.key = tokB.key)
      s!"merge_delta: incompatible gas tokens {tokA.key.debug} vs {tokB.key.debug}"
    return some (tokA, amtA.saturatingAdd amtB)

def mergeDelta (a b : StateDelta) : ReducerResult StateDelta := do
  let gasPaid ← mergeGas a.gasPaid b.gasPaid
  return {
    tokenChanges := a.tokenChanges ++ b.tokenChanges
    positionChanges := a.positionChanges ++ b.positionChanges
    pendingChanges := a.pendingChanges ++ b.pendingChanges
    gasPaid }

/-! ## What each group of changes reads and writes -/

def WalletState.withRest (s : WalletState) (positions : List Position)
    (pending : List PendingTx) : WalletState :=
  { s with positions, pending }

section Groups

variable {codec : PositionCodec} {s s' t : WalletState} {d : StateDelta}
  (ps : List Position) (qs : List PendingTx)

theorem changeHolding_withRest (key : TokenKey)
    (change : TokenHolding → ReducerResult TokenHolding) :
    changeHolding (s.withRest ps qs) key change =
      (·.withRest ps qs) <$> changeHolding s key change := by
  simp only [changeHolding, WalletState.withRest]
  cases s.tokens.lookup key with
  | none => rfl
  | some ho =>
    simp only [orFail, Option.elim_some, ok_bind]
    cases change ho <;> rfl

/-- A token change neither reads nor writes positions and pending signatures. -/
theorem applyTokenChange_withRest (tc : TokenChange) :
    applyTokenChange (s.withRest ps qs) tc = (·.withRest ps qs) <$> applyTokenChange s tc := by
  cases tc with
  | balanceDelta key d | erc721ApprovedTo key sp => exact changeHolding_withRest ps qs key _
  | approvalSet key sp allowance => cases key <;> rfl
  | approvalRevoke key sp sc =>
    cases sc with
    | erc721Token => exact changeHolding_withRest ps qs key _
    | _ => cases key <;> rfl
  | mint key kh =>
    simp only [applyTokenChange, WalletState.withRest]
    cases s.tokens.lookup key <;> rfl

def applyAssets (s : WalletState) (d : StateDelta) : ReducerResult WalletState := do
  let t ← d.tokenChanges.foldlM applyTokenChange s
  applyGas t d.gasPaid

theorem foldlM_applyTokenChange_withRest (tcs : List TokenChange) :
    tcs.foldlM applyTokenChange (s.withRest ps qs) =
      (·.withRest ps qs) <$> tcs.foldlM applyTokenChange s := by
  induction tcs generalizing s with
  | nil => rfl
  | cons tc tcs ih =>
    rw [List.foldlM_cons, List.foldlM_cons, applyTokenChange_withRest]
    cases applyTokenChange s tc with
    | error e => rfl
    | ok t => exact ih

theorem applyGas_withRest (gas : Option (TokenRef × U256)) :
    applyGas (s.withRest ps qs) gas = (·.withRest ps qs) <$> applyGas s gas := by
  cases gas with
  | none => rfl
  | some gas => exact changeHolding_withRest ps qs gas.1.key _

theorem applyAssets_withRest : applyAssets (s.withRest ps qs) d =
    (·.withRest ps qs) <$> applyAssets s d := by
  unfold applyAssets
  rw [foldlM_applyTokenChange_withRest]
  cases d.tokenChanges.foldlM applyTokenChange s with
  | error e => rfl
  | ok t => exact applyGas_withRest ps qs d.gasPaid

theorem foldlM_applyTokenChange_keeps {tcs : List TokenChange}
    (h : tcs.foldlM applyTokenChange s = .ok t) : t = t.withRest s.positions s.pending := by
  have hr := foldlM_applyTokenChange_withRest (s := s) s.positions s.pending tcs
  rw [h] at hr
  exact Except.ok.inj (h.symm.trans hr)

theorem applyAssets_keeps (h : applyAssets s d = .ok t) : t = t.withRest s.positions s.pending := by
  have hr := applyAssets_withRest (s := s) (d := d) s.positions s.pending
  rw [h] at hr
  exact Except.ok.inj (h.symm.trans hr)

theorem foldlM_applyPositionChange (pcs : List PositionChange) (s : WalletState) :
    pcs.foldlM (applyPositionChange codec) s =
      (fun ps => { s with positions := ps }) <$> pcs.foldlM (changePositions codec) s.positions :=
  foldlM_part WalletState.positions (fun s ps => { s with positions := ps }) (fun _ _ => rfl)
    (fun _ _ _ => rfl) (fun _ => rfl) (fun _ _ => rfl) pcs s

theorem foldlM_applyPendingChange (pcs : List PendingChange) (s : WalletState) :
    pcs.foldlM applyPendingChange s =
      (fun qs => { s with pending := qs }) <$> pcs.foldlM changePending s.pending :=
  foldlM_part WalletState.pending (fun s qs => { s with pending := qs }) (fun _ _ => rfl)
    (fun _ _ _ => rfl) (fun _ => rfl) (fun _ _ => rfl) pcs s

/-- A delta applies exactly when each of its groups applies to its own part of the wallet. -/
theorem applyDelta_eq_ok : applyDelta codec s d = .ok s' ↔ ∃ t ps qs,
    applyAssets s d = .ok t ∧
      d.positionChanges.foldlM (changePositions codec) s.positions = .ok ps ∧
      d.pendingChanges.foldlM changePending s.pending = .ok qs ∧ s' = t.withRest ps qs := by
  simp only [applyDelta, applyAssets, foldlM_applyPositionChange, foldlM_applyPendingChange,
    bind_eq_ok, map_eq_ok]
  constructor
  · rintro ⟨t, ht, _, ⟨ps, hp, rfl⟩, _, ⟨qs, hq, rfl⟩, hg⟩
    rw [foldlM_applyTokenChange_keeps ht] at hp hq
    have hg := (applyGas_withRest (s := t) ps qs d.gasPaid).symm.trans hg
    obtain ⟨u, hu, rfl⟩ := map_eq_ok.1 hg
    exact ⟨u, ps, qs, ⟨t, ht, hu⟩, hp, hq, rfl⟩
  · rintro ⟨u, ps, qs, ⟨t, ht, hu⟩, hp, hq, rfl⟩
    have hk := foldlM_applyTokenChange_keeps ht
    refine ⟨t, ht, _, ⟨ps, ?_, rfl⟩, _, ⟨qs, ?_, rfl⟩, ?_⟩
    · rw [hk]
      exact hp
    · rw [hk]
      exact hq
    · exact (applyGas_withRest (s := t) ps qs d.gasPaid).trans (congrArg (_ <$> ·) hu)

end Groups

end Dambi.Asset
