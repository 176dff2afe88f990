import Dambi.Asset.Position
import Dambi.Asset.Token

/-!
# What reducers record

The ways in which a reducer adds to its delta, as one inductive predicate. A
delta that is recorded in these ways has no gas and applies to the wallet it
was computed from: the token changes by the checks of the helpers, the position
changes because the helpers look at the same positions that `apply_delta` does.
-/

namespace Dambi.Asset

open FixedWidth Fallible List

/-! ## The positions that a delta leaves -/

section Effective

variable {state : WalletState} {delta : StateDelta} {id : PositionId} {position : Position}

def existsAfter (id : PositionId) (before : Bool) : PositionChange → Bool
  | .opened position => if position.id = id then true else before
  | .close closedId => if closedId = id then false else before
  | .update _ _ => before

theorem effectiveExists_eq : effectiveExists state delta id =
    delta.positionChanges.foldl (existsAfter id) (state.positions.any (·.id = id)) := rfl

theorem effectiveExists_pushPosition (pc : PositionChange) :
    effectiveExists state (delta.pushPosition pc) id =
      existsAfter id (effectiveExists state delta id) pc := by
  rw [effectiveExists_eq, StateDelta.pushPosition, foldl_append]
  rfl

theorem effectivePosition_go_isSome (cs : List PositionChange) :
    (effectivePosition.go state id cs).isSome =
      cs.foldr (fun pc b => existsAfter id b pc) (state.positions.any (·.id = id)) := by
  induction cs with
  | nil => rw [effectivePosition.go, foldr_nil, Bool.eq_iff_iff, find?_isSome,
      any_eq_true]
  | cons pc cs ih =>
    rw [foldr_cons, ← ih]
    cases pc with
    | opened position | close ci =>
      rw [effectivePosition.go, existsAfter]
      split <;> rfl
    | update _ _ => rfl

theorem effectivePosition_isSome :
    (effectivePosition state delta id).isSome = effectiveExists state delta id := by
  rw [effectivePosition, effectivePosition_go_isSome, foldr_reverse, effectiveExists_eq]

theorem id_of_effectivePosition (h : effectivePosition state delta id = some position) :
    position.id = id := by
  unfold effectivePosition at h
  revert h
  induction delta.positionChanges.reverse with
  | nil =>
    intro h
    have hf := find?_some (p := fun p : Position => decide (p.id = id)) h
    exact of_decide_eq_true hf
  | cons pc cs ih =>
    intro h
    cases pc with
    | opened opened =>
      simp only [effectivePosition.go] at h
      split at h
      · rename_i hi
        rw [← Option.some.inj h]
        exact hi
      · exact ih h
    | close ci =>
      simp only [effectivePosition.go] at h
      split at h
      · cases h
      · exact ih h
    | update _ _ => exact ih h

end Effective

/-! ## Recorded deltas -/

/-- A change of approvals of a token that has a contract. -/
inductive ApprovalChange : TokenChange → Prop
  | set {key spender allowance} (hcontract : key.contract.isSome = true) :
      ApprovalChange (.approvalSet key spender allowance)
  | revoke {key spender scope} (hcontract : key.contract.isSome = true)
      (hscope : scope ≠ .erc721Token) : ApprovalChange (.approvalRevoke key spender scope)

/-- What a reducer may have recorded, by the checks that it makes on the way. -/
inductive Recorded (codec : PositionCodec) (state : WalletState) : StateDelta → Prop
  | new : Recorded codec state .new
  | debited {d d' key amount} (h : Recorded codec state d)
      (hdebit : debit state d key amount = .ok d') : Recorded codec state d'
  | credited {d d' key amount} (h : Recorded codec state d)
      (hcredit : credit state d key amount = .ok d') : Recorded codec state d'
  | minted {d key kindHint} (amount : U256) (h : Recorded codec state d)
      (hkey : state.tokens.lookup key = none) : Recorded codec state
        ((d.pushToken (.mint key kindHint)).pushToken
          (.balanceDelta key (u256ToSignedSaturating amount)))
  | approved {d tc} (h : Recorded codec state d) (hchange : ApprovalChange tc) :
      Recorded codec state (d.pushToken tc)
  | opened {d} (position : Position) (h : Recorded codec state d) :
      Recorded codec state (d.pushPosition (.opened position))
  | updated {d existing} (newPosition : Position) (h : Recorded codec state d)
      (hexisting : effectivePosition state d newPosition.id = some existing) :
      Recorded codec state
        (d.pushPosition (.update newPosition.id (snapshotPatch codec newPosition)))
  | closed {d id} (h : Recorded codec state d) (hexists : effectiveExists state d id = true) :
      Recorded codec state (d.pushPosition (.close id))
  | pended {d} (tx : PendingTx) (h : Recorded codec state d) :
      Recorded codec state (d.pushPending (.add tx))

/-- What an outcome of a reducer comes to: a delta without gas that applies under a condition. -/
structure Outcome (codec : PositionCodec) (state : WalletState) (delta : StateDelta) (C : Prop) :
    Prop where
  gasFree : delta.gasPaid = none
  applies_iff : (∃ t, applyDelta codec state delta = .ok t) ↔ C

section Applies

variable {codec : PositionCodec} {state t : WalletState} {d d' : StateDelta} {tc : TokenChange}
  {key : TokenKey} {amount : U256}

theorem debit_pushes (h : debit state d key amount = .ok d') : ∃ tc, d' = d.pushToken tc := by
  simp only [debit, bind_eq_ok] at h
  obtain ⟨_, _, _, _, h⟩ := h
  exact ⟨_, (Except.ok.inj h).symm⟩

/-! ### Token changes -/

theorem foldlM_pushToken_of_step {t' : WalletState}
    (ht : d.tokenChanges.foldlM applyTokenChange state = .ok t)
    (hs : applyTokenChange t tc = .ok t') :
    (d.pushToken tc).tokenChanges.foldlM applyTokenChange state = .ok t' := by
  rw [StateDelta.pushToken, foldlM_append, ht, ok_bind, foldlM_cons, hs]
  rfl

theorem contractAddrKey_of_contract (h : key.contract.isSome = true) :
    ∃ addrKey, contractAddrKey key = .ok addrKey := by
  obtain ⟨a, ha⟩ := Option.isSome_iff_exists.1 h
  exact ⟨(key.chain, a), by simp only [contractAddrKey, ha]; rfl⟩

theorem ApprovalChange.applies (h : ApprovalChange tc) (s : WalletState) :
    ∃ s', applyTokenChange s tc = .ok s' := by
  cases h with
  | @set key sp allowance hc =>
    obtain ⟨ak, ha⟩ := contractAddrKey_of_contract hc
    simp only [applyTokenChange, applyApprovalSet]
    cases key <;> simp only [approvalScopeForSet, ha, ok_bind] <;> exact ⟨_, rfl⟩
  | @revoke key sp sc hc hs =>
    obtain ⟨ak, ha⟩ := contractAddrKey_of_contract hc
    cases sc with
    | erc721Token => exact absurd rfl hs
    | _ =>
      simp only [applyTokenChange, applyApprovalRevoke, ha, ok_bind]
      exact ⟨_, rfl⟩

theorem mint_balanceOf {kh : TokenKind} (ht : d.tokenChanges.foldlM applyTokenChange state = .ok t)
    (hk : state.tokens.lookup key = none) :
    ∃ t' y, applyTokenChange t (.mint key kh) = .ok t' ∧ t'.balanceOf key = some (.fungible y) := by
  have hn : state.balanceOf key = none := Option.map_eq_none_iff.2 hk
  by_cases hm : Mints key d.tokenChanges
  · obtain ⟨y, -, hy⟩ := balanceOf_of_opens ht (.inr ⟨hn, hm, rfl⟩)
    obtain ⟨ho, hl, -⟩ := WalletState.balanceOf_eq_some.1 hy
    exact ⟨t, y, by simp only [applyTokenChange, hl]; rfl, hy⟩
  · have hl := Option.map_eq_none_iff.1 (balanceOf_of_not_mints ht hn hm)
    refine ⟨_, 0, by simp only [applyTokenChange, hl]; rfl, ?_⟩
    exact WalletState.balanceOf_eq_some.2 ⟨_, Finmap.lookup_insert _, rfl⟩

/-! ### Position changes -/

def Leaves (state : WalletState) (d : StateDelta) (positions : List Position) : Prop :=
  ∀ id, positions.any (·.id = id) = effectiveExists state d id

variable {ps : List Position}

theorem changeFirst_of_any {change : Position → ReducerResult Position} {new : Position}
    {id : PositionId} (m : ReducerError) (ha : ps.any (·.id = id) = true)
    (hc : ∀ position, change position = .ok new) (hi : new.id = id) :
    ∃ ps', changeFirst (·.id = id) m change ps = .ok ps' ∧
      ∀ i, ps'.any (·.id = i) = ps.any (·.id = i) := by
  induction ps with
  | nil => cases ha
  | cons position ps ih =>
    unfold changeFirst
    split
    · rename_i hp
      rw [hc, ok_bind]
      refine ⟨_, rfl, fun i => ?_⟩
      rw [any_cons, any_cons, hi, of_decide_eq_true hp]
    · rename_i hp
      rw [any_cons, Bool.eq_false_iff.2 hp, Bool.false_or] at ha
      obtain ⟨ps', ho, hs⟩ := ih ha
      rw [ho, ok_bind]
      exact ⟨_, rfl, fun i => by rw [any_cons, any_cons, hs]⟩

theorem removeAll_of_any {p : Position → Bool} {m : ReducerError}
    (han : ps.any p = true) : removeAll p m ps = .ok (ps.filter (!p ·)) := by
  obtain ⟨position, hm, hp⟩ := any_eq_true.1 han
  refine if_neg fun hl => ?_
  have ha := filter_eq_self.1 (filter_sublist.eq_of_length hl)
  have hk := ha position hm
  rw [hp] at hk
  cases hk

theorem applyPositionPatch_snapshotPatch (newPosition target : Position) :
    applyPositionPatch codec (snapshotPatch codec newPosition) target = .ok newPosition := by
  obtain ⟨value, ht, hf⟩ := codec.fromValue_toValue newPosition
  have ha : (snapshotPatch codec newPosition).fields.get? "after" = some value := by
    rw [snapshotPatch, ht]
    rfl
  rw [applyPositionPatch, ha]
  exact described_eq_ok.2 hf

theorem foldlM_pushPosition {pc : PositionChange} {ps' : List Position}
    (hp : d.positionChanges.foldlM (changePositions codec) state.positions = .ok ps)
    (hs : changePositions codec ps pc = .ok ps') :
    (d.pushPosition pc).positionChanges.foldlM (changePositions codec) state.positions =
      .ok ps' := by
  rw [StateDelta.pushPosition, foldlM_append, hp, ok_bind, foldlM_cons, hs]
  rfl

theorem Leaves.opened (h : Leaves state d ps) (position : Position) :
    Leaves state (d.pushPosition (.opened position)) (ps ++ [position]) := by
  intro id
  rw [effectiveExists_pushPosition, any_append, h id, existsAfter]
  by_cases hi : position.id = id <;> simp [hi]

theorem Leaves.closed (h : Leaves state d ps) (id : PositionId) :
    Leaves state (d.pushPosition (.close id)) (ps.filter fun p => !decide (p.id = id)) := by
  intro i
  rw [effectiveExists_pushPosition, existsAfter, ← h i, Bool.eq_iff_iff]
  by_cases hid : id = i
  · subst hid
    simp
  · simp only [any_eq_true, mem_filter, hid, if_false]
    refine exists_congr fun position => ?_
    constructor
    · rintro ⟨⟨hm, -⟩, hi⟩
      exact ⟨hm, hi⟩
    · rintro ⟨hm, hi⟩
      refine ⟨⟨hm, ?_⟩, hi⟩
      rw [of_decide_eq_true hi]
      simpa using Ne.symm hid

/-! ### Deltas -/

/-- The three lists of a recorded delta apply one after another, and the delta has no gas. -/
structure AppliesTo (codec : PositionCodec) (state : WalletState) (d : StateDelta) : Prop where
  gasFree : d.gasPaid = none
  tokens : ∃ t, d.tokenChanges.foldlM applyTokenChange state = .ok t
  positions : ∃ ps, d.positionChanges.foldlM (changePositions codec) state.positions = .ok ps ∧
    Leaves state d ps
  pending : ∃ qs, d.pendingChanges.foldlM changePending state.pending = .ok qs

theorem Recorded.appliesTo (h : Recorded codec state d) : AppliesTo codec state d := by
  induction h with
  | new => exact ⟨rfl, ⟨state, rfl⟩, ⟨state.positions, rfl, fun _ => rfl⟩, ⟨state.pending, rfl⟩⟩
  | debited _ hd ih =>
    obtain ⟨t, ht⟩ := ih.tokens
    have htk := debit_applies ht hd
    obtain ⟨_, rfl⟩ := debit_pushes hd
    exact { ih with tokens := htk }
  | credited _ hc ih =>
    obtain ⟨t, ht⟩ := ih.tokens
    have htk := credit_applies ht hc
    obtain ⟨_, _, rfl⟩ := credit_eq_ok.1 hc
    exact { ih with tokens := htk }
  | minted amount _ hk ih =>
    obtain ⟨t, ht⟩ := ih.tokens
    obtain ⟨t', y, hm, hy⟩ := mint_balanceOf ht hk
    refine { ih with tokens := foldlM_pushToken (foldlM_pushToken_of_step ht hm) hy ?_ }
    have hce := ceiling_eq
    have hv := val_toSigned amount
    omega
  | approved _ hch ih =>
    obtain ⟨t, ht⟩ := ih.tokens
    obtain ⟨t', hst⟩ := hch.applies t
    exact { ih with tokens := ⟨t', foldlM_pushToken_of_step ht hst⟩ }
  | opened position _ ih =>
    obtain ⟨ps, hp, hl⟩ := ih.positions
    exact { ih with positions := ⟨_, foldlM_pushPosition hp rfl, hl.opened position⟩ }
  | updated np _ he ih =>
    obtain ⟨ps, hp, hl⟩ := ih.positions
    have ha : ps.any (·.id = np.id) = true := by
      rw [hl, ← effectivePosition_isSome, he]
      rfl
    obtain ⟨ps', ho, hs⟩ := changeFirst_of_any (.positionNotFound np.id) ha
      (applyPositionPatch_snapshotPatch np) rfl
    refine { ih with positions := ⟨ps', foldlM_pushPosition hp ho, fun id => ?_⟩ }
    rw [hs, hl, effectiveExists_pushPosition]
    rfl
  | closed _ hes ih =>
    obtain ⟨ps, hp, hl⟩ := ih.positions
    have ha := (hl _).trans hes
    exact { ih with
      positions := ⟨_, foldlM_pushPosition hp (removeAll_of_any ha), hl.closed _⟩ }
  | pended tx _ ih =>
    obtain ⟨qs, hq⟩ := ih.pending
    refine { ih with pending := ⟨qs ++ [tx], ?_⟩ }
    rw [StateDelta.pushPending, foldlM_append, hq, ok_bind]
    rfl

theorem Recorded.outcome (h : Recorded codec state d) : Outcome codec state d True where
  gasFree := h.appliesTo.gasFree
  applies_iff := by
    obtain ⟨hg, ⟨t, ht⟩, ⟨ps, hp, -⟩, ⟨qs, hq⟩⟩ := h.appliesTo
    have ha : applyAssets state d = .ok t := by
      rw [applyAssets, ht, ok_bind, hg]
      rfl
    exact iff_of_true ⟨_, applyDelta_eq_ok.2 ⟨t, ps, qs, ha, hp, hq, rfl⟩⟩ trivial

end Applies

end Dambi.Asset
