import Dambi.Asset.Amm.Actions
import Dambi.Asset.Claims
import Dambi.Asset.Perp
import Dambi.Asset.Recorded

/-!
# Soundness of the reducers

Every reducer records its delta in the ways of `Recorded`, apart from a few
that record a change without looking at what it needs: those apply under a
condition on the wallet alone.
-/

namespace Dambi.Asset

open FixedWidth Fallible List Outcome

variable {D : Type} {kit : DecimalKit D} {codec : PositionCodec} {state : WalletState}
  {ctx : EvalContext} {d d' : StateDelta}

/-! ## Loops and positions -/

namespace Recorded

variable {amounts : List (TokenRef × U256)}

section

variable (h : Recorded codec state d)
include h

theorem debitAll (ho : Asset.debitAll state d amounts = .ok d') : Recorded codec state d' :=
  foldlM_invariant (Recorded codec state) (fun _ _ _ _ h hs => h.debited hs) ho h

theorem creditAll (ho : Asset.creditAll state d amounts = .ok d') : Recorded codec state d' :=
  foldlM_invariant (Recorded codec state) (fun _ _ _ _ h hs => h.credited hs) ho h

theorem creditNonzero
    (ho : Asset.creditNonzero state d amounts = .ok d') : Recorded codec state d' := by
  refine foldlM_invariant (Recorded codec state) ?_ ho h
  rintro delta ⟨t, a⟩ delta' _ h hs
  by_cases hz : a = 0
  · cases (if_pos hz).symm.trans hs
    exact h
  · exact h.credited ((if_neg hz).symm.trans hs)

theorem openPosition {p : Position}
    (ho : Asset.openPosition state d p = .ok d') : Recorded codec state d' := by
  simp only [Asset.openPosition, bind_eq_ok] at ho
  obtain ⟨_, _, ho⟩ := ho
  cases ho
  exact h.opened p

theorem upsert {k : String} {isKind : PositionKind → Bool} {mutate : Position → Position}
    {id : PositionId} (ho : upsertPosition codec k isKind state d id mutate = .ok d')
    (hm : ∀ p, (mutate p).id = p.id) : Recorded codec state d' := by
  simp only [upsertPosition, bind_eq_ok, orFail_eq_ok] at ho
  obtain ⟨e, he, _, _, _, _, ho⟩ := ho
  cases ho
  have hi : (mutate e).id = id := (hm e).trans (id_of_effectivePosition he)
  have hu := h.updated (mutate e) (hi ▸ he)
  rwa [hi] at hu

theorem ofErc20 {t : TokenRef} {helper : String} {tc : TokenChange}
    (ho : onErc20 d t helper tc = .ok d')
    (hc : t.key.contract.isSome = true → ApprovalChange tc) : Recorded codec state d' := by
  simp only [onErc20, bind_eq_ok, ensure, require_eq_ok] at ho
  obtain ⟨_, he20, ho⟩ := ho
  cases ho
  refine h.approved (hc ?_)
  cases hk : t.key with
  | erc20 chain address => rfl
  | _ => simp [hk, TokenKey.isErc20] at he20

end

end Recorded

theorem mutateLending_id (change : LendingAccount → LendingAccount) (p : Position) :
    (mutateLending change p).id = p.id := by
  unfold mutateLending
  split <;> rfl

theorem mutatePerp_id (change : PerpPosition → PerpPosition) (p : Position) :
    (mutatePerp change p).id = p.id := by
  unfold mutatePerp
  split <;> rfl

/-! ## Changes recorded without a check -/

/-- An ERC-721 token is sent by a change of its balance, so it has to have one. -/
def Sendable (state : WalletState) (key : TokenKey) : Prop :=
  match key with
  | .erc721 _ _ _ => ∃ x : U256, state.balanceOf key = some (.fungible x) ∧ x ≠ 0
  | _ => True

/-- There is a pending signature of a name. -/
def HasPending (state : WalletState) (id : PendingId) : Prop := ∃ tx ∈ state.pending, tx.id = id

theorem applyDelta_pushToken (tc : TokenChange) :
    (∃ t, applyDelta codec state (StateDelta.new.pushToken tc) = .ok t) ↔
      ∃ t, applyTokenChange state tc = .ok t := by
  have hf : (StateDelta.new.pushToken tc).tokenChanges.foldlM applyTokenChange state =
      applyTokenChange state tc := by
    show applyTokenChange state tc >>= _ = _
    cases applyTokenChange state tc <;> rfl
  simp only [applyDelta_eq_ok, applyAssets, hf]
  constructor
  · rintro ⟨_, t, _, _, ht, -⟩
    obtain ⟨u, hu, -⟩ := bind_eq_ok.1 ht
    exact ⟨u, hu⟩
  · rintro ⟨t, ht⟩
    exact ⟨_, t, _, _, bind_eq_ok.2 ⟨t, ht, rfl⟩, rfl, rfl, rfl⟩

theorem Outcome.ofToken {tc : TokenChange}
    {C : Prop} (h : (∃ t, applyTokenChange state tc = .ok t) ↔ C) :
    Outcome codec state (StateDelta.new.pushToken tc) C :=
  ⟨rfl, (applyDelta_pushToken tc).trans h⟩

theorem removeAll_pending {p : List PendingTx} {id : PendingId} (m : ReducerError) :
    (∃ k, removeAll (fun tx : PendingTx => decide (tx.id = id)) m p = .ok k) ↔
      ∃ tx ∈ p, tx.id = id := by
  simp only [removeAll]
  split
  · rename_i hl
    have ha := filter_eq_self.1 (filter_sublist.eq_of_length hl)
    refine iff_of_false (fun h => fail_ne_ok h.choose_spec) ?_
    rintro ⟨tx, hm, hi⟩
    simpa [hi] using ha tx hm
  · rename_i hl
    refine iff_of_true ⟨_, rfl⟩ ?_
    by_contra hnone
    refine hl (congrArg length (filter_eq_self.2 fun tx hm => ?_))
    simpa using fun hi => hnone ⟨tx, hm, hi⟩

theorem Outcome.ofRemove (id : PendingId) (r : PendingRemoveReason) :
    Outcome codec state (StateDelta.new.pushPending (.remove id r)) (HasPending state id) where
  gasFree := rfl
  applies_iff := by
    refine Iff.trans ?_ (removeAll_pending (.invariant s!"pending id {id} not found for remove"))
    simp only [applyDelta_eq_ok]
    constructor
    · rintro ⟨_, _, _, qs, _, _, hq, -⟩
      obtain ⟨k, hk, -⟩ := bind_eq_ok.1 hq
      exact ⟨k, hk⟩
    · rintro ⟨k, hk⟩
      exact ⟨_, state, state.positions, k, rfl, rfl, bind_eq_ok.2 ⟨k, hk, rfl⟩, rfl⟩

theorem Outcome.ofApprovedTo (key : TokenKey) (spender : Option Address) :
    Outcome codec state (StateDelta.new.pushToken (.erc721ApprovedTo key spender))
      ((state.tokens.lookup key).isSome = true) := by
  refine ofToken ?_
  simp only [applyTokenChange, changeHolding_eq_ok, Option.isSome_iff_exists]
  constructor
  · rintro ⟨_, ho, _, hl, -⟩
    exact ⟨ho, hl⟩
  · rintro ⟨ho, hl⟩
    exact ⟨_, ho, _, hl, rfl, rfl⟩

theorem addSigned_neg_one {x : U256} : (∃ y, addSigned x (-Signed.one) = some y) ↔ x ≠ 0 := by
  have ho : (-Signed.one : I256).val = -1 := by decide
  have hc := ceiling_eq
  have hs := addSigned_val x (-Signed.one)
  have hz : x ≠ 0 ↔ x.val ≠ 0 := by rw [Ne, Unsigned.ext_iff, Unsigned.val_zero]
  rw [ho] at hs
  rw [hz]
  constructor
  · rintro ⟨y, hy⟩
    rw [hy, Option.map_some] at hs
    have := (Saturation.step_eq_some.1 hs.symm).1
    omega
  · intro hx
    rw [Saturation.step_eq_some.2 ⟨by omega, rfl⟩, Option.map_eq_some_iff] at hs
    obtain ⟨y, hy, -⟩ := hs
    exact ⟨y, hy⟩

variable {key : TokenKey} {spender : Address} {action : String} {cashDelta : I256} {id : PositionId}

theorem transferNft_outcome {a : Option U256}
    (r : Address) (h : transferNft state .new key r a = .ok d) :
    Outcome codec state d (Sendable state key) := by
  cases hk : key with
  | native chain | erc20 chain address => simp [hk, transferNft, broken, fail] at h
  | erc1155 chain contract ti =>
    simp only [hk, transferNft, bind_eq_ok] at h
    obtain ⟨amt, -, hd⟩ := h
    exact (Recorded.new.debited hd).outcome
  | erc721 chain contract ti =>
    simp only [hk, transferNft, bind_eq_ok] at h
    obtain ⟨ho, -, h⟩ := h
    cases h
    refine ofToken ?_
    simp only [applyTokenChange, applyBalanceDelta, changeHolding_eq_ok, addToBalance_eq_ok,
      Sendable, ← addSigned_neg_one, WalletState.balanceOf_eq_some]
    constructor
    · rintro ⟨_, ho, _, hl, ⟨x, y, hx, hy, -⟩, -⟩
      exact ⟨x, ⟨ho, hl, hx⟩, y, hy⟩
    · rintro ⟨x, ⟨ho, hl, hx⟩, y, hy⟩
      exact ⟨_, ho, _, hl, ⟨x, y, hx, hy, rfl⟩, rfl⟩

/-! ## Token actions -/

/-- What a token action needs of the wallet beyond what its reducer checks. -/
def TokenAction.Applicable (state : WalletState) : TokenAction → Prop
  | .nftApprove a => (state.tokens.lookup a.nftKey).isSome = true
  | .nftTransfer a => Sendable state a.nftKey
  | .revokeApproval ⟨.nftSingleToken nftKey⟩ => (state.tokens.lookup nftKey).isSome = true
  | _ => True

theorem setNftApprove_outcome {nk : TokenKey} (h : setNftApprove .new spender nk = .ok d) :
    Outcome codec state d ((state.tokens.lookup nk).isSome = true) := by
  simp only [setNftApprove, bind_eq_ok] at h
  obtain ⟨_, _, h⟩ := h
  cases h
  exact ofApprovedTo nk _

theorem Recorded.setForAll {sa : Time} {chain : ChainId} {contract : Address} {a : Bool}
    (h : Recorded codec state d) :
    Recorded codec state (Asset.setForAll d sa spender chain contract a) := by
  unfold Asset.setForAll
  cases a with
  | true => exact h.approved (.set rfl)
  | false => exact h.approved (.revoke rfl nofun)

theorem Recorded.permit {tx : Address → PendingTx} (h : (do
      let ta ← erc20Address action key
      return StateDelta.new.pushPending (.add (tx ta))) = .ok d) :
    Recorded codec state d := by
  obtain ⟨ta, _, h⟩ := bind_eq_ok.1 h
  cases h
  exact Recorded.new.pended _

theorem RevokeApprovalAction.outcome {a : RevokeApprovalAction} (h : a.apply = .ok d) :
    Outcome codec state d (TokenAction.Applicable state (.revokeApproval a)) := by
  obtain ⟨s⟩ := a
  cases s with
  | erc20 t spender | permit2Lockdown t spender =>
    exact (Recorded.new.ofErc20 h fun hc => .revoke hc nofun).outcome
  | nftSingleToken nk => exact setNftApprove_outcome h
  | nftSetForAll chain contract spender =>
    cases h
    exact Recorded.new.setForAll.outcome
  | permit2UnorderedNonce _ _ _ =>
    cases h
    exact Recorded.new.outcome

theorem TokenAction.outcome {a : TokenAction} (h : a.apply state ctx = .ok d) :
    Outcome codec state d (a.Applicable state) := by
  cases a with
  | erc20Approve a | permit2Approve a => exact (Recorded.new.ofErc20 h .set).outcome
  | erc20Permit a | permit2SignAllowance a => exact (Recorded.permit h).outcome
  | permit2SignTransfer a =>
    simp only [TokenAction.apply, Permit2SignTransferAction.apply] at h
    split at h
    · cases h
      exact Recorded.new.outcome
    · exact (Recorded.permit h).outcome
  | permit2TransferFrom a =>
    simp only [TokenAction.apply, Permit2TransferFromAction.apply] at h
    split at h
    · cases h
      exact Recorded.new.outcome
    · obtain ⟨_, _, h⟩ := bind_eq_ok.1 h
      exact (Recorded.new.debited h).outcome
  | erc20Transfer a => exact (Recorded.new.debited h).outcome
  | nftApprove a => exact setNftApprove_outcome h
  | nftSetApprovalForAll a =>
    cases h
    exact Recorded.new.setForAll.outcome
  | nftTransfer a => exact transferNft_outcome a.recipient h
  | revokeApproval a => exact a.outcome h
  | refundNative a | wrapNative a | unwrapNative a =>
    cases h
    exact Recorded.new.outcome

/-! ## AMM actions -/

/-- What an AMM action needs of the wallet beyond what its reducer checks. -/
def AmmAction.Applicable (state : WalletState) : AmmAction → Prop
  | .removeLiquidity ⟨_, .concentratedBurn nftKey, _⟩ => Sendable state nftKey
  | .cancelIntentOrder a => HasPending state a.orderHash
  | .preSignIntentOrder a => a.signed = false → HasPending state a.orderHash
  | _ => True

theorem SwapAction.recorded {a : SwapAction} (h : a.apply kit state ctx = .ok d) :
    Recorded codec state d := by
  simp only [SwapAction.apply, bind_eq_ok] at h
  obtain ⟨t, _, _, _, d₁, hp, d₂, hde, hc⟩ := h
  have hd₁ : Recorded codec state d₁ := by
    unfold aggregatorPrelude at hp
    split at hp
    · simp only [bind_eq_ok] at hp
      obtain ⟨_, _, _, _, hb⟩ := hp
      unfold applyPermitBundle at hb
      split at hb
      · exact Recorded.new.ofErc20 hb .set
      · cases hb
        exact .new
    · cases hp
      exact .new
  have hd₂ := hd₁.debited hde
  unfold creditOut at hc
  split at hc
  · exact hd₂.credited hc
  · cases hc
    exact hd₂

theorem AddLiquidityAction.recorded {a : AddLiquidityAction} (h : a.apply state = .ok d) :
    Recorded codec state d := by
  obtain ⟨v, ps⟩ := a
  cases ps with
  | pooled ts mlo r =>
    simp only [AddLiquidityAction.apply, bind_eq_ok] at h
    obtain ⟨_, _, d₁, hdb, lk, _, hs⟩ := h
    have hd₁ : Recorded codec state d₁ := Recorded.new.debitAll hdb
    unfold creditShares at hs
    split at hs
    · exact hd₁.credited hs
    · rename_i hn
      cases hs
      exact hd₁.minted mlo hn
  | concentratedMint pp de min ra r | concentratedIncrease nk de min =>
    simp only [AddLiquidityAction.apply, bind_eq_ok] at h
    obtain ⟨_, _, _, _, hdb⟩ := h
    exact Recorded.new.debitAll hdb

variable {a : RemoveLiquidityAction}

theorem burnShares_recorded {lt : TokenRef} {la : U256} {out : List (TokenRef × U256)}
    (h : burnShares state a lt la out = .ok d) :
    Recorded codec state d := by
  simp only [burnShares, bind_eq_ok] at h
  obtain ⟨_, _, d₁, hd, d₂, hc, hf⟩ := h
  exact ((Recorded.new.debited hd).creditAll hc).creditNonzero hf

theorem RemoveLiquidityAction.outcome (h : a.apply state = .ok d) :
    Outcome codec state d (AmmAction.Applicable state (.removeLiquidity a)) := by
  obtain ⟨v, ps, fo⟩ := a
  cases ps with
  | pooledBurn _ _ _ _ | pooledBurnOneCoin _ _ _ _ _ | pooledBurnImbalance _ _ _ _ =>
    exact (burnShares_recorded h).outcome
  | concentratedDecrease nk lb m =>
    simp only [RemoveLiquidityAction.apply, bind_eq_ok] at h
    obtain ⟨_, _, _, _, _, _, h⟩ := h
    cases h
    exact Recorded.new.outcome
  | concentratedBurn nk =>
    simp only [RemoveLiquidityAction.apply, bind_eq_ok] at h
    obtain ⟨_, _, _, _, ht⟩ := h
    exact transferNft_outcome 0 ht

theorem AmmAction.outcome {a : AmmAction} (h : a.apply kit state ctx = .ok d) :
    Outcome codec state d (a.Applicable state) := by
  cases a with
  | swap a => exact (SwapAction.recorded h).outcome
  | gsmSwap | settleIntentOrder =>
    cases h
    exact Recorded.new.outcome
  | addLiquidity a => exact (AddLiquidityAction.recorded h).outcome
  | removeLiquidity a => exact a.outcome h
  | collectFees a =>
    simp only [AmmAction.apply, CollectFeesAction.apply, bind_eq_ok] at h
    obtain ⟨_, _, _, _, hf⟩ := h
    exact (Recorded.new.creditNonzero hf).outcome
  | signIntentOrder a =>
    cases h
    exact (Recorded.new.pended _).outcome
  | cancelIntentOrder a =>
    cases h
    exact ofRemove _ _
  | preSignIntentOrder a =>
    obtain ⟨v, oh, signed⟩ := a
    cases signed with
    | true =>
      cases h
      exact ⟨rfl, Recorded.new.outcome.applies_iff.trans (iff_of_true trivial nofun)⟩
    | false =>
      cases h
      exact ⟨rfl, (ofRemove _ _).applies_iff.trans (by simp [AmmAction.Applicable])⟩

/-! ## Lending actions -/

theorem approvalSet_applies_iff {allowance : AllowanceSpec} :
    (∃ t, applyTokenChange state (.approvalSet key spender allowance) = .ok t) ↔
      key.contract.isSome = true := by
  cases hc : key.contract with
  | some a =>
    have hch : ApprovalChange (.approvalSet key spender allowance) := .set (by rw [hc]; rfl)
    exact iff_of_true (hch.applies state) rfl
  | none =>
    cases key with
    | native chain =>
      refine iff_of_false ?_ nofun
      rintro ⟨t, ht⟩
      cases ht
    | _ => cases hc

/-- What a lending action needs of the wallet beyond what its reducer checks. -/
def LendingAction.Applicable : LendingAction → Prop
  | .delegateBorrow a => a.asset.key.contract.isSome = true
  | _ => True

theorem SupplyAction.recorded {a : SupplyAction} (h : a.apply codec state ctx = .ok d) :
    Recorded codec state d := by
  simp only [SupplyAction.apply, bind_eq_ok] at h
  obtain ⟨_, _, _, _, _, _, _, _, d₁, hde, h⟩ := h
  have hd₁ : Recorded codec state d₁ := Recorded.new.debited hde
  split at h
  · exact hd₁.upsert h (mutateLending_id _)
  · split at h <;> exact hd₁.openPosition h

theorem WithdrawAction.recorded {a : WithdrawAction} (h : a.apply codec state = .ok d) :
    Recorded codec state d := by
  simp only [WithdrawAction.apply, bind_eq_ok] at h
  obtain ⟨_, _, _, _, d₁, hu, _, _, _, _, h⟩ := h
  have hd₁ : Recorded codec state d₁ := Recorded.new.upsert hu (mutateLending_id _)
  split at h
  · exact hd₁.credited h
  · cases h
    exact hd₁

theorem BorrowAction.recorded {a : BorrowAction} (h : a.apply kit codec state = .ok d) :
    Recorded codec state d := by
  simp only [BorrowAction.apply, bind_eq_ok] at h
  obtain ⟨_, _, _, _, _, _, _, _, _, _, d₁, hu, _, _, _, _, _, _, hc⟩ := h
  exact (Recorded.new.upsert hu (mutateLending_id _)).credited hc

theorem RepayAction.recorded {a : RepayAction} (h : a.apply codec state = .ok d) :
    Recorded codec state d := by
  simp only [RepayAction.apply, bind_eq_ok] at h
  obtain ⟨_, _, _, _, d₁, hu, _, _, _, _, hd⟩ := h
  exact (Recorded.new.upsert hu (mutateLending_id _)).debited hd

theorem LendingAction.outcome {a : LendingAction} (h : a.apply kit codec state ctx = .ok d) :
    Outcome codec state d a.Applicable := by
  cases a with
  | supply a => exact (SupplyAction.recorded h).outcome
  | withdraw a => exact (WithdrawAction.recorded h).outcome
  | borrow a => exact (BorrowAction.recorded h).outcome
  | repay a => exact (RepayAction.recorded h).outcome
  | swapRateMode a =>
    simp only [LendingAction.apply, SwapRateModeAction.apply, bind_eq_ok] at h
    obtain ⟨_, _, _, _, _, _, _, _, _, _, hu⟩ := h
    exact (Recorded.new.upsert hu (mutateLending_id _)).outcome
  | setEMode a =>
    simp only [LendingAction.apply, SetEModeAction.apply, bind_eq_ok] at h
    obtain ⟨_, _, _, _, _, _, _, _, _, _, hu⟩ := h
    exact (Recorded.new.upsert hu (mutateLending_id _)).outcome
  | enableCollateral a | disableCollateral a =>
    simp only [LendingAction.apply, SetCollateralAction.apply, bind_eq_ok] at h
    obtain ⟨_, _, _, _, hu⟩ := h
    exact (Recorded.new.upsert hu (mutateLending_id _)).outcome
  | delegateBorrow a =>
    simp only [LendingAction.apply, DelegateBorrowAction.apply, bind_eq_ok] at h
    obtain ⟨_, _, h⟩ := h
    cases h
    exact ofToken approvalSet_applies_iff
  | liquidate a =>
    simp only [LendingAction.apply, LiquidateAction.apply, bind_eq_ok] at h
    obtain ⟨_, _, _, _, _, _, d₁, hd, hc⟩ := h
    exact ((Recorded.new.debited hd).credited hc).outcome
  | buyCollateral | setAuthorization | peripheryOperation =>
    cases h
    exact Recorded.new.outcome

/-! ## Perp actions -/

/-- What a perp action needs of the wallet beyond what its reducer checks. -/
def PerpAction.Applicable (state : WalletState) : PerpAction → Prop
  | .cancelOrder a => HasPending state a.orderId
  | _ => True

theorem OpenPerpAction.recorded {a : OpenPerpAction} (h : a.apply kit state ctx = .ok d) :
    Recorded codec state d := by
  simp only [OpenPerpAction.apply, bind_eq_ok] at h
  obtain ⟨_, _, _, _, _, _, _, _, _, _, d₁, hde, _, _, _, _, h⟩ := h
  have hd₁ : Recorded codec state d₁ := by
    unfold debitMargin at hde
    split at hde
    · cases hde
      exact .new
    · exact Recorded.new.debited hde
  split at h
  · cases h
    exact hd₁.pended _
  · exact hd₁.openPosition h

theorem settleCash_cases (h : settleCash kit state action d key cashDelta = .ok d') :
    (∃ a, credit state d key a = .ok d') ∨
      (∃ a, debit state d key a = .ok d') ∨ d' = d := by
  unfold settleCash at h
  split at h
  · obtain ⟨a, _, hc⟩ := bind_eq_ok.1 h
    exact .inl ⟨a, hc⟩
  · split at h
    · obtain ⟨a, _, hd⟩ := bind_eq_ok.1 h
      exact .inr (.inl ⟨a, hd⟩)
    · exact .inr (.inr (Except.ok.inj h).symm)

theorem Recorded.settleCash (h : Recorded codec state d)
    (ho : Asset.settleCash kit state action d key cashDelta = .ok d') :
    Recorded codec state d' := by
  rcases settleCash_cases ho with ⟨_, hc⟩ | ⟨_, hd⟩ | rfl
  · exact h.credited hc
  · exact h.debited hd
  · exact h

theorem effectiveExists_settleCash (h : settleCash kit state action d key cashDelta = .ok d') :
    effectiveExists state d' id = effectiveExists state d id := by
  rcases settleCash_cases h with ⟨_, hc⟩ | ⟨_, hd⟩ | rfl
  · obtain ⟨_, _, rfl⟩ := credit_eq_ok.1 hc
    rfl
  · obtain ⟨_, rfl⟩ := debit_pushes hd
    rfl
  · rfl

theorem effectiveExists_of_find {pid : PositionId} {po : Position}
    (h : findPosition state pid = .ok po) :
    effectiveExists state .new pid = true := by
  have hf := orFail_eq_ok.1 h
  have hi := find?_some (p := fun p : Position => decide (p.id = pid)) hf
  exact any_eq_true.2 ⟨po, mem_of_find?_eq_some hf, hi⟩

theorem ClosePerpAction.recorded {a : ClosePerpAction} (h : a.apply kit state = .ok d) :
    Recorded codec state d := by
  simp only [ClosePerpAction.apply, bind_eq_ok] at h
  obtain ⟨_, _, _, hf, _, _, _, _, _, _, d₁, hcr, d₂, hc, h⟩ := h
  cases h
  refine ((Recorded.new.credited hcr).settleCash hc).closed ?_
  rw [effectiveExists_settleCash hc]
  obtain ⟨_, _, rfl⟩ := credit_eq_ok.1 hcr
  exact effectiveExists_of_find hf

theorem IncreasePerpAction.recorded {a : IncreasePerpAction}
    (h : a.apply kit codec state = .ok d) : Recorded codec state d := by
  simp only [IncreasePerpAction.apply, bind_eq_ok] at h
  obtain ⟨_, _, _, _, _, _, _, _, d₁, hde, _, _, hu⟩ := h
  have hd₁ : Recorded codec state d₁ := by
    unfold debitExtra at hde
    split at hde
    · cases hde
      exact .new
    · exact Recorded.new.debited hde
  exact hd₁.upsert hu (mutatePerp_id _)

theorem DecreasePerpAction.recorded {a : DecreasePerpAction}
    (h : a.apply kit codec state = .ok d) : Recorded codec state d := by
  simp only [DecreasePerpAction.apply, bind_eq_ok] at h
  obtain ⟨_, _, _, _, _, _, _, _, _, _, _, _, d₁, hc, _, _, _, _, _, _, hu⟩ := h
  exact (Recorded.new.settleCash hc).upsert hu (mutatePerp_id _)

theorem AdjustMarginAction.recorded {a : AdjustMarginAction}
    (h : a.apply kit codec state = .ok d) : Recorded codec state d := by
  simp only [AdjustMarginAction.apply, bind_eq_ok] at h
  obtain ⟨_, _, _, _, _, _, _, _, _, _, _, _, ⟨d₁, na⟩, hm, hu⟩ := h
  have hd₁ : Recorded codec state d₁ := by
    unfold moveMargin at hm
    split at hm
    · obtain ⟨_, hde, hm⟩ := bind_eq_ok.1 hm
      cases hm
      exact Recorded.new.debited hde
    · split at hm
      · simp only [bind_eq_ok] at hm
        obtain ⟨_, _, _, _, _, hc, hm⟩ := hm
        cases hm
        exact Recorded.new.credited hc
      · exact absurd hm fail_ne_ok
  exact hd₁.upsert hu (mutatePerp_id _)

theorem changeAffected_recorded {a : List PositionId}
    {change : PositionId → PerpPosition → PerpPosition}
    (h : changeAffected codec state action a change = .ok d) : Recorded codec state d := by
  refine foldlM_invariant (Recorded codec state) ?_ h .new
  intro delta pid delta' _ h hs
  simp only [bind_eq_ok] at hs
  obtain ⟨_, _, _, _, hu⟩ := hs
  exact h.upsert hu (mutatePerp_id _)

theorem PerpAction.outcome {a : PerpAction} (h : a.apply kit codec state ctx = .ok d) :
    Outcome codec state d (a.Applicable state) := by
  cases a with
  | openPosition a => exact (OpenPerpAction.recorded h).outcome
  | closePosition a => exact (ClosePerpAction.recorded h).outcome
  | increasePosition a => exact (IncreasePerpAction.recorded h).outcome
  | decreasePosition a => exact (DecreasePerpAction.recorded h).outcome
  | adjustMargin a => exact (AdjustMarginAction.recorded h).outcome
  | changeLeverage a =>
    simp only [PerpAction.apply, ChangeLeverageAction.apply, bind_eq_ok] at h
    obtain ⟨_, _, _, _, _, _, _, _, _, _, ha⟩ := h
    exact (changeAffected_recorded ha).outcome
  | changeMarginMode a => exact (changeAffected_recorded h).outcome
  | placeOrder a =>
    simp only [PerpAction.apply, PlaceOrderAction.apply, bind_eq_ok] at h
    obtain ⟨_, _, tx, _, h⟩ := h
    cases h
    exact (Recorded.new.pended tx).outcome
  | cancelOrder a =>
    cases h
    exact ofRemove _ _
  | claimFunding a => exact (Recorded.new.creditNonzero h).outcome

/-! ## Claims -/

theorem AirdropAction.outcome {a : AirdropAction} (h : a.apply state ctx = .ok d) :
    Outcome codec state d True := by
  cases a with
  | claim a =>
    simp only [AirdropAction.apply, ClaimAirdropAction.apply, bind_eq_ok] at h
    obtain ⟨_, _, _, _, _, _, d₁, hc, h⟩ := h
    cases h
    exact ((Recorded.new.credited hc).opened _).outcome
  | delegate a =>
    simp only [AirdropAction.apply, DelegateGovernanceAction.apply] at h
    split at h
    · cases h
      exact Recorded.new.outcome
    · exact absurd h fail_ne_ok

theorem Recorded.pushUpdate {e : Position} (kind : PositionKind) (h : Recorded codec state d)
    (he : effectivePosition state d id = some e) :
    Recorded codec state (pushPositionUpdate codec ctx d e kind) := by
  have hi := id_of_effectivePosition he
  exact h.updated { e with kind, primitivesSyncedAt := ctx.now } (hi ▸ he)

theorem effectivePosition_credit {a : U256} (h : credit state d key a = .ok d') :
    effectivePosition state d' id = effectivePosition state d id := by
  obtain ⟨_, _, rfl⟩ := credit_eq_ok.1 h
  rfl

theorem CommitAction.recorded {a : CommitAction} (h : a.apply codec state ctx = .ok d) :
    Recorded codec state d := by
  simp only [CommitAction.apply, bind_eq_ok] at h
  obtain ⟨_, _, d₁, hde, h⟩ := h
  have hd₁ : Recorded codec state d₁ := Recorded.new.debited hde
  split at h
  · rename_i e he
    simp only [bind_eq_ok] at h
    obtain ⟨_, _, _, _, h⟩ := h
    cases h
    exact hd₁.pushUpdate _ he
  · cases h
    exact hd₁.opened _

theorem ClaimAllocationAction.recorded {a : ClaimAllocationAction}
    (h : a.apply codec state ctx = .ok d) : Recorded codec state d := by
  simp only [ClaimAllocationAction.apply, bind_eq_ok, orFail_eq_ok] at h
  obtain ⟨_, _, d₁, hc, e, he, al, _, d₂, hr, h⟩ := h
  have hd₁ : Recorded codec state d₁ := Recorded.new.credited hc
  cases h
  unfold creditRefund at hr
  split at hr
  · cases hr
    exact hd₁.pushUpdate _ he
  · obtain ⟨_, _, hr⟩ := bind_eq_ok.1 hr
    exact (hd₁.credited hr).pushUpdate _ ((effectivePosition_credit hr).trans he)

theorem ClaimVestedAction.recorded {a : ClaimVestedAction}
    (h : a.apply codec state ctx = .ok d) : Recorded codec state d := by
  simp only [ClaimVestedAction.apply, bind_eq_ok, orFail_eq_ok] at h
  obtain ⟨e, he, _, _, h⟩ := h
  split at h
  · cases h
    exact .new
  · simp only [bind_eq_ok] at h
    obtain ⟨_, _, d₁, hc, _, _, h⟩ := h
    cases h
    exact (Recorded.new.credited hc).pushUpdate _
      ((effectivePosition_credit hc).trans he)

theorem RefundAction.recorded {a : RefundAction} (h : a.apply state = .ok d) :
    Recorded codec state d := by
  simp only [RefundAction.apply, bind_eq_ok] at h
  obtain ⟨_, _, d₁, hc, h⟩ := h
  have hd₁ : Recorded codec state d₁ := Recorded.new.credited hc
  split at h
  · rename_i hs
    cases h
    exact hd₁.closed (effectivePosition_isSome.symm.trans hs)
  · cases h
    exact hd₁

theorem WithdrawCommitAction.recorded {a : WithdrawCommitAction}
    (h : a.apply codec state ctx = .ok d) : Recorded codec state d := by
  simp only [WithdrawCommitAction.apply, bind_eq_ok, orFail_eq_ok] at h
  obtain ⟨_, _, _, _, _, _, e, he, _, _, _, _, d₁, hc, h⟩ := h
  have hd₁ : Recorded codec state d₁ := Recorded.new.credited hc
  have he := (effectivePosition_credit hc).trans he
  split at h
  · cases h
    refine hd₁.closed ?_
    rw [← effectivePosition_isSome, he]
    rfl
  · cases h
    exact hd₁.pushUpdate _ he

theorem LaunchpadAction.outcome {a : LaunchpadAction} (h : a.apply codec state ctx = .ok d) :
    Outcome codec state d True := by
  cases a with
  | commit a => exact (CommitAction.recorded h).outcome
  | claimAllocation a => exact (ClaimAllocationAction.recorded h).outcome
  | claimVested a => exact (ClaimVestedAction.recorded h).outcome
  | refund a => exact (RefundAction.recorded h).outcome
  | withdrawCommit a => exact (WithdrawCommitAction.recorded h).outcome

theorem applyOutflow_recorded {a : Decimal}
    (h : applyOutflow kit codec state ctx a = .ok d) : Recorded codec state d := by
  simp only [applyOutflow, bind_eq_ok] at h
  obtain ⟨_, _, h⟩ := h
  split at h
  · simp only [bind_eq_ok] at h
    obtain ⟨_, _, _, _, hu⟩ := h
    exact Recorded.new.upsert hu fun p => by unfold mutateHl; split <;> rfl
  · exact Recorded.new.openPosition h

theorem HyperliquidCoreAction.outcome {a : HyperliquidCoreAction}
    (h : a.apply kit codec state ctx = .ok d) : Outcome codec state d True := by
  cases a with
  | withdraw amo | usdSend amo => exact (applyOutflow_recorded h).outcome
  | _ =>
    cases h
    exact Recorded.new.outcome

end Dambi.Asset
