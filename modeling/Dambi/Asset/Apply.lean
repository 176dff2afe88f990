import Dambi.Asset.Merge
import Dambi.Asset.Soundness

/-!
# Applying actions

`apply.rs`: the reducer of an action body, which sends each domain to its own
reducer and plays the children of a multicall one after the other. The delta of
a multicall is the merge of the deltas of its children.
-/

namespace Dambi.Asset

open FixedWidth Fallible

/-- `ActionBody`. The domains that are not simulated carry no data here. -/
inductive ActionBody where
  | token (a : TokenAction)
  | amm (a : AmmAction)
  | lending (a : LendingAction)
  | airdrop (a : AirdropAction)
  | launchpad (a : LaunchpadAction)
  | perp (a : PerpAction)
  | liquidStaking
  | permission
  | yield
  | restaking
  | staking
  | governance
  | hyperliquidCore (a : HyperliquidCoreAction)
  | marketplace
  | bridge
  | multicall (actions : List ActionBody)
  | unknown (target : Address)

def EvalContext.withActionIndex (ctx : EvalContext) (i : Nat) : EvalContext :=
  { ctx with actionIndex := i }

section Apply

variable {D : Type} (kit : DecimalKit D) (codec : PositionCodec)

mutual

def ActionBody.apply (state : WalletState) (ctx : EvalContext) :
    ActionBody → ReducerResult StateDelta
  | .token a => a.apply state ctx
  | .amm a => a.apply kit state ctx
  | .lending a => a.apply kit codec state ctx
  | .airdrop a => a.apply state ctx
  | .launchpad a => a.apply codec state ctx
  | .perp a => a.apply kit codec state ctx
  | .liquidStaking => .ok .new
  | .permission => .ok .new
  | .yield => .ok .new
  | .restaking => .ok .new
  | .staking => .ok .new
  | .governance => .ok .new
  | .hyperliquidCore a => a.apply kit codec state ctx
  | .marketplace => .ok .new
  | .bridge => .ok .new
  | .multicall actions => applyMulticall ctx 0 .new state actions
  | .unknown target => fail (.unknownAction s!"unidentified call to {lowercaseHex target}")

/-- `apply_multicall`, from the child of an index on: `accumulated` is what the children so far
have recorded, `current` the wallet they have left. -/
def applyMulticall (ctx : EvalContext) (i : Nat) (accumulated : StateDelta)
    (current : WalletState) : List ActionBody → ReducerResult StateDelta
  | [] => .ok accumulated
  | body :: rest => do
    let subDelta ← body.apply current (ctx.withActionIndex i)
    let current ← applyDelta codec current subDelta
    let accumulated ← mergeDelta accumulated subDelta
    applyMulticall ctx (i + 1) accumulated current rest

end

/-- The wallet after actions that are applied one after the other, each of them reduced against
the wallet that the ones before it have left. -/
def childrenInTurn (ctx : EvalContext) (i : Nat) (current : WalletState) :
    List ActionBody → ReducerResult WalletState
  | [] => .ok current
  | body :: rest => do
    let subDelta ← body.apply kit codec current (ctx.withActionIndex i)
    let current ← applyDelta codec current subDelta
    childrenInTurn ctx (i + 1) current rest

mutual

/-- The wallet after the leaves of an action are applied one after the other, without any merged
delta. -/
def ActionBody.run (state : WalletState) (ctx : EvalContext) :
    ActionBody → ReducerResult WalletState
  | .multicall actions => leavesInTurn ctx 0 state actions
  | body => do applyDelta codec state (← body.apply kit codec state ctx)

def leavesInTurn (ctx : EvalContext) (i : Nat) (current : WalletState) :
    List ActionBody → ReducerResult WalletState
  | [] => .ok current
  | body :: rest => do
    let current ← body.run current (ctx.withActionIndex i)
    leavesInTurn ctx (i + 1) current rest

end

end Apply

/-! ## Merged deltas without gas -/

section Multicall

variable {D : Type} {kit : DecimalKit D} {codec : PositionCodec} {state current final : WalletState}
  {ctx : EvalContext} {i : Nat} {a b d m acc : StateDelta} {body : ActionBody}
  {rest : List ActionBody}

theorem applyMulticall_cons_eq_ok :
    applyMulticall kit codec ctx i acc current (body :: rest) = .ok d ↔ ∃ sub next merged,
      body.apply kit codec current (ctx.withActionIndex i) = .ok sub ∧
        applyDelta codec current sub = .ok next ∧ mergeDelta acc sub = .ok merged ∧
        applyMulticall kit codec ctx (i + 1) merged next rest = .ok d := by
  simp only [applyMulticall, bind_eq_ok]
  constructor
  · rintro ⟨sub, hs, next, hn, merged, hm, h⟩
    exact ⟨sub, next, merged, hs, hn, hm, h⟩
  · rintro ⟨sub, next, merged, hs, hn, hm, h⟩
    exact ⟨sub, hs, next, hn, merged, hm, h⟩

theorem childrenInTurn_cons_eq_ok :
    childrenInTurn kit codec ctx i current (body :: rest) = .ok final ↔ ∃ sub next,
      body.apply kit codec current (ctx.withActionIndex i) = .ok sub ∧
        applyDelta codec current sub = .ok next ∧
        childrenInTurn kit codec ctx (i + 1) next rest = .ok final := by
  simp only [childrenInTurn, bind_eq_ok]
  constructor
  · rintro ⟨sub, hs, next, hn, h⟩
    exact ⟨sub, next, hs, hn, h⟩
  · rintro ⟨sub, next, hs, hn, h⟩
    exact ⟨sub, hs, next, hn, h⟩

theorem mergeDelta_gasFree (h : mergeDelta a b = .ok m) (ha : a.gasPaid = none)
    (hb : b.gasPaid = none) : m.gasPaid = none := by
  obtain ⟨gp, hg, rfl⟩ := mergeDelta_eq_ok.1 h
  rw [ha, hb] at hg
  exact (Except.ok.inj hg).symm

theorem applyDelta_of_merge (h : mergeDelta a b = .ok m) (ha : a.gasPaid = none)
    (hap : applyDelta codec state a = .ok current)
    (hn : applyDelta codec current b = .ok final) : applyDelta codec state m = .ok final := by
  have hag : (applyDelta codec state m).toOption = _ :=
    agree_of_assets h (congrArg _ (assets_of_no_gas h ha))
  rw [hap, ok_bind, hn] at hag
  exact toOption_eq_some.1 hag

mutual

theorem ActionBody.apply_gasFree : ∀ {body : ActionBody} {state : WalletState} {ctx : EvalContext}
    {d : StateDelta}, body.apply kit codec state ctx = .ok d → d.gasPaid = none
  | .token _, _, _, _, h => (TokenAction.outcome h : Outcome codec _ _ _).gasFree
  | .amm _, _, _, _, h => (AmmAction.outcome h : Outcome codec _ _ _).gasFree
  | .lending _, _, _, _, h => (LendingAction.outcome h).gasFree
  | .airdrop _, _, _, _, h => (AirdropAction.outcome h : Outcome codec _ _ _).gasFree
  | .launchpad _, _, _, _, h => (LaunchpadAction.outcome h).gasFree
  | .perp _, _, _, _, h => (PerpAction.outcome h).gasFree
  | .hyperliquidCore _, _, _, _, h => (HyperliquidCoreAction.outcome h).gasFree
  | .liquidStaking, _, _, _, rfl => rfl
  | .permission, _, _, _, rfl => rfl
  | .yield, _, _, _, rfl => rfl
  | .restaking, _, _, _, rfl => rfl
  | .staking, _, _, _, rfl => rfl
  | .governance, _, _, _, rfl => rfl
  | .marketplace, _, _, _, rfl => rfl
  | .bridge, _, _, _, rfl => rfl
  | .multicall acs, state, ctx, _, h =>
    applyMulticall_gasFree (show applyMulticall kit codec ctx 0 .new state acs = _ from h) rfl

theorem applyMulticall_gasFree : ∀ {acs : List ActionBody} {ctx : EvalContext} {i : Nat}
    {acc : StateDelta} {current : WalletState} {d : StateDelta},
    applyMulticall kit codec ctx i acc current acs = .ok d → acc.gasPaid = none → d.gasPaid = none
  | [], _, _, _, _, _, rfl, ha => ha
  | body :: rest, _, _, _, _, _, h, ha => by
    obtain ⟨sub, _, merged, hs, _, hm, h⟩ := applyMulticall_cons_eq_ok.1 h
    exact applyMulticall_gasFree h (mergeDelta_gasFree hm ha (ActionBody.apply_gasFree hs))

end

theorem applyMulticall_childrenInTurn {acs : List ActionBody}
    (h : applyMulticall kit codec ctx i acc current acs = .ok d)
    (hg : acc.gasPaid = none) (ha : applyDelta codec state acc = .ok current) : ∃ final,
      applyDelta codec state d = .ok final ∧
        childrenInTurn kit codec ctx i current acs = .ok final := by
  induction acs generalizing i acc current with
  | nil =>
    cases h
    exact ⟨current, ha, rfl⟩
  | cons body rest ih =>
    obtain ⟨sub, next, merged, hs, hn, hm, h⟩ := applyMulticall_cons_eq_ok.1 h
    have hmr := applyDelta_of_merge hm hg ha hn
    have hg := mergeDelta_gasFree hm hg (ActionBody.apply_gasFree hs)
    obtain ⟨final, hf, ht⟩ := ih h hg hmr
    exact ⟨final, hf, childrenInTurn_cons_eq_ok.2 ⟨sub, next, hs, hn, ht⟩⟩

theorem applyDelta_new : applyDelta codec state .new = .ok state := rfl

mutual

theorem ActionBody.run_eq : ∀ {body : ActionBody} {state : WalletState} {ctx : EvalContext}
    {d : StateDelta}, body.apply kit codec state ctx = .ok d →
      body.run kit codec state ctx = applyDelta codec state d
  | .multicall acs, state, ctx, d, h => by
    have hm : applyMulticall kit codec ctx 0 .new state acs = .ok d := h
    obtain ⟨final, hf, ht⟩ := applyMulticall_childrenInTurn hm rfl applyDelta_new
    rw [hf, ← ht]
    exact leavesInTurn_eq ht
  | .token _, _, _, _, h => congrArg (· >>= applyDelta codec _) h
  | .amm _, _, _, _, h => congrArg (· >>= applyDelta codec _) h
  | .lending _, _, _, _, h => congrArg (· >>= applyDelta codec _) h
  | .airdrop _, _, _, _, h => congrArg (· >>= applyDelta codec _) h
  | .launchpad _, _, _, _, h => congrArg (· >>= applyDelta codec _) h
  | .perp _, _, _, _, h => congrArg (· >>= applyDelta codec _) h
  | .hyperliquidCore _, _, _, _, h => congrArg (· >>= applyDelta codec _) h
  | .liquidStaking, _, _, _, rfl => rfl
  | .permission, _, _, _, rfl => rfl
  | .yield, _, _, _, rfl => rfl
  | .restaking, _, _, _, rfl => rfl
  | .staking, _, _, _, rfl => rfl
  | .governance, _, _, _, rfl => rfl
  | .marketplace, _, _, _, rfl => rfl
  | .bridge, _, _, _, rfl => rfl

theorem leavesInTurn_eq : ∀ {acs : List ActionBody} {ctx : EvalContext} {i : Nat}
    {current final : WalletState}, childrenInTurn kit codec ctx i current acs = .ok final →
      leavesInTurn kit codec ctx i current acs = childrenInTurn kit codec ctx i current acs
  | [], _, _, _, _, _ => rfl
  | body :: rest, _, _, _, _, h => by
    obtain ⟨sub, next, hs, hn, h⟩ := childrenInTurn_cons_eq_ok.1 h
    rw [leavesInTurn, childrenInTurn, ActionBody.run_eq hs, hs, ok_bind, hn, ok_bind,
      ok_bind, leavesInTurn_eq h]

end

/-- The delta of a multicall applies, and leaves the wallet that its children leave when each of
them is applied to the wallet of the ones before it. -/
theorem multicall_simulates {actions : List ActionBody}
    (h : (ActionBody.multicall actions).apply kit codec state ctx = .ok d) : ∃ final,
      applyDelta codec state d = .ok final ∧
        childrenInTurn kit codec ctx 0 state actions = .ok final ∧
        leavesInTurn kit codec ctx 0 state actions = .ok final := by
  have hm : applyMulticall kit codec ctx 0 .new state actions = .ok d := h
  obtain ⟨final, hf, ht⟩ := applyMulticall_childrenInTurn hm rfl applyDelta_new
  exact ⟨final, hf, ht, (leavesInTurn_eq ht).trans ht⟩

end Multicall

def sampleContext : EvalContext := ⟨⟨"eip155:1"⟩, 0, 0, .transaction, .preview⟩

def sendEther (amount : U256) : ActionBody := .token (.erc20Transfer ⟨⟨ether⟩, 1, amount, false⟩)

/-- Two transfers, the second of them nested. -/
theorem multicall_simulates_transfers :
    (ActionBody.multicall [sendEther 3, .multicall [sendEther 4]]).apply .whole .numbered
        (walletHolding ether 10) sampleContext =
      .ok ⟨[.balanceDelta ether (.clamp (-3)), .balanceDelta ether (.clamp (-4))], [], [], none⟩ ∧
    ∃ final,
      applyDelta .numbered (walletHolding ether 10)
        ⟨[.balanceDelta ether (.clamp (-3)), .balanceDelta ether (.clamp (-4))], [], [], none⟩ =
          .ok final ∧
      childrenInTurn .whole .numbered sampleContext 0 (walletHolding ether 10)
        [sendEther 3, .multicall [sendEther 4]] = .ok final ∧
      leavesInTurn .whole .numbered sampleContext 0 (walletHolding ether 10)
        [sendEther 3, .multicall [sendEther 4]] = .ok final :=
  ⟨rfl, multicall_simulates rfl⟩

/-! ## Soundness -/

/-- The actions of the domains that change holdings and positions. -/
inductive CoreAction where
  | token (a : TokenAction)
  | amm (a : AmmAction)
  | lending (a : LendingAction)
  | perp (a : PerpAction)

namespace CoreAction

def body : CoreAction → ActionBody
  | token a => .token a
  | amm a => .amm a
  | lending a => .lending a
  | perp a => .perp a

/-- What an action needs of the wallet beyond what its reducer checks: an NFT that is approved is
held, one that is sent has a balance, an order that is cancelled is pending, and a delegated asset
has a contract. -/
def Applicable (state : WalletState) : CoreAction → Prop
  | token a => a.Applicable state
  | amm a => a.Applicable state
  | lending a => a.Applicable
  | perp a => a.Applicable state

end CoreAction

/-- A delta that a reducer returns applies to the wallet it was computed from exactly when the
wallet has what the reducer does not look at. -/
theorem applyDelta_of_apply_iff {D : Type} {kit : DecimalKit D} {codec : PositionCodec}
    {state : WalletState} {ctx : EvalContext} {a : CoreAction} {d : StateDelta}
    (h : a.body.apply kit codec state ctx = .ok d) :
    (∃ t, applyDelta codec state d = .ok t) ↔ a.Applicable state := by
  cases a with
  | token a => exact (TokenAction.outcome h).applies_iff
  | amm a => exact (AmmAction.outcome h).applies_iff
  | lending a => exact (LendingAction.outcome h).applies_iff
  | perp a => exact (PerpAction.outcome h).applies_iff

/-- A token of a collection. -/
def sampleNft : TokenKey := .erc721 ⟨"eip155:1"⟩ 7 1

/-- A wallet that owns the token. -/
def nftOwner : WalletState :=
  { WalletState.new ⟨0, ∅⟩ with
    tokens := Finmap.singleton sampleNft
      { mintStubHolding sampleNft .unknown with balance := .owned } }

/-- An approval of a token applies where the wallet has the token, and nowhere else. -/
theorem applyDelta_of_apply_iff_nft :
    let approve := CoreAction.token (.nftApprove ⟨sampleNft, 9⟩)
    ∃ d, approve.body.apply .whole .numbered nftOwner sampleContext = .ok d ∧
      (∃ t, applyDelta .numbered nftOwner d = .ok t) ∧
      approve.body.apply .whole .numbered (walletHolding ether 10) sampleContext = .ok d ∧
      ¬ ∃ t, applyDelta .numbered (walletHolding ether 10) d = .ok t := by
  intro approve
  have ho : approve.body.apply .whole .numbered nftOwner sampleContext = .ok _ := rfl
  have he : approve.body.apply .whole .numbered (walletHolding ether 10) sampleContext = .ok _ :=
    rfl
  refine ⟨_, ho, (applyDelta_of_apply_iff ho).2 rfl, he, fun ha => ?_⟩
  cases (applyDelta_of_apply_iff he).1 ha

/-- The entries of a wallet are under their own names. -/
structure WalletState.WellFormed (state : WalletState) : Prop where
  tokens : ∀ key holding, state.tokens.lookup key = some holding → holding.key = key
  positions : (state.positions.map (·.id)).Nodup
  pending : (state.pending.map (·.id)).Nodup

/-- The transfer of an owned token is accepted, and its delta cannot be applied. -/
theorem nftTransfer_of_owned_fails : nftOwner.WellFormed ∧
    (CoreAction.token (.nftTransfer ⟨sampleNft, none, 1⟩)).body.apply .whole .numbered nftOwner
        sampleContext =
      .ok ⟨[.balanceDelta sampleNft (.clamp (-1))], [], [], none⟩ ∧
    ∀ t, applyDelta .numbered nftOwner
      ⟨[.balanceDelta sampleNft (.clamp (-1))], [], [], none⟩ ≠ .ok t := by
  refine ⟨⟨?_, List.nodup_nil, List.nodup_nil⟩, rfl, ?_⟩
  · intro key ho h
    have hk : key = sampleNft := by
      by_contra hne
      have hn : nftOwner.tokens.lookup key = none :=
        Finmap.lookup_eq_none.2 (mt (Finmap.mem_singleton key sampleNft _).1 hne)
      cases hn.symm.trans h
    subst hk
    cases h
    rfl
  · rintro t h
    cases h

end Dambi.Asset
