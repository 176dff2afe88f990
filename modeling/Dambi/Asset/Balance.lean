import Dambi.Asset.Ledger

/-!
# Debits and credits

`helpers/balance.rs`: a debit checks the balance the delta has reached so far,
a credit only that the token is held. Amounts are unsigned and recorded as
signed changes, so both saturate above the largest signed amount.
-/

namespace Dambi.Asset

open FixedWidth Fallible List Option

/-- `delta.token_changes.push(tc)`. -/
def StateDelta.pushToken (delta : StateDelta) (tc : TokenChange) : StateDelta :=
  { delta with tokenChanges := delta.tokenChanges ++ [tc] }

variable (state : WalletState)

def fungibleBalance (key : TokenKey) : ReducerResult U256 := do
  let holding ← orFail (state.tokens.lookup key) (.tokenNotFound key)
  orBroken holding.balance.asFungible
    s!"expected fungible balance for {key.debug}, found non-fungible (Owned)"

variable (delta : StateDelta) (key : TokenKey)

def effectiveSignedBalance :
    ReducerResult I256 := do
  let base ← fungibleBalance state key
  return (deltasOf key delta.tokenChanges).foldl Signed.saturatingAdd (u256ToSignedSaturating base)

def debit (state : WalletState) (delta : StateDelta) (key : TokenKey) (amount : U256) :
    ReducerResult StateDelta := do
  let effective ← effectiveSignedBalance state delta key
  let amountSigned := u256ToSignedSaturating amount
  ensure (amountSigned ≤ effective)
    s!"balance underflow for {key.debug}: effective {effective}, debit {amount}"
  return delta.pushToken (.balanceDelta key (-amountSigned))

def credit (amount : U256) :
    ReducerResult StateDelta := do
  let _ ← fungibleBalance state key
  return delta.pushToken (.balanceDelta key (u256ToSignedSaturating amount))

/-- The recipient is not recorded: only the sender's side is simulated. -/
def transfer (_recipient : Address)
    (amount : U256) : ReducerResult StateDelta :=
  debit state delta key amount

def transferNft (_recipient : Address)
    (amount : Option U256) : ReducerResult StateDelta :=
  match key with
  | .erc1155 _ _ _ => do
    let amt ← orBroken amount
      s!"transfer_nft on ERC1155 {key.debug} requires an explicit amount"
    debit state delta key amt
  | .erc721 _ _ _ => do
    let _ ← orFail (state.tokens.lookup key) (.tokenNotFound key)
    return delta.pushToken (.balanceDelta key (-Signed.one))
  | _ => broken s!"transfer_nft requires Erc721 or Erc1155 key, got {key.debug}"

section Loops

variable (state : WalletState) (delta : StateDelta) (amounts : List (TokenRef × U256))

def debitAll : ReducerResult StateDelta :=
  amounts.foldlM (fun delta (token, amount) => debit state delta token.key amount) delta

def creditAll : ReducerResult StateDelta :=
  amounts.foldlM (fun delta (token, amount) => credit state delta token.key amount) delta

/-- The loop of claims and fees, which passes over what is zero. -/
def creditNonzero : ReducerResult StateDelta :=
  amounts.foldlM (fun delta (token, amount) =>
    if amount = 0 then .ok delta else credit state delta token.key amount) delta

end Loops

/-! ## The balance reached so far -/

section Reached

variable {state t : WalletState} {delta delta' : StateDelta} {key : TokenKey} {x y amount : U256}

theorem fungibleBalance_eq_ok :
    fungibleBalance state key = .ok x ↔ state.balanceOf key = some (.fungible x) := by
  simp only [fungibleBalance, bind_eq_ok, orFail_eq_ok, orBroken, WalletState.balanceOf_eq_some]
  refine exists_congr fun ho => and_congr_right fun _ => ?_
  cases ho.balance <;> simp [Balance.asFungible]

variable {d : I256}

/-- What a change leaves is what the next check starts from. -/
theorem saturatingAdd_of_addSigned (h : addSigned x d = some y) :
    (u256ToSignedSaturating x).saturatingAdd d = u256ToSignedSaturating y := by
  simp only [addSigned] at h
  split at h
  · cases h
  · rename_i hn
    rw [← some.inj h]
    rw [Signed.isNegative_iff] at hn
    have hv := Signed.val_toUnsigned (Int.not_lt.1 hn)
    have hu := ((u256ToSignedSaturating x).saturatingAdd d).upper
    refine Signed.ext ?_
    rw [val_toSigned, signedToU256Saturating, hv, ceiling_eq]
    omega

theorem foldl_saturatingAdd {ds : List I256} (h : ledger x ds = some y) :
    ds.foldl Signed.saturatingAdd (u256ToSignedSaturating x) = u256ToSignedSaturating y := by
  induction ds generalizing x with
  | nil => rw [some.inj h, foldl_nil]
  | cons d ds ih =>
    obtain ⟨mid, hm, h⟩ := bind_eq_some_iff.1 h
    rw [foldl_cons, saturatingAdd_of_addSigned hm, ih h]

theorem effectiveSignedBalance_eq (ht : delta.tokenChanges.foldlM applyTokenChange state = .ok t)
    (hx : state.balanceOf key = some (.fungible x)) : ∃ y, t.balanceOf key = some (.fungible y) ∧
      effectiveSignedBalance state delta key = .ok (u256ToSignedSaturating y) := by
  obtain ⟨y, hy, hb⟩ := balanceOf_of_held ht hx
  refine ⟨y, hb, ?_⟩
  rw [effectiveSignedBalance, fungibleBalance_eq_ok.2 hx, ok_bind, foldl_saturatingAdd hy]
  rfl

theorem toSigned_le_iff : u256ToSignedSaturating amount ≤ u256ToSignedSaturating y ↔
    amount.val ≤ y.val ∨ ceiling ≤ y.val := by
  rw [Signed.le_iff, val_toSigned, val_toSigned]
  omega

theorem debit_eq_ok (ht : delta.tokenChanges.foldlM applyTokenChange state = .ok t) :
    debit state delta key amount = .ok delta' ↔ ∃ x y, state.balanceOf key = some (.fungible x) ∧
      t.balanceOf key = some (.fungible y) ∧ (amount.val ≤ y.val ∨ ceiling ≤ y.val) ∧
      delta' = delta.pushToken (.balanceDelta key (-u256ToSignedSaturating amount)) := by
  simp only [debit, bind_eq_ok, ensure, require_eq_ok]
  constructor
  · rintro ⟨e, he, _, hl, h⟩
    obtain ⟨x, hx, -⟩ := bind_eq_ok.1 he
    have hx := fungibleBalance_eq_ok.1 hx
    obtain ⟨y, hy, hr⟩ := effectiveSignedBalance_eq ht hx
    cases hr.symm.trans he
    exact ⟨x, y, hx, hy, toSigned_le_iff.1 hl, (Except.ok.inj h).symm⟩
  · rintro ⟨x, y, hx, hy, hl, rfl⟩
    obtain ⟨y', hy', hr⟩ := effectiveSignedBalance_eq ht hx
    cases hy'.symm.trans hy
    exact ⟨_, hr, (), toSigned_le_iff.2 hl, rfl⟩

theorem credit_eq_ok : credit state delta key amount = .ok delta' ↔ ∃ x,
    state.balanceOf key = some (.fungible x) ∧
      delta' = delta.pushToken (.balanceDelta key (u256ToSignedSaturating amount)) := by
  simp only [credit, bind_eq_ok, fungibleBalance_eq_ok]
  constructor
  · rintro ⟨x, hx, h⟩
    exact ⟨x, hx, (Except.ok.inj h).symm⟩
  · rintro ⟨x, hx, rfl⟩
    exact ⟨x, hx, rfl⟩

theorem addSigned_of_nonneg (h : 0 ≤ min (y.val : Int) ceiling + d.val) :
    ∃ z, addSigned y d = some z := by
  have hc := ceiling_eq
  have hs : Saturation.step ceiling y.val d.val = some _ :=
    Saturation.step_eq_some.2 ⟨by omega, rfl⟩
  rw [← addSigned_val, map_eq_some_iff] at hs
  obtain ⟨z, hz, -⟩ := hs
  exact ⟨z, hz⟩

section

variable (ht : delta.tokenChanges.foldlM applyTokenChange state = .ok t)
include ht

theorem foldlM_pushToken {d : I256} (hy : t.balanceOf key = some (.fungible y))
    (hd : 0 ≤ min (y.val : Int) ceiling + d.val) : ∃ t',
    (delta.pushToken (.balanceDelta key d)).tokenChanges.foldlM applyTokenChange state = .ok t' :=
    by
  obtain ⟨z, hz⟩ := addSigned_of_nonneg hd
  have hs := (applyTokenChange_delta hy).2 ⟨z, hz, rfl⟩
  refine ⟨t.setBalance key z, ?_⟩
  rw [StateDelta.pushToken, foldlM_append, ht, ok_bind, foldlM_cons, hs]
  rfl

theorem debit_applies (h : debit state delta key amount = .ok delta') :
    ∃ t', delta'.tokenChanges.foldlM applyTokenChange state = .ok t' := by
  obtain ⟨x, y, -, hy, hl, rfl⟩ := (debit_eq_ok ht).1 h
  refine foldlM_pushToken ht hy ?_
  rw [val_neg_toSigned]
  omega

theorem credit_applies (h : credit state delta key amount = .ok delta') :
    ∃ t', delta'.tokenChanges.foldlM applyTokenChange state = .ok t' := by
  obtain ⟨x, hx, rfl⟩ := credit_eq_ok.1 h
  obtain ⟨y, -, hy⟩ := balanceOf_of_held ht hx
  refine foldlM_pushToken ht hy ?_
  have hc := ceiling_eq
  have hv := val_toSigned amount
  omega

end

end Reached

/-! ## Sequences of debits and credits -/

inductive BalanceOp where
  | debit (key : TokenKey) (amount : U256)
  | credit (key : TokenKey) (amount : U256)

namespace BalanceOp

def perform (state : WalletState) (delta : StateDelta) : BalanceOp → ReducerResult StateDelta
  | debit key amount => Asset.debit state delta key amount
  | credit key amount => Asset.credit state delta key amount

def change : BalanceOp → TokenChange
  | debit key amount => .balanceDelta key (-u256ToSignedSaturating amount)
  | credit key amount => .balanceDelta key (u256ToSignedSaturating amount)

/-- What an operation means for a token: the amount over the integers. -/
def amountOf (key : TokenKey) : BalanceOp → Option Int
  | debit k amount => if k = key then some (-amount.val) else none
  | credit k amount => if k = key then some amount.val else none

def amountsOf (key : TokenKey) (ops : List BalanceOp) : List Int := ops.filterMap (amountOf key)

/-- An amount as it is recorded: cut off at the ceiling. -/
def recorded (i : Int) : Int := max (-ceiling) (min i ceiling)

variable {state : WalletState} {delta : StateDelta}

variable {delta' : StateDelta} {ops : List BalanceOp}

theorem perform_eq_ok {op : BalanceOp} (h : op.perform state delta = .ok delta') :
    delta' = delta.pushToken op.change := by
  cases op with
  | debit key amount =>
    obtain ⟨_, _, h⟩ := bind_eq_ok.1 h
    obtain ⟨_, _, h⟩ := bind_eq_ok.1 h
    exact (Except.ok.inj h).symm
  | credit key amount =>
    obtain ⟨_, -, h⟩ := credit_eq_ok.1 h
    exact h

theorem foldlM_perform (h : ops.foldlM (fun delta op => op.perform state delta) delta = .ok delta')
    :
    delta' = { delta with tokenChanges := delta.tokenChanges ++ ops.map change } := by
  induction ops generalizing delta with
  | nil =>
    cases h
    cases delta'
    simp
  | cons op ops ih =>
    obtain ⟨mid, hm, h⟩ := bind_eq_ok.1 h
    rw [ih h, perform_eq_ok hm, StateDelta.pushToken, map_cons, append_assoc]
    rfl

theorem deltaOf_change (key : TokenKey) (op : BalanceOp) :
    (op.change.deltaOf key).map (·.val) = (op.amountOf key).map recorded := by
  have hc := ceiling_eq
  cases op with
  | debit k amount =>
    have ha := val_toSigned amount
    simp only [change, TokenChange.deltaOf, amountOf]
    split
    · rw [map_some, map_some, Signed.val_neg (by omega), recorded]
      exact congrArg some (by omega)
    · rfl
  | credit k amount =>
    have ha := val_toSigned amount
    simp only [change, TokenChange.deltaOf, amountOf]
    split
    · rw [map_some, map_some, recorded]
      exact congrArg some (by omega)
    · rfl

theorem values_deltasOf (key : TokenKey) (ops : List BalanceOp) :
    values (deltasOf key (ops.map change)) = (amountsOf key ops).map recorded := by
  simp only [values, deltasOf, amountsOf, map_filterMap, filterMap_map]
  exact congrArg (ops.filterMap ·) (funext (deltaOf_change key))

theorem map_recorded {is : List Int} (h : ∀ i ∈ is, -ceiling ≤ i ∧ i ≤ ceiling) :
    is.map recorded = is := by
  refine (map_congr_left fun i hi => ?_).trans (List.map_id is)
  have hi := h i hi
  simp only [recorded, id]
  omega

theorem foldlM_perform_applies
    (h : ops.foldlM (fun delta op => op.perform state delta) StateDelta.new = .ok delta) :
    ∃ t, delta.tokenChanges.foldlM applyTokenChange state = .ok t := by
  refine foldlM_invariant (fun delta : StateDelta =>
    ∃ t, delta.tokenChanges.foldlM applyTokenChange state = .ok t) ?_ h ⟨state, rfl⟩
  rintro delta op delta' - ⟨t, ht⟩ hs
  cases op with
  | debit key amount => exact debit_applies ht hs
  | credit key amount => exact credit_applies ht hs

end BalanceOp

/-- Debits and credits that are all accepted can be applied. The balance of a token runs through
the recorded amounts; it is the sum over the integers while no amount and no balance passes the
ceiling; and the next debit is accepted exactly when the balance covers it or is at the ceiling. -/
theorem balance_bookkeeping {codec : PositionCodec} {state : WalletState} {ops : List BalanceOp}
    {delta : StateDelta}
    (h : ops.foldlM (fun delta op => op.perform state delta) StateDelta.new = .ok delta) :
    ∃ t, applyDelta codec state delta = .ok t ∧
      ∀ key x, state.balanceOf key = some (.fungible x) → ∃ y,
        t.balanceOf key = some (.fungible y) ∧
        Saturation.run ceiling x.val ((BalanceOp.amountsOf key ops).map BalanceOp.recorded) =
          some (y.val : Int) ∧
        ((∀ i ∈ BalanceOp.amountsOf key ops, -ceiling ≤ i ∧ i ≤ ceiling) →
          x.val + Saturation.high (BalanceOp.amountsOf key ops) ≤ ceiling →
            (y.val : Int) = x.val + (BalanceOp.amountsOf key ops).sum) ∧
        ∀ amount, (∃ delta', debit state delta key amount = .ok delta') ↔
          amount.val ≤ y.val ∨ ceiling ≤ y.val := by
  obtain ⟨t, ht⟩ := BalanceOp.foldlM_perform_applies h
  have hd := BalanceOp.foldlM_perform h
  have ha : applyAssets state delta = .ok t := by
    rw [applyAssets, ht, ok_bind, hd]
    rfl
  refine ⟨t.withRest state.positions state.pending, applyDelta_eq_ok.2
    ⟨t, _, _, ha, by rw [hd]; rfl, by rw [hd]; rfl, rfl⟩, fun key x hx => ?_⟩
  obtain ⟨y, hy, hb⟩ := balanceOf_of_held ht hx
  have hc : delta.tokenChanges = ops.map BalanceOp.change := by
    rw [hd]
    rfl
  rw [hc, ledger_eq_some, BalanceOp.values_deltasOf] at hy
  refine ⟨y, hb, hy, fun ham hh => ?_, fun amount => ?_⟩
  · rw [BalanceOp.map_recorded ham] at hy
    have hlo := ((Saturation.run_eq_some (by omega) ceiling_nonneg).1 hy).1
    have hs := Saturation.run_eq_sum (x := x.val) (by omega) hh (by omega)
    exact some.inj (hy.symm.trans hs)
  · simp only [debit_eq_ok ht, hx, hb, some.injEq, Balance.fungible.injEq]
    constructor
    · rintro ⟨_, _, _, rfl, rfl, hl, -⟩
      exact hl
    · intro hl
      exact ⟨_, x, y, rfl, rfl, hl, rfl⟩

/-- At the ceiling a credit is lost, and a debit of more than the balance is accepted. -/
theorem balance_at_ceiling :
    (do let delta ← credit (walletHolding ether (.ofNat (2 ^ 255 - 1))) .new ether 1
        let t ← applyDelta .numbered (walletHolding ether (.ofNat (2 ^ 255 - 1))) delta
        return t.balanceOf ether) = .ok (some (.fungible (.ofNat (2 ^ 255 - 1)))) ∧
    (do let delta ← debit (walletHolding ether (.ofNat (2 ^ 255 - 1))) .new ether (.ofNat (2 ^ 255))
        let t ← applyDelta .numbered (walletHolding ether (.ofNat (2 ^ 255 - 1))) delta
        return t.balanceOf ether) = .ok (some (.fungible 0)) :=
  ⟨rfl, rfl⟩

theorem balance_bookkeeping_ether : ∃ delta t,
    [BalanceOp.debit ether 3, .credit ether 4].foldlM
      (fun delta op => op.perform (walletHolding ether 5) delta) StateDelta.new = .ok delta ∧
    applyDelta .numbered (walletHolding ether 5) delta = .ok t ∧
    t.balanceOf ether = some (.fungible 6) ∧
    Saturation.run ceiling 5 [-3, 4] = some 6 ∧
    ∀ amount, (∃ delta', debit (walletHolding ether 5) delta ether amount = .ok delta') ↔
      amount.val ≤ 6 := by
  have ho : [BalanceOp.debit ether 3, .credit ether 4].foldlM
      (fun delta op => op.perform (walletHolding ether 5) delta) StateDelta.new = .ok _ := rfl
  obtain ⟨t, ht, hk⟩ := @balance_bookkeeping .numbered _ _ _ ho
  obtain ⟨y, hy, hr, hs, hd⟩ := hk ether 5 rfl
  have hs : (y.val : Int) = 6 := hs (by decide) (by decide)
  obtain rfl : y = 6 := Unsigned.ext (Nat.cast_injective hs)
  refine ⟨_, t, ho, ht, hy, hr, fun amount => (hd amount).trans (or_iff_left ?_)⟩
  decide

end Dambi.Asset
