import Dambi.Asset.Moves

/-!
# The ledger of a lending account

Supplies, withdrawals, borrowings, repayments and changes of the rate mode on one
venue move amounts between the wallet, the collaterals and the debts of one account.
For every token the wallet balance with the collateral and without the debts stays
the same. A supply that is not eligible as collateral breaks the ledger in one of two
ways, by whether the account exists.
-/

namespace Dambi.Asset

open FixedWidth Fallible List LendingAccount

/-! ## The account of a venue -/

def lendingAccountAt (s : WalletState) (pid : PositionId) : Option LendingAccount :=
  match (s.positionOf pid).map Position.kind with
  | some (.lendingAccount account) => some account
  | _ => none

def LendingAccount.collateralOf (account : LendingAccount) (key : TokenKey) : Nat :=
  entrySum Prod.fst Prod.snd key account.collaterals

def LendingAccount.debtOf (account : LendingAccount) (key : TokenKey) : Nat :=
  entrySum Prod.fst (fun entry => entry.2.1) key account.debts

def collateralAt (s : WalletState) (pid : PositionId) (key : TokenKey) : Nat :=
  (lendingAccountAt s pid).elim 0 (·.collateralOf key)

def debtAt (s : WalletState) (pid : PositionId) (key : TokenKey) : Nat :=
  (lendingAccountAt s pid).elim 0 (·.debtOf key)

/-- What the wallet holds of a token and has supplied, without what it owes. -/
def lendingNet (s : WalletState) (pid : PositionId) (key : TokenKey) : Int :=
  s.held key + collateralAt s pid key - debtAt s pid key

/-- No two collaterals of a token and no two debts of a token and a rate mode. -/
structure LendingAccount.Distinct (account : LendingAccount) : Prop where
  collaterals : (account.collaterals.map Prod.fst).Nodup
  debts : (account.debts.map fun entry => (entry.1, entry.2.2)).Nodup

def DistinctAt (s : WalletState) (pid : PositionId) : Prop :=
  ∀ account ∈ lendingAccountAt s pid, account.Distinct

/-! ## Steps -/

namespace LendingAction

/-- The action is a supply, a withdrawal to the owner, a borrowing, a repayment or a change of the
rate mode on the venue. -/
def OnLedger (owner : Address) (venue : LendingVenue) : LendingAction → Prop
  | supply a => a.venue = venue
  | withdraw a => a.venue = venue ∧ a.recipient = owner
  | borrow a => a.venue = venue
  | repay a => a.venue = venue
  | swapRateMode a => a.venue = venue
  | _ => False

/-- The amounts that a step leaves, the wallet's balance in the signed range and an entry in 256
bits. -/
def Fits (s : WalletState) (pid : PositionId) : LendingAction → Prop
  | supply a => (s.held a.asset.key : Int) < ceiling ∧
      collateralAt s pid a.asset.key + a.amount.val < 2 ^ 256
  | withdraw a => (s.held a.asset.key + collateralAt s pid a.asset.key : Int) ≤ ceiling
  | borrow a => (s.held a.asset.key + a.amount.val : Int) ≤ ceiling ∧
      debtAt s pid a.asset.key + a.amount.val < 2 ^ 256
  | repay a => (s.held a.asset.key : Int) < ceiling
  | swapRateMode a => debtAt s pid a.asset.key < 2 ^ 256
  | _ => True

/-- What is supplied is eligible as collateral, or nothing. -/
def Eligible : LendingAction → Prop
  | supply a => a.eligibleAsCollat.value = true ∨ a.amount = 0
  | _ => True

/-- A supply that is not eligible does not increase a collateral. -/
def KeepsCollateral (s s' : WalletState) (pid : PositionId) : LendingAction → Prop
  | supply a => a.eligibleAsCollat.value = false →
      ∀ key, collateralAt s' pid key ≤ collateralAt s pid key
  | _ => True

/-- An action reduced against a wallet and applied to it. -/
def run {D : Type} (kit : DecimalKit D) (codec : PositionCodec) (s : WalletState)
    (step : EvalContext × LendingAction) : ReducerResult WalletState := do
  applyDelta codec s (← step.2.apply kit codec s step.1)

end LendingAction

/-! ## Entries of an account -/

namespace LendingAccount

variable {account account' : LendingAccount} {asset : TokenRef} {amount left : U256}
  {mode : RateMode} {key : TokenKey}

/-- One token among entries. -/
def share (token : TokenRef) (key : TokenKey) (amount : Nat) : Nat :=
  if token.key = key then amount else 0

theorem cast_share (t : TokenRef) (key : TokenKey) (amount : Nat) :
    (share t key amount : Int) = if t.key = key then (amount : Int) else 0 := by
  rw [share]
  split <;> rfl

theorem neg_share (t : TokenRef) (key : TokenKey) (amount : Nat) :
    -(share t key amount : Int) = if t.key = key then -(amount : Int) else 0 := by
  rw [cast_share]
  split <;> rfl

theorem share_saturatingAdd {held : U256} (hf : held.val + amount.val < 2 ^ 256) :
    share asset key (held.saturatingAdd amount).val =
      share asset key held.val + share asset key amount.val := by
  rw [Unsigned.val_saturatingAdd]
  unfold share
  split <;> omega

theorem share_checkedSub {held : U256} (h : held.checkedSub amount = some left) :
    share asset key left.val + share asset key amount.val = share asset key held.val ∧
      (left = 0 → share asset key held.val = share asset key amount.val) := by
  obtain ⟨hle, hl⟩ := Unsigned.checkedSub_eq_some.1 h
  have hs : share asset key left.val + share asset key amount.val =
      share asset key held.val := by
    unfold share
    split <;> omega
  refine ⟨hs, ?_⟩
  rintro rfl
  rw [Unsigned.val_zero] at hl
  rw [show held.val = amount.val by omega]

theorem collateralOf_mergeCollateral (hf : account.collateralOf asset.key + amount.val < 2 ^ 256) :
    (account.mergeCollateral asset amount).collateralOf key =
      account.collateralOf key + share asset key amount.val := by
  refine sum_mergeFirst (fun x hx hp => ?_) rfl
  obtain rfl : x.1 = asset := of_decide_eq_true hp
  have hl : x.2.val ≤ account.collateralOf x.1.key := le_entrySum _ _ hx
  exact share_saturatingAdd (Nat.lt_of_le_of_lt (Nat.add_le_add_right hl _) hf)

theorem debtOf_mergeDebt (mode : RateMode) (key : TokenKey)
    (hf : account.debtOf asset.key + amount.val < 2 ^ 256) :
    (account.mergeDebt asset amount mode).debtOf key =
      account.debtOf key + share asset key amount.val := by
  refine sum_mergeFirst (fun x hx hp => ?_) rfl
  obtain ⟨rfl, -⟩ : x.1 = asset ∧ x.2.2 = mode := of_decide_eq_true hp
  have hl : x.2.1.val ≤ account.debtOf x.1.key := le_entrySum Prod.fst (fun entry => entry.2.1) hx
  exact share_saturatingAdd (Nat.lt_of_le_of_lt (Nat.add_le_add_right hl _) hf)

theorem collateralOf_reduceCollateral (key : TokenKey)
    (h : account.reduceCollateral asset amount = .ok (left, account')) :
    account'.collateralOf key + share asset key amount.val = account.collateralOf key ∧
      account'.debts = account.debts := by
  simp only [reduceCollateral, bind_eq_ok] at h
  obtain ⟨⟨_, cs⟩, hr, h⟩ := h
  cases h
  refine ⟨sum_reduceFirst (fun x n hp hn => ?_) hr, rfl⟩
  obtain rfl : x.1 = asset := of_decide_eq_true hp
  exact share_checkedSub hn

theorem debtOf_reduceDebt (key : TokenKey)
    (h : account.reduceDebt asset amount mode = .ok (left, account')) :
    account'.debtOf key + share asset key amount.val = account.debtOf key ∧
      account'.collaterals = account.collaterals := by
  simp only [reduceDebt, bind_eq_ok] at h
  obtain ⟨⟨_, ds⟩, hr, h⟩ := h
  cases h
  refine ⟨sum_reduceFirst (fun x n hp hn => ?_) hr, rfl⟩
  obtain ⟨rfl, -⟩ : x.1 = asset ∧ x.2.2 = mode := of_decide_eq_true hp
  exact share_checkedSub hn

theorem Distinct.mergeCollateral (h : account.Distinct) :
    (account.mergeCollateral asset amount).Distinct := by
  refine ⟨?_, h.debts⟩
  change (List.map Prod.fst (mergeFirst _ _ _ account.collaterals)).Nodup
  refine (nodup_mergeFirst ?_ ?_ h.collaterals).1
  · exact fun _ => decide_eq_true_iff
  · exact fun _ => rfl

theorem Distinct.mergeDebt (h : account.Distinct) :
    (account.mergeDebt asset amount mode).Distinct := by
  refine ⟨h.collaterals, ?_⟩
  change (List.map _ (mergeFirst _ _ _ account.debts)).Nodup
  refine (nodup_mergeFirst ?_ ?_ h.debts).1
  · exact fun _ => decide_eq_true_iff.trans Prod.mk_inj.symm
  · exact fun _ => rfl

theorem Distinct.reduceCollateral (h : account.Distinct)
    (hr : account.reduceCollateral asset amount = .ok (left, account')) : account'.Distinct := by
  simp only [LendingAccount.reduceCollateral, bind_eq_ok] at hr
  obtain ⟨⟨_, cs⟩, ho, hr⟩ := hr
  cases hr
  have hs : (cs.map Prod.fst).Sublist (account.collaterals.map Prod.fst) := by
    refine sublist_reduceFirst ?_ ho
    exact fun _ _ => rfl
  exact ⟨h.collaterals.sublist hs, h.debts⟩

theorem Distinct.reduceDebt (h : account.Distinct)
    (hr : account.reduceDebt asset amount mode = .ok (left, account')) : account'.Distinct := by
  simp only [LendingAccount.reduceDebt, bind_eq_ok] at hr
  obtain ⟨⟨_, ds⟩, ho, hr⟩ := hr
  cases hr
  have hs : (ds.map fun entry => (entry.1, entry.2.2)).Sublist
      (account.debts.map fun entry => (entry.1, entry.2.2)) := by
    refine sublist_reduceFirst ?_ ho
    exact fun _ _ => rfl
  exact ⟨h.collaterals, h.debts.sublist hs⟩

end LendingAccount

/-! ## What each action does -/

/-- The net amount of every token is kept. -/
def Conserves (s s' : WalletState) (pid : PositionId) : Prop :=
  ∀ key, lendingNet s' pid key = lendingNet s pid key

def StaysDistinct (s s' : WalletState) (pid : PositionId) : Prop :=
  s'.walletId = s.walletId ∧ (DistinctAt s pid → DistinctAt s' pid)

section Actions

variable {D : Type} {kit : DecimalKit D} {codec : PositionCodec} {s s' : WalletState}
  {pid : PositionId} {key : TokenKey} {d : StateDelta} {ctx : EvalContext}

variable {position : Position} {account : LendingAccount} {a : SupplyAction}

theorem lendingAccountAt_of_some
    (h : s.positionOf pid = some position) (hk : position.kind = .lendingAccount account) :
    lendingAccountAt s pid = some account := by
  simp [lendingAccountAt, h, hk]

variable {change : LendingAccount → LendingAccount}

theorem upsertLendingAccount_eq_ok {d' : StateDelta} (hd : d.positionChanges = [])
    (h : upsertLendingAccount codec s d pid (mutateLending change) = .ok d') :
    ∃ position account, s.positionOf pid = some position ∧
      position.kind = .lendingAccount account ∧
      d' = d.pushPosition (.update pid (snapshotPatch codec (mutateLending change position))) := by
  obtain ⟨position, hp, hk, rfl⟩ := upsertPosition_eq_ok hd h
  cases ha : position.kind with
  | lendingAccount account => exact ⟨position, account, hp, ha, rfl⟩
  | _ => simp [ha, PositionKind.isLendingAccount] at hk

theorem lendingAccountAt_update (h : s.positionOf pid = some position)
    (hk : position.kind = .lendingAccount account) (hp : changePositions codec s.positions
      (.update pid (snapshotPatch codec (mutateLending change position))) = .ok s'.positions) :
    lendingAccountAt s' pid = some (change account) := by
  refine lendingAccountAt_of_some
    (find_update ((mutateLending_id _ _).trans (id_of_positionOf h)) hp) ?_
  simp only [mutateLending, hk]

theorem conserves_of_change {δ : Int} {account' : LendingAccount}
    (hm : Moved s s' key δ) (hb : lendingAccountAt s pid = some account)
    (haf : lendingAccountAt s' pid = some account')
    (hba : ∀ k, (account'.collateralOf k : Int) - account'.debtOf k +
      (if key = k then δ else 0) = account.collateralOf k - account.debtOf k)
    (hd : account.Distinct → account'.Distinct) : Conserves s s' pid ∧ StaysDistinct s s' pid := by
  refine ⟨fun k => ?_, hm.wallet, fun ha x hx => ?_⟩
  · have hh := hm.eq k
    have hk := hba k
    simp only [lendingNet, collateralAt, debtAt, hb, haf, Option.elim_some]
    omega
  · rw [haf] at hx
    cases hx
    exact hd (ha account hb)

theorem collateralAt_of_some (h : lendingAccountAt s pid = some account) :
    collateralAt s pid key = account.collateralOf key ∧ debtAt s pid key = account.debtOf key := by
  simp [collateralAt, debtAt, h]

theorem checkReduction_eq_ok {r : LendingAccount → ReducerResult (U256 × LendingAccount)} {u : Unit}
    (hk : position.kind = .lendingAccount account)
    (h : checkReduction r position.kind = .ok u) :
    ∃ left account', r account = .ok (left, account') ∧
      account.reducedBy (r account) = account' := by
  rw [hk, checkReduction] at h
  obtain ⟨⟨left, account'⟩, ho, -⟩ := bind_eq_ok.1 h
  refine ⟨left, account', ho, ?_⟩
  rw [reducedBy, ho]
  rfl

theorem WithdrawAction.conserves {a : WithdrawAction} (hrc : a.recipient = s.walletId.address)
    (hf : (s.held a.asset.key + collateralAt s a.venue.positionId a.asset.key : Int) ≤ ceiling)
    (hd : a.apply codec s = .ok d) (h : applyDelta codec s d = .ok s') :
    Conserves s s' a.venue.positionId ∧ StaysDistinct s s' a.venue.positionId := by
  simp only [WithdrawAction.apply, bind_eq_ok, hrc, if_true] at hd
  generalize (if a.amount = Unsigned.maxValue then a.availableToWithdraw.value else a.amount) =
    amount at hd
  obtain ⟨_, -, _, -, d₁, hu, position', hfn, _, hch, hc⟩ := hd
  obtain ⟨position, account, hp, hki, rfl⟩ := upsertLendingAccount_eq_ok rfl hu
  cases hp.symm.trans (findPosition_eq_ok.1 hfn)
  obtain ⟨left, account', hr, hrd⟩ := checkReduction_eq_ok hki hch
  have hb := lendingAccountAt_of_some hp hki
  obtain ⟨hco, hdb⟩ := collateralOf_reduceCollateral
    a.asset.key hr
  rw [(collateralAt_of_some hb).1] at hf
  simp only [share, if_true] at hco
  obtain ⟨hpos, hg⟩ := credit_keeps hc
  obtain ⟨hm, hps⟩ := applyDelta_credit h rfl hc rfl hpos hg (by omega)
  have ha := lendingAccountAt_update hp hki hps
  rw [hrd] at ha
  refine conserves_of_change hm hb ha (fun k => ?_) (·.reduceCollateral hr)
  have hk := (collateralOf_reduceCollateral k hr).1
  have hde : account'.debtOf k = account.debtOf k := by
    rw [debtOf, hdb, debtOf]
  rw [← cast_share]
  omega

theorem RepayAction.conserves {a : RepayAction} (hf : (s.held a.asset.key : Int) < ceiling)
    (hd : a.apply codec s = .ok d) (h : applyDelta codec s d = .ok s') :
    Conserves s s' a.venue.positionId ∧ StaysDistinct s s' a.venue.positionId := by
  simp only [RepayAction.apply, bind_eq_ok] at hd
  generalize (if a.amount = Unsigned.maxValue then a.currentDebt.value else a.amount) = amount at hd
  obtain ⟨_, -, _, -, d₁, hu, position', hfn, _, hc, hde⟩ := hd
  obtain ⟨position, account, hp, hki, rfl⟩ := upsertLendingAccount_eq_ok rfl hu
  cases hp.symm.trans (findPosition_eq_ok.1 hfn)
  obtain ⟨left, account', hr, hrd⟩ := checkReduction_eq_ok hki hc
  have hb := lendingAccountAt_of_some hp hki
  obtain ⟨hpos, hg⟩ := debit_keeps hde
  obtain ⟨hm, hps⟩ := applyDelta_debit h rfl hde rfl hpos hg hf
  have ha := lendingAccountAt_update hp hki hps
  rw [hrd] at ha
  refine conserves_of_change hm hb ha (fun k => ?_) (·.reduceDebt hr)
  obtain ⟨hk, hcl⟩ := debtOf_reduceDebt k hr
  have hco : account'.collateralOf k = account.collateralOf k := by
    rw [collateralOf, hcl, collateralOf]
  rw [← neg_share]
  omega

theorem BorrowAction.conserves {a : BorrowAction}
    (hf : (s.held a.asset.key + a.amount.val : Int) ≤ ceiling)
    (hde : debtAt s a.venue.positionId a.asset.key + a.amount.val < 2 ^ 256)
    (hd : a.apply kit codec s = .ok d) (h : applyDelta codec s d = .ok s') :
    Conserves s s' a.venue.positionId ∧ StaysDistinct s s' a.venue.positionId := by
  simp only [BorrowAction.apply, bind_eq_ok] at hd
  obtain ⟨_, -, _, -, _, -, _, -, _, -, d₁, hu, _, -, _, -, _, -, hc⟩ := hd
  obtain ⟨position, account, hpo, hki, rfl⟩ := upsertLendingAccount_eq_ok rfl hu
  have hb := lendingAccountAt_of_some hpo hki
  rw [(collateralAt_of_some hb).2] at hde
  obtain ⟨hp, hg⟩ := credit_keeps hc
  obtain ⟨hm, hps⟩ := applyDelta_credit h rfl hc rfl hp hg hf
  have ha := lendingAccountAt_update hpo hki hps
  refine conserves_of_change hm hb ha (fun k => ?_) (·.mergeDebt)
  have hk := debtOf_mergeDebt a.rateMode k hde
  have hco : (account.mergeDebt a.asset a.amount a.rateMode).collateralOf k =
    account.collateralOf k := rfl
  rw [← cast_share]
  omega

theorem reduceFirst_of_find {α : Type} {p : α → Bool} (get : α → U256) (set : U256 → α → α)
    {m : String} {es : U256 → String} {xs : List α} {x : α} (h : xs.find? p = some x) :
    ∃ result, reduceFirst p get set m es (get x) xs = .ok result := by
  induction xs with
  | nil => cases h
  | cons y ys ih =>
    unfold reduceFirst
    by_cases hp : p y = true
    · rw [find?_cons_of_pos hp] at h
      cases h
      obtain ⟨n, hn, -⟩ := Unsigned.exists_checkedSub (Nat.le_refl (get x).val)
      rw [if_pos hp, hn]
      exact ⟨_, rfl⟩
    · rw [find?_cons_of_neg hp] at h
      obtain ⟨result, hr⟩ := ih h
      rw [if_neg hp, hr]
      exact ⟨_, rfl⟩

theorem SwapRateModeAction.conserves {a : SwapRateModeAction}
    (hde : debtAt s a.venue.positionId a.asset.key < 2 ^ 256)
    (hd : a.apply codec s = .ok d) (h : applyDelta codec s d = .ok s') :
    Conserves s s' a.venue.positionId ∧ StaysDistinct s s' a.venue.positionId := by
  simp only [SwapRateModeAction.apply, bind_eq_ok] at hd
  obtain ⟨_, -, _, -, position', hf, account, hac, ⟨asset, amount, mode⟩, he, hu⟩ := hd
  obtain ⟨position, account', hp, hki, rfl⟩ := upsertLendingAccount_eq_ok rfl hu
  cases hp.symm.trans (findPosition_eq_ok.1 hf)
  rw [lendingAccountOf, hki] at hac
  cases hac
  have he := orFail_eq_ok.1 he
  obtain ⟨rfl, rfl⟩ : asset = a.asset ∧ mode = otherMode a.newMode := by
    simpa using find?_some he
  have hb := lendingAccountAt_of_some hp hki
  rw [(collateralAt_of_some hb).2] at hde
  obtain ⟨hm, hps⟩ := applyDelta_position a.asset.key rfl rfl rfl h
  have ha := lendingAccountAt_update hp hki hps
  -- The whole entry of the other mode is found, so its reduction succeeds.
  obtain ⟨left, r, hr⟩ : ∃ left r,
      account.reduceDebt a.asset amount (otherMode a.newMode) = .ok (left, r) := by
    obtain ⟨⟨left, debts⟩, hok⟩ := reduceFirst_of_find (fun entry => entry.2.1)
      (fun left entry => (entry.1, left, entry.2.2)) he
    exact ⟨left, { account with debts }, bind_eq_ok.2 ⟨_, hok, rfl⟩⟩
  rw [moveDebt, reducedBy, hr] at ha
  change lendingAccountAt s' _ = some (r.mergeDebt a.asset amount a.newMode) at ha
  have ho := (debtOf_reduceDebt a.asset.key hr).1
  simp only [share, if_true] at ho
  refine conserves_of_change hm hb ha (fun k => ?_)
    (fun hdi => (hdi.reduceDebt hr).mergeDebt)
  obtain ⟨hk, hc⟩ := debtOf_reduceDebt k hr
  have hro : r.debtOf a.asset.key + amount.val < 2 ^ 256 := by omega
  have hme := debtOf_mergeDebt a.newMode k hro
  have hco : (r.mergeDebt a.asset amount a.newMode).collateralOf k =
      account.collateralOf k := by
    change entrySum Prod.fst Prod.snd k r.collaterals = _
    rw [hc, collateralOf]
  rw [ite_self]
  omega

/-- A supply merges into the account whether it is eligible or not; where there is no account one
is opened, with the supply as collateral only if it is eligible. -/
theorem SupplyAction.effect (hf : (s.held a.asset.key : Int) < ceiling)
    (hd : a.apply codec s ctx = .ok d) (h : applyDelta codec s d = .ok s') :
    Moved s s' a.asset.key (-a.amount.val) ∧
      ((∃ account, lendingAccountAt s a.venue.positionId = some account ∧
          lendingAccountAt s' a.venue.positionId =
            some (account.mergeCollateral a.asset a.amount)) ∨
        lendingAccountAt s a.venue.positionId = none ∧
          ∃ account, lendingAccountAt s' a.venue.positionId = some account ∧ account.debts = [] ∧
            account.collaterals =
              if a.eligibleAsCollat.value then [(a.asset, a.amount)] else []) := by
  simp only [SupplyAction.apply, bind_eq_ok] at hd
  obtain ⟨_, -, _, -, _, -, _, -, d₁, hde, hd⟩ := hd
  obtain ⟨hp, hg⟩ := debit_keeps hde
  have ho : ∀ {position : Position} {account : LendingAccount},
      position.id = a.venue.positionId → position.kind = .lendingAccount account →
      openPosition s d₁ position = .ok d → Moved s s' a.asset.key (-a.amount.val) ∧
        lendingAccountAt s a.venue.positionId = none ∧
        lendingAccountAt s' a.venue.positionId = some account := by
    intro position account hi hk ho
    obtain ⟨hn, rfl⟩ := openPosition_eq_ok hp ho
    obtain ⟨hm, hps⟩ := applyDelta_debit h rfl hde rfl
      (pushPosition_of_nil hp _) hg hf
    have ha := find_opened hn hps
    rw [hi] at hn ha
    exact ⟨hm, by simp [lendingAccountAt, hn], lendingAccountAt_of_some ha hk⟩
  split at hd
  · obtain ⟨position, account, hpo, hk, rfl⟩ := upsertLendingAccount_eq_ok hp hd
    obtain ⟨hm, hps⟩ := applyDelta_debit h rfl hde rfl
      (pushPosition_of_nil hp _) hg hf
    exact ⟨hm, .inl ⟨account, lendingAccountAt_of_some hpo hk, lendingAccountAt_update hpo hk hps⟩⟩
  · split at hd
    · next he =>
      obtain ⟨hm, hb, ha⟩ := ho rfl rfl hd
      exact ⟨hm, .inr ⟨hb, _, ha, rfl, by rw [he]; rfl⟩⟩
    · next he =>
      obtain ⟨hm, hb, ha⟩ := ho rfl rfl hd
      exact ⟨hm, .inr ⟨hb, _, ha, rfl, by rw [Bool.eq_false_iff.2 he]; rfl⟩⟩

theorem SupplyAction.net_of_first
    (hm : Moved s s' a.asset.key (-a.amount.val)) (hb : lendingAccountAt s pid = none)
    (ha : lendingAccountAt s' pid = some account) (hdb : account.debts = []) (k : TokenKey) :
    lendingNet s' pid k = lendingNet s pid k + account.collateralOf k -
      LendingAccount.share a.asset k a.amount.val := by
  have hd : account.debtOf k = 0 := by
    rw [debtOf, hdb]
    rfl
  have hh := hm.eq k
  rw [← neg_share] at hh
  simp only [lendingNet, collateralAt, debtAt, hb, ha, Option.elim_some, Option.elim_none, hd]
  omega

/-- What follows of a supply: into an account the ledger is kept and the collateral grows, and
without one the ledger is kept only if the supply becomes collateral. -/
theorem SupplyAction.ledger (hf : (s.held a.asset.key : Int) < ceiling)
    (hco : collateralAt s a.venue.positionId a.asset.key + a.amount.val < 2 ^ 256)
    (hd : a.apply codec s ctx = .ok d) (h : applyDelta codec s d = .ok s') :
    ((Conserves s s' a.venue.positionId ∧
        LendingAction.KeepsCollateral s s' a.venue.positionId (.supply a)) ↔
      LendingAction.Eligible (.supply a)) ∧ StaysDistinct s s' a.venue.positionId := by
  have hz : a.amount = 0 ↔ a.amount.val = 0 := by
    rw [Unsigned.ext_iff, Unsigned.val_zero]
  obtain ⟨hm, ⟨account, hb, ha⟩ | ⟨hb, account, ha, hdb, hc⟩⟩ := SupplyAction.effect hf hd h
  · rw [(collateralAt_of_some hb).1] at hco
    have hg : ∀ k, (account.mergeCollateral a.asset a.amount).collateralOf k =
        account.collateralOf k + share a.asset k a.amount.val :=
      fun k => collateralOf_mergeCollateral hco
    obtain ⟨hcn, hdi⟩ := conserves_of_change hm hb ha (fun k => by
      have hde : (account.mergeCollateral a.asset a.amount).debtOf k = account.debtOf k := rfl
      rw [hg, hde, ← neg_share]
      omega) (·.mergeCollateral)
    refine ⟨⟨fun hke => ?_, fun he => ⟨hcn, fun hn key => ?_⟩⟩, hdi⟩
    · refine or_iff_not_imp_left.2 fun hn => hz.2 ?_
      have hl := hke.2 (Bool.eq_false_iff.2 hn) a.asset.key
      rw [(collateralAt_of_some ha).1, (collateralAt_of_some hb).1, hg,
        share, if_pos rfl] at hl
      omega
    · have ham := hz.1 (he.resolve_left (by rw [hn]; decide))
      rw [(collateralAt_of_some ha).1, (collateralAt_of_some hb).1, hg,
        share, ham, ite_self]
      omega
  · have hne := SupplyAction.net_of_first hm hb ha hdb
    have hs : ∀ k, account.collateralOf k =
        if a.eligibleAsCollat.value then share a.asset k a.amount.val else 0 := by
      intro k
      rw [collateralOf, hc]
      split
      · simp [entrySum, share]
      · rfl
    refine ⟨⟨fun hke => ?_, fun he => ⟨fun k => ?_, fun hn k => ?_⟩⟩, hm.wallet, fun _ x hx => ?_⟩
    · refine or_iff_not_imp_left.2 fun hn => hz.2 ?_
      have hk := (hne a.asset.key).symm.trans (hke.1 a.asset.key)
      rw [hs, if_neg hn, share, if_pos rfl] at hk
      omega
    · rw [hne, hs]
      rcases he with he | ham
      · rw [if_pos he]
        omega
      · rw [share, hz.1 ham, ite_self, ite_self]
        omega
    · rw [(collateralAt_of_some ha).1, hs, if_neg (by rw [hn]; decide)]
      exact Nat.zero_le _
    · rw [ha] at hx
      cases hx
      refine ⟨?_, by rw [hdb]; exact nodup_nil⟩
      rw [hc]
      split
      · exact nodup_singleton _
      · exact nodup_nil

theorem LendingAction.ledger_iff {step : EvalContext × LendingAction} {venue : LendingVenue}
    (ho : step.2.OnLedger s.walletId.address venue) (hf : step.2.Fits s venue.positionId)
    (h : LendingAction.run kit codec s step = .ok s') :
    ((Conserves s s' venue.positionId ∧ step.2.KeepsCollateral s s' venue.positionId) ↔
      step.2.Eligible) ∧ StaysDistinct s s' venue.positionId := by
  obtain ⟨d, hd, ha⟩ := bind_eq_ok.1 h
  have hot : ∀ {C E : Prop}, (Conserves s s' venue.positionId ∧
      StaysDistinct s s' venue.positionId) → C → E →
      ((Conserves s s' venue.positionId ∧ C) ↔ E) ∧ StaysDistinct s s' venue.positionId :=
    fun hb hC hE => ⟨iff_of_true ⟨hb.1, hC⟩ hE, hb.2⟩
  obtain ⟨ctx, ac⟩ := step
  cases ac with
  | supply a =>
    obtain rfl := ho
    exact SupplyAction.ledger hf.1 hf.2 hd ha
  | withdraw a =>
    obtain ⟨rfl, hr⟩ := ho
    exact hot (WithdrawAction.conserves hr hf hd ha) trivial trivial
  | borrow a =>
    obtain rfl := ho
    exact hot (BorrowAction.conserves hf.1 hf.2 hd ha) trivial trivial
  | repay a =>
    obtain rfl := ho
    exact hot (RepayAction.conserves hf hd ha) trivial trivial
  | swapRateMode a =>
    obtain rfl := ho
    exact hot (SwapRateModeAction.conserves hf hd ha) trivial trivial
  | _ => exact ho.elim

end Actions

/-! ## Sequences of actions -/

section Sequences

variable {D : Type} {kit : DecimalKit D} {codec : PositionCodec} {venue : LendingVenue}

/-- Every action of a run leaves amounts that fit. -/
def FitsAlong (kit : DecimalKit D) (codec : PositionCodec) (pid : PositionId) (s : WalletState)
    (steps : List (EvalContext × LendingAction)) : Prop :=
  ∀ before step, before ++ [step] <+: steps → ∀ t,
    before.foldlM (LendingAction.run kit codec) s = .ok t → step.2.Fits t pid

variable {steps : List (EvalContext × LendingAction)}

theorem FitsAlong.tail {pid : PositionId} {s : WalletState} {step : EvalContext × LendingAction}
    {t : WalletState} (h : FitsAlong kit codec pid s (step :: steps))
    (hs : LendingAction.run kit codec s step = .ok t) : FitsAlong kit codec pid t steps := by
  intro b x hse u hu
  refine h (step :: b) x ?_ u ?_
  · rwa [cons_append, cons_prefix_cons, and_iff_right rfl]
  · rw [foldlM_cons, hs, ok_bind, hu]

theorem lending_run {s s' : WalletState}
    (ho : ∀ step ∈ steps, step.2.OnLedger s.walletId.address venue)
    (hf : FitsAlong kit codec venue.positionId s steps)
    (h : steps.foldlM (LendingAction.run kit codec) s = .ok s') :
    ((∀ step ∈ steps, step.2.Eligible) → Conserves s s' venue.positionId) ∧
      StaysDistinct s s' venue.positionId := by
  induction steps generalizing s with
  | nil =>
    cases h
    exact ⟨fun _ _ => rfl, rfl, id⟩
  | cons step steps ih =>
    obtain ⟨t, hs, h⟩ := bind_eq_ok.1 h
    obtain ⟨hi, hd⟩ := LendingAction.ledger_iff (ho step mem_cons_self)
      (hf [] step (prefix_append [step] steps) s rfl) hs
    obtain ⟨hr, hd'⟩ := ih
      (fun x hx => hd.1 ▸ ho x (mem_cons_of_mem _ hx)) (hf.tail hs) h
    refine ⟨fun he key => ?_, hd'.1.trans hd.1, fun ha => hd'.2 (hd.2 ha)⟩
    rw [hr (fun x hx => he x (mem_cons_of_mem _ hx)) key]
    exact (hi.2 (he step mem_cons_self)).1 key

end Sequences

/-- Over a sequence of supplies, withdrawals to the owner, borrowings, repayments and changes of
the rate mode on one venue, entries never occur twice, and every step keeps the net amount of
every token and adds no collateral that is not eligible exactly when every supply of the sequence
is eligible as collateral, or of nothing. -/
theorem lending_ledger_iff {D : Type} (kit : DecimalKit D) (codec : PositionCodec)
    (venue : LendingVenue) (s s' : WalletState) (steps : List (EvalContext × LendingAction))
    (hon : ∀ step ∈ steps, step.2.OnLedger s.walletId.address venue)
    (hfits : FitsAlong kit codec venue.positionId s steps)
    (h : steps.foldlM (LendingAction.run kit codec) s = .ok s') :
    ((∀ before step, before ++ [step] <+: steps → ∀ t t',
        before.foldlM (LendingAction.run kit codec) s = .ok t →
        LendingAction.run kit codec t step = .ok t' →
          Conserves t t' venue.positionId ∧ step.2.KeepsCollateral t t' venue.positionId) ↔
      ∀ step ∈ steps, step.2.Eligible) ∧
    ((∀ step ∈ steps, step.2.Eligible) → Conserves s s' venue.positionId) ∧
    (DistinctAt s venue.positionId → DistinctAt s' venue.positionId) := by
  obtain ⟨hc, -, hd⟩ := lending_run hon hfits h
  have hst : ∀ before step, before ++ [step] <+: steps → ∀ t t',
      before.foldlM (LendingAction.run kit codec) s = .ok t →
      LendingAction.run kit codec t step = .ok t' →
        ((Conserves t t' venue.positionId ∧ step.2.KeepsCollateral t t' venue.positionId) ↔
          step.2.Eligible) := by
    intro before step hs t t' ht hr
    have hb : before <+: steps := (prefix_append _ _).trans hs
    obtain ⟨-, hw, -⟩ := lending_run (fun x hx => hon x (hb.subset hx))
      (fun pre x hp => hfits pre x (hp.trans hb)) ht
    exact (LendingAction.ledger_iff (hw ▸ hon step (hs.subset (by simp)))
      (hfits before step hs t ht) hr).1
  refine ⟨⟨fun ha step hm => ?_, fun ha before step hs t t' ht hr => ?_⟩, hc, hd⟩
  · obtain ⟨before, after, rfl⟩ := append_of_mem hm
    rw [foldlM_append] at h
    obtain ⟨t, ht, h⟩ := bind_eq_ok.1 h
    obtain ⟨t', ht', -⟩ := bind_eq_ok.1 h
    have hs : before ++ [step] <+: before ++ step :: after := ⟨after, by simp⟩
    exact (hst before step hs t t' ht ht').1 (ha before step hs t t' ht ht')
  · exact (hst before step hs t t' ht hr).2 (ha step (hs.subset (by simp)))

/-! ## A supply that is not eligible -/

section Sample

def aavePool : LendingVenue := .aaveV3 ⟨"eip155:1"⟩ 3 none

variable (amount : U256)

def aaveAccount : Position where
  id := aavePool.positionId
  protocol := { name := "aave_v3" }
  chain := some ⟨"eip155:1"⟩
  kind := .lendingAccount
    { market := ⟨"aave_v3", ⟨"aave_v3", none⟩⟩
      collaterals := [(⟨ether⟩, amount)]
      debts := []
      emode := none
      isIsolated := false
      healthFactor := fresh ⟨"999999999"⟩
      ltv := fresh .zero
      liquidationThreshold := fresh ⟨"0.8000"⟩ }
  primitivesSyncedAt := 0
  primitivesSource := .userSupplied

def lender (positions : List Position) : WalletState :=
  { walletHolding ether amount with positions := positions }

def mainnet : EvalContext := ⟨⟨"eip155:1"⟩, 0, 0, .transaction, .preview⟩

def supplyEther (eligible : Bool) : EvalContext × LendingAction :=
  (mainnet, .supply ⟨aavePool, ⟨ether⟩, amount, fresh ⟨0, 0, none, none, 8000, false, false⟩,
    fresh eligible⟩)

def withdrawEther : EvalContext × LendingAction :=
  (mainnet, .withdraw ⟨aavePool, ⟨ether⟩, amount, 0,
    fresh ⟨0, 0, none, none, 8000, false, false⟩, fresh 100⟩)

/-- A step on the one account of a wallet, where its delta is the one expected. -/
theorem aaveAccount_run (codec : PositionCodec) {s u : WalletState}
    {step : EvalContext × LendingAction} {change : I256} {old new : U256}
    (hp : s.positions = [aaveAccount old])
    (hr : step.2.apply DecimalKit.whole codec s step.1 = .ok ⟨[.balanceDelta ether change],
      [.update aavePool.positionId (snapshotPatch codec (aaveAccount new))], [], none⟩)
    (hu : applyAssets s ⟨[.balanceDelta ether change], [], [], none⟩ = .ok u) :
    LendingAction.run DecimalKit.whole codec s step =
      .ok (u.withRest [aaveAccount new] s.pending) := by
  have hc : changePositions codec [aaveAccount old] (.update aavePool.positionId
      (snapshotPatch codec (aaveAccount new))) = .ok [aaveAccount new] := by
    rw [changePositions, changeFirst, applyPositionPatch_snapshotPatch]
    rfl
  rw [LendingAction.run, hr, ok_bind, applyDelta_eq_ok]
  refine ⟨u, _, s.pending, hu, ?_, rfl, rfl⟩
  rw [hp]
  exact bind_eq_ok.2 ⟨_, hc, rfl⟩

/-- A lender after a change of the balance and of the account. -/
def lenderAt (balance collateral : U256) : WalletState :=
  ((lender 10 [aaveAccount 5]).setBalance ether balance).withRest [aaveAccount collateral] []

end Sample

/-- A supply that is not eligible increases the collateral of an account, and as a first supply it
leaves the wallet for nothing. -/
theorem supply_not_eligible :
    LendingAction.run DecimalKit.whole .numbered (lender 10 [aaveAccount 5]) (supplyEther 3 false) =
      .ok (lenderAt 7 8) ∧
    collateralAt (lender 10 [aaveAccount 5]) aavePool.positionId ether = 5 ∧
    collateralAt (lenderAt 7 8) aavePool.positionId ether = 8 ∧
    ∃ opened, LendingAction.run DecimalKit.whole .numbered (lender 10 []) (supplyEther 3 false) =
        .ok opened ∧ lendingNet (lender 10 []) aavePool.positionId ether = 10 ∧
      lendingNet opened aavePool.positionId ether = 7 :=
  ⟨aaveAccount_run .numbered rfl rfl rfl, rfl, rfl, _, rfl, rfl, rfl⟩

theorem lending_ledger_iff_withdraw : ∃ t,
    [supplyEther 3 true, withdrawEther 2].foldlM (LendingAction.run DecimalKit.whole .numbered)
      (lender 10 [aaveAccount 5]) = .ok t ∧
    t.held ether = 9 ∧ collateralAt t aavePool.positionId ether = 6 ∧
    Conserves (lender 10 [aaveAccount 5]) t aavePool.positionId := by
  have hs : LendingAction.run DecimalKit.whole .numbered (lender 10 [aaveAccount 5])
      (supplyEther 3 true) = .ok (lenderAt 7 8) := aaveAccount_run .numbered rfl rfl rfl
  let paid := ((lenderAt 7 8).setBalance ether 9).withRest [aaveAccount 6] []
  have hw : LendingAction.run DecimalKit.whole .numbered (lenderAt 7 8) (withdrawEther 2) =
      .ok paid := aaveAccount_run .numbered rfl rfl rfl
  have hr : [supplyEther 3 true, withdrawEther 2].foldlM
      (LendingAction.run DecimalKit.whole .numbered) (lender 10 [aaveAccount 5]) = .ok paid := by
    rw [foldlM_cons, hs, ok_bind, foldlM_cons, hw]
    rfl
  refine ⟨_, hr, rfl, rfl, (lending_ledger_iff DecimalKit.whole .numbered aavePool
    (lender 10 [aaveAccount 5]) _ _ ?_ ?_ hr).2.1 ?_⟩
  · intro step hm
    obtain rfl | rfl : step = supplyEther 3 true ∨ step = withdrawEther 2 := by simpa using hm
    exacts [rfl, ⟨rfl, rfl⟩]
  · intro before step hse t ht
    rcases before with _ | ⟨_, _ | ⟨_, _⟩⟩
    · obtain rfl : step = supplyEther 3 true := by simpa using hse
      cases ht
      exact ⟨(by decide : ((10 : Nat) : Int) < ceiling), (by decide : 5 + 3 < 2 ^ 256)⟩
    · obtain ⟨rfl, rfl⟩ : _ = supplyEther 3 true ∧ step = withdrawEther 2 := by simpa using hse
      obtain rfl := Except.ok.inj (ht.symm.trans ((foldlM_cons ..).trans (by rw [hs]; rfl)))
      exact (by decide : ((7 : Nat) + (8 : Nat) : Int) ≤ ceiling)
    · simp at hse
  · intro step hm
    obtain rfl | rfl : step = supplyEther 3 true ∨ step = withdrawEther 2 := by simpa using hm
    exacts [.inl rfl, trivial]

end Dambi.Asset
