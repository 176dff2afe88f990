import Dambi.Asset.Delta
import Dambi.Lib.Saturation

/-!
# The balance of one token

What a list of token changes does to the balance of one token: the balance
follows a run of its own under the ceiling of signed amounts, and the other
changes run as if the balance were not there.
-/

namespace Dambi.Asset

open FixedWidth Fallible List WalletState Option TokenChange

/-! ## Adding signed amounts -/

/-- The largest signed amount, which no changed balance exceeds. -/
def ceiling : Int := 2 ^ 255 - 1

variable (x : U256)

/-- The balance after one signed amount. -/
def addSigned (d : I256) : Option U256 :=
  let signed := (u256ToSignedSaturating x).saturatingAdd d
  if signed.isNegative then none else some (signedToU256Saturating signed)

variable (ds : List I256)

/-- The balance after a list of signed amounts. -/
def ledger : Option U256 := ds.foldlM addSigned x

def values : List Int := ds.map (·.val)

theorem ceiling_eq : ceiling = 2 ^ 255 - 1 := rfl

theorem ceiling_nonneg : 0 ≤ ceiling := by
  rw [ceiling_eq]
  omega

theorem val_toSigned : (u256ToSignedSaturating x).val = min (x.val : Int) ceiling :=
  Unsigned.val_toSigned x

theorem val_neg_toSigned : (-u256ToSignedSaturating x).val = -min (x.val : Int) ceiling := by
  have hv := val_toSigned x
  have hc := ceiling_eq
  rw [Signed.val_neg (by omega), hv]

theorem addSigned_val (d : I256) :
    (addSigned x d).map (fun y => (y.val : Int)) = Saturation.step ceiling x.val d.val := by
  have hc := ceiling_eq
  have hs := Signed.val_saturatingAdd (u256ToSignedSaturating x) d
  have hsi := val_toSigned x
  have hl := d.lower
  simp only [addSigned, Saturation.step, Signed.isNegative_iff]
  by_cases hn : ((u256ToSignedSaturating x).saturatingAdd d).val < 0
  · rw [if_pos hn, if_pos (by omega), map_none]
  · rw [if_neg hn, if_neg (by omega), map_some, signedToU256Saturating,
      Signed.val_toUnsigned (by omega)]
    exact congrArg some (by omega)

theorem ledger_val :
    (ledger x ds).map (fun y => (y.val : Int)) = Saturation.run ceiling x.val (values ds) := by
  induction ds generalizing x with
  | nil => rfl
  | cons d ds ih =>
    have hs := addSigned_val x d
    rw [values, map_cons, Saturation.run_cons, ← hs, ledger, foldlM_cons]
    cases addSigned x d with
    | none => rfl
    | some y => exact ih y

theorem ledger_eq_some {y : U256} :
    ledger x ds = some y ↔ Saturation.run ceiling x.val (values ds) = some (y.val : Int) := by
  rw [← ledger_val, map_eq_some_iff]
  constructor
  · intro h
    exact ⟨y, h, rfl⟩
  · rintro ⟨z, hz, hv⟩
    rwa [Unsigned.ext (show z.val = y.val by omega)] at hz

/-! ## Holdings -/

theorem insert_of_lookup {K V : Type} [DecidableEq K] {m : BTreeMap K V} {k : K} {v : V}
    (h : m.lookup k = some v) : m.insert k v = m := by
  refine Finmap.ext_lookup fun k' => ?_
  by_cases hk : k' = k
  · rw [hk, Finmap.lookup_insert, h]
  · rw [Finmap.lookup_insert_of_ne _ hk]

variable {key : TokenKey} {d : I256} {holding holding' : TokenHolding}

theorem changeHolding_eq_ok {s : WalletState} {change : TokenHolding → ReducerResult TokenHolding}
    {t : WalletState} :
    changeHolding s key change = .ok t ↔ ∃ holding holding',
      s.tokens.lookup key = some holding ∧ change holding = .ok holding' ∧
        t = { s with tokens := s.tokens.insert key holding' } := by
  simp only [changeHolding, bind_eq_ok, orFail_eq_ok]
  constructor
  · rintro ⟨holding, hl, holding', hc, h⟩
    exact ⟨holding, holding', hl, hc, (Except.ok.inj h).symm⟩
  · rintro ⟨holding, holding', hl, hc, rfl⟩
    exact ⟨holding, hl, holding', hc, rfl⟩

theorem addToBalance_eq_ok :
    addToBalance key d holding = .ok holding' ↔ ∃ x y, holding.balance = .fungible x ∧
      addSigned x d = some y ∧ holding' = { holding with balance := .fungible y } := by
  unfold addToBalance
  cases hb : holding.balance with
  | owned =>
    simp only [Balance.asFungible, reduceCtorEq, false_and, exists_false, iff_false]
    exact fail_ne_ok
  | fungible x =>
    simp only [Balance.asFungible, orBroken, orFail, elim_some, ok_bind, ensure, bind_eq_ok,
      require_eq_ok, addSigned, Balance.fungible.injEq]
    constructor
    · rintro ⟨_, hn, h⟩
      exact ⟨x, _, rfl, if_neg (by rw [hn]; exact Bool.false_ne_true), (Except.ok.inj h).symm⟩
    · rintro ⟨_, y, rfl, ha, rfl⟩
      split at ha
      · cases ha
      · rename_i hn
        cases ha
        exact ⟨(), Bool.eq_false_iff.2 hn, rfl⟩

theorem chargeGas_eq_ok {a : U256} :
    chargeGas key a holding = .ok holding' ↔ ∃ x y, holding.balance = .fungible x ∧
      x.checkedSub a = some y ∧ holding' = { holding with balance := .fungible y } := by
  unfold chargeGas
  cases hb : holding.balance with
  | owned =>
    simp only [Balance.asFungible, reduceCtorEq, false_and, exists_false, iff_false]
    exact fail_ne_ok
  | fungible x =>
    simp only [Balance.asFungible, orBroken, orFail, elim_some, ok_bind, bind_eq_ok,
      elim_error_eq_ok, fail, Balance.fungible.injEq]
    constructor
    · rintro ⟨y, hs, h⟩
      exact ⟨x, y, rfl, hs, (Except.ok.inj h).symm⟩
    · rintro ⟨_, y, rfl, hs, rfl⟩
      exact ⟨y, hs, rfl⟩

namespace WalletState

variable {s t : WalletState} {key k : TokenKey} {x y : U256} {holding : TokenHolding}

/-- The balance of a token, where the wallet holds it. -/
def balanceOf (s : WalletState) (key : TokenKey) : Option Balance :=
  (s.tokens.lookup key).map (·.balance)

def setBalance (s : WalletState) (key : TokenKey) (x : U256) : WalletState :=
  match s.tokens.lookup key with
  | none => s
  | some holding =>
    { s with tokens := s.tokens.insert key { holding with balance := .fungible x } }

theorem setBalance_eq (h : s.tokens.lookup key = some holding) : s.setBalance key x =
    { s with tokens := s.tokens.insert key { holding with balance := .fungible x } } := by
  simp only [setBalance, h]

theorem lookup_setBalance (h : s.tokens.lookup key = some holding) :
    (s.setBalance key x).tokens.lookup key = some { holding with balance := .fungible x } := by
  rw [setBalance_eq h]
  exact Finmap.lookup_insert _

theorem lookup_setBalance_of_ne (hn : k ≠ key) :
    (s.setBalance key x).tokens.lookup k = s.tokens.lookup k := by
  unfold setBalance
  split
  · rfl
  · exact Finmap.lookup_insert_of_ne _ hn

variable {b : Balance}

theorem balanceOf_eq_some : s.balanceOf key = some b ↔
    ∃ holding, s.tokens.lookup key = some holding ∧ holding.balance = b :=
  map_eq_some_iff

theorem balanceOf_insert_of_ne (hn : key ≠ k) :
    balanceOf { s with tokens := s.tokens.insert k holding } key = s.balanceOf key :=
  congrArg (Option.map _) (Finmap.lookup_insert_of_ne _ hn)

theorem setBalance_setBalance : (s.setBalance key x).setBalance key y = s.setBalance key y := by
  cases h : s.tokens.lookup key with
  | none => simp only [setBalance, h]
  | some holding =>
    rw [setBalance_eq (lookup_setBalance h), setBalance_eq h, setBalance_eq h]
    simp

theorem balanceOf_setBalance (h : s.balanceOf key = some b) :
    (s.setBalance key x).balanceOf key = some (.fungible x) := by
  obtain ⟨holding, hl, -⟩ := balanceOf_eq_some.1 h
  exact balanceOf_eq_some.2 ⟨_, lookup_setBalance hl, rfl⟩

theorem setBalance_self (h : s.balanceOf key = some (.fungible x)) : s.setBalance key x = s := by
  obtain ⟨holding, hl, hb⟩ := balanceOf_eq_some.1 h
  rw [setBalance_eq hl, ← hb, insert_of_lookup hl]

end WalletState

/-! ## One token among the changes -/

def TokenChange.deltaOf (key : TokenKey) : TokenChange → Option I256
  | .balanceDelta k d => if k = key then some d else none
  | _ => none

theorem TokenChange.eq_of_deltaOf {tc : TokenChange} (h : tc.deltaOf key = some d) :
    tc = .balanceDelta key d := by
  cases tc with
  | balanceDelta k d' =>
    simp only [deltaOf] at h
    split at h
    · rename_i hk
      rw [hk, some.inj h]
    · cases h
  | _ => cases h

def deltasOf (key : TokenKey) (tcs : List TokenChange) : List I256 := tcs.filterMap (·.deltaOf key)

def othersOf (key : TokenKey) (tcs : List TokenChange) : List TokenChange :=
  tcs.filter fun tc => (tc.deltaOf key).isNone

section Changes

variable {s t : WalletState} {key k : TokenKey} {x y : U256} {b : Balance} {tc : TokenChange}
  {change : TokenHolding → ReducerResult TokenHolding}

theorem balanceOf_changeHolding (h : changeHolding s k change = .ok t)
    (hke : k = key → ∀ a a', change a = .ok a' → a'.balance = a.balance) :
    t.balanceOf key = s.balanceOf key := by
  obtain ⟨holding, holding', hl, hc, rfl⟩ := changeHolding_eq_ok.1 h
  by_cases hk : k = key
  · subst hk
    simp [balanceOf, hl, hke rfl _ _ hc]
  · exact balanceOf_insert_of_ne (Ne.symm hk)

theorem changeHolding_setBalance (hke : k = key → ∀ a : TokenHolding,
      change { a with balance := .fungible y } =
        (fun a' => { a' with balance := .fungible y }) <$> change a) :
    changeHolding (s.setBalance key y) k change =
      (·.setBalance key y) <$> changeHolding s k change := by
  by_cases hk : k = key
  · subst hk
    cases hl : s.tokens.lookup k with
    | none => simp only [setBalance, changeHolding, hl, orFail]; rfl
    | some holding =>
      simp only [changeHolding, lookup_setBalance hl, hl, orFail,
        elim_some, ok_bind, hke rfl]
      cases hc : change holding with
      | error e => rfl
      | ok holding' =>
        have ha := setBalance_eq (x := y)
          (s := { s with tokens := s.tokens.insert k holding' }) (Finmap.lookup_insert s.tokens)
        refine congrArg Except.ok (Eq.trans ?_ ha.symm)
        rw [setBalance_eq hl]
        simp
  · simp only [changeHolding, lookup_setBalance_of_ne hk]
    cases s.tokens.lookup k with
    | none => rfl
    | some holding =>
      simp only [orFail, elim_some, ok_bind]
      cases change holding with
      | error e => rfl
      | ok holding' =>
        refine congrArg Except.ok ?_
        have hn : key ≠ k := Ne.symm hk
        simp only [setBalance, Finmap.lookup_insert_of_ne _ hn]
        cases s.tokens.lookup key with
        | none => rfl
        | some o => simp only [Finmap.insert_insert_of_ne _ hn]

theorem setBalance_withApprovals (approvals : ApprovalSet) :
    { s.setBalance key y with approvals } = { s with approvals }.setBalance key y := by
  simp only [setBalance]
  cases s.tokens.lookup key <;> rfl

theorem approvals_setBalance : (s.setBalance key y).approvals = s.approvals := by
  simp only [setBalance]
  cases s.tokens.lookup key <;> rfl

theorem applyTokenChange_delta (hb : s.balanceOf key = some (.fungible x)) :
    applyTokenChange s (.balanceDelta key d) = .ok t ↔
      ∃ y, addSigned x d = some y ∧ t = s.setBalance key y := by
  obtain ⟨holding, hl, hx⟩ := balanceOf_eq_some.1 hb
  simp only [applyTokenChange, applyBalanceDelta, changeHolding_eq_ok, addToBalance_eq_ok, hl,
    some.injEq]
  constructor
  · rintro ⟨_, _, rfl, ⟨_, y, hx', ha, rfl⟩, rfl⟩
    cases hx.symm.trans hx'
    exact ⟨y, ha, (setBalance_eq hl).symm⟩
  · rintro ⟨y, ha, rfl⟩
    exact ⟨holding, _, rfl, ⟨x, y, hx, ha, rfl⟩, setBalance_eq hl⟩

theorem balanceOf_other (ho : tc.deltaOf key = none) (h : applyTokenChange s tc = .ok t)
    (hb : s.balanceOf key = some b) : t.balanceOf key = some b := by
  rw [← hb]
  cases tc with
  | balanceDelta k d =>
    have hk : k ≠ key := by
      rintro rfl
      simp [deltaOf] at ho
    exact balanceOf_changeHolding h fun heq => absurd heq hk
  | approvalSet k sp allowance =>
    cases k <;> first | cases h; rfl | exact absurd h fail_ne_ok
  | approvalRevoke k sp sc =>
    cases sc with
    | erc721Token =>
      refine balanceOf_changeHolding h fun _ a a' hc => ?_
      rw [← Except.ok.inj hc]
    | _ => cases k <;> first | cases h; rfl | exact absurd h fail_ne_ok
  | erc721ApprovedTo k sp =>
    refine balanceOf_changeHolding h fun _ a a' hc => ?_
    rw [← Except.ok.inj hc]
  | mint k kh =>
    simp only [applyTokenChange] at h
    cases hk : s.tokens.lookup k with
    | some holding =>
      rw [hk] at h
      rw [← Except.ok.inj h]
    | none =>
      rw [hk] at h
      obtain ⟨holding, hl, -⟩ := balanceOf_eq_some.1 hb
      have hn : key ≠ k := by
        rintro rfl
        cases hl.symm.trans hk
      rw [← Except.ok.inj h]
      exact balanceOf_insert_of_ne hn

/-- Any other change does the same whatever the balance is. -/
theorem applyTokenChange_setBalance (ho : tc.deltaOf key = none)
    (hb : s.balanceOf key = some b) : applyTokenChange (s.setBalance key y) tc =
      (·.setBalance key y) <$> applyTokenChange s tc := by
  cases tc with
  | balanceDelta k d =>
    have hk : k ≠ key := by
      rintro rfl
      simp [deltaOf] at ho
    exact changeHolding_setBalance fun heq => absurd heq hk
  | approvalSet k sp allowance =>
    simp only [applyTokenChange, applyApprovalSet, approvals_setBalance, setBalance_withApprovals]
    cases k <;> rfl
  | approvalRevoke k sp sc =>
    cases sc with
    | erc721Token => exact changeHolding_setBalance fun _ a => rfl
    | _ =>
      simp only [applyTokenChange, applyApprovalRevoke, approvals_setBalance,
        setBalance_withApprovals]
      cases k <;> rfl
  | erc721ApprovedTo k sp => exact changeHolding_setBalance fun _ a => rfl
  | mint k kh =>
    obtain ⟨holding, hl, -⟩ := balanceOf_eq_some.1 hb
    simp only [applyTokenChange]
    by_cases hk : k = key
    · subst hk
      rw [lookup_setBalance hl, hl]
      rfl
    · rw [lookup_setBalance_of_ne hk]
      cases s.tokens.lookup k with
      | some _ => rfl
      | none =>
        refine congrArg Except.ok ?_
        have hn : key ≠ k := Ne.symm hk
        simp [setBalance, Finmap.lookup_insert_of_ne _ hn, hl, Finmap.insert_insert_of_ne _ hn]

/-! ## One token along a list of changes -/

variable {tcs : List TokenChange}

theorem balanceOf_othersOf (h : (othersOf key tcs).foldlM applyTokenChange s = .ok t)
    (hb : s.balanceOf key = some b) : t.balanceOf key = some b := by
  refine foldlM_invariant (fun s => s.balanceOf key = some b) ?_ h hb
  intro s tc s' hm hs hst
  have ho := (mem_filter.1 hm).2
  exact balanceOf_other (isNone_iff_eq_none.1 ho) hst hs

theorem foldlM_othersOf_setBalance (hb : s.balanceOf key = some b) :
    (othersOf key tcs).foldlM applyTokenChange (s.setBalance key y) =
      (·.setBalance key y) <$> (othersOf key tcs).foldlM applyTokenChange s := by
  induction tcs generalizing s with
  | nil => rfl
  | cons tc tcs ih =>
    rw [othersOf, filter_cons]
    split
    · rename_i ho
      have ho := isNone_iff_eq_none.1 ho
      rw [foldlM_cons, foldlM_cons, applyTokenChange_setBalance ho hb]
      cases hs : applyTokenChange s tc with
      | error e => rfl
      | ok t => exact ih (balanceOf_other ho hs hb)
    · exact ih hb

/-- The balance of a held token runs through its own ledger, and the other changes run as if
it stood still. -/
theorem foldlM_split (hb : s.balanceOf key = some (.fungible x)) :
    tcs.foldlM applyTokenChange s = .ok t ↔ ∃ u y,
      (othersOf key tcs).foldlM applyTokenChange s = .ok u ∧
        ledger x (deltasOf key tcs) = some y ∧ t = u.setBalance key y := by
  induction tcs generalizing s x with
  | nil =>
    constructor
    · intro h
      cases h
      exact ⟨_, x, rfl, rfl, (setBalance_self hb).symm⟩
    · rintro ⟨u, y, hu, hy, rfl⟩
      cases hu
      cases hy
      rw [setBalance_self hb]
      rfl
  | cons tc tcs ih =>
    rw [foldlM_cons, bind_eq_ok]
    cases hd : tc.deltaOf key with
    | none =>
      have ho : othersOf key (tc :: tcs) = tc :: othersOf key tcs := by
        simp [othersOf, hd]
      have hdl : deltasOf key (tc :: tcs) = deltasOf key tcs := filterMap_cons_none hd
      simp only [ho, hdl, foldlM_cons, bind_eq_ok]
      constructor
      · rintro ⟨mid, hm, h⟩
        obtain ⟨u, y, hu, hy, rfl⟩ := (ih (balanceOf_other hd hm hb)).1 h
        exact ⟨u, y, ⟨mid, hm, hu⟩, hy, rfl⟩
      · rintro ⟨u, y, ⟨mid, hm, hu⟩, hy, rfl⟩
        exact ⟨mid, hm, (ih (balanceOf_other hd hm hb)).2 ⟨u, y, hu, hy, rfl⟩⟩
    | some d =>
      obtain rfl := eq_of_deltaOf hd
      have ho : othersOf key (.balanceDelta key d :: tcs) = othersOf key tcs := by
        simp [othersOf, hd]
      have hdl : deltasOf key (.balanceDelta key d :: tcs) = d :: deltasOf key tcs :=
        filterMap_cons_some hd
      have hs : ∀ y, (s.setBalance key y).balanceOf key = some (.fungible y) := fun _ =>
        balanceOf_setBalance hb
      simp only [ho, hdl, applyTokenChange_delta hb, ledger, foldlM_cons]
      constructor
      · rintro ⟨_, ⟨y, ha, rfl⟩, h⟩
        obtain ⟨u, z, hu, hz, rfl⟩ := (ih (hs y)).1 h
        rw [foldlM_othersOf_setBalance hb] at hu
        obtain ⟨v, hv, rfl⟩ := map_eq_ok.1 hu
        refine ⟨v, z, hv, ?_, setBalance_setBalance⟩
        rw [ha]
        exact hz
      · rintro ⟨v, z, hv, hz, rfl⟩
        obtain ⟨y, ha, hz⟩ := bind_eq_some_iff.1 hz
        refine ⟨_, ⟨y, ha, rfl⟩, (ih (hs y)).2 ⟨v.setBalance key y, z, ?_, hz, ?_⟩⟩
        · rw [foldlM_othersOf_setBalance hb, hv]
          rfl
        · exact setBalance_setBalance.symm

def Mints (key : TokenKey) (tcs : List TokenChange) : Prop := ∃ kindHint, .mint key kindHint ∈ tcs

/-- The balance a token starts from under a list of changes: its own, or zero where the changes
mint it. -/
def Opens (s : WalletState) (key : TokenKey) (tcs : List TokenChange) (x : U256) : Prop :=
  s.balanceOf key = some (.fungible x) ∨ s.balanceOf key = none ∧ Mints key tcs ∧ x = 0

theorem balanceOf_of_owned (h : tcs.foldlM applyTokenChange s = .ok t)
    (hb : s.balanceOf key = some .owned) : t.balanceOf key = some .owned := by
  refine foldlM_invariant (fun s => s.balanceOf key = some .owned) ?_ h hb
  intro s tc s' _ hs hst
  cases hd : tc.deltaOf key with
  | none => exact balanceOf_other hd hst hs
  | some d =>
    obtain ⟨holding, hl, ho⟩ := balanceOf_eq_some.1 hs
    rw [eq_of_deltaOf hd] at hst
    obtain ⟨holding', _, hl', ha, -⟩ := changeHolding_eq_ok.1 hst
    obtain ⟨x, _, hx, -⟩ := addToBalance_eq_ok.1 ha
    cases hl.symm.trans hl'
    cases ho.symm.trans hx

/-- A change that can be made without holding a token does not touch its balance, and only a
mint makes the wallet hold it. -/
theorem balanceOf_of_none (h : applyTokenChange s tc = .ok t) (hn : s.balanceOf key = none)
    (hm : ∀ kh, tc ≠ .mint key kh) : t.balanceOf key = none ∧ tc.deltaOf key = none := by
  have hl : s.tokens.lookup key = none := map_eq_none_iff.1 hn
  have hc : ∀ {k change}, changeHolding s k change = .ok t → t.balanceOf key = none := by
    intro k change h
    obtain ⟨holding, _, hk, -, rfl⟩ := changeHolding_eq_ok.1 h
    have hne : key ≠ k := by
      rintro rfl
      cases hl.symm.trans hk
    exact (balanceOf_insert_of_ne hne).trans hn
  cases tc with
  | balanceDelta k d =>
    refine ⟨hc h, if_neg ?_⟩
    rintro rfl
    obtain ⟨holding, _, hk, -, -⟩ := changeHolding_eq_ok.1 h
    cases hl.symm.trans hk
  | approvalSet k sp allowance =>
    refine ⟨?_, rfl⟩
    cases k <;> first | cases h; exact hn | exact absurd h fail_ne_ok
  | approvalRevoke k sp sc =>
    refine ⟨?_, rfl⟩
    cases sc with
    | erc721Token => exact hc h
    | _ => cases k <;> first | cases h; exact hn | exact absurd h fail_ne_ok
  | erc721ApprovedTo k sp => exact ⟨hc h, rfl⟩
  | mint k kh =>
    refine ⟨?_, rfl⟩
    simp only [applyTokenChange] at h
    cases hk : s.tokens.lookup k with
    | some holding =>
      rw [hk] at h
      rwa [← Except.ok.inj h]
    | none =>
      rw [hk] at h
      have hne : key ≠ k := by
        rintro rfl
        exact hm kh rfl
      rw [← Except.ok.inj h]
      exact (balanceOf_insert_of_ne hne).trans hn

section

variable (h : tcs.foldlM applyTokenChange s = .ok t)
include h

theorem balanceOf_of_not_mints
    (hn : s.balanceOf key = none) (hmi : ¬ Mints key tcs) : t.balanceOf key = none := by
  refine foldlM_invariant (fun s => s.balanceOf key = none) ?_ h hn
  intro s tc s' hm hs hst
  exact (balanceOf_of_none hst hs fun kh heq => hmi ⟨kh, heq ▸ hm⟩).1

theorem balanceOf_of_held (hb : s.balanceOf key = some (.fungible x)) :
    ∃ y, ledger x (deltasOf key tcs) = some y ∧ t.balanceOf key = some (.fungible y) := by
  obtain ⟨u, y, hu, hy, rfl⟩ := (foldlM_split hb).1 h
  exact ⟨y, hy, balanceOf_setBalance (balanceOf_othersOf hu hb)⟩

theorem balanceOf_of_opens (ho : Opens s key tcs x) :
    ∃ y, ledger x (deltasOf key tcs) = some y ∧ t.balanceOf key = some (.fungible y) := by
  rcases ho with hb | ⟨hn, hmi, rfl⟩
  · exact balanceOf_of_held h hb
  · induction tcs generalizing s with
    | nil =>
      obtain ⟨kh, hm⟩ := hmi
      cases hm
    | cons tc tcs ih =>
      rw [foldlM_cons, bind_eq_ok] at h
      obtain ⟨mid, hmd, h⟩ := h
      by_cases hmn : ∃ kh, tc = .mint key kh
      · obtain ⟨kh, rfl⟩ := hmn
        have hl : s.tokens.lookup key = none := map_eq_none_iff.1 hn
        simp only [applyTokenChange, hl] at hmd
        have hmd : mid.tokens.lookup key = some (mintStubHolding key kh) := by
          rw [← Except.ok.inj hmd]
          exact Finmap.lookup_insert _
        have hdl : deltasOf key (.mint key kh :: tcs) = deltasOf key tcs := rfl
        rw [hdl]
        exact balanceOf_of_held h (balanceOf_eq_some.2 ⟨_, hmd, rfl⟩)
      · obtain ⟨hn', hd⟩ := balanceOf_of_none hmd hn fun kh heq =>
          hmn ⟨kh, heq⟩
        obtain ⟨kh, hm⟩ := hmi
        have hmi' : Mints key tcs := by
          rcases mem_cons.1 hm with heq | hm
          · exact absurd ⟨kh, heq.symm⟩ hmn
          · exact ⟨kh, hm⟩
        rw [deltasOf, filterMap_cons_none hd]
        exact ih h hn' hmi'

end

end Changes

/-! ## Wallets of one token -/

def ether : TokenKey := .native ⟨"eip155:1"⟩

def walletHolding (key : TokenKey) (amount : U256) : WalletState :=
  { WalletState.new ⟨0, ∅⟩ with
    tokens := Finmap.singleton key
      { mintStubHolding key .unknown with balance := .fungible amount } }

end Dambi.Asset
