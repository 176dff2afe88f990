import Dambi.Asset.Apply
import Dambi.Asset.Moves

/-!
# Accounts of a swap

What a swap takes from the wallet, feeds into the paths of its route and leaves
in the wallet. The reducer reads neither the recipient nor the sum of the
shares: it credits the wallet whoever is paid, and feeds each path its share of
the amount, also where the shares are more than the whole.
-/

namespace Dambi.Asset

open FixedWidth Fallible List

/-! ## Paths -/

section Paths

variable {D : Type} {kit : DecimalKit D} {total quoted : U256} {path : RoutePath}

def pathAmountIn (total : U256) (path : RoutePath) : ReducerResult U256 := do
  let numerator ← mulOr total (.from path.shareBp) "swap: path_amount_in numerator overflow"
  divide numerator 10000

def shareOf (total : U256) (path : RoutePath) : Nat := total.val * path.shareBp.val / 10000

theorem pathAmountIn_eq_ok {amo : U256} (h : pathAmountIn total path = .ok amo) :
    amo.val = shareOf total path := by
  simp only [pathAmountIn, bind_eq_ok, mulOr_eq_ok, divide_eq_ok] at h
  obtain ⟨n, hn, -, ha⟩ := h
  rw [ha, hn, U256.val_from (by decide)]
  rfl

theorem exists_pathAmounts {r : SwapRoute} (h : quoteRoute kit total r = .ok quoted) :
    ∃ ams, r.paths.mapM (pathAmountIn total) = .ok ams ∧
      ams.map (·.val) = r.paths.map (shareOf total) := by
  have hpa : ∀ path ∈ r.paths, ∃ amount, pathAmountIn total path = .ok amount := by
    unfold quoteRoute at h
    generalize (0 : U256) = out at h
    generalize r.paths = ps at h
    induction ps generalizing out with
    | nil => exact fun path hpa => absurd hpa not_mem_nil
    | cons path ps ih =>
      rw [foldlM_cons, quotePath, ← bind_assoc, ← pathAmountIn] at h
      obtain ⟨out', ho', hr⟩ := bind_eq_ok.1 h
      obtain ⟨po, hpo, -⟩ := bind_eq_ok.1 ho'
      obtain ⟨amount, hao, -⟩ := bind_eq_ok.1 hpo
      intro p hp
      rcases mem_cons.1 hp with rfl | hp
      · exact ⟨amount, hao⟩
      · exact ih out' hr p hp
  obtain ⟨ams, ham⟩ := exists_mapM_eq_ok hpa
  refine ⟨ams, ham, ?_⟩
  have ha := mapM_eq_ok.1 ham
  clear ham hpa h
  generalize r.paths = ps at ha
  induction ha with
  | nil => rfl
  | cons hh _ ih => rw [map_cons, map_cons, pathAmountIn_eq_ok hh, ih]

end Paths

/-! ## Recorded amounts -/

def StateDelta.debitedFrom (d : StateDelta) (key : TokenKey) : Int :=
  ((values (deltasOf key d.tokenChanges)).map fun i => max 0 (-i)).sum

def StateDelta.creditedTo (d : StateDelta) (key : TokenKey) : Int :=
  ((values (deltasOf key d.tokenChanges)).map fun i => max 0 i).sum

/-- A change that leaves the holding of a token alone. -/
def TokenChange.Spares (key : TokenKey) : TokenChange → Prop
  | .balanceDelta k _ => key ≠ k
  | .approvalSet _ _ _ => True
  | _ => False

section Recording

variable {D : Type} {kit : DecimalKit D} {codec : PositionCodec} {s s' : WalletState}
  {ctx : EvalContext} {a : SwapAction} {d : StateDelta} {key : TokenKey} {quoted x : U256}

theorem applyDelta_tokens (hg : d.gasPaid = none) (h : applyDelta codec s d = .ok s') :
    ∃ t, d.tokenChanges.foldlM applyTokenChange s = .ok t ∧ s'.tokens = t.tokens := by
  obtain ⟨t, ps, qs, ha, -, -, rfl⟩ := applyDelta_eq_ok.1 h
  obtain ⟨t', ht', hg'⟩ := bind_eq_ok.1 ha
  rw [hg] at hg'
  cases hg'
  exact ⟨_, ht', rfl⟩

theorem held_congr (h : s'.tokens = s.tokens) (key : TokenKey) : s'.held key = s.held key := by
  rw [WalletState.held, WalletState.balanceOf, h]
  rfl

theorem applyTokenChange_spares {tc : TokenChange}
    (hs : tc.Spares key) (h : applyTokenChange s tc = .ok s') :
    s'.tokens.lookup key = s.tokens.lookup key := by
  cases tc with
  | balanceDelta k δ =>
    obtain ⟨_, _, -, -, rfl⟩ := changeHolding_eq_ok.1 h
    exact Finmap.lookup_insert_of_ne _ hs
  | approvalSet k sp allowance =>
    simp only [applyTokenChange, applyApprovalSet] at h
    split at h
    · obtain ⟨_, -, h⟩ := bind_eq_ok.1 h
      cases h
      rfl
    · obtain ⟨_, -, h⟩ := bind_eq_ok.1 h
      cases h
      rfl
    · cases h
    · cases h
  | approvalRevoke _ _ _ | erc721ApprovedTo _ _ | mint _ _ => exact hs.elim

/-- The change that pays the wallet. -/
def SwapAction.receipt (a : SwapAction) (quoted : U256) : List TokenChange :=
  (a.params.tokenOut.map fun token =>
    TokenChange.balanceDelta token.key (u256ToSignedSaturating quoted)).toList

/-- What a swap records: the grants of its aggregator, the debit and the receipt. -/
structure SwapRecord (kit : DecimalKit D) (s : WalletState) (a : SwapAction) (d : StateDelta)
    (quoted x : U256) (grants : List TokenChange) : Prop where
  quote : quoteRoute kit a.params.direction.totalAmountIn a.liveInputs.route.value = .ok quoted
  minimum : ∀ amountIn least, a.params.direction = .exactInput amountIn least → least ≤ quoted
  granted : ∀ tc ∈ grants, ∃ key spender allowance, tc = .approvalSet key spender allowance
  sold : s.balanceOf a.params.tokenIn.key = some (.fungible x)
  covered : a.params.direction.totalAmountIn.val ≤ x.val ∨ ceiling ≤ x.val
  bought : ∀ token, a.params.tokenOut = some token →
    ∃ y, s.balanceOf token.key = some (.fungible y)
  changes : d.tokenChanges = grants ++ .balanceDelta a.params.tokenIn.key
    (-u256ToSignedSaturating a.params.direction.totalAmountIn) :: a.receipt quoted

theorem aggregatorPrelude_grants (h : aggregatorPrelude ctx a = .ok d) :
    ∀ tc ∈ d.tokenChanges, ∃ key sp allowance, tc = .approvalSet key sp allowance := by
  have hn : ∀ tc ∈ StateDelta.new.tokenChanges, ∃ key sp allowance,
      tc = TokenChange.approvalSet key sp allowance := fun tc ht => absurd ht not_mem_nil
  unfold aggregatorPrelude at h
  split at h
  · simp only [bind_eq_ok] at h
    obtain ⟨_, -, _, -, h⟩ := h
    unfold applyPermitBundle at h
    split at h
    · simp only [upsertPermit2Allowance, onErc20, bind_eq_ok] at h
      obtain ⟨_, -, h⟩ := h
      cases h
      intro tc ht
      exact ⟨_, _, _, mem_singleton.1 ht⟩
    · cases h
      exact hn
  · cases h
    exact hn

variable {grants : List TokenChange}

theorem deltasOf_grants
    (h : ∀ tc ∈ grants, ∃ key sp allowance, tc = .approvalSet key sp allowance) :
    deltasOf key grants = [] := by
  refine filterMap_eq_nil_iff.2 fun tc ht => ?_
  obtain ⟨_, _, _, rfl⟩ := h tc ht
  rfl

theorem SwapAction.record (h : a.apply kit s ctx = .ok d) :
    ∃ quoted x grants, SwapRecord kit s a d quoted x grants := by
  simp only [SwapAction.apply, bind_eq_ok] at h
  obtain ⟨quoted, hq, _, hs, d₀, hp, d₁, hde, hc⟩ := h
  have hg := aggregatorPrelude_grants hp
  simp only [debit, effectiveSignedBalance, bind_eq_ok, fungibleBalance_eq_ok, ensure_eq_ok,
    deltasOf_grants hg] at hde
  obtain ⟨e, ⟨x, hx, he⟩, _, hco, hd₁⟩ := hde
  cases he
  cases hd₁
  have hm : ∀ ai least, a.params.direction = .exactInput ai least →
      least ≤ quoted := by
    intro ai least hdi
    rw [hdi] at hs
    exact ensure_eq_ok.1 hs
  unfold creditOut at hc
  split at hc
  · rename_i t ht
    obtain ⟨y, hy, rfl⟩ := credit_eq_ok.1 hc
    refine ⟨quoted, x, d₀.tokenChanges, hq, hm, hg, hx, toSigned_le_iff.1 hco, ?_, ?_⟩
    · intro b hb
      cases ht.symm.trans hb
      exact ⟨y, hy⟩
    · simp [SwapAction.receipt, ht, StateDelta.pushToken]
  · rename_i ht
    cases hc
    refine ⟨quoted, x, d₀.tokenChanges, hq, hm, hg, hx, toSigned_le_iff.1 hco, ?_, ?_⟩
    · intro b hb
      cases ht.symm.trans hb
    · simp [SwapAction.receipt, ht, StateDelta.pushToken]

section

variable (h : SwapRecord kit s a d quoted x grants)
include h

theorem SwapRecord.values (key : TokenKey) : Asset.values (deltasOf key d.tokenChanges) =
      (if a.params.tokenIn.key = key then
        [-min (a.params.direction.totalAmountIn.val : Int) ceiling] else []) ++
      (if a.params.tokenOut.map (·.key) = some key then [min (quoted.val : Int) ceiling]
        else []) := by
  rw [h.changes, deltasOf, filterMap_append, ← deltasOf, deltasOf_grants h.granted,
    nil_append, SwapAction.receipt, Asset.values]
  cases ht : a.params.tokenOut with
  | none =>
    by_cases hi : a.params.tokenIn.key = key <;>
      simp [TokenChange.deltaOf, hi, val_neg_toSigned]
  | some t =>
    by_cases hi : a.params.tokenIn.key = key <;> by_cases ho : t.key = key <;>
      simp [TokenChange.deltaOf, hi, ho, val_neg_toSigned, val_toSigned]

theorem SwapRecord.lookup
    (hs' : d.tokenChanges.foldlM applyTokenChange s = .ok s') (hi : key ≠ a.params.tokenIn.key)
    (ho : ∀ tk, a.params.tokenOut = some tk → key ≠ tk.key) :
    s'.tokens.lookup key = s.tokens.lookup key := by
  refine foldlM_invariant (fun t => t.tokens.lookup key = s.tokens.lookup key) ?_ hs' rfl
  intro t tc t' hm ht hst
  rw [← ht]
  refine applyTokenChange_spares ?_ hst
  rw [h.changes] at hm
  rcases mem_append.1 hm with hg | hm
  · obtain ⟨_, _, _, rfl⟩ := h.granted tc hg
    trivial
  · rcases mem_cons.1 hm with rfl | hr
    · exact hi
    · obtain ⟨tk, hto, rfl⟩ := Option.map_eq_some_iff.1 (Option.mem_toList.1 hr)
      exact ho tk hto

theorem SwapRecord.debitedFrom : d.debitedFrom a.params.tokenIn.key =
      min (a.params.direction.totalAmountIn.val : Int) ceiling := by
  have hc := ceiling_nonneg
  rw [StateDelta.debitedFrom, h.values, if_pos rfl]
  split <;> simp <;> omega

variable {t : TokenRef}

theorem SwapRecord.creditedTo (ht : a.params.tokenOut = some t) :
    d.creditedTo t.key = min (quoted.val : Int) ceiling := by
  have hc := ceiling_nonneg
  rw [StateDelta.creditedTo, h.values, ht, Option.map_some, if_pos rfl]
  split <;> simp <;> omega

theorem SwapRecord.held_lt_iff (ht : a.params.tokenOut = some t)
    (hs' : d.tokenChanges.foldlM applyTokenChange s = .ok s') :
    s.held t.key < s'.held t.key ↔ (s.held t.key : Int) < ceiling ∧
      (if a.params.tokenIn.key = t.key then a.params.direction.totalAmountIn.val else 0) <
        quoted.val := by
  obtain ⟨y, hy⟩ := h.bought t ht
  obtain ⟨z, hz, hb⟩ := balanceOf_of_held hs' hy
  have hc := h.covered
  rw [held_eq hy, held_eq hb]
  rw [ledger_eq_some, h.values, ht, Option.map_some, if_pos rfl] at hz
  by_cases hi : a.params.tokenIn.key = t.key
  · rw [if_pos hi] at hz ⊢
    have hso := h.sold
    rw [hi, hy] at hso
    cases hso
    obtain ⟨m, hm, hz⟩ := Option.bind_eq_some_iff.1 hz
    obtain ⟨n, hn, hz⟩ := Option.bind_eq_some_iff.1 hz
    cases hz
    rw [Saturation.step_eq_some] at hm hn
    omega
  · rw [if_neg hi] at hz ⊢
    obtain ⟨n, hn, hz⟩ := Option.bind_eq_some_iff.1 hz
    cases hz
    rw [Saturation.step_eq_some] at hn
    omega

end

end Recording

/-! ## Accounts -/

section Accounts

variable {D : Type} {kit : DecimalKit D} {codec : PositionCodec} {s s' : WalletState}
  {ctx : EvalContext} {a : SwapAction} {d : StateDelta} {key : TokenKey} {quoted x : U256}

def SwapAction.credited (a : SwapAction) (d : StateDelta) : Int :=
  a.params.tokenOut.elim 0 fun token => d.creditedTo token.key

/-- The accounts of a swap: the wallet is paid only as the recipient, the paths get no more than
is debited, an exact input credits its minimum, and no other token is touched. -/
structure SwapAccounted (s s' : WalletState) (a : SwapAction) (d : StateDelta)
    (amounts : List U256) : Prop where
  recipient : ∀ token, a.params.tokenOut = some token → s.held token.key < s'.held token.key →
    a.params.recipient = s.walletId.address
  paths : (((amounts.map (·.val)).sum : Nat) : Int) ≤ d.debitedFrom a.params.tokenIn.key
  minimum : ∀ amountIn least, a.params.direction = .exactInput amountIn least →
    (least.val : Int) ≤ a.credited d
  others : ∀ key, key ≠ a.params.tokenIn.key →
    (∀ token, a.params.tokenOut = some token → key ≠ token.key) →
      s'.tokens.lookup key = s.tokens.lookup key

/-- What the reducer leaves to the action: where the route pays the wallet, the wallet is the
recipient; the shares come to at most the amount; a minimum has a token to be paid in; and the
amounts fit in the signed width. -/
structure SwapAction.Kept (s : WalletState) (a : SwapAction) (quoted : U256) : Prop where
  recipient : ∀ token, a.params.tokenOut = some token → (s.held token.key : Int) < ceiling →
    (if a.params.tokenIn.key = token.key then a.params.direction.totalAmountIn.val else 0) <
      quoted.val → a.params.recipient = s.walletId.address
  shares : (((a.liveInputs.route.value.paths.map
    (shareOf a.params.direction.totalAmountIn)).sum : Nat) : Int) ≤
      min (a.params.direction.totalAmountIn.val : Int) ceiling
  minimum : ∀ amountIn least, a.params.direction = .exactInput amountIn least →
    least = 0 ∨ a.params.tokenOut.isSome = true ∧ (least.val : Int) ≤ ceiling

theorem SwapRecord.minimum_iff {grants : List TokenChange} {ai l : U256}
    (h : SwapRecord kit s a d quoted x grants)
    (hd : a.params.direction = .exactInput ai l) :
    (l.val : Int) ≤ a.credited d ↔
      l = 0 ∨ a.params.tokenOut.isSome = true ∧ (l.val : Int) ≤ ceiling := by
  have hl := h.minimum ai l hd
  have hc := ceiling_nonneg
  rw [Unsigned.le_iff] at hl
  rw [SwapAction.credited, Unsigned.ext_iff]
  cases ht : a.params.tokenOut with
  | none =>
    simp
  | some t =>
    rw [Option.elim_some, h.creditedTo ht]
    simp
    omega

/-- A swap that is accepted is accounted for exactly if its action keeps what the reducer does
not check. -/
theorem swap_accounted_iff (h : a.apply kit s ctx = .ok d) :
    ∃ s' quoted amounts, applyDelta codec s d = .ok s' ∧
      quoteRoute kit a.params.direction.totalAmountIn a.liveInputs.route.value = .ok quoted ∧
      a.liveInputs.route.value.paths.mapM (pathAmountIn a.params.direction.totalAmountIn) =
        .ok amounts ∧
      (SwapAccounted s s' a d amounts ↔ a.Kept s quoted) := by
  have hrc : Recorded codec s d := SwapAction.recorded h
  obtain ⟨s', hs'⟩ := hrc.outcome.applies_iff.2 trivial
  obtain ⟨quoted, x, grants, hr⟩ := SwapAction.record h
  obtain ⟨amounts, ham, hsh⟩ := exists_pathAmounts hr.quote
  obtain ⟨t, ht, htk⟩ := applyDelta_tokens hrc.appliesTo.gasFree hs'
  refine ⟨s', quoted, amounts, hs', hr.quote, ham, fun ha => ⟨?_, ?_, ?_⟩,
    fun hk => ⟨?_, ?_, ?_, ?_⟩⟩
  · intro token hto hro hp
    refine ha.recipient token hto ?_
    rw [held_congr htk]
    exact (hr.held_lt_iff hto ht).2 ⟨hro, hp⟩
  · rw [← hsh, ← hr.debitedFrom]
    exact ha.paths
  · intro amountIn least hd
    exact (hr.minimum_iff hd).1 (ha.minimum amountIn least hd)
  · intro token hto hl
    rw [held_congr htk] at hl
    obtain ⟨hro, hp⟩ := (hr.held_lt_iff hto ht).1 hl
    exact hk.recipient token hto hro hp
  · rw [hsh, hr.debitedFrom]
    exact hk.shares
  · intro amountIn least hd
    exact (hr.minimum_iff hd).2 (hk.minimum amountIn least hd)
  · intro key hi ho
    rw [htk]
    exact hr.lookup ht hi ho

end Accounts

/-! ## One pool -/

/-- A wallet with ether and no other token than USDC. -/
def tradingWallet : WalletState :=
  { walletHolding ether 1000 with
    tokens := (walletHolding ether 1000).tokens.insert usdc
      { mintStubHolding usdc .unknown with balance := .fungible 5 } }

/-- A sale of one hundred ether over one pool, with a share of the amount. -/
def sellEther (recipient : Address) (shareBp : Unsigned 32) : SwapAction where
  venue := .uniswapV2 ⟨"eip155:1"⟩ 0 0
  params :=
    { tokenIn := ⟨ether⟩, tokenOut := some ⟨usdc⟩, direction := .exactInput 100 90, recipient,
      slippageBp := 50 }
  liveInputs :=
    { route := fresh
        { paths :=
            [{ shareBp, estimatedOut := 90, hops :=
                [{ tokenIn := ⟨ether⟩, tokenOut := ⟨usdc⟩, venue := .uniswapV2 ⟨"eip155:1"⟩ 0 0,
                   poolState := .xyConstant 1000 1000 30, effectiveFeeBp := 30,
                   estimatedOut := 90 }] }],
          aggregator := none }
      expectedAmountOut := fresh 90
      priceImpactBp := fresh 0
      gasEstimate := fresh 0 }

theorem swap_accounted_iff_whole : ∃ d s' amounts,
    (sellEther 0 10000).apply .whole tradingWallet sampleContext = .ok d ∧
      applyDelta .numbered tradingWallet d = .ok s' ∧
      SwapAccounted tradingWallet s' (sellEther 0 10000) d amounts := by
  have ho := eq_ok_result ((sellEther 0 10000).apply .whole tradingWallet sampleContext)
    (by decide +kernel)
  obtain ⟨s', quoted, amounts, hs', -, -, hi⟩ := @swap_accounted_iff _ _ .numbered _ _ _ _ ho
  refine ⟨_, s', amounts, ho, hs', hi.2 ⟨fun _ _ _ _ => rfl, by decide +kernel, ?_⟩⟩
  intro amountIn least hd
  cases hd
  exact .inr ⟨rfl, by decide +kernel⟩

/-- A swap that pays a stranger adds the bought token to the wallet. -/
theorem swap_credits_stranger : ∃ (a : SwapAction) (d : StateDelta) (s' : WalletState),
    a.apply .whole tradingWallet sampleContext = .ok d ∧
      applyDelta .numbered tradingWallet d = .ok s' ∧
      a.params.tokenOut = some ⟨usdc⟩ ∧ a.params.recipient ≠ tradingWallet.walletId.address ∧
      tradingWallet.held usdc < s'.held usdc := by
  have ho := eq_ok_result ((sellEther 1 10000).apply .whole tradingWallet sampleContext)
    (by decide +kernel)
  have hr : Recorded .numbered tradingWallet _ := SwapAction.recorded ho
  obtain ⟨s', hs'⟩ := hr.outcome.applies_iff.2 trivial
  obtain ⟨quoted, x, grants, hre⟩ := SwapAction.record ho
  obtain ⟨t, ht, htk⟩ := applyDelta_tokens hr.appliesTo.gasFree hs'
  have hq : quoted = 90 :=
    Except.ok.inj (hre.quote.symm.trans (show _ = Except.ok 90 by decide +kernel))
  refine ⟨_, _, s', ho, hs', rfl, by decide +kernel, ?_⟩
  rw [held_congr htk]
  refine (hre.held_lt_iff rfl ht).2 ⟨by decide +kernel, ?_⟩
  rw [hq]
  decide +kernel


end Dambi.Asset
