import Dambi.Asset.Ledger

/-!
# Merged deltas

Applying a merge against applying its halves one after the other. Everything
but the gas agrees: the gas of the first delta is charged before the changes
of the second in one case and after them in the other, so the two come apart
when those changes touch the balance the gas is paid from.
-/

namespace Dambi.Asset

open FixedWidth Fallible Saturation WalletState Unsigned Option

/-! ## Gas in and out of order -/

def StateDelta.gasFree (d : StateDelta) : StateDelta := { d with gasPaid := none }

def StateDelta.gasAmount (d : StateDelta) : U256 := (d.gasPaid.map (·.2)).getD 0

/-- The balance `x` covers two charges made after the changes `ds`. -/
def CoversLate (x : Int) (ds : List Int) (first second : U256) : Prop :=
  (first.saturatingAdd second).val ≤ finish ceiling x ds

/-- The balance `x` covers the first charge, what is left covers the changes `ds`, and what is
left then covers the second charge. -/
def CoversEarly (x : Int) (ds : List Int) (first second : U256) : Prop :=
  first.val ≤ x ∧ -low ds ≤ min (x - first.val) ceiling ∧
    second.val ≤ finish ceiling (x - first.val) ds

/-- It makes no difference whether the first charge comes before the changes or after them:
either both orders are covered or none is, and the changes never meet the ceiling. -/
def InOrder (x : Int) (ds : List Int) (first second : U256) : Prop :=
  (CoversLate x ds first second ↔ CoversEarly x ds first second) ∧
    (CoversLate x ds first second → first.val = 0 ∨ ds = [] ∨ x + high ds ≤ ceiling)

/-- The gas of the first delta may as well be charged after the changes of the second. -/
def GasInOrder (codec : PositionCodec) (s : WalletState) (a b : StateDelta) : Prop :=
  ∀ token first, a.gasPaid = some (token, first) →
    (∃ u, (applyDelta codec s a.gasFree >>= (applyDelta codec · b.gasFree)) = .ok u) →
      (∀ x, Opens s token.key a.tokenChanges x →
        InOrder (finish ceiling x.val (values (deltasOf token.key a.tokenChanges)))
          (values (deltasOf token.key b.tokenChanges)) first b.gasAmount) ∧
      (s.balanceOf token.key = none → ¬ Mints token.key a.tokenChanges →
        Mints token.key b.tokenChanges →
          ¬ CoversLate 0 (values (deltasOf token.key b.tokenChanges)) first b.gasAmount)

/-! ## The orders compared on one balance -/

section Balance

variable {x y z : U256} {ds : List I256} {first second : U256}

theorem ledger_eq_some_finish : ledger x ds = some y ↔
    -low (values ds) ≤ min (x.val : Int) ceiling ∧ fall (values ds) ≤ ceiling ∧
      (y.val : Int) = finish ceiling x.val (values ds) := by
  rw [ledger_eq_some, run_eq_some (by omega) ceiling_nonneg]

/-- A balance that is covered early is covered without the charge. -/
theorem ledger_isSome_of_sub {left : U256} (hle : left.val ≤ x.val) (h : ledger left ds = some z) :
    ∃ y, ledger x ds = some y := by
  obtain ⟨hl, hf, -⟩ := ledger_eq_some_finish.1 h
  have hr : run ceiling x.val (values ds) = some (finish ceiling x.val (values ds)) :=
    (run_eq_some (by omega) ceiling_nonneg).2 ⟨by omega, hf, rfl⟩
  rw [← ledger_val, map_eq_some_iff] at hr
  obtain ⟨y, hy, -⟩ := hr
  exact ⟨y, hy⟩

theorem coversLate_iff (first second : U256) (hl : ledger x ds = some y) :
    CoversLate x.val (values ds) first second ↔ (first.saturatingAdd second).val ≤ y.val := by
  obtain ⟨-, -, hy⟩ := ledger_eq_some_finish.1 hl
  unfold CoversLate
  omega

theorem coversEarly_iff (hla : ledger x ds = some y) :
    CoversEarly x.val (values ds) first second ↔
    ∃ left z, x.checkedSub first = some left ∧ ledger left ds = some z ∧ second.val ≤ z.val := by
  obtain ⟨-, hfl, -⟩ := ledger_eq_some_finish.1 hla
  constructor
  · rintro ⟨hfr, hl, hs⟩
    obtain ⟨left, hlf, hv⟩ := exists_checkedSub (a := x) (b := first) (by omega)
    have hc : (left.val : Int) = x.val - first.val := by omega
    have hr := (run_eq_some (x := left.val) (by omega) ceiling_nonneg).2 ⟨by omega, hfl, rfl⟩
    rw [← ledger_val, map_eq_some_iff] at hr
    obtain ⟨z, hz, hf⟩ := hr
    rw [hc] at hf
    exact ⟨left, z, hlf, hz, by omega⟩
  · rintro ⟨left, z, hlf, hz, hs⟩
    obtain ⟨hle, hv⟩ := checkedSub_eq_some.1 hlf
    obtain ⟨hl, -, hf⟩ := ledger_eq_some_finish.1 hz
    have hc : (left.val : Int) = x.val - first.val := by omega
    rw [hc] at hl hf
    exact ⟨by omega, hl, by omega⟩

theorem ends_alike_iff {left : Unsigned 256}
    (hl : ledger x ds = some y) (hco : (first.saturatingAdd second).val ≤ y.val)
    (hlf : x.checkedSub first = some left) (hz : ledger left ds = some z) (hse : second.val ≤ z.val)
    :
    y.val - (first.saturatingAdd second).val = z.val - second.val ↔
      first.val = 0 ∨ values ds = [] ∨ x.val + high (values ds) ≤ ceiling := by
  obtain ⟨-, -, hy⟩ := ledger_eq_some_finish.1 hl
  obtain ⟨-, -, hz⟩ := ledger_eq_some_finish.1 hz
  obtain ⟨hle, hv⟩ := checkedSub_eq_some.1 hlf
  have hc : (left.val : Int) = x.val - first.val := by omega
  rw [hc] at hz
  -- The charges do not saturate: a changed balance is under the ceiling, an unchanged one
  -- covers them.
  have ht : (first.saturatingAdd second).val = first.val + second.val := by
    rw [Unsigned.val_saturatingAdd] at hco ⊢
    by_cases hn : values ds = []
    · rw [hn, finish] at hy hz
      have := x.isLt
      omega
    · have : finish ceiling x.val (values ds) ≤ ceiling := finish_le hn
      rw [← hy, ceiling_eq] at this
      omega
  have hs : finish ceiling x.val (values ds) - finish ceiling (x.val - first.val) (values ds) =
      first.val ↔ _ := finish_sub (by omega)
  rw [← hy, ← hz] at hs
  have hze : (first.val : Int) = 0 ↔ first.val = 0 := by omega
  rw [← hze, ← hs]
  omega

theorem inOrder_iff (hla : ledger x ds = some y) :
    (y.checkedSub (first.saturatingAdd second) =
      ((x.checkedSub first).bind (ledger · ds)).bind (·.checkedSub second)) ↔
    InOrder x.val (values ds) first second := by
  unfold InOrder
  rw [coversLate_iff first second hla, coversEarly_iff hla]
  constructor
  · intro h
    constructor
    · constructor
      · intro hc
        obtain ⟨v, hv, -⟩ := exists_checkedSub hc
        rw [hv] at h
        obtain ⟨z, hz, hs⟩ := bind_eq_some_iff.1 h.symm
        obtain ⟨left, hl, hz⟩ := bind_eq_some_iff.1 hz
        exact ⟨left, z, hl, hz, (checkedSub_eq_some.1 hs).1⟩
      · rintro ⟨left, z, hl, hz, hs⟩
        obtain ⟨v, hv, -⟩ := exists_checkedSub hs
        rw [hl, bind_some, hz, bind_some, hv] at h
        exact (checkedSub_eq_some.1 h).1
    · intro hc
      obtain ⟨v, hv, hva⟩ := exists_checkedSub hc
      rw [hv] at h
      obtain ⟨z, hz, hs⟩ := bind_eq_some_iff.1 h.symm
      obtain ⟨left, hl, hz⟩ := bind_eq_some_iff.1 hz
      obtain ⟨hs, hva'⟩ := checkedSub_eq_some.1 hs
      exact (ends_alike_iff hla hc hl hz hs).1 (hva.symm.trans hva')
  · rintro ⟨hi, he⟩
    by_cases hc : (first.saturatingAdd second).val ≤ y.val
    · obtain ⟨left, z, hl, hz, hs⟩ := hi.1 hc
      obtain ⟨v, hv, hva⟩ := exists_checkedSub hc
      obtain ⟨v', hv', hva'⟩ := exists_checkedSub hs
      have ha := (ends_alike_iff hla hc hl hz hs).2 (he hc)
      rw [hl, bind_some, hz, bind_some, hv, hv',
        Unsigned.ext (hva.trans (ha.trans hva'.symm))]
    · rw [checkedSub_eq_none.2 (by omega), eq_comm, eq_none_iff_forall_ne_some]
      intro v hv
      obtain ⟨z, hz, hs⟩ := bind_eq_some_iff.1 hv
      obtain ⟨left, hl, hz⟩ := bind_eq_some_iff.1 hz
      exact hc (hi.2 ⟨left, z, hl, hz, (checkedSub_eq_some.1 hs).1⟩)

end Balance

/-! ## Deltas one after the other -/

section Deltas

variable {codec : PositionCodec} {s s' t : WalletState} {a b m : StateDelta} {token : TokenRef}
  {first second : U256}

theorem applyGasPaid_eq_ok {amo : U256} : applyGasPaid s token amo = .ok t ↔
    ∃ x y, s.balanceOf token.key = some (.fungible x) ∧ x.checkedSub amo = some y ∧
      t = s.setBalance token.key y := by
  simp only [applyGasPaid, changeHolding_eq_ok, chargeGas_eq_ok, balanceOf_eq_some]
  constructor
  · rintro ⟨ho, _, hl, ⟨x, y, hx, hy, rfl⟩, rfl⟩
    exact ⟨x, y, ⟨ho, hl, hx⟩, hy, (setBalance_eq hl).symm⟩
  · rintro ⟨x, y, ⟨ho, hl, hx⟩, hy, rfl⟩
    exact ⟨ho, _, hl, ⟨x, y, hx, hy, rfl⟩, setBalance_eq hl⟩

/-- Two deltas apply one after the other exactly when each group of the first and then of the
second applies to its own part of the wallet. -/
theorem applyDelta_applyDelta_eq_ok :
    (applyDelta codec s a >>= (applyDelta codec · b)) = .ok s' ↔ ∃ t ps qs,
      (applyAssets s a >>= (applyAssets · b)) = .ok t ∧
        (a.positionChanges ++ b.positionChanges).foldlM (changePositions codec) s.positions =
          .ok ps ∧
        (a.pendingChanges ++ b.pendingChanges).foldlM changePending s.pending = .ok qs ∧
        s' = t.withRest ps qs := by
  simp only [bind_eq_ok, applyDelta_eq_ok, List.foldlM_append]
  constructor
  · rintro ⟨_, ⟨t, ps, qs, ht, hp, hq, rfl⟩, u, ps', qs', hu, hp', hq', rfl⟩
    rw [applyAssets_withRest, map_eq_ok] at hu
    obtain ⟨v, hv, rfl⟩ := hu
    exact ⟨v, ps', qs', ⟨t, ht, hv⟩, ⟨ps, hp, hp'⟩, ⟨qs, hq, hq'⟩, rfl⟩
  · rintro ⟨v, ps', qs', ⟨t, ht, hv⟩, ⟨ps, hp, hp'⟩, ⟨qs, hq, hq'⟩, rfl⟩
    refine ⟨_, ⟨t, ps, qs, ht, hp, hq, rfl⟩, v.withRest ps qs, ps', qs', ?_, hp', hq', rfl⟩
    rw [applyAssets_withRest, hv]
    rfl

theorem mergeDelta_eq_ok : mergeDelta a b = .ok m ↔ ∃ gp,
    mergeGas a.gasPaid b.gasPaid = .ok gp ∧
      m = ⟨a.tokenChanges ++ b.tokenChanges, a.positionChanges ++ b.positionChanges,
        a.pendingChanges ++ b.pendingChanges, gp⟩ := by
  simp only [mergeDelta, bind_eq_ok]
  constructor
  · rintro ⟨gp, hg, h⟩
    exact ⟨gp, hg, (Except.ok.inj h).symm⟩
  · rintro ⟨gp, hg, rfl⟩
    exact ⟨gp, hg, rfl⟩

/-- A merge and its halves in sequence agree when their token changes and gas do. -/
theorem agree_of_assets (h : mergeDelta a b = .ok m)
    (ha : (applyAssets s m).toOption = (applyAssets s a >>= (applyAssets · b)).toOption) :
    (applyDelta codec s m).toOption =
      (applyDelta codec s a >>= (applyDelta codec · b)).toOption := by
  obtain ⟨gp, -, rfl⟩ := mergeDelta_eq_ok.1 h
  refine toOption_congr fun s' => ?_
  rw [applyDelta_eq_ok, applyDelta_applyDelta_eq_ok]
  simp only [← toOption_eq_some (x := applyAssets s _), ha]
  simp only [toOption_eq_some]

theorem seq_keeps (h : (applyAssets s a >>= (applyAssets · b)) = .ok t) :
    t = t.withRest s.positions s.pending := by
  obtain ⟨u, hu, ht⟩ := bind_eq_ok.1 h
  have hpo := congrArg WalletState.positions (applyAssets_keeps hu)
  have hp := congrArg WalletState.pending (applyAssets_keeps hu)
  have hk := applyAssets_keeps ht
  rwa [hpo, hp] at hk

/-- Where positions and pending signatures apply, the token changes and gas decide. -/
theorem assets_of_agree {u : WalletState}
    (h : mergeDelta a b = .ok m)
    (hf : (applyDelta codec s a.gasFree >>= (applyDelta codec · b.gasFree)) = .ok u)
    (hag : (applyDelta codec s m).toOption =
      (applyDelta codec s a >>= (applyDelta codec · b)).toOption) :
    (applyAssets s m).toOption = (applyAssets s a >>= (applyAssets · b)).toOption := by
  obtain ⟨gp, -, rfl⟩ := mergeDelta_eq_ok.1 h
  obtain ⟨_, ps, qs, -, hp, hq, -⟩ := applyDelta_applyDelta_eq_ok.1 hf
  -- The rest of the wallet is known, so each side determines its assets.
  have hs : ∀ {t t' : WalletState}, t = t.withRest s.positions s.pending →
      t' = t'.withRest s.positions s.pending → t.withRest ps qs = t'.withRest ps qs → t = t' := by
    intro t t' ht ht' heq
    rw [ht, ht']
    exact congrArg (·.withRest s.positions s.pending) heq
  refine toOption_congr fun t => ⟨fun ht => ?_, fun ht => ?_⟩
  · have ha := toOption_eq_some.2 (applyDelta_eq_ok.2 ⟨t, ps, qs, ht, hp, hq, rfl⟩)
    rw [hag, toOption_eq_some, applyDelta_applyDelta_eq_ok] at ha
    obtain ⟨t', ps', qs', ht', hp', hq', heq⟩ := ha
    cases hp.symm.trans hp'
    cases hq.symm.trans hq'
    rwa [hs (applyAssets_keeps ht) (seq_keeps ht') heq]
  · have ha := toOption_eq_some.2
      (applyDelta_applyDelta_eq_ok.2 ⟨t, ps, qs, ht, hp, hq, rfl⟩)
    rw [← hag, toOption_eq_some, applyDelta_eq_ok] at ha
    obtain ⟨t', ps', qs', ht', hp', hq', heq⟩ := ha
    cases hp.symm.trans hp'
    cases hq.symm.trans hq'
    rwa [hs (seq_keeps ht) (applyAssets_keeps ht') heq]

/-! ## The gas of the first delta -/

theorem assets_of_no_gas (h : mergeDelta a b = .ok m) (hg : a.gasPaid = none) :
    applyAssets s m = (applyAssets s a >>= (applyAssets · b)) := by
  obtain ⟨gp, hm, rfl⟩ := mergeDelta_eq_ok.1 h
  rw [hg] at hm
  cases hm
  simp only [applyAssets, List.foldlM_append, hg, applyGas]
  cases a.tokenChanges.foldlM applyTokenChange s <;> rfl

theorem mergeGas_eq_ok {gp : Option (TokenRef × U256)} (hg : a.gasPaid = some (token, first))
    (hm : mergeGas a.gasPaid b.gasPaid = .ok gp) :
    gp = some (token, first.saturatingAdd b.gasAmount) ∧
      ∀ token' amo, b.gasPaid = some (token', amo) → token.key = token'.key := by
  rw [hg] at hm
  unfold StateDelta.gasAmount
  cases hb : b.gasPaid with
  | none =>
    rw [hb] at hm
    cases hm
    exact ⟨by rw [map_none, getD_none, saturatingAdd_zero], nofun⟩
  | some gas =>
    rw [hb] at hm
    simp only [mergeGas, ensure, bind_eq_ok, require_eq_ok] at hm
    obtain ⟨_, hk, hm⟩ := hm
    cases hm
    refine ⟨rfl, ?_⟩
    rintro token' amo heq
    cases heq
    exact hk

theorem applyGas_second {z : U256} (hz : t.balanceOf token.key = some (.fungible z))
    (hk : ∀ token' amo, b.gasPaid = some (token', amo) → token.key = token'.key) :
    applyGas t b.gasPaid = .ok s' ↔
      ∃ v, z.checkedSub b.gasAmount = some v ∧ s' = t.setBalance token.key v := by
  unfold StateDelta.gasAmount
  cases hb : b.gasPaid with
  | none =>
    simp only [applyGas, map_none, getD_none, checkedSub_zero,
      some.injEq, exists_eq_left', setBalance_self hz, Except.ok.injEq]
    exact eq_comm
  | some gas =>
    have hs := hk gas.1 gas.2 hb
    rw [hs] at hz ⊢
    simp only [applyGas, applyGasPaid_eq_ok, hz, some.injEq, Balance.fungible.injEq,
      map_some, getD_some]
    constructor
    · rintro ⟨_, v, rfl, hv, rfl⟩
      exact ⟨v, hv, rfl⟩
    · rintro ⟨v, hv, rfl⟩
      exact ⟨z, v, rfl, hv, rfl⟩

variable {t₂ t₁ : WalletState}

/-- Where the token changes of both deltas apply and the gas token is held in between, both
orders of charging act on its balance alone. -/
theorem assets_agree_iff {x : U256}
    (h : mergeDelta a b = .ok m) (hg : a.gasPaid = some (token, first))
    (ht₁ : a.tokenChanges.foldlM applyTokenChange s = .ok t₁)
    (ht₂ : b.tokenChanges.foldlM applyTokenChange t₁ = .ok t₂)
    (hx : t₁.balanceOf token.key = some (.fungible x)) :
    (applyAssets s m).toOption = (applyAssets s a >>= (applyAssets · b)).toOption ↔
      InOrder x.val (values (deltasOf token.key b.tokenChanges)) first b.gasAmount := by
  obtain ⟨gp, hm, rfl⟩ := mergeDelta_eq_ok.1 h
  obtain ⟨rfl, hk⟩ := mergeGas_eq_ok hg hm
  obtain ⟨u, y, hu, hy, rfl⟩ := (foldlM_split hx).1 ht₂
  have hux := balanceOf_othersOf hu hx
  have hla : (applyAssets s ⟨a.tokenChanges ++ b.tokenChanges,
      a.positionChanges ++ b.positionChanges, a.pendingChanges ++ b.pendingChanges,
      some (token, first.saturatingAdd b.gasAmount)⟩).toOption =
      (y.checkedSub (first.saturatingAdd b.gasAmount)).map (u.setBalance token.key) := by
    refine ext fun s' => ?_
    simp only [toOption_eq_some, applyAssets, List.foldlM_append, ht₁, ok_bind, ht₂, applyGas,
      applyGasPaid_eq_ok, balanceOf_setBalance hux, some.injEq,
      Balance.fungible.injEq, setBalance_setBalance, map_eq_some_iff]
    constructor
    · rintro ⟨_, v, rfl, hv, rfl⟩
      exact ⟨v, hv, rfl⟩
    · rintro ⟨v, hv, rfl⟩
      exact ⟨y, v, rfl, hv, rfl⟩
  have he : (applyAssets s a >>= (applyAssets · b)).toOption =
      (((x.checkedSub first).bind (ledger · (deltasOf token.key b.tokenChanges))).bind
        (·.checkedSub b.gasAmount)).map (u.setBalance token.key) := by
    refine ext fun s' => ?_
    simp only [toOption_eq_some, applyAssets, ht₁, ok_bind, hg, applyGas, bind_eq_ok,
      applyGasPaid_eq_ok, hx, some.injEq, Balance.fungible.injEq, map_eq_some_iff,
      bind_eq_some_iff]
    constructor
    · rintro ⟨_, ⟨_, left, rfl, hl, rfl⟩, t, ht, hs'⟩
      obtain ⟨v, z, hv, hz, rfl⟩ := (foldlM_split (balanceOf_setBalance hx)).1 ht
      rw [foldlM_othersOf_setBalance hx, hu] at hv
      cases hv
      have hb := balanceOf_setBalance (x := z)
        (balanceOf_setBalance (x := left) hux)
      obtain ⟨v, hv, rfl⟩ := (applyGas_second hb hk).1 hs'
      simp only [setBalance_setBalance]
      exact ⟨v, ⟨z, ⟨left, hl, hz⟩, hv⟩, rfl⟩
    · rintro ⟨v, ⟨z, ⟨left, hl, hz⟩, hv⟩, rfl⟩
      have ho : (othersOf token.key b.tokenChanges).foldlM applyTokenChange
          (t₁.setBalance token.key left) = _ := foldlM_othersOf_setBalance hx
      rw [hu] at ho
      refine ⟨_, ⟨x, left, rfl, hl, rfl⟩, (u.setBalance token.key z), ?_, ?_⟩
      · refine (foldlM_split (balanceOf_setBalance hx)).2
          ⟨_, z, ho, hz, setBalance_setBalance.symm⟩
      · refine (applyGas_second (balanceOf_setBalance hux) hk).2 ⟨v, hv, ?_⟩
        exact setBalance_setBalance.symm
  have hi : Function.Injective (u.setBalance token.key) := by
    intro v v' heq
    have hb := congrArg (·.balanceOf token.key) heq
    simp only [balanceOf_setBalance hux, some.injEq,
      Balance.fungible.injEq] at hb
    exact hb
  rw [hla, he, (map_injective hi).eq_iff]
  exact inOrder_iff hy

/-! ## Merges -/

theorem gasFree_eq_ok :
    (applyDelta codec s a.gasFree >>= (applyDelta codec · b.gasFree)) = .ok s' ↔ ∃ t₁ t₂ ps qs,
      a.tokenChanges.foldlM applyTokenChange s = .ok t₁ ∧
        b.tokenChanges.foldlM applyTokenChange t₁ = .ok t₂ ∧
        (a.positionChanges ++ b.positionChanges).foldlM (changePositions codec) s.positions =
          .ok ps ∧
        (a.pendingChanges ++ b.pendingChanges).foldlM changePending s.pending = .ok qs ∧
        s' = t₂.withRest ps qs := by
  have ha : ∀ (s : WalletState) (d : StateDelta),
      applyAssets s d.gasFree = d.tokenChanges.foldlM applyTokenChange s := by
    intro s d
    simp only [applyAssets, StateDelta.gasFree, applyGas]
    cases d.tokenChanges.foldlM applyTokenChange s <;> rfl
  rw [applyDelta_applyDelta_eq_ok]
  simp only [ha, bind_eq_ok]
  constructor
  · rintro ⟨t₂, ps, qs, ⟨t₁, ht₁, ht₂⟩, hp, hq, rfl⟩
    exact ⟨t₁, t₂, ps, qs, ht₁, ht₂, hp, hq, rfl⟩
  · rintro ⟨t₁, t₂, ps, qs, ht₁, ht₂, hp, hq, rfl⟩
    exact ⟨t₂, ps, qs, ⟨t₁, ht₁, ht₂⟩, hp, hq, rfl⟩

theorem gasFree_of_merge (h : mergeDelta a b = .ok m) (hs' : applyDelta codec s m = .ok s') :
    ∃ u, (applyDelta codec s a.gasFree >>= (applyDelta codec · b.gasFree)) = .ok u := by
  obtain ⟨gp, -, rfl⟩ := mergeDelta_eq_ok.1 h
  obtain ⟨t, ps, qs, ht, hp, hq, -⟩ := applyDelta_eq_ok.1 hs'
  simp only [applyAssets, List.foldlM_append, bind_eq_ok] at ht
  obtain ⟨t₂, ⟨t₁, ht₁, ht₂⟩, -⟩ := ht
  exact ⟨_, gasFree_eq_ok.2 ⟨t₁, t₂, ps, qs, ht₁, ht₂, hp, hq, rfl⟩⟩

/-- Two deltas that apply one after the other do so without their gas: what covers the changes
after a charge covers them before it. -/
theorem gasFree_of_seq (hs' : (applyDelta codec s a >>= (applyDelta codec · b)) = .ok s') :
    ∃ u, (applyDelta codec s a.gasFree >>= (applyDelta codec · b.gasFree)) = .ok u := by
  obtain ⟨t, ps, qs, ht, hp, hq, -⟩ := applyDelta_applyDelta_eq_ok.1 hs'
  simp only [applyAssets, bind_eq_ok] at ht
  obtain ⟨t', ⟨t₁, ht₁, hg⟩, t₂, ht₂, -⟩ := ht
  suffices hb : ∃ t₂, b.tokenChanges.foldlM applyTokenChange t₁ = .ok t₂ by
    obtain ⟨t₂, ht₂⟩ := hb
    exact ⟨_, gasFree_eq_ok.2 ⟨t₁, t₂, ps, qs, ht₁, ht₂, hp, hq, rfl⟩⟩
  cases ha : a.gasPaid with
  | none =>
    rw [ha] at hg
    cases hg
    exact ⟨t₂, ht₂⟩
  | some gas =>
    rw [ha] at hg
    obtain ⟨x, left, hx, hl, rfl⟩ := applyGasPaid_eq_ok.1 hg
    obtain ⟨u, z, hu, hz, -⟩ := (foldlM_split (balanceOf_setBalance hx)).1 ht₂
    rw [foldlM_othersOf_setBalance hx] at hu
    obtain ⟨v, hv, -⟩ := map_eq_ok.1 hu
    have hle := (checkedSub_eq_some.1 hl).2
    obtain ⟨y, hy⟩ := ledger_isSome_of_sub (x := x) (by omega) hz
    exact ⟨_, (foldlM_split hx).2 ⟨v, y, hv, hy, rfl⟩⟩

/-- Where the gas token cannot be charged after the first delta, the deltas in sequence fail, and
the merge agrees when it cannot be charged after the second either. -/
theorem assets_agree_iff_of_unheld (h : mergeDelta a b = .ok m)
    (hg : a.gasPaid = some (token, first)) (ht₁ : a.tokenChanges.foldlM applyTokenChange s = .ok t₁)
    (ht₂ : b.tokenChanges.foldlM applyTokenChange t₁ = .ok t₂)
    (hn : ∀ x, t₁.balanceOf token.key ≠ some (.fungible x)) :
    (applyAssets s m).toOption = (applyAssets s a >>= (applyAssets · b)).toOption ↔
      ∀ y, t₂.balanceOf token.key = some (.fungible y) →
        y.val < (first.saturatingAdd b.gasAmount).val := by
  obtain ⟨gp, hm, rfl⟩ := mergeDelta_eq_ok.1 h
  obtain ⟨rfl, -⟩ := mergeGas_eq_ok hg hm
  have hs : (applyAssets s a >>= (applyAssets · b)).toOption = none := by
    refine eq_none_iff_forall_ne_some.2 fun t ht => ?_
    simp only [toOption_eq_some, applyAssets, ht₁, ok_bind, hg, applyGas, bind_eq_ok] at ht
    obtain ⟨t', ht', -⟩ := ht
    obtain ⟨x, -, hx, -⟩ := applyGasPaid_eq_ok.1 ht'
    exact hn x hx
  rw [hs, eq_none_iff_forall_ne_some]
  simp only [ne_eq, toOption_eq_some, applyAssets, List.foldlM_append, ht₁, ht₂, ok_bind, applyGas]
  constructor
  · intro hf y hy
    by_contra hle
    obtain ⟨v, hv, -⟩ := exists_checkedSub (Nat.le_of_not_lt hle)
    exact hf _ (applyGasPaid_eq_ok.2 ⟨y, v, hy, hv, rfl⟩)
  · intro hsh t ht
    obtain ⟨y, v, hy, hv, -⟩ := applyGasPaid_eq_ok.1 ht
    have := (checkedSub_eq_some.1 hv).1
    have := hsh y hy
    omega

/-- Applying a merge does what applying its halves one after the other does, exactly when the
gas of the first half may as well be charged after the changes of the second. -/
theorem applyDelta_mergeDelta (h : mergeDelta a b = .ok m) :
    (applyDelta codec s m).toOption = (applyDelta codec s a >>= (applyDelta codec · b)).toOption ↔
      GasInOrder codec s a b := by
  constructor
  · intro hag token first hg hf
    obtain ⟨u, hf⟩ := hf
    have ha := assets_of_agree h hf hag
    obtain ⟨t₁, t₂, _, _, ht₁, ht₂, -⟩ := gasFree_eq_ok.1 hf
    constructor
    · intro x ho
      obtain ⟨y, hy, hb⟩ := balanceOf_of_opens ht₁ ho
      obtain ⟨-, -, hfi⟩ := ledger_eq_some_finish.1 hy
      rw [← hfi]
      exact (assets_agree_iff h hg ht₁ ht₂ hb).1 ha
    · intro hn hm hm'
      have hn₁ := balanceOf_of_not_mints ht₁ hn hm
      obtain ⟨y, hy, hb⟩ := balanceOf_of_opens ht₂ (.inr ⟨hn₁, hm', rfl⟩)
      have hsh := (assets_agree_iff_of_unheld h hg ht₁ ht₂ (by simp [hn₁])).1 ha y
        hb
      have hl := coversLate_iff first b.gasAmount hy
      rw [val_zero] at hl
      exact fun hc => absurd (hl.1 hc) (by omega)
  · intro hor
    cases hg : a.gasPaid with
    | none => exact agree_of_assets h (congrArg _ (assets_of_no_gas h hg))
    | some gas =>
      obtain ⟨token, first⟩ := gas
      by_cases hf : ∃ u, (applyDelta codec s a.gasFree >>= (applyDelta codec · b.gasFree)) = .ok u
      · obtain ⟨hon, hmn⟩ := hor token first hg hf
        obtain ⟨u, hf⟩ := hf
        obtain ⟨t₁, t₂, _, _, ht₁, ht₂, -⟩ := gasFree_eq_ok.1 hf
        refine agree_of_assets h ?_
        -- The gas token after the first delta: opened with an amount, not fungible, or missing.
        by_cases ho : ∃ x, Opens s token.key a.tokenChanges x
        · obtain ⟨x, ho⟩ := ho
          obtain ⟨y, hy, hb⟩ := balanceOf_of_opens ht₁ ho
          obtain ⟨-, -, hfi⟩ := ledger_eq_some_finish.1 hy
          refine (assets_agree_iff h hg ht₁ ht₂ hb).2 ?_
          rw [hfi]
          exact hon x ho
        · cases hb : s.balanceOf token.key with
          | some balance =>
            cases balance with
            | fungible x => exact absurd ⟨x, .inl hb⟩ ho
            | owned =>
              have how := balanceOf_of_owned ht₁ hb
              refine (assets_agree_iff_of_unheld h hg ht₁ ht₂ (by simp [how])).2 fun y hy => ?_
              cases (balanceOf_of_owned ht₂ how).symm.trans hy
          | none =>
            have hm : ¬ Mints token.key a.tokenChanges := fun hm =>
              ho ⟨0, .inr ⟨hb, hm, rfl⟩⟩
            have hn := balanceOf_of_not_mints ht₁ hb hm
            refine (assets_agree_iff_of_unheld h hg ht₁ ht₂ (by simp [hn])).2 fun y hy => ?_
            by_cases hm' : Mints token.key b.tokenChanges
            · obtain ⟨z, hz, hb'⟩ := balanceOf_of_opens ht₂ (.inr ⟨hn, hm', rfl⟩)
              cases hb'.symm.trans hy
              have hsh := hmn hb hm hm'
              have hl := coversLate_iff first b.gasAmount hz
              rw [val_zero] at hl
              exact Nat.lt_of_not_le fun hle => hsh (hl.2 hle)
            · cases (balanceOf_of_not_mints ht₂ hn hm').symm.trans hy
      · refine toOption_congr fun s' => ⟨fun hs' => ?_, fun hs' => ?_⟩
        · exact absurd (gasFree_of_merge h hs') hf
        · exact absurd (gasFree_of_seq hs') hf

end Deltas

/-! ## A charge that only the merge can pay -/

/-- Pays more gas than a wallet of five holds. -/
def paysGas : StateDelta := { StateDelta.new with gasPaid := some (⟨ether⟩, 10) }

/-- Credits the gas token. -/
def topsUp : StateDelta := { StateDelta.new with tokenChanges := [.balanceDelta ether (.clamp 10)] }

/-- A delta that pays gas it can only afford after the next one has credited the gas token. -/
def paysThenTopsUp : StateDelta :=
  { StateDelta.new with
    tokenChanges := [.balanceDelta ether (.clamp 10)]
    gasPaid := some (⟨ether⟩, 10) }

theorem mergeDelta_hides_unpaid_gas : mergeDelta paysGas topsUp = .ok paysThenTopsUp ∧
    (applyDelta .numbered (walletHolding ether 5) paysThenTopsUp).toOption.isSome = true ∧
    (applyDelta .numbered (walletHolding ether 5) paysGas >>=
      (applyDelta .numbered · topsUp)).toOption = none :=
  ⟨rfl, rfl, rfl⟩

theorem applyDelta_mergeDelta_paysGas : mergeDelta paysGas topsUp = .ok paysThenTopsUp ∧
    ((applyDelta .numbered (walletHolding ether 20) paysThenTopsUp).toOption =
      (applyDelta .numbered (walletHolding ether 20) paysGas >>=
        (applyDelta .numbered · topsUp)).toOption ↔
      GasInOrder .numbered (walletHolding ether 20) paysGas topsUp) :=
  ⟨rfl, applyDelta_mergeDelta rfl⟩

end Dambi.Asset
