import Dambi.Asset.Moves

/-!
# The ledger of perp collateral

What opening, increasing, margin changes and closing of one on-chain position do to
the collateral in it and to the wallet, over whole sequences of such actions.
Closing returns the first entry of the collateral list only.
-/

namespace Dambi.Asset

open FixedWidth Fallible List

/-! ## Collateral of a position -/

variable (s : WalletState) (pid : PositionId)

def perpCollateral : List (TokenRef × U256) :=
  match (s.positionOf pid).map Position.kind with
  | some (.perpPosition perp) => perp.collateral
  | _ => []

def lockedIn (collateral : List (TokenRef × U256)) (key : TokenKey) : Nat :=
  entrySum Prod.fst Prod.snd key collateral

/-- What the wallet holds of a token together with what is locked of it in the position. -/
def perpTotal (key : TokenKey) : Nat :=
  s.held key + lockedIn (perpCollateral s pid) key

/-- The actions on one on-chain position. -/
inductive PerpStep where
  | opening (a : OpenPerpAction)
  | increase (a : IncreasePerpAction)
  | adjustMargin (a : AdjustMarginAction)
  | closing (a : ClosePerpAction)

namespace PerpStep

/-- The action is about the position, its venue is no order book, and closing has no result, fee
or funding. -/
def On : PerpStep → Prop
  | opening a => synthPositionId a.venue a.market.symbol a.side = pid ∧ a.venue.isOrderbook = false
  | increase a => a.positionId = pid
  | adjustMargin a => a.positionId = some pid
  | closing a => a.positionId = pid ∧ a.liveInputs.unrealizedPnlNow.value = 0 ∧
      a.liveInputs.fundingAccrued.value = 0 ∧ a.liveInputs.feeBp.value = 0

section Run

variable {D : Type} (kit : DecimalKit D) (codec : PositionCodec) (state : WalletState)

def reduce (ctx : EvalContext) : PerpStep → ReducerResult StateDelta
  | opening a => a.apply kit state ctx
  | increase a => a.apply kit codec state
  | adjustMargin a => a.apply kit codec state
  | closing a => a.apply kit state

/-- A step reduced against a wallet and applied to it. -/
def run (step : EvalContext × PerpStep) : ReducerResult WalletState := do
  applyDelta codec state (← step.2.reduce kit codec state step.1)

end Run

/-- Closing leaves nothing behind: every entry of the collateral after the first is empty. -/
def ReturnsAll : PerpStep → Prop
  | closing _ => ∀ entry ∈ (perpCollateral s pid).tail, entry.2 = 0
  | _ => True

end PerpStep

/-- A fee of zero basis points is zero in decimals. -/
def ZeroFee {D : Type} (kit : DecimalKit D) : Prop :=
  ∀ value fee, basisPoints kit value 0 = .ok fee → kit.parseI256Dec (truncText kit fee) = .ok 0

/-! ## What a step does -/

/-- What a step does to the collateral of the position: the token and amount that the wallet pays
for it, and the entries before and after. -/
inductive CollateralChange : TokenKey → Int → List (TokenRef × U256) → List (TokenRef × U256) → Prop
  | opened (token : TokenRef) (amount : U256) :
      CollateralChange token.key amount.val [] [(token, amount)]
  | kept (key : TokenKey) (collateral : List (TokenRef × U256)) :
      CollateralChange key 0 collateral collateral
  | added (token : TokenRef) (amount : U256) (collateral : List (TokenRef × U256)) :
      CollateralChange token.key amount.val collateral
        (withExtraCollateral (some (token, amount)) collateral)
  | deposited (token : TokenRef) (locked amount : U256) (rest : List (TokenRef × U256)) :
      CollateralChange token.key amount.val ((token, locked) :: rest)
        ((token, locked.saturatingAdd amount) :: rest)
  | withdrawn (token : TokenRef) {locked amount left : U256} (rest : List (TokenRef × U256))
      (hleft : locked.checkedSub amount = some left) :
      CollateralChange token.key (-amount.val) ((token, locked) :: rest) ((token, left) :: rest)

section Lemmas

variable {D : Type} {kit : DecimalKit D} {codec : PositionCodec} {s s' : WalletState}
  {pid : PositionId} {key : TokenKey}

variable {position : Position} {perp : PerpPosition}

theorem perpCollateral_of_some
    (h : s.positionOf pid = some position) (hk : position.kind = .perpPosition perp) :
    perpCollateral s pid = perp.collateral := by
  simp [perpCollateral, h, hk]

theorem perpCollateral_of_none (h : s.positionOf pid = none) : perpCollateral s pid = [] := by
  simp [perpCollateral, h]

theorem perpOf_eq_ok {a : String} :
    perpOf a pid position = .ok perp ↔ position.kind = .perpPosition perp := by
  unfold perpOf
  split <;> simp_all [broken, fail]

theorem perpCollateral_update {change : PerpPosition → PerpPosition}
    (h : s.positionOf pid = some position)
    (hk : position.kind = .perpPosition perp) (hp : changePositions codec s.positions
      (.update pid (snapshotPatch codec (mutatePerp change position))) = .ok s'.positions) :
    perpCollateral s' pid = (change perp).collateral :=
  perpCollateral_of_some (find_update ((mutatePerp_id _ _).trans (id_of_positionOf h)) hp)
    (by simp only [mutatePerp, hk])

theorem lockedIn_cons (t : TokenRef) (a : U256) (r : List (TokenRef × U256)) :
    lockedIn ((t, a) :: r) key =
      (if t.key = key then a.val else 0) + lockedIn r key := by
  simp [lockedIn, entrySum]

@[simp] theorem lockedIn_nil : lockedIn [] key = 0 := rfl

theorem lockedIn_eq_zero {c : List (TokenRef × U256)} :
    (∀ key, lockedIn c key = 0) ↔ ∀ entry ∈ c, entry.2 = 0 := by
  constructor
  · intro h entry he
    have hl : entry.2.val ≤ lockedIn c entry.1.key := le_entrySum _ _ he
    rw [h] at hl
    exact Unsigned.ext (by simpa using hl)
  · intro h key
    induction c with
    | nil => rfl
    | cons x r ih =>
      have hx : x.2.val = 0 := by rw [h x mem_cons_self, Unsigned.val_zero]
      rw [lockedIn_cons, hx, ih fun entry he => h entry (mem_cons_of_mem _ he)]
      simp

theorem val_saturatingAdd_of_lt {a b : U256} (h : (a.val : Int) + b.val ≤ ceiling) :
    (a.saturatingAdd b).val = a.val + b.val := by
  rw [Unsigned.val_saturatingAdd]
  rw [ceiling_eq] at h
  omega

/-- What the wallet pays is locked, unless an entry is too large to hold it. -/
theorem CollateralChange.locked {p : Int} {b after : List (TokenRef × U256)}
    (h : CollateralChange key p b after) (hf : (lockedIn b key : Int) + p ≤ ceiling) (k : TokenKey)
    : (lockedIn after k : Int) = lockedIn b k + if key = k then p else 0 := by
  cases h with
  | opened token a =>
    rw [lockedIn_cons, lockedIn_nil]
    split <;> simp
  | kept => simp
  | added token a =>
    have hs : lockedIn (withExtraCollateral (some (token, a)) b) k =
        lockedIn b k + if token.key = k then a.val else 0 := by
      refine sum_mergeFirst (fun x hx hp => ?_) rfl
      have hx1 : x.1 = token := of_decide_eq_true hp
      have hl : x.2.val ≤ lockedIn b x.1.key := le_entrySum _ _ hx
      rw [hx1] at hl
      change (if x.1.key = k then (x.2.saturatingAdd a).val else 0) =
        (if x.1.key = k then x.2.val else 0) + _
      rw [val_saturatingAdd_of_lt (by omega), hx1]
      split <;> omega
    rw [hs]
    split <;> omega
  | deposited token locked a r =>
    rw [lockedIn_cons, if_pos rfl] at hf
    rw [lockedIn_cons, lockedIn_cons, val_saturatingAdd_of_lt (by omega)]
    split <;> omega
  | withdrawn token r hlf =>
    obtain ⟨hl, hlf⟩ := Unsigned.checkedSub_eq_some.1 hlf
    rw [lockedIn_cons, lockedIn_cons]
    split <;> omega

/-! ### Each action -/

section Actions

variable {d : StateDelta} {ctx : EvalContext}

def Pays (s s' : WalletState) (pid : PositionId) : Prop :=
  ∃ key paid, Moved s s' key (-paid) ∧
    CollateralChange key paid (perpCollateral s pid) (perpCollateral s' pid)

theorem OpenPerpAction.pays {a : OpenPerpAction} (hv : a.venue.isOrderbook = false)
    (hf : ∀ key, (s.held key : Int) < ceiling) (hd : a.apply kit s ctx = .ok d)
    (h : applyDelta codec s d = .ok s') :
    Pays s s' (synthPositionId a.venue a.market.symbol a.side) := by
  simp only [OpenPerpAction.apply, bind_eq_ok, hv, debitMargin, Bool.false_eq_true, if_false] at hd
  obtain ⟨_, -, _, -, sb, -, _, -, lp, -, d₁, hde, _, -, n, -, ho⟩ := hd
  obtain ⟨hp, hg⟩ := debit_keeps hde
  obtain ⟨hn, rfl⟩ := openPosition_eq_ok hp ho
  obtain ⟨hm, hps⟩ := applyDelta_debit h rfl hde rfl
    (pushPosition_of_nil hp _) hg (hf _)
  refine ⟨a.collateral.1.key, a.collateral.2.val, hm, ?_⟩
  have hb := perpCollateral_of_none hn
  have ha := perpCollateral_of_some (find_opened hn hps) rfl
  rw [show synthPositionId a.venue a.market.symbol a.side =
    (newPerpPosition ctx a sb n lp).id from rfl, hb, ha]
  exact .opened _ _

theorem IncreasePerpAction.pays {a : IncreasePerpAction}
    (hft : ∀ key, (s.held key : Int) < ceiling) (hd : a.apply kit codec s = .ok d)
    (h : applyDelta codec s d = .ok s') : Pays s s' a.positionId := by
  simp only [IncreasePerpAction.apply, bind_eq_ok] at hd
  obtain ⟨_, -, position, hf, perp, hpe, i, -, d₁, hde, n, -, hu⟩ := hd
  rw [findPosition_eq_ok] at hf
  rw [perpOf_eq_ok] at hpe
  have hb := perpCollateral_of_some hf hpe
  cases he : a.addCollateral with
  | none =>
    rw [he] at hde hu
    cases hde
    obtain ⟨_, hp, -, rfl⟩ := upsertPosition_eq_ok rfl hu
    cases hp.symm.trans hf
    obtain ⟨hm, hps⟩ := applyDelta_position ether rfl rfl rfl h
    refine ⟨ether, 0, by simpa using hm, ?_⟩
    rw [hb, perpCollateral_update hf hpe hps]
    exact .kept _ _
  | some e =>
    rw [he] at hde hu
    obtain ⟨hpo, hg⟩ := debit_keeps hde
    obtain ⟨_, hp, -, rfl⟩ := upsertPosition_eq_ok hpo hu
    cases hp.symm.trans hf
    obtain ⟨hm, hps⟩ := applyDelta_debit h rfl hde rfl
      (pushPosition_of_nil hpo _) hg (hft _)
    refine ⟨e.1.key, e.2.val, hm, ?_⟩
    rw [hb, perpCollateral_update hf hpe hps]
    exact .added _ _ _

theorem firstCollateral_eq_ok {a : String} {entry : TokenRef × U256}
    (h : firstCollateral a pid perp = .ok entry) :
    ∃ rest, perp.collateral = entry :: rest :=
  head?_eq_some_iff.1 (orFail_eq_ok.1 h)

theorem AdjustMarginAction.pays {a : AdjustMarginAction} (hpi : a.positionId = some pid)
    (hft : ∀ key, (perpTotal s pid key : Int) < ceiling) (hd : a.apply kit codec s = .ok d)
    (h : applyDelta codec s d = .ok s') : Pays s s' pid := by
  simp only [AdjustMarginAction.apply, bind_eq_ok, hpi] at hd
  obtain ⟨fa, -, _, hs, position, hf, perp, hpe, ⟨t, locked⟩, hfi, amo, -, ⟨d₁, left⟩, hm, hu⟩ := hd
  cases Option.some.inj (orFail_eq_ok.1 hs)
  rw [findPosition_eq_ok] at hf
  rw [perpOf_eq_ok] at hpe
  obtain ⟨rest, hc⟩ := firstCollateral_eq_ok hfi
  have hb := (perpCollateral_of_some hf hpe).trans hc
  have hft := hft t.key
  rw [perpTotal, hb, lockedIn_cons, if_pos rfl] at hft
  have ha : ∀ {pc}, changePositions codec s.positions pc = .ok s'.positions →
      pc = .update pid (snapshotPatch codec (mutatePerp (fun pp =>
        { pp with collateral := setFirstAmount left pp.collateral }) position)) →
      perpCollateral s' pid = (t, left) :: rest := by
    rintro _ hps rfl
    rw [perpCollateral_update hf hpe hps, hc]
    rfl
  unfold moveMargin at hm
  split at hm
  · -- A deposit.
    obtain ⟨_, hde, hm⟩ := bind_eq_ok.1 hm
    cases hm
    obtain ⟨hpo, hg⟩ := debit_keeps hde
    obtain ⟨_, hp, -, rfl⟩ := upsertPosition_eq_ok hpo hu
    cases hp.symm.trans hf
    obtain ⟨hmo, hps⟩ := applyDelta_debit h rfl hde rfl
      (pushPosition_of_nil hpo _) hg (by dsimp only; omega)
    refine ⟨t.key, amo.val, hmo, ?_⟩
    rw [hb, ha hps rfl]
    exact .deposited _ _ _ _
  · split at hm
    · simp only [bind_eq_ok] at hm
      obtain ⟨_, -, left', hl, _, hcr, hm⟩ := hm
      cases hm
      have hl := orFail_eq_ok.1 hl
      have hle := (Unsigned.checkedSub_eq_some.1 hl).1
      obtain ⟨hpo, hg⟩ := credit_keeps hcr
      obtain ⟨_, hp, -, rfl⟩ := upsertPosition_eq_ok hpo hu
      cases hp.symm.trans hf
      obtain ⟨hmo, hps⟩ := applyDelta_credit h rfl hcr rfl
        (pushPosition_of_nil hpo _) hg (by omega)
      refine ⟨t.key, -amo.val, by rwa [Int.neg_neg], ?_⟩
      rw [hb, ha hps rfl]
      exact .withdrawn _ _ hl
    · cases hm

/-- Closing without a result pays the first entry out and forgets the others. -/
theorem ClosePerpAction.effect {a : ClosePerpAction}
    (hf : ZeroFee kit) (ho : PerpStep.On pid (.closing a))
    (hft : ∀ key, (perpTotal s pid key : Int) < ceiling) (hd : a.apply kit s = .ok d)
    (h : applyDelta codec s d = .ok s') :
    ∃ t locked r, perpCollateral s pid = (t, locked) :: r ∧
      Moved s s' t.key locked.val ∧ perpCollateral s' pid = [] := by
  obtain ⟨rfl, hp, hfu, hbp⟩ := ho
  simp only [ClosePerpAction.apply, bind_eq_ok] at hd
  obtain ⟨_, -, position, hfn, perp, hpe, c, hc, ⟨t, locked⟩, hfi, d₁, hcr, d₂, hs, hd⟩ := hd
  rw [findPosition_eq_ok] at hfn
  rw [perpOf_eq_ok] at hpe
  obtain ⟨r, hco⟩ := firstCollateral_eq_ok hfi
  have hb := (perpCollateral_of_some hfn hpe).trans hco
  have hz : c = 0 := by
    simp only [closingCash, bind_eq_ok, hp, hfu, hbp] at hc
    obtain ⟨_, -, fee, hfo, fs, hsi, net, hn, hc⟩ := hc
    have hfz := (described_eq_ok.1 hsi).symm.trans (hf _ _ hfo)
    cases hfz
    have hz : (0 : I256).checkedSub 0 = some 0 ∧ (0 : I256).checkedAdd 0 = some 0 := by
      decide +kernel
    cases hz.1.symm.trans (orFail_eq_ok.1 hn)
    exact Option.some.inj ((orFail_eq_ok.1 hc).symm.trans hz.2)
  subst hz
  have hst : d₁ = d₂ := Except.ok.inj hs
  subst hst
  cases hd
  obtain ⟨hpo, hg⟩ := credit_keeps hcr
  have hft := hft t.key
  rw [perpTotal, hb, lockedIn_cons, if_pos rfl] at hft
  obtain ⟨hm, hps⟩ := applyDelta_credit h rfl hcr rfl
    (pushPosition_of_nil hpo _) hg (by dsimp only; omega)
  exact ⟨t, locked, r, hb, hm, perpCollateral_of_none (find_close hps)⟩

end Actions

/-! ### Totals -/

theorem Pays.perpTotal_eq (hf : ∀ key, (perpTotal s pid key : Int) < ceiling)
    (h : Pays s s' pid) (k : TokenKey) : perpTotal s' pid k = perpTotal s pid k := by
  obtain ⟨key, p, hm, hc⟩ := h
  have ho := hm.own
  have hf := hf key
  rw [perpTotal] at hf
  have hl := hc.locked (by omega) k
  have hh := hm.eq k
  rw [perpTotal, perpTotal]
  by_cases hk : key = k
  · rw [if_pos hk] at hl hh
    omega
  · rw [if_neg hk] at hl hh
    omega

theorem perpTotal_close {t : TokenRef} {locked : U256} {r : List (TokenRef × U256)}
    (hb : perpCollateral s pid = (t, locked) :: r)
    (hm : Moved s s' t.key locked.val) (ha : perpCollateral s' pid = []) :
    (∀ key, perpTotal s' pid key = perpTotal s pid key) ↔ ∀ entry ∈ r, entry.2 = 0 := by
  rw [← lockedIn_eq_zero]
  refine forall_congr' fun key => ?_
  have hh := hm.eq key
  rw [perpTotal, perpTotal, ha, hb, lockedIn_cons, lockedIn_nil]
  by_cases hk : t.key = key
  · rw [if_pos hk] at hh ⊢
    omega
  · rw [if_neg hk] at hh ⊢
    omega

theorem PerpStep.conserves_iff (hfe : ZeroFee kit) {step : EvalContext × PerpStep}
    (ho : step.2.On pid) (hf : ∀ key, (perpTotal s pid key : Int) < ceiling)
    (h : PerpStep.run kit codec s step = .ok s') :
    (∀ key, perpTotal s' pid key = perpTotal s pid key) ↔ step.2.ReturnsAll s pid := by
  obtain ⟨d, hd, ha⟩ := bind_eq_ok.1 h
  have hh (key : TokenKey) : (s.held key : Int) < ceiling := by
    have := hf key
    rw [perpTotal] at this
    omega
  rcases step with ⟨ctx, a | a | a | a⟩
  · obtain ⟨rfl, hv⟩ := ho
    exact iff_of_true ((OpenPerpAction.pays hv hh hd ha).perpTotal_eq hf) trivial
  · obtain rfl := ho
    exact iff_of_true ((IncreasePerpAction.pays hh hd ha).perpTotal_eq hf) trivial
  · exact iff_of_true ((AdjustMarginAction.pays ho hf hd ha).perpTotal_eq hf) trivial
  · obtain ⟨t, locked, r, hb, hm, haf⟩ :=
      ClosePerpAction.effect hfe ho hf hd ha
    rw [perpTotal_close hb hm haf, ReturnsAll, hb, tail_cons]

end Lemmas

/-! ## Sequences of actions -/

section Sequences

variable {D : Type} {kit : DecimalKit D} {codec : PositionCodec} {s : WalletState}
  {pid : PositionId}

theorem perpTotal_run {steps : List (EvalContext × PerpStep)} {s' : WalletState}
    (hf : ZeroFee kit) (hft : ∀ key, (perpTotal s pid key : Int) < ceiling)
    (ho : ∀ step ∈ steps, step.2.On pid)
    (ha : ∀ b step, b ++ [step] <+: steps → ∀ t,
      b.foldlM (PerpStep.run kit codec) s = .ok t → step.2.ReturnsAll t pid)
    (h : steps.foldlM (PerpStep.run kit codec) s = .ok s') :
    ∀ key, perpTotal s' pid key = perpTotal s pid key := by
  induction steps generalizing s with
  | nil =>
    cases h
    exact fun _ => rfl
  | cons step steps ih =>
    obtain ⟨t, hs, h⟩ := bind_eq_ok.1 h
    have hr := ha [] step (prefix_append [step] steps) s rfl
    have ht := (PerpStep.conserves_iff hf (ho step mem_cons_self) hft hs).2 hr
    have hrs := ih (fun key => ht key ▸ hft key)
      (fun x hx => ho x (mem_cons_of_mem _ hx)) (fun b x hx u hu => ?_) h
    · exact fun key => (hrs key).trans (ht key)
    · refine ha (step :: b) x ?_ u ?_
      · rwa [cons_append, cons_prefix_cons, and_iff_right rfl]
      · rw [foldlM_cons, hs, ok_bind, hu]

end Sequences

/-- While no total reaches the largest signed amount, opening, increasing and margin changes of an
on-chain position conserve the total of every token, and closing does exactly when the collateral
behind the first entry is empty. Over a whole sequence every state has the totals of the first one
exactly when every closing in it is of that kind. -/
theorem perp_collateral_conserved_iff {D : Type} {kit : DecimalKit D} (hfee : ZeroFee kit)
    (codec : PositionCodec) (pid : PositionId) (s s' : WalletState)
    (steps : List (EvalContext × PerpStep)) (hon : ∀ step ∈ steps, step.2.On pid)
    (hfits : ∀ key, (perpTotal s pid key : Int) < ceiling)
    (h : steps.foldlM (PerpStep.run kit codec) s = .ok s') :
    (∀ before, before <+: steps → ∀ t, before.foldlM (PerpStep.run kit codec) s = .ok t →
      ∀ key, perpTotal t pid key = perpTotal s pid key) ↔
    ∀ before step, before ++ [step] <+: steps → ∀ t,
      before.foldlM (PerpStep.run kit codec) s = .ok t → step.2.ReturnsAll t pid := by
  constructor
  · intro hc before step hse t ht
    obtain ⟨after, rfl⟩ := hse
    rw [foldlM_append] at h
    obtain ⟨u, hu, -⟩ := bind_eq_ok.1 h
    have hs : PerpStep.run kit codec t step = .ok u := by
      rw [foldlM_append, ht, ok_bind] at hu
      obtain ⟨u', hu', hn⟩ := bind_eq_ok.1 hu
      cases hn
      exact hu'
    have ht' := hc before ⟨[step] ++ after, by simp⟩ t ht
    have hu' := hc (before ++ [step]) (prefix_append _ _) u hu
    refine (PerpStep.conserves_iff hfee (hon step (by simp)) (fun key => ht' key ▸ hfits key)
      hs).1 fun key => (hu' key).trans (ht' key).symm
  · intro ha before hse t ht
    exact perpTotal_run hfee hfits (fun step hs => hon step (hse.subset hs))
      (fun pre step hp => ha pre step (hp.trans hse)) ht

/-! ## A position with two collaterals -/

/-- The number that digits write, where there are any. -/
def readDigits (ds : List Char) : Option Int :=
  if ds ≠ [] ∧ ds.all Char.isDigit then
    some (ds.foldl (fun n c => 10 * n + ((c.toNat : Int) - 48)) 0)
  else none

def readWhole (s : String) : Option Int :=
  match s.toList with
  | '-' :: ds => (readDigits ds).map (- ·)
  | ds => readDigits ds

/-- Whole numbers with texts that are read digit by digit. -/
def DecimalKit.digits : DecimalKit Int :=
  { DecimalKit.whole with
    fromStr := fun s => (readWhole s).elim (.error "no whole number") .ok
    fromStrDec := fun s => (readWhole s).elim (.error "no whole number") .ok
    parseU256 := fun s =>
      ((readWhole s).bind fun n => Unsigned.ofNat? n.toNat).elim (.error "no amount") .ok
    parseU256Dec := fun s =>
      ((readWhole s).bind fun n => Unsigned.ofNat? n.toNat).elim (.error "no amount") .ok
    parseI256Dec := fun s => ((readWhole s).bind Signed.ofInt?).elim (.error "no amount") .ok }

theorem zeroFee_digits : ZeroFee .digits := by
  intro value fee hf
  have hz : fee = 0 := by
    simp only [basisPoints, bind_eq_ok] at hf
    obtain ⟨p, hp, hf⟩ := hf
    have hp : p = 0 := by
      have := Except.ok.inj hp
      simpa [DecimalKit.digits, DecimalKit.whole] using this.symm
    subst hp
    exact (Except.ok.inj hf).symm
  subst hz
  decide +kernel

section Sample

def stablecoin : TokenKey := .erc20 ⟨"eip155:1"⟩ 9

/-- A long position of some size at a price of one. -/
def longPosition (size : U256) (collateral : List (TokenRef × U256)) : Position where
  id := "gmx_v2:ETH:long"
  protocol := { name := "gmx_v2" }
  chain := none
  kind := .perpPosition
    { venue := ⟨"gmx_v2", none⟩
      market := ⟨"ETH", ⟨"gmx_v2", none⟩⟩
      side := .long
      sizeBase := size
      notionalUsd := size
      collateral := collateral
      entryPrice := ⟨"1"⟩
      marginMode := .isolated
      markPrice := fresh ⟨"1"⟩
      liqPrice := fresh none
      unrealizedPnl := fresh 0
      fundingOwed := fresh 0
      leverage := fresh ⟨"1"⟩ }
  primitivesSyncedAt := 0
  primitivesSource := .userSupplied

/-- A wallet with ether, a stablecoin and a position. -/
def perpTrader (ether' stable : U256) (positions : List Position) : WalletState :=
  { walletHolding ether ether' with
    tokens := (walletHolding ether ether').tokens.insert stablecoin
      { mintStubHolding stablecoin .unknown with balance := .fungible stable }
    positions := positions }

def perpContext : EvalContext := ⟨⟨"eip155:1"⟩, 0, 0, .transaction, .preview⟩

/-- An increase by one that adds some of a token as collateral. -/
def addCollateral (key : TokenKey) (amount : U256) : PerpStep := .increase
  ⟨.gmxV2 ⟨"eip155:1"⟩, "gmx_v2:ETH:long", .baseAmount 1, some (⟨key⟩, amount), fresh ⟨"1"⟩⟩

def closeLong : PerpStep := .closing
  ⟨"gmx_v2:ETH:long", none, ⟨fresh ⟨"1"⟩, fresh 0, fresh 0, fresh 0⟩⟩

/-- The wallet after the stablecoin has been added as a second collateral. -/
def grownTrader : WalletState :=
  ((perpTrader 10 7 [longPosition 1 [(⟨ether⟩, 5)]]).setBalance stablecoin 0).withRest
    [longPosition 2 [(⟨ether⟩, 5), (⟨stablecoin⟩, 7)]] []

/-- An increase of a long position, where its delta is the one expected. -/
theorem addCollateral_run (codec : PositionCodec) {s u : WalletState} {key : TokenKey}
    {amount : U256} {change : I256} {old new : List (TokenRef × U256)}
    (hp : s.positions = [longPosition 1 old])
    (hr : (addCollateral key amount).reduce .digits codec s perpContext =
      .ok ⟨[.balanceDelta key change],
        [.update "gmx_v2:ETH:long" (snapshotPatch codec (longPosition 2 new))], [], none⟩)
    (hu : applyAssets s ⟨[.balanceDelta key change], [], [], none⟩ = .ok u) :
    PerpStep.run .digits codec s (perpContext, addCollateral key amount) =
      .ok (u.withRest [longPosition 2 new] s.pending) := by
  have hc : changePositions codec [longPosition 1 old] (.update "gmx_v2:ETH:long"
      (snapshotPatch codec (longPosition 2 new))) = .ok [longPosition 2 new] := by
    rw [changePositions, changeFirst, applyPositionPatch_snapshotPatch]
    rfl
  rw [PerpStep.run, hr, ok_bind, applyDelta_eq_ok]
  refine ⟨u, _, s.pending, hu, ?_, rfl, rfl⟩
  rw [hp]
  exact bind_eq_ok.2 ⟨_, hc, rfl⟩

/-- A long position over five ether beside ten in the wallet. -/
def etherTrader : WalletState :=
  { walletHolding ether 10 with positions := [longPosition 1 [(⟨ether⟩, 5)]] }

end Sample

/-- Collateral that an increase has added in another token is gone after closing. -/
theorem closing_forgets_collateral : ∃ closed,
    PerpStep.run .digits .numbered (perpTrader 10 7 [longPosition 1 [(⟨ether⟩, 5)]])
      (perpContext, addCollateral stablecoin 7) = .ok grownTrader ∧
    PerpStep.run .digits .numbered grownTrader (perpContext, closeLong) = .ok closed ∧
    perpTotal (perpTrader 10 7 [longPosition 1 [(⟨ether⟩, 5)]]) "gmx_v2:ETH:long" stablecoin = 7 ∧
    perpTotal grownTrader "gmx_v2:ETH:long" stablecoin = 7 ∧
    perpTotal closed "gmx_v2:ETH:long" stablecoin = 0 ∧
    ¬ closeLong.ReturnsAll grownTrader "gmx_v2:ETH:long" := by
  refine ⟨_, addCollateral_run .numbered rfl rfl rfl, rfl, rfl, rfl, rfl, fun h => ?_⟩
  exact absurd (h (⟨stablecoin⟩, 7) (by exact mem_singleton_self _)) (by decide)

theorem perp_collateral_conserved_iff_close : ∃ grown closed,
    [(perpContext, addCollateral ether 3)].foldlM (PerpStep.run .digits .numbered) etherTrader =
      .ok grown ∧
    [(perpContext, addCollateral ether 3), (perpContext, closeLong)].foldlM
      (PerpStep.run .digits .numbered) etherTrader = .ok closed ∧
    perpTotal grown "gmx_v2:ETH:long" ether = 15 ∧
    perpTotal closed "gmx_v2:ETH:long" ether = 15 := by
  let steps := [(perpContext, addCollateral ether 3), (perpContext, closeLong)]
  let grown := (etherTrader.setBalance ether 7).withRest [longPosition 2 [(⟨ether⟩, 8)]] []
  have ha : PerpStep.run .digits .numbered etherTrader (perpContext, addCollateral ether 3) =
      .ok grown := addCollateral_run .numbered rfl rfl rfl
  have hg : [(perpContext, addCollateral ether 3)].foldlM (PerpStep.run .digits .numbered)
      etherTrader = .ok grown := by
    rw [foldlM_cons, ha]
    rfl
  have hb : steps.foldlM (PerpStep.run .digits .numbered) etherTrader =
      PerpStep.run .digits .numbered grown (perpContext, closeLong) >>= pure := by
    rw [foldlM_cons, ha]
    rfl
  have hr := hb.trans rfl
  have hf : ∀ key, (perpTotal etherTrader "gmx_v2:ETH:long" key : Int) < ceiling := by
    intro key
    by_cases hk : key = ether
    · subst hk
      exact (by decide : ((15 : Nat) : Int) < ceiling)
    · have hn : (walletHolding ether 10).tokens.lookup key = none :=
        Finmap.lookup_eq_none.2 (mt (Finmap.mem_singleton key ether _).1 hk)
      have hh : (walletHolding ether 10).held key = 0 := by
        simp [WalletState.held, WalletState.balanceOf, hn]
      have hlo : lockedIn [(⟨ether⟩, 5)] key = 0 := by
        rw [lockedIn_cons, if_neg (Ne.symm hk), lockedIn_nil]
      change (((walletHolding ether 10).held key + lockedIn [(⟨ether⟩, 5)] key : Nat) : Int) < _
      rw [hh, hlo]
      decide
  have hc := (perp_collateral_conserved_iff zeroFee_digits .numbered "gmx_v2:ETH:long" etherTrader _
    steps ?_ hf hr).2 ?_
  · exact ⟨_, _, hg, hr, hc _ (by simp [steps]) _ hg ether, hc _ (prefix_refl _) _ hr ether⟩
  · intro step hs
    obtain rfl | rfl : step = _ ∨ step = _ := by simpa [steps] using hs
    exacts [rfl, ⟨rfl, rfl, rfl, rfl⟩]
  · intro before step hse t ht
    rcases before with _ | ⟨_, _ | ⟨_, _⟩⟩
    · obtain rfl : step = (perpContext, addCollateral ether 3) := by simpa [steps] using hse
      exact trivial
    · obtain ⟨rfl, rfl⟩ : _ = (perpContext, addCollateral ether 3) ∧
        step = (perpContext, closeLong) := by simpa [steps] using hse
      obtain rfl := Except.ok.inj (ht.symm.trans hg)
      exact fun entry he => by cases he
    · simp [steps] at hse

end Dambi.Asset
