import Dambi.Asset.LendingLedger

/-!
# Updates of one position

Several updates of one position within a delta. Each helper reads the position
through `effective_position`, which knows the openings and closings of the delta
but not its updates: every update starts from the position of the wallet, and
the last snapshot replaces the others.
-/

namespace Dambi.Asset

open Fallible List

/-! ## Calls -/

inductive UpsertHelper where
  | lendingAccount
  | perpPosition
  | hlAccount

def UpsertHelper.isKind : UpsertHelper → PositionKind → Bool
  | lendingAccount => PositionKind.isLendingAccount
  | perpPosition => PositionKind.isPerpPosition
  | hlAccount => PositionKind.isHyperliquidAccount

/-- A call of a helper with its closure. -/
structure Upsert where
  helper : UpsertHelper
  mutate : Position → Position

section Calls

variable (codec : PositionCodec) (state : WalletState) (positionId : PositionId)

def Upsert.perform (delta : StateDelta) (u : Upsert) : ReducerResult StateDelta :=
  match u.helper with
  | .lendingAccount => upsertLendingAccount codec state delta positionId u.mutate
  | .perpPosition => upsertPerpPosition codec state delta positionId u.mutate
  | .hlAccount => upsertHlAccount codec state delta positionId u.mutate

/-- The calls on one position, one after the other. -/
def upsertAll (delta : StateDelta) (calls : List Upsert) : ReducerResult StateDelta :=
  calls.foldlM (Upsert.perform codec state positionId) delta

end Calls

/-- The checks of a helper: the closure gets and leaves a position of the helper's kind. -/
def Upsert.Accepts (u : Upsert) (p : Position) : Prop :=
  u.helper.isKind p.kind = true ∧ u.helper.isKind (u.mutate p).kind = true

/-- The closures one after the other. -/
def composed (calls : List Upsert) (p : Position) : Position :=
  calls.foldl (fun q u => u.mutate q) p

/-- The last closure alone. -/
def lastAlone (calls : List Upsert) (p : Position) : Position :=
  calls.getLast?.elim p fun u => u.mutate p

/-! ## What the calls record -/

section Recording

variable {codec : PositionCodec} {state : WalletState} {delta delta' : StateDelta} {p : Position}
  {positionId : PositionId} {calls : List Upsert}

theorem Upsert.perform_eq_ok {u : Upsert} : u.perform codec state positionId delta = .ok delta' ↔
    ∃ p, effectivePosition state delta positionId = some p ∧ u.Accepts p ∧
      delta' = delta.pushPosition (.update positionId (snapshotPatch codec (u.mutate p))) := by
  have hs (k : String) (isKind : PositionKind → Bool) :
      upsertPosition codec k isKind state delta positionId u.mutate = .ok delta' ↔
        ∃ p, effectivePosition state delta positionId = some p ∧
          (isKind p.kind = true ∧ isKind (u.mutate p).kind = true) ∧
          delta' = delta.pushPosition (.update positionId (snapshotPatch codec (u.mutate p))) := by
    simp only [upsertPosition, bind_eq_ok, orFail_eq_ok, ensure_eq_ok]
    refine exists_congr fun p => and_congr_right fun _ => ?_
    constructor
    · rintro ⟨_, hb, _, ha, h⟩
      exact ⟨⟨hb, ha⟩, (Except.ok.inj h).symm⟩
    · rintro ⟨⟨hb, ha⟩, rfl⟩
      exact ⟨(), hb, (), ha, rfl⟩
  unfold Upsert.perform Upsert.Accepts
  cases u.helper <;> exact hs _ _

theorem effectivePosition_update (pa : PositionPatch) :
    effectivePosition state (delta.pushPosition (.update positionId pa)) positionId =
      effectivePosition state delta positionId := by
  simp [effectivePosition, StateDelta.pushPosition, effectivePosition.go]

def pushUpdates (codec : PositionCodec) (positionId : PositionId) (p : Position)
    (delta : StateDelta) (calls : List Upsert) : StateDelta :=
  calls.foldl (fun d u => d.pushPosition (.update positionId (snapshotPatch codec (u.mutate p))))
    delta

theorem upsertAll_eq_ok (hp : effectivePosition state delta positionId = some p) :
    upsertAll codec state positionId delta calls = .ok delta' ↔
      (∀ u ∈ calls, u.Accepts p) ∧ delta' = pushUpdates codec positionId p delta calls := by
  induction calls generalizing delta with
  | nil =>
    rw [upsertAll, pushUpdates, foldlM_nil, foldl_nil]
    refine ⟨fun h => ⟨fun u hu => absurd hu not_mem_nil, (Except.ok.inj h).symm⟩, ?_⟩
    exact fun h => congrArg Except.ok h.2.symm
  | cons u calls ih =>
    have hn (delta'' : StateDelta) : delta'' = delta.pushPosition (.update positionId
        (snapshotPatch codec (u.mutate p))) →
      effectivePosition state delta'' positionId = some p := by
      rintro rfl
      exact (effectivePosition_update _).trans hp
    rw [upsertAll, foldlM_cons]
    simp only [bind_eq_ok, Upsert.perform_eq_ok, hp, Option.some.injEq, forall_mem_cons]
    constructor
    · rintro ⟨_, ⟨_, rfl, hu, rfl⟩, hr⟩
      obtain ⟨hc, rfl⟩ := (ih (hn _ rfl)).1 hr
      exact ⟨⟨hu, hc⟩, rfl⟩
    · rintro ⟨⟨hu, hc⟩, rfl⟩
      exact ⟨_, ⟨p, rfl, hu, rfl⟩, (ih (hn _ rfl)).2 ⟨hc, rfl⟩⟩

theorem positionChanges_pushUpdates : (pushUpdates codec positionId p delta calls).positionChanges =
    delta.positionChanges ++ calls.map fun u =>
      .update positionId (snapshotPatch codec (u.mutate p)) := by
  induction calls generalizing delta with
  | nil => exact (append_nil _).symm
  | cons u calls ih =>
    refine ih.trans ?_
    change (delta.positionChanges ++ [_]) ++ _ = _
    rw [append_assoc]
    rfl

theorem applyDelta_pushUpdates {positions : List Position} :
    applyDelta codec state (pushUpdates codec positionId p .new calls) =
        .ok { state with positions := positions } ↔
      (calls.map fun u => PositionChange.update positionId
        (snapshotPatch codec (u.mutate p))).foldlM (changePositions codec) state.positions =
          .ok positions := by
  have hr : (pushUpdates codec positionId p .new calls).tokenChanges = [] ∧
      (pushUpdates codec positionId p .new calls).pendingChanges = [] ∧
      (pushUpdates codec positionId p .new calls).gasPaid = none := by
    generalize hn : StateDelta.new = start
    have hs : start.tokenChanges = [] ∧ start.pendingChanges = [] ∧ start.gasPaid = none :=
      hn ▸ ⟨rfl, rfl, rfl⟩
    clear hn
    induction calls generalizing start with
    | nil => exact hs
    | cons u calls ih => exact ih _ hs
  have hc : (pushUpdates codec positionId p .new calls).positionChanges = _ :=
    positionChanges_pushUpdates
  rw [applyDelta_eq_ok, applyAssets, hr.1, hr.2.1, hr.2.2, hc]
  constructor
  · rintro ⟨t, ps, qs, ha, hp, hq, hst⟩
    have hpo := congrArg WalletState.positions hst
    exact hp.trans (congrArg Except.ok hpo.symm)
  · intro hp
    exact ⟨state, positions, state.pending, rfl, hp, rfl, rfl⟩

end Recording

/-! ## What the updates leave -/

section Applying

variable {codec : PositionCodec} {p q : Position} {before after : List Position}
  {calls : List Upsert} {positions : List Position}

theorem changeFirst_append {α : Type} {f : α → Bool} {m : ReducerError}
    {change : α → ReducerResult α} {before after : List α} {x y : α}
    (hb : ∀ z ∈ before, f z = false) (hx : f x = true) (hc : change x = .ok y) :
    changeFirst f m change (before ++ x :: after) = .ok (before ++ y :: after) := by
  induction before with
  | nil => rw [nil_append, changeFirst, if_pos hx, hc]; rfl
  | cons z before ih =>
    rw [forall_mem_cons] at hb
    rw [cons_append, changeFirst, if_neg (by rw [hb.1]; decide), ih hb.2]
    rfl

variable {positionId : PositionId}

theorem changePositions_update (hb : ∀ z ∈ before, z.id ≠ positionId) (hp : p.id = positionId) :
    changePositions codec (before ++ p :: after) (.update positionId (snapshotPatch codec q)) =
      .ok (before ++ q :: after) :=
  changeFirst_append (fun z hz => decide_eq_false (hb z hz)) (decide_eq_true hp)
    (applyPositionPatch_snapshotPatch q p)

theorem foldlM_updates {ss : List Position}
    (hb : ∀ z ∈ before, z.id ≠ positionId) (hp : p.id = positionId)
    (hs : ∀ z ∈ ss.dropLast, z.id = positionId) :
    (ss.map fun q => PositionChange.update positionId (snapshotPatch codec q)).foldlM
        (changePositions codec) (before ++ p :: after) =
      .ok (before ++ ss.getLast?.getD p :: after) := by
  induction ss generalizing p with
  | nil => rfl
  | cons q ss ih =>
    rw [map_cons, foldlM_cons, changePositions_update hb hp, ok_bind]
    cases ss with
    | nil => rfl
    | cons r ss =>
      rw [dropLast_cons_cons, forall_mem_cons] at hs
      rw [ih hs.1 hs.2, getLast?_cons_cons,
        getLast?_eq_some_getLast (cons_ne_nil r ss)]
      rfl

theorem changePositions_single
    (h : changePositions codec [p] (.update positionId (snapshotPatch codec q)) = .ok positions) :
    p.id = positionId ∧ positions = [q] := by
  rw [changePositions, changeFirst] at h
  split at h
  · rename_i hp
    rw [applyPositionPatch_snapshotPatch, ok_bind] at h
    cases h
    exact ⟨of_decide_eq_true hp, rfl⟩
  · cases h

/-- In a wallet without other positions, a snapshot under another name stops the next update. -/
theorem id_of_foldlM_updates {ss : List Position}
    (h : (ss.map fun q => PositionChange.update positionId (snapshotPatch codec q)).foldlM
      (changePositions codec) [p] = .ok positions) : ∀ z ∈ ss.dropLast, z.id = positionId := by
  induction ss generalizing p with
  | nil => exact fun z hz => absurd hz not_mem_nil
  | cons q ss ih =>
    rw [map_cons, foldlM_cons] at h
    obtain ⟨next, hn, h⟩ := bind_eq_ok.1 h
    obtain ⟨-, rfl⟩ := changePositions_single hn
    cases ss with
    | nil => exact fun z hz => absurd hz not_mem_nil
    | cons r ss =>
      rw [dropLast_cons_cons, forall_mem_cons]
      obtain ⟨_, hs, -⟩ := bind_eq_ok.1 h
      exact ⟨(changePositions_single hs).1, ih h⟩

end Applying

/-! ## Composition -/

section Composition

variable {codec : PositionCodec} {p : Position} {calls : List Upsert}

/-- In every wallet that has the position, calls that are accepted leave in its place what the
closures make of it one after the other. -/
def Composes (codec : PositionCodec) (p : Position) (calls : List Upsert) : Prop :=
  ∀ (state : WalletState) (delta : StateDelta) (before after : List Position),
    state.positions = before ++ p :: after → (∀ z ∈ before, z.id ≠ p.id) →
      upsertAll codec state p.id .new calls = .ok delta →
        applyDelta codec state delta =
          .ok { state with positions := before ++ composed calls p :: after }

theorem lastAlone_eq : (calls.map fun u => u.mutate p).getLast?.getD p = lastAlone calls p := by
  rw [getLast?_map, lastAlone]
  cases calls.getLast? <;> rfl

theorem effectivePosition_new {state : WalletState} {before after : List Position}
    (hs : state.positions = before ++ p :: after) (hb : ∀ z ∈ before, z.id ≠ p.id) :
    effectivePosition state .new p.id = some p := by
  have hn : before.find? (·.id = p.id) = none :=
    find?_eq_none.2 fun z hz => by simpa using hb z hz
  rw [effectivePosition_of_nil rfl, WalletState.positionOf, hs, find?_append, hn,
    Option.none_or]
  exact find?_cons_of_pos (decide_eq_true rfl)

/-- Updates of one position compose exactly if the last closure makes of the original position
what all of them make of it, and no closure before it renames the position. -/
theorem updates_compose_iff (haccepts : ∀ u ∈ calls, u.Accepts p) :
    Composes codec p calls ↔
      (∀ u ∈ calls.dropLast, (u.mutate p).id = p.id) ∧ composed calls p = lastAlone calls p := by
  have hm : (calls.map fun u => PositionChange.update p.id (snapshotPatch codec (u.mutate p))) =
      (calls.map fun u => u.mutate p).map fun q => .update p.id (snapshotPatch codec q) := by
    rw [map_map]
    rfl
  have hna : (∀ z ∈ (calls.map fun u => u.mutate p).dropLast, z.id = p.id) ↔
      ∀ u ∈ calls.dropLast, (u.mutate p).id = p.id := by
    rw [← map_dropLast, forall_mem_map]
  constructor
  · intro hc
    -- The wallet that holds nothing but the position.
    have hn : ∀ z ∈ ([] : List Position), z.id ≠ p.id := fun z hz => absurd hz not_mem_nil
    have hs := hc { WalletState.new ⟨0, ∅⟩ with positions := [p] } _ [] [] rfl hn
      ((upsertAll_eq_ok (effectivePosition_new rfl hn)).2 ⟨haccepts, rfl⟩)
    rw [applyDelta_pushUpdates, hm] at hs
    have hk := id_of_foldlM_updates hs
    have hl := @foldlM_updates codec p [] [] p.id _ hn rfl hk
    have hp := Except.ok.inj (hs.symm.trans hl)
    refine ⟨hna.1 hk, ?_⟩
    rw [← lastAlone_eq]
    exact (List.cons.inj hp).1
  · rintro ⟨hk, hl⟩ state delta before after hst hb hu
    obtain ⟨-, rfl⟩ := (upsertAll_eq_ok (effectivePosition_new hst hb)).1 hu
    rw [applyDelta_pushUpdates, hm, hst, hl, ← lastAlone_eq]
    exact foldlM_updates hb rfl (hna.2 hk)

end Composition

/-! ## One account -/

/-- A supply of ether, as its reducer updates the account. -/
def supplyThree : Upsert := ⟨.lendingAccount, mutateLending (·.mergeCollateral ⟨ether⟩ 3)⟩

theorem supplyThree_accepts (a : U256) : supplyThree.Accepts (aaveAccount a) :=
  ⟨rfl, rfl⟩

/-- A choice of the efficiency mode. -/
def chooseMode (mode : EModeCategory) : Upsert :=
  ⟨.lendingAccount, mutateLending fun la => { la with emode := some mode }⟩

/-- Of two choices the second stands. -/
theorem updates_compose_iff_modes :
    Composes .numbered (aaveAccount 5) [chooseMode 1, chooseMode 2] := by
  refine (updates_compose_iff ?_).2 ⟨?_, rfl⟩
  · simp only [forall_mem_cons, not_mem_nil, false_imp_iff, implies_true, and_true]
    exact ⟨⟨rfl, rfl⟩, rfl, rfl⟩
  · simp only [dropLast_cons_cons, dropLast_singleton, forall_mem_singleton]
    rfl

/-- Of two supplies of three to an account of five, one is lost. -/
theorem second_supply_lost : ∃ delta,
    upsertAll .numbered (lender 0 [aaveAccount 5]) (aaveAccount 5).id .new
        [supplyThree, supplyThree] = .ok delta ∧
      composed [supplyThree, supplyThree] (aaveAccount 5) = aaveAccount 11 ∧
      applyDelta .numbered (lender 0 [aaveAccount 5]) delta = .ok (lender 0 [aaveAccount 8]) := by
  have hf : effectivePosition (lender 0 [aaveAccount 5]) .new (aaveAccount 5).id =
      some (aaveAccount 5) := effectivePosition_new rfl fun z hz => absurd hz not_mem_nil
  refine ⟨_, (upsertAll_eq_ok hf).2 ⟨?_, rfl⟩, by decide +kernel, ?_⟩
  · intro u hu
    rw [eq_of_mem_replicate (show u ∈ replicate 2 supplyThree from hu)]
    exact supplyThree_accepts 5
  · have he : supplyThree.mutate (aaveAccount 5) = aaveAccount 8 := by decide +kernel
    have hl := @foldlM_updates .numbered (aaveAccount 5) [] [] (aaveAccount 5).id
      [aaveAccount 8, aaveAccount 8] (fun z hz => absurd hz not_mem_nil) rfl
      (by decide +kernel)
    refine applyDelta_pushUpdates.2 ?_
    rw [map_cons, map_cons, he]
    exact hl

end Dambi.Asset
