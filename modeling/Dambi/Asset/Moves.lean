import Mathlib.Algebra.Order.BigOperators.Group.List
import Dambi.Asset.Soundness

/-!
# One move and one position

The reducers of lending and perps record at most one change of a balance and one
change of a position. What applying such a delta does to the amounts that the
wallet holds and to the position of a name is said here once, together with the
sums over the entries of a position.
-/

namespace Dambi.Asset

open FixedWidth Fallible List WalletState

/-! ## Entries -/

section Entries

variable {α : Type} {p : α → Bool} {w : α → Nat} {amount : Nat}

variable {change : α → α} {fresh : α} {xs xs' : List α} {get : α → U256} {set : U256 → α → α}
  {m : String} {es : U256 → String} {left r : U256} {κ : Type}

theorem sum_mergeFirst (hc : ∀ x ∈ xs, p x = true → w (change x) = w x + amount)
    (hf : w fresh = amount) :
    ((mergeFirst p change fresh xs).map w).sum = (xs.map w).sum + amount := by
  induction xs with
  | nil => simp [mergeFirst, hf]
  | cons x xs ih =>
    unfold mergeFirst
    split
    · next hp =>
      rw [map_cons, sum_cons, hc x mem_cons_self hp, map_cons, sum_cons]
      omega
    · rw [map_cons, sum_cons, ih fun y hy => hc y (mem_cons_of_mem _ hy),
        map_cons, sum_cons]
      omega

theorem sum_reduceFirst (hs : ∀ x n, p x = true → (get x).checkedSub r = some n →
      w (set n x) + amount = w x ∧ (n = 0 → w x = amount))
    (h : reduceFirst p get set m es r xs = .ok (left, xs')) :
    (xs'.map w).sum + amount = (xs.map w).sum := by
  induction xs generalizing xs' with
  | nil => cases h
  | cons x xs ih =>
    unfold reduceFirst at h
    split at h
    · next hp =>
      obtain ⟨n, hn, h⟩ := bind_eq_ok.1 h
      cases h
      obtain ⟨hl, hz⟩ := hs x left hp (orFail_eq_ok.1 hn)
      rw [map_cons, sum_cons]
      split
      · next hn0 =>
        have := hz hn0
        omega
      · rw [map_cons, sum_cons]
        omega
    · obtain ⟨⟨n, re⟩, hr, h⟩ := bind_eq_ok.1 h
      cases h
      have := ih hr
      rw [map_cons, sum_cons, map_cons, sum_cons]
      omega

theorem nodup_mergeFirst {name : α → κ} (hp : ∀ x, p x = true ↔ name x = name fresh)
    (hc : ∀ x, name (change x) = name x) (h : (xs.map name).Nodup) :
    ((mergeFirst p change fresh xs).map name).Nodup ∧
      ∀ k ∈ (mergeFirst p change fresh xs).map name, k = name fresh ∨ k ∈ xs.map name := by
  induction xs with
  | nil => simp [mergeFirst]
  | cons x xs ih =>
    rw [map_cons, nodup_cons] at h
    unfold mergeFirst
    split
    · rw [map_cons, hc]
      exact ⟨nodup_cons.2 h, fun k hk => .inr hk⟩
    · next hx =>
      obtain ⟨hno, hn⟩ := ih h.2
      have hne : name x ≠ name fresh := fun heq => hx ((hp x).2 heq)
      refine ⟨nodup_cons.2 ⟨fun hm => ?_, hno⟩, fun k hk => ?_⟩
      · exact (hn _ hm).elim hne h.1
      · rw [map_cons, mem_cons] at hk ⊢
        rcases hk with rfl | hk
        · exact .inr (.inl rfl)
        · exact (hn k hk).imp_right .inr

theorem sublist_reduceFirst {na : α → κ} (hs : ∀ x n, na (set n x) = na x)
    (h : reduceFirst p get set m es r xs = .ok (left, xs')) : (xs'.map na).Sublist (xs.map na) := by
  induction xs generalizing xs' with
  | nil => cases h
  | cons x xs ih =>
    unfold reduceFirst at h
    split at h
    · obtain ⟨n, -, h⟩ := bind_eq_ok.1 h
      cases h
      split
      · exact sublist_cons_self _ _
      · rw [map_cons, map_cons, hs]
    · obtain ⟨⟨n, re⟩, hr, h⟩ := bind_eq_ok.1 h
      cases h
      exact (ih hr).cons_cons _

end Entries

/-! ## Amounts -/

/-- The amount of a fungible token that the wallet holds. -/
def WalletState.held (s : WalletState) (key : TokenKey) : Nat :=
  match s.balanceOf key with
  | some (.fungible x) => x.val
  | _ => 0

def entrySum {α : Type} (token : α → TokenRef) (amount : α → U256) (key : TokenKey)
    (entries : List α) : Nat :=
  (entries.map fun x => if (token x).key = key then (amount x).val else 0).sum

theorem le_entrySum {α : Type} (t : α → TokenRef) (amount : α → U256) {entries : List α} {x : α}
    (h : x ∈ entries) : (amount x).val ≤ entrySum t amount (t x).key entries := by
  have hl := single_le_sum (fun _ _ => Nat.zero_le _) _ (mem_map_of_mem
    (f := fun y => if (t y).key = (t x).key then (amount y).val else 0) h)
  rwa [if_pos rfl] at hl

def WalletState.positionOf (s : WalletState) (pid : PositionId) : Option Position :=
  s.positions.find? (·.id = pid)

/-- The amount of one token changed, and no other balance; the wallet is the same. -/
structure Moved (s s' : WalletState) (key : TokenKey) (amount : Int) : Prop where
  own : (s'.held key : Int) = s.held key + amount
  other : ∀ k, k ≠ key → s'.held k = s.held k
  wallet : s'.walletId = s.walletId

theorem Moved.eq {s s' : WalletState} {key : TokenKey} {amount : Int}
    (h : Moved s s' key amount) (k : TokenKey) :
    (s'.held k : Int) = s.held k + if key = k then amount else 0 := by
  by_cases hk : key = k
  · subst hk
    rw [if_pos rfl, h.own]
  · rw [if_neg hk, h.other k (Ne.symm hk), Int.add_zero]

section Applied

variable {codec : PositionCodec} {s s' : WalletState} {d : StateDelta} {key : TokenKey}
  {δ : I256} {pc : PositionChange} {x : U256}

theorem held_withRest (ps : List Position) (qs : List PendingTx) (k : TokenKey) :
    (s.withRest ps qs).held k = s.held k := rfl

theorem applyDelta_move (hto : d.tokenChanges = [.balanceDelta key δ])
    (hpo : d.positionChanges = [pc]) (hg : d.gasPaid = none)
    (hx : s.balanceOf key = some (.fungible x)) (h : applyDelta codec s d = .ok s') :
    ∃ y, addSigned x δ = some y ∧ Moved s s' key (y.val - x.val) ∧
      changePositions codec s.positions pc = .ok s'.positions := by
  obtain ⟨t, ps, qs, ha, hp, -, rfl⟩ := applyDelta_eq_ok.1 h
  obtain ⟨t', ht', hg'⟩ := bind_eq_ok.1 ha
  rw [hg] at hg'
  cases hg'
  rw [hto] at ht'
  obtain ⟨t', hs, hn⟩ := bind_eq_ok.1 ht'
  cases hn
  obtain ⟨y, hy, rfl⟩ := (applyTokenChange_delta hx).1 hs
  rw [hpo] at hp
  obtain ⟨ps', hp', hn⟩ := bind_eq_ok.1 hp
  cases hn
  refine ⟨y, hy, ⟨?_, fun k hk => ?_, ?_⟩, hp'⟩
  · rw [held_withRest]
    simp only [WalletState.held, balanceOf_setBalance hx, hx]
    omega
  · rw [held_withRest]
    simp only [WalletState.held, balanceOf]
    rw [lookup_setBalance_of_ne hk]
  · obtain ⟨ho, hl, -⟩ := balanceOf_eq_some.1 hx
    rw [setBalance_eq hl]
    rfl

theorem applyDelta_position (key : TokenKey) (ht : d.tokenChanges = [])
    (hpo : d.positionChanges = [pc]) (hg : d.gasPaid = none) (h : applyDelta codec s d = .ok s') :
    Moved s s' key 0 ∧ changePositions codec s.positions pc = .ok s'.positions := by
  obtain ⟨t, ps, qs, ha, hp, -, rfl⟩ := applyDelta_eq_ok.1 h
  rw [applyAssets, ht, hg] at ha
  cases ha
  rw [hpo] at hp
  obtain ⟨ps', hp', hn⟩ := bind_eq_ok.1 hp
  cases hn
  exact ⟨⟨(Int.add_zero _).symm, fun _ _ => rfl, rfl⟩, hp'⟩

theorem held_eq (hx : s.balanceOf key = some (.fungible x)) : s.held key = x.val := by
  simp only [WalletState.held, hx]

theorem addSigned_exact {y : U256} (h : addSigned x δ = some y) (hx : (x.val : Int) ≤ ceiling)
    (hsu : x.val + δ.val ≤ ceiling) : (y.val : Int) = x.val + δ.val := by
  have hs := addSigned_val x δ
  rw [h, Option.map_some, eq_comm, Saturation.step_eq_some] at hs
  omega

end Applied

/-! ## Positions -/

section Positions

variable {codec : PositionCodec} {positions positions' : List Position} {pid : PositionId}
  {new : Position}

theorem find_changeFirst {change : Position → ReducerResult Position} {m : ReducerError}
    (hc : ∀ po, change po = .ok new) (hi : new.id = pid)
    (h : changeFirst (·.id = pid) m change positions = .ok positions') :
    positions'.find? (·.id = pid) = some new := by
  induction positions generalizing positions' with
  | nil => cases h
  | cons po positions ih =>
    unfold changeFirst at h
    split at h
    · rw [hc, ok_bind] at h
      cases h
      exact find?_cons_of_pos (decide_eq_true hi)
    · next hp =>
      obtain ⟨r, hr, h⟩ := bind_eq_ok.1 h
      cases h
      exact (find?_cons_of_neg (p := fun q : Position => decide (q.id = pid)) hp).trans
        (ih hr)

theorem find_update (hi : new.id = pid)
    (h : changePositions codec positions (.update pid (snapshotPatch codec new)) = .ok positions') :
    positions'.find? (·.id = pid) = some new :=
  find_changeFirst (applyPositionPatch_snapshotPatch new) hi h

theorem find_close (h : changePositions codec positions (.close pid) = .ok positions') :
    positions'.find? (·.id = pid) = none := by
  simp only [changePositions, removeAll] at h
  split at h
  · cases h
  · cases h
    simp

theorem find_opened (hn : positions.find? (·.id = new.id) = none)
    (h : changePositions codec positions (.opened new) = .ok positions') :
    positions'.find? (·.id = new.id) = some new := by
  cases h
  rw [find?_append, hn]
  simp

end Positions

/-! ## Reducers that record one change of a position -/

section Upsert

variable {codec : PositionCodec} {s : WalletState} {d d' : StateDelta} {pid : PositionId}
  {kind : String} {isKind : PositionKind → Bool} {mutate : Position → Position}

theorem effectivePosition_of_nil (h : d.positionChanges = []) :
    effectivePosition s d pid = s.positionOf pid := by
  rw [effectivePosition, h]
  rfl

theorem upsertPosition_eq_ok (hd : d.positionChanges = [])
    (h : upsertPosition codec kind isKind s d pid mutate = .ok d') :
    ∃ po, s.positionOf pid = some po ∧ isKind po.kind = true ∧
      d' = d.pushPosition (.update pid (snapshotPatch codec (mutate po))) := by
  simp only [upsertPosition, bind_eq_ok, ensure, require_eq_ok] at h
  obtain ⟨po, hp, _, hk, _, -, h⟩ := h
  rw [orFail_eq_ok, effectivePosition_of_nil hd] at hp
  cases h
  exact ⟨po, hp, hk, rfl⟩

variable {po : Position} {key : TokenKey} {amount : U256}

theorem id_of_positionOf (h : s.positionOf pid = some po) : po.id = pid := by
  simpa using find?_some h

theorem debit_keeps (h : debit s d key amount = .ok d') :
    d'.positionChanges = d.positionChanges ∧ d'.gasPaid = d.gasPaid := by
  obtain ⟨_, rfl⟩ := debit_pushes h
  exact ⟨rfl, rfl⟩

theorem credit_keeps (h : credit s d key amount = .ok d') :
    d'.positionChanges = d.positionChanges ∧ d'.gasPaid = d.gasPaid := by
  obtain ⟨_, -, rfl⟩ := credit_eq_ok.1 h
  exact ⟨rfl, rfl⟩

theorem pushPosition_of_nil (h : d.positionChanges = []) (pc : PositionChange) :
    (d.pushPosition pc).positionChanges = [pc] := by
  rw [StateDelta.pushPosition, h, nil_append]

theorem openPosition_eq_ok (hd : d.positionChanges = []) (h : openPosition s d po = .ok d') :
    s.positionOf po.id = none ∧ d' = d.pushPosition (.opened po) := by
  simp only [openPosition, bind_eq_ok, ensure, require_eq_ok] at h
  obtain ⟨_, he, h⟩ := h
  rw [effectiveExists, hd, foldl_nil] at he
  cases h
  exact ⟨find?_eq_none.2 fun p hp => any_eq_false.1 he p hp, rfl⟩

theorem findPosition_eq_ok {position : Position} :
    findPosition s pid = .ok position ↔ s.positionOf pid = some position :=
  orFail_eq_ok

end Upsert

section Single

variable {codec : PositionCodec} {s s' : WalletState} {d d' e : StateDelta} {key : TokenKey}
  {amount : U256} {pc : PositionChange}

theorem applyDelta_debit (h : applyDelta codec s e = .ok s') (hd : d.tokenChanges = [])
    (hde : debit s d key amount = .ok d') (hto : e.tokenChanges = d'.tokenChanges)
    (hp : e.positionChanges = [pc]) (hg : e.gasPaid = none) (hf : (s.held key : Int) < ceiling) :
    Moved s s' key (-amount.val) ∧ changePositions codec s.positions pc = .ok s'.positions := by
  have ht : d.tokenChanges.foldlM applyTokenChange s = .ok s := by
    rw [hd]
    rfl
  obtain ⟨x, y, hx, hy, hl, rfl⟩ := (debit_eq_ok ht).1 hde
  obtain rfl : x = y := Balance.fungible.inj (Option.some.inj (hx.symm.trans hy))
  rw [StateDelta.pushToken, hd, nil_append] at hto
  obtain ⟨z, hz, hm, hps⟩ := applyDelta_move hto hp hg hx h
  rw [held_eq hx] at hf
  have hn : (-u256ToSignedSaturating amount).val = -amount.val := by
    rw [val_neg_toSigned]
    omega
  have he := addSigned_exact hz (by omega) (by omega)
  rw [hn] at he
  rw [he] at hm
  refine ⟨?_, hps⟩
  rwa [show (x.val + -amount.val - x.val : Int) = -amount.val by omega] at hm

theorem applyDelta_credit (h : applyDelta codec s e = .ok s') (hd : d.tokenChanges = [])
    (hc : credit s d key amount = .ok d') (ht : e.tokenChanges = d'.tokenChanges)
    (hp : e.positionChanges = [pc]) (hg : e.gasPaid = none)
    (hf : (s.held key : Int) + amount.val ≤ ceiling) :
    Moved s s' key amount.val ∧ changePositions codec s.positions pc = .ok s'.positions := by
  obtain ⟨x, hx, rfl⟩ := credit_eq_ok.1 hc
  rw [StateDelta.pushToken, hd, nil_append] at ht
  obtain ⟨z, hz, hm, hps⟩ := applyDelta_move ht hp hg hx h
  have hv := val_toSigned amount
  rw [held_eq hx] at hf
  have he := addSigned_exact hz (by omega) (by omega)
  rw [he, hv, min_eq_left (by omega)] at hm
  refine ⟨?_, hps⟩
  rwa [show (x.val + amount.val - x.val : Int) = amount.val by omega] at hm

end Single

end Dambi.Asset
