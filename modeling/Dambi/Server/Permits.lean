import Dambi.Asset.State
import Dambi.Lib.BigEndian

/-!
# Reconciliation of signed permits

`Orchestrator::reconcile_permits` retires the signed permits of a wallet that have expired
or that the chain reports as consumed. The entries to retire are found one by one, and
then every entry with the id of one of them is removed.
-/

namespace Dambi.Server

open FixedWidth Asset List

/-! ## The checks -/

/-- `SyncError::FetchFailed`, as it is shown. -/
def fetchFailed (sourceId reason : String) : String :=
  s!"fetch failed: source_id={sourceId}, reason={reason}"

/-- What the node answers to the call made for the entry of the given number. -/
abbrev Router := Nat → ChainId → Asset.Address → List UInt8 → Except String (List UInt8)

def permit2Contract : Asset.Address := ⟨0x22d473030f116ddee9f6b43ac78ba3, by decide⟩

def encodeNonceBitmap (owner : Asset.Address) (word : Asset.U256) : List UInt8 :=
  [0x4f, 0xe0, 0x2b, 0x44] ++ List.replicate 12 0 ++ BigEndian.bytes 20 owner.val ++
    BigEndian.bytes 32 word.val

def encodeNonces (owner : Asset.Address) : List UInt8 :=
  [0x7e, 0xce, 0xbe, 0x00] ++ List.replicate 12 0 ++ BigEndian.bytes 20 owner.val

def decodeU256Be (returnData : List UInt8) : Option Nat :=
  if returnData.length < 32 then none else some (BigEndian.value (returnData.take 32))

def bitmapBitIsSet (bitmap : Nat) (bit : Unsigned 8) : Bool :=
  ((BigEndian.bytes 32 bitmap).getD (31 - bit.val / 8) 0).toNat.testBit (bit.val % 8)

variable (router : Option Router) (index : Nat)

def readWord (sourceId view : String) (chain : ChainId)
    (contract : Asset.Address) (calldata : List UInt8) : Except String Nat :=
  match router with
  | none => .error (fetchFailed sourceId "no RpcRouter configured")
  | some ethCall => do
    let returnData ← ethCall index chain contract calldata
    match decodeU256Be returnData with
    | some n => .ok n
    | none => .error (fetchFailed sourceId s!"short {view} return ({returnData.length} bytes)")

def permit2NonceConsumed (chain : ChainId)
    (owner : Asset.Address) (word : Asset.U256) (bit : Unsigned 8) : Except String Bool :=
  (readWord router index "permit2_nonce_bitmap" "nonceBitmap" chain permit2Contract
    (encodeNonceBitmap owner word)).map (bitmapBitIsSet · bit)

def eip2612NonceConsumed (chain : ChainId)
    (token owner : Asset.Address) (signedNonce : Asset.U256) : Except String Bool :=
  (readWord router index "eip2612_nonces" "nonces" chain token (encodeNonces owner)).map
    (decide <| signedNonce.val < ·)

def isSignedPermitKind : PendingKind → Bool
  | .signedEip2612 .. | .signedPermit2 .. | .signedPermit2Transfer .. => true
  | _ => false

def permitIsExpired (validUntil : Option Time) (now : Time) : Bool :=
  validUntil.any (·.val < now.val)

/-- The chain's word on a permit, where it is asked, under the name of the read. -/
def consumedCheck (owner : Asset.Address) :
    PendingKind → Option (String × Except String Bool)
  | .signedPermit2Transfer token _ _ _ _ (word, bit) _ => some ("permit2 nonce-bitmap",
      permit2NonceConsumed router index token.key.chain owner word bit)
  | .signedEip2612 ⟨.erc20 chain address⟩ _ _ _ nonce => some ("eip2612 nonces",
      eip2612NonceConsumed router index chain address owner nonce)
  | _ => none

/-! ## Removal by key -/

section Unmatched

variable {α κ : Type} [DecidableEq κ] (key : α → κ) (p : α → Bool) (l : List α)

/-- The elements whose key is not that of an element with `p`. -/
def unmatched : List α := l.filter fun x => !((l.filter p).map key).contains (key x)

theorem contains_matched {y : α} :
    ((l.filter p).map key).contains (key y) = true ↔ ∃ x ∈ l, p x = true ∧ key x = key y := by
  simp [and_assoc]

theorem unmatched_sublist : (unmatched key p l).Sublist (l.filter (!p ·)) := by
  have hs : unmatched key p l = (l.filter (!p ·)).filter fun x =>
      !((l.filter p).map key).contains (key x) := by
    rw [filter_filter, unmatched]
    refine filter_congr fun y hy => ?_
    rcases hp : p y
    · simp
    · rw [(contains_matched key p l).2 ⟨y, hy, hp, rfl⟩]
      rfl
  rw [hs]
  exact filter_sublist

theorem unmatched_eq_iff : unmatched key p l = l.filter (!p ·) ↔
    ∀ x ∈ l, ∀ y ∈ l, p x = true → key y = key x → p y = true := by
  constructor
  · intro h x hx y hy hp hk
    by_contra hn
    have hm : y ∈ unmatched key p l := h ▸ mem_filter.2 ⟨hy, by simpa using hn⟩
    rw [unmatched, mem_filter, (contains_matched key p l).2 ⟨x, hx, hp, hk.symm⟩] at hm
    cases hm.2
  · intro h
    refine filter_congr fun y hy => congrArg _ (Bool.eq_iff_iff.2 ?_)
    rw [contains_matched]
    constructor
    · rintro ⟨x, hx, hp, hk⟩
      exact h x hx y hy hp hk.symm
    · intro hp
      exact ⟨y, hy, hp, rfl⟩

end Unmatched

/-! ## The walk -/

structure PermitReconcileReport where
  permitsRetired : Nat := 0
  errors : List String := []

section Walk

variable (router : Option Router) (owner : Asset.Address) (now : Time)
  (acc : PermitReconcileReport × List PendingId)

variable (entry : PendingTx × Nat)

/-- One turn of the loop, on the report and the ids to prune. -/
def reconcileEntry :
    PermitReconcileReport × List PendingId :=
  let retired := ({ acc.1 with permitsRetired := acc.1.permitsRetired + 1 },
    acc.2 ++ [entry.1.id])
  if !isSignedPermitKind entry.1.kind then acc
  else if permitIsExpired entry.1.lifecycle.validUntil now then retired
  else match consumedCheck router entry.2 owner entry.1.kind with
  | none => acc
  | some (_, .ok consumed) => if consumed then retired else acc
  | some (read, .error e) =>
    ({ acc.1 with errors := acc.1.errors ++ [s!"{read} read for {entry.1.id}: {e}"] }, acc.2)

def reconcilePermits (state : WalletState) : PermitReconcileReport × WalletState :=
  let walked := state.pending.zipIdx.foldl
    (reconcileEntry router state.walletId.address now) ({}, [])
  (walked.1, if walked.2.isEmpty then state
    else { state with pending := state.pending.filter fun p => !walked.2.contains p.id })

/-- The permit has expired, or the chain reports it as consumed. -/
def retires : Bool :=
  isSignedPermitKind entry.1.kind &&
    (permitIsExpired entry.1.lifecycle.validUntil now ||
      (consumedCheck router entry.2 owner entry.1.kind).any (·.2.toOption = some true))

/-- The retired permits are removed and counted, and nothing else happens to the wallet. -/
structure PermitsFramed (state : WalletState) : Prop where
  removed : (reconcilePermits router now state).2 =
    { state with pending := (state.pending.zipIdx.filter
        (!retires router state.walletId.address now ·)).map Prod.fst }
  counted : (reconcilePermits router now state).1.permitsRetired +
    (reconcilePermits router now state).2.pending.length = state.pending.length

theorem reconcileEntry_eq :
    (reconcileEntry router owner now acc entry).1.permitsRetired =
      acc.1.permitsRetired + (if retires router owner now entry then 1 else 0) ∧
    (reconcileEntry router owner now acc entry).2 =
      acc.2 ++ if retires router owner now entry then [entry.1.id] else [] := by
  unfold reconcileEntry retires
  cases isSignedPermitKind entry.1.kind with
  | false => simp
  | true =>
    cases permitIsExpired entry.1.lifecycle.validUntil now with
    | true => simp
    | false =>
      cases consumedCheck router entry.2 owner entry.1.kind with
      | none => simp
      | some ch =>
        obtain ⟨read, answer⟩ := ch
        cases answer with
        | error e => simp [Except.toOption]
        | ok c => cases c <;> simp [Except.toOption]

theorem foldl_reconcileEntry (entries : List (PendingTx × Nat))
    (acc : PermitReconcileReport × List PendingId) :
    (entries.foldl (reconcileEntry router owner now) acc).1.permitsRetired =
      acc.1.permitsRetired + entries.countP (retires router owner now) ∧
    (entries.foldl (reconcileEntry router owner now) acc).2 =
      acc.2 ++ (entries.filter (retires router owner now)).map (·.1.id) := by
  induction entries generalizing acc with
  | nil => simp
  | cons entry entries ih =>
    obtain ⟨hr, hp⟩ := reconcileEntry_eq router owner now acc entry
    rw [foldl_cons, (ih _).1, (ih _).2, hr, hp]
    by_cases h : retires router owner now entry <;>
      simp [h, Nat.add_assoc, Nat.add_comm]

theorem reconcilePermits_eq (s : WalletState) :
    (reconcilePermits router now s).1.permitsRetired =
      s.pending.zipIdx.countP (retires router s.walletId.address now) ∧
    (reconcilePermits router now s).2 = { s with
      pending := (unmatched (·.1.id) (retires router s.walletId.address now)
        s.pending.zipIdx).map Prod.fst } := by
  obtain ⟨hr, hp⟩ := foldl_reconcileEntry router s.walletId.address now s.pending.zipIdx
    ({}, [])
  refine ⟨by simpa [reconcilePermits] using hr, ?_⟩
  have hz (f : PendingTx → Bool) : s.pending.filter f =
      (s.pending.zipIdx.filter (f ·.1)).map Prod.fst := by
    conv_lhs => rw [← zipIdx_map_fst 0 s.pending, filter_map]
    rfl
  simp only [reconcilePermits, hp, nil_append]
  split
  · next he =>
    rw [unmatched, List.isEmpty_iff.1 he]
    simp
  · rw [hz, unmatched]

/-- Exactly the retired permits are removed, unless another entry has the id of one. -/
theorem permits_framed_iff (state : WalletState) :
    PermitsFramed router now state ↔
      ∀ p ∈ state.pending.zipIdx, ∀ q ∈ state.pending.zipIdx,
        retires router state.walletId.address now p = true → q.1.id = p.1.id →
          retires router state.walletId.address now q = true := by
  obtain ⟨hr, hp⟩ := reconcilePermits_eq router now state
  rw [← unmatched_eq_iff (fun e : PendingTx × Nat => e.1.id)]
  constructor
  · intro h
    have hl := congrArg (fun s : WalletState => s.pending.length) (hp.symm.trans h.removed)
    exact (unmatched_sublist _ _ _).eq_of_length (by simpa using hl)
  · intro h
    refine ⟨by rw [hp, h], ?_⟩
    rw [hr, hp, h]
    simpa [← countP_eq_length_filter] using (length_eq_countP_add_countP
      (retires router state.walletId.address now) (l := state.pending.zipIdx)).symm

end Walk

/-- A permit for a token of the given chain. -/
def samplePermit (chain : String) (deadline : Time) : PendingTx where
  id := "eip2612:0x7:0x8:0" -- as for every chain: token, spender and nonce
  kind := .signedEip2612 ⟨.erc20 ⟨chain⟩ 7⟩ 8 100 deadline 0
  commitment := .permitCap ⟨.erc20 ⟨chain⟩ 7⟩ 8 100
  fillEffect := .new
  lifecycle := ⟨.active, some deadline, none, none, none⟩
  sync := .userSupplied
  signedAt := 0
  signaturePayload := []

def twoPermits : WalletState :=
  { WalletState.new ⟨9, ∅⟩ with
    pending := [samplePermit "eip155:1" 10, samplePermit "eip155:10" 100] }

/-- The permit of one chain has expired, and that of the other chain is removed with it. -/
theorem live_permit_removed :
    retires none 9 50 (samplePermit "eip155:10" 100, 1) = false ∧
      (reconcilePermits none 50 twoPermits).1.permitsRetired = 1 ∧
      (reconcilePermits none 50 twoPermits).2.pending = [] ∧
      ¬ PermitsFramed none 50 twoPermits := by
  have hp : (reconcilePermits none 50 twoPermits).2.pending = [] := rfl
  have hr : (reconcilePermits none 50 twoPermits).1.permitsRetired = 1 := rfl
  refine ⟨rfl, hr, hp, ?_⟩
  intro h
  have hc := h.counted
  rw [hr, hp] at hc
  cases hc

end Dambi.Server
