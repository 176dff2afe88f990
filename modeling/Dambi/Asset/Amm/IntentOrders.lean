import Dambi.Asset.Apply
import Dambi.Lib.Digits
import Dambi.Lib.Separator

/-!
# Names of intent orders

A signed order is kept under a text that is made of some of its terms, and a
cancellation looks for the hash of the order. The text is read back into those
terms, so it tells orders apart by them and by nothing else, and a cancellation
finds the order only under the text.
-/

namespace Dambi.Asset

open FixedWidth Fallible List SignIntentOrderAction Digits

/-! ## The text -/

theorem lowercaseHex_injective : Function.Injective lowercaseHex := by
  intro a b h
  have hd := congrArg (fun s => Digits.value 16 (s.toList.drop 2)) h
  simp only [lowercaseHex, String.toList_append, String.toList_ofList] at hd
  change Digits.value 16 ([] ++ _) = Digits.value 16 ([] ++ _) at hd
  rw [nil_append, nil_append, value_zeros, value_zeros, value_toDigits (by decide) (by decide),
    value_toDigits (by decide) (by decide)] at hd
  exact Unsigned.ext hd

theorem colon_ne_digitChar {d : Nat} (h : d < 16) : ':' ≠ Nat.digitChar d := by
  revert d
  decide

theorem colon_not_mem_lowercaseHex (ad : Address) : ':' ∉ (lowercaseHex ad).toList := by
  intro hm
  simp only [lowercaseHex, String.toList_append, String.toList_ofList, mem_append] at hm
  rcases hm with h | h | h
  · exact absurd h (show ':' ∉ "0x".toList by decide)
  · exact absurd (eq_of_mem_replicate h) (show ':' ≠ '0' by decide)
  · obtain ⟨d, hd, hc⟩ := exists_of_mem_toDigits (by decide) h
    exact colon_ne_digitChar hd hc

theorem colon_not_mem_contractHex (key : TokenKey) : ':' ∉ (contractHex key).toList := by
  rw [contractHex]
  cases key.contract with
  | none => decide
  | some ad => exact colon_not_mem_lowercaseHex ad

theorem contractHex_inj {key key' : TokenKey} :
    contractHex key = contractHex key' ↔ key.contract = key'.contract := by
  have hn (addr : Address) : "native" ≠ lowercaseHex addr := by
    intro h
    have hf := congrArg (fun s => s.toList.head?) h
    simp only [lowercaseHex, String.toList_append] at hf
    exact absurd hf (show some 'n' ≠ some '0' by decide)
  rw [contractHex, contractHex]
  cases key.contract with
  | none =>
    cases key'.contract with
    | none => exact iff_of_true rfl rfl
    | some addr => exact iff_of_false (hn addr) (by simp)
  | some addr =>
    cases key'.contract with
    | none => exact iff_of_false (Ne.symm (hn addr)) (by simp)
    | some addr' => exact lowercaseHex_injective.eq_iff.trans (Option.some_inj.symm)

variable {w : Nat}

theorem colon_not_mem_toString (n : Unsigned w) : ':' ∉ (toString n).toList := by
  intro hm
  obtain ⟨d, hd, hc⟩ := exists_of_mem_toString hm
  exact colon_ne_digitChar (by omega) hc

theorem toString_unsigned_inj {m n : Unsigned w} : toString m = toString n ↔ m = n :=
  ⟨fun h => Unsigned.ext (toString_injective h), congrArg toString⟩

theorem colon_not_mem_venue (v : IntentVenue) : ':' ∉ (projectVenue v).1.name.toList := by
  cases v with
  | uniswapX _ _ => exact (show ':' ∉ "uniswap_x".toList by decide)
  | cowSwap _ _ => exact (show ':' ∉ "cow_swap".toList by decide)
  | oneInchFusion _ => exact (show ':' ∉ "one_inch_fusion".toList by decide)
  | bebop _ => exact (show ':' ∉ "bebop".toList by decide)
  | oneInchLimitOrder _ _ => exact (show ':' ∉ "one_inch_limit_order".toList by decide)

theorem pendingIdForIntent_toList (vn sh bh : String) (sa : U256) (validUntil : Time) :
    (pendingIdForIntent vn sh bh sa validUntil).toList =
      "intent:".toList ++ (vn.toList ++ ':' :: (sh.toList ++ ':' :: (bh.toList ++
        ':' :: ((toString sa).toList ++ ':' :: (toString validUntil).toList)))) := by
  have hc : ":".toList = [':'] := by decide
  change ("intent:" ++ vn ++ ":" ++ sh ++ ":" ++ bh ++ ":" ++ toString sa ++
    ":" ++ toString validUntil).toList = _
  simp

/-! ## Orders -/

section Orders

variable {a b : SignIntentOrderAction}

/-- The text that an order is kept under. -/
def SignIntentOrderAction.pendingId (a : SignIntentOrderAction) : PendingId :=
  pendingIdForIntent (projectVenue a.venue).1.name (contractHex a.sell.key) (contractHex a.buy.key)
    a.sellAmount a.validUntil

/-- What tells two orders apart: the chain and the contract of the venue, the tokens, the amounts
and the expiry. -/
def SignIntentOrderAction.terms (a : SignIntentOrderAction) :
    Option ChainId × Address × TokenKey × TokenKey × U256 × U256 × Time :=
  ((projectVenue a.venue).1.chain, (projectVenue a.venue).2, a.sell.key, a.buy.key, a.sellAmount,
    a.buyMin, a.validUntil)

/-- The terms that the text is made of. -/
def SignIntentOrderAction.named (a : SignIntentOrderAction) :
    String × Option Address × Option Address × U256 × Time :=
  ((projectVenue a.venue).1.name, a.sell.key.contract, a.buy.key.contract, a.sellAmount,
    a.validUntil)

/-- The text is read back into the terms that it is made of. -/
theorem pendingId_inj : a.pendingId = b.pendingId ↔ a.named = b.named := by
  constructor
  · intro h
    have hl := congrArg String.toList h
    rw [pendingId, pendingId,
      pendingIdForIntent_toList, pendingIdForIntent_toList, append_cancel_left_eq] at hl
    obtain ⟨hv, hl⟩ := Separator.append_cons_inj (colon_not_mem_venue _)
      (colon_not_mem_venue _) hl
    obtain ⟨hs, hl⟩ := Separator.append_cons_inj (colon_not_mem_contractHex _)
      (colon_not_mem_contractHex _) hl
    obtain ⟨hb, hl⟩ := Separator.append_cons_inj (colon_not_mem_contractHex _)
      (colon_not_mem_contractHex _) hl
    obtain ⟨ha, ht⟩ := Separator.append_cons_inj (colon_not_mem_toString _)
      (colon_not_mem_toString _) hl
    rw [String.toList_inj] at hv hs hb ha ht
    rw [SignIntentOrderAction.named, SignIntentOrderAction.named, hv, contractHex_inj.1 hs,
      contractHex_inj.1 hb, toString_unsigned_inj.1 ha, toString_unsigned_inj.1 ht]
  · intro h
    simp only [SignIntentOrderAction.named, Prod.mk.injEq] at h
    obtain ⟨hv, hs, hb, ha, ht⟩ := h
    rw [pendingId, pendingId, hv,
      contractHex_inj.2 hs, contractHex_inj.2 hb, ha, ht]

end Orders

/-! ## Signing and cancelling -/

section Cancelling

variable {codec : PositionCodec} {s s' : WalletState} {ctx : EvalContext}
  {a b : SignIntentOrderAction} {c : CancelIntentOrderAction}

/-- The order is signed, and then a cancellation is made. -/
def signThenCancel (codec : PositionCodec) (s : WalletState) (ctx : EvalContext)
    (a : SignIntentOrderAction) (c : CancelIntentOrderAction) : ReducerResult WalletState := do
  let signed ← applyDelta codec s (← a.apply ctx)
  applyDelta codec signed (← c.apply)

theorem applyDelta_pushPending {pc : PendingChange} :
    applyDelta codec s (StateDelta.new.pushPending pc) = .ok s' ↔
      ∃ pending, changePending s.pending pc = .ok pending ∧ s' = { s with pending := pending } := by
  rw [applyDelta_eq_ok]
  constructor
  · rintro ⟨t, ps, qs, ha, hps, hq, rfl⟩
    cases ha
    cases hps
    obtain ⟨pending, hp, hn⟩ := bind_eq_ok.1 hq
    cases hn
    exact ⟨_, hp, rfl⟩
  · rintro ⟨pending, hp, rfl⟩
    exact ⟨s, s.positions, pending, rfl, rfl, bind_eq_ok.2 ⟨pending, hp, rfl⟩, rfl⟩

/-- The order is gone again exactly if the cancellation names it by its text. -/
theorem signThenCancel_iff (hab : ∀ tx ∈ s.pending, tx.id ≠ a.pendingId) :
    (∃ s', signThenCancel codec s ctx a c = .ok s' ∧ s'.pending = s.pending) ↔
      c.orderHash = a.pendingId := by
  obtain ⟨tx, hi, hsi⟩ : ∃ tx, tx.id = a.pendingId ∧
      a.apply ctx = .ok (StateDelta.new.pushPending (.add tx)) := ⟨_, rfl, rfl⟩
  have ha : applyDelta codec s (StateDelta.new.pushPending (.add tx)) =
      .ok { s with pending := s.pending ++ [tx] } := applyDelta_pushPending.2 ⟨_, rfl, rfl⟩
  have hr : signThenCancel codec s ctx a c = applyDelta codec
      { s with pending := s.pending ++ [tx] }
      (StateDelta.new.pushPending (.remove c.orderHash .cancelled)) := by
    rw [signThenCancel, hsi, ok_bind, ha, ok_bind]
    rfl
  simp only [hr, applyDelta_pushPending, changePending, removeAll]
  constructor
  · rintro ⟨_, ⟨pending, hp, rfl⟩, hs⟩
    split at hp
    · cases hp
    · cases hp
      by_contra hne
      have hk : tx ∈ (s.pending ++ [tx]).filter fun tx => !decide (tx.id = c.orderHash) := by
        simp [hi, Ne.symm hne]
      exact hab tx (hs ▸ hk) hi
  · intro hh
    have hf : ((s.pending ++ [tx]).filter fun tx => !decide (tx.id = c.orderHash)) =
        s.pending := by
      rw [filter_append, filter_eq_self.2 (by simpa [hh] using hab)]
      simp [hi, hh]
    refine ⟨s, ⟨s.pending, ?_, rfl⟩, rfl⟩
    rw [hf, if_neg (by simp)]

/-- Orders with different terms have different texts exactly if they differ in a term that the
text is made of, and a cancellation releases an order exactly if it names the text. -/
theorem intent_orders_iff (habsent : ∀ tx ∈ s.pending, tx.id ≠ a.pendingId) :
    ((a.terms ≠ b.terms → a.pendingId ≠ b.pendingId) ↔ (a.terms ≠ b.terms → a.named ≠ b.named)) ∧
      ((∃ s', signThenCancel codec s ctx a c = .ok s' ∧ s'.pending = s.pending) ↔
        c.orderHash = a.pendingId) :=
  ⟨imp_congr_right fun _ => not_congr pendingId_inj, signThenCancel_iff habsent⟩

end Cancelling

/-! ## Two orders -/

/-- An order for ether, on a chain and with a minimum. -/
def etherOrder (chain : ChainId) (buyMin : U256) : SignIntentOrderAction where
  venue := .cowSwap chain 0x9008d19f58aabd9ed0d60971565aa8510560ab41
  sell := ⟨usdc⟩
  buy := ⟨ether⟩
  sellAmount := 1000
  buyMin := buyMin
  orderKind := .limit
  recipient := 0
  validUntil := 100

theorem intent_orders_iff_named :
    (etherOrder ⟨"eip155:1"⟩ 5).pendingId ≠
        { etherOrder ⟨"eip155:1"⟩ 5 with sellAmount := 2000 }.pendingId ∧
      ∃ s', signThenCancel .numbered (walletHolding usdc 1000) sampleContext
        (etherOrder ⟨"eip155:1"⟩ 5)
        ⟨.bebop ⟨"eip155:1"⟩, (etherOrder ⟨"eip155:1"⟩ 5).pendingId, none⟩ =
          .ok s' ∧ s'.pending = (walletHolding usdc 1000).pending := by
  obtain ⟨hi, hc⟩ := @intent_orders_iff .numbered (walletHolding usdc 1000) sampleContext
    (etherOrder ⟨"eip155:1"⟩ 5) { etherOrder ⟨"eip155:1"⟩ 5 with sellAmount := 2000 }
    ⟨.bebop ⟨"eip155:1"⟩, (etherOrder ⟨"eip155:1"⟩ 5).pendingId, none⟩
    fun tx ht => absurd ht not_mem_nil
  exact ⟨hi.2 (fun _ => by decide +kernel) (by decide +kernel), hc.2 rfl⟩

/-- Orders on two chains share a text, and the hash of an order does not release it. -/
theorem intent_orders_confused :
    (etherOrder ⟨"eip155:1"⟩ 5).terms ≠ (etherOrder ⟨"eip155:10"⟩ 7).terms ∧
      (etherOrder ⟨"eip155:1"⟩ 5).pendingId = (etherOrder ⟨"eip155:10"⟩ 7).pendingId ∧
      ¬ ∃ s', signThenCancel .numbered (walletHolding usdc 1000) sampleContext
        (etherOrder ⟨"eip155:1"⟩ 5) ⟨(etherOrder ⟨"eip155:1"⟩ 5).venue,
          "0xabababababababababababababababababababababababababababababababab", none⟩ = .ok s' ∧
          s'.pending = (walletHolding usdc 1000).pending := by
  refine ⟨by decide +kernel, pendingId_inj.2 (by decide +kernel), ?_⟩
  rw [signThenCancel_iff fun tx ht => absurd ht not_mem_nil]
  decide +kernel

end Dambi.Asset
