import Dambi.Asset.Delta

/-!
# Amount facts of the policy server

`methods.rs`: the facts about a wallet's balance that the server serves to policies.
`tokens` are the holdings of the wallet in the order of their keys. Sums and products
saturate at `2 ^ 256 - 1`.
-/

namespace Dambi.Server

open FixedWidth Asset Unsigned

/-! ## Parameters -/

/-- `char::to_digit(16)` and `_`, as `U256::from_str_radix` reads them. -/
def hexDigit (c : Char) : Option Nat :=
  if '0' ≤ c ∧ c ≤ '9' then some (c.toNat - 48)
  else if 'a' ≤ c ∧ c ≤ 'f' then some (c.toNat - 87)
  else if 'A' ≤ c ∧ c ≤ 'F' then some (c.toNat - 55)
  else none

def hexValue (digits : List Nat) : Nat := digits.foldl (fun n d => 16 * n + d) 0

/-- `U256::from_str_radix(s, 16)`. -/
def fromHex (s : List Char) : Option Asset.U256 :=
  ((s.filter (· ≠ '_')).mapM hexDigit).bind fun digits => Unsigned.ofNat? (hexValue digits)

/-- `s.trim_start_matches("0x")`. -/
def trimHexPrefix : List Char → List Char
  | '0' :: 'x' :: s => trimHexPrefix s
  | s => s

def parseHexU256 (v : Json) : Option Asset.U256 :=
  v.asStr.bind fun s => fromHex (trimHexPrefix s.toList)

section

variable (toLowercase : String → String)

def assetHex (v : Json) : Option String :=
  match v with
  | .str s => some (toLowercase s)
  | .obj _ => ((v.get? "address").bind Json.asStr).map toLowercase
  | _ => none

def tokenParamAddress (v : Json) : Option String :=
  (assetHex toLowercase v).or
    (((v.get? "key").bind (·.get? "address")).bind (assetHex toLowercase))

/-- What a method is asked about. -/
structure AmountRequest where
  chain : String
  asset : String
  amount : Asset.U256
deriving DecidableEq

/-- The parameters of `intent.pending_cap_over_balance`. -/
def capRequest (params : Json) : Option AmountRequest := do
  let chain ← (params.get? "chain_id").bind Json.asStr
  let action ← params.get? "action"
  let asset ← (((action.get? "sell").bind (·.get? "key")).bind (·.get? "address")).bind
    (assetHex toLowercase)
  let amount ← (action.get? "sellAmount").bind parseHexU256
  return ⟨chain, asset, amount⟩

/-- The parameters of `portfolio.input_fraction_bps`. -/
def fractionRequest (params : Json) : Option AmountRequest := do
  let chain ← (params.get? "chain_id").bind Json.asStr
  let asset ← (params.get? "asset").bind (tokenParamAddress toLowercase)
  let amount ← (params.get? "amount").bind parseHexU256
  return ⟨chain, asset, amount⟩

end

namespace AmountRequest

variable (r : AmountRequest) (tokens : List TokenHolding)

def matchesKey (k : TokenKey) : Bool :=
  k.chain.text = r.chain && k.contract.map lowercaseHex = some r.asset

/-- The first matching holding with a fungible balance. -/
def balance : Option Asset.U256 :=
  tokens.findSome? fun h => if r.matchesKey h.key then h.balance.asFungible else none

/-- What an open order may still sell of the asset. -/
def openCap (p : PendingTx) : Option Asset.U256 :=
  match p.kind, p.commitment, p.lifecycle.status with
  | .offchainLimitOrder .., .permitCap token _ maxOut, .active
  | .offchainLimitOrder .., .permitCap token _ maxOut, .partiallyFilled =>
    if r.matchesKey token.key then some maxOut else none
  | _, _, _ => none

end AmountRequest

/-! ## The facts -/

def capSum (caps : List Asset.U256) : Asset.U256 := caps.foldl Unsigned.saturatingAdd 0

def overBalance (caps : List Asset.U256) (amount balance : Asset.U256) : Bool :=
  balance < (capSum caps).saturatingAdd amount

variable (toLowercase : String → String) (tokens : List TokenHolding)

def pendingCapOverBalance
    (pending : List PendingTx) (params : Json) : Option Bool := do
  let r ← capRequest toLowercase params
  let balance ← r.balance tokens
  return overBalance (pending.filterMap r.openCap) r.amount balance

/-- `bps.to_string().parse::<i64>().unwrap_or(i64::MAX)`. -/
def toLong (bps : Asset.U256) : Nat := if bps.val < 2 ^ 63 then bps.val else 2 ^ 63 - 1

def fractionBps (amount balance : Asset.U256) : Option Nat :=
  ((amount.saturatingMul (.ofNat 10000)).checkedDiv balance).map toLong

def inputFractionBps
    (params : Json) : Option Nat := do
  let r ← fractionRequest toLowercase params
  let balance ← r.balance tokens
  if balance = 0 then none else fractionBps r.amount balance

/-! ## What they compute -/

theorem val_capSum (cs : List Asset.U256) :
    (capSum cs).val = min (cs.map (·.val)).sum (2 ^ 256 - 1) := by
  have hl : ∀ start : Asset.U256, (cs.foldl Unsigned.saturatingAdd start).val =
      min (start.val + (cs.map (·.val)).sum) (2 ^ 256 - 1) := by
    induction cs with
    | nil =>
      intro start
      have := start.isLt
      simp
      omega
    | cons cap cs ih =>
      intro start
      rw [List.foldl_cons, ih, Unsigned.val_saturatingAdd, List.map_cons, List.sum_cons]
      omega
  simpa [capSum] using hl 0

variable {a balance : Asset.U256}

theorem overBalance_iff {cs : List Asset.U256} :
    overBalance cs a balance = true ↔
      balance.val < min ((cs.map (·.val)).sum + a.val) (2 ^ 256 - 1) := by
  rw [overBalance, decide_eq_true_iff, lt_iff, Unsigned.val_saturatingAdd, val_capSum]
  omega

theorem fractionBps_eq (h : balance.val ≠ 0) :
    fractionBps a balance =
      some (min (2 ^ 63 - 1) (min (10000 * a.val) (2 ^ 256 - 1) / balance.val)) := by
  have ht : (ofNat 10000 : Asset.U256).val = 10000 := val_ofNat (by decide)
  rw [fractionBps, checkedDiv, if_neg h, Option.map_some, toLong]
  simp only [saturatingMul, val_saturate, ht, Nat.mul_comm a.val]
  split <;> congr 1 <;> omega

theorem balance_ne_zero {bps : Nat} (h : fractionBps a balance = some bps) : balance.val ≠ 0 := by
  intro hz
  simp [fractionBps, checkedDiv, hz] at h

/-- Where a saturated dividend does not show in the quotient. -/
theorem quotient_exact_iff {b x : Nat} (hb : 0 < b) :
    min (2 ^ 63 - 1) (min x (2 ^ 256 - 1) / b) = min (2 ^ 63 - 1) (x / b) ↔
      x < ((2 ^ 256 - 1) / b + 1) * b ∨ (2 ^ 63 - 1) * b ≤ 2 ^ 256 - 1 := by
  rw [← Nat.div_lt_iff_lt_mul hb, ← Nat.le_div_iff_mul_le hb, Nat.lt_succ_iff]
  rcases le_total x (2 ^ 256 - 1) with hx | hx
  · have := Nat.div_le_div_right (c := b) hx
    rw [min_eq_left hx]
    exact iff_of_true rfl (.inl this)
  · have := Nat.div_le_div_right (c := b) hx
    rw [min_eq_right hx]
    omega

section

variable {toLowercase : String → String} {tokens : List TokenHolding} {pending : List PendingTx}
  {params : Json} {r : AmountRequest} {balance : Asset.U256}

theorem pendingCapOverBalance_eq (hr : capRequest toLowercase params = some r)
    (hb : r.balance tokens = some balance) :
    pendingCapOverBalance toLowercase tokens pending params =
      some (overBalance (pending.filterMap r.openCap) r.amount balance) := by
  simp [pendingCapOverBalance, hr, hb]

theorem inputFractionBps_eq (hr : fractionRequest toLowercase params = some r)
    (hb : r.balance tokens = some balance) :
    inputFractionBps toLowercase tokens params = fractionBps r.amount balance := by
  by_cases hz : balance = 0
  · simp [inputFractionBps, hr, hb, hz, fractionBps, checkedDiv]
  · simp [inputFractionBps, hr, hb, hz]

end

/-- The facts are those of the integers: the sum exceeds the balance, and the fraction is the
quotient, cut off at the largest `Long`. -/
structure FactsExact (toLowercase : String → String) (tokens : List TokenHolding)
    (pending : List PendingTx) (capParams fractionParams : Json) : Prop where
  cap : ∀ r balance, capRequest toLowercase capParams = some r → r.balance tokens = some balance →
    ∀ exceeds, pendingCapOverBalance toLowercase tokens pending capParams = some exceeds →
      (exceeds = true ↔
        balance.val < ((pending.filterMap r.openCap).map (·.val)).sum + r.amount.val)
  fraction : ∀ r balance, fractionRequest toLowercase fractionParams = some r →
    r.balance tokens = some balance →
    ∀ bps, inputFractionBps toLowercase tokens fractionParams = some bps →
      bps = min (2 ^ 63 - 1) (10000 * r.amount.val / balance.val)

/-- Both facts grow with the amount and fall with the balance. They are exact if the balance
is below `2 ^ 256 - 1` or the sum fits, and if ten thousand times the amount does not reach the
next multiple of the balance beyond `2 ^ 256 - 1`, or the fraction is beyond a `Long` anyway. -/
theorem amount_facts_iff (toLowercase : String → String) (tokens : List TokenHolding)
    (pending : List PendingTx) (capParams fractionParams : Json) :
    (∀ caps a a' b b', a ≤ a' → b' ≤ b → overBalance caps a b = true →
      overBalance caps a' b' = true) ∧
    (∀ a a' b b' n n', a ≤ a' → b' ≤ b → fractionBps a b = some n → fractionBps a' b' = some n' →
      n ≤ n') ∧
    (FactsExact toLowercase tokens pending capParams fractionParams ↔
      (∀ r balance, capRequest toLowercase capParams = some r → r.balance tokens = some balance →
        balance.val < 2 ^ 256 - 1 ∨
          ((pending.filterMap r.openCap).map (·.val)).sum + r.amount.val < 2 ^ 256) ∧
      (∀ r balance, fractionRequest toLowercase fractionParams = some r →
        r.balance tokens = some balance → 0 < balance.val →
        10000 * r.amount.val < ((2 ^ 256 - 1) / balance.val + 1) * balance.val ∨
          (2 ^ 63 - 1) * balance.val ≤ 2 ^ 256 - 1)) := by
  refine ⟨?_, ?_, ?_⟩
  · intro caps a a' b b' ha hb h
    rw [overBalance_iff] at h ⊢
    rw [Unsigned.le_iff] at ha hb
    omega
  · intro a a' b b' n n' ha hb hn hn'
    rw [fractionBps_eq (balance_ne_zero hn), Option.some_inj] at hn
    have hb' := balance_ne_zero hn'
    rw [fractionBps_eq hb', Option.some_inj] at hn'
    rw [Unsigned.le_iff] at ha hb
    have hd : min (10000 * a.val) (2 ^ 256 - 1) ≤ min (10000 * a'.val) (2 ^ 256 - 1) := by
      omega
    have := Nat.div_le_div hd hb hb'
    omega
  · constructor
    · rintro ⟨hc, hf⟩
      refine ⟨fun r balance hr hba => ?_, fun r balance hr hba hp => ?_⟩
      · have h := hc r balance hr hba _ (pendingCapOverBalance_eq hr hba)
        rw [overBalance_iff] at h
        have := balance.isLt
        omega
      · have heq := (inputFractionBps_eq hr hba).trans (fractionBps_eq hp.ne')
        exact (quotient_exact_iff hp).1 (hf r balance hr hba _ heq)
    · rintro ⟨hc, hf⟩
      refine ⟨fun r balance hr hba exceeds ho => ?_, fun r balance hr hba bps hbp => ?_⟩
      · have hfi := hc r balance hr hba
        rw [pendingCapOverBalance_eq hr hba, Option.some_inj] at ho
        rw [← ho, overBalance_iff]
        omega
      · rw [inputFractionBps_eq hr hba] at hbp
        have hp := Nat.pos_of_ne_zero (balance_ne_zero hbp)
        rw [fractionBps_eq hp.ne', Option.some_inj] at hbp
        rw [← hbp]
        exact (quotient_exact_iff hp).2 (hf r balance hr hba hp)

/-- A wallet that holds `2 ^ 243` units of a token. -/
def hugeHolding : TokenHolding :=
  { mintStubHolding (.erc20 ⟨"eip155:1"⟩ 0) .unknown with balance := .fungible (.ofNat (2 ^ 243)) }

/-- A transfer of `2 ^ 244` units. -/
def hugeTransfer : Json :=
  .obj [("amount", .str ("0x1" ++ "".pushn '0' 61)), ("asset", .str (lowercaseHex 0)),
    ("chain_id", .str "eip155:1")]

/-- Twice the held balance reads as eight tenths of it. -/
theorem fraction_understated : ¬ FactsExact id [hugeHolding] [] .null hugeTransfer := by
  intro h
  have hb := h.fraction ⟨"eip155:1", lowercaseHex 0, .ofNat (2 ^ 244)⟩ (.ofNat (2 ^ 243))
    (by decide +kernel) (by decide +kernel) 8191 (by decide +kernel)
  exact absurd hb (by decide +kernel)

end Dambi.Server
