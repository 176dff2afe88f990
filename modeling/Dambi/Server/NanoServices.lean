import Dambi.Lowering.Nano
import Dambi.Server.AmountFacts

/-!
# The two services of `token.normalize_to_nano`

`normalize_to_nano` of the server (`handler.rs`) takes the decimals of a token from the price
book, the handler of the extension (`local-method-handlers.ts`) from the call. The server
reads every amount in base 16, and the extension as `BigInt` does.
-/

namespace Dambi.Server

open FixedWidth Lowering Unsigned

/-- `Number.MAX_SAFE_INTEGER`. -/
def maxSafe : Nat := 2 ^ 53 - 1

/-! ## The server -/

section

variable (toLowercase : String → String)

def assetAddress (v : Json) : Option String :=
  match v with
  | .str s => some (toLowercase s)
  | .obj _ => (((v.get? "address").or ((v.get? "key").bind (·.get? "address"))).bind
      Json.asStr).map toLowercase
  | _ => none

/-- The rescaled amount. No power of ten here is a multiple of `2 ^ 256`. -/
def nanoAmount (amount : Unsigned 256) (dec : Nat) : Option (Unsigned 256) :=
  if dec ≤ nanoScale then amount.checkedMul (tenPow (nanoScale - dec))
  else some (.ofNat (amount.val / (tenPow (dec - nanoScale)).val))

def normalizeToNano (decimals : String → String → Option (Unsigned 8)) (params : Json) :
    Option Nat := do
  let asset ← (params.get? "asset").bind (assetAddress toLowercase)
  let chain ← (params.get? "chain_id").bind Json.asStr
  let amount ← (params.get? "amount").bind parseHexU256
  let dec ← decimals chain asset
  let nano ← nanoAmount amount dec.val
  if maxSafe < nano.val then none
  -- `parse::<i64>`
  else if nano.val < 2 ^ 63 then some nano.val else none

end

/-! ## The extension -/

/-- `WhiteSpace` and `LineTerminator` of ECMAScript. -/
def isJsSpace (c : Char) : Bool :=
  c.toNat ∈ [9, 10, 11, 12, 13, 32, 0xA0, 0x1680, 0x2028, 0x2029, 0x202F, 0x205F, 0x3000, 0xFEFF] ||
    (0x2000 ≤ c.toNat && c.toNat ≤ 0x200A)

def readRadix (base : Nat) (s : List Char) : Option Nat :=
  if s = [] then none
  else (s.mapM fun c => (hexDigit c).filter (· < base)).map (·.foldl (fun n d => base * n + d) 0)

/-- `StringToBigInt`. -/
def bigInt (s : List Char) : Option Int :=
  match ((s.dropWhile isJsSpace).reverse.dropWhile isJsSpace).reverse with
  | [] => some 0
  | '0' :: 'x' :: digits | '0' :: 'X' :: digits => (readRadix 16 digits).map (↑)
  | '0' :: 'o' :: digits | '0' :: 'O' :: digits => (readRadix 8 digits).map (↑)
  | '0' :: 'b' :: digits | '0' :: 'B' :: digits => (readRadix 2 digits).map (↑)
  | '-' :: digits => (readRadix 10 digits).map (-↑·)
  | '+' :: digits => (readRadix 10 digits).map (↑)
  | digits => (readRadix 10 digits).map (↑)

/-- `DeferToRemoteError` and `LocalMethodError`. -/
inductive LocalFault where
  | defer
  | failed (code message : String)
deriving DecidableEq

section

variable (integral : UInt64 → Option Int)

/-- A number for which `Number.isInteger` holds. -/
def jsInteger : Json → Option Int
  | .int n => some n
  | .float bits => integral bits
  | _ => none

/-- The handler of `token.normalize_to_nano`. -/
def normalizeLocally (params : Json) : Except LocalFault Nat :=
  match params with
  | .obj _ | .arr _ =>
    match params.get? "amount" with
    | some (.str amount) =>
      match (params.get? "decimals").bind (jsInteger integral) with
      | none => .error .defer
      | some decimals =>
        if decimals < 0 ∨ 30 < decimals then
          .error (.failed "invalid_params" "decimals out of range (0–30)")
        else match bigInt amount.toList with
          | none => .error (.failed "invalid_params"
              s!"amount is not a valid integer string: {amount}")
          | some wei =>
            if wei < 0 then .error (.failed "invalid_params" "amount must be non-negative")
            else
              let nano := if 9 ≤ decimals then wei.toNat / 10 ^ (decimals.toNat - 9)
                else wei.toNat * 10 ^ (9 - decimals.toNat)
              if maxSafe < nano then .error (.failed "overflow"
                s!"rescaled value {nano} exceeds JS Number safe range — refine the threshold")
              else .ok nano
    | _ => .error (.failed "invalid_params"
        "amount must be a string (uint256 in token-native smallest unit)")
  | _ => .error (.failed "invalid_params" "params must be an object \x7b amount, decimals \x7d")

structure LocalCall where
  id : String
  method : String
  params : Json

inductive LocalRpcResult where
  | ok (id : String) (nano : Nat)
  | failed (id code message : String)
deriving DecidableEq

def tryHandleLocally (call : LocalCall) : Option LocalRpcResult :=
  if call.method = "token.normalize_to_nano" then
    match normalizeLocally integral call.params with
    | .ok nano => some (.ok call.id nano)
    | .error .defer => none
    | .error (.failed code message) => some (.failed call.id code message)
  else none

end

def LocalRpcResult.nano? : LocalRpcResult → Option Nat
  | .ok _ nano => some nano
  | .failed .. => none

/-! ## Where they agree -/

/-- A number that JavaScript holds exactly. -/
def safe (x : Nat) : Option Nat := if x ≤ maxSafe then some x else none

theorem safe_eq_none {x : Nat} : safe x = none ↔ 2 ^ 53 ≤ x := by
  rw [safe, maxSafe]
  split
  · exact iff_of_false nofun (by omega)
  · exact iff_of_true rfl (by omega)

variable {d : Nat}

theorem shift_up (n : Nat) (h : d ≤ 9) : n * 10 ^ 9 / 10 ^ d = n * 10 ^ (9 - d) := by
  have hp : (10 : Nat) ^ 9 = 10 ^ (9 - d) * 10 ^ d := by rw [← pow_add, Nat.sub_add_cancel h]
  rw [hp, ← Nat.mul_assoc, Nat.mul_div_cancel _ (Nat.pow_pos (by decide))]

theorem shift_down (n : Nat) (h : 9 ≤ d) : n * 10 ^ 9 / 10 ^ d = n / 10 ^ (d - 9) := by
  have hp : (10 : Nat) ^ d = 10 ^ (d - 9) * 10 ^ 9 := by rw [← pow_add, Nat.sub_add_cancel h]
  rw [hp, Nat.mul_div_mul_right _ _ (by decide)]

section

variable {toLowercase : String → String} {decimals : String → String → Option (Unsigned 8)}
  {integral : UInt64 → Option Int} {params : Json} {call : LocalCall} {amount : String}
  {d : Unsigned 8} {m : Unsigned 256} {n : Nat}

/-- The server has read its parameters and found the decimals. -/
structure Served (toLowercase : String → String)
    (decimals : String → String → Option (Unsigned 8)) (params : Json) (amount : String)
    (d : Unsigned 8) : Prop where
  amount : params.get? "amount" = some (.str amount)
  found : ∃ asset chain, (params.get? "asset").bind (assetAddress toLowercase) = some asset ∧
    (params.get? "chain_id").bind Json.asStr = some chain ∧ decimals chain asset = some d

/-- The extension is called with the amount and literal decimals. -/
structure Called (call : LocalCall) (amount : String) (d : Unsigned 8) : Prop where
  method : call.method = "token.normalize_to_nano"
  amount : call.params.get? "amount" = some (.str amount)
  decimals : call.params.get? "decimals" = some (.int d.val)

theorem normalizeToNano_eq (h : Served toLowercase decimals params amount d)
    (hm : fromHex (trimHexPrefix amount.toList) = some m) :
    normalizeToNano toLowercase decimals params =
      safe (if d.val ≤ 9 then m.val * 10 ^ (9 - d.val)
        else m.val / (10 ^ (d.val - 9) % 2 ^ 256)) := by
  obtain ⟨ham, a, chain, ha, hch, hd⟩ := h
  have hc : ∀ na : Unsigned 256, (if maxSafe < na.val then none
      else if na.val < 2 ^ 63 then some na.val else none) = safe na.val := by
    intro na
    unfold safe maxSafe
    split
    · rw [if_neg (by omega)]
    · rw [if_pos (by omega), if_pos (by omega)]
  simp only [normalizeToNano, ham, ha, hch, hd, parseHexU256, Json.asStr, hm,
    Option.bind_eq_bind, Option.bind_some, hc]
  by_cases hl : d.val ≤ nanoScale
  · rw [if_pos (show d.val ≤ 9 from hl), nanoAmount, if_pos hl, checkedMul,
      val_tenPow (Nat.le_trans (Nat.sub_le _ _) (by decide))]
    cases hf : (ofNat? (m.val * 10 ^ (9 - d.val)) : Option (Unsigned 256)) with
    | none =>
      have hw := ofNat?_eq_none.1 hf
      exact hf ▸ (safe_eq_none.2 (Nat.le_trans (by decide) hw)).symm
    | some na =>
      rw [← ofNat?_eq_some.1 hf]
      exact hf ▸ rfl
  · rw [if_neg (show ¬ d.val ≤ 9 from hl), nanoAmount, if_neg hl, Option.bind_some,
      val_ofNat ((Nat.div_le_self _ _).trans_lt m.isLt)]
    rfl

theorem nano?_tryHandleLocally (h : Called call amount d)
    (hn : bigInt amount.toList = some (n : Int)) :
    (tryHandleLocally integral call).bind LocalRpcResult.nano? =
      if d.val ≤ 30 then safe (n * 10 ^ 9 / 10 ^ d.val) else none := by
  obtain ⟨id, mt, params⟩ := call
  obtain ⟨hm, ha, hde⟩ := h
  cases params with
  | obj fs =>
    simp only at hm ha hde
    simp only [tryHandleLocally, hm, normalizeLocally, ha, hde, jsInteger, hn,
      Option.bind_some, if_true]
    have hnt : ¬ (n : Int) < 0 := by omega
    by_cases hd : d.val ≤ 30
    · have hr : ¬ ((d.val : Int) < 0 ∨ 30 < (d.val : Int)) := by omega
      have hna : (if 9 ≤ (d.val : Int) then n / 10 ^ (d.val - 9) else n * 10 ^ (9 - d.val)) =
          n * 10 ^ 9 / 10 ^ d.val := by
        split
        · rw [shift_down n (by omega)]
        · rw [shift_up n (by omega)]
      simp only [if_neg hr, if_neg hnt, Int.toNat_natCast, hna, if_pos hd, safe]
      generalize n * 10 ^ 9 / 10 ^ d.val = nano
      by_cases hs : nano ≤ maxSafe
      · rw [if_pos hs, if_neg (Nat.not_lt.2 hs)]
        rfl
      · rw [if_neg hs, if_pos (Nat.lt_of_not_le hs)]
        rfl
    · have hr : (d.val : Int) < 0 ∨ 30 < (d.val : Int) := by omega
      rw [if_pos hr, if_neg hd]
      rfl
  | _ => cases ha

/-- For an amount that both services accept, `n` for the extension and `m` in base 16, they agree
on the exact nano amount if the decimals are at most 30 and both readings come to the same
amount, or if they are more and the server finds the amount too large. -/
theorem nano_services_iff (hserved : Served toLowercase decimals params amount d)
    (hcalled : Called call amount d) (hm : fromHex (trimHexPrefix amount.toList) = some m)
    (hn : bigInt amount.toList = some (n : Int)) :
    (normalizeToNano toLowercase decimals params =
        (tryHandleLocally integral call).bind LocalRpcResult.nano? ∧
      ∀ nano, normalizeToNano toLowercase decimals params = some nano →
        nano = n * 10 ^ 9 / 10 ^ d.val) ↔
      d.val ≤ 30 ∧ safe (m.val * 10 ^ 9 / 10 ^ d.val) = safe (n * 10 ^ 9 / 10 ^ d.val) ∨
        30 < d.val ∧ 2 ^ 53 * (10 ^ (d.val - 9) % 2 ^ 256) ≤ m.val := by
  have hw : d.val < 256 := d.isLt
  rw [normalizeToNano_eq hserved hm, nano?_tryHandleLocally hcalled hn]
  by_cases hd : d.val ≤ 30
  · have hs : (if d.val ≤ 9 then m.val * 10 ^ (9 - d.val)
        else m.val / (10 ^ (d.val - 9) % 2 ^ 256)) = m.val * 10 ^ 9 / 10 ^ d.val := by
      have hpo : 10 ^ (d.val - 9) % 2 ^ 256 = 10 ^ (d.val - 9) := val_tenPow (by omega)
      split
      · next hu => rw [shift_up _ hu]
      · next hdo => rw [hpo, shift_down _ (by omega)]
    rw [hs, if_pos hd]
    constructor
    · exact fun h => .inl ⟨hd, h.1⟩
    · rintro (⟨-, h⟩ | ⟨hlt, -⟩)
      · refine ⟨h, fun nano hna => ?_⟩
        rw [h, safe] at hna
        split at hna
        · exact (Option.some_inj.1 hna).symm
        · cases hna
      · omega
  · have ha : ∀ e < 256, 0 < 10 ^ e % 2 ^ 256 := by decide +kernel
    have hp := ha (d.val - 9) (by omega)
    rw [if_neg hd, if_neg (by omega), safe_eq_none, Nat.le_div_iff_mul_le hp]
    constructor
    · exact fun h => .inr ⟨by omega, h.1⟩
    · rintro (⟨hl, -⟩ | ⟨-, h⟩)
      · exact absurd hl hd
      · refine ⟨h, fun nano hna => ?_⟩
        rw [safe_eq_none.2 ((Nat.le_div_iff_mul_le hp).2 h)] at hna
        cases hna

end

/-- A token of six decimals in every price book. -/
def sixDecimals : String → String → Option (Unsigned 8) := fun _ _ => some 6

/-- The parameters of both services. -/
def nanoParams (amount : String) : Json :=
  .obj [("amount", .str amount), ("asset", .str "0x0"), ("chain_id", .str "eip155:1"),
    ("decimals", .int 6)]

def nanoCall (amount : String) : LocalCall := ⟨"c", "token.normalize_to_nano", nanoParams amount⟩

/-- Ten in decimal notation is sixteen for the server. -/
theorem nano_services_differ :
    normalizeToNano id sixDecimals (nanoParams "10") = some 16000 ∧
      tryHandleLocally (fun _ => none) (nanoCall "10") = some (.ok "c" 10000) := by
  decide +kernel

theorem nano_services_iff_hex :
    normalizeToNano id sixDecimals (nanoParams "0xa") =
      (tryHandleLocally (fun _ => none) (nanoCall "0xa")).bind LocalRpcResult.nano? :=
  ((nano_services_iff (m := .ofNat 10) (n := 10) ⟨rfl, _, _, rfl, rfl, rfl⟩ ⟨rfl, rfl, rfl⟩
    (by decide +kernel) (by decide +kernel)).2 (.inl ⟨by decide, rfl⟩)).1

end Dambi.Server
