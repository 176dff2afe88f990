import Dambi.Asset.Numbers

/-!
# Derived account figures

`helpers/derived.rs`: the health factor of a lending account, from the prices
and thresholds of its tokens. The arithmetic is that of `rust_decimal`, whose
operators panic where a result does not fit.
-/

namespace Dambi.Asset

open FixedWidth Fallible

variable {D : Type} (kit : DecimalKit D)

def lookupPrice (token : TokenRef) (table : List (TokenRef × Decimal)) : ReducerResult D := do
  let price ← orBroken (table.lookup token) s!"missing price for token {token.key.debug}"
  parseDecimal kit price

def lookupLtBp (token : TokenRef) (table : List (TokenRef × Unsigned 32)) :
    ReducerResult (Unsigned 32) :=
  orBroken (table.lookup token) s!"missing liquidation threshold for token {token.key.debug}"

/-- The health factor of an account without debt. -/
def hfInfinity : Decimal := ⟨"999999999"⟩

variable (prices : List (TokenRef × Decimal))

def weightedCollateral
    (thresholds : List (TokenRef × Unsigned 32)) (entry : TokenRef × U256) : ReducerResult D := do
  let price ← lookupPrice kit entry.1 prices
  let ltBp ← lookupLtBp entry.1 thresholds
  let amt ← u256ToDecimal kit entry.2
  let ltFactor ← operator (kit.div (kit.ofU32 ltBp) (kit.ofU32 10000))
  operator (kit.mul (← operator (kit.mul amt price)) ltFactor)

def debtValue (entry : TokenRef × U256 × RateMode) :
    ReducerResult D := do
  let price ← lookupPrice kit entry.1 prices
  let amt ← u256ToDecimal kit entry.2.1
  operator (kit.mul amt price)

/-- `total += value(entry)?` over the entries. -/
def sumValues {α : Type} (value : α → ReducerResult D) (entries : List α) : ReducerResult D :=
  entries.foldlM (fun total entry => do operator (kit.add total (← value entry))) kit.zero

def recomputeHealthFactor (account : LendingAccount)
    (collateralPrices debtPrices : List (TokenRef × Decimal))
    (liquidationThresholds : List (TokenRef × Unsigned 32)) : ReducerResult Decimal := do
  let weightedCollat ←
    sumValues kit (weightedCollateral kit collateralPrices liquidationThresholds)
      account.collaterals
  let totalDebt ← sumValues kit (debtValue kit debtPrices) account.debts
  if kit.isZero totalDebt then return hfInfinity
  else return decimalToState kit (← operator (kit.div weightedCollat totalDebt))

end Dambi.Asset
