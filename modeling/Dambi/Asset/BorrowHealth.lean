import Mathlib.Algebra.BigOperators.Ring.List
import Mathlib.Algebra.Order.Archimedean.Basic
import Mathlib.Data.Rat.Cast.Order
import Mathlib.Data.Rat.Floor
import Mathlib.Tactic.FieldSimp
import Mathlib.Tactic.Linarith
import Mathlib.Tactic.Ring
import Dambi.Asset.LendingLedger
import Dambi.Lib.Digits
import Mathlib.Data.Rat.Encodable

/-!
# Health of a borrow

The health factor that a borrow is accepted by, with the decimal arithmetic
taken as exact. The tables give every token of the account the price of the
borrowed asset, so the price cancels: the factor is the quotient of the amounts.
-/

namespace Dambi.Asset

open FixedWidth Fallible List DecimalKit

/-! ## Exact arithmetic -/

/-- The decimals have a rational value, and every operation is exact on it. -/
structure DecimalKit.Exact {D : Type} (kit : DecimalKit D) (value : D → ℚ) : Prop where
  zero : value kit.zero = 0
  ofU32 : ∀ n, value (kit.ofU32 n) = n.val
  add : ∀ a b, ∃ c, kit.add a b = .ok c ∧ value c = value a + value b
  mul : ∀ a b, ∃ c, kit.mul a b = .ok c ∧ value c = value a * value b
  div : ∀ a b, value b ≠ 0 → ∃ c, kit.div a b = .ok c ∧ value c = value a / value b
  lt : ∀ a b, kit.lt a b = true ↔ value a < value b
  isZero : ∀ a, kit.isZero a = true ↔ value a = 0
  amount : ∀ n : U256, ∃ c, kit.fromStr (ToString.toString n) = .ok c ∧ value c = n.val
  text : ∀ d, ∃ c, kit.fromStr (kit.toString (kit.normalize d)) = .ok c ∧ value c = value d

/-- A computation of a decimal with the value `q`. -/
def Yields {D : Type} (value : D → ℚ) (x : ReducerResult D) (q : ℚ) : Prop :=
  ∃ c, x = .ok c ∧ value c = q

section Exactness

variable {D : Type} {kit : DecimalKit D} {value : D → ℚ}

theorem Yields.bind {x : ReducerResult D} {q : Rat} {f : D → ReducerResult D} {r : Rat}
    (hx : Yields value x q) (hf : ∀ c, value c = q → Yields value (f c) r) :
    Yields value (x >>= f) r := by
  obtain ⟨c, rfl, hc⟩ := hx
  exact hf c hc

variable {q : ℚ} {V α : Type} {v : V} {table : List (TokenRef × V)} {xs : List α} {price : D}

theorem operator_ok {x : Except String D}
    (h : ∃ c, x = .ok c ∧ value c = q) : Yields value (operator x) q := by
  obtain ⟨c, rfl, hc⟩ := h
  exact ⟨c, rfl, hc⟩

theorem u256ToDecimal_yields (hexact : kit.Exact value) (n : U256) :
    Yields value (u256ToDecimal kit n) n.val := by
  obtain ⟨c, hc, hv⟩ := hexact.amount n
  exact ⟨c, described_eq_ok.2 hc, hv⟩

theorem sumValues_yields {α : Type} {entries : List α} {f : α → ReducerResult D}
    {g : α → ℚ}
    (hexact : kit.Exact value)
    (hf : ∀ entry ∈ entries, Yields value (f entry) (g entry)) :
    Yields value (sumValues kit f entries) (entries.map g).sum := by
  suffices hfr : ∀ total, Yields value
      (entries.foldlM (fun total entry => do operator (kit.add total (← f entry))) total)
      (value total + (entries.map g).sum) by
    have hz := hfr kit.zero
    rwa [hexact.zero, zero_add] at hz
  induction entries with
  | nil => exact fun total => ⟨total, rfl, by simp⟩
  | cons entry r ih =>
    intro total
    obtain ⟨x, hx, hxv⟩ := hf entry mem_cons_self
    obtain ⟨t, ht, htv⟩ := operator_ok (hexact.add total x)
    obtain ⟨c, hc, hcv⟩ := ih (fun e he => hf e (mem_cons_of_mem _ he)) t
    refine ⟨c, ?_, ?_⟩
    · rw [foldlM_cons, hx, ok_bind, ht]
      exact hc
    · rw [hcv, htv, hxv, map_cons, sum_cons, add_assoc]

theorem exists_price (hexact : kit.Exact value) (n : Nat) :
    ∃ (price : Decimal) (d : D), kit.fromStr price.text = .ok d ∧ value d = n := by
  have hv : ∃ d, value d = n := by
    induction n with
    | zero => exact ⟨kit.zero, by rw [hexact.zero, Nat.cast_zero]⟩
    | succ n ih =>
      obtain ⟨d, hd⟩ := ih
      obtain ⟨c, -, hc⟩ := hexact.add d (kit.ofU32 1)
      refine ⟨c, ?_⟩
      rw [hc, hd, hexact.ofU32, Nat.cast_succ]
      rfl
  obtain ⟨d, hd⟩ := hv
  obtain ⟨c, hc, hcv⟩ := hexact.text d
  exact ⟨⟨_⟩, c, hc, hcv.trans hd⟩

/-! ## Tables of one value -/

theorem lookup_of_const {t : TokenRef}
    (hc : ∀ entry ∈ table, entry.2 = v) (hm : t ∈ table.map Prod.fst) :
    table.lookup t = some v := by
  induction table with
  | nil => simp at hm
  | cons entry r ih =>
    obtain ⟨o, w⟩ := entry
    by_cases hh : t = o
    · rw [lookup_cons, beq_iff_eq.2 hh, ← hc _ mem_cons_self]
    · rw [lookup_cons, beq_false_of_ne hh]
      refine ih (fun e he => hc e (mem_cons_of_mem _ he)) ?_
      exact (mem_cons.1 hm).resolve_left hh

theorem snd_of_mem_map {f : α → TokenRef} : ∀ entry ∈ xs.map (fun x => (f x, v)), entry.2 = v := by
  intro entry he
  obtain ⟨x, -, rfl⟩ := mem_map.1 he
  rfl

theorem lookup_map_const (f : α → TokenRef) (v : V) {x : α} (hx : x ∈ xs) :
    (xs.map fun x => (f x, v)).lookup (f x) = some v :=
  lookup_of_const snd_of_mem_map (mem_map.2 ⟨_, mem_map.2 ⟨x, hx, rfl⟩, rfl⟩)

theorem withToken_const (t : TokenRef) (hc : ∀ entry ∈ table, entry.2 = v) :
    (∀ entry ∈ withToken t v table, entry.2 = v) ∧ table ⊆ withToken t v table := by
  unfold withToken
  split
  · exact ⟨hc, List.Subset.refl _⟩
  · refine ⟨fun entry hentry => ?_, subset_append_left _ _⟩
    obtain hentry | hentry := mem_append.1 hentry
    · exact hc entry hentry
    · rw [mem_singleton.1 hentry]

def thresholdBp (kit : DecimalKit D) (account : LendingAccount) : Unsigned 32 :=
  ((thresholdToBp kit account.liquidationThreshold.value).toOption).getD 0

theorem thresholdToBp_eq (hexact : kit.Exact value) (a : LendingAccount) :
    thresholdToBp kit a.liquidationThreshold.value = .ok (thresholdBp kit a) := by
  unfold thresholdBp
  suffices h : ∃ bp, thresholdToBp kit a.liquidationThreshold.value = .ok bp by
    obtain ⟨bp, hb⟩ := h
    rw [hb]
    rfl
  unfold thresholdToBp
  split
  · exact ⟨0, rfl⟩
  · rename_i d _
    obtain ⟨c, hc, -⟩ := operator_ok (hexact.mul d (kit.ofU32 10000))
    rw [hc]
    exact ⟨_, rfl⟩

theorem buildPriceTables_eq_ok (hexact : kit.Exact value) (a : LendingAccount)
    (price : Price) (ass : TokenRef) :
    ∃ ts, buildPriceTables kit a price ass = .ok ts ∧
      (∀ entry ∈ a.collaterals, ts.collatPrices.lookup entry.1 = some price) ∧
      (∀ entry ∈ a.collaterals, ts.thresholds.lookup entry.1 = some (thresholdBp kit a)) ∧
      ∀ entry ∈ a.debts, ts.debtPrices.lookup entry.1 = some price := by
  have ht (cs : List (TokenRef × Unit)) :
      (cs.mapM fun entry => do
        return (entry.1, ← thresholdToBp kit a.liquidationThreshold.value)) =
        (.ok (cs.map fun entry => (entry.1, thresholdBp kit a)) : ReducerResult _) := by
    simp only [thresholdToBp_eq hexact, ok_bind]
    exact mapM_pure
  have hc : ∀ entry ∈ a.collaterals, (entry.1, ()) ∈
      withToken ass () (a.collaterals.map fun entry => (entry.1, ())) := fun entry he =>
    (withToken_const ass fun _ _ => rfl).2 (mem_map.2 ⟨entry, he, rfl⟩)
  have hd := withToken_const ass
    (@snd_of_mem_map _ _ price a.debts Prod.fst)
  refine ⟨_, bind_eq_ok.2 ⟨_, ht _, rfl⟩, fun entry he => ?_, fun entry he => ?_,
    fun entry he => ?_⟩
  · exact lookup_map_const Prod.fst price (hc entry he)
  · exact lookup_map_const Prod.fst (thresholdBp kit a) (hc entry he)
  · refine lookup_of_const hd.1 (mem_map.2 ⟨(entry.1, price), hd.2 ?_, rfl⟩)
    exact mem_map.2 ⟨entry, he, rfl⟩

/-! ## The health factor -/

/-- The collateral of an account, weighted by its threshold and in units of the tokens. -/
def weightedAmount (kit : DecimalKit D) (account : LendingAccount) : ℚ :=
  (account.collaterals.map fun entry =>
    entry.2.val * ((thresholdBp kit account).val / 10000 : ℚ)).sum

/-- The debt of an account in units of the tokens. -/
def owedAmount (account : LendingAccount) : ℚ :=
  (account.debts.map fun entry => (entry.2.1.val : ℚ)).sum

def borrowHealthFactor (kit : DecimalKit D) (a : BorrowAction) (la : LendingAccount) :
    ReducerResult Decimal := do
  let preview := la.mergeDebt a.asset a.amount a.rateMode
  let tables ← buildPriceTables kit preview a.assetPriceUsd.value a.asset
  recomputeHealthFactor kit preview tables.collatPrices tables.debtPrices tables.thresholds

theorem checkBorrowHealth_eq (a : BorrowAction) (la : LendingAccount) :
    checkBorrowHealth kit a la = (do
      let hf ← borrowHealthFactor kit a la
      ensure ((← hfIsSafe kit hf) = true)
        s!"borrow rejected: post-borrow HF Decimal({quoted hf.text}) < 1.0") := by
  simp [checkBorrowHealth, borrowHealthFactor]

/-- The factor of a price: it cancels, unless it or the debt is zero. -/
def factorAt (price weighted owed : ℚ) : ℚ :=
  if price * owed = 0 then 999999999 else weighted / owed

section Values

variable (hexact : kit.Exact value) {table : List (TokenRef × Decimal)} {text : Decimal} {price : D}
  (hprice : kit.fromStr text.text = .ok price)

include hprice in
theorem lookupPrice_eq {t : TokenRef}
    (h : table.lookup t = some text) : lookupPrice kit t table = .ok price := by
  rw [lookupPrice, h]
  exact described_eq_ok.2 hprice

include hexact hprice in
theorem weightedCollateral_yields {entry : TokenRef × U256} {bp : Unsigned 32}
    {ts : List (TokenRef × Unsigned 32)} (h : table.lookup entry.1 = some text)
    (hb : ts.lookup entry.1 = some bp) :
    Yields value (weightedCollateral kit table ts entry)
      (value price * (entry.2.val * (bp.val / 10000))) := by
  have hd : value (kit.ofU32 10000) = 10000 := hexact.ofU32 10000
  have hd' : value (kit.ofU32 10000) ≠ 0 := by
    rw [hd]
    norm_num
  rw [weightedCollateral, lookupPrice_eq hprice h, ok_bind, lookupLtBp, hb]
  refine (u256ToDecimal_yields hexact entry.2).bind fun amt ha => ?_
  refine (operator_ok (hexact.div _ _ hd')).bind fun f hf => ?_
  refine (operator_ok (hexact.mul amt price)).bind fun worth hw => ?_
  obtain ⟨c, hc, hcv⟩ := operator_ok (hexact.mul worth f)
  refine ⟨c, hc, ?_⟩
  rw [hcv, hw, hf, ha, hd, hexact.ofU32]
  ring

include hexact hprice in
theorem debtValue_yields {entry : TokenRef × U256 × RateMode}
    (h : table.lookup entry.1 = some text) :
    Yields value (debtValue kit table entry) (value price * entry.2.1.val) := by
  rw [debtValue, lookupPrice_eq hprice h, ok_bind]
  refine (u256ToDecimal_yields hexact entry.2.1).bind fun amt ha => ?_
  obtain ⟨c, hc, hcv⟩ := operator_ok (hexact.mul amt price)
  exact ⟨c, hc, by rw [hcv, ha, mul_comm]⟩

end Values

theorem borrowHealthFactor_value (hexact : kit.Exact value) (a : BorrowAction) (la : LendingAccount)
    (hprice : kit.fromStr a.assetPriceUsd.value.text = .ok price) :
    ∃ hf d, borrowHealthFactor kit a la = .ok hf ∧ kit.fromStr hf.text = .ok d ∧
      value d = factorAt (value price)
        (weightedAmount kit (la.mergeDebt a.asset a.amount a.rateMode))
        (owedAmount (la.mergeDebt a.asset a.amount a.rateMode)) := by
  generalize hp : la.mergeDebt a.asset a.amount a.rateMode = preview
  obtain ⟨ts, hta, hc, hth, hde⟩ :=
    buildPriceTables_eq_ok hexact preview a.assetPriceUsd.value a.asset
  obtain ⟨w, hwe, hw⟩ := sumValues_yields hexact fun entry he =>
    weightedCollateral_yields hexact hprice (hc entry he) (hth entry he)
  obtain ⟨total, hto, ht⟩ := sumValues_yields hexact fun entry he =>
    debtValue_yields hexact hprice (hde entry he)
  rw [sum_map_mul_left] at hw ht
  change value w = value price * weightedAmount kit preview at hw
  change value total = value price * owedAmount preview at ht
  simp only [borrowHealthFactor, hp, hta, ok_bind, recomputeHealthFactor, hwe, hto, factorAt, ← ht]
  by_cases hz : value total = 0
  · rw [if_pos ((hexact.isZero total).2 hz), if_pos hz]
    obtain ⟨d, hd, hv⟩ := hexact.amount 999999999
    exact ⟨hfInfinity, d, rfl, hd, by rw [hv]; rfl⟩
  · rw [if_neg (mt (hexact.isZero total).1 hz), if_neg hz]
    obtain ⟨q, hq, hqv⟩ := operator_ok (hexact.div w total hz)
    obtain ⟨d, hd, hv⟩ := hexact.text q
    rw [hq]
    refine ⟨_, d, rfl, hd, ?_⟩
    have hprice' : value price ≠ 0 := fun h => hz (by rw [ht, h, zero_mul])
    rw [hv, hqv, hw, ht, mul_div_mul_left _ _ hprice']

theorem weightedAmount_nonneg (kit : DecimalKit D) (account : LendingAccount) :
    0 ≤ weightedAmount kit account := by
  refine sum_nonneg fun q hq => ?_
  obtain ⟨entry, -, rfl⟩ := mem_map.1 hq
  positivity

theorem owedAmount_nonneg (account : LendingAccount) : 0 ≤ owedAmount account := by
  refine sum_nonneg fun q hq => ?_
  obtain ⟨entry, -, rfl⟩ := mem_map.1 hq
  positivity

theorem one_le_factorAt_iff {price weighted o : ℚ} (hprice : 0 < price) (ho : 0 ≤ o)
    (hw : 0 ≤ weighted) : 1 ≤ factorAt price weighted o ↔ o ≤ weighted := by
  rw [factorAt]
  split
  · rename_i hz
    rw [(mul_eq_zero.1 hz).resolve_left hprice.ne']
    exact iff_of_true (by norm_num) hw
  · rename_i hn
    exact one_le_div (lt_of_le_of_ne ho fun h => hn (by rw [← h, mul_zero]))

theorem checkBorrowHealth_eq_ok (hexact : kit.Exact value) (a : BorrowAction) (la : LendingAccount)
    (hprice : kit.fromStr a.assetPriceUsd.value.text = .ok price) :
    checkBorrowHealth kit a la = .ok () ↔
      1 ≤ factorAt (value price) (weightedAmount kit (la.mergeDebt a.asset a.amount a.rateMode))
        (owedAmount (la.mergeDebt a.asset a.amount a.rateMode)) := by
  obtain ⟨hf, d, hh, hd, hv⟩ := borrowHealthFactor_value hexact a la hprice
  have ho : value (kit.ofU32 1) = 1 := by
    rw [hexact.ofU32]
    norm_num
    rfl
  have hl := hexact.lt d (kit.ofU32 1)
  rw [ho] at hl
  have hs : hfIsSafe kit hf = .ok (!kit.lt d (kit.ofU32 1)) := by
    rw [hfIsSafe, described_eq_ok.2 hd]
    rfl
  rw [checkBorrowHealth_eq, hh, ok_bind, hs, ok_bind, ensure_eq_ok, ← hv, Bool.not_eq_true',
    ← not_lt, ← hl, Bool.not_eq_true]

/-- From some price on, the borrow is rejected. -/
def RejectsHighPrices (kit : DecimalKit D) (value : D → ℚ) (a : BorrowAction)
    (la : LendingAccount) : Prop :=
  ∃ bound, ∀ (price : LiveField Price) (p : D), kit.fromStr price.value.text = .ok p →
    bound ≤ value p → checkBorrowHealth kit { a with assetPriceUsd := price } la ≠ .ok ()

/-- The health factor falls as the price of the borrowed asset rises from `price` to `price'`. -/
def FactorFalls (kit : DecimalKit D) (value : D → ℚ) (a : BorrowAction) (la : LendingAccount)
    (price price' : LiveField Price) : Prop :=
  ∃ hf hf' f f', borrowHealthFactor kit { a with assetPriceUsd := price } la = .ok hf ∧
    borrowHealthFactor kit { a with assetPriceUsd := price' } la = .ok hf' ∧
    kit.fromStr hf.text = .ok f ∧ kit.fromStr hf'.text = .ok f' ∧ value f' < value f

theorem factorFalls_iff {p p' : D}
    (hexact : kit.Exact value) (a : BorrowAction) (la : LendingAccount)
    {price price' : LiveField Price} (hp : kit.fromStr price.value.text = .ok p)
    (hp' : kit.fromStr price'.value.text = .ok p') :
    FactorFalls kit value a la price price' ↔
      factorAt (value p') (weightedAmount kit (la.mergeDebt a.asset a.amount a.rateMode))
          (owedAmount (la.mergeDebt a.asset a.amount a.rateMode)) <
        factorAt (value p) (weightedAmount kit (la.mergeDebt a.asset a.amount a.rateMode))
          (owedAmount (la.mergeDebt a.asset a.amount a.rateMode)) := by
  obtain ⟨hf, f, hh, hpa, hf_value⟩ :=
    borrowHealthFactor_value hexact { a with assetPriceUsd := price } la hp
  obtain ⟨hf', f', hh', hpa', hf_value'⟩ :=
    borrowHealthFactor_value hexact { a with assetPriceUsd := price' } la hp'
  rw [← hf_value, ← hf_value']
  constructor
  · rintro ⟨g, g', x, x', hg, hg', hx, hx', hl⟩
    cases hh.symm.trans hg
    cases hh'.symm.trans hg'
    cases hpa.symm.trans hx
    cases hpa'.symm.trans hx'
    exact hl
  · exact fun hl => ⟨hf, hf', f, f', hh, hh', hpa, hpa', hl⟩

theorem rejectsHighPrices_iff (hexact : kit.Exact value) (a : BorrowAction) (la : LendingAccount) :
    RejectsHighPrices kit value a la ↔
      weightedAmount kit (la.mergeDebt a.asset a.amount a.rateMode) <
        owedAmount (la.mergeDebt a.asset a.amount a.rateMode) := by
  have ha (price : LiveField Price) (p : D) (hp : kit.fromStr price.value.text = .ok p)
      (hpo : 0 < value p) : checkBorrowHealth kit { a with assetPriceUsd := price } la = .ok () ↔
        owedAmount (la.mergeDebt a.asset a.amount a.rateMode) ≤
          weightedAmount kit (la.mergeDebt a.asset a.amount a.rateMode) := by
    rw [checkBorrowHealth_eq_ok hexact _ la hp]
    exact one_le_factorAt_iff hpo (owedAmount_nonneg _) (weightedAmount_nonneg kit _)
  constructor
  · rintro ⟨b, hr⟩
    by_contra hle
    obtain ⟨n, hn⟩ := exists_nat_ge b
    obtain ⟨text, p, hp, hv⟩ := exists_price hexact (n + 1)
    rw [Nat.cast_succ] at hv
    refine hr { a.assetPriceUsd with value := text } p hp (by linarith) ?_
    refine (ha { a.assetPriceUsd with value := text } p hp ?_).2 (not_lt.1 hle)
    rw [hv]
    positivity
  · intro hl
    refine ⟨1, fun price p hp hb ho => ?_⟩
    exact absurd hl (not_lt.2 ((ha price p hp (by linarith)).1 ho))

/-- The price decides about a borrow, as a price of the debt, exactly if the lower price is zero
and the weighted amount of the collateral is less than the amount owed. -/
theorem borrow_price_iff (hexact : kit.Exact value) (a : BorrowAction) (la : LendingAccount)
    {price price' : LiveField Price} {p p' : D} (hp : kit.fromStr price.value.text = .ok p)
    (hp' : kit.fromStr price'.value.text = .ok p') (hlt : value p < value p') :
    FactorFalls kit value a la price price' ∧ RejectsHighPrices kit value a la ↔
      value p = 0 ∧ weightedAmount kit (la.mergeDebt a.asset a.amount a.rateMode) <
        owedAmount (la.mergeDebt a.asset a.amount a.rateMode) := by
  rw [factorFalls_iff hexact a la hp hp', rejectsHighPrices_iff hexact]
  have hw := weightedAmount_nonneg kit (la.mergeDebt a.asset a.amount a.rateMode)
  generalize weightedAmount kit (la.mergeDebt a.asset a.amount a.rateMode) = weighted at *
  generalize owedAmount (la.mergeDebt a.asset a.amount a.rateMode) = owed
  refine and_congr_left fun hl => ?_
  have ho : 0 < owed := lt_of_le_of_lt hw hl
  have hq : weighted / owed < 1 := (div_lt_one ho).2 hl
  constructor
  · intro hf
    by_contra hn
    rw [factorAt, factorAt, if_neg (mul_ne_zero hn ho.ne')] at hf
    split at hf <;> linarith
  · intro hz
    have hn : value p' * owed ≠ 0 := mul_ne_zero (by linarith) ho.ne'
    rw [factorAt, if_neg hn, factorAt, hz, zero_mul, if_pos rfl]
    linarith

end Exactness

/-! ## Rational numbers as decimals -/

/-- A text for every rational number: its digits where it is a whole number, and the number it has
in some enumeration for the others. -/
noncomputable def rationalText (q : ℚ) : String :=
  open Classical in
  if h : ∃ n : Nat, q = n then toString (Classical.choose h)
  else "r" ++ toString (Classical.choose (exists_injective_nat ℚ) q)

theorem rationalText_natCast (n : Nat) : rationalText n = toString n := by
  have hex : ∃ m : Nat, (n : ℚ) = m := ⟨n, rfl⟩
  have heq : n = Classical.choose hex := Nat.cast_injective (Classical.choose_spec hex)
  rw [rationalText, dif_pos hex, ← heq]

theorem rationalText_injective : Function.Injective rationalText := by
  have hdi (m n : Nat) : toString m ≠ "r" ++ toString n := by
    intro heq
    have hm : 'r' ∈ (toString m).toList := by
      rw [heq]
      simp
    obtain ⟨d, hd, hc⟩ := Digits.exists_of_mem_toString hm
    revert hd hc
    revert d
    decide
  intro q r h
  unfold rationalText at h
  split at h
  · rename_i hq
    split at h
    · rename_i hr
      rw [Classical.choose_spec hq, Classical.choose_spec hr, Digits.toString_injective h]
    · exact absurd h (hdi _ _)
  · split at h
    · exact absurd h.symm (hdi _ _)
    · have hn := Digits.toString_injective ((String.append_right_inj "r").1 h)
      exact Classical.choose_spec (exists_injective_nat ℚ) hn

/-- The decimal interface on the rational numbers, where every operation is exact. -/
noncomputable def DecimalKit.rational : DecimalKit ℚ :=
  open Classical in
  { DecimalKit.whole with
    fromStr := fun s => if h : ∃ q, rationalText q = s then .ok (Classical.choose h)
      else .error "Invalid decimal"
    fromStrDec := fun s => if h : ∃ q, rationalText q = s then .ok (Classical.choose h)
      else .error "Invalid decimal"
    ofU32 := fun n => n.val
    scaled := fun n scale => n / 10 ^ scale
    zero := 0
    add := fun a b => .ok (a + b)
    sub := fun a b => .ok (a - b)
    mul := fun a b => .ok (a * b)
    div := fun a b => if b = 0 then .error "Division by zero" else .ok (a / b)
    lt := fun a b => decide (a < b)
    isZero := fun a => decide (a = 0)
    isSignNegative := fun a => decide (a < 0)
    trunc := fun a => (a.num.tdiv a.den : Int)
    round := fun a => (⌊a + 1 / 2⌋ : Int)
    normalize := id
    toString := rationalText
    toU32 := fun a => if 0 ≤ a then Unsigned.ofNat? ⌊a⌋₊ else none }

theorem DecimalKit.rational_fromStr (q : ℚ) :
    DecimalKit.rational.fromStr (rationalText q) = .ok q := by
  have hex : ∃ r, rationalText r = rationalText q := ⟨q, rfl⟩
  exact (dif_pos hex).trans
    (congrArg Except.ok (rationalText_injective (Classical.choose_spec hex)))

theorem DecimalKit.rational_exact : DecimalKit.rational.Exact id where
  zero := rfl
  ofU32 _ := rfl
  add a b := ⟨a + b, rfl, rfl⟩
  mul a b := ⟨a * b, rfl, rfl⟩
  div a b hb := ⟨a / b, if_neg hb, rfl⟩
  lt _ _ := decide_eq_true_iff
  isZero _ := decide_eq_true_iff
  amount n := ⟨n.val, by rw [← rational_fromStr, rationalText_natCast]; rfl, rfl⟩
  text d := ⟨d, rational_fromStr d, rfl⟩

theorem rational_fromStr_nat (n : Nat) : DecimalKit.rational.fromStr (toString n) = .ok n := by
  rw [← rationalText_natCast, rational_fromStr]

/-! ## One account -/

/-- An account with ether as its collateral, all of which counts. -/
def etherAccount (collateral : U256) : LendingAccount where
  market := ⟨"aave_v3", ⟨"aave_v3", none⟩⟩
  collaterals := [(⟨ether⟩, collateral)]
  debts := []
  emode := none
  isIsolated := false
  healthFactor := fresh ⟨"999999999"⟩
  ltv := fresh .zero
  liquidationThreshold := fresh ⟨"1"⟩

/-- A borrow of another token, at a price in dollars. -/
def borrowUsdc (amount : U256) (price : Nat) : BorrowAction where
  venue := aavePool
  asset := ⟨usdc⟩
  amount := amount
  rateMode := .variable
  reserveState := fresh ⟨0, 0, none, none, 8000, false, false⟩
  assetPriceUsd := fresh ⟨toString price⟩
  availableLiquidity := fresh amount

theorem weightedAmount_etherAccount (c a : U256) :
    weightedAmount .rational ((etherAccount c).mergeDebt ⟨usdc⟩ a .variable) =
      c.val := by
  have hb : thresholdBp .rational ((etherAccount c).mergeDebt ⟨usdc⟩ a .variable) =
      10000 := by
    have ho : rational.fromStr "1" = .ok (1 : Nat) := rational_fromStr_nat 1
    have hr : (⌊((1 : Nat) * (10000 : Nat) + 1 / 2 : ℚ)⌋ : ℚ) = (10000 : Nat) := by
      have hf : ⌊((1 : Nat) * (10000 : Nat) + 1 / 2 : ℚ)⌋ = 10000 := by
        rw [Int.floor_eq_iff]
        norm_num
      rw [hf]
      norm_num
    have hb : thresholdToBp rational ⟨"1"⟩ = .ok 10000 := by
      have ht : rational.ofU32 10000 = ((10000 : Nat) : ℚ) := rfl
      have hu32 : rational.toU32 ((10000 : Nat) : ℚ) = some 10000 := by
        simp only [rational]
        decide +kernel
      simp only [thresholdToBp, ho, ht]
      change (Except.ok ((rational.toU32
        (⌊((1 : Nat) * (10000 : Nat) + 1 / 2 : ℚ)⌋ : ℚ)).getD 0) : ReducerResult _) = _
      rw [hr, hu32]
      rfl
    change (thresholdToBp rational ⟨"1"⟩).toOption.getD 0 = 10000
    rw [hb]
    rfl
  have hv : (10000 : Unsigned 32).val = 10000 := by decide +kernel
  rw [weightedAmount, hb, hv]
  change ([((c.val : ℚ) * ((10000 : Nat) / 10000))] : List ℚ).sum = _
  norm_num

theorem owedAmount_etherAccount (c a : U256) :
    owedAmount ((etherAccount c).mergeDebt ⟨usdc⟩ a .variable) = a.val := by
  simp [owedAmount, etherAccount, LendingAccount.mergeDebt, mergeFirst]

theorem borrow_price_iff_free :
    FactorFalls .rational id (borrowUsdc 200 1) (etherAccount 100) (fresh ⟨"0"⟩) (fresh ⟨"1"⟩) ∧
      RejectsHighPrices .rational id (borrowUsdc 200 1) (etherAccount 100) := by
  have hz : rational.fromStr "0" = .ok (0 : Nat) := rational_fromStr_nat 0
  have ho : rational.fromStr "1" = .ok (1 : Nat) := rational_fromStr_nat 1
  refine (borrow_price_iff rational_exact (borrowUsdc 200 1) (etherAccount 100)
    hz ho ?_).2 ⟨rfl, ?_⟩
  · norm_num
  · have hw := weightedAmount_etherAccount 100 200
    have how := owedAmount_etherAccount 100 200
    change weightedAmount .rational ((etherAccount 100).mergeDebt ⟨usdc⟩ 200 .variable) <
      owedAmount ((etherAccount 100).mergeDebt ⟨usdc⟩ 200 .variable)
    rw [hw, how]
    exact_mod_cast (by decide +kernel : (100 : U256).val < (200 : U256).val)

/-- Against a collateral of another token, the factor at a price of a million is the one at a
price of one, and every price above zero is accepted. -/
theorem borrow_ignores_price :
    ∃ (a : BorrowAction) (la : LendingAccount) (price price' : LiveField Price) (p p' : ℚ),
      (∃ entry ∈ la.collaterals, entry.1 ≠ a.asset ∧ entry.2 ≠ 0) ∧
      DecimalKit.rational.fromStr price.value.text = .ok p ∧
      DecimalKit.rational.fromStr price'.value.text = .ok p' ∧ p < p' ∧
      ¬ FactorFalls .rational id a la price price' ∧ ¬ RejectsHighPrices .rational id a la := by
  have ho : rational.fromStr "1" = .ok (1 : Nat) := rational_fromStr_nat 1
  have hm : rational.fromStr "1000000" = .ok (1000000 : Nat) :=
    rational_fromStr_nat 1000000
  have hw := weightedAmount_etherAccount 100 10
  have how := owedAmount_etherAccount 100 10
  refine ⟨borrowUsdc 10 1, etherAccount 100, fresh ⟨"1"⟩, fresh ⟨"1000000"⟩, (1 : Nat),
    (1000000 : Nat), ⟨(⟨ether⟩, 100), mem_cons_self, by decide +kernel, by decide +kernel⟩, ho,
    hm, by norm_num, ?_, ?_⟩
  · rw [factorFalls_iff rational_exact _ _ ho hm]
    change ¬ factorAt (1000000 : Nat) (weightedAmount .rational
      ((etherAccount 100).mergeDebt ⟨usdc⟩ 10 .variable))
      (owedAmount ((etherAccount 100).mergeDebt ⟨usdc⟩ 10 .variable)) <
      factorAt (1 : Nat) (weightedAmount .rational
        ((etherAccount 100).mergeDebt ⟨usdc⟩ 10 .variable))
        (owedAmount ((etherAccount 100).mergeDebt ⟨usdc⟩ 10 .variable))
    have ht : (10 : U256).val = 10 := by decide +kernel
    have hh : (100 : U256).val = 100 := by decide +kernel
    rw [hw, how, ht, hh, factorAt, factorAt]
    norm_num
  · rw [rejectsHighPrices_iff rational_exact]
    change ¬ weightedAmount .rational ((etherAccount 100).mergeDebt ⟨usdc⟩ 10 .variable) <
      owedAmount ((etherAccount 100).mergeDebt ⟨usdc⟩ 10 .variable)
    rw [hw, how, not_lt]
    exact_mod_cast (by decide +kernel : (10 : U256).val ≤ (100 : U256).val)

end Dambi.Asset
