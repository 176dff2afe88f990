import Dambi.Lib.Decimal
import Dambi.Lowering.Nano

/-!
# Amounts of Hyperliquid actions

`hl_amount_projection` turns the decimal text of an amount into smallest units and
into the nano amount that quantity caps compare. A text is a list of characters.
-/

namespace Dambi.Lowering

open FixedWidth Decimal List Option Exponent

/-! ## Reading an amount -/

/-- `s.split_once('.').unwrap_or((s, ""))`. -/
def splitPoint (s : List Char) : List Char × List Char :=
  (s.takeWhile (· ≠ '.'), (s.dropWhile (· ≠ '.')).tail)

/-- The first `decimals` characters, with zeros behind them up to that many bytes. -/
def padFraction (fraction : List Char) (decimals : Nat) : List Char :=
  let kept := fraction.take decimals
  kept ++ List.replicate (decimals - (kept.map Char.utf8Size).sum) '0'

def radixDigit (c : Char) : Option (Fin 10) :=
  if '0' ≤ c ∧ c ≤ '9' then some (Fin.ofNat 10 (c.toNat - 48)) else none

/-- `U256::from_str_radix(s, 10)`: underscores are ignored, another character that is not a digit
and a number that does not fit are errors. -/
def fromStrRadix (s : List Char) : Option (Unsigned 256) :=
  ((s.filter (· ≠ '_')).mapM radixDigit).bind fun digits => Unsigned.ofNat? (value digits)

def rawUnits (digits : List Char) : Unsigned 256 :=
  let trimmed := digits.dropWhile (· = '0')
  if trimmed.isEmpty then 0 else (fromStrRadix trimmed).getD 0

def u256Hex (v : Unsigned 256) : String := "0x" ++ String.ofList (Nat.toDigits 16 v.val)

structure HlAmount where
  rawHex : String
  nano : Option (Signed 63)

/-- The digits that `hl_amount_projection` collects. -/
def collectDigits (s : List Char) (decimals : Nat) : List Char :=
  (splitPoint s).1.dropWhile (· = '+') ++ padFraction (splitPoint s).2 decimals

def hlAmountProjection (amount : List Char) (decimals : Nat) : HlAmount :=
  let raw := rawUnits (collectDigits amount decimals)
  { rawHex := u256Hex raw
    nano := some (nanoFromDecimals raw ((Unsigned.ofNat? decimals).getD .maxValue)) }

/-! ## Digits and other characters -/

theorem radixDigit_digitChar (d : Fin 10) : radixDigit (digitChar d) = some d := by
  revert d
  decide

theorem digitChar_ne (d : Fin 10) : digitChar d ≠ '_' ∧ digitChar d ≠ '.' ∧ digitChar d ≠ '+' ∧
    (digitChar d).utf8Size = 1 ∧ (digitChar d = '0' ↔ d = 0) := by
  revert d
  decide

theorem mapM_radixDigit (ds : List (Fin 10)) : (ds.map digitChar).mapM radixDigit = some ds := by
  induction ds with
  | nil => rfl
  | cons d ds ih =>
    rw [map_cons, mapM_cons, radixDigit_digitChar, ih]
    rfl

theorem fromStrRadix_digits (ds : List (Fin 10)) :
    fromStrRadix (ds.map digitChar) = Unsigned.ofNat? (value ds) := by
  have hk : (ds.map digitChar).filter (· ≠ '_') = ds.map digitChar := by
    refine filter_eq_self.2 fun c hc => ?_
    obtain ⟨d, _, rfl⟩ := List.mem_map.1 hc
    simpa using (digitChar_ne d).1
  rw [fromStrRadix, hk, mapM_radixDigit]
  rfl

theorem rawUnits_digits (ds : List (Fin 10)) :
    rawUnits (ds.map digitChar) = (Unsigned.ofNat? (value ds)).getD 0 := by
  have ht : (ds.map digitChar).dropWhile (· = '0') =
      (ds.dropWhile (· = 0)).map digitChar := by
    rw [dropWhile_map]
    congr 2
    funext d
    simp [(digitChar_ne d).2.2.2.2]
  rw [rawUnits, ht]
  split
  · next hn =>
    have hz : value ds = 0 := by
      rw [← value_dropWhile, map_eq_nil_iff.1 (List.isEmpty_iff.1 hn), value_nil]
    rw [hz]
    rfl
  · rw [fromStrRadix_digits, value_dropWhile]

variable {s : List Char} {c : Char}

theorem mapM_radixDigit_eq_none (hm : c ∈ s)
    (hb : radixDigit c = none) : s.mapM radixDigit = none := by
  induction s with
  | nil => cases hm
  | cons a s ih =>
    rw [mapM_cons]
    cases ha : radixDigit a with
    | none => rfl
    | some d =>
      rcases mem_cons.1 hm with rfl | hm
      · rw [hb] at ha
        cases ha
      · rw [ih hm]
        rfl

theorem mem_dropWhile {p : Char → Bool} (hm : c ∈ s) (hp : p c = false) : c ∈ s.dropWhile p := by
  rw [← takeWhile_append_dropWhile (p := p) (l := s)] at hm
  refine (mem_append.1 hm).resolve_left fun ht => ?_
  rw [mem_takeWhile_imp ht] at hp
  cases hp

theorem rawUnits_of_bad (hm : c ∈ s) (hb : radixDigit c = none)
    (hl : c ≠ '_') : rawUnits s = 0 := by
  have hz : c ≠ '0' := by
    rintro rfl
    exact absurd hb (by decide)
  have ht : c ∈ s.dropWhile (· = '0') := mem_dropWhile hm (decide_eq_false hz)
  rw [rawUnits]
  split
  · rfl
  · rw [fromStrRadix, mapM_radixDigit_eq_none (mem_filter.2 ⟨ht, by simpa⟩) hb]
    rfl

/-! ## Splitting at the point -/

theorem splitPoint_of_not_mem (h : '.' ∉ s) : splitPoint s = (s, []) := by
  have hn : ∀ c ∈ s, decide (c ≠ '.') = true := fun c hc =>
    decide_eq_true fun heq => h (heq ▸ hc)
  rw [splitPoint, takeWhile_eq_self_iff.2 hn, dropWhile_eq_nil_iff.2 hn, tail_nil]

theorem splitPoint_append {t : List Char} (h : '.' ∉ s) : splitPoint (s ++ '.' :: t) = (s, t) := by
  have hn : ∀ c ∈ s, decide (c ≠ '.') = true := fun c hc =>
    decide_eq_true fun heq => h (heq ▸ hc)
  rw [splitPoint, takeWhile_append_of_pos hn, dropWhile_append_of_pos hn]
  simp

theorem point_not_mem_digits (ds : List (Fin 10)) : '.' ∉ ds.map digitChar := fun h => by
  obtain ⟨d, _, hd⟩ := List.mem_map.1 h
  exact (digitChar_ne d).2.1 hd

theorem point_not_mem_signText (sign : Option Bool) : '.' ∉ Exponent.signText sign := by
  rcases sign with _ | _ | _ <;> decide

theorem point_not_mem_exponentText (n : Numeral) : '.' ∉ n.exponentText := by
  rw [Numeral.exponentText]
  cases n.exponent with
  | none => exact not_mem_nil
  | some e =>
    simp only [elim_some, mem_cons, Exponent.text, mem_append, not_or]
    refine ⟨?_, point_not_mem_signText _, point_not_mem_digits _⟩
    cases e.upper <;> decide

theorem padFraction_digits (f : List (Fin 10)) (d : Nat) :
    padFraction (f.map digitChar) d = (places f d).map digitChar := by
  have hs : ∀ ds : List (Fin 10), ((ds.map digitChar).map Char.utf8Size).sum = ds.length := by
    intro ds
    induction ds with
    | nil => rfl
    | cons a ds ih =>
      simp only [map_cons, sum_cons, ih, (digitChar_ne a).2.2.2.1, length_cons]
      omega
  rw [padFraction, places, ← map_take, hs, length_take, map_append,
    map_replicate]
  congr 2
  omega

/-! ## What is read of a numeral -/

/-- The exponent stands behind the digits that are kept. -/
def exponentCut (n : Numeral) (d : Nat) : Bool := n.fraction.any (d ≤ ·.length)

section Numeral

variable {n : Numeral} {d : Nat}

theorem text_of_none (h : n.fraction = none) :
    collectDigits n.text d = (Exponent.signText n.sign ++ n.int.map digitChar ++
      n.exponentText).dropWhile (· = '+') ++ padFraction [] d := by
  have ht : n.text = signText n.sign ++ n.int.map digitChar ++ n.exponentText := by
    simp [Numeral.text, h]
  have hp : '.' ∉ n.text := by
    rw [ht, mem_append, mem_append, not_or, not_or]
    exact ⟨⟨point_not_mem_signText _, point_not_mem_digits _⟩, point_not_mem_exponentText n⟩
  rw [collectDigits, splitPoint_of_not_mem hp, ht]

theorem text_of_some {f : List (Fin 10)} (h : n.fraction = some f) :
    collectDigits n.text d =
      (Exponent.signText n.sign ++ n.int.map digitChar).dropWhile (· = '+') ++
        padFraction (f.map digitChar ++ n.exponentText) d := by
  have ht : n.text = (signText n.sign ++ n.int.map digitChar) ++
      '.' :: (f.map digitChar ++ n.exponentText) := by
    simp [Numeral.text, h]
  have hp : '.' ∉ signText n.sign ++ n.int.map digitChar := by
    rw [mem_append, not_or]
    exact ⟨point_not_mem_signText _, point_not_mem_digits _⟩
  rw [collectDigits, ht, splitPoint_append hp]

/-- Without a visible exponent the digits around the point are collected, behind what is left of
the sign. -/
theorem collectDigits_read (h : n.exponent = none ∨ exponentCut n d = true) :
    collectDigits n.text d =
      (Exponent.signText n.sign ++ n.int.map digitChar).dropWhile (· = '+') ++
        (places (n.fraction.getD []) d).map digitChar := by
  cases hf : n.fraction with
  | none =>
    have he : n.exponentText = [] := by
      rcases h with h | h
      · rw [Numeral.exponentText, h, elim_none]
      · simp [exponentCut, hf] at h
    rw [text_of_none hf, he, append_nil, getD_none, ← padFraction_digits, map_nil]
  | some f =>
    rw [text_of_some hf, getD_some, ← padFraction_digits]
    rcases h with h | h
    · rw [Numeral.exponentText, h, elim_none, append_nil]
    · have hl : d ≤ (f.map digitChar).length := by
        simpa [exponentCut, hf] using h
      rw [padFraction, padFraction, take_append_of_le_length hl]

theorem dropWhile_plus_digits (ds : List (Fin 10)) :
    (ds.map digitChar).dropWhile (· = '+') = ds.map digitChar := by
  cases ds with
  | nil => rfl
  | cons a ds => rw [map_cons, dropWhile_cons_of_neg (by simpa using (digitChar_ne a).2.2.1)]

/-- Without a visible exponent the amount is read as its digits, or as zero when the number does
not fit in 256 bits. -/
theorem rawUnits_read (hn : 0 ≤ n.toRat) (h : n.exponent = none ∨ exponentCut n d = true) :
    rawUnits (collectDigits n.text d) =
      (Unsigned.ofNat? (value (n.int ++ places (n.fraction.getD []) d))).getD 0 := by
  rw [collectDigits_read h]
  have hp : rawUnits (n.int.map digitChar ++ (places (n.fraction.getD []) d).map digitChar) =
      (Unsigned.ofNat? (value (n.int ++ places (n.fraction.getD []) d))).getD 0 := by
    rw [← map_append, rawUnits_digits]
  cases hs : n.sign with
  | none => rwa [signText, nil_append, dropWhile_plus_digits]
  | some negative =>
    cases negative with
    | false =>
      rw [signText, singleton_append, dropWhile_cons_of_pos (by decide),
        dropWhile_plus_digits]
      exact hp
    | true =>
      -- The minus sign is no digit, and only zero has one.
      have hv : value (n.int ++ places (n.fraction.getD []) d) = 0 := by
        have hf := n.floor_mantissa d
        rw [n.mantissa_eq_zero hs hn, zero_mul, Int.floor_zero] at hf
        exact_mod_cast hf.symm
      rw [rawUnits_of_bad (c := '-') _ (by decide) (by decide), hv]
      · rfl
      · exact mem_append_left _ (mem_dropWhile (by simp [signText]) (by decide))

theorem rawUnits_exponent (h : n.exponent ≠ none) (hc : exponentCut n d = false) :
    rawUnits (collectDigits n.text d) = 0 := by
  obtain ⟨e, he⟩ := ne_none_iff_exists'.1 h
  have hm : ∃ c, n.exponentText = c :: e.text ∧ radixDigit c = none ∧ c ≠ '_' ∧ c ≠ '+' := by
    rw [Numeral.exponentText, he, elim_some]
    cases e.upper
    · exact ⟨'e', rfl, by decide⟩
    · exact ⟨'E', rfl, by decide⟩
  obtain ⟨c, ht, hb, hl, hp⟩ := hm
  refine rawUnits_of_bad (c := c) ?_ hb hl
  cases hf : n.fraction with
  | none =>
    rw [text_of_none hf, ht]
    exact mem_append_left _ (mem_dropWhile (by simp) (decide_eq_false hp))
  | some f =>
    have hlt : f.length < d := by simpa [exponentCut, hf] using hc
    rw [text_of_some hf, ht, padFraction]
    refine mem_append_right _ (mem_append_left _ ?_)
    rw [take_append, mem_append, length_map]
    obtain ⟨k, hk⟩ := Nat.exists_eq_add_of_lt hlt
    right
    rw [hk, Nat.add_assoc, Nat.add_sub_cancel_left, take_succ_cons]
    exact mem_cons_self

end Numeral

/-! ## What a cap compares -/

/-- `⌊⌊v · 10^d⌋ · 10^(9 - d)⌋`, the amount a cap is about. -/
def nanoValue (v : ℚ) (d : Nat) : Int := ⌊(⌊v * 10 ^ d⌋ : ℚ) * 10 ^ ((9 : Int) - d)⌋

/-- The nano amount is not below the amount the text denotes, and is that amount where a `Long`
holds it. -/
def Reported (n : Numeral) (d : Nat) : Prop :=
  ∃ nano, (hlAmountProjection n.text d).nano = some nano ∧
    min longMax (nanoValue n.toRat d) ≤ nano.val ∧
    (nanoValue n.toRat d ≤ longMax → nano.val = nanoValue n.toRat d)

/-- The amounts that are read for what they denote. The digits must fit in 256 bits; an exponent
must not change the amount where it is cut off with the last digits, and the amount must be below
one nano where it is not. -/
def Readable (n : Numeral) (d : Nat) : Prop :=
  if n.exponent = none ∨ exponentCut n d = true then
    if ⌊n.mantissa * 10 ^ d⌋ < 2 ^ 256 then
      min longMax (nanoValue n.mantissa d) = min longMax (nanoValue n.toRat d)
    else nanoValue n.toRat d = 0
  else nanoValue n.toRat d = 0

variable {v : Rat}

theorem nanoValue_mono {v' : Rat} (h : v ≤ v') (d : Nat) : nanoValue v d ≤ nanoValue v' d := by
  refine Int.floor_le_floor (mul_le_mul_of_nonneg_right ?_ (zpow_nonneg (by norm_num) _))
  have hp : (0 : ℚ) ≤ 10 ^ d := pow_nonneg (by norm_num) d
  exact Int.cast_le.2 (Int.floor_le_floor (mul_le_mul_of_nonneg_right h hp))

theorem nanoValue_nonneg (h : 0 ≤ v) (d : Nat) : 0 ≤ nanoValue v d := by
  have hz : nanoValue 0 d = 0 := by simp [nanoValue]
  exact hz ▸ nanoValue_mono h d

/-- A nano amount of at least `2 ^ 256` smallest units does not vanish. -/
theorem nanoValue_pos {d : Nat} (hd : d ≤ 18) (h : 2 ^ 256 ≤ ⌊v * 10 ^ d⌋) : 0 < nanoValue v d := by
  obtain ⟨k, hk⟩ := Int.eq_ofNat_of_zero_le ((by norm_num : (0 : Int) ≤ 2 ^ 256).trans h)
  have hk256 : 2 ^ 256 ≤ k := by
    rw [hk] at h
    exact_mod_cast h
  have hf := floor_shift k d
  rw [nanoValue, hk, Int.cast_natCast, hf, Int.natCast_pos]
  split
  · have hp : 10 ^ (d - 9) ≤ 10 ^ 9 := Nat.pow_le_pow_right (by decide) (by omega)
    exact Nat.div_pos (hp.trans (le_trans (by norm_num) hk256)) (by positivity)
  · exact Nat.mul_pos (lt_of_lt_of_le (by norm_num) hk256) (by positivity)

section Projection

variable {n : Numeral} {d : Nat}

theorem val_decimals (hd : d ≤ 18) : ((Unsigned.ofNat? d).getD .maxValue : Unsigned 8).val = d := by
  unfold Unsigned.ofNat?
  rw [dif_pos (by omega : d < 2 ^ 8), getD_some]

theorem nano_eq (hd : d ≤ 18) : (hlAmountProjection n.text d).nano = some
    (nanoFromDecimals (rawUnits (collectDigits n.text d)) ((Unsigned.ofNat? d).getD .maxValue)) ∧
    (nanoFromDecimals (rawUnits (collectDigits n.text d)) ((Unsigned.ofNat? d).getD .maxValue)).val
    = min longMax ⌊((rawUnits (collectDigits n.text d)).val : ℚ) * 10 ^ ((9 : Int) - d)⌋ := by
  refine ⟨rfl, ?_⟩
  rw [val_nanoFromDecimals _ (by rw [val_decimals hd]; omega), val_decimals hd]

/-- A projection reports the amount exactly when it is the clamped amount. -/
theorem reported_iff (hd : d ≤ 18) : Reported n d ↔
    min longMax ⌊((rawUnits (collectDigits n.text d)).val : ℚ) * 10 ^ ((9 : Int) - d)⌋ =
      min longMax (nanoValue n.toRat d) := by
  obtain ⟨hs, hv⟩ := nano_eq (n := n) hd
  constructor
  · rintro ⟨na, hn, hl, heq⟩
    obtain rfl := some.inj (hs.symm.trans hn)
    rw [hv] at hl heq
    refine le_antisymm ?_ hl
    rcases le_total (nanoValue n.toRat d) longMax with h | h
    · rw [heq h, min_eq_right h]
    · exact (min_le_left _ _).trans (min_eq_left h).ge
  · intro h
    refine ⟨_, hs, ?_, ?_⟩ <;> rw [hv, h]
    exact fun hl => min_eq_right hl

theorem min_zero_iff (hn : 0 ≤ n.toRat) {raw : Unsigned 256} (hr : raw.val = 0) :
    min longMax ⌊(raw.val : ℚ) * 10 ^ ((9 : Int) - d)⌋ = min longMax (nanoValue n.toRat d) ↔
      nanoValue n.toRat d = 0 := by
  have hm : 0 < longMax := by decide
  have := nanoValue_nonneg hn d
  rw [hr, Nat.cast_zero, zero_mul, Int.floor_zero]
  omega

theorem reported_iff_readable (hd : d ≤ 18) (hn : 0 ≤ n.toRat) : Reported n d ↔ Readable n d := by
  rw [reported_iff hd, Readable]
  split
  · next hr =>
    rw [rawUnits_read hn hr]
    have hf := n.floor_mantissa d
    split
    · next hfi =>
      -- The digits fit, and the nano amount is that of the mantissa.
      rw [hf] at hfi
      have hlt : value (n.int ++ places (n.fraction.getD []) d) < 2 ^ 256 := by exact_mod_cast hfi
      rw [Unsigned.ofNat?, dif_pos hlt, getD_some, nanoValue.eq_def n.mantissa, hf,
        Int.cast_natCast]
    · next hw =>
      rw [hf] at hw
      have hl : 2 ^ 256 ≤ value (n.int ++ places (n.fraction.getD []) d) := by
        exact_mod_cast not_lt.1 hw
      rw [Unsigned.ofNat?_eq_none.2 hl, getD_none]
      exact min_zero_iff hn rfl
  · next hr =>
    obtain ⟨he, hc⟩ := not_or.1 hr
    rw [rawUnits_exponent he (Bool.eq_false_iff.2 hc)]
    exact min_zero_iff hn rfl

/-- Plain decimals are readable exactly when their smallest units fit in 256 bits. -/
theorem readable_plain (hd : d ≤ 18) (hn : 0 ≤ n.toRat) (hp : n.exponent = none) :
    Readable n d ↔ ⌊n.toRat * 10 ^ d⌋ < 2 ^ 256 := by
  have hv : n.mantissa = n.toRat := by
    rw [n.toRat_of_nonneg hn, hp, elim_none, zpow_zero, mul_one]
  rw [Readable, if_pos (.inl hp), hv]
  split
  · next h => exact iff_of_true rfl h
  · next h => exact iff_of_false (nanoValue_pos hd (not_lt.1 h)).ne' h

end Projection

/-- An amount is reported to a cap exactly when it is readable, which for a plain decimal says that
its smallest units fit in 256 bits; and among readable amounts a cap that fires for one fires for
every larger one. -/
theorem hlAmountProjection_reported (d : Nat) (hd : d ≤ 18) :
    (∀ n : Numeral, 0 ≤ n.toRat → (Reported n d ↔ Readable n d) ∧
      (n.exponent = none → (Readable n d ↔ ⌊n.toRat * 10 ^ d⌋ < 2 ^ 256))) ∧
    ∀ n n' : Numeral, 0 ≤ n.toRat → n.toRat ≤ n'.toRat → Readable n d → Readable n' d →
      ∃ nano nano', (hlAmountProjection n.text d).nano = some nano ∧
        (hlAmountProjection n'.text d).nano = some nano' ∧ nano.val ≤ nano'.val ∧
        ∀ cap : Int, cap < nano.val → cap < nano'.val := by
  refine ⟨fun n hn => ⟨reported_iff_readable hd hn, readable_plain hd hn⟩, ?_⟩
  intro n n' hn hl hr hr'
  have hre := (reported_iff hd).1 ((reported_iff_readable hd hn).2 hr)
  have hre' := (reported_iff hd).1 ((reported_iff_readable hd (hn.trans hl)).2 hr')
  obtain ⟨hs, hv⟩ := nano_eq (n := n) hd
  obtain ⟨hs', hv'⟩ := nano_eq (n := n') hd
  have hna := nanoValue_mono hl d
  refine ⟨_, _, hs, hs', ?_, fun cap hc => hc.trans_le ?_⟩ <;>
    rw [hv, hv', hre, hre'] <;> exact min_le_min_left _ hna

/-- `500.25`. -/
def fiveHundredAndAQuarter : Numeral where
  sign := none
  int := [5, 0, 0]
  fraction := some [2, 5]
  digits_ne := by decide
  exponent := none

/-- One followed by so many zeros. -/
def powerOfTen (zeros : Nat) : Numeral where
  sign := none
  int := 1 :: List.replicate zeros 0
  fraction := none
  digits_ne := nofun
  exponent := none

theorem hlAmountProjection_reported_usdc :
    (6 : Nat) ≤ 18 ∧ 0 ≤ fiveHundredAndAQuarter.toRat ∧ Reported fiveHundredAndAQuarter 6 := by
  have hv : fiveHundredAndAQuarter.toRat = 2001 / 4 := by
    have hd : value [5, 0, 0, 2, 5] = 50025 := by decide
    simp only [Numeral.toRat, Numeral.mantissa, fiveHundredAndAQuarter, getD_some,
      cons_append, nil_append, hd]
    norm_num [signed, zpow_neg]
    rfl
  have hn : 0 ≤ fiveHundredAndAQuarter.toRat := by
    rw [hv]
    norm_num
  obtain ⟨ha, _⟩ := hlAmountProjection_reported 6 (by decide)
  obtain ⟨hi, hp⟩ := ha fiveHundredAndAQuarter hn
  refine ⟨by decide, hn, hi.2 ((hp rfl).2 ?_)⟩
  rw [hv]
  norm_num

/-- `10^80` is projected to nothing, where a cap should see the largest `Long`; and `1e9` too. -/
theorem hlAmountProjection_underreports :
    ((hlAmountProjection (powerOfTen 80).text 6).nano.map Signed.val = some 0 ∧
      ¬ Reported (powerOfTen 80) 6) ∧
    (hlAmountProjection "1e9".toList 6).nano.map Signed.val = some 0 ∧
    (hlAmountProjection "1000000000".toList 6).nano.map Signed.val = some (10 ^ 18) := by
  have hv : (powerOfTen 80).toRat = 10 ^ 80 := by
    have hd : value (1 :: replicate 80 0) = 10 ^ 80 := by decide +kernel
    simp only [Numeral.toRat, Numeral.mantissa, powerOfTen, getD_none, append_nil, hd]
    norm_num [signed]
    rfl
  refine ⟨⟨by decide +kernel, fun hr => ?_⟩, by decide +kernel, by decide +kernel⟩
  have hn : 0 ≤ (powerOfTen 80).toRat := by
    rw [hv]
    norm_num
  have hl := (readable_plain (by decide) hn rfl).1
    ((reported_iff_readable (by decide) hn).1 hr)
  rw [hv] at hl
  norm_num at hl

end Dambi.Lowering
