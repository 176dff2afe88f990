import Mathlib.Data.Rat.Cast.CharZero
import Mathlib.Data.Rat.Floor
import Mathlib.Tactic.FieldSimp
import Mathlib.Tactic.Linarith
import Mathlib.Data.List.DropRight
import Mathlib.Data.Nat.Digits.Lemmas
import Mathlib.Tactic.Positivity

/-!
# Decimal numbers

Digits with the most significant one first, the number literals of JSON, and the
normal form of a decimal: a sign, a coefficient that neither begins nor ends with
a zero, and a power of ten.
-/

namespace Decimal

open List

/-! ## Digits -/

/-- The numerals of every digit rest on this one proof. -/
instance neZero_base : NeZero 10 := inferInstance

def value (ds : List (Fin 10)) : Nat := Nat.ofDigits 10 (ds.reverse.map Fin.val)

@[simp] theorem value_nil : value [] = 0 := rfl

theorem value_append (as bs : List (Fin 10)) :
    value (as ++ bs) = value as * 10 ^ bs.length + value bs := by
  simp [value, Nat.ofDigits_append, Nat.add_comm, Nat.mul_comm]

theorem value_replicate_zero (n : Nat) : value (List.replicate n 0) = 0 := by
  induction n with
  | zero => rfl
  | succ n ih => rw [replicate_succ', value_append, ih]; rfl

def digits (n : Nat) : List (Fin 10) :=
  ((List.range (Nat.log 10 n + 1)).map fun i => Fin.ofNat 10 (n / 10 ^ i)).reverse

theorem ofDigits_range (n length : Nat) :
    Nat.ofDigits 10 ((List.range length).map fun i => n / 10 ^ i % 10) = n % 10 ^ length := by
  induction length with
  | zero => simp [Nat.mod_one]
  | succ length ih =>
    rw [range_succ, map_append, Nat.ofDigits_append, ih, Nat.mod_pow_succ]
    simp

@[simp] theorem value_digits (n : Nat) : value (digits n) = n := by
  have hl : n < 10 ^ (Nat.log 10 n + 1) := Nat.lt_pow_succ_log_self (by decide) n
  rw [value, digits, reverse_reverse, map_map]
  exact (ofDigits_range n _).trans (Nat.mod_eq_of_lt hl)

/-! ## Zeros at the ends -/

section Trim

variable (ds : List (Fin 10))

theorem value_eq_zero (h : ∀ d ∈ ds, d = 0) : value ds = 0 := by
  rw [eq_replicate_of_mem h]
  exact value_replicate_zero _

theorem value_dropWhile : value (ds.dropWhile (· = 0)) = value ds := by
  have hz : value (ds.takeWhile (· = 0)) = 0 :=
    value_eq_zero _ fun d hd => by simpa using mem_takeWhile_imp hd
  conv_rhs => rw [← takeWhile_append_dropWhile (p := (· = 0)) (l := ds), value_append, hz]
  simp

theorem value_rdropWhile : value ds = value (ds.rdropWhile (· = 0)) *
    10 ^ (ds.length - (ds.rdropWhile (· = 0)).length) := by
  have hs := rdropWhile_append_rtakeWhile (p := fun d : Fin 10 => decide (d = 0)) (l := ds)
  have hl := congrArg length hs
  have hz : value (ds.rtakeWhile (· = 0)) = 0 :=
    value_eq_zero _ fun d hd => by simpa using mem_rtakeWhile_imp hd
  rw [length_append] at hl
  conv_lhs => rw [← hs, value_append, hz]
  rw [← hl, Nat.add_sub_cancel_left, Nat.add_zero]

end Trim

/-- Digits that neither begin nor end with a zero. -/
structure Trimmed (cs : List (Fin 10)) : Prop where
  ne_nil : cs ≠ []
  head_ne : cs.head ne_nil ≠ 0
  last_ne : cs.getLast ne_nil ≠ 0

namespace Trimmed

variable {cs cs' : List (Fin 10)}

theorem not_dvd (h : Trimmed cs) : ¬ 10 ∣ value cs := by
  rw [← dropLast_append_getLast h.ne_nil, value_append]
  intro hd
  have hl : value [cs.getLast h.ne_nil] = (cs.getLast h.ne_nil).val := by simp [value]
  have hn : (cs.getLast h.ne_nil).val ≠ 0 := fun hz => h.last_ne (Fin.ext hz)
  have hlt := (cs.getLast h.ne_nil).isLt
  simp only [length_singleton, pow_one, hl] at hd
  omega

theorem eq_of_value_eq (h : Trimmed cs) (h' : Trimmed cs') (heq : value cs = value cs') :
    cs = cs' := by
  have hdi : ∀ {ds}, Trimmed ds → Nat.digits 10 (value ds) = ds.reverse.map Fin.val := by
    intro ds hds
    refine Nat.digits_ofDigits 10 (by decide) _ ?_ ?_
    · intro d hd
      obtain ⟨d, -, rfl⟩ := mem_map.1 hd
      exact d.isLt
    · intro hn hz
      rw [getLast_map, getLast_reverse] at hz
      exact hds.head_ne (Fin.ext hz)
  have hm : cs.reverse.map Fin.val = cs'.reverse.map Fin.val := by
    rw [← hdi h, ← hdi h', heq]
  exact reverse_injective (map_injective_iff.2 Fin.val_injective hm)

end Trimmed

/-- What is left of digits without the zeros at both ends. -/
theorem trimmed_of_ne_nil {ds : List (Fin 10)} (h : ds.dropWhile (· = 0) ≠ []) :
    Trimmed ((ds.dropWhile (· = 0)).rdropWhile (· = 0)) := by
  have hh : (ds.dropWhile (· = 0)).head h ≠ 0 := by
    simpa using head_dropWhile_not (fun d : Fin 10 => decide (d = 0)) h
  have hn : (ds.dropWhile (· = 0)).rdropWhile (· = 0) ≠ [] := by
    intro hni
    have ha := rdropWhile_eq_nil_iff.1 hni _ (head_mem h)
    exact hh (of_decide_eq_true ha)
  refine ⟨hn, ?_, ?_⟩
  · rwa [(List.rdropWhile_prefix _ _).head hn]
  · simpa using rdropWhile_last_not (fun d : Fin 10 => decide (d = 0)) _ hn

/-! ## The normal form -/

theorem eq_of_mul_zpow_eq {a b : Nat} {s t : Int} (ha : ¬ 10 ∣ a) (hb : ¬ 10 ∣ b)
    (h : (a : ℚ) * 10 ^ s = b * 10 ^ t) : a = b ∧ s = t := by
  wlog hle : s ≤ t generalizing a b s t
  · obtain ⟨hab, hs⟩ := this hb ha h.symm (le_of_not_ge hle)
    exact ⟨hab.symm, hs.symm⟩
  obtain ⟨n, rfl⟩ := Int.le.dest hle
  have hn : a = b * 10 ^ n := by
    rw [zpow_add₀ (by norm_num), mul_comm ((10 : ℚ) ^ s), ← mul_assoc, zpow_natCast] at h
    exact_mod_cast mul_right_cancel₀ (zpow_ne_zero s (by norm_num)) h
  cases n with
  | zero => exact ⟨by simpa using hn, by simp⟩
  | succ n =>
    refine absurd ⟨b * 10 ^ n, ?_⟩ ha
    rw [hn, pow_succ]
    ring

/-- `± coefficient · 10 ^ scale`. -/
structure Scaled where
  negative : Bool
  coefficient : List (Fin 10)
  scale : Int
deriving DecidableEq

def signed (negative : Bool) (r : ℚ) : ℚ := if negative then -r else r

namespace Scaled

def toRat (n : Scaled) : ℚ := signed n.negative (value n.coefficient * 10 ^ n.scale)

/-- Zero has one normal form, any other number a trimmed coefficient. -/
inductive Normal : Scaled → Prop
  | zero : Normal ⟨false, [0], 0⟩
  | trimmed {n} (h : Trimmed n.coefficient) : Normal n

variable {n n' : Scaled}

theorem magnitude_pos (h : Trimmed n.coefficient) :
    (0 : ℚ) < value n.coefficient * 10 ^ n.scale := by
  have hp : 0 < value n.coefficient := Nat.pos_of_ne_zero fun hz => h.not_dvd (by simp [hz])
  exact mul_pos (by exact_mod_cast hp) (zpow_pos (by norm_num) _)

theorem toRat_ne_zero (h : Trimmed n.coefficient) : n.toRat ≠ 0 := by
  have hp := magnitude_pos h
  unfold toRat signed
  split
  · exact neg_ne_zero.2 hp.ne'
  · exact hp.ne'

theorem Normal.eq_of_toRat_eq (h : n.Normal) (h' : n'.Normal) (heq : n.toRat = n'.toRat) :
    n = n' := by
  cases h with
  | zero =>
    cases h' with
    | zero => rfl
    | trimmed h' => exact absurd (by simpa [toRat, signed, value] using heq.symm) (toRat_ne_zero h')
  | trimmed h =>
    cases h' with
    | zero => exact absurd (by simpa [toRat, signed, value] using heq) (toRat_ne_zero h)
    | trimmed h' =>
      obtain ⟨negative, cs, s⟩ := n
      obtain ⟨negative', cs', s'⟩ := n'
      have hp := magnitude_pos h
      have hp' := magnitude_pos h'
      simp only [toRat, signed] at heq hp hp'
      have hn : negative = negative' := by
        cases negative <;> cases negative' <;> simp at heq ⊢ <;> linarith
      subst hn
      have hm : (value cs : ℚ) * 10 ^ s = value cs' * 10 ^ s' := by
        cases negative <;> simpa using heq
      obtain ⟨hv, rfl⟩ := eq_of_mul_zpow_eq h.not_dvd h'.not_dvd hm
      obtain rfl : cs = cs' := h.eq_of_value_eq h' hv
      rfl

end Scaled

/-! ## Literals -/

def digitChar (d : Fin 10) : Char := Char.ofNat (48 + d)

structure Exponent where
  upper : Bool
  /-- An explicit sign, `true` for `-`. -/
  sign : Option Bool
  digits : List (Fin 10)
  digits_ne : digits ≠ []

namespace Exponent

def signText : Option Bool → List Char
  | none => []
  | some true => ['-']
  | some false => ['+']

/-- What stands after the `e`. -/
def text (e : Exponent) : List Char := signText e.sign ++ e.digits.map digitChar

def toInt (e : Exponent) : Int :=
  if e.sign = some true then -(value e.digits : Int) else value e.digits

end Exponent

/-- A number literal of JSON; zeros in front are allowed. -/
structure Literal where
  negative : Bool
  int : List (Fin 10)
  int_ne : int ≠ []
  fraction : Option (List (Fin 10))
  fraction_ne : fraction ≠ some []
  exponent : Option Exponent

namespace Literal

variable (l : Literal)

def digits : List (Fin 10) := l.int ++ l.fraction.getD []

/-- What stands in front of the exponent, without the sign. -/
def mantissa : List Char :=
  l.int.map digitChar ++ l.fraction.elim [] fun fraction => '.' :: fraction.map digitChar

def exponentText : List Char :=
  l.exponent.elim [] fun e => (if e.upper then 'E' else 'e') :: e.text

def text : List Char :=
  (if l.negative then ['-'] else []) ++ l.mantissa ++ l.exponentText

/-- The power of ten that the last digit counts. -/
def scale : Int := l.exponent.elim 0 Exponent.toInt - (l.fraction.getD []).length

/-- The number that is written. -/
def toRat : ℚ := signed l.negative (value l.digits * 10 ^ l.scale)

/-- Digits, or a zero if there are none. -/
def orZero : List (Fin 10) → List (Fin 10)
  | [] => [0]
  | ds => ds

theorem orZero_ne (ds : List (Fin 10)) : orZero ds ≠ [] := by
  cases ds <;> simp [orZero]

@[simp] theorem value_orZero (ds : List (Fin 10)) : value (orZero ds) = value ds := by
  cases ds <;> rfl

/-- `± coefficient · 10 ^ k` without an exponent. -/
def positional (negative : Bool) (coefficient : List (Fin 10)) (k : Int) : Literal :=
  let places := (-k).toNat
  let point := coefficient.length - places
  if h : k < 0 then {
    negative
    int := orZero (coefficient.take point)
    int_ne := orZero_ne _
    fraction := some (List.replicate (places - coefficient.length) 0 ++ coefficient.drop point)
    fraction_ne := by
      intro hnil
      have hlength := congrArg List.length (Option.some.inj hnil)
      simp only [List.length_append, List.length_replicate, List.length_drop,
        List.length_nil] at hlength
      omega
    exponent := none }
  else {
    negative
    int := orZero (coefficient ++ List.replicate k.toNat 0)
    int_ne := orZero_ne _
    fraction := none
    fraction_ne := nofun
    exponent := none }

section Written

variable (negative : Bool) (c : List (Fin 10)) (k : Int)

theorem positional_toRat :
    (positional negative c k).toRat = signed negative (value c * 10 ^ k) := by
  rcases lt_or_ge k 0 with hk | hk
  · obtain ⟨n, rfl⟩ : ∃ n : Nat, k = -(n : Int) := ⟨(-k).toNat, by omega⟩
    have hn : 0 < n := by omega
    have hl : n - c.length + (c.length - (c.length - n)) = n := by omega
    have hv : value (orZero (c.take (c.length - n)) ++
        (List.replicate (n - c.length) 0 ++ c.drop (c.length - n))) = value c := by
      conv_rhs => rw [← take_append_drop (c.length - n) c, value_append]
      rw [value_append, value_append, value_replicate_zero, value_orZero]
      rcases Nat.le_total c.length n with hle | hle <;> simp [Nat.sub_eq_zero_of_le hle]
    simp [positional, hn, toRat, digits, scale, hl, hv]
  · obtain ⟨n, rfl⟩ := Int.eq_ofNat_of_zero_le hk
    simp [positional, hk.not_gt, toRat, digits, scale, value_append, value_replicate_zero]

end Written

end Literal

/-! ## Numerals -/

theorem value_lt (ds : List (Fin 10)) : value ds < 10 ^ ds.length := by
  have h := Nat.ofDigits_lt_base_pow_length (b := 10) (l := ds.reverse.map Fin.val) (by decide)
    fun x hx => by
      obtain ⟨d, _, rfl⟩ := mem_map.1 hx
      exact d.isLt
  simpa [value] using h

/-- The first `d` digits of a fraction, with zeros behind them where there are fewer. -/
def places (fraction : List (Fin 10)) (d : Nat) : List (Fin 10) :=
  fraction.take d ++ List.replicate (d - fraction.length) 0

/-- Moving the point by `d` places and dropping what is left behind it. -/
theorem floor_point (int f : List (Fin 10)) (d : Nat) :
    ⌊(value (int ++ f) : ℚ) * 10 ^ (-(f.length : Int)) * 10 ^ d⌋ =
      value (int ++ places f d) := by
  rw [zpow_neg, zpow_natCast, ← div_eq_mul_inv]
  rcases Nat.le_total f.length d with h | h
  · -- Every digit stays in front of the point.
    obtain ⟨k, rfl⟩ := Nat.exists_eq_add_of_le h
    rw [places, take_of_length_le h, Nat.add_sub_cancel_left, ← append_assoc,
      value_append _ (replicate k 0), value_replicate_zero, pow_add]
    have hp : (10 : ℚ) ^ f.length ≠ 0 := by positivity
    rw [← mul_assoc, div_mul_cancel₀ _ hp, length_replicate, Nat.add_zero]
    exact_mod_cast Int.floor_natCast _
  · have ht : value (f.drop d) < 10 ^ (f.length - d) := by
      simpa using value_lt (f.drop d)
    have hs : value (int ++ f) =
        value (int ++ f.take d) * 10 ^ (f.length - d) + value (f.drop d) := by
      rw [← length_drop, ← value_append, append_assoc, take_append_drop]
    have hp : (10 : ℚ) ^ f.length = 10 ^ (f.length - d) * 10 ^ d := by
      rw [← pow_add, Nat.sub_add_cancel h]
    have hd : (10 : ℚ) ^ d ≠ 0 := by positivity
    rw [places, Nat.sub_eq_zero_of_le h, replicate_zero, append_nil, hp,
      div_mul_eq_mul_div, mul_div_mul_right _ _ hd, hs]
    have hpo : 0 < 10 ^ (f.length - d) := by positivity
    have hdi : (value (int ++ f.take d) * 10 ^ (f.length - d) +
        value (f.drop d)) / 10 ^ (f.length - d) = value (int ++ f.take d) := by
      rw [Nat.mul_comm, Nat.mul_add_div hpo, Nat.div_eq_of_lt ht, Nat.add_zero]
    have hf := Rat.floor_natCast_div_natCast
      (value (int ++ f.take d) * 10 ^ (f.length - d) + value (f.drop d))
      (10 ^ (f.length - d))
    rw [← Int.natCast_ediv, hdi] at hf
    rwa [Nat.cast_pow, Nat.cast_ofNat] at hf

/-- A number as people write it: a sign, digits with or without a point, an exponent. -/
structure Numeral where
  /-- An explicit sign, `true` for `-`. -/
  sign : Option Bool
  int : List (Fin 10)
  fraction : Option (List (Fin 10))
  digits_ne : int ++ fraction.getD [] ≠ []
  exponent : Option Exponent

namespace Numeral

variable (n : Numeral)

def exponentText : List Char :=
  n.exponent.elim [] fun e => (if e.upper then 'E' else 'e') :: e.text

def text : List Char :=
  Exponent.signText n.sign ++ n.int.map digitChar ++
    (n.fraction.elim [] fun fraction => '.' :: fraction.map digitChar) ++ n.exponentText

/-- The number that the digits write, without sign and exponent. -/
def mantissa : ℚ :=
  value (n.int ++ n.fraction.getD []) * 10 ^ (-((n.fraction.getD []).length : Int))

/-- The number that is written. -/
def toRat : ℚ :=
  signed (n.sign = some true) (n.mantissa * 10 ^ n.exponent.elim 0 Exponent.toInt)

theorem mantissa_nonneg : 0 ≤ n.mantissa := by
  have hp : (0 : ℚ) < 10 ^ (-((n.fraction.getD []).length : Int)) := zpow_pos (by norm_num) _
  exact mul_nonneg (Nat.cast_nonneg _) hp.le

theorem floor_mantissa (d : Nat) :
    ⌊n.mantissa * 10 ^ d⌋ = value (n.int ++ places (n.fraction.getD []) d) :=
  floor_point _ _ d

theorem mantissa_eq_zero (hs : n.sign = some true) (hn : 0 ≤ n.toRat) : n.mantissa = 0 := by
  have hp : (0 : ℚ) < 10 ^ n.exponent.elim 0 Exponent.toInt := zpow_pos (by norm_num) _
  have hl : n.mantissa * 10 ^ n.exponent.elim 0 Exponent.toInt ≤ 0 := by
    simpa [toRat, hs, signed] using hn
  exact le_antisymm (nonpos_of_mul_nonpos_left hl hp) n.mantissa_nonneg

theorem toRat_of_nonneg (hn : 0 ≤ n.toRat) :
    n.toRat = n.mantissa * 10 ^ n.exponent.elim 0 Exponent.toInt := by
  by_cases hs : n.sign = some true
  · simp [toRat, n.mantissa_eq_zero hs hn, signed]
  · simp [toRat, hs, signed]

end Numeral

end Decimal
