import Mathlib.Data.List.Basic

/-!
# Written numbers

What is read back from the digits that a number is written with: their value,
in any base up to sixteen, also behind leading zeros, so that a number is
determined by its digits.
-/

namespace Digits

open List

/-- The number that a character stands for. -/
def charValue (c : Char) : Nat := ((List.range 16).find? (Nat.digitChar · = c)).getD 0

theorem charValue_digitChar {d : Nat} (h : d < 16) : charValue (Nat.digitChar d) = d := by
  revert d
  decide

/-- The value of digits in a base. -/
def value (b : Nat) (digits : List Char) : Nat := digits.foldl (fun n c => b * n + charValue c) 0

theorem value_concat (b : Nat) (digits : List Char) (c : Char) :
    value b (digits ++ [c]) = b * value b digits + charValue c := by
  rw [value, foldl_append]
  rfl

variable {b n : Nat} {c : Char}

theorem value_toDigits (hb : 1 < b) (hl : b ≤ 16) (n : Nat) : value b (Nat.toDigits b n) = n := by
  induction n using Nat.strongRecOn with
  | ind n ih =>
    rcases Nat.lt_or_ge n b with hlt | hg
    · rw [Nat.toDigits_of_lt_base hlt, ← nil_append [_], value_concat,
        charValue_digitChar (Nat.lt_of_lt_of_le hlt hl), value, foldl_nil, Nat.mul_zero,
        Nat.zero_add]
    · have hm := Nat.mod_lt n (Nat.zero_lt_of_lt hb)
      rw [Nat.toDigits_of_base_le hb hg, value_concat,
        ih (n / b) (Nat.div_lt_self (by omega) hb), charValue_digitChar (Nat.lt_of_lt_of_le hm hl),
        Nat.div_add_mod]

theorem value_zeros (b k : Nat) (digits : List Char) :
    value b (List.replicate k '0' ++ digits) = value b digits := by
  induction k with
  | zero => rfl
  | succ k ih =>
    rw [← ih, replicate_succ, cons_append, value, foldl_cons, Nat.mul_zero]
    rfl

theorem exists_of_mem_toDigits (hb : 1 < b) (h : c ∈ Nat.toDigits b n) :
    ∃ d < b, c = Nat.digitChar d := by
  induction n using Nat.strongRecOn with
  | ind n ih =>
    rcases Nat.lt_or_ge n b with hl | hg
    · rw [Nat.toDigits_of_lt_base hl] at h
      exact ⟨n, hl, mem_singleton.1 h⟩
    · rw [Nat.toDigits_of_base_le hb hg] at h
      rcases mem_append.1 h with h | h
      · exact ih (n / b) (Nat.div_lt_self (by omega) hb) h
      · exact ⟨n % b, Nat.mod_lt n (Nat.zero_lt_of_lt hb), mem_singleton.1 h⟩

theorem toString_injective : Function.Injective (toString : Nat → String) := by
  intro m n h
  have hv := congrArg (fun s => value 10 s.toList) h
  simp only [Nat.toString_eq_ofList_toDigits, String.toList_ofList] at hv
  rwa [value_toDigits (by decide) (by decide), value_toDigits (by decide) (by decide)] at hv

/-- A numeral has no other characters than decimal digits. -/
theorem exists_of_mem_toString (h : c ∈ (toString n).toList) : ∃ d < 10, c = Nat.digitChar d := by
  rw [Nat.toString_eq_ofList_toDigits, String.toList_ofList] at h
  exact exists_of_mem_toDigits (by decide) h

end Digits
