import Mathlib.Data.List.Basic

/-!
# Joining with a doubled separator

`a ++ [c, c] ++ s` is the encoding of a pair of words with a two-letter
separator, such as `manifest::spec`. Neither word is restricted, so the
encoding is not injective; `join_eq_join` says exactly which pairs share one.
-/

namespace Separator

variable {α : Type*}

/-- The pair `(a, s)` written with the doubled separator `c`. -/
def join (c : α) (a s : List α) : List α := a ++ c :: c :: s

/-- `(b, t)` reads the separator of a later position than `(a, s)` does: either
one letter later, inside a run of three separators, or at another separator
that `s` contains. -/
def Shifted (c : α) (a s b t : List α) : Prop :=
  (b = a ++ [c] ∧ s = c :: t) ∨ ∃ u, b = a ++ c :: c :: u ∧ s = u ++ c :: c :: t

variable {c : α} {a s b t : List α}

theorem Shifted.join_eq (h : Shifted c a s b t) : join c a s = join c b t := by
  rcases h with ⟨rfl, rfl⟩ | ⟨u, rfl, rfl⟩
  · simp [join]
  · simp [join]

/-- A shifted reading has a strictly longer first word. -/
theorem Shifted.length_lt (h : Shifted c a s b t) : a.length < b.length := by
  rcases h with ⟨rfl, -⟩ | ⟨u, rfl, -⟩ <;> simp

/-- The longer first word is the shorter one read up to a later separator. -/
private theorem shifted_of_suffix {w : List α} (h : c :: c :: s = w ++ c :: c :: t) :
    (w = [] ∧ s = t) ∨ Shifted c a s (a ++ w) t := by
  match w, h with
  | [], h => exact .inl ⟨rfl, by simpa using h⟩
  | [x], h =>
    obtain ⟨rfl, rfl⟩ : c = x ∧ s = c :: t := by simpa using h
    exact .inr (.inl ⟨rfl, rfl⟩)
  | x :: y :: u, h =>
    obtain ⟨rfl, rfl, rfl⟩ : c = x ∧ c = y ∧ s = u ++ c :: c :: t := by simpa using h
    exact .inr (.inr ⟨u, rfl, rfl⟩)

/-- Two pairs share their encoding exactly when they are equal or one of them
reads the separator at a later position of it. -/
theorem join_eq_join :
    join c a s = join c b t ↔ (a = b ∧ s = t) ∨ Shifted c a s b t ∨ Shifted c b t a s := by
  constructor
  · intro h
    rcases List.append_eq_append_iff.1 h with ⟨w, rfl, hw⟩ | ⟨w, rfl, hw⟩
    · rcases shifted_of_suffix (a := a) hw with ⟨rfl, rfl⟩ | hs
      · exact .inl ⟨by simp, rfl⟩
      · exact .inr (.inl hs)
    · rcases shifted_of_suffix (a := b) hw with ⟨rfl, rfl⟩ | hs
      · exact .inl ⟨by simp, rfl⟩
      · exact .inr (.inr hs)
  · rintro (⟨rfl, rfl⟩ | h | h)
    · rfl
    · exact h.join_eq
    · exact h.join_eq.symm

theorem append_cons_inj (ha : c ∉ a) (hb : c ∉ b) (h : a ++ c :: s = b ++ c :: t) :
    a = b ∧ s = t := by
  rcases List.append_eq_append_iff.1 h with ⟨w, rfl, hw⟩ | ⟨w, rfl, hw⟩
  · cases w with
    | nil => exact ⟨by simp, by simpa using hw⟩
    | cons x w =>
      obtain ⟨rfl, -⟩ := List.cons.inj hw
      exact absurd (by simp) hb
  · cases w with
    | nil => exact ⟨by simp, by simpa using hw.symm⟩
    | cons x w =>
      obtain ⟨rfl, -⟩ := List.cons.inj hw
      exact absurd (by simp) ha

theorem append_cons_inj_last (hs : c ∉ s) (ht : c ∉ t) (h : a ++ c :: s = b ++ c :: t) :
    a = b ∧ s = t := by
  have hr : s.reverse ++ c :: a.reverse = t.reverse ++ c :: b.reverse := by
    have := congrArg List.reverse h
    simpa using this
  obtain ⟨hst, ha⟩ := append_cons_inj (by simpa using hs) (by simpa using ht) hr
  exact ⟨List.reverse_injective ha, List.reverse_injective hst⟩

end Separator
