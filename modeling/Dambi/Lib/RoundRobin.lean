import Mathlib.Data.List.Rotate
import Mathlib.Data.List.Sort

/-!
# Round robin

A list is sorted by a key and read from the element after a cursor on, and of those that
are ready the first are taken.
-/

namespace RoundRobin

open List

variable {α : Type} (key : α → Nat) (l : List α)

def sorted : List α := l.insertionSort fun a b => key a ≤ key b

def after : Option Nat → List α
  | none => sorted key l
  | some c => (sorted key l).rotate (((sorted key l).findIdx? (c < key ·)).getD 0)

theorem sorted_perm : (sorted key l).Perm l := List.perm_insertionSort _ l

theorem after_perm (c : Option Nat) : (after key l c).Perm l := by
  cases c with
  | none => exact sorted_perm key l
  | some c => exact (rotate_perm _ _).trans (sorted_perm key l)

theorem sorted_pairwise : (sorted key l).Pairwise fun a b => key a ≤ key b := by
  have : Std.Total fun a b => key a ≤ key b := ⟨fun _ _ => le_total _ _⟩
  have : IsTrans α fun a b => key a ≤ key b := ⟨fun _ _ _ => le_trans⟩
  exact pairwise_insertionSort _ l

section Distinct

variable {key} {l l' A B P Q : List α} {x : α} {c : Option Nat} (hd : (l.map key).Nodup)
include hd

theorem sorted_congr (h : l.Perm l') : sorted key l = sorted key l' := by
  refine List.Perm.eq_of_pairwise (fun a b ha hb hab hba => ?_) (sorted_pairwise key l)
    (sorted_pairwise key l') (((sorted_perm key l).trans h).trans (sorted_perm key l').symm)
  have ha := (sorted_perm key l).mem_iff.1 ha
  have hb := h.mem_iff.2 ((sorted_perm key l').mem_iff.1 hb)
  exact inj_on_of_nodup_map hd ha hb (le_antisymm hab hba)

theorem after_congr (h : l.Perm l') : after key l c = after key l' c := by
  cases c <;> simp only [after, sorted_congr hd h]

theorem after_of_sorted (h : sorted key l = A ++ x :: B) :
    after key l (some (key x)) = B ++ (A ++ [x]) := by
  have hn := ((sorted_perm key l).map key).nodup_iff.2 hd
  have hs := (sorted_pairwise key l).and (pairwise_map.1 hn)
  rw [h, append_cons] at hs
  obtain ⟨hs, -, hB⟩ := pairwise_append.1 hs
  have hA : (A ++ [x]).findIdx? (key x < key ·) = none := by
    rw [findIdx?_eq_none_iff]
    intro y hy
    rcases mem_append.1 hy with hy | hy
    · have := (pairwise_append.1 hs).2.2 y hy x mem_cons_self
      simpa using this.1
    · simp [mem_singleton.1 hy]
  rw [after, h, append_cons, findIdx?_append, hA]
  cases B with
  | nil => simp
  | cons b B =>
    obtain ⟨hle, hne⟩ := hB x (by simp) b (by simp)
    have hb : key x < key b := by omega
    simp only [findIdx?_cons, hb, decide_true, if_true, Option.none_or, Option.map_some,
      Option.getD_some, Nat.zero_add]
    exact rotate_append_length_eq _ _

/-- What stands behind the new cursor comes first, whatever the cursor was. -/
theorem after_key (h : after key l c = P ++ x :: Q) :
    after key l (some (key x)) = Q ++ (P ++ [x]) := by
  obtain ⟨T, D, hs, hr⟩ : ∃ T D, sorted key l = T ++ D ∧ after key l c = D ++ T := by
    cases c with
    | none => exact ⟨[], sorted key l, rfl, by simp [after]⟩
    | some c => exact ⟨_, _, (take_append_drop _ _).symm, rotate_eq_drop_append_take_mod⟩
  rw [h] at hr
  rcases append_eq_append_iff.1 hr with ⟨D', rfl, hx⟩ | ⟨P', rfl, rfl⟩
  · rcases cons_eq_append_iff.1 hx with ⟨rfl, rfl⟩ | ⟨D, rfl, rfl⟩
    · simpa using after_of_sorted hd (A := []) hs
    · simpa using after_of_sorted hd (A := T ++ P) (by simpa using hs)
  · simpa using after_of_sorted hd (A := P') (B := Q ++ D) (by simpa using hs)

end Distinct

/-- One that is ready is passed over only if enough before it are ready. -/
theorem exists_last_of_notMem_take {p : α → Bool} {U V : List α} {w : α} {k : Nat} (hw : p w)
    (h : w ∉ ((U ++ w :: V).filter p).take (k + 1)) :
    ∃ P x Q, U = P ++ x :: Q ∧ ((U ++ w :: V).filter p).take (k + 1) = P.filter p ++ [x] ∧
      k ≤ P.length := by
  rw [filter_append, filter_cons_of_pos hw] at h ⊢
  have hk : k < (U.filter p).length := by
    by_contra hk
    refine h ?_
    obtain ⟨m, hm⟩ : ∃ m, k + 1 - (U.filter p).length = m + 1 := ⟨k - (U.filter p).length, by omega⟩
    simp [take_append, hm]
  obtain ⟨x, r, hr⟩ : ∃ x r, (U.filter p).drop k = x :: r :=
    exists_cons_of_length_pos (by rw [length_drop]; omega)
  have hf := (take_append_drop k (U.filter p)).symm
  rw [hr] at hf
  obtain ⟨U₁, U₂, rfl, h₁, h₂⟩ := filter_eq_append_iff.1 hf
  obtain ⟨U₃, U₄, rfl, h₃, -, -⟩ := filter_eq_cons_iff.1 h₂
  have hP : (U₁ ++ U₃).filter p = ((U₁ ++ (U₃ ++ x :: U₄)).filter p).take k := by
    rw [filter_append, filter_eq_nil_iff.2 h₃, append_nil, h₁]
  refine ⟨U₁ ++ U₃, x, U₄, by simp, ?_, ?_⟩
  · rw [take_append_of_le_length hk, hP, take_add_one, ← head?_drop, hr]
    rfl
  · have := length_filter_le p (U₁ ++ U₃)
    rw [hP, length_take] at this
    omega

end RoundRobin
