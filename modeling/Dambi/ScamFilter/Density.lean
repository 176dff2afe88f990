import Mathlib.Data.Finset.Max
import Mathlib.Data.List.Induction
import Dambi.Lib.FixedWidth

/-!
# The densest window

`r2_evidence` in `scam-filter/src/rules.rs`. It only looks at windows that end at a
switch; a window that ends elsewhere holds no more than the one that ends at its last
switch.
-/

namespace Dambi.ScamFilter

open FixedWidth List

abbrev I64 := Signed 63

/-- `saturating_sub`. -/
def I64.saturatingSub (a b : I64) : I64 := .clamp (a.val - b.val)

/-- Events in `(lo, hi]`. -/
def inWindow (events : List I64) (lo hi : I64) : List I64 :=
  events.filter fun e => lo < e ∧ e ≤ hi

/-- A candidate replaces the best one so far unless it counts less. -/
def keepBest (f : I64 → Nat) (lo : I64 → I64) (best : Option (Nat × I64 × I64)) (e : I64) :
    Option (Nat × I64 × I64) :=
  if best.all (·.1 ≤ f e) then some (f e, lo e, e) else best

/-- The count, the start and the end of the window with the most switches. -/
def r2Evidence (switches : List I64) (windowMs b t : I64) : Option (Nat × I64 × I64) :=
  let s := inWindow switches b t
  let lo := fun e : I64 => max b (e.saturatingSub windowMs)
  s.foldl (keepBest (fun e => s.countP fun x => lo e < x ∧ x ≤ e) lo) none

/-! ## The last of the best -/

/-- The fold keeps the last of the elements that count most. -/
theorem foldl_keepBest {s : List I64} {f : I64 → Nat} {lo : I64 → I64}
    (h : s.Pairwise (· < ·)) (hn : s ≠ []) :
    ∃ e ∈ s, s.foldl (keepBest f lo) none = some (f e, lo e, e) ∧
      ∀ x ∈ s, f x ≤ f e ∧ (f x = f e → x ≤ e) := by
  induction s using reverseRecOn with
  | nil => exact absurd rfl hn
  | append_singleton s a ih =>
    obtain ⟨hs, -, hl⟩ := pairwise_append.1 h
    rw [foldl_append, foldl_cons, foldl_nil]
    by_cases hne : s = []
    · subst hne
      exact ⟨a, by simp, rfl, by simp⟩
    obtain ⟨e, he, hf, hb⟩ := ih hs hne
    rw [hf]
    by_cases hc : f e ≤ f a
    · refine ⟨a, by simp, by simp [keepBest, hc], fun x hx => ?_⟩
      rcases mem_append.1 hx with hx | hx
      · exact ⟨(hb x hx).1.trans hc, fun _ => (hl x hx a (by simp)).le⟩
      · cases mem_singleton.1 hx
        exact ⟨le_rfl, fun _ => le_rfl⟩
    · refine ⟨e, by simp [he], by simp [keepBest, hc], fun x hx => ?_⟩
      rcases mem_append.1 hx with hx | hx
      · exact hb x hx
      · cases mem_singleton.1 hx
        exact ⟨by omega, fun heq => by omega⟩

/-! ## Windows that end anywhere -/

/-- The number of switches in `(max(b, e - w), e]`. -/
def density (switches : List I64) (w b e : Int) : Nat :=
  switches.countP fun x => max b (e - w) < x.val ∧ x.val ≤ e

section

variable {switches : List I64} {w b t : I64}

theorem mem_inWindow {x : I64} : x ∈ inWindow switches b t ↔ x ∈ switches ∧ b < x ∧ x ≤ t := by
  simp [inWindow]

theorem val_windowStart (e : I64) (hw : 0 < w.val) :
    (max b (e.saturatingSub w)).val = max b.val (e.val - w.val) := by
  have hb := b.lower
  have he := e.upper
  have hm : (max b (e.saturatingSub w)).val = max b.val (e.saturatingSub w).val := by
    rcases le_total b (e.saturatingSub w) with h | h
    · rw [max_eq_right h, max_eq_right (Signed.le_iff.1 h)]
    · rw [max_eq_left h, max_eq_left (Signed.le_iff.1 h)]
  rw [hm, I64.saturatingSub, Signed.val_clamp]
  omega

theorem countP_inWindow {e : I64} (hw : 0 < w.val) (he : e ≤ t) :
    ((inWindow switches b t).countP fun x => max b (e.saturatingSub w) < x ∧ x ≤ e) =
      density switches w.val b.val e.val := by
  have hs := val_windowStart (b := b) e hw
  rw [inWindow, countP_filter, density]
  refine countP_congr fun x _ => ?_
  simp only [← not_le, Signed.le_iff, Bool.and_eq_true, decide_eq_true_eq, hs] at he ⊢
  omega

/-- The exchange: a window holds no more than the one that ends at its last switch. -/
theorem exists_density_le {i : Int} (hi : i ≤ t.val) (hp : 0 < density switches w.val b.val i) :
    ∃ x ∈ inWindow switches b t,
      density switches w.val b.val i ≤ density switches w.val b.val x.val := by
  let held := switches.filter fun x => max b.val (i - w.val) < x.val ∧ x.val ≤ i
  have hne : held.toFinset.Nonempty := by
    obtain ⟨x, hx, hx'⟩ := countP_pos_iff.1 hp
    exact ⟨x, mem_toFinset.2 (mem_filter.2 ⟨hx, hx'⟩)⟩
  obtain ⟨x, hx, hl⟩ := held.toFinset.exists_max_image id hne
  obtain ⟨hm, hx⟩ : x ∈ switches ∧ max b.val (i - w.val) < x.val ∧ x.val ≤ i := by
    simpa [held] using hx
  refine ⟨x, mem_inWindow.2 ⟨hm, ?_, ?_⟩, countP_mono_left fun y hy hyi => ?_⟩
  · rw [← not_le, Signed.le_iff]
    omega
  · rw [Signed.le_iff]
    omega
  · have hle : y.val ≤ x.val := hl y (mem_toFinset.2 (mem_filter.2 ⟨hy, hyi⟩))
    simp only [decide_eq_true_eq] at hyi ⊢
    omega

end

/-- The evidence is the window with the most switches of all that end in `(b, t]`, the latest
one that ends at a switch; there is none exactly if there is no switch. -/
theorem r2_evidence_densest (switches : List I64) (h : switches.Pairwise (· < ·)) (w b t : I64)
    (hw : 0 < w.val) :
    (r2Evidence switches w b t = none ↔ ∀ x ∈ switches, ¬ (b < x ∧ x ≤ t)) ∧
      ∀ c lo e, r2Evidence switches w b t = some (c, lo, e) →
        (e ∈ switches ∧ b < e ∧ e ≤ t) ∧ lo.val = max b.val (e.val - w.val) ∧
        c = density switches w.val b.val e.val ∧
        (∀ i, b.val < i → i ≤ t.val → density switches w.val b.val i ≤ c) ∧
        ∀ x ∈ switches, b < x → x ≤ t → density switches w.val b.val x.val = c → x ≤ e := by
  by_cases hn : inWindow switches b t = []
  · have hr : r2Evidence switches w b t = none := by simp [r2Evidence, hn]
    rw [hr]
    refine ⟨iff_of_true rfl fun x hx hxt => ?_, fun _ _ _ he => by cases he⟩
    exact ne_nil_of_mem (mem_inWindow.2 ⟨hx, hxt⟩) hn
  · obtain ⟨e, he, hf, hb⟩ := foldl_keepBest (h.filter _) hn
    have hr : r2Evidence switches w b t = some _ := hf
    obtain ⟨hm, hbe, het⟩ := mem_inWindow.1 he
    rw [hr]
    refine ⟨iff_of_false nofun fun hall => hall e hm ⟨hbe, het⟩, fun c lo e' heq => ?_⟩
    cases heq
    rw [countP_inWindow hw het] at hb ⊢
    refine ⟨⟨hm, hbe, het⟩, val_windowStart e hw, rfl, fun i _ hi => ?_, fun x hx hbx hxt hd => ?_⟩
    · by_contra hlt
      obtain ⟨x, hx, hle⟩ := exists_density_le hi (Nat.zero_lt_of_lt (not_le.1 hlt))
      have hxe := (hb x hx).1
      rw [countP_inWindow hw (mem_inWindow.1 hx).2.2] at hxe
      omega
    · refine (hb x (mem_inWindow.2 ⟨hx, hbx, hxt⟩)).2 ?_
      rw [countP_inWindow hw hxt, hd]

/-- Three switches in two windows of ten: the one that ends at the last switch holds two. -/
theorem r2_evidence_densest_three :
    r2Evidence [.clamp 1, .clamp 12, .clamp 20] (.clamp 10) 0 (.clamp 30) =
      some (2, .clamp 10, .clamp 20) ∧
    ∀ i : Int, 0 < i → i ≤ 30 → density [.clamp 1, .clamp 12, .clamp 20] 10 0 i ≤ 2 := by
  have hr : r2Evidence [.clamp 1, .clamp 12, .clamp 20] (.clamp 10) 0 (.clamp 30) =
      some (2, .clamp 10, .clamp 20) := by decide
  exact ⟨hr, ((r2_evidence_densest _ (by decide) _ _ _ (by decide)).2 _ _ _ hr).2.2.2.1⟩

end Dambi.ScamFilter
