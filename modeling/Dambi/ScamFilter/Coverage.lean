import Mathlib.Data.Int.ConditionallyCompleteOrder
import Mathlib.Data.Int.Interval
import Mathlib.Data.List.Sort
import Mathlib.Tactic.Linarith
import Mathlib.Order.Interval.Finset.Basic

/-!
# Coverage of a window

`coverage_bps` in `scam-filter/src/series.rs`. Times are whole milliseconds, so a length
is the number of the milliseconds `[k, k + 1)` it covers.
-/

namespace Dambi.ScamFilter

open List

structure TimeRange where
  fromMs : Int
  toMs : Int

/-- What a saturating operation of `i64` makes of its exact result. -/
def saturate (n : Int) : Int := max (-2 ^ 63) (min n (2 ^ 63 - 1))

/-- The gaps within the window, before the first observation and in the missing ranges. -/
def gaps (start stop first : Int) (missing : List TimeRange) : List (Int × Int) :=
  (if start < first then [(start, min first stop)] else []) ++
    (missing.map fun r => (max r.fromMs start, min r.toMs stop)).filter fun g => g.1 < g.2

variable (s : Int × Option (Int × Int))

/-- One turn of the merge loop: the length of the closed gaps, and the open one. -/
def merge (g : Int × Int) : Int × Option (Int × Int) :=
  match s.2 with
  | some open' =>
    if g.1 ≤ open'.2 then (s.1, some (open'.1, max open'.2 g.2))
    else (saturate (s.1 + saturate (open'.2 - open'.1)), some g)
  | none => (s.1, some g)

def close : Int :=
  s.2.elim s.1 fun gap => saturate (s.1 + saturate (gap.2 - gap.1))

def gapLe (g h : Int × Int) : Bool := g.1 < h.1 ∨ g.1 = h.1 ∧ g.2 ≤ h.2

variable (gs : List (Int × Int))

/-- The length of the union of the gaps, by one walk over the sorted list. -/
def uncovered : Int :=
  close ((gs.mergeSort gapLe).foldl merge (0, none))

def coverageBps (start stop : Int) (firstObs : Option Int) (missing : List TimeRange) : Nat :=
  let len := saturate (stop - start)
  if len ≤ 0 then 10000
  else match firstObs with
    | none => 0
    | some first =>
      let covered := max (saturate (len - uncovered (gaps start stop first missing))) 0
      (max 0 (min (covered * 10000 / len) 10000)).toNat

/-! ## The union of the gaps -/

noncomputable def cells : Finset Int :=
  gs.toFinset.biUnion fun g => Finset.Ico g.1 g.2

theorem mem_cells {k : Int} : k ∈ cells gs ↔ ∃ g ∈ gs, g.1 ≤ k ∧ k < g.2 := by
  simp [cells]

theorem cells_cons (g : Int × Int) (gs : List (Int × Int)) :
    cells (g :: gs) = Finset.Ico g.1 g.2 ∪ cells gs := by
  simp [cells]

theorem saturate_eq {n : Int} (h : 0 ≤ n) (hn : n < 2 ^ 63) : saturate n = n := by
  unfold saturate
  omega

/-- From an open gap that starts first, the loop adds up the cells it has not closed. -/
theorem close_foldl_merge (total a b : Int) (h0 : 0 ≤ total) (hab : a ≤ b)
    (hs : gs.Pairwise fun g h => g.1 ≤ h.1) (ha : ∀ g ∈ gs, a ≤ g.1 ∧ g.1 < g.2)
    (hb : total + (Finset.Ico a b ∪ cells gs).card < 2 ^ 63) :
    close (gs.foldl merge (total, some (a, b))) = total + (Finset.Ico a b ∪ cells gs).card := by
  induction gs generalizing total a b with
  | nil =>
    have hc : (Finset.Ico a b ∪ cells []).card = (b - a).toNat := by simp [cells]
    rw [hc] at hb ⊢
    simp only [foldl_nil, close, Option.elim_some]
    rw [saturate_eq (n := b - a) (by omega) (by omega), saturate_eq (by omega) (by omega)]
    omega
  | cons g gs ih =>
    obtain ⟨hg, hs⟩ := pairwise_cons.1 hs
    obtain ⟨hag, hgg⟩ := ha g (by simp)
    rw [foldl_cons, cells_cons] at *
    by_cases hc : g.1 ≤ b
    · have hu := Finset.Ico_union_Ico' hc (hag.trans hgg.le)
      rw [min_eq_left hag] at hu
      rw [← Finset.union_assoc, hu] at hb ⊢
      simp only [merge, if_pos hc]
      exact ih total a _ h0 (by omega) hs (fun x hx => ha x (by simp [hx])) hb
    · have hd : Disjoint (Finset.Ico a b) (Finset.Ico g.1 g.2 ∪ cells gs) := by
        rw [Finset.disjoint_left]
        intro k hk hk'
        simp only [Finset.mem_union, Finset.mem_Ico, mem_cells] at hk hk'
        obtain hk' | ⟨x, hx, hk'⟩ := hk'
        · omega
        · have := hg x hx
          omega
      rw [Finset.card_union_of_disjoint hd, Int.card_Ico] at hb ⊢
      simp only [merge, if_neg hc]
      rw [saturate_eq (n := b - a) (by omega) (by omega), saturate_eq (by omega) (by omega),
        ih (total + (b - a)) g.1 g.2 (by omega) hgg.le hs
          (fun x hx => ⟨hg x hx, (ha x (by simp [hx])).2⟩) (by omega)]
      omega

theorem uncovered_eq {gs : List (Int × Int)} (h : ∀ g ∈ gs, g.1 < g.2)
    (hc : (cells gs).card < 2 ^ 63) : uncovered gs = (cells gs).card := by
  have hp := mergeSort_perm gs gapLe
  have hs : (gs.mergeSort gapLe).Pairwise fun g h => g.1 ≤ h.1 := by
    refine (pairwise_mergeSort ?_ ?_ gs).imp ?_ <;> simp only [gapLe] <;> grind
  have he : cells (gs.mergeSort gapLe) = cells gs := by
    ext k
    simp only [mem_cells, hp.mem_iff]
  have hm : ∀ g ∈ gs.mergeSort gapLe, g.1 < g.2 := fun g hg => h g (hp.mem_iff.1 hg)
  rw [uncovered, ← he]
  rw [← he] at hc
  generalize gs.mergeSort gapLe = sorted at hs hm hc ⊢
  cases sorted with
  | nil => rfl
  | cons g rest =>
    rw [pairwise_cons] at hs
    rw [cells_cons] at hc ⊢
    have hr := close_foldl_merge rest 0 g.1 g.2 le_rfl (hm g (by simp)).le hs.2
      (fun x hx => ⟨hs.1 x hx, hm x (by simp [hx])⟩) (by omega)
    rwa [zero_add] at hr

/-! ## The observed part -/

/-- The milliseconds of the window from the first observation on that no range takes out. -/
noncomputable def observed (start stop : Int) (firstObs : Option Int) (missing : List TimeRange) :
    Finset Int :=
  (Finset.Ico start stop).filter fun k => firstObs.any (· ≤ k) ∧
    ∀ r ∈ missing, ¬ (r.fromMs ≤ k ∧ k < r.toMs)

section

variable {start stop first : Int} {missing : List TimeRange}

theorem mem_gaps {g : Int × Int} : g ∈ gaps start stop first missing ↔
    start < first ∧ g = (start, min first stop) ∨
      (∃ r ∈ missing, (max r.fromMs start, min r.toMs stop) = g) ∧ g.1 < g.2 := by
  unfold gaps
  split <;> simp [*]

theorem mem_cells_gaps {k : Int} : k ∈ cells (gaps start stop first missing) ↔
    (start ≤ k ∧ k < stop) ∧ (k < first ∨ ∃ r ∈ missing, r.fromMs ≤ k ∧ k < r.toMs) := by
  simp only [mem_cells, mem_gaps]
  constructor
  · rintro ⟨g, ⟨hf, rfl⟩ | ⟨⟨r, hr, rfl⟩, -⟩, hk⟩
    · omega
    · exact ⟨by omega, .inr ⟨r, hr, by omega⟩⟩
  · rintro ⟨hk, hf | ⟨r, hr, hkr⟩⟩
    · exact ⟨_, .inl ⟨by omega, rfl⟩, by omega⟩
    · exact ⟨_, .inr ⟨⟨r, hr, rfl⟩, by omega⟩, by omega⟩

theorem coverageBps_eq (h : start < stop) (hs : -2 ^ 53 ≤ start) (he : stop ≤ 2 ^ 53)
    (firstObs : Option Int) : (coverageBps start stop firstObs missing : Int) =
      10000 * (observed start stop firstObs missing).card / (stop - start) := by
  have hlen := saturate_eq (n := stop - start) (by omega) (by omega)
  unfold coverageBps
  rw [if_neg (by omega)]
  cases firstObs with
  | none => simp [observed]
  | some first =>
    have ho : observed start stop (some first) missing =
        Finset.Ico start stop \ cells (gaps start stop first missing) := by
      ext k
      simp only [observed, Finset.mem_filter, Finset.mem_sdiff, mem_cells_gaps, Finset.mem_Ico]
      grind
    have hsub : cells (gaps start stop first missing) ⊆ Finset.Ico start stop :=
      fun k hk => Finset.mem_Ico.2 (mem_cells_gaps.1 hk).1
    have hcard := Finset.card_sdiff_add_card_eq_card hsub
    rw [← ho, Int.card_Ico] at hcard
    have hu : uncovered (gaps start stop first missing) = _ := uncovered_eq (fun g hg => by
      rcases mem_gaps.1 hg with ⟨hf, rfl⟩ | hg
      · simpa using ⟨hf, h⟩
      · exact hg.2) (by omega)
    simp only [hlen]
    rw [saturate_eq (by omega) (by omega), hu]
    generalize (observed start stop (some first) missing).card = c at hcard ⊢
    rw [show max (stop - start - _) 0 = (c : Int) by omega, mul_comm]
    have h0 := Int.ediv_nonneg (a := 10000 * c) (by omega) (sub_pos.2 h).le
    have h1 := Int.ediv_le_of_le_mul (a := 10000 * c) (b := 10000) (sub_pos.2 h) (by omega)
    omega

end

/-- The coverage is the observed share of the window, rounded down. -/
theorem coverage_bps_exact (start stop : Int) (h : start < stop) (hs : -2 ^ 53 ≤ start)
    (he : stop ≤ 2 ^ 53) (firstObs : Option Int) (missing : List TimeRange) :
    (coverageBps start stop firstObs missing : Int) =
      10000 * (observed start stop firstObs missing).card / (stop - start) ∧
    (coverageBps start stop firstObs missing = 10000 ↔
      observed start stop firstObs missing = Finset.Ico start stop) ∧
    ∀ ranges : List TimeRange, (∀ k, (∃ r ∈ ranges, r.fromMs ≤ k ∧ k < r.toMs) ↔
        ∃ r ∈ missing, r.fromMs ≤ k ∧ k < r.toMs) →
      coverageBps start stop firstObs ranges = coverageBps start stop firstObs missing := by
  have hc missing := @coverageBps_eq start stop missing h hs he firstObs
  refine ⟨hc missing, ⟨fun hfull => ?_, fun hfull => ?_⟩, fun ranges hr => ?_⟩
  · have hle := (Int.le_ediv_iff_mul_le (sub_pos.2 h)).1 (hfull ▸ hc missing).le
    refine Finset.eq_of_subset_of_card_le (Finset.filter_subset _ _) ?_
    rw [Int.card_Ico]
    omega
  · have hm := hc missing
    rw [hfull, Int.card_Ico, Int.toNat_of_nonneg (sub_pos.2 h).le,
      Int.mul_ediv_cancel _ (sub_pos.2 h).ne'] at hm
    exact Int.natCast_inj.1 hm
  · have ho : observed start stop firstObs ranges = observed start stop firstObs missing := by
      ext k
      simpa [observed] using fun _ _ _ => by simpa using not_congr (hr k)
    rw [← Int.natCast_inj, hc, hc, ho]

theorem coverage_bps_exact_nested :
    (coverageBps 0 100 (some 10) [⟨40, 60⟩, ⟨-5, 5⟩, ⟨50, 55⟩] : Int) =
      10000 * (observed 0 100 (some 10) [⟨40, 60⟩, ⟨-5, 5⟩, ⟨50, 55⟩]).card / (100 - 0) ∧
    (observed 0 100 (some 10) [⟨40, 60⟩, ⟨-5, 5⟩, ⟨50, 55⟩]).card = 70 :=
  ⟨(coverage_bps_exact 0 100 (by decide) (by decide) (by decide) _ _).1, by decide⟩

end Dambi.ScamFilter
