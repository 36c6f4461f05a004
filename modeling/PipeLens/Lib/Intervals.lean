import Mathlib.Order.Interval.Set.Basic
import Mathlib.Order.MinMax

/-!
# Merging half-open intervals

A list of windows, with starts that do not go down, is merged from left to right: a
window that touches or overlaps the last run extends it, any other opens a new run. The
runs are the maximal intervals of all the points that the windows cover.
-/

namespace Intervals

variable {α : Type*} [LinearOrder α]

/-- The points of some intervals. -/
def covered (runs : List (α × α)) : Set α := {x | ∃ run ∈ runs, x ∈ Set.Ico run.1 run.2}

/-- The maximal intervals of a set of points, from left to right. -/
structure IsRuns (points : Set α) (runs : List (α × α)) : Prop where
  nonempty : ∀ run ∈ runs, run.1 < run.2
  apart : runs.Pairwise fun run run' => run.2 < run'.1
  covers : covered runs = points

/-- Merges windows into runs. The last run comes first. -/
def merge : List (α × α) → List (α × α) → List (α × α)
  | runs, [] => runs.reverse
  | [], window :: windows => merge [window] windows
  | last :: earlier, window :: windows =>
      if window.1 ≤ last.2 then merge ((last.1, max last.2 window.2) :: earlier) windows
      else merge (window :: last :: earlier) windows

variable {runs runs' windows : List (α × α)} {points : Set α}

theorem mem_covered_cons {run : α × α} {x : α} :
    x ∈ covered (run :: runs) ↔ x ∈ Set.Ico run.1 run.2 ∨ x ∈ covered runs := by
  constructor
  · rintro ⟨other, hother, hx⟩
    rcases List.mem_cons.mp hother with rfl | hother
    · exact Or.inl hx
    · exact Or.inr ⟨other, hother, hx⟩
  · rintro (hx | ⟨other, hother, hx⟩)
    · exact ⟨run, List.mem_cons_self, hx⟩
    · exact ⟨other, List.mem_cons_of_mem run hother, hx⟩

/-! ## The runs of a set -/

namespace IsRuns

/-- The first run begins with the first point. -/
theorem first_le {run : α × α} (h : IsRuns points (run :: runs)) {x : α} (hx : x ∈ points) :
    run.1 ≤ x := by
  rw [← h.covers, mem_covered_cons] at hx
  rcases hx with hx | ⟨other, hother, hx⟩
  · exact hx.1
  · have hgap : run.2 < other.1 := List.rel_of_pairwise_cons h.apart hother
    have hrun : run.1 < run.2 := h.nonempty run List.mem_cons_self
    exact le_of_lt (lt_of_lt_of_le (lt_trans hrun hgap) hx.1)

theorem first_mem {run : α × α} (h : IsRuns points (run :: runs)) : run.1 ∈ points := by
  rw [← h.covers, mem_covered_cons]
  exact Or.inl ⟨le_refl _, h.nonempty run List.mem_cons_self⟩

/-- The first run ends where there is no point. -/
theorem first_end {run : α × α} (h : IsRuns points (run :: runs)) : run.2 ∉ points := by
  rw [← h.covers, mem_covered_cons]
  rintro (hx | ⟨other, hother, hx⟩)
  · exact lt_irrefl _ hx.2
  · have hgap : run.2 < other.1 := List.rel_of_pairwise_cons h.apart hother
    exact lt_irrefl _ (lt_of_lt_of_le hgap hx.1)

theorem first_sub {run : α × α} (h : IsRuns points (run :: runs)) {x : α}
    (hx : x ∈ Set.Ico run.1 run.2) : x ∈ points := by
  rw [← h.covers, mem_covered_cons]
  exact Or.inl hx

theorem tail {run : α × α} (h : IsRuns points (run :: runs)) :
    IsRuns {x | x ∈ points ∧ run.2 < x} runs := by
  refine ⟨fun other hother => h.nonempty other (List.mem_cons_of_mem run hother),
    List.Pairwise.of_cons h.apart, ?_⟩
  ext x
  constructor
  · rintro ⟨other, hother, hx⟩
    have hgap : run.2 < other.1 := List.rel_of_pairwise_cons h.apart hother
    refine ⟨?_, lt_of_lt_of_le hgap hx.1⟩
    rw [← h.covers]
    exact ⟨other, List.mem_cons_of_mem run hother, hx⟩
  · rintro ⟨hpoint, hlater⟩
    rw [← h.covers, mem_covered_cons] at hpoint
    rcases hpoint with hx | hx
    · exact absurd hx.2 (not_lt_of_gt hlater)
    · exact hx

theorem nil_points (h : IsRuns points []) : points = ∅ := by
  rw [← h.covers]
  ext x
  simp [covered]

/-- A set has one list of maximal intervals. -/
theorem unique (h : IsRuns points runs) (h' : IsRuns points runs') : runs = runs' := by
  induction runs generalizing runs' points with
  | nil =>
      cases runs' with
      | nil => rfl
      | cons run' runs' =>
          have hmem := h'.first_mem
          rw [h.nil_points] at hmem
          exact absurd hmem (Set.notMem_empty _)
  | cons run runs ih =>
      cases runs' with
      | nil =>
          have hmem := h.first_mem
          rw [h'.nil_points] at hmem
          exact absurd hmem (Set.notMem_empty _)
      | cons run' runs' =>
          have hstart : run.1 = run'.1 :=
            le_antisymm (h.first_le h'.first_mem) (h'.first_le h.first_mem)
          have hstop : run.2 = run'.2 := by
            rcases lt_trichotomy run.2 run'.2 with hlt | heq | hgt
            · have hle : run'.1 ≤ run.2 := hstart ▸ le_of_lt (h.nonempty run List.mem_cons_self)
              exact absurd (h'.first_sub ⟨hle, hlt⟩) h.first_end
            · exact heq
            · have hle : run.1 ≤ run'.2 := hstart ▸ le_of_lt (h'.nonempty run' List.mem_cons_self)
              exact absurd (h.first_sub ⟨hle, hgt⟩) h'.first_end
          have hrun : run = run' := Prod.ext hstart hstop
          subst hrun
          rw [ih h.tail h'.tail]

end IsRuns

/-! ## Merging -/

/-- The runs so far, the last one first, and the windows that are still to come. -/
structure Merging (runs windows : List (α × α)) : Prop where
  nonempty : ∀ run ∈ runs, run.1 < run.2
  apart : runs.Pairwise fun run run' => run'.2 < run.1
  solid : ∀ window ∈ windows, window.1 < window.2
  sorted : windows.Pairwise fun window window' => window.1 ≤ window'.1
  ahead : ∀ last ∈ runs.head?, ∀ window ∈ windows, last.1 ≤ window.1

namespace Merging

/-- The last run takes a window in. -/
theorem extend {last window : α × α} (h : Merging (last :: runs) (window :: windows)) :
    Merging ((last.1, max last.2 window.2) :: runs) windows := by
  refine ⟨?_, ?_, fun w hw => h.solid w (List.mem_cons_of_mem window hw),
    List.Pairwise.of_cons h.sorted, ?_⟩
  · intro run hrun
    rcases List.mem_cons.mp hrun with rfl | hrun
    · exact lt_of_lt_of_le (h.nonempty last List.mem_cons_self) (le_max_left _ _)
    · exact h.nonempty run (List.mem_cons_of_mem last hrun)
  · exact List.pairwise_cons.mpr ⟨fun run hrun => List.rel_of_pairwise_cons h.apart hrun,
      List.Pairwise.of_cons h.apart⟩
  · intro other hother w hw
    obtain rfl := Option.some.inj hother
    exact h.ahead last rfl w (List.mem_cons_of_mem window hw)

/-- A window beyond the last run. -/
theorem «open» {window : α × α} (h : Merging runs (window :: windows))
    (hgap : ∀ run ∈ runs, run.2 < window.1) : Merging (window :: runs) windows := by
  refine ⟨?_, List.pairwise_cons.mpr ⟨hgap, h.apart⟩,
    fun w hw => h.solid w (List.mem_cons_of_mem window hw), List.Pairwise.of_cons h.sorted, ?_⟩
  · intro run hrun
    rcases List.mem_cons.mp hrun with rfl | hrun
    · exact h.solid run List.mem_cons_self
    · exact h.nonempty run hrun
  · intro other hother w hw
    obtain rfl := Option.some.inj hother
    exact List.rel_of_pairwise_cons h.sorted hw

/-- The last run ends last. -/
theorem gap {last window : α × α} (h : Merging (last :: runs) (window :: windows))
    (hgap : last.2 < window.1) : ∀ run ∈ last :: runs, run.2 < window.1 := by
  intro run hrun
  rcases List.mem_cons.mp hrun with rfl | hrun
  · exact hgap
  · have hearlier : run.2 < last.1 := List.rel_of_pairwise_cons h.apart hrun
    exact lt_trans (lt_trans hearlier (h.nonempty last List.mem_cons_self)) hgap

theorem isRuns (h : Merging runs windows) :
    IsRuns (covered runs ∪ covered windows) (merge runs windows) := by
  fun_induction merge runs windows with
  | case1 runs =>
      refine ⟨fun run hrun => h.nonempty run (List.mem_reverse.mp hrun),
        List.pairwise_reverse.mpr h.apart, ?_⟩
      ext x
      simp [covered]
  | case2 window windows ih =>
      have hruns := ih (h.open fun run hrun => absurd hrun List.not_mem_nil)
      refine ⟨hruns.nonempty, hruns.apart, ?_⟩
      rw [hruns.covers]
      ext x
      simp only [Set.mem_union, mem_covered_cons]
      tauto
  | case3 last earlier window windows htouch ih =>
      have hruns := ih h.extend
      refine ⟨hruns.nonempty, hruns.apart, ?_⟩
      rw [hruns.covers]
      have hahead : last.1 ≤ window.1 := h.ahead last rfl window List.mem_cons_self
      ext x
      simp only [Set.mem_union, mem_covered_cons, Set.mem_Ico, lt_max_iff]
      constructor
      · rintro ((⟨hle, hlt | hlt⟩ | hx) | hx)
        · exact Or.inl (Or.inl ⟨hle, hlt⟩)
        · -- a point of the window may come before its start, but not after the last run then
          rcases lt_or_ge x last.2 with hin | hout
          · exact Or.inl (Or.inl ⟨hle, hin⟩)
          · exact Or.inr (Or.inl ⟨le_trans htouch hout, hlt⟩)
        · exact Or.inl (Or.inr hx)
        · exact Or.inr (Or.inr hx)
      · rintro ((⟨hle, hlt⟩ | hx) | (⟨hle, hlt⟩ | hx))
        · exact Or.inl (Or.inl ⟨hle, Or.inl hlt⟩)
        · exact Or.inl (Or.inr hx)
        · exact Or.inl (Or.inl ⟨le_trans hahead hle, Or.inr hlt⟩)
        · exact Or.inr hx
  | case4 last earlier window windows hgap ih =>
      have hruns := ih (h.open (h.gap (not_le.mp hgap)))
      refine ⟨hruns.nonempty, hruns.apart, ?_⟩
      rw [hruns.covers]
      ext x
      simp only [Set.mem_union, mem_covered_cons]
      tauto

end Merging

/-- **Merging finds the maximal intervals** of everything that the windows cover. -/
theorem merge_isRuns (hsolid : ∀ window ∈ windows, window.1 < window.2)
    (hsorted : windows.Pairwise fun window window' => window.1 ≤ window'.1) :
    IsRuns (covered windows) (merge [] windows) := by
  have hstart : Merging [] windows := by
    refine ⟨fun run hrun => absurd hrun List.not_mem_nil, List.Pairwise.nil, hsolid, hsorted, ?_⟩
    intro last hlast
    exact absurd hlast (by simp)
  have hruns := hstart.isRuns
  have hnone : covered ([] : List (α × α)) = ∅ := by
    ext x
    simp [covered]
  rwa [hnone, Set.empty_union] at hruns

/-- A run that is not the last one does not change any more. -/
theorem merge_earlier (last : α × α) (earlier windows : List (α × α)) :
    ∃ later, merge (last :: earlier) windows = earlier.reverse ++ later := by
  induction windows generalizing last earlier with
  | nil => exact ⟨[last], by rw [merge, List.reverse_cons]⟩
  | cons window windows ih =>
      rw [merge]
      split
      · exact ih _ earlier
      · obtain ⟨later, hlater⟩ := ih window (last :: earlier)
        exact ⟨last :: later, by rw [hlater, List.reverse_cons, List.append_assoc]; rfl⟩

end Intervals
