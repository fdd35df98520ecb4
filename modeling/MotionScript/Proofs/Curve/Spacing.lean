import MotionScript.Proofs.Curve.Reduction
import MotionScript.Proofs.Scalar.Difference

/-!
# What is left of a polyline, and how far apart

Reduction keeps points at increasing positions, from the first one to the last, whatever the coordinates are. If they
are finite, the points that are left after merging are farther apart than the tolerance, the last of them from the end
of the polyline as well.

* `Selects`, `selects_reduce`: what is kept is some of the points, at increasing positions, the ends among them.
* `isChain_merge`, `not_le_distance_of_trim`: how far apart merging and trimming leave the points.
* `isChain_distinct`: the points that are left after merging, with both ends.
-/

namespace MotionScript

open Scalar

/-- The distance of two points is a number, which may be infinite, and not negative. -/
theorem Vec2.zero_le_distance {a b : Vec2} (ha : a.x.isFinite ∧ a.y.isFinite) (hb : b.x.isFinite ∧ b.y.isFinite) :
    0 ≤ Vec2.distance a b := by
  have hx := zero_le_mul_self (not_isNaN_sub ha.1 hb.1)
  have hy := zero_le_mul_self (not_isNaN_sub ha.2 hb.2)
  exact zero_le_sqrt (zero_le_add hx hy)

namespace Polyline

variable {threshold tol : Scalar}

/-! ## Positions -/

/-- **What is kept of a polyline** with two ends is some of its points, two at least, at increasing positions from the
first to the last. -/
structure Selects (points kept : List Vec2) : Prop where
  two_le : 2 ≤ kept.length
  length_le : kept.length ≤ points.length
  positions : ∃ positions : List ℕ, positions.Pairwise (· < ·) ∧ positions.head? = some 0 ∧
    positions.getLast? = some (points.length - 1) ∧
    List.Forall₂ (fun i p => points[i]? = some p) positions kept

/-- Some of the points between the ends are at increasing positions between those of the ends. -/
theorem exists_positions {kept inner : List Vec2} (h : kept.Sublist inner) (first last : Vec2) :
    ∃ between : List ℕ, between.Pairwise (· < ·) ∧ (∀ i ∈ between, 0 < i ∧ i < inner.length + 1) ∧
      List.Forall₂ (fun i p => (first :: (inner ++ [last]))[i]? = some p) between kept := by
  obtain ⟨indices, rfl, hsorted⟩ := List.sublist_eq_map_getElem h
  refine ⟨indices.map fun i => i.val + 1, ?_, ?_, ?_⟩
  · rw [List.pairwise_map]
    exact hsorted.imp fun hlt => Nat.succ_lt_succ hlt
  · rw [List.forall_mem_map]
    exact fun i _ => ⟨Nat.succ_pos _, Nat.succ_lt_succ i.isLt⟩
  · rw [List.forall₂_map_left_iff, List.forall₂_map_right_iff, List.forall₂_same]
    intro i _
    rw [List.getElem?_cons_succ, List.getElem?_append_left i.isLt]
    exact List.getElem?_eq_getElem i.isLt

theorem selects_reduce {points : List Vec2} (h : 2 ≤ points.length) (threshold : Scalar) :
    Selects points (reduce points threshold) := by
  rcases eq_nil_or_singleton_or_ends points with rfl | ⟨p, rfl⟩ | ⟨first, inner, last, rfl⟩
  · exact absurd h (Nat.not_succ_le_zero 1)
  · exact absurd h (Nat.lt_irrefl 1)
  · obtain ⟨kept, hreduce, hkept⟩ := exists_reduce first inner last threshold
    obtain ⟨between, hsorted, hbounds, hat⟩ := exists_positions hkept first last
    rw [hreduce]
    refine ⟨by simp, by simpa using hkept.length_le, 0 :: (between ++ [inner.length + 1]), ?_, rfl, ?_, ?_⟩
    · rw [List.pairwise_cons, List.pairwise_append]
      refine ⟨?_, hsorted, List.pairwise_singleton _ _, ?_⟩
      · rw [List.forall_mem_append, List.forall_mem_singleton]
        exact ⟨fun i hi => (hbounds i hi).1, Nat.succ_pos _⟩
      · intro i hi j hj
        rw [List.mem_singleton.1 hj]
        exact (hbounds i hi).2
    · rw [← List.cons_append, List.getLast?_concat]
      simp
    · refine List.Forall₂.cons rfl (List.rel_append hat (List.Forall₂.cons ?_ List.Forall₂.nil))
      rw [List.getElem?_cons_succ, List.getElem?_concat_length]

/-! ## Distances -/

/-- Each point that is left after merging is far enough from the one before. -/
theorem isChain_merge (tol : Scalar) (previous : Vec2) (points : List Vec2) :
    (previous :: merge tol previous points).IsChain fun a b => tol < Vec2.distance a b := by
  induction points generalizing previous with
  | nil => exact List.IsChain.singleton previous
  | cons p ps ih =>
    unfold merge
    split
    · next hfar => exact List.isChain_cons_cons.2 ⟨hfar, ih p⟩
    · exact ih previous

theorem trim_prefix (tol : Scalar) (last : Vec2) (points : List Vec2) : trim tol last points <+: points := by
  have h := List.dropWhile_suffix (fun p => decide (Vec2.distance p last ≤ tol)) (l := points.reverse)
  rw [← List.reverse_prefix, List.reverse_reverse] at h
  exact h

/-- Trimming stops at a point that is far enough from the end. -/
theorem not_le_distance_of_trim {last p : Vec2} {points : List Vec2} (h : (trim tol last points).getLast? = some p) :
    ¬Vec2.distance p last ≤ tol := by
  have hstop := List.head?_dropWhile_not (fun p => decide (Vec2.distance p last ≤ tol)) points.reverse
  unfold trim at h
  rw [List.getLast?_reverse] at h
  rw [h] at hstop
  exact of_decide_eq_false hstop

theorem not_isNaN_tolerance (points : List Vec2) : ¬(tolerance points).isNaN :=
  not_isNaN_max (by decide +kernel)

/-- **After merging the points are far apart**, the end of the polyline included, if any is left between the ends. -/
theorem isChain_distinct {first last : Vec2} {inner : List Vec2} (hnan : ¬tol.isNaN)
    (hinner : ∀ p ∈ inner, p.x.isFinite ∧ p.y.isFinite) (hlast : last.x.isFinite ∧ last.y.isFinite)
    (hne : distinct tol first inner last ≠ []) :
    (first :: (distinct tol first inner last ++ [last])).IsChain fun a b => tol < Vec2.distance a b := by
  -- trimming only takes points off the end
  obtain ⟨trimmed, htrimmed⟩ : distinct tol first inner last <+: merge tol first inner := trim_prefix tol last _
  have hmerged := isChain_merge tol first inner
  rw [← htrimmed, ← List.cons_append] at hmerged
  rw [← List.cons_append]
  refine hmerged.left_of_append.append (List.IsChain.singleton last) ?_
  intro p hp q hq
  cases hq
  rw [List.getLast?_cons_of_ne_nil hne] at hp
  have hmem : p ∈ inner := (distinct_sublist first last inner).subset (List.mem_of_getLast? hp)
  have hnumber := not_isNaN_of_ge (Vec2.zero_le_distance (hinner p hmem) hlast)
  exact lt_of_not_le hnumber hnan (not_le_distance_of_trim hp)

/-- **Reduction only selects.** Nothing is made of no point, and a single point stays. Of two points and more, whatever
their coordinates and the threshold are, some are kept, two at least, at increasing positions from the first to the
last. If the coordinates are finite, the points left after merging, of which the bends are taken, are farther apart
than the tolerance if there are more than the two ends, and so is the last of them from the end. -/
theorem reduction_selects (threshold : Scalar) :
    reduce [] threshold = [] ∧ (∀ p, reduce [p] threshold = [p]) ∧
    (∀ points, 2 ≤ points.length → Selects points (reduce points threshold)) ∧
    ∀ first inner last, (∀ p ∈ first :: (inner ++ [last]), p.x.isFinite ∧ p.y.isFinite) →
      let points := first :: (inner ++ [last])
      let left := first :: (distinct (tolerance points) first inner last ++ [last])
      reduce points threshold = first :: bends threshold first left.tail ++ [last] ∧
        (2 < left.length → left.IsChain fun a b => tolerance points < Vec2.distance a b) := by
  refine ⟨rfl, fun _ => rfl, fun _ h => selects_reduce h threshold, ?_⟩
  intro first inner last hfinite points left
  refine ⟨reduce_eq first inner last threshold, fun hlong => ?_⟩
  have hne : distinct (tolerance points) first inner last ≠ [] := by
    intro hnil
    simp [left, hnil] at hlong
  rw [List.forall_mem_cons, List.forall_mem_append, List.forall_mem_singleton] at hfinite
  exact isChain_distinct (not_isNaN_tolerance points) hfinite.2.1 hfinite.2.2 hne

/-- A corner, with a point so close to the end that it is merged. -/
theorem reduction_selects_corner :
    let points : List Vec2 := [⟨0, 0⟩, ⟨10, 0⟩, ⟨10, 9.999⟩, ⟨10, 10⟩]
    (∀ p ∈ points, p.x.isFinite ∧ p.y.isFinite) ∧ Selects points (reduce points 0.999) ∧
      distinct (tolerance points) ⟨0, 0⟩ [⟨10, 0⟩, ⟨10, 9.999⟩] ⟨10, 10⟩ = [⟨10, 0⟩] ∧
      [⟨0, 0⟩, ⟨10, 0⟩, ⟨10, 10⟩].IsChain fun a b => tolerance points < Vec2.distance a b := by
  intro points
  have hfinite : ∀ p ∈ points, p.x.isFinite ∧ p.y.isFinite := by decide +kernel
  have hleft : distinct (tolerance points) ⟨0, 0⟩ [⟨10, 0⟩, ⟨10, 9.999⟩] ⟨10, 10⟩ = [⟨10, 0⟩] := by decide +kernel
  obtain ⟨-, -, hselects, hspaced⟩ := reduction_selects 0.999
  have hchain := (hspaced ⟨0, 0⟩ [⟨10, 0⟩, ⟨10, 9.999⟩] ⟨10, 10⟩ hfinite).2
  rw [show [⟨10, 0⟩, ⟨10, 9.999⟩] ++ [⟨10, 10⟩] = ([⟨10, 0⟩, ⟨10, 9.999⟩, ⟨10, 10⟩] : List Vec2) from rfl,
    hleft] at hchain
  exact ⟨hfinite, hselects points (by decide), hleft, hchain (by decide)⟩

end Polyline

end MotionScript
