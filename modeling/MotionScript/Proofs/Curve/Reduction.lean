import MotionScript.Curve.Reduction
import Mathlib.Data.List.Basic

/-!
# What is left of a polyline

Reduction selects: it moves no point and keeps their order.

* `reduce_eq`, `exists_reduce`: the ends of a polyline stay, and between them some of the points.
* `reduce_sublist`: what is left is some of the points, in their order.
* `head?_reduce`, `getLast?_reduce`: the first point and the last point stay.
-/

namespace MotionScript.Polyline

variable {threshold tol : Scalar}

theorem merge_sublist (previous : Vec2) (points : List Vec2) : (merge tol previous points).Sublist points := by
  induction points generalizing previous with
  | nil => exact List.Sublist.refl _
  | cons p ps ih =>
    unfold merge
    split
    · exact (ih p).cons_cons p
    · exact (ih previous).cons p

theorem trim_sublist (last : Vec2) (points : List Vec2) : (trim tol last points).Sublist points := by
  have h := (List.dropWhile_sublist (l := points.reverse) fun p => Vec2.distance p last ≤ tol).reverse
  rwa [List.reverse_reverse] at h

theorem distinct_sublist (first last : Vec2) (inner : List Vec2) : (distinct tol first inner last).Sublist inner :=
  (trim_sublist last _).trans (merge_sublist first inner)

/-- The last point is no bend. -/
theorem bends_sublist (anchor : Vec2) (points : List Vec2) : (bends threshold anchor points).Sublist points.dropLast := by
  fun_induction bends threshold anchor points with
  | case1 anchor current next rest heading running hh hr hlt ih =>
    rw [List.dropLast_cons_cons]
    exact ih.cons_cons current
  | case2 anchor current next rest heading running hh hr hlt ih =>
    rw [List.dropLast_cons_cons]
    exact ih.cons current
  | case3 anchor current next rest hnone ih =>
    rw [List.dropLast_cons_cons]
    exact ih.cons current
  | case4 => exact List.nil_sublist _

/-- A polyline with two ends is reduced to them and the bends of what is left between them after merging. -/
theorem reduce_eq (first : Vec2) (inner : List Vec2) (last : Vec2) (threshold : Scalar) :
    reduce (first :: (inner ++ [last])) threshold =
      first :: bends threshold first (distinct (tolerance (first :: (inner ++ [last]))) first inner last ++ [last]) ++
        [last] := by
  cases inner with
  | nil => rfl
  | cons p rest =>
    show reduce (first :: p :: (rest ++ [last])) threshold = _
    unfold reduce
    simp only [← List.cons_append, List.getLast_append_singleton, List.dropLast_concat]

/-- The ends of a polyline stay, and some of the points between them. -/
theorem exists_reduce (first : Vec2) (inner : List Vec2) (last : Vec2) (threshold : Scalar) :
    ∃ kept : List Vec2, reduce (first :: (inner ++ [last])) threshold = first :: (kept ++ [last]) ∧
      kept.Sublist inner := by
  refine ⟨_, reduce_eq first inner last threshold, ?_⟩
  have hbends := @bends_sublist threshold first
    (distinct (tolerance (first :: (inner ++ [last]))) first inner last ++ [last])
  rw [List.dropLast_concat] at hbends
  exact hbends.trans (distinct_sublist first last inner)

/-- A polyline is empty, a single point, or has two ends. -/
theorem eq_nil_or_singleton_or_ends (points : List Vec2) :
    points = [] ∨ (∃ p, points = [p]) ∨ ∃ first inner last, points = first :: (inner ++ [last]) := by
  rcases points with _ | ⟨first, rest⟩
  · exact .inl rfl
  · rcases List.eq_nil_or_concat rest with rfl | ⟨inner, last, rfl⟩
    · exact .inr (.inl ⟨first, rfl⟩)
    · refine .inr (.inr ⟨first, inner, last, ?_⟩)
      rw [List.concat_eq_append]

/-- **Reduction selects**: it keeps some of the points, in their order. -/
theorem reduce_sublist (points : List Vec2) (threshold : Scalar) : (reduce points threshold).Sublist points := by
  rcases eq_nil_or_singleton_or_ends points with rfl | ⟨p, rfl⟩ | ⟨first, inner, last, rfl⟩
  · exact List.Sublist.refl _
  · exact List.Sublist.refl _
  · obtain ⟨kept, hreduce, hkept⟩ := exists_reduce first inner last threshold
    rw [hreduce]
    exact (hkept.append_right [last]).cons_cons first

theorem head?_reduce (points : List Vec2) (threshold : Scalar) : (reduce points threshold).head? = points.head? := by
  rcases eq_nil_or_singleton_or_ends points with rfl | ⟨p, rfl⟩ | ⟨first, inner, last, rfl⟩
  · rfl
  · rfl
  · obtain ⟨kept, hreduce, -⟩ := exists_reduce first inner last threshold
    rw [hreduce]
    rfl

theorem getLast?_reduce (points : List Vec2) (threshold : Scalar) :
    (reduce points threshold).getLast? = points.getLast? := by
  rcases eq_nil_or_singleton_or_ends points with rfl | ⟨p, rfl⟩ | ⟨first, inner, last, rfl⟩
  · rfl
  · rfl
  · obtain ⟨kept, hreduce, -⟩ := exists_reduce first inner last threshold
    rw [hreduce, ← List.cons_append, ← List.cons_append, List.getLast?_concat, List.getLast?_concat]

end MotionScript.Polyline
