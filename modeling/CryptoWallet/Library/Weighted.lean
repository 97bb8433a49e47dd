/-
  File:      CryptoWallet/Library/Weighted.lean
  Subject:   Averages weighted by positive weights, as sums over a list.

  * `exists_le_average`, `exists_ge_average`: some value is at most the average, some is at
    least it.
  * `sum_sublist_le`: a part of a list of non-negative numbers sums to no more.
-/
import Mathlib.Algebra.BigOperators.Ring.List
import Mathlib.Algebra.Order.BigOperators.Group.List
import Mathlib.Algebra.Order.Field.Rat
import Mathlib.Tactic.Linarith

namespace Weighted

variable {α : Type*} {l l' : List α} {value weight : α → ℚ} {p : ℚ}

/-- `p` is the average of the values, by the weights. -/
def Average (value weight : α → ℚ) (l : List α) (p : ℚ) : Prop :=
  p * (l.map weight).sum = (l.map fun x => value x * weight x).sum

/-- Values that are all above a number average to more than it. -/
theorem lt_average (hne : l ≠ []) (hw : ∀ x ∈ l, 0 < weight x) (hp : ∀ x ∈ l, p < value x) :
    p * (l.map weight).sum < (l.map fun x => value x * weight x).sum := by
  rw [← List.sum_map_mul_left]
  exact List.sum_lt_sum_of_ne_nil hne _ _ fun x hx => mul_lt_mul_of_pos_right (hp x hx) (hw x hx)

theorem average_lt (hne : l ≠ []) (hw : ∀ x ∈ l, 0 < weight x) (hp : ∀ x ∈ l, value x < p) :
    (l.map fun x => value x * weight x).sum < p * (l.map weight).sum := by
  rw [← List.sum_map_mul_left]
  exact List.sum_lt_sum_of_ne_nil hne _ _ fun x hx => mul_lt_mul_of_pos_right (hp x hx) (hw x hx)

/-- **Some value is at most the average.** -/
theorem exists_le_average (hne : l ≠ []) (hw : ∀ x ∈ l, 0 < weight x)
    (h : Average value weight l p) : ∃ x ∈ l, value x ≤ p := by
  by_contra hno
  push Not at hno
  exact absurd h (lt_average hne hw hno).ne

/-- **Some value is at least the average.** -/
theorem exists_ge_average (hne : l ≠ []) (hw : ∀ x ∈ l, 0 < weight x)
    (h : Average value weight l p) : ∃ x ∈ l, p ≤ value x := by
  by_contra hno
  push Not at hno
  exact absurd h (average_lt hne hw hno).ne'

/-- **A part of a list of non-negative numbers sums to no more.** -/
theorem sum_sublist_le (h : l'.Sublist l) (hw : ∀ x ∈ l, 0 ≤ weight x) :
    (l'.map weight).sum ≤ (l.map weight).sum := by
  refine (h.map weight).sum_le_sum fun y hy => ?_
  obtain ⟨x, hx, rfl⟩ := List.mem_map.mp hy
  exact hw x hx

end Weighted
