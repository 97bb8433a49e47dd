/-
  File:      CryptoWallet/Library/Rounding.lean
  Subject:   Rounding a rational number to an integer.

  * `truncate`: toward zero; `away`: to the nearest, a half away from zero; `even`: to the
    nearest, a half to the even side.
  * `abs_away_sub_le`, `abs_even_sub_le`: neither moves a number by more than a half.
  * `away_eq_iff`, `even_eq_iff`: the numbers that round to a given one.
  * `even_monotone`, `even_lt_iff`: rounding keeps the order, and where it stays below an even
    number.
-/
import Mathlib.Algebra.Order.Floor.Ring
import Mathlib.Algebra.Order.Field.Basic
import Mathlib.Data.Rat.Floor
import Mathlib.Tactic.Linarith

namespace Rounding

/-- Toward zero. -/
def truncate (x : ℚ) : Int := if x < 0 then ⌈x⌉ else ⌊x⌋

/-- To the nearest integer, a half away from zero. -/
def away (x : ℚ) : Int := if x < 0 then -⌊-x + 1 / 2⌋ else ⌊x + 1 / 2⌋

/-- To the nearest integer, a half to the even one. -/
def even (x : ℚ) : Int :=
  if Int.fract x = 1 / 2 ∧ ⌊x⌋ % 2 = 0 then ⌊x⌋ else ⌊x + 1 / 2⌋

example : [truncate (-5 / 2), away (-5 / 2), even (-5 / 2)] = [-2, -3, -2] := by decide +kernel
example : [even (1 / 2), even (3 / 2), even (17 / 10)] = [0, 2, 2] := by decide +kernel

@[simp] theorem truncate_intCast (n : Int) : truncate n = n := by
  simp [truncate]

theorem away_of_nonneg {x : ℚ} (h : 0 ≤ x) : away x = ⌊x + 1 / 2⌋ := by
  rw [away, if_neg (not_lt.mpr h)]

@[simp] theorem away_neg (x : ℚ) : away (-x) = -away x := by
  rcases lt_trichotomy x 0 with h | rfl | h
  · rw [away_of_nonneg (by linarith), away, if_pos h, neg_neg]
  · decide +kernel
  · rw [away_of_nonneg h.le, away, if_pos (by linarith), neg_neg]

/-- **The numbers that round to `n`, halves away from zero.** -/
theorem away_eq_iff {x : ℚ} (h : 0 ≤ x) {n : Int} :
    away x = n ↔ (n : ℚ) - 1 / 2 ≤ x ∧ x < n + 1 / 2 := by
  rw [away_of_nonneg h, Int.floor_eq_iff]
  constructor
  · intro ⟨h1, h2⟩
    exact ⟨by linarith, by linarith⟩
  · intro ⟨h1, h2⟩
    exact ⟨by linarith, by linarith⟩

theorem away_nonneg {x : ℚ} (h : 0 ≤ x) : 0 ≤ away x := by
  rw [away_of_nonneg h]
  exact Int.floor_nonneg.mpr (by linarith)

theorem abs_away_sub_le {x : ℚ} (h : 0 ≤ x) : |(away x : ℚ) - x| ≤ 1 / 2 := by
  obtain ⟨h1, h2⟩ := (away_eq_iff h).mp rfl
  exact abs_le.mpr ⟨by linarith, by linarith⟩

/-- Where `even` differs from rounding halves up. -/
theorem even_cases (x : ℚ) :
    (x = ⌊x⌋ + 1 / 2 ∧ ⌊x⌋ % 2 = 0 ∧ even x = ⌊x⌋) ∨
    (¬(x = ⌊x⌋ + 1 / 2 ∧ ⌊x⌋ % 2 = 0) ∧ even x = ⌊x + 1 / 2⌋) := by
  have key : Int.fract x = 1 / 2 ↔ x = ⌊x⌋ + 1 / 2 := by
    have := Int.floor_add_fract x
    constructor
    · intro h
      linarith
    · intro h
      linarith
  unfold even
  split
  · rename_i h
    exact Or.inl ⟨key.mp h.1, h.2, rfl⟩
  · rename_i h
    exact Or.inr ⟨fun h' => h ⟨key.mpr h'.1, h'.2⟩, rfl⟩

theorem abs_even_sub_le (x : ℚ) : |(even x : ℚ) - x| ≤ 1 / 2 := by
  rcases even_cases x with ⟨hx, -, e⟩ | ⟨-, e⟩ <;> rw [e]
  · rw [abs_le]
    exact ⟨by linarith, by linarith⟩
  · have h1 := Int.floor_le (x + 1 / 2)
    have h2 := Int.lt_floor_add_one (x + 1 / 2)
    rw [abs_le]
    exact ⟨by linarith, by linarith⟩

/-- **The numbers that round to an even `n`**: both halves do. -/
theorem even_eq_iff {x : ℚ} {n : Int} (hn : n % 2 = 0) : even x = n ↔ |x - n| ≤ 1 / 2 := by
  constructor
  · intro h
    rw [abs_sub_comm, ← h]
    exact abs_even_sub_le x
  · intro h
    obtain ⟨h1, h2⟩ := abs_le.mp h
    rcases even_cases x with ⟨hx, hpar, e⟩ | ⟨hx, e⟩ <;> rw [e]
    · -- the half above an even floor: `n` is that floor
      have h3 : ((⌊x⌋ : Int) : ℚ) ≤ n := by linarith
      have h4 : (n : ℚ) ≤ (⌊x⌋ + 1 : Int) := by push_cast; linarith
      have h5 : ⌊x⌋ ≤ n := by exact_mod_cast h3
      have h6 : n ≤ ⌊x⌋ + 1 := by exact_mod_cast h4
      omega
    · rw [Int.floor_eq_iff]
      refine ⟨by linarith, lt_of_le_of_ne (by linarith) fun heq => hx ?_⟩
      have hfl : ⌊x⌋ = n := Int.floor_eq_iff.mpr ⟨by linarith, by linarith⟩
      rw [hfl]
      exact ⟨by linarith, hn⟩

theorem even_nonneg {x : ℚ} (h : 0 ≤ x) : 0 ≤ even x := by
  have h1 := (abs_le.mp (abs_even_sub_le x)).1
  have h2 : (-1 : ℚ) < even x := by linarith
  have h3 : (-1 : Int) < even x := by exact_mod_cast h2
  omega

@[simp] theorem even_intCast (n : Int) : even n = n := by
  obtain ⟨h1, h2⟩ := abs_le.mp (abs_even_sub_le (n : ℚ))
  have hlow : ((n - 1 : Int) : ℚ) < even n := by push_cast; linarith
  have hhigh : (even n : ℚ) < (n + 1 : Int) := by push_cast; linarith
  have hlow' : n - 1 < even n := by exact_mod_cast hlow
  have hhigh' : even n < n + 1 := by exact_mod_cast hhigh
  omega

/-- **Rounding keeps the order.** Numbers that rounded the other way would both lie half-way
    between their roundings, and so be equal. -/
theorem even_monotone {x y : ℚ} (hxy : x ≤ y) : even x ≤ even y := by
  by_contra hlt
  have hx := abs_le.mp (abs_even_sub_le x)
  have hy := abs_le.mp (abs_even_sub_le y)
  have hstep : ((even y + 1 : Int) : ℚ) ≤ even x := by
    have h : even y + 1 ≤ even x := by omega
    exact_mod_cast h
  push_cast at hstep
  have heq : x = y := by linarith [hx.2, hy.1]
  rw [heq] at hlt
  exact hlt le_rfl

/-- **The numbers that round below an even `n`** are those more than a half below it. -/
theorem even_lt_iff {x : ℚ} {n : Int} (hn : n % 2 = 0) : even x < n ↔ x < n - 1 / 2 := by
  constructor
  · intro h
    by_contra hge
    have hhalf : even ((n : ℚ) - 1 / 2) = n := by
      rw [even_eq_iff hn, sub_right_comm, sub_self, zero_sub, abs_neg]
      exact (abs_of_pos (by norm_num)).le
    have hmono := even_monotone (not_lt.mp hge)
    omega
  · intro h
    have hx := (abs_le.mp (abs_even_sub_le x)).2
    have hlt : (even x : ℚ) < n := by linarith
    exact_mod_cast hlt

end Rounding
