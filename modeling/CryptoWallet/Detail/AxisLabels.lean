/-
  File:      CryptoWallet/Detail/AxisLabels.lean
  Subject:   The labels of the chart's axis (Double.swift).

  A label is a number with two decimals and the letters of its unit. The unit is that of the number
  before it is rounded. Doubles are exact rationals.

  * `readLabel`: the mantissa and the unit of a label.
  * `readLabel_formatted`: what a label of `x` says: `shown` hundredths of the unit of `|x|`.
  * `labels_accurate`: **labels are within half a hundredth of their unit, odd and monotone**.
  * `labels_right_unit_iff`: the numbers whose mantissa is below a thousand.
-/
import CryptoWallet.CoinModelParser
import Mathlib.Order.Monotone.Odd
import Mathlib.Tactic.IntervalCases

namespace CryptoWallet

open Decimal Rounding

/-! ## 1. Labels -/

def asNumberString (x : ℚ) : String := String.ofList (twoDecimals (decide (x < 0)) x)

/-- `T` gives `"\(self)"`. -/
def formattedWithAbbreviations (T : DoubleText ℚ) (x : ℚ) : String :=
  let num := |x|
  let sign := if x < 0 then "-" else ""
  if 1000000000000 ≤ num then
    let formatted := num / 1000000000000
    let stringFormatted := asNumberString formatted
    sign ++ stringFormatted ++ "Tr"
  else if 1000000000 ≤ num then
    let formatted := num / 1000000000
    let stringFormatted := asNumberString formatted
    sign ++ stringFormatted ++ "Bn"
  else if 1000000 ≤ num then
    let formatted := num / 1000000
    let stringFormatted := asNumberString formatted
    sign ++ stringFormatted ++ "M"
  else if 1000 ≤ num then
    let formatted := num / 1000
    let stringFormatted := asNumberString formatted
    sign ++ stringFormatted ++ "K"
  else if 0 ≤ num then asNumberString x
  else sign ++ T.toText x

/-! ## 2. What a label says -/

/-- The unit of its letters. -/
def unitOf : List Char → Option ℚ
  | [] => some 1
  | ['K'] => some 1000
  | ['M'] => some 1000000
  | ['B', 'n'] => some 1000000000
  | ['T', 'r'] => some 1000000000000
  | _ => none

/-- The mantissa and the unit of a label. -/
def readLabel (label : List Char) : Option (ℚ × ℚ) :=
  match value (label.takeWhile fun c => !c.isAlpha),
    unitOf (label.dropWhile fun c => !c.isAlpha) with
  | some mantissa, some unit => some (mantissa, unit)
  | _, _ => none

/-- The letters and the unit of a magnitude. -/
def band (num : ℚ) : List Char × ℚ :=
  if 1000000000000 ≤ num then (['T', 'r'], 1000000000000)
  else if 1000000000 ≤ num then (['B', 'n'], 1000000000)
  else if 1000000 ≤ num then (['M'], 1000000)
  else if 1000 ≤ num then (['K'], 1000)
  else ([], 1)

/-- The hundredths of its unit that a label of `x` shows. -/
def shown (x : ℚ) : Int := even (|x| / (band |x|).2 * 100)

example : formattedWithAbbreviations exactText (-1234567 / 100) = "-12.35K" := by decide +kernel

theorem not_isAlpha_of_isDigit {c : Char} (h : c.isDigit = true) : c.isAlpha = false := by
  refine Bool.eq_false_iff.mpr fun ha => ?_
  have hdigit : 48 ≤ c.val.toNat ∧ c.val.toNat ≤ 57 := by
    simpa [Char.isDigit, UInt32.le_iff_toNat_le] using h
  have hor : (decide (c.val ≥ 'A'.val ∧ c.val ≤ 'Z'.val) ||
      c.val ≥ 'a'.val && c.val ≤ 'z'.val) = true := ha
  have hletter : 65 ≤ c.val.toNat ∧ c.val.toNat ≤ 90 ∨ 97 ≤ c.val.toNat ∧ c.val.toNat ≤ 122 := by
    simpa [UInt32.le_iff_toNat_le] using hor
  omega

theorem fixed_noLetter (k n : Nat) : ∀ c ∈ fixed k n, c.isAlpha = false := by
  intro c hc
  obtain hc | hc := List.mem_append.mp hc
  · exact not_isAlpha_of_isDigit (List.all_eq_true.mp (all_isDigit_whole _) c hc)
  · obtain rfl | hc := List.mem_cons.mp hc
    · rfl
    · exact not_isAlpha_of_isDigit (List.all_eq_true.mp (all_isDigit_lastDigits _ _) c hc)

/-- The text of a number has no letter. -/
theorem twoDecimals_noLetter (negative : Bool) (x : ℚ) :
    ∀ c ∈ twoDecimals negative x, (!c.isAlpha) = true := by
  intro c hc
  obtain hc | hc := List.mem_append.mp hc
  · cases negative with
    | true => rw [List.mem_singleton.mp hc]; rfl
    | false => exact absurd hc List.not_mem_nil
  · rw [fixed_noLetter _ _ c hc]
    rfl

/-- **What two decimals denote**: the hundredths, with their sign. -/
theorem value_twoDecimals (negative : Bool) (x : ℚ) :
    value (twoDecimals negative x) =
      some (if negative then -((even (|x| * 100) : ℚ) / 100)
        else (even (|x| * 100) : ℚ) / 100) := by
  have h0 : 0 ≤ even (|x| * 100) := even_nonneg (by positivity)
  have hcast : (((even (|x| * 100)).natAbs : Nat) : ℚ) = even (|x| * 100) := by
    rw [← Int.cast_natCast, Int.natAbs_of_nonneg h0]
  have hfixed := value_fixed 2 (even (|x| * 100)).natAbs
  rw [hcast] at hfixed
  unfold twoDecimals
  cases negative with
  | false =>
      rw [if_neg Bool.false_ne_true, if_neg Bool.false_ne_true, List.nil_append, hfixed]
      norm_num
  | true =>
      obtain ⟨c, cs, hw, hc⟩ := whole_head ((even (|x| * 100)).natAbs / 10 ^ 2)
      rw [fixed, hw, List.cons_append] at hfixed
      rw [if_pos rfl, if_pos rfl, List.singleton_append, fixed, hw, List.cons_append,
        value_minus hc, hfixed]
      norm_num

/-- The sign goes before the text of a magnitude. -/
theorem sign_asNumberString (x : ℚ) {u : ℚ} (hu : 0 < u) (suffix : String) :
    ((if x < 0 then "-" else "") ++ asNumberString (|x| / u) ++ suffix).toList =
      twoDecimals (decide (x < 0)) (|x| / u) ++ suffix.toList := by
  have hneg : ¬|x| / u < 0 := not_lt.mpr (div_nonneg (abs_nonneg x) hu.le)
  simp only [String.toList_append, asNumberString, String.toList_ofList, hneg, decide_false,
    twoDecimals, Bool.false_eq_true, if_false, List.nil_append]
  by_cases hx : x < 0
  · simp [hx]
  · simp [hx]

/-- **The text of a label**: its hundredths, and the letters of its unit. -/
theorem formatted_eq (T : DoubleText ℚ) (x : ℚ) :
    (formattedWithAbbreviations T x).toList =
      twoDecimals (decide (x < 0)) (|x| / (band |x|).2) ++ (band |x|).1 := by
  unfold formattedWithAbbreviations band
  dsimp only
  split
  · exact sign_asNumberString x (by norm_num) "Tr"
  split
  · exact sign_asNumberString x (by norm_num) "Bn"
  split
  · exact sign_asNumberString x (by norm_num) "M"
  split
  · exact sign_asNumberString x (by norm_num) "K"
  · rw [if_pos (abs_nonneg x)]
    simp [asNumberString, twoDecimals]

/-- **What a label of `x` says**: the hundredths shown, with the sign of `x`, and its unit. -/
theorem readLabel_formatted (T : DoubleText ℚ) (x : ℚ) :
    readLabel (formattedWithAbbreviations T x).toList =
      some (if x < 0 then -((shown x : ℚ) / 100) else (shown x : ℚ) / 100, (band |x|).2) := by
  have hband : (band |x|).1.takeWhile (fun c => !c.isAlpha) = [] ∧
      (band |x|).1.dropWhile (fun c => !c.isAlpha) = (band |x|).1 ∧
      unitOf (band |x|).1 = some (band |x|).2 ∧ 0 < (band |x|).2 := by
    unfold band
    split_ifs <;> refine ⟨by rfl, by rfl, by rfl, by norm_num⟩
  obtain ⟨htake, hdrop, hunit, hpos⟩ := hband
  have hall := twoDecimals_noLetter (decide (x < 0)) (|x| / (band |x|).2)
  have habs : |(|x| / (band |x|).2)| = |x| / (band |x|).2 :=
    abs_of_nonneg (div_nonneg (abs_nonneg x) hpos.le)
  unfold readLabel
  rw [formatted_eq, List.takeWhile_append_of_pos hall, List.dropWhile_append_of_pos hall, htake,
    hdrop, List.append_nil, value_twoDecimals, hunit, habs, ← shown]
  simp only [decide_eq_true_eq]

/-! ## 3. Accurate, odd, monotone -/

/-- **The unit is the power of a thousand next below the magnitude**, from 1 to 10¹². -/
theorem band_power (num : ℚ) :
    ∃ n : Nat, n ≤ 4 ∧ (band num).2 = 1000 ^ n ∧ (n = 0 ∨ 1000 ^ n ≤ num) ∧
      (n = 4 ∨ num < 1000 ^ (n + 1)) := by
  unfold band
  split_ifs with h4 h3 h2 h1
  · exact ⟨4, le_rfl, by norm_num, .inr (by norm_num; exact h4), .inl rfl⟩
  · exact ⟨3, by omega, by norm_num, .inr (by norm_num; exact h3), .inr (by norm_num; linarith)⟩
  · exact ⟨2, by omega, by norm_num, .inr (by norm_num; exact h2), .inr (by norm_num; linarith)⟩
  · exact ⟨1, by omega, by norm_num, .inr (by norm_num; exact h1), .inr (by norm_num; linarith)⟩
  · exact ⟨0, by omega, by norm_num, .inl rfl, .inr (by norm_num; linarith)⟩

theorem band_pos (num : ℚ) : 0 < (band num).2 := by
  obtain ⟨n, -, h, -, -⟩ := band_power num
  rw [h]
  positivity

/-- The number the label of a magnitude denotes. -/
def shownNumber (x : ℚ) : ℚ := (shown x : ℚ) / 100 * (band |x|).2

/-- The number a label says. -/
def labelSays (label : String) : ℚ := ((readLabel label.toList).map fun p => p.1 * p.2).getD 0

/-- The number the label of `x` denotes. -/
def labelNumber (T : DoubleText ℚ) (x : ℚ) : ℚ := labelSays (formattedWithAbbreviations T x)

theorem labelNumber_eq (T : DoubleText ℚ) (x : ℚ) :
    labelNumber T x = if x < 0 then -shownNumber x else shownNumber x := by
  rw [labelNumber, labelSays, readLabel_formatted, Option.map_some, Option.getD_some]
  split
  · rw [neg_mul, shownNumber]
  · rfl

theorem shown_abs (x : ℚ) : shown |x| = shown x := by
  rw [shown, abs_abs, shown]

theorem shownNumber_abs (x : ℚ) : shownNumber |x| = shownNumber x := by
  rw [shownNumber, abs_abs, shown_abs, shownNumber]

theorem shownNumber_zero : shownNumber 0 = 0 := by decide +kernel

/-- **Within half a hundredth of the unit.** -/
theorem abs_shownNumber_sub_le (x : ℚ) :
    |shownNumber x - (|x|)| ≤ 5 / 1000 * (band |x|).2 := by
  have hpos := band_pos |x|
  have herr : |(shown x : ℚ) - |x| / (band |x|).2 * 100| ≤ 1 / 2 := abs_even_sub_le _
  have hscale : shownNumber x - |x| =
      (shown x - |x| / (band |x|).2 * 100) * ((band |x|).2 / 100) := by
    rw [shownNumber]
    field_simp
  rw [hscale, abs_mul, abs_of_pos (div_pos hpos (by norm_num : (0 : ℚ) < 100))]
  calc |(shown x : ℚ) - |x| / (band |x|).2 * 100| * ((band |x|).2 / 100)
      ≤ 1 / 2 * ((band |x|).2 / 100) := by gcongr
    _ = 5 / 1000 * (band |x|).2 := by ring

theorem labelNumber_neg (T : DoubleText ℚ) (x : ℚ) : labelNumber T (-x) = -labelNumber T x := by
  have hshown : shownNumber (-x) = shownNumber x := by
    rw [← shownNumber_abs, abs_neg, shownNumber_abs]
  rw [labelNumber_eq, labelNumber_eq, hshown]
  rcases lt_trichotomy x 0 with h | rfl | h
  · rw [if_neg (by linarith), if_pos h, neg_neg]
  · simp [shownNumber_zero]
  · rw [if_pos (by linarith), if_neg (by linarith)]

/-- A magnitude of at least one unit shows a hundred hundredths of it. -/
theorem hundred_le_even {y u : ℚ} (hu : 0 < u) (h : u ≤ y) : 100 ≤ even (y / u * 100) := by
  have hdiv : 1 ≤ y / u := (one_le_div hu).mpr h
  rw [← even_intCast 100]
  refine even_monotone ?_
  push_cast
  linarith

/-- One of at most a thousand units shows at most a thousand. -/
theorem even_le_thousand {x u : ℚ} (hu : 0 < u) (h : x ≤ 1000 * u) :
    even (x / u * 100) ≤ 100000 := by
  have hdiv : x / u ≤ 1000 := (div_le_iff₀ hu).mpr h
  rw [← even_intCast 100000]
  refine even_monotone ?_
  push_cast
  linarith

/-- **Magnitudes of different units**: what the smaller shows is at most a thousand of its units,
    which is at most one of the larger. -/
theorem shownNumber_mono {x y : ℚ} (hx : 0 ≤ x) (hxy : x ≤ y) : shownNumber x ≤ shownNumber y := by
  have hy : 0 ≤ y := hx.trans hxy
  rw [shownNumber, shownNumber, shown, shown, abs_of_nonneg hx, abs_of_nonneg hy]
  obtain ⟨n, hn4, hn, hnlow, hnhigh⟩ := band_power x
  obtain ⟨m, hm4, hm, hmlow, hmhigh⟩ := band_power y
  rw [hn, hm]
  have hpn : (0 : ℚ) < 1000 ^ n := by positivity
  have hpm : (0 : ℚ) < 1000 ^ m := by positivity
  rcases lt_trichotomy n m with hlt | rfl | hlt
  · -- `1000 ^ (n + 1)` is between the two
    have hx' : x < 1000 ^ (n + 1) := hnhigh.resolve_left (by omega)
    have hy' : 1000 ^ m ≤ y := hmlow.resolve_left (by omega)
    have hstep : (1000 : ℚ) ^ (n + 1) ≤ 1000 ^ m :=
      pow_le_pow_right₀ (by norm_num) (by omega)
    rw [pow_succ] at hx'
    have htop : (even (x / 1000 ^ n * 100) : ℚ) ≤ 100000 := by
      exact_mod_cast even_le_thousand hpn (by linarith)
    have hbottom : (100 : ℚ) ≤ even (y / 1000 ^ m * 100) := by
      exact_mod_cast hundred_le_even hpm hy'
    calc (even (x / 1000 ^ n * 100) : ℚ) / 100 * 1000 ^ n
        ≤ 100000 / 100 * 1000 ^ n := by gcongr
      _ = 1000 ^ (n + 1) := by ring
      _ ≤ 1000 ^ m := hstep
      _ = 100 / 100 * 1000 ^ m := by ring
      _ ≤ (even (y / 1000 ^ m * 100) : ℚ) / 100 * 1000 ^ m := by gcongr
  · have hmono : even (x / 1000 ^ n * 100) ≤ even (y / 1000 ^ n * 100) :=
      even_monotone (by gcongr)
    have hmono' : (even (x / 1000 ^ n * 100) : ℚ) ≤ even (y / 1000 ^ n * 100) := by
      exact_mod_cast hmono
    gcongr
  · exfalso
    have hx' : 1000 ^ n ≤ x := hnlow.resolve_left (by omega)
    have hy' : y < 1000 ^ (m + 1) := hmhigh.resolve_left (by omega)
    have hstep : (1000 : ℚ) ^ (m + 1) ≤ 1000 ^ n :=
      pow_le_pow_right₀ (by norm_num) (by omega)
    linarith

/-- A larger number has no label of a smaller one, whatever the units. -/
theorem labelNumber_monotone (T : DoubleText ℚ) : Monotone (labelNumber T) := by
  refine monotone_of_odd_of_monotoneOn_nonneg (labelNumber_neg T) fun x hx y hy hxy => ?_
  rw [labelNumber_eq, labelNumber_eq, if_neg (not_lt.mpr hx), if_neg (not_lt.mpr hy)]
  exact shownNumber_mono hx hxy

/-- **Labels are accurate, odd and monotone**: a label denotes a number within half a hundredth of
    its unit, the label of `-x` the opposite number, and that of a larger number no smaller one,
    whatever the units. -/
theorem labels_accurate (T : DoubleText ℚ) :
    (∀ x, ∃ mantissa unit,
      readLabel (formattedWithAbbreviations T x).toList = some (mantissa, unit) ∧
      labelNumber T x = mantissa * unit ∧ |labelNumber T x - x| ≤ 5 / 1000 * unit) ∧
    (∀ x, labelNumber T (-x) = -labelNumber T x) ∧ Monotone (labelNumber T) := by
  refine ⟨fun x => ⟨_, _, readLabel_formatted T x, ?_, ?_⟩, labelNumber_neg T,
    labelNumber_monotone T⟩
  · rw [labelNumber, labelSays, readLabel_formatted, Option.map_some, Option.getD_some]
  · have herr := abs_shownNumber_sub_le x
    rw [labelNumber_eq]
    by_cases hx : x < 0
    · rw [if_pos hx, ← abs_neg]
      rw [abs_of_neg hx] at herr ⊢
      convert herr using 2
      ring
    · rw [if_neg hx]
      rwa [abs_of_nonneg (not_lt.mp hx)] at herr ⊢

/-! ## 4. The right unit -/

/-- The mantissa of the label is below 1000, and at least 1 where a unit is printed. -/
def RightUnit (T : DoubleText ℚ) (x : ℚ) : Prop :=
  ∃ mantissa unit, readLabel (formattedWithAbbreviations T x).toList = some (mantissa, unit) ∧
    |mantissa| < 1000 ∧ (unit ≠ 1 → 1 ≤ |mantissa|)

/-- Less than five millionths below the unit `1000 ^ k`. -/
def JustBelow (k : Nat) (x : ℚ) : Prop :=
  999995 / 1000000 * 1000 ^ k ≤ |x| ∧ |x| < 1000 ^ k

instance (k : Nat) (x : ℚ) : Decidable (JustBelow k x) :=
  inferInstanceAs (Decidable (_ ∧ _))

/-- A unit that is printed is at most the magnitude. -/
theorem hundred_le_shown {x : ℚ} (h : (band |x|).2 ≠ 1) : 100 ≤ shown x := by
  have hpos := band_pos |x|
  obtain ⟨n, -, hn, hlow, -⟩ := band_power |x|
  have hn0 : n ≠ 0 := by
    rintro rfl
    exact h hn
  have hle : (band |x|).2 ≤ |x| := by
    rw [hn]
    exact hlow.resolve_left hn0
  exact hundred_le_even hpos hle

/-- **The mantissa is below 1000** exactly if the magnitude is below 999.995 units. -/
theorem rightUnit_iff (T : DoubleText ℚ) (x : ℚ) :
    RightUnit T x ↔ |x| < 999995 / 1000 * (band |x|).2 := by
  have hpos := band_pos |x|
  have h0 : (0 : ℚ) ≤ shown x := by
    have h : 0 ≤ shown x := even_nonneg (by positivity)
    exact_mod_cast h
  have habs : |(if x < 0 then -((shown x : ℚ) / 100) else (shown x : ℚ) / 100)| =
      (shown x : ℚ) / 100 := by
    split
    · rw [abs_neg, abs_of_nonneg (by positivity)]
    · rw [abs_of_nonneg (by positivity)]
  have hbelow : (shown x : ℚ) / 100 < 1000 ↔ |x| < 999995 / 1000 * (band |x|).2 := by
    have hint : (shown x : ℚ) / 100 < 1000 ↔ shown x < 100000 := by
      rw [div_lt_iff₀ (by norm_num)]
      norm_num
      exact_mod_cast Iff.rfl
    rw [hint, shown, even_lt_iff (by decide), ← lt_div_iff₀ (by norm_num), div_lt_iff₀ hpos]
    norm_num
  unfold RightUnit
  rw [readLabel_formatted, ← hbelow]
  constructor
  · intro h
    obtain ⟨mantissa, unit, heq, hlt, -⟩ := h
    obtain ⟨rfl, rfl⟩ := Prod.mk.inj (Option.some.inj heq)
    rwa [habs] at hlt
  · intro h
    refine ⟨_, _, rfl, by rwa [habs], fun hunit => ?_⟩
    rw [habs]
    have hle : (100 : ℚ) ≤ shown x := by exact_mod_cast hundred_le_shown hunit
    linarith

/-- **Labels use the right unit** exactly for the numbers that are not just below the next one. -/
theorem labels_right_unit_iff (T : DoubleText ℚ) (x : ℚ)
    (hx : |x| < 10 ^ 15 - 5 * 10 ^ 9) :
    RightUnit T x ↔ ∀ k : Nat, 1 ≤ k → k ≤ 4 → ¬JustBelow k x := by
  obtain ⟨n, hn4, hn, hlow, hhigh⟩ := band_power |x|
  rw [rightUnit_iff, hn]
  have hpow : ∀ {i j : Nat}, i ≤ j → (1000 : ℚ) ^ i ≤ 1000 ^ j := fun hij =>
    pow_le_pow_right₀ (by norm_num) hij
  constructor
  · intro hlt k hk1 hk4 hjust
    obtain ⟨hge, hk⟩ := hjust
    rcases Nat.lt_or_ge n k with hnk | hkn
    · -- `1000 ^ k` is the next unit or one above it
      have hstep : (1000 : ℚ) ^ (n + 1) ≤ 1000 ^ k := hpow hnk
      rw [pow_succ] at hstep
      linarith
    · have hle : 1000 ^ n ≤ |x| := hlow.resolve_left (by omega)
      linarith [hpow hkn]
  · intro hnot
    by_cases h4 : n = 4
    · rw [h4]
      norm_num at hx ⊢
      exact hx
    · by_contra hge
      refine hnot (n + 1) (by omega) (by omega) ⟨?_, hhigh.resolve_left h4⟩
      rw [pow_succ]
      linarith

/-- A million. -/
theorem labels_right_unit_million : RightUnit exactText 1000000 := by
  refine (labels_right_unit_iff exactText 1000000 (by norm_num)).mpr fun k hk1 hk4 => ?_
  interval_cases k <;> decide +kernel

/-- **Numbers just below a unit** get four digits before the point: 999.999 and 999999. -/
theorem labels_wrong_unit :
    formattedWithAbbreviations exactText (999999 / 1000) = "1000.00" ∧
      ¬RightUnit exactText (999999 / 1000) ∧
      formattedWithAbbreviations exactText (-999999) = "-1000.00K" ∧
      ¬RightUnit exactText (-999999) := by
  refine ⟨by decide +kernel, ?_, by decide +kernel, ?_⟩ <;> rw [rightUnit_iff] <;> decide +kernel

end CryptoWallet
