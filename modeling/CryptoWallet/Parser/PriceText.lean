/-
  File:      CryptoWallet/Parser/PriceText.lean
  Subject:   Which Doubles `cutString` writes so that they read back.

  Doubles are exact rationals, of either sign. The text of a negative number is a minus and the
  text of its absolute value, so the question is one about absolute values.

  * `LosesDigits x`: the absolute value rounds to a multiple of ten, 0 among them, that it is not.
  * `cutString_reads_back_iff`: the text reads back within a hundredth exactly when the number fits
    in 64 bits if it is whole, and does not lose digits.
  * `cutString_misreads`: numbers that lose digits, and one that stops the app.
-/
import CryptoWallet.CoinModelParser

namespace CryptoWallet

open Decimal Rounding

/-- **The text of `x` is one `Double` reads, as a number within a hundredth of `x`**; in
    particular `cutString` does not stop the app. -/
def ReadsBack (T : DecimalText) (x : ℚ) : Prop :=
  ∃ text v, cutString x = some text ∧ T.ofText text = some v ∧ |v - x| ≤ 1 / 100

/-- The two roundings take the number to a multiple of ten that it is not, `0.00` among them. -/
def LosesDigits (x : ℚ) : Prop :=
  ∃ n : Nat, |x| ≠ 10 * n ∧ 10 * n - 11 / 2000 ≤ |x| ∧ |x| < 10 * n + 11 / 2000

/-! ## 1. Both signs -/

theorem thousandths_neg (x : ℚ) : thousandths (-x) = -thousandths x := by
  rw [thousandths, thousandths, neg_mul, away_neg]
  push_cast
  ring

theorem abs_thousandths (x : ℚ) : |thousandths x| = thousandths |x| := by
  rcases abs_cases x with ⟨e, h⟩ | ⟨e, h⟩ <;> rw [e]
  · exact abs_of_nonneg (thousandths_nonneg h)
  · rw [← abs_neg, ← thousandths_neg]
    exact abs_of_nonneg (thousandths_nonneg (by linarith))

/-- What `%.2f` and the cut leave of the digits of `x`. -/
def keptDigits (x : ℚ) : List Char := (fixed 2 (hundredths |x|).toNat).rdropWhile isCut

theorem rdropWhile_minus (cs : List Char) :
    ('-' :: cs).rdropWhile isCut = '-' :: cs.rdropWhile isCut := by
  induction cs using List.reverseRecOn with
  | nil => decide
  | append_singleton cs c ih =>
      rw [← List.cons_append]
      by_cases h : isCut c = true
      · rw [List.rdropWhile_concat_pos _ _ _ h, List.rdropWhile_concat_pos _ _ _ h, ih]
      · rw [List.rdropWhile_concat_neg _ _ _ h, List.rdropWhile_concat_neg _ _ _ h]
        rfl

/-- **The text of a number that is not whole**: a minus below zero, and the digits kept. -/
theorem cutString_of_sign {x : ℚ} (h : ¬ ∃ n : Int, x = n) :
    cutString x =
      some (String.ofList (if x < 0 then '-' :: keptDigits x else keptDigits x)) := by
  have hnat : (even (thousandths |x| * 100)).natAbs = (hundredths |x|).toNat := by
    have : 0 ≤ hundredths |x| := hundredths_nonneg (abs_nonneg x)
    rw [hundredths] at this ⊢
    omega
  rw [cutString_of_fraction h, twoDecimals, abs_thousandths, hnat]
  by_cases hneg : x < 0
  · simp only [hneg, decide_true, if_true, List.singleton_append, rdropWhile_minus, keptDigits]
  · simp only [hneg, decide_false, Bool.false_eq_true, if_false, List.nil_append, keptDigits]

theorem keptDigits_head (x : ℚ) :
    keptDigits x = [] ∨ ∃ c cs, keptDigits x = c :: cs ∧ c.isDigit = true :=
  head_of_prefix_fixed (List.rdropWhile_prefix _ _)

/-- **Reading the text reads the digits**: as far from `x` as the digits are from `|x|`. -/
theorem reads_digits (T : DecimalText) {x v : ℚ} (h : ¬ ∃ n : Int, x = n)
    (hv : value (keptDigits x) = some v) :
    ∃ text w, cutString x = some text ∧ T.ofText text = some w ∧ |w - x| = |v - (|x|)| := by
  refine ⟨_, if x < 0 then -v else v, cutString_of_sign h, ?_, ?_⟩
  · rcases keptDigits_head x with e | ⟨c, cs, e, hc⟩
    · rw [e] at hv
      cases hv
    · refine ofText_value T ?_
      by_cases hneg : x < 0
      · rw [if_pos hneg, if_pos hneg, e, value_minus hc, ← e, hv]
        rfl
      · rw [if_neg hneg, if_neg hneg, hv]
  · by_cases hneg : x < 0
    · rw [if_pos hneg, abs_of_neg hneg, ← abs_neg]
      congr 1
      ring
    · rw [if_neg hneg, abs_of_nonneg (not_lt.mp hneg)]

/-- Where no digit is kept, the text is no number. -/
theorem ofText_no_digits (T : SwiftText) {x : ℚ} (h : ¬ ∃ n : Int, x = n)
    (hnil : keptDigits x = []) :
    ∃ text, cutString x = some text ∧ T.ofText text = none := by
  refine ⟨_, cutString_of_sign h, ?_⟩
  rw [hnil]
  by_cases hneg : x < 0
  · rw [if_pos hneg]
    exact T.ofText_minus
  · rw [if_neg hneg]
    exact T.ofText_empty

/-! ## 2. Which numbers lose digits -/

/-- A number that loses digits is not whole. -/
theorem LosesDigits.fraction {x : ℚ} (h : LosesDigits x) : ¬ ∃ n : Int, x = n := by
  obtain ⟨k, hne, h1, h2⟩ := h
  rintro ⟨n, rfl⟩
  rw [← Int.cast_abs] at hne h1 h2
  have e1 : ((10 * k - 1 : Int) : ℚ) < (|n| : Int) := by push_cast; push_cast at h1; linarith
  have e2 : ((|n| : Int) : ℚ) < (10 * k + 1 : Int) := by push_cast; push_cast at h2; linarith
  have e1' : (10 * k - 1 : Int) < |n| := by exact_mod_cast e1
  have e2' : |n| < (10 * k + 1 : Int) := by exact_mod_cast e2
  have hk : |n| = 10 * k := by omega
  exact hne (by rw [hk]; push_cast; rfl)

/-- The number loses digits exactly when its hundredths are a multiple of a thousand. -/
theorem losesDigits_iff {x : ℚ} (h : ¬ ∃ n : Int, x = n) :
    LosesDigits x ↔ (hundredths |x|).toNat % 1000 = 0 := by
  have h0 : 0 ≤ hundredths |x| := hundredths_nonneg (abs_nonneg x)
  constructor
  · intro ⟨n, _, h1, h2⟩
    have hn : hundredths |x| = 1000 * (n : Int) := by
      rw [hundredths_eq_iff (abs_nonneg x)]
      exact ⟨by exact_mod_cast h1, by exact_mod_cast h2⟩
    omega
  · intro hm
    obtain ⟨k, hk⟩ := Nat.dvd_of_mod_eq_zero hm
    have hn : hundredths |x| = 1000 * (k : Int) := by omega
    obtain ⟨h1, h2⟩ := (hundredths_eq_iff (abs_nonneg x) _).mp hn
    refine ⟨k, fun e => h ?_, by exact_mod_cast h1, by exact_mod_cast h2⟩
    -- a whole absolute value is that of a whole number
    rcases (abs_eq (by positivity)).mp e with hx | hx
    · exact ⟨10 * k, by rw [hx]; push_cast; rfl⟩
    · exact ⟨-(10 * k), by rw [hx]; push_cast; rfl⟩

/-! ## 3. Which numbers read back -/

theorem readsBack_intCast (T : DecimalText) (n : Int) : ReadsBack T n ↔ FitsInt n := by
  constructor
  · intro ⟨text, v, htext, _, _⟩
    exact cutString_isSome.mp (by rw [htext]; rfl)
  · intro hfit
    refine ⟨_, n, by rw [cutString_intCast, if_pos (hfit n rfl)],
      ofText_value T (value_intText n), ?_⟩
    rw [sub_self, abs_zero]
    norm_num

theorem readsBack_of_keeps (T : DecimalText) {x : ℚ} (h : ¬ ∃ n : Int, x = n)
    (hk : ¬ LosesDigits x) : ReadsBack T x := by
  rw [losesDigits_iff h] at hk
  have herr : |((hundredths |x|).toNat : ℚ) / 100 - (|x|)| ≤ 11 / 2000 := by
    have herr := abs_hundredths_sub_le (abs_nonneg x)
    have e : ((hundredths |x|).toNat : Int) = hundredths |x| :=
      Int.toNat_of_nonneg (hundredths_nonneg (abs_nonneg x))
    rwa [← e, Int.cast_natCast] at herr
  obtain ⟨text, w, htext, hw, hd⟩ :=
    reads_digits T h (value_rdropWhile_fixed_two_of_ne isCut_digit isCut_point hk)
  exact ⟨text, w, htext, hw, by rw [hd]; linarith⟩

theorem not_readsBack_of_loses (T : SwiftText) {x : ℚ} (hk : LosesDigits x) :
    ¬ ReadsBack T.toDecimalText x := by
  have h := hk.fraction
  have h1000 := (losesDigits_iff h).mp hk
  obtain ⟨n, hn⟩ := Nat.dvd_of_mod_eq_zero h1000
  intro ⟨text, v, htext, hv, herr⟩
  by_cases hn0 : n = 0
  · have hnil : keptDigits x = [] := by
      rw [keptDigits, hn, hn0]
      exact rdropWhile_fixed_two_zero isCut_digit isCut_point
    obtain ⟨text', htext', hnone⟩ := ofText_no_digits T h hnil
    rw [htext, Option.some.injEq] at htext'
    rw [htext', hnone] at hv
    cases hv
  · obtain ⟨m, hmn, hm⟩ :=
      value_rdropWhile_fixed_two_thousand isCut_digit isCut_point (Nat.pos_of_ne_zero hn0)
    rw [← hn] at hm
    obtain ⟨text', w, htext', hw, hd⟩ := reads_digits T.toDecimalText h hm
    rw [htext, Option.some.injEq] at htext'
    rw [← htext', hv, Option.some.injEq] at hw
    -- a tenth of the number is left at most, so nine tenths of ten are missing
    have h0 : hundredths |x| = 1000 * (n : Int) := by
      have := hundredths_nonneg (abs_nonneg x)
      omega
    have hlow := ((hundredths_eq_iff (abs_nonneg x) _).mp h0).1
    have hmn' : (m : ℚ) ≤ n := by exact_mod_cast hmn
    have hn' : (1 : ℚ) ≤ n := by exact_mod_cast Nat.pos_of_ne_zero hn0
    push_cast at hlow
    rw [hw, hd] at herr
    linarith [(abs_le.mp herr).1]

/-- **The numbers `cutString` writes faithfully.** -/
theorem cutString_reads_back_iff (T : SwiftText) (x : ℚ) :
    ReadsBack T.toDecimalText x ↔ FitsInt x ∧ ¬ LosesDigits x := by
  by_cases h : ∃ n : Int, x = n
  · obtain ⟨n, rfl⟩ := h
    have hk : ¬ LosesDigits (n : ℚ) := fun hk => hk.fraction ⟨n, rfl⟩
    rw [readsBack_intCast]
    exact ⟨fun hfit => ⟨hfit, hk⟩, fun hc => hc.1⟩
  · refine ⟨fun hr => ⟨fun n e => absurd ⟨n, e⟩ h, fun hk => not_readsBack_of_loses T hk hr⟩,
      fun hc => readsBack_of_keeps T.toDecimalText h hc.2⟩

/-- **Numbers that do not read back**: `10 + 1/1024` is written "1", `1/1024` is written "", and
    `2^63` stops the app. -/
theorem cutString_misreads :
    (cutString (10241 / 1024) = some "1" ∧
      ¬ ReadsBack exactSwiftText.toDecimalText (10241 / 1024)) ∧
    (cutString (1 / 1024) = some "" ∧ ¬ ReadsBack exactSwiftText.toDecimalText (1 / 1024)) ∧
    cutString (2 ^ 63) = none := by
  have h1 : cutString (10241 / 1024) = some "1" := by decide +kernel
  have h2 : cutString (1 / 1024) = some "" := by decide +kernel
  have h3 : cutString (2 ^ 63) = none := by decide +kernel
  refine ⟨⟨h1, not_readsBack_of_loses exactSwiftText ⟨1, ?_⟩⟩,
    ⟨h2, not_readsBack_of_loses exactSwiftText ⟨0, ?_⟩⟩, h3⟩ <;> decide +kernel

end CryptoWallet
