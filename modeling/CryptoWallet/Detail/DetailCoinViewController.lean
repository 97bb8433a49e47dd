/-
  File:      CryptoWallet/Detail/DetailCoinViewController.lean
  Subject:   What the screen of a coin shows (DetailCoinViewController.swift,
             DetailCoinViewPresenter.swift, ChartView.swift).

  Doubles are exact rationals. The change of a price is shown as it reads back from the text that
  `cutString` makes of it. Near 0.005 that text rests on how a Double is rounded to two decimals,
  so nothing is said there of the colour.

  * `change_reads`: in exact arithmetic the number shown has the sign of the change from 0.0055
    on, is 0 below, and is never larger than the change by more than that.
  * `detail_change_shown`: **the colour of the change and the number beside it**, by the change.
  * `axis_measures_chart`: **the chart agrees with the labels of its axis**, price by price.
-/
import CryptoWallet.Detail.AxisLabels
import CryptoWallet.Detail.ChartView
import CryptoWallet.Parser.ParsedCoins
import CryptoWallet.Parser.PriceText

namespace CryptoWallet

open Decimal Rounding

/-! ## 1. The screen -/

inductive TextColor where
  | systemGreen
  | systemRed
  deriving DecidableEq, Repr

/-- The labels, the image and the chart. -/
structure DetailFields (Image : Type) where
  nameLabel : String
  symbolLabel : String
  currentPriceLabel : String
  coinImageView : Image
  priceChangeDayColor : TextColor
  priceChangeDayPercentColor : TextColor
  priceChangeDayLabel : String
  priceChangeDayPercentLabel : String
  lowPriceDayLabel : String
  highPriceDayLabel : String
  chart : ChartView
  deriving DecidableEq, Repr

variable {Image : Type}

/-- `T` gives `"\(self)"`. -/
def setupFields (T : DoubleText ℚ) (E : Dates) (viewData : CoinTableViewCellViewModel ℚ Image) :
    DetailFields Image :=
  let color := if viewData.priceChangeDay > 0 then TextColor.systemGreen else .systemRed
  { nameLabel := viewData.name
    symbolLabel := viewData.symbol
    currentPriceLabel := viewData.currentPrice ++ " $"
    coinImageView := viewData.image
    priceChangeDayColor := color
    priceChangeDayPercentColor := color
    priceChangeDayLabel := T.toText viewData.priceChangeDay ++ " $"
    priceChangeDayPercentLabel := T.toText viewData.priceChangePercentageDay ++ " %"
    lowPriceDayLabel := T.toText viewData.lowDayPrice ++ " $"
    highPriceDayLabel := T.toText viewData.highDayPrice ++ " $"
    chart := ChartView.ofCoin E viewData }

/-- `chartYAxis`, from the top down. -/
def ChartView.chartYAxis (T : DoubleText ℚ) (v : ChartView) : List String :=
  [formattedWithAbbreviations T v.maxY, formattedWithAbbreviations T ((v.maxY + v.minY) / 2),
    formattedWithAbbreviations T v.minY]

/-! ## 2. The change of a price -/

/-- The hundredths of a number are zero below 0.0055. -/
theorem hundredths_pos_iff (x : ℚ) : 0 < hundredths |x| ↔ 11 / 2000 ≤ |x| := by
  have h0 : 0 ≤ hundredths |x| := hundredths_nonneg (abs_nonneg x)
  have hzero := hundredths_eq_iff (abs_nonneg x) 0
  rw [mul_zero] at hzero
  constructor
  · intro hpos
    by_contra hlt
    have hlow : 10 * ((0 : Int) : ℚ) - 11 / 2000 ≤ |x| := by
      push_cast
      linarith [abs_nonneg x]
    have hhigh : |x| < 10 * ((0 : Int) : ℚ) + 11 / 2000 := by
      push_cast
      linarith [not_le.mp hlt]
    exact hpos.ne' (hzero.mpr ⟨hlow, hhigh⟩)
  · intro hle
    refine lt_of_le_of_ne h0 fun h => ?_
    have hhigh := (hzero.mp h.symm).2
    push_cast at hhigh
    linarith

/-- **What the digits kept denote**: nothing where there are no hundredths, else a positive number
    no larger than them. -/
theorem keptDigits_value (x : ℚ) :
    (hundredths |x| = 0 ∧ keptDigits x = []) ∨
      ∃ v : ℚ, value (keptDigits x) = some v ∧ 0 < v ∧ v ≤ (hundredths |x| : ℚ) / 100 := by
  obtain ⟨n, hn⟩ := Int.eq_ofNat_of_zero_le (hundredths_nonneg (abs_nonneg x))
  have hkept : keptDigits x = (fixed 2 n).rdropWhile isCut := by
    rw [keptDigits, hn, Int.toNat_natCast]
  rw [hkept, hn]
  push_cast
  rcases Nat.eq_zero_or_pos n with rfl | hpos
  · exact Or.inl ⟨rfl, rdropWhile_fixed_two_zero isCut_digit isCut_point⟩
  · refine Or.inr ?_
    have hcast : (0 : ℚ) < n := by exact_mod_cast hpos
    by_cases h100 : n % 100 = 0
    · -- a whole number, of which final digits may be cut
      obtain ⟨m, hm, hle, hv⟩ :=
        value_rdropWhile_whole_le isCut_digit (n := n / 100) (by omega)
      have hmul : (100 * m : ℚ) ≤ n := by exact_mod_cast (by omega : 100 * m ≤ n)
      exact ⟨m, by rw [rdropWhile_fixed_two_whole isCut_digit isCut_point h100, hv],
        by exact_mod_cast hm, by linarith⟩
    · exact ⟨n / 100, value_rdropWhile_fixed_two isCut_digit h100, by positivity, le_rfl⟩

/-- The number shown for a change. -/
def changeShown (T : DoubleText ℚ) (text : String) : ℚ := (T.ofText text).getD 0

/-- Reading the text of a number that is not whole. -/
theorem changeShown_of_fraction (T : SwiftText) {x : ℚ} (h : ¬ ∃ n : Int, x = n) {text : String}
    (htext : cutString x = some text) :
    ∃ v : ℚ, changeShown T.toDoubleText text = (if x < 0 then -v else v) ∧
      (0 < v ↔ 0 < hundredths |x|) ∧ 0 ≤ v ∧ v ≤ (hundredths |x| : ℚ) / 100 := by
  unfold changeShown
  rcases keptDigits_value x with ⟨hzero, hnil⟩ | ⟨v, hv, hpos, hle⟩
  · obtain ⟨text', htext', hnone⟩ := ofText_no_digits T h hnil
    rw [htext, Option.some.injEq] at htext'
    refine ⟨0, ?_, by simp [hzero], le_rfl, by simp [hzero]⟩
    rw [htext', hnone, Option.getD_none, neg_zero, ite_self]
  · have hhundredths : 0 < hundredths |x| := by
      have hcast : (0 : ℚ) < hundredths |x| := by linarith
      exact_mod_cast hcast
    refine ⟨v, ?_, by simp [hpos, hhundredths], hpos.le, hle⟩
    rw [cutString_of_sign h, Option.some.injEq] at htext
    rw [← htext]
    rcases keptDigits_head x with e | ⟨c, cs, e, hc⟩
    · rw [e] at hv
      cases hv
    · by_cases hneg : x < 0
      · have hminus : value ('-' :: keptDigits x) = some (-v) := by
          rw [e, value_minus hc, ← e, hv]
          rfl
        rw [if_pos hneg, if_pos hneg, ofText_value T.toDecimalText hminus, Option.getD_some]
      · rw [if_neg hneg, if_neg hneg, ofText_value T.toDecimalText hv, Option.getD_some]

/-- **The number shown has the sign of the change**, and is 0 exactly if the change is below
    0.0055; it is never larger than the change by more than that. -/
theorem change_reads (T : SwiftText) {x : ℚ} {text : String} (htext : cutString x = some text) :
    (0 < changeShown T.toDoubleText text ↔ 11 / 2000 ≤ x) ∧
      (changeShown T.toDoubleText text < 0 ↔ x ≤ -(11 / 2000)) ∧
      |changeShown T.toDoubleText text| ≤ |x| + 11 / 2000 := by
  by_cases h : ∃ n : Int, x = n
  · obtain ⟨n, rfl⟩ := h
    rw [cutString_intCast] at htext
    have hshown : changeShown T.toDoubleText text = n := by
      obtain ⟨-, heq⟩ := Option.ite_none_right_eq_some.mp htext
      unfold changeShown
      rw [← Option.some.inj heq, ofText_value T.toDecimalText (value_intText n), Option.getD_some]
    rw [hshown]
    refine ⟨⟨fun hpos => ?_, fun hle => by linarith⟩, ⟨fun hneg => ?_, fun hle => by linarith⟩,
      by linarith⟩
    · have hone : (1 : ℚ) ≤ n := by exact_mod_cast Int.cast_pos.mp hpos
      linarith
    · have hone : (n : ℚ) ≤ -1 := by exact_mod_cast Int.le_sub_one_of_lt (Int.cast_lt_zero.mp hneg)
      linarith
  · obtain ⟨v, hshown, hpos, h0, hle⟩ := changeShown_of_fraction T h htext
    have herr := (abs_le.mp (abs_hundredths_sub_le (abs_nonneg x))).2
    rw [hundredths_pos_iff] at hpos
    rw [hshown]
    by_cases hneg : x < 0
    · rw [abs_of_neg hneg] at hpos hle herr ⊢
      rw [if_pos hneg, abs_neg, abs_of_nonneg h0]
      refine ⟨⟨fun hlt => by linarith, fun hle => by linarith⟩, ?_, by linarith⟩
      rw [neg_lt_zero, hpos]
      exact ⟨fun h => by linarith, fun h => by linarith⟩
    · have hx : 0 ≤ x := not_lt.mp hneg
      rw [abs_of_nonneg hx] at hpos hle herr ⊢
      rw [if_neg hneg, abs_of_nonneg h0]
      exact ⟨hpos, ⟨fun hlt => by linarith, fun hle => by linarith⟩, by linarith⟩

theorem viewModel_change {T : DoubleText ℚ} {model : CoinModel ℚ} {image : Image}
    {v : CoinTableViewCellViewModel ℚ Image} (h : viewModel T model image = some v) :
    ∃ text, cutString (model.price_change_24h.getD 0) = some text ∧
      v.priceChangeDay = changeShown T text := by
  simp only [viewModel, Option.bind_eq_bind, Option.bind_eq_some_iff] at h
  obtain ⟨_, -, text, htext, _, -, h⟩ := h
  cases h
  exact ⟨text, htext, rfl⟩

/-- **What the screen shows of the change of a price**: green exactly beside a positive number.
    The number has the sign of a change of 0.006 at least, is 0 for one of 0.004 at most, and is
    never larger than the change by more than 0.006. -/
theorem detail_change_shown (T : SwiftText) (E : Dates) (model : CoinModel ℚ) (image : Image)
    (v : CoinTableViewCellViewModel ℚ Image)
    (h : viewModel T.toDoubleText model image = some v) :
    let x := model.price_change_24h.getD 0
    let fields := setupFields T.toDoubleText E v
    fields.priceChangeDayPercentColor = fields.priceChangeDayColor ∧
      ∃ shown, fields.priceChangeDayLabel = T.toText shown ++ " $" ∧
        (fields.priceChangeDayColor = .systemGreen ↔ 0 < shown) ∧
        (6 / 1000 ≤ x → 0 < shown) ∧ (x ≤ -(6 / 1000) → shown < 0) ∧
        (|x| ≤ 4 / 1000 → shown = 0) ∧ |shown| ≤ |x| + 6 / 1000 := by
  obtain ⟨text, htext, hchange⟩ := viewModel_change h
  obtain ⟨hpos, hneg, hle⟩ := change_reads T htext
  rw [← hchange] at hpos hneg hle
  refine ⟨rfl, v.priceChangeDay, rfl, by simp [setupFields], fun hx => ?_, fun hx => ?_,
    fun hx => ?_, by linarith⟩
  · exact hpos.mpr (by linarith)
  · exact hneg.mpr (by linarith)
  · obtain ⟨hlow, hhigh⟩ := abs_le.mp hx
    refine le_antisymm (not_lt.mp fun h0 => ?_) (not_lt.mp fun h0 => ?_)
    · linarith [hpos.mp h0]
    · linarith [hneg.mp h0]

/-- A rise of two cents, in green. -/
theorem detail_change_shown_rise :
    ∃ v, viewModel exactSwiftText.toDoubleText
        { bitcoinWithImage "" with price_change_24h := some (2 / 100) } () = some v ∧
      (setupFields exactSwiftText.toDoubleText noDates v).priceChangeDayColor = .systemGreen := by
  have hprint : Printable { bitcoinWithImage "" with price_change_24h := some (2 / 100) } := by
    unfold Printable
    simp only [← cutString_isSome]
    decide +kernel
  obtain ⟨v, hv, -⟩ := viewModel_of_printable exactSwiftText.toDoubleText () hprint
  obtain ⟨-, shown, -, hgreen, hrise, -⟩ := detail_change_shown exactSwiftText noDates _ () v hv
  exact ⟨v, hv, hgreen.mpr (hrise (by norm_num))⟩

/-! ## 3. The axis -/

/-- How far below the middle a price is drawn. -/
theorem pointAt_y (v : ChartView) (width height : ℚ) (hrange : v.maxY - v.minY ≠ 0) (d : ℚ)
    (i : Nat) :
    (v.pointAt width height (d, i)).y =
      height / 2 + ((v.maxY + v.minY) / 2 - d) * (height / (v.maxY - v.minY)) := by
  simp only [ChartView.pointAt]
  field_simp
  ring

/-- **The chart agrees with the labels of its axis**: of a price drawn in the upper half the label
    is between those at the top and in the middle, of one drawn in the lower half between those in
    the middle and at the bottom. -/
theorem axis_measures_chart (T : DoubleText ℚ) (E : Dates)
    (coin : CoinTableViewCellViewModel ℚ Image) (width height : ℚ) (hheight : 0 < height)
    (hconst : ¬Constant (ChartView.ofCoin E coin).data) :
    let v := ChartView.ofCoin E coin
    ∃ top middle bottom ps, v.chartYAxis T = [top, middle, bottom] ∧
      v.chartView width height = some (pathThrough ps) ∧ ps.length = v.data.length ∧
      ∀ d p, (d, p) ∈ v.data.zip ps →
        (p.y ≤ height / 2 → labelSays middle ≤ labelSays (formattedWithAbbreviations T d) ∧
          labelSays (formattedWithAbbreviations T d) ≤ labelSays top) ∧
        (height / 2 ≤ p.y → labelSays bottom ≤ labelSays (formattedWithAbbreviations T d) ∧
          labelSays (formattedWithAbbreviations T d) ≤ labelSays middle) := by
  intro v
  have hv : v.OfPrices := ChartView.ofCoin_ofPrices
  have hne : v.data ≠ [] := by
    intro hnil
    refine hconst fun a ha => ?_
    rw [show (ChartView.ofCoin E coin).data = [] from hnil] at ha
    exact absurd ha List.not_mem_nil
  refine ⟨_, _, _, v.points width height, rfl, ChartView.chartView_eq hv hne hconst,
    by simp [ChartView.points], fun d p hp => ?_⟩
  obtain ⟨i, hd, rfl⟩ := ChartView.mem_zip_points hp
  have hrange : 0 < v.maxY - v.minY := by
    refine lt_of_le_of_ne ?_ (Ne.symm (mt (hv.range_eq_zero_iff hne).mp hconst))
    linarith [hv.le_maxY hd, hv.minY_le hd]
  have hstep : 0 < height / (v.maxY - v.minY) := div_pos hheight hrange
  have hmono := labelNumber_monotone T
  rw [pointAt_y v width height hrange.ne']
  refine ⟨fun hy => ⟨hmono ?_, hmono (hv.le_maxY hd)⟩, fun hy => ⟨hmono (hv.minY_le hd), hmono ?_⟩⟩
  · have hupper := nonpos_of_mul_nonpos_left (add_le_iff_nonpos_right _ |>.mp hy) hstep
    linarith
  · have hlower := nonneg_of_mul_nonneg_left (le_add_iff_nonneg_right _ |>.mp hy) hstep
    linarith

/-- Three prices, their labels and the points drawn for them. -/
theorem axis_measures_chart_three :
    ∃ top middle bottom ps,
      (ChartView.ofCoin noDates (coinWithPrices [1, 3, 2])).chartYAxis exactText =
        [top, middle, bottom] ∧
      (ChartView.ofCoin noDates (coinWithPrices [1, 3, 2])).chartView 300 200 =
        some (pathThrough ps) ∧
      ps.length = 3 ∧ ∀ d p, (d, p) ∈ [1, 3, 2].zip ps →
        (p.y ≤ 100 → labelSays middle ≤ labelSays (formattedWithAbbreviations exactText d) ∧
          labelSays (formattedWithAbbreviations exactText d) ≤ labelSays top) ∧
        (100 ≤ p.y → labelSays bottom ≤ labelSays (formattedWithAbbreviations exactText d) ∧
          labelSays (formattedWithAbbreviations exactText d) ≤ labelSays middle) := by
  obtain ⟨top, middle, bottom, ps, haxis, hpath, hlength, hlabels⟩ :=
    axis_measures_chart exactText noDates (coinWithPrices [1, 3, 2]) 300 200 (by norm_num)
      fun h => absurd (h 1 (by decide) 3 (by decide)) (by decide)
  rw [show (200 : ℚ) / 2 = 100 by norm_num] at hlabels
  exact ⟨top, middle, bottom, ps, haxis, hpath, hlength, hlabels⟩

end CryptoWallet
