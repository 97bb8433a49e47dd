/-
  File:      CryptoWallet/PieChart/PieChartViewPresenter.lean
  Subject:   The pie chart of the wallet (PieChartViewPresenter.swift).

  The chart writes the total of each row, reads it back, adds what it has read and writes the sum;
  the header of the wallet adds the totals of the rows. Doubles are exact rationals, and a runtime
  error is `none`.

  * `PieChartViewPresenter.setData`: the calls of the view for the rows.
  * `setData_eq`: a slice for each row, then the text of the sum of the slices.
  * `cutString_slices`: slices are whole hundredths, so the text of their sum loses nothing.
  * `pie_agrees_iff`: **when the chart agrees with the header**.
-/
import CryptoWallet.Wallet.Valuation
import Mathlib.Algebra.BigOperators.Ring.Finset

namespace CryptoWallet

open Decimal Rounding

variable {Image : Type}

/-! ## 1. The presenter -/

/-- A call of the view. -/
inductive PieChartViewCall where
  | addChartDataEntry (cost : ℚ) (symbol : String)
  | updateChartData (totalCost : String)
  deriving DecidableEq

structure PieChartViewPresenter (Image : Type) where
  rawData : List (WalletTableViewCellModel ℚ Image) := []
  /-- The calls of the view, oldest first. -/
  calls : List PieChartViewCall := []

namespace PieChartViewPresenter

/-- The body of the loop in the `didSet` of `rawData`. -/
def addEntry (T : DoubleText ℚ) (s : ℚ × List PieChartViewCall)
    (el : WalletTableViewCellModel ℚ Image) : Option (ℚ × List PieChartViewCall) := do
  let text ← cutString el.totalCoinPrice
  let totalCoinPrice := (T.ofText text).getD 0
  return (s.1 + totalCoinPrice, s.2 ++ [.addChartDataEntry totalCoinPrice el.symbol])

/-- An assignment to `rawData` with its `didSet`. -/
def setRawData (T : DoubleText ℚ) (p : PieChartViewPresenter Image)
    (rawData : List (WalletTableViewCellModel ℚ Image)) : Option (PieChartViewPresenter Image) := do
  let (totalCost, calls) ← rawData.foldlM (addEntry T) (0, p.calls)
  let text ← cutString totalCost
  return { rawData := rawData, calls := calls ++ [.updateChartData text] }

def setData (T : DoubleText ℚ) (p : PieChartViewPresenter Image)
    (data : List (WalletTableViewCellModel ℚ Image)) : Option (PieChartViewPresenter Image) :=
  p.setRawData T data

end PieChartViewPresenter

/-! ## 2. The slices and their sum -/

/-- The totals of the rows are not negative, and their sum is below `2 ^ 63`. -/
structure Priced (rows : List (WalletTableViewCellModel ℚ Image)) : Prop where
  nonneg : ∀ row ∈ rows, 0 ≤ row.totalCoinPrice
  bounded : (rows.map (·.totalCoinPrice)).sum < 2 ^ 63

/-- The chart agrees with the header: a slice for each row in order, within a hundredth of its
    total, and a centre text within a hundredth for each row, and one more, of the total cost. -/
def PieAgrees (T : DecimalText) (rows : List (WalletTableViewCellModel ℚ Image))
    (data : List (FirebaseModel ℚ)) : Prop :=
  ∃ p entries text centre header,
    ({} : PieChartViewPresenter Image).setData T.toDoubleText rows = some p ∧
    p.calls = entries ++ [.updateChartData text] ∧
    List.Forall₂ (fun row call => ∃ cost,
      call = PieChartViewCall.addChartDataEntry cost row.symbol ∧
        |cost - row.totalCoinPrice| ≤ 1 / 100) rows entries ∧
    T.ofText text = some centre ∧
    T.ofText (configuration T.toDoubleText rows data).totalCost = some header ∧
    |centre - header| ≤ 1 / 100 * (rows.length + 1)

/-- The totals of the rows in whole hundredths: rounded to thousandths, and those to hundredths. -/
def hundredthsSum (rows : List (WalletTableViewCellModel ℚ Image)) : Int :=
  (rows.map fun row => hundredths row.totalCoinPrice).sum

variable {T : DecimalText} {rows : List (WalletTableViewCellModel ℚ Image)}

theorem Priced.lt (h : Priced rows) {row : WalletTableViewCellModel ℚ Image} (hrow : row ∈ rows) :
    row.totalCoinPrice < 2 ^ 63 := by
  refine lt_of_le_of_lt (List.single_le_sum ?_ _ (List.mem_map_of_mem hrow)) h.bounded
  intro price hprice
  obtain ⟨row', hrow', rfl⟩ := List.mem_map.mp hprice
  exact h.nonneg row' hrow'

/-- The slice of a row. -/
def slice (T : DecimalText) (row : WalletTableViewCellModel ℚ Image) : PieChartViewCall :=
  .addChartDataEntry (T.shownPrice row.totalCoinPrice) row.symbol

/-- The loop: the slices are added, and their values summed. -/
theorem foldlM_addEntry (hfit : ∀ row ∈ rows, FitsInt row.totalCoinPrice) (total : ℚ)
    (calls : List PieChartViewCall) :
    rows.foldlM (PieChartViewPresenter.addEntry T.toDoubleText) (total, calls) =
      some (total + (rows.map fun row => T.shownPrice row.totalCoinPrice).sum,
        calls ++ rows.map (slice T)) := by
  induction rows generalizing total calls with
  | nil => simp
  | cons row rows ih =>
      obtain ⟨text, htext⟩ :=
        Option.isSome_iff_exists.mp (cutString_isSome.mpr (hfit row List.mem_cons_self))
      have hstep : PieChartViewPresenter.addEntry T.toDoubleText (total, calls) row =
          some (total + T.shownPrice row.totalCoinPrice, calls ++ [slice T row]) := by
        simp [PieChartViewPresenter.addEntry, DoubleText.shownPrice, slice, htext]
      rw [List.foldlM_cons, hstep]
      show List.foldlM _ _ rows = _
      rw [ih fun r hr => hfit r (List.mem_cons_of_mem _ hr)]
      simp [add_assoc]

/-- **What the chart shows**: a slice for each row, then the text of the sum of the slices. -/
theorem setData_eq (h : Priced rows) :
    ({} : PieChartViewPresenter Image).setData T.toDoubleText rows =
      (cutString (rows.map fun row => T.shownPrice row.totalCoinPrice).sum).map fun text =>
        ⟨rows, rows.map (slice T) ++ [.updateChartData text]⟩ := by
  have hfit : ∀ row ∈ rows, FitsInt row.totalCoinPrice := fun row hrow =>
    fitsInt_of_lt (h.nonneg row hrow) (h.lt hrow)
  unfold PieChartViewPresenter.setData PieChartViewPresenter.setRawData
  rw [foldlM_addEntry hfit]
  simp only [zero_add, List.nil_append, Option.bind_eq_bind, Option.bind_some]
  cases cutString (rows.map fun row => T.shownPrice row.totalCoinPrice).sum <;> rfl

/-- **Where no row loses zeros the slices are whole hundredths.** -/
theorem sum_shownPrice (h : Priced rows) (hkeep : ∀ row ∈ rows, ¬LosesZeros row.totalCoinPrice) :
    (rows.map fun row => T.shownPrice row.totalCoinPrice).sum = (hundredthsSum rows : ℚ) / 100 := by
  have hmap : (rows.map fun row => T.shownPrice row.totalCoinPrice) =
      rows.map fun row => (hundredths row.totalCoinPrice : ℚ) * 100⁻¹ := by
    refine List.map_congr_left fun row hrow => ?_
    rw [shownPrice_hundredths T (h.nonneg row hrow) (h.lt hrow) (hkeep row hrow), div_eq_mul_inv]
  rw [hmap, List.sum_map_mul_right, hundredthsSum, Int.cast_list_sum, List.map_map, div_eq_mul_inv]
  rfl

theorem hundredthsSum_nonneg (h : Priced rows) : 0 ≤ hundredthsSum rows := by
  refine List.sum_nonneg fun n hn => ?_
  obtain ⟨row, hrow, rfl⟩ := List.mem_map.mp hn
  exact hundredths_nonneg (h.nonneg row hrow)

/-- **Whole hundredths are written without loss.** -/
theorem cutString_slices {k : Int} (h0 : 0 ≤ k) (hfit : FitsInt ((k : ℚ) / 100)) :
    ∃ text, cutString ((k : ℚ) / 100) = some text ∧ T.ofText text = some ((k : ℚ) / 100) := by
  by_cases hint : ∃ n : Int, (k : ℚ) / 100 = n
  · obtain ⟨n, hn⟩ := hint
    rw [hn] at hfit ⊢
    exact ⟨_, by rw [cutString_intCast, if_pos (hfit n rfl)], ofText_value T (value_intText n)⟩
  · have hk : (0 : ℚ) ≤ (k : ℚ) / 100 := by positivity
    have hthousand : away ((k : ℚ) / 100 * 1000) = 10 * k := by
      rw [away_eq_iff (by positivity)]
      push_cast
      constructor <;> linarith
    have hhundred : hundredths ((k : ℚ) / 100) = k := by
      have hcast : thousandths ((k : ℚ) / 100) * 100 = (k : Int) := by
        rw [thousandths, hthousand]
        push_cast
        ring
      rw [hundredths, hcast, even_intCast]
    have hnat : ((k.toNat : Nat) : ℚ) = k := by exact_mod_cast Int.toNat_of_nonneg h0
    have hdigit : k.toNat % 1000 ≠ 0 := by
      intro hmod
      refine hint ⟨k / 100, ?_⟩
      have hdiv : k = 100 * (k / 100) := by omega
      have hdiv' : (k : ℚ) = 100 * (k / 100 : Int) := by exact_mod_cast hdiv
      linarith
    refine ⟨_, cutString_of_nonneg hk hint, ?_⟩
    rw [hhundred]
    refine ofText_value T ?_
    rw [value_rdropWhile_fixed_two_of_ne isCut_digit isCut_point hdigit, hnat]

/-! ## 3. The chart and the header -/

/-- The slices the view was given are those of the rows. -/
theorem entries_sound (h : Priced rows)
    (hentries : List.Forall₂ (fun row call => ∃ cost,
      call = PieChartViewCall.addChartDataEntry cost row.symbol ∧
        |cost - row.totalCoinPrice| ≤ 1 / 100) rows (rows.map (slice T))) :
    ∀ row ∈ rows, ¬LosesZeros row.totalCoinPrice := by
  rw [List.forall₂_map_right_iff, List.forall₂_same] at hentries
  intro row hrow hloses
  obtain ⟨cost, heq, herr⟩ := hentries row hrow
  obtain ⟨rfl, -⟩ := PieChartViewCall.addChartDataEntry.inj heq
  exact absurd herr (not_le.mpr (shownPrice_cut T (h.nonneg row hrow) hloses))

/-- A chart that agrees with the header shows rows that keep their zeros, and does not stop at the
    sum of the slices. -/
theorem sound_of_pieAgrees (h : Priced rows) {data : List (FirebaseModel ℚ)}
    (hagrees : PieAgrees T rows data) :
    (∀ row ∈ rows, ¬LosesZeros row.totalCoinPrice) ∧ FitsInt ((hundredthsSum rows : ℚ) / 100) := by
  obtain ⟨p, entries, text, centre, header, hp, hcalls, hentries, -⟩ := hagrees
  rw [setData_eq h] at hp
  obtain ⟨text', htext', rfl⟩ := Option.map_eq_some_iff.mp hp
  obtain ⟨rfl, -⟩ := List.append_inj' hcalls rfl
  have hkeep := entries_sound h hentries
  rw [sum_shownPrice h hkeep] at htext'
  exact ⟨hkeep, cutString_isSome.mp (Option.isSome_of_eq_some htext')⟩

theorem pieAgrees_of_sound (h : Priced rows) (data : List (FirebaseModel ℚ))
    (hkeep : ∀ row ∈ rows, ¬LosesZeros row.totalCoinPrice)
    (hfit : FitsInt ((hundredthsSum rows : ℚ) / 100)) : PieAgrees T rows data := by
  obtain ⟨text, htext, hread⟩ := cutString_slices (T := T) (hundredthsSum_nonneg h) hfit
  have haccurate : ∀ row ∈ rows,
      |T.shownPrice row.totalCoinPrice - row.totalCoinPrice| ≤ 1 / 100 := fun row hrow =>
    shownPrice_accurate T (h.nonneg row hrow) (h.lt hrow) (hkeep row hrow)
  unfold PieAgrees
  rw [setData_eq h, sum_shownPrice h hkeep, htext]
  refine ⟨_, rows.map (slice T), text, _, _, rfl, rfl, ?_, hread, totalCost_value T rows data, ?_⟩
  · rw [List.forall₂_map_right_iff, List.forall₂_same]
    exact fun row hrow => ⟨_, rfl, haccurate row hrow⟩
  · have herr := Keyed.abs_sum_sub_sum_le haccurate
    rw [sum_shownPrice h hkeep, List.map_const', List.sum_replicate, nsmul_eq_mul] at herr
    linarith

/-- **The chart agrees with the header** exactly if no total loses its zeros and the hundredths
    of the totals do not add up to a whole number that is too large. -/
theorem pie_agrees_iff (T : DecimalText) (rows : List (WalletTableViewCellModel ℚ Image))
    (data : List (FirebaseModel ℚ)) (h : Priced rows) :
    PieAgrees T rows data ↔
      (∀ row ∈ rows, ¬LosesZeros row.totalCoinPrice) ∧ FitsInt ((hundredthsSum rows : ℚ) / 100) :=
  ⟨sound_of_pieAgrees h, fun hsound => pieAgrees_of_sound h data hsound.1 hsound.2⟩

/-- A row at a price. -/
def rowAt (totalCoinPrice : ℚ) : WalletTableViewCellModel ℚ Unit := ⟨(), "btc", 1, totalCoinPrice⟩

/-- Two rows, at 1.25 and at 2 dollars. -/
theorem pie_agrees_two : PieAgrees exactDecimalText [rowAt (5 / 4), rowAt 2] [] := by
  have hpriced : Priced [rowAt (5 / 4), rowAt 2] := by
    constructor
    · simp only [List.forall_mem_cons, rowAt]
      norm_num
    · norm_num [rowAt]
  refine (pie_agrees_iff exactDecimalText _ [] hpriced).mpr ⟨?_, ?_⟩
  · -- both are below ten
    have hsmall : ∀ row ∈ [rowAt (5 / 4), rowAt 2], row.totalCoinPrice < 9 := by
      simp only [List.forall_mem_cons, rowAt]
      norm_num
    intro row hrow hloses
    obtain ⟨n, hn, -, hlow, -⟩ := hloses
    have hn' : (1 : ℚ) ≤ n := by exact_mod_cast hn
    linarith [hsmall row hrow]
  · have hsum : hundredthsSum [rowAt (5 / 4), rowAt 2] = 325 := by decide +kernel
    rw [hsum]
    exact fitsInt_of_lt (by norm_num) (by norm_num)

/-- **A row at 10.001 dollars is a slice of one dollar**, under a header that shows 10.001. -/
theorem pie_disagrees :
    Priced [rowAt (10001 / 1000)] ∧
      (({} : PieChartViewPresenter Unit).setData exactText [rowAt (10001 / 1000)]).map (·.calls) =
        some [.addChartDataEntry 1 "btc", .updateChartData "1"] ∧
      ¬PieAgrees exactDecimalText [rowAt (10001 / 1000)] [] := by
  have hpriced : Priced [rowAt (10001 / 1000)] := by
    constructor
    · simp only [List.forall_mem_cons, rowAt]
      norm_num
    · norm_num [rowAt]
  refine ⟨hpriced, by decide +kernel, fun hagrees => ?_⟩
  refine (sound_of_pieAgrees hpriced hagrees).1 _ List.mem_cons_self ⟨1, Nat.one_pos, ?_⟩
  norm_num [rowAt]

end CryptoWallet
