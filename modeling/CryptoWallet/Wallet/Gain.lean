/-
  File:      CryptoWallet/Wallet/Gain.lean
  Subject:   The gain or loss on the wallet screen (WalletViewPresenter.swift,
             WalletViewController.swift).

  The presenter sums the current value over the rows and the cost of buying over `data`; the view
  writes the difference and its colour. Doubles are read as exact rationals.

  * `configure_reads`: the labels read as value of the rows less cost of `data`, whatever the lists.
  * `gain_shown_iff`: they read as the gain of the coins shown exactly when these cost as much as
    all of `data`: with no id listed twice, when the holdings not listed cost nothing.
  * `gain_compares_other_coins`: a response without one of the coins shows a loss where there is a
    gain.
-/
import CryptoWallet.Wallet.Rows
import CryptoWallet.Swift.Text

namespace CryptoWallet

open Keyed

variable {Image : Type}

/-! ## 1. The labels -/

inductive LabelColor where
  | systemGreen
  | systemRed
  deriving DecidableEq, Repr

/-- What `configure` sets on the labels of the wallet screen. -/
structure WalletLabels where
  totalCostText : String
  priceChangeText : String
  priceChangeColor : LabelColor
  deriving DecidableEq, Repr

/-- `WalletViewController.configure(totalCost:priceChange:labelColor:)` -/
def WalletLabels.configure (call : Configuration) : WalletLabels :=
  if call.labelColor = .green then
    { totalCostText := call.totalCost ++ " $"
      priceChangeColor := .systemGreen
      priceChangeText := call.priceChange ++ " $" }
  else
    { totalCostText := call.totalCost ++ " $"
      priceChangeColor := .systemRed
      priceChangeText :=
        if call.priceChange = "0.0" then call.priceChange ++ " $"
        else "-" ++ call.priceChange ++ " $" }

/-- **The labels read as the signed amount `gain`**: green with the amount when it is positive;
    otherwise red, with a minus unless it is zero. -/
def ReadsAs (T : DoubleText ℚ) (labels : WalletLabels) (gain : ℚ) : Prop :=
  labels.priceChangeColor = (if 0 < gain then .systemGreen else .systemRed) ∧
    labels.priceChangeText =
      if 0 ≤ gain then T.toText gain ++ " $" else "-" ++ T.toText (-gain) ++ " $"

theorem toText_injective (T : DoubleText ℚ) {x y : ℚ} (h : T.toText x = T.toText y) : x = y := by
  have hx := T.ofText_toText x
  rwa [h, T.ofText_toText, Option.some.injEq, eq_comm] at hx

/-- A minus before a text is not zero's text. -/
theorem minus_ne_zero (T : SwiftText) (s : String) : T.toText 0 ++ " $" ≠ "-" ++ s ++ " $" := by
  intro h
  rw [T.toText_zero, String.append_left_inj] at h
  have hlist := congrArg String.toList h
  rw [String.toList_append] at hlist
  exact absurd (List.cons.inj hlist).1 (by decide)

/-- **The labels read as one amount only.** -/
theorem readsAs_unique (T : SwiftText) {labels : WalletLabels} {x y : ℚ}
    (hx : ReadsAs T.toDoubleText labels x) (hy : ReadsAs T.toDoubleText labels y) : x = y := by
  obtain ⟨hxc, hxt⟩ := hx
  obtain ⟨hyc, hyt⟩ := hy
  rw [hxc] at hyc
  rw [hxt] at hyt
  rcases lt_trichotomy x 0 with hx | rfl | hx <;> rcases lt_trichotomy y 0 with hy | rfl | hy
  · rw [if_neg (not_le.mpr hx), if_neg (not_le.mpr hy), String.append_left_inj,
      String.append_right_inj] at hyt
    exact neg_injective (toText_injective _ hyt)
  · rw [if_neg (not_le.mpr hx), if_pos le_rfl] at hyt
    exact absurd hyt.symm (minus_ne_zero T _)
  · rw [if_neg (not_lt.mpr hx.le), if_pos hy] at hyc
    cases hyc
  · rw [if_pos le_rfl, if_neg (not_le.mpr hy)] at hyt
    exact absurd hyt (minus_ne_zero T _)
  · rfl
  · rw [if_neg (lt_irrefl 0), if_pos hy] at hyc
    cases hyc
  · rw [if_pos hx, if_neg (not_lt.mpr hy.le)] at hyc
    cases hyc
  · rw [if_pos hx, if_neg (lt_irrefl 0)] at hyc
    cases hyc
  · rw [if_pos hx.le, if_pos hy.le, String.append_left_inj] at hyt
    exact toText_injective _ hyt

/-- **What the code shows**: the value of the rows less the cost of all of `data`. -/
theorem configure_reads (T : SwiftText) (rows : List (WalletTableViewCellModel ℚ Image))
    (data : List (FirebaseModel ℚ)) :
    ReadsAs T.toDoubleText (.configure (configuration T.toDoubleText rows data))
      ((rows.map (·.totalCoinPrice)).sum -
        (data.map fun c => c.quantity * c.priceOfBuying).sum) := by
  have hcall : configuration T.toDoubleText rows data =
      ⟨T.toText (rows.map (·.totalCoinPrice)).sum,
        T.toText |(rows.map (·.totalCoinPrice)).sum -
          (data.map fun c => c.quantity * c.priceOfBuying).sum|,
        if (data.map fun c => c.quantity * c.priceOfBuying).sum <
          (rows.map (·.totalCoinPrice)).sum then .green else .red⟩ := by
    unfold configuration
    rw [foldl_totalCoinPrice, foldl_costOfBuying]
    by_cases h : (data.map fun c => c.quantity * c.priceOfBuying).sum <
        (rows.map (·.totalCoinPrice)).sum
    · simp only [SwiftDouble.abs, SwiftDouble.lt, h, decide_true, if_true]
    · simp only [SwiftDouble.abs, SwiftDouble.lt, h, decide_false, if_false, Bool.false_eq_true]
  rw [hcall]
  generalize (rows.map (·.totalCoinPrice)).sum = value
  generalize (data.map fun c => c.quantity * c.priceOfBuying).sum = cost
  rcases lt_trichotomy cost value with h | rfl | h
  · have hpos : 0 < value - cost := sub_pos.mpr h
    simp only [WalletLabels.configure, ReadsAs, h, if_true, hpos, hpos.le, abs_of_pos hpos,
      and_self]
  · simp only [WalletLabels.configure, ReadsAs, lt_irrefl, if_false, sub_self, abs_zero, le_refl,
      if_true, T.toText_zero, reduceCtorEq, and_self]
  · have hneg : value - cost < 0 := sub_neg.mpr h
    have htext : T.toText (-(value - cost)) ≠ "0.0" := by
      rw [← T.toText_zero]
      intro e
      linarith [toText_injective _ e]
    simp only [WalletLabels.configure, ReadsAs, not_lt.mpr h.le, if_false, not_lt.mpr hneg.le,
      not_le.mpr hneg, abs_of_neg hneg, htext, reduceCtorEq, and_self]

/-! ## 2. The coins shown -/

/-- What the coins shown as rows are worth, and what they cost. -/
def shownValue (T : DoubleText ℚ) (data : List (FirebaseModel ℚ))
    (models : List (CoinTableViewCellViewModel ℚ Image)) : ℚ :=
  ((join (·.id) (·.id) data models).map fun h =>
    h.1.quantity * (T.ofText h.2.currentPrice).getD 0).sum

def shownCost (data : List (FirebaseModel ℚ))
    (models : List (CoinTableViewCellViewModel ℚ Image)) : ℚ :=
  ((join (·.id) (·.id) data models).map fun h => h.1.quantity * h.1.priceOfBuying).sum

/-- **The screen shows the gain of the coins shown**: after `viewData = models` the labels read as
    their value less their cost. -/
def GainShown (T : DoubleText ℚ) (p : WalletViewPresenter ℚ Image)
    (models : List (CoinTableViewCellViewModel ℚ Image)) : Prop :=
  ∃ call, (p.setViewData T models).configured = p.configured ++ [call] ∧
    ReadsAs T (.configure call) (shownValue T p.data models - shownCost p.data models)

theorem gainShown_iff_cost (T : SwiftText) (p : WalletViewPresenter ℚ Image)
    (models : List (CoinTableViewCellViewModel ℚ Image)) :
    GainShown T.toDoubleText p models ↔
      shownCost p.data models = (p.data.map fun c => c.quantity * c.priceOfBuying).sum := by
  have hreads := configure_reads T
    ((models.filterMap (rowFor T.toDoubleText p.data)).map Prod.snd) p.data
  rw [← foldl_totalCoinPrice, totalCost_join] at hreads
  constructor
  · intro ⟨call, hcall, hgain⟩
    obtain rfl := List.cons.inj (List.append_cancel_left hcall) |>.1
    have e := readsAs_unique T hreads hgain
    rw [shownValue] at e
    linarith
  · intro hcost
    refine ⟨_, rfl, ?_⟩
    rw [hcost]
    exact hreads

/-- The coins shown cost what each costs, as often as its id is listed. -/
theorem shownCost_eq {data : List (FirebaseModel ℚ)} (hnd : (data.map (·.id)).Nodup)
    (models : List (CoinTableViewCellViewModel ℚ Image)) :
    shownCost data models =
      (data.map fun c =>
        ((models.map (·.id)).count c.id : ℚ) * (c.quantity * c.priceOfBuying)).sum :=
  sum_join hnd (fun c => c.quantity * c.priceOfBuying) models

/-- With no id listed twice, the coins shown cost as much as all of `data` when the others cost
    nothing. -/
theorem shownCost_iff_unlisted {data : List (FirebaseModel ℚ)}
    {models : List (CoinTableViewCellViewModel ℚ Image)} (hnd : (data.map (·.id)).Nodup)
    (hmodels : (models.map (·.id)).Nodup) :
    shownCost data models = (data.map fun c => c.quantity * c.priceOfBuying).sum ↔
      ((data.filter (·.id ∉ models.map (·.id))).map fun c =>
        c.quantity * c.priceOfBuying).sum = 0 := by
  have hsplit : (data.map fun c => c.quantity * c.priceOfBuying).sum =
      shownCost data models + ((data.filter (·.id ∉ models.map (·.id))).map fun c =>
        c.quantity * c.priceOfBuying).sum := by
    rw [shownCost_eq hnd]
    clear hnd
    induction data with
    | nil => simp
    | cons c data ih =>
        rw [List.map_cons, List.sum_cons, ih, List.map_cons, List.sum_cons]
        by_cases hc : c.id ∈ models.map (·.id)
        · rw [List.count_eq_one_of_mem hmodels hc, List.filter_cons_of_neg (by simpa using hc)]
          push_cast
          ring
        · rw [List.count_eq_zero_of_not_mem hc, List.filter_cons_of_pos (by simpa using hc),
            List.map_cons, List.sum_cons]
          push_cast
          ring
  rw [hsplit]
  constructor
  · intro h
    linarith
  · intro h
    linarith

/-- **When the gain shown is the gain of the coins shown**: when these, each as often as it is
    listed, cost as much as all of `data`; with no id listed twice, when the holdings that are not
    listed cost nothing. -/
theorem gain_shown_iff (T : SwiftText) (p : WalletViewPresenter ℚ Image)
    (models : List (CoinTableViewCellViewModel ℚ Image)) (hnd : (p.data.map (·.id)).Nodup) :
    (GainShown T.toDoubleText p models ↔
      (p.data.map fun c =>
          ((models.map (·.id)).count c.id : ℚ) * (c.quantity * c.priceOfBuying)).sum =
        (p.data.map fun c => c.quantity * c.priceOfBuying).sum) ∧
    ((models.map (·.id)).Nodup → (GainShown T.toDoubleText p models ↔
      ((p.data.filter (·.id ∉ models.map (·.id))).map fun c =>
        c.quantity * c.priceOfBuying).sum = 0)) := by
  refine ⟨?_, fun hmodels => ?_⟩
  · rw [gainShown_iff_cost, shownCost_eq hnd]
  · rw [gainShown_iff_cost, shownCost_iff_unlisted hnd hmodels]

/-- Both coins listed: two bitcoin bought at 30 and one ethereum at 10, now at 40 and 20. -/
theorem gain_shown_twoHoldings :
    GainShown exactSwiftText.toDoubleText twoHoldings
      [quotedAt "ethereum" "20", quotedAt "bitcoin" "40"] := by
  refine ((gain_shown_iff exactSwiftText twoHoldings _ (by decide)).2 (by decide)).mpr ?_
  decide

/-- **Without bitcoin in the response** the one coin shown has gained 10, and the screen shows a
    loss of 50. -/
theorem gain_compares_other_coins :
    (twoHoldings.data.map (·.id)).Nodup ∧
    (twoHoldings.setViewData exactSwiftText.toDoubleText [quotedAt "ethereum" "20"]).configured.map
      WalletLabels.configure = [⟨"20.0 $", "-50.0 $", .systemRed⟩] ∧
    shownValue exactSwiftText.toDoubleText twoHoldings.data [quotedAt "ethereum" "20"] -
      shownCost twoHoldings.data [quotedAt "ethereum" "20"] = 10 ∧
    ¬ GainShown exactSwiftText.toDoubleText twoHoldings [quotedAt "ethereum" "20"] := by
  refine ⟨by decide, by decide +kernel, by decide +kernel, fun h => ?_⟩
  rw [gainShown_iff_cost] at h
  exact absurd h (by decide +kernel)

end CryptoWallet
