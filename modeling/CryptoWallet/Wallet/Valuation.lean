/-
  File:      CryptoWallet/Wallet/Valuation.lean
  Subject:   From the API's prices to the value of the wallet.

  The models a response carries are parsed and assigned to `viewData`; the rows and the total
  then rest on the price texts. Doubles are read as exact rationals.

  * `rows_value`: a row shows quantity times the number its price text reads back as.
  * `wallet_values_iff`: rows and total are right within a hundredth for each unit held exactly
    when no coin held is priced at a number that loses its zeros, and no price change is a whole
    number beyond 64 bits.
  * `wallet_undervalues`: a coin at 10.001 dollars counts one dollar.
-/
import Mathlib.Algebra.BigOperators.Ring.List
import CryptoWallet.Library.Keyed
import CryptoWallet.Wallet.WalletViewPresenter

namespace CryptoWallet

open Keyed

variable {Image : Type}

/-! ## 1. What the wallet should show -/

/-- The coins held that the response prices, each with its model, in the order of the response. -/
def holdings (data : List (FirebaseModel ℚ)) (models : List (CoinModel ℚ)) :
    List (FirebaseModel ℚ × CoinModel ℚ) :=
  join (·.id) (·.id) data models

/-- The price the response gives for an id. -/
def priceOf (models : List (CoinModel ℚ)) (id : String) : ℚ :=
  ((models.find? (·.id = id)).map (·.current_price)).getD 0

/-- **The wallet values the holdings rightly**: the response parses; each row is within a
    hundredth for each unit of quantity times price; so is the total passed to
    `view.configure`. -/
def ValuesHoldings (T : DecimalText) (E : Images Image) (p : WalletViewPresenter ℚ Image)
    (models : List (CoinModel ℚ)) : Prop :=
  ∃ vs, parseToViewModels E T.toDoubleText models = some vs ∧
    List.Forall₂
      (fun row (h : FirebaseModel ℚ × CoinModel ℚ) =>
        |row.totalCoinPrice - h.1.quantity * h.2.current_price| ≤ 1 / 100 * h.1.quantity)
      (p.setViewData T.toDoubleText vs).viewCellData (holdings p.data models) ∧
    ∃ call total, (p.setViewData T.toDoubleText vs).configured = p.configured ++ [call] ∧
      T.ofText call.totalCost = some total ∧
      |total - (p.data.map fun c => c.quantity * priceOf models c.id).sum| ≤
        1 / 100 * (p.data.map (·.quantity)).sum

/-- A response that prices the portfolio: distinct ids on both sides, every coin held is priced,
    quantities and prices in range, and images that load. -/
structure PricesPortfolio (E : Images Image) (p : WalletViewPresenter ℚ Image)
    (models : List (CoinModel ℚ)) : Prop where
  distinctIds : (p.data.map (·.id)).Nodup
  quantity : ∀ c ∈ p.data, 0 ≤ c.quantity
  distinctModels : (models.map (·.id)).Nodup
  price : ∀ m ∈ models, 0 ≤ m.current_price ∧ m.current_price < 2 ^ 63
  load : E.LoadsAll models
  cover : ∀ c ∈ p.data, c.id ∈ models.map (·.id)

/-- The price changes of the coin have texts. -/
def ChangesPrint (m : CoinModel ℚ) : Prop :=
  FitsInt (m.price_change_24h.getD 0) ∧ FitsInt (m.price_change_percentage_24h.getD 0)

/-! ## 2. What it shows -/

theorem shownPrice_hundredths (T : DecimalText) {x : ℚ} (h0 : 0 ≤ x) (hb : x < 2 ^ 63)
    (h : ¬ LosesZeros x) : T.shownPrice x = (hundredths x : ℚ) / 100 := by
  obtain ⟨text, htext, hv⟩ := cutString_hundredths T h0 hb h
  rw [DoubleText.shownPrice, htext]
  exact hv

theorem shownPrice_accurate (T : DecimalText) {x : ℚ} (h0 : 0 ≤ x) (hb : x < 2 ^ 63)
    (h : ¬ LosesZeros x) : |T.shownPrice x - x| ≤ 1 / 100 := by
  obtain ⟨text, htext, herr⟩ := cutString_accurate T h0 hb h
  rw [DoubleText.shownPrice, htext]
  exact herr

theorem shownPrice_cut (T : DecimalText) {x : ℚ} (h0 : 0 ≤ x) (h : LosesZeros x) :
    1 / 100 < |T.shownPrice x - x| := by
  obtain ⟨text, htext, herr⟩ := cutString_cut T h0 h
  rw [DoubleText.shownPrice, htext]
  exact herr

/-- **The rows**: one for each holding priced, at quantity times the price shown. -/
theorem rows_value (T : DecimalText) (data : List (FirebaseModel ℚ)) {models : List (CoinModel ℚ)}
    {vs : List (CoinTableViewCellViewModel ℚ Image)} (h : List.Forall₂ Shows models vs) :
    ((vs.filterMap (rowFor T.toDoubleText data)).map Prod.snd).map (·.totalCoinPrice) =
      (holdings data models).map fun h => h.1.quantity * T.shownPrice h.2.current_price := by
  rw [filterMap_rowFor, List.map_map, List.map_map]
  induction h with
  | nil => rfl
  | @cons m v models vs hshow _ ih =>
      obtain ⟨hid, htext⟩ := hshow
      cases hf : data.find? (·.id = m.id) with
      | none => rw [join_cons_none (hid.symm ▸ hf), holdings, join_cons_none hf, ih, holdings]
      | some c =>
          rw [join_cons_some (hid.symm ▸ hf), holdings, join_cons_some hf, List.map_cons,
            List.map_cons, ih, holdings, DoubleText.shownPrice, htext]
          rfl

/-- The total is the sum of the rows. -/
theorem foldl_totalCoinPrice (rows : List (WalletTableViewCellModel ℚ Image)) :
    rows.foldl (fun total row => total + row.totalCoinPrice) 0 =
      (rows.map (·.totalCoinPrice)).sum := by
  rw [List.sum_eq_foldl, List.foldl_map]

theorem totalCost_value (T : DecimalText) (rows : List (WalletTableViewCellModel ℚ Image))
    (data : List (FirebaseModel ℚ)) :
    T.ofText (configuration T.toDoubleText rows data).totalCost =
      some (rows.map (·.totalCoinPrice)).sum := by
  rw [← foldl_totalCoinPrice]
  exact T.ofText_toText _

/-! ## 3. When the values are right -/

section Values

variable {T : DecimalText} {E : Images Image} {p : WalletViewPresenter ℚ Image}
  {models : List (CoinModel ℚ)}

/-- The rows are right exactly when each holding's shown price is, times its quantity. -/
theorem rows_right_iff {vs : List (CoinTableViewCellViewModel ℚ Image)}
    (hshows : List.Forall₂ Shows models vs) :
    List.Forall₂
      (fun row (h : FirebaseModel ℚ × CoinModel ℚ) =>
        |row.totalCoinPrice - h.1.quantity * h.2.current_price| ≤ 1 / 100 * h.1.quantity)
      (p.setViewData T.toDoubleText vs).viewCellData (holdings p.data models) ↔
    ∀ h ∈ holdings p.data models,
      |h.1.quantity * T.shownPrice h.2.current_price - h.1.quantity * h.2.current_price| ≤
        1 / 100 * h.1.quantity := by
  have e : List.Forall₂
      (fun total (h : FirebaseModel ℚ × CoinModel ℚ) =>
        |total - h.1.quantity * h.2.current_price| ≤ 1 / 100 * h.1.quantity)
      ((p.setViewData T.toDoubleText vs).viewCellData.map (·.totalCoinPrice))
      (holdings p.data models) ↔ _ := List.forall₂_map_left_iff
  rw [← e, WalletViewPresenter.setViewData_viewCellData, rows_value T p.data hshows,
    List.forall₂_map_left_iff, List.forall₂_same]

/-- A sound shown price values a holding within a hundredth for each unit. -/
theorem holding_right {q price : ℚ} (hq : 0 ≤ q) (h0 : 0 ≤ price) (hb : price < 2 ^ 63)
    (h : q ≠ 0 → ¬ LosesZeros price) :
    |q * T.shownPrice price - q * price| ≤ 1 / 100 * q := by
  rcases eq_or_ne q 0 with rfl | hne
  · simp
  · have herr := shownPrice_accurate T h0 hb (h hne)
    rw [← mul_sub, abs_mul, abs_of_nonneg hq, mul_comm (1 / 100)]
    exact mul_le_mul_of_nonneg_left herr hq

theorem printable_of_changes (h : PricesPortfolio E p models)
    (hchange : ∀ m ∈ models, ChangesPrint m) : ∀ m ∈ models, Printable m := by
  intro m hm
  obtain ⟨h0, hb⟩ := h.price m hm
  exact ⟨fitsInt_of_lt h0 hb, hchange m hm⟩

/-- Right values come from price changes with texts and prices that keep their zeros. -/
theorem sound_of_valuesHoldings (h : PricesPortfolio E p models)
    (hv : ValuesHoldings T E p models) :
    (∀ m ∈ models, ChangesPrint m) ∧
      ∀ c ∈ p.data, ∀ m ∈ models, c.id = m.id → c.quantity ≠ 0 → ¬ LosesZeros m.current_price := by
  obtain ⟨vs, hvs, hrows, -⟩ := hv
  have hprint := printable_of_parseToViewModels h.load hvs
  refine ⟨fun m hm => (hprint m hm).2, ?_⟩
  intro c hc m hm hid hne hloses
  obtain ⟨vs', hvs', hshows⟩ := parseToViewModels_of_printable T.toDoubleText h.load hprint
  obtain rfl : vs' = vs := Option.some.inj (hvs'.symm.trans hvs)
  have herr := (rows_right_iff hshows).mp hrows _ (join_mem h.distinctIds hc hm hid)
  have hpos : 0 < c.quantity := lt_of_le_of_ne (h.quantity c hc) hne.symm
  have hcut := shownPrice_cut T (h.price m hm).1 hloses
  rw [← mul_sub, abs_mul, abs_of_pos hpos, mul_comm (1 / 100)] at herr
  exact absurd (le_of_mul_le_mul_left herr hpos) (not_le.mpr hcut)

/-- And these give right values: the sums over the portfolio are sums over the holdings. -/
theorem valuesHoldings_of_sound (h : PricesPortfolio E p models)
    (hchange : ∀ m ∈ models, ChangesPrint m)
    (hsound : ∀ c ∈ p.data, ∀ m ∈ models, c.id = m.id → c.quantity ≠ 0 →
      ¬ LosesZeros m.current_price) : ValuesHoldings T E p models := by
  obtain ⟨vs, hvs, hshows⟩ :=
    parseToViewModels_of_printable T.toDoubleText h.load (printable_of_changes h hchange)
  have hright : ∀ h ∈ holdings p.data models,
      |h.1.quantity * T.shownPrice h.2.current_price - h.1.quantity * h.2.current_price| ≤
        1 / 100 * h.1.quantity := by
    intro hd hm
    obtain ⟨hc, hmodel, hid⟩ := mem_join hm
    exact holding_right (h.quantity _ hc) (h.price _ hmodel).1 (h.price _ hmodel).2
      (hsound _ hc _ hmodel hid)
  refine ⟨vs, hvs, (rows_right_iff hshows).mpr hright, _, _, rfl, totalCost_value T _ _, ?_⟩
  have hperm := join_perm h.distinctIds h.distinctModels h.cover
  have hvalue : (p.data.map fun c => c.quantity * priceOf models c.id).sum =
      ((holdings p.data models).map fun h => h.1.quantity * h.2.current_price).sum := by
    rw [← (hperm.map _).sum_eq, List.map_map]
    refine congrArg List.sum (List.map_congr_left fun hd hm => ?_)
    obtain ⟨-, hmodel, hid⟩ := mem_join hm
    show hd.1.quantity * priceOf models hd.1.id = _
    rw [priceOf, hid, find?_key h.distinctModels hmodel]
    rfl
  have hbound : 1 / 100 * (p.data.map (·.quantity)).sum =
      ((holdings p.data models).map fun h => 1 / 100 * h.1.quantity).sum := by
    rw [← (hperm.map _).sum_eq, List.map_map, List.sum_map_mul_left]
    rfl
  rw [hvalue, hbound, rows_value T p.data hshows]
  exact abs_sum_sub_sum_le hright

end Values

/-- **When the wallet values the holdings rightly.** -/
theorem wallet_values_iff (T : DecimalText) (E : Images Image) (p : WalletViewPresenter ℚ Image)
    (models : List (CoinModel ℚ)) (h : PricesPortfolio E p models) :
    ValuesHoldings T E p models ↔
      (∀ m ∈ models, ChangesPrint m) ∧
      ∀ c ∈ p.data, ∀ m ∈ models, c.id = m.id → c.quantity ≠ 0 → ¬ LosesZeros m.current_price :=
  ⟨sound_of_valuesHoldings h, fun hs => valuesHoldings_of_sound h hs.1 hs.2⟩

/-! ## 4. Prices near a multiple of ten -/

/-- A coin of the API with the given id and price. -/
def pricedAt (id : String) (current_price : ℚ) : CoinModel ℚ :=
  ⟨id, "", "", "https://assets.coingecko.com/coin.png", current_price, none, none, none, none, 0, 0,
    none, none⟩

/-- Every image loads. -/
def allLoad : Images Unit := ⟨fun _ => true, fun _ _ => some [], fun _ => some (), ()⟩

theorem changesPrint_pricedAt (id : String) (x : ℚ) : ChangesPrint (pricedAt id x) := by
  have h : FitsInt 0 := by
    intro n hn
    have h0 : n = 0 := by exact_mod_cast hn.symm
    omega
  exact ⟨h, h⟩

/-- A price away from every multiple of ten keeps its zeros. -/
theorem not_losesZeros {x : ℚ} (n : Nat) (hlow : 10 * n + 1 ≤ x) (hhigh : x ≤ 10 * n + 9) :
    ¬ LosesZeros x := by
  rintro ⟨k, -, -, h1, h2⟩
  have e1 : ((10 * k : Nat) : ℚ) < (10 * n + 10 : Nat) := by
    push_cast
    linarith
  have e2 : ((10 * n : Nat) : ℚ) < (10 * k : Nat) := by
    push_cast
    linarith
  have e1' : 10 * k < 10 * n + 10 := by exact_mod_cast e1
  have e2' : 10 * n < 10 * k := by exact_mod_cast e2
  omega

/-- One bitcoin and two ether are held. -/
def bitcoinAndEther : WalletViewPresenter ℚ Unit :=
  { data := [⟨"bitcoin", 1, 1⟩, ⟨"ethereum", 2, 1⟩] }

/-- The prices of the two, ether first. -/
def etherAndBitcoin : List (CoinModel ℚ) :=
  [pricedAt "ethereum" (12617 / 4), pricedAt "bitcoin" (94903 / 2)]

theorem pricesPortfolio_two : PricesPortfolio allLoad bitcoinAndEther etherAndBitcoin where
  distinctIds := by decide
  quantity c hc := by
    obtain rfl | rfl := List.mem_pair.mp hc <;> norm_num
  distinctModels := by decide
  price m hm := by
    obtain rfl | rfl := List.mem_pair.mp hm <;> norm_num [pricedAt]
  load _ _ := ⟨rfl, [], rfl, rfl⟩
  cover c hc := by
    obtain rfl | rfl := List.mem_pair.mp hc <;> decide

/-- Bitcoin at 47451.5 dollars and ether at 3154.25 are valued rightly, priced in another order
    than they are held. -/
theorem wallet_values_bitcoin :
    ValuesHoldings exactDecimalText allLoad bitcoinAndEther etherAndBitcoin := by
  refine (wallet_values_iff exactDecimalText allLoad bitcoinAndEther _ pricesPortfolio_two).mpr
    ⟨fun m hm => ?_, ?_⟩
  · obtain rfl | rfl := List.mem_pair.mp hm
    · exact changesPrint_pricedAt _ _
    · exact changesPrint_pricedAt _ _
  · rintro c - m hm - -
    obtain rfl | rfl := List.mem_pair.mp hm
    · exact not_losesZeros 315 (by norm_num [pricedAt]) (by norm_num [pricedAt])
    · exact not_losesZeros 4745 (by norm_num [pricedAt]) (by norm_num [pricedAt])

/-- One bitcoin is held. -/
def oneBitcoin : WalletViewPresenter ℚ Unit := { data := [⟨"bitcoin", 1, 1⟩] }

theorem pricesPortfolio_bitcoin {x : ℚ} (h0 : 0 ≤ x) (hb : x < 2 ^ 63) :
    PricesPortfolio allLoad oneBitcoin [pricedAt "bitcoin" x] where
  distinctIds := List.nodup_singleton _
  quantity c hc := by
    rw [List.mem_singleton.mp hc]
    exact zero_le_one
  distinctModels := List.nodup_singleton _
  price m hm := by
    rw [List.mem_singleton.mp hm]
    exact ⟨h0, hb⟩
  load _ _ := ⟨rfl, [], rfl, rfl⟩
  cover c hc := by
    rw [List.mem_singleton.mp hc]
    exact List.mem_singleton_self _

/-- **A coin at 10.001 dollars counts one dollar**: the wallet's value is wrong. -/
theorem wallet_undervalues :
    PricesPortfolio allLoad oneBitcoin [pricedAt "bitcoin" (10001 / 1000)] ∧
      ¬ ValuesHoldings exactDecimalText allLoad oneBitcoin [pricedAt "bitcoin" (10001 / 1000)] := by
  have hp := pricesPortfolio_bitcoin (x := 10001 / 1000) (by norm_num) (by norm_num)
  refine ⟨hp, fun hv => ?_⟩
  refine (sound_of_valuesHoldings hp hv).2 _ (List.mem_singleton_self _) _
    (List.mem_singleton_self _) rfl one_ne_zero ⟨1, ?_, ?_, ?_, ?_⟩
  · exact Nat.one_pos
  · norm_num [pricedAt]
  · norm_num [pricedAt]
  · norm_num [pricedAt]

end CryptoWallet
