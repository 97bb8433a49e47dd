/-
  File:      CryptoWallet/Wallet/Rows.lean
  Subject:   What an assignment to `viewData` makes of the wallet, as a relation between lists.

  Doubles are read as exact rationals.

  * `RowShows`: the row of a view model, from the one holding of its id.
  * `setViewData_rows`: the rows are the view models that have a holding, in their order.
  * `setViewData_perm`: the order of the holdings changes nothing, neither in the rows nor in what
    the view is told.
  * `wallet_rows_join`: both together, and the total when each id held is listed once.
-/
import CryptoWallet.Wallet.Valuation

namespace CryptoWallet

open Keyed

variable {Image : Type}

/-- **The row a view model should have**: its image and symbol, with the quantity and the value of
    the holding of its id. -/
def RowShows (T : DoubleText ℚ) (data : List (FirebaseModel ℚ))
    (row : WalletTableViewCellModel ℚ Image) (model : CoinTableViewCellViewModel ℚ Image) : Prop :=
  ∃ c ∈ data, c.id = model.id ∧ row.image = model.image ∧ row.symbol = model.symbol ∧
    row.quantity = c.quantity ∧
    row.totalCoinPrice = c.quantity * (T.ofText model.currentPrice).getD 0

/-- The price the view models quote for an id; 0 where its text does not parse. -/
def quotedPrice (T : DoubleText ℚ) (models : List (CoinTableViewCellViewModel ℚ Image))
    (id : String) : ℚ :=
  ((models.find? (·.id = id)).bind fun model => T.ofText model.currentPrice).getD 0

/-- The rows, one after another. -/
theorem setViewData_rows (T : DoubleText ℚ) (p : WalletViewPresenter ℚ Image)
    (models : List (CoinTableViewCellViewModel ℚ Image)) :
    List.Forall₂ (RowShows T p.data) (p.setViewData T models).viewCellData
      (models.filter (·.id ∈ p.data.map (·.id))) := by
  rw [WalletViewPresenter.setViewData_viewCellData, filterMap_rowFor, List.map_map,
    List.forall₂_map_left_iff]
  refine (forall₂_join models).imp ?_
  rintro ⟨c, model⟩ model' ⟨rfl, hc, hid⟩
  exact ⟨c, hc, hid, rfl, rfl, rfl, rfl⟩

/-- The cost of buying is a sum over the holdings. -/
theorem foldl_costOfBuying (data : List (FirebaseModel ℚ)) :
    data.foldl (fun total el => total + el.quantity * el.priceOfBuying) 0 =
      (data.map fun c => c.quantity * c.priceOfBuying).sum := by
  rw [List.sum_eq_foldl, List.foldl_map]

theorem configuration_perm (T : DoubleText ℚ) (rows : List (WalletTableViewCellModel ℚ Image))
    {data data' : List (FirebaseModel ℚ)} (h : data'.Perm data) :
    configuration T rows data' = configuration T rows data := by
  simp only [configuration, foldl_costOfBuying, (h.map _).sum_eq]

/-- **The order of the holdings changes nothing.** -/
theorem setViewData_perm (T : DoubleText ℚ) (p : WalletViewPresenter ℚ Image)
    (models : List (CoinTableViewCellViewModel ℚ Image)) {data : List (FirebaseModel ℚ)}
    (hnd : (p.data.map (·.id)).Nodup) (h : data.Perm p.data) :
    (WalletViewPresenter.setViewData T { p with data := data } models).viewCellData =
        (p.setViewData T models).viewCellData ∧
      (WalletViewPresenter.setViewData T { p with data := data } models).configured =
        (p.setViewData T models).configured := by
  have hrows : models.filterMap (rowFor T data) = models.filterMap (rowFor T p.data) := by
    rw [filterMap_rowFor, filterMap_rowFor, join_perm_left hnd h]
  refine ⟨congrArg (List.map Prod.snd) hrows, ?_⟩
  show p.configured ++ [configuration T ((models.filterMap (rowFor T data)).map Prod.snd) data] =
    p.configured ++ [configuration T ((models.filterMap (rowFor T p.data)).map Prod.snd) p.data]
  rw [hrows, configuration_perm T _ h]

/-- The total is a sum over the join. -/
theorem totalCost_join (T : DoubleText ℚ) (data : List (FirebaseModel ℚ))
    (models : List (CoinTableViewCellViewModel ℚ Image)) :
    ((models.filterMap (rowFor T data)).map Prod.snd).foldl
        (fun total row => total + row.totalCoinPrice) 0 =
      ((join (·.id) (·.id) data models).map fun h =>
        h.1.quantity * (T.ofText h.2.currentPrice).getD 0).sum := by
  rw [foldl_totalCoinPrice, filterMap_rowFor, List.map_map, List.map_map]
  rfl

/-- **The total, when each id held is listed once.** -/
theorem totalCost_once (T : DoubleText ℚ) {data : List (FirebaseModel ℚ)}
    {models : List (CoinTableViewCellViewModel ℚ Image)} (hnd : (data.map (·.id)).Nodup)
    (honce : ∀ c ∈ data, (models.map (·.id)).count c.id = 1) :
    ((join (·.id) (·.id) data models).map fun h =>
        h.1.quantity * (T.ofText h.2.currentPrice).getD 0).sum =
      (data.map fun c => c.quantity * quotedPrice T models c.id).sum := by
  rw [← ((join_perm_of_count hnd honce).map _).sum_eq, List.map_map]
  refine congrArg List.sum (List.map_congr_left fun h hm => ?_)
  obtain ⟨hc, hmodel, hid⟩ := mem_join hm
  show _ = h.1.quantity * quotedPrice T models h.1.id
  rw [quotedPrice, hid, find?_key_of_count (hid ▸ honce _ hc) hmodel]
  rfl

/-- **The rows of the wallet are the join of prices and holdings**: the view models that have a
    holding, in their order; the order of the holdings does not matter; and when each id held is
    listed once the total is the value of the holdings. -/
theorem wallet_rows_join (T : DoubleText ℚ) (p : WalletViewPresenter ℚ Image)
    (models : List (CoinTableViewCellViewModel ℚ Image)) (hnd : (p.data.map (·.id)).Nodup) :
    List.Forall₂ (RowShows T p.data) (p.setViewData T models).viewCellData
      (models.filter (·.id ∈ p.data.map (·.id))) ∧
    (∀ data, data.Perm p.data →
      (WalletViewPresenter.setViewData T { p with data := data } models).viewCellData =
          (p.setViewData T models).viewCellData ∧
        (WalletViewPresenter.setViewData T { p with data := data } models).configured =
          (p.setViewData T models).configured) ∧
    ((∀ c ∈ p.data, (models.map (·.id)).count c.id = 1) →
      ∃ call, (p.setViewData T models).configured = p.configured ++ [call] ∧
        call.totalCost =
          T.toText (p.data.map fun c => c.quantity * quotedPrice T models c.id).sum) := by
  refine ⟨setViewData_rows T p models, fun data h => setViewData_perm T p models hnd h,
    fun honce => ⟨_, rfl, ?_⟩⟩
  show T.toText _ = _
  rw [totalCost_join, totalCost_once T hnd honce]

/-- The view model of a coin quoted at `price`. -/
def quotedAt (id price : String) : CoinTableViewCellViewModel ℚ Unit :=
  ⟨id, id, id, price, (), 0, 0, 0, 0, none, none, 0, 0⟩

/-- Two units of bitcoin, one of ethereum. -/
def twoHoldings : WalletViewPresenter ℚ Unit :=
  { data := [⟨"bitcoin", 2, 30⟩, ⟨"ethereum", 1, 10⟩] }

theorem wallet_rows_join_twoHoldings :
    ∃ call, (twoHoldings.setViewData exactText
        [quotedAt "ethereum" "20", quotedAt "tether" "1", quotedAt "bitcoin" "40"]).configured =
          [call] ∧ call.totalCost = "100.0" := by
  have hnd : (twoHoldings.data.map (·.id)).Nodup := by decide
  have honce : ∀ c ∈ twoHoldings.data,
      ([quotedAt "ethereum" "20", quotedAt "tether" "1", quotedAt "bitcoin" "40"].map
        (·.id)).count c.id = 1 := by decide
  obtain ⟨call, hcall, htotal⟩ := (wallet_rows_join exactText twoHoldings _ hnd).2.2 honce
  exact ⟨call, hcall, htotal.trans (by decide +kernel)⟩

end CryptoWallet
