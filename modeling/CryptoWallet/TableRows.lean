/-
  File:      CryptoWallet/TableRows.lean
  Subject:   The tables of the coin list and of the wallet, and the rows they ask for
             (CoinsListViewController.swift, WalletViewController.swift).

  Both views answer a change of their array by `reloadData` in `DispatchQueue.main.async`, so the
  array changes first. Between the two the table asks for rows of the array that was there at
  the last reload. A row is asked for by `cellForRowAt` and, in the coin list, by
  `didSelectRowAt`; both index the array as it is by then.

  * `act_covers_iff`, `prices_cover_iff`: which changes leave enough rows for the table.
  * `rows_exist_iff`: every row the tables may ask for exists, in every state of a run, exactly
    when its changes all do.
  * `row_of_old_list`: a refresh, and a price response without a coin, and a row that is gone.
-/
import CryptoWallet.CoinList.PageRequests
import CryptoWallet.Library.Tables
import CryptoWallet.Wallet.Rows

namespace CryptoWallet

open Runs Calls Tables

/-! ## 1. The coin list -/

section CoinList

variable {α : Type}

/-- `viewData[indexPath.row]`, of `cellForRowAt` and `didSelectRow`; `none` where it is out of
    bounds. -/
def CoinsListViewPresenter.rowAt (p : CoinsListViewPresenter α) (row : Nat) : Option α :=
  p.viewData[row]?

/-- `numberOfRowsInSection` -/
def CoinsList.numberOfRows (w : CoinsList α) : Nat := w.presenter.viewData.length

/-- The reloads `viewData` has asked for. -/
def CoinsList.reloads (w : CoinsList α) : Nat :=
  w.presenter.viewCalls.count .tableViewReloadData

/-- The coin list and its table. -/
abbrev ListTableStep :
    Table (CoinsList α) → Tables.Label (CoinsListEvent α) → Table (CoinsList α) → Prop :=
  TableStep CoinsListStep CoinsList.numberOfRows CoinsList.reloads

/-- A step after which every row the table of the coin list may ask for exists. -/
abbrev ListCoveredStep :
    Table (CoinsList α) → Tables.Label (CoinsListEvent α) → Table (CoinsList α) → Prop :=
  CoveredStep CoinsListStep CoinsList.numberOfRows CoinsList.reloads

/-- **The changes of the coin list that leave the rows its table holds**, by what is there before
    them. -/
def ListCovers (t : Table (CoinsList α)) : CoinsListEvent α → Prop
  | .action .setDefaults => t.held = 0
  | .action (.willDisplay _) => True
  | .action (.refreshData searchingText) =>
      t.state.presenter.isSearching = false ∨ searchingText.isSome → t.held = 0
  | .action (.didSelectRowInPickerView row searchingText) =>
      (t.state.presenter.isSearching = true ∧ searchingText.isSome) ∨
        (t.state.presenter.isSearching = false ∧
          sortOfRow row ≠ t.state.presenter.chosenTypeOfSort) → t.held = 0
  | .action .searchBarShouldBeginEditing => True
  | .action (.searchBarButtonClicked (.search text)) => text.isSome → t.held = 0
  | .action (.searchBarButtonClicked .cancel) =>
      (t.state.presenter.tempViewData ≠ [] → t.held ≤ t.state.presenter.tempViewData.length) ∧
        (t.state.presenter.isSearching = false →
          (∃ s ∈ t.state.presenter.tempChosenTypeOfSort,
            s ≠ t.state.presenter.chosenTypeOfSort) → t.held = 0)
  | .success n models =>
      ∀ text s, t.state.presenter.requests[n]? = some (.searchingRequest text s) →
        t.held ≤ models.length
  | .failure _ => True

/-- Rows of a list that is emptied or not. -/
theorem covers_if {c : Prop} [Decidable c] {held : Nat} {l : List α} (h : held ≤ l.length) :
    held ≤ (if c then [] else l).length ↔ (c → held = 0) := by
  split
  · rename_i hc
    simp [hc]
  · rename_i hc
    exact iff_of_true h fun hc' => absurd hc' hc

/-- **Which actions leave enough rows.** -/
theorem act_covers_iff {t : Table (CoinsList α)} (hpage : 0 < t.state.presenter.numberOfPage)
    (hc : t.held ≤ t.state.presenter.viewData.length) (a : Action) :
    ListCovers t (.action a) ↔ t.held ≤ (t.state.presenter.act a).viewData.length := by
  cases a with
  | setDefaults =>
      show t.held = 0 ↔ t.held ≤ ((t.state.presenter.setChosenTypeOfSort .marketCap).setNumberOfPage
        1).viewData.length
      rw [CoinsListViewPresenter.setNumberOfPage_viewData, if_pos rfl]
      exact Nat.le_zero.symm
  | willDisplay row =>
      rcases CoinsListViewPresenter.willDisplay_cases hpage row with
        ⟨calls, e⟩ | ⟨-, -, -, calls, e⟩
      · exact iff_of_true trivial (by rw [CoinsListViewPresenter.act, e]; exact hc)
      · exact iff_of_true trivial (by rw [CoinsListViewPresenter.act, e]; exact hc)
  | refreshData text =>
      show (_ → t.held = 0) ↔ t.held ≤ (t.state.presenter.refreshData text).viewData.length
      rw [CoinsListViewPresenter.refreshData]
      cases h : t.state.presenter.isSearching with
      | true =>
          rw [if_pos rfl, CoinsListViewPresenter.updateSearch_viewData, covers_if hc, h]
          simp
      | false =>
          rw [if_neg Bool.false_ne_true, CoinsListViewPresenter.setNumberOfPage_viewData,
            if_pos rfl]
          simp
  | didSelectRowInPickerView row text =>
      show (_ → t.held = 0) ↔ t.held ≤ ((t.state.presenter.setChosenTypeOfSort
        (sortOfRow row)).updateSearchDataforCurrentSort text).viewData.length
      rw [CoinsListViewPresenter.updateSearch_viewData,
        CoinsListViewPresenter.setChosenTypeOfSort_isSearching,
        CoinsListViewPresenter.setChosenTypeOfSort_viewData]
      cases h : t.state.presenter.isSearching with
      | true =>
          rw [if_neg (c := true = false ∧ _) (by simp), covers_if hc]
          simp
      | false =>
          rw [if_neg (c := false = true ∧ _) (by simp), covers_if hc]
          simp
  | searchBarShouldBeginEditing => exact iff_of_true trivial hc
  | searchBarButtonClicked type =>
      cases type with
      | search text =>
          cases text with
          | none => exact iff_of_true (fun h => absurd h (by simp)) hc
          | some text =>
              show (_ → t.held = 0) ↔ t.held ≤ (t.state.presenter.startSearch text).viewData.length
              rw [CoinsListViewPresenter.startSearch_eq]
              simp
      | cancel =>
          show _ ↔ t.held ≤ (t.state.presenter.searchBarButtonClicked .cancel).viewData.length
          have hlist : t.held ≤ (if t.state.presenter.tempViewData.isEmpty then
              t.state.presenter.viewData else t.state.presenter.tempViewData).length ↔
              (t.state.presenter.tempViewData ≠ [] →
                t.held ≤ t.state.presenter.tempViewData.length) := by
            cases t.state.presenter.tempViewData with
            | nil => exact iff_of_true hc fun h => absurd rfl h
            | cons x xs => exact ⟨fun h _ => h, fun h => h (List.cons_ne_nil x xs)⟩
          rw [CoinsListViewPresenter.cancel_viewData]
          by_cases hreset : t.state.presenter.isSearching = false ∧
              ∃ s ∈ t.state.presenter.tempChosenTypeOfSort, s ≠ t.state.presenter.chosenTypeOfSort
          · -- a reset list has no row, whatever was saved
            rw [if_pos hreset, List.length_nil, Nat.le_zero]
            exact ⟨fun h => h.2 hreset.1 hreset.2,
              fun h => ⟨fun _ => h ▸ Nat.zero_le _, fun _ _ => h⟩⟩
          · rw [if_neg hreset, hlist]
            exact ⟨fun h => h.1, fun h => ⟨h, fun h1 h2 => absurd ⟨h1, h2⟩ hreset⟩⟩

/-- **Which steps leave enough rows.** -/
theorem list_covers_iff {t : Table (CoinsList α)} {e : CoinsListEvent α} {w : CoinsList α}
    (hpage : 0 < t.state.presenter.numberOfPage) (hc : Covered CoinsList.numberOfRows t)
    (hs : CoinsListStep t.state e w) : ListCovers t e ↔ t.held ≤ w.numberOfRows := by
  cases hs with
  | action a => exact act_covers_iff hpage hc a
  | failure ho => exact iff_of_true trivial hc
  | @success n r models ho =>
      show (∀ text s, _ = some _ → _) ↔
        t.held ≤ (t.state.presenter.receive r models).viewData.length
      rw [ho.1]
      cases r with
      | searchingRequest text s =>
          show _ ↔ t.held ≤ (t.state.presenter.setViewData models).viewData.length
          rw [CoinsListViewPresenter.setViewData_viewData]
          exact ⟨fun h => h text s rfl, fun h _ _ _ => h⟩
      | allCurrencies s page =>
          refine iff_of_true (fun _ _ h => absurd h (by simp)) ?_
          show t.held ≤ (t.state.presenter.setViewData _).viewData.length
          rw [CoinsListViewPresenter.setViewData_viewData, List.length_append]
          exact Nat.le_add_right_of_le hc
      | favouriteCoins ids => exact iff_of_true (fun _ _ h => absurd h (by simp)) hc

/-- The page is never 0. -/
theorem list_page_pos {w w' : CoinsList α} {e : CoinsListEvent α}
    (h : 0 < w.presenter.numberOfPage) (hs : CoinsListStep w e w') :
    0 < w'.presenter.numberOfPage := by
  cases hs with
  | failure ho => exact h
  | success models ho =>
      rw [(CoinsListViewPresenter.samePage_receive _ models).numberOfPage]
      exact h
  | action a =>
      by_cases ha : a = .setDefaults
      · subst ha
        exact (CoinsListViewPresenter.setNumberOfPage_page _ 1).1 ▸ Nat.one_pos
      · rcases CoinsListViewPresenter.act_pageEffect (p := w.presenter) ha with
          ⟨-, hsame⟩ | ⟨n, -, hn, hpage, -⟩
        · rw [hsame.numberOfPage]
          exact h
        · rw [hpage]
          omega

end CoinList

/-! ## 2. The wallet -/

section Wallet

variable {F Image : Type} [SwiftDouble F]

omit [SwiftDouble F] in
/-- `viewCellData[indexPath.row]`, of `cellForRowAt`; `none` where it is out of bounds. -/
def WalletViewPresenter.rowAt (p : WalletViewPresenter F Image) (row : Nat) :
    Option (WalletTableViewCellModel F Image) :=
  p.viewCellData[row]?

/-- `numberOfRowsInSection` -/
def Wallet.numberOfRows (w : Wallet F Image) : Nat := w.presenter.viewCellData.length

/-- The reloads `configure` has asked for. -/
def Wallet.reloads (w : Wallet F Image) : Nat := w.presenter.configured.length

/-- The wallet and its table. -/
abbrev WalletTableStep (T : DoubleText F) :
    Table (Wallet F Image) → Tables.Label (WalletEvent F Image) → Table (Wallet F Image) → Prop :=
  TableStep (WalletStep T) Wallet.numberOfRows Wallet.reloads

/-- A step after which every row the table of the wallet may ask for exists. -/
abbrev WalletCoveredStep (T : DoubleText F) :
    Table (Wallet F Image) → Tables.Label (WalletEvent F Image) → Table (Wallet F Image) → Prop :=
  CoveredStep (WalletStep T) Wallet.numberOfRows Wallet.reloads

/-- **The changes of the wallet that leave the rows its table holds**: a price response leaves a
    row for each of its view models that has a holding. -/
def WalletCovers (t : Table (Wallet F Image)) : WalletEvent F Image → Prop
  | .prices _ models =>
      t.held ≤ (models.filter (·.id ∈ t.state.presenter.data.map (·.id))).length
  | _ => True

theorem setViewData_numberOfRows (T : DoubleText F) (p : WalletViewPresenter F Image)
    (models : List (CoinTableViewCellViewModel F Image)) :
    (p.setViewData T models).viewCellData.length =
      (models.filter (·.id ∈ p.data.map (·.id))).length := by
  rw [WalletViewPresenter.setViewData_viewCellData, List.length_map, filterMap_rowFor,
    List.length_map, ← List.length_map (f := Prod.snd), Keyed.join_snd]

/-- **Which price responses leave enough rows**; nothing else changes them. -/
theorem prices_cover_iff {T : DoubleText F} {t : Table (Wallet F Image)} {e : WalletEvent F Image}
    {w : Wallet F Image} (hc : Covered Wallet.numberOfRows t) (hs : WalletStep T t.state e w) :
    WalletCovers t e ↔ t.held ≤ w.numberOfRows := by
  cases hs with
  | getData => exact iff_of_true trivial hc
  | portfolio answer _ => cases answer <;> exact iff_of_true trivial hc
  | prices models ho =>
      show _ ↔ t.held ≤ (t.state.presenter.setViewData T models).viewCellData.length
      rw [setViewData_numberOfRows]
      exact Iff.rfl
  | pricesFailed ho => exact iff_of_true trivial hc
  | @swipe index p hdel =>
      obtain ⟨-, -, -, -, -, hcells, -⟩ := WalletViewPresenter.deleteCoinFromPortfolio_some hdel
      refine iff_of_true trivial ?_
      show t.held ≤ p.viewCellData.length
      rw [hcells]
      exact hc

end Wallet

/-! ## 3. Both screens -/

theorem list_covered_iff {α : Type} {ls : List (Tables.Label (CoinsListEvent α))}
    {t : Table (CoinsList α)} :
    Run ListCoveredStep (.start {}) ls t ↔
      Run (Guarded (OnUpdate ListCovers) ListTableStep) (.start {}) ls t :=
  covered_run_iff (I := fun w : CoinsList α => 0 < w.presenter.numberOfPage) Nat.one_pos
    (fun _ _ _ h hs => list_page_pos h hs) fun _ _ _ h hc hs => list_covers_iff h hc hs

theorem wallet_covered_iff {F Image : Type} [SwiftDouble F] {T : DoubleText F}
    {ls : List (Tables.Label (WalletEvent F Image))} {t : Table (Wallet F Image)} :
    Run (WalletCoveredStep T) (.start {}) ls t ↔
      Run (Guarded (OnUpdate WalletCovers) (WalletTableStep T)) (.start {}) ls t :=
  covered_run_iff (I := fun _ => True) trivial (fun _ _ _ _ _ => trivial)
    fun _ _ _ _ hc hs => prices_cover_iff hc hs

/-- **Which runs of the two screens never let a table ask for a row that is gone**: those whose
    changes all leave the rows the table holds. In these every row asked for exists. -/
theorem rows_exist_iff {α F Image : Type} [SwiftDouble F] (T : DoubleText F) :
    (∀ (ls : List (Tables.Label (CoinsListEvent α))) (t : Table (CoinsList α)),
      (Run ListCoveredStep (.start {}) ls t ↔
        Run (Guarded (OnUpdate ListCovers) ListTableStep) (.start {}) ls t) ∧
      (Run (Guarded (OnUpdate ListCovers) ListTableStep) (.start {}) ls t →
        Run (Guarded (RowExists CoinsList.numberOfRows) ListTableStep) (.start {}) ls t)) ∧
    ∀ (ls : List (Tables.Label (WalletEvent F Image))) (t : Table (Wallet F Image)),
      (Run (WalletCoveredStep T) (.start {}) ls t ↔
        Run (Guarded (OnUpdate WalletCovers) (WalletTableStep T)) (.start {}) ls t) ∧
      (Run (Guarded (OnUpdate WalletCovers) (WalletTableStep T)) (.start {}) ls t →
        Run (Guarded (RowExists Wallet.numberOfRows) (WalletTableStep T)) (.start {}) ls t) :=
  ⟨fun _ _ => ⟨list_covered_iff, fun h => rows_exist (list_covered_iff.mpr h)⟩,
    fun _ _ => ⟨wallet_covered_iff, fun h => rows_exist (wallet_covered_iff.mpr h)⟩⟩

/-- The first page comes, the table reloads and asks for its row. -/
def pageShown : List (Tables.Label (CoinsListEvent String)) :=
  [.update (.action .setDefaults), .update (.success 0 ["bitcoin"]), .reload, .reload, .row 0]

theorem run_pageShown :
    Run (Guarded (OnUpdate ListCovers) ListTableStep) (.start {}) pageShown
      ⟨onePageShown, 1, 2⟩ := by
  have h1 : Run (Guarded (OnUpdate ListCovers) ListTableStep)
      (.start ({} : CoinsList String)) _ _ :=
    .single (.allow (.update (.action _ .setDefaults)) rfl)
  have h2 := h1.next (.allow (.update (.success (n := 0) ["bitcoin"] ⟨rfl, List.not_mem_nil⟩))
    fun _ _ _ => Nat.zero_le _)
  have h3 := h2.next (.allow (.reload (show 0 < 2 by decide)) trivial)
  have h4 := h3.next (.allow (.reload (show 1 < 2 by decide)) trivial)
  exact h4.next (.allow (.row (show 0 < 1 by decide)) trivial)

theorem rows_exist_pageShown :
    Run (Guarded (RowExists CoinsList.numberOfRows) ListTableStep) (.start {}) pageShown
      ⟨onePageShown, 1, 2⟩ :=
  ((@rows_exist_iff String ℚ Unit _ exactText).1 _ _).2 run_pageShown

/-- **A row of the list before**: the coin list is refreshed, a price response misses a coin, and
    the table asks for the row it still holds before it has reloaded. -/
theorem row_of_old_list :
    (∃ (ls : List (Tables.Label (CoinsListEvent String))) (t : Table (CoinsList String)),
      Run ListTableStep (.start {}) ls t ∧ ListTableStep t (.row 0) t ∧
        t.state.presenter.rowAt 0 = none) ∧
    ∃ (ls : List (Tables.Label (WalletEvent ℚ Unit))) (t : Table (Wallet ℚ Unit)),
      Run (WalletTableStep exactText) (.start {}) ls t ∧ WalletTableStep exactText t (.row 0) t ∧
        t.state.presenter.rowAt 0 = none := by
  refine ⟨?_, ?_⟩
  · have h := run_pageShown.of_guarded.next (.update (.action _ (.refreshData none)))
    exact ⟨_, _, h, .row (show 0 < 1 by decide), rfl⟩
  · have h1 : Run (WalletTableStep exactText) (.start ({} : Wallet ℚ Unit)) _ _ :=
      .single (.update (.getData _))
    have h2 := h1.next (.update (.portfolio (some ⟨[⟨"bitcoin", "10.0", "1.0"⟩]⟩)
      (show 0 < 1 by decide)))
    have h3 := h2.next (.update (.prices (n := 0) [quotedAt "bitcoin" "40"]
      ⟨rfl, List.not_mem_nil⟩))
    have h4 := h3.next (.reload (show 0 < 1 by decide))
    have h5 := h4.next (.update (.getData _))
    have h6 := h5.next (.update (.portfolio (some ⟨[⟨"bitcoin", "10.0", "1.0"⟩]⟩)
      (show 1 < 2 by decide)))
    have h7 := h6.next (.update (.prices (n := 1) [] ⟨rfl, by decide⟩))
    exact ⟨_, _, h7, .row (show 0 < 1 by decide), rfl⟩

end CryptoWallet
