/-
  File:      CryptoWallet/Wallet/Swipe.lean
  Subject:   Swiping a row of the wallet: which coin goes.

  The row's index is its place in `viewCellData`; `deleteCoinFromPortfolio` uses it as a place in
  `data`. The two lists are filled by different answers.

  * `swipe_deletes_row_iff`: in every state a run reaches, row `i` deletes its own coin exactly
    when `data` has that coin at place `i`; all rows do exactly when the ids of the rows are the
    first ids of `data`; and a run whose swipes all meet this deletes what was swiped.
  * `prices_aligned_iff`: a price response brings the rows in line exactly when it lists the
    coins of `data` in the order of `data`, without a gap.
  * `swipe_deletes_another`: prices in another order than the portfolio, and the wrong coin goes.
-/
import CryptoWallet.Wallet.WalletViewPresenter
import CryptoWallet.Swift.Text

namespace CryptoWallet

open Runs Calls

variable {F Image : Type}

/-- **Swiping row `i` deletes the coin shown in it**: no runtime error, `data` loses exactly the
    coin the row was built from, and `FirebaseManager` is asked to delete its id. -/
def DeletesRow (p : WalletViewPresenter F Image) (i : Nat) : Prop :=
  ∃ id p' k coin, p.rowIds[i]? = some id ∧ p.deleteCoinFromPortfolio i = some p' ∧
    p.data[k]? = some coin ∧ coin.id = id ∧ p'.data = p.data.eraseIdx k ∧
    p'.deletions = p.deletions ++ [id]

/-- The coin at place `i` of `data` is the one row `i` was built from. -/
def Aligned (p : WalletViewPresenter F Image) (i : Nat) : Prop :=
  (p.data.map (·.id))[i]? = p.rowIds[i]?

instance (p : WalletViewPresenter F Image) (i : Nat) : Decidable (Aligned p i) :=
  inferInstanceAs (Decidable (_ = _))

theorem deletesRow_iff_aligned {p : WalletViewPresenter F Image} {i : Nat}
    (hi : i < p.rowIds.length) : DeletesRow p i ↔ Aligned p i := by
  have hrow : p.rowIds[i]? = some p.rowIds[i] := List.getElem?_eq_getElem hi
  unfold Aligned
  rw [List.getElem?_map, hrow]
  constructor
  · intro ⟨id, p', k, coin, hid, hdel, _, _, _, hask⟩
    obtain ⟨coin', hcoin', -, -, hask', -⟩ :=
      WalletViewPresenter.deleteCoinFromPortfolio_some hdel
    -- the request names the coin at place `i`, so that coin is the row's
    rw [hask', List.append_cancel_left_eq, List.cons.injEq] at hask
    rw [hrow, Option.some.injEq] at hid
    rw [hcoin', Option.map_some, hask.1, hid]
  · intro h
    obtain ⟨coin, hcoin, hid⟩ := Option.map_eq_some_iff.mp h
    have hdel : p.deleteCoinFromPortfolio i = some
        { p.setData (p.data.eraseIdx i) with deletions := p.deletions ++ [coin.id] } := by
      rw [WalletViewPresenter.deleteCoinFromPortfolio, hcoin, Option.map_some]
    refine ⟨p.rowIds[i], _, i, coin, hrow, hdel, hcoin, hid, rfl, ?_⟩
    rw [hid]

theorem aligned_all_iff (p : WalletViewPresenter F Image) :
    (∀ i < p.rowIds.length, Aligned p i) ↔ p.rowIds <+: p.data.map (·.id) := by
  rw [List.prefix_iff_getElem?]
  constructor
  · intro h i hi
    exact (h i hi).trans (List.getElem?_eq_getElem hi)
  · intro h i hi
    exact (h i hi).trans (List.getElem?_eq_getElem hi).symm

variable [SwiftDouble F]

/-- A swipe is made on a row that is in line with `data`. -/
def SwipesAligned (w : Wallet F Image) : WalletEvent F Image → Prop
  | .swipe i => Aligned w.presenter i
  | _ => True

/-- One aligned step keeps the deletions asked for equal to the rows swiped away. -/
theorem deletions_step {T : DoubleText F} {w w' : Wallet F Image} {e : WalletEvent F Image}
    (h : w.presenter.deletions = w.swiped) (hs : Guarded SwipesAligned (WalletStep T) w e w') :
    w'.presenter.deletions = w'.swiped := by
  obtain ⟨hok, hs⟩ := hs
  cases hs with
  | getData => exact h
  | portfolio answer _ => cases answer <;> exact h
  | prices models _ => exact h
  | pricesFailed _ => exact h
  | swipe hdel =>
      obtain ⟨coin, hcoin, -, -, hask, -⟩ := WalletViewPresenter.deleteCoinFromPortfolio_some hdel
      have hok : (w.presenter.data.map (·.id))[_]? = w.presenter.rowIds[_]? := hok
      rw [List.getElem?_map, hcoin, Option.map_some] at hok
      show _ = w.swiped ++ _
      rw [hask, h, ← hok]
      rfl

/-- **Which swipes delete their row's coin.** -/
theorem swipe_deletes_row_iff (T : DoubleText F) {es : List (WalletEvent F Image)}
    {w : Wallet F Image} (h : Run (WalletStep T) {} es w) :
    (∀ i < w.presenter.viewCellData.length, DeletesRow w.presenter i ↔ Aligned w.presenter i) ∧
    ((∀ i < w.presenter.viewCellData.length, DeletesRow w.presenter i) ↔
      w.presenter.rowIds <+: w.presenter.data.map (·.id)) ∧
    (Run (Guarded SwipesAligned (WalletStep T)) {} es w → w.presenter.deletions = w.swiped) := by
  have hrows := (wallet_invariant h).rows
  have each : ∀ i < w.presenter.viewCellData.length,
      DeletesRow w.presenter i ↔ Aligned w.presenter i :=
    fun i hi => deletesRow_iff_aligned (hrows ▸ hi)
  refine ⟨each, ?_, ?_⟩
  · rw [← aligned_all_iff, hrows]
    exact forall₂_congr each
  · intro hg
    exact hg.invariant (I := fun w => w.presenter.deletions = w.swiped) rfl
      fun _ _ _ hI hs => deletions_step hI hs

/-- **When a price response brings all rows in line.** -/
theorem prices_aligned_iff (T : DoubleText F) (p : WalletViewPresenter F Image)
    (models : List (CoinTableViewCellViewModel F Image)) :
    (∀ i < (p.setViewData T models).rowIds.length, Aligned (p.setViewData T models) i) ↔
      (models.map (·.id)).filter (· ∈ p.data.map (·.id)) <+: p.data.map (·.id) := by
  rw [aligned_all_iff, WalletViewPresenter.setViewData_rowIds, filterMap_rowFor_fst]
  rfl

/-! ## A portfolio that is not in market order -/

/-- A view model with the given id and price, the rest left blank. -/
def priced (id currentPrice : String) : CoinTableViewCellViewModel ℚ Unit :=
  ⟨id, "", "", currentPrice, (), 0, 0, 0, 0, none, none, 0, 0⟩

/-- Ethereum was bought first. -/
def ethereumFirst : Portfolio := ⟨[⟨"ethereum", "3000.0", "2.0"⟩, ⟨"bitcoin", "40000.0", "1.0"⟩]⟩

/-- The screen loads, and the prices arrive in the order `ids`. -/
def loadedWith (ids : List String) : List (WalletEvent ℚ Unit) :=
  [.getData, .portfolio (some ethereumFirst), .prices 0 (ids.map fun id => priced id "1")]

/-- The wallet after that. -/
def loadedWallet (ids : List String) : Wallet ℚ Unit where
  presenter := (WalletViewPresenter.portfolioRead exactText
    (WalletViewPresenter.getData {}) (some ethereumFirst)).setViewData exactText
      (ids.map fun id => priced id "1")
  loaded := 1
  answered := [0]

theorem run_loadedWith (ids : List String) :
    Run (Guarded SwipesAligned (WalletStep exactText)) {} (loadedWith ids) (loadedWallet ids) := by
  have h1 : Run (Guarded SwipesAligned (WalletStep exactText)) ({} : Wallet ℚ Unit) _ _ :=
    .single (.allow (.getData {}) trivial)
  have h2 := h1.next (.allow (.portfolio (some ethereumFirst) Nat.zero_lt_one) trivial)
  exact h2.next (.allow (.prices (n := 0) (ids.map fun id => priced id "1")
    ⟨rfl, List.not_mem_nil⟩) trivial)

/-- In portfolio order, swiping the first row deletes its coin. -/
theorem swipe_deletes_row_portfolio_order :
    DeletesRow (loadedWallet ["ethereum", "bitcoin"]).presenter 0 ∧
      ∃ w : Wallet ℚ Unit,
        Run (Guarded SwipesAligned (WalletStep exactText)) {}
          (loadedWith ["ethereum", "bitcoin"] ++ [.swipe 0]) w ∧
        w.swiped = ["ethereum"] ∧ w.presenter.deletions = w.swiped := by
  have hr := run_loadedWith ["ethereum", "bitcoin"]
  have hal : Aligned (loadedWallet ["ethereum", "bitcoin"]).presenter 0 := by decide +kernel
  have hrow : 0 < (loadedWallet ["ethereum", "bitcoin"]).presenter.viewCellData.length := by
    decide +kernel
  have hr' := hr.next (.allow (.swipe rfl) hal)
  exact ⟨((swipe_deletes_row_iff exactText hr.of_guarded).1 0 hrow).mpr hal, _, hr',
    by decide +kernel, (swipe_deletes_row_iff exactText hr'.of_guarded).2.2 hr'⟩

/-- **In market order, swiping the first row does not delete its coin**: bitcoin is shown there,
    and ethereum goes. -/
theorem swipe_deletes_another :
    Run (WalletStep exactText) {} (loadedWith ["bitcoin", "ethereum"])
        (loadedWallet ["bitcoin", "ethereum"]) ∧
      0 < (loadedWallet ["bitcoin", "ethereum"]).presenter.viewCellData.length ∧
      ¬ DeletesRow (loadedWallet ["bitcoin", "ethereum"]).presenter 0 ∧
      (loadedWallet ["bitcoin", "ethereum"]).presenter.rowIds = ["bitcoin", "ethereum"] ∧
      ∃ p, (loadedWallet ["bitcoin", "ethereum"]).presenter.deleteCoinFromPortfolio 0 = some p ∧
        p.deletions = ["ethereum"] := by
  refine ⟨(run_loadedWith _).of_guarded, by decide +kernel, ?_, by decide +kernel, _, rfl, rfl⟩
  rw [deletesRow_iff_aligned (by decide +kernel)]
  decide +kernel

end CryptoWallet
