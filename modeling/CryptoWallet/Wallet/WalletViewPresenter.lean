/-
  File:      CryptoWallet/Wallet/WalletViewPresenter.lean
  Subject:   The wallet screen (WalletViewPresenter.swift) and its runs.

  The state holds the three observed arrays, each with its `didSet` as a setter below, and what
  the presenter has asked of others: portfolio reads, price requests, deletions, and the calls
  of `view.configure`. `rowIds` is kept for the reader: for each row the id of the holding it
  was built from, which the rows themselves do not carry.

  * `Wallet`, `WalletStep`: the presenter among `getPortfolio` and the price requests, whose
    answers come at any time, in any order, or as failures.
  * `wallet_invariant`: what holds of every run: one id for each row, and only calls that were
    made are answered.
-/
import CryptoWallet.CoinModelParser
import CryptoWallet.Firebase.FirebaseManager
import CryptoWallet.Library.Calls
import CryptoWallet.Library.Keyed
import CryptoWallet.Library.Runs

namespace CryptoWallet

open Runs Calls Keyed

/-! ## 1. The presenter -/

structure FirebaseModel (F : Type) where
  id : String
  quantity : F
  priceOfBuying : F
  deriving DecidableEq, Repr

structure WalletTableViewCellModel (F Image : Type) where
  image : Image
  symbol : String
  quantity : F
  totalCoinPrice : F
  deriving DecidableEq, Repr

inductive ColorOfLabel where
  | green
  | red
  deriving DecidableEq, Repr

/-- The arguments of `view.configure`. -/
structure Configuration where
  totalCost : String
  priceChange : String
  labelColor : ColorOfLabel
  deriving DecidableEq, Repr

structure WalletViewPresenter (F Image : Type) where
  viewCellData : List (WalletTableViewCellModel F Image) := []
  viewData : List (CoinTableViewCellViewModel F Image) := []
  data : List (FirebaseModel F) := []
  /-- The id of the holding each row was built from. -/
  rowIds : List String := []
  /-- The calls of `view.configure`, oldest first. -/
  configured : List Configuration := []
  /-- The number of calls of `getPortfolio`. -/
  reads : Nat := 0
  /-- The ids of each price request made, oldest first. -/
  requests : List (List String) := []
  /-- The ids `FirebaseManager.delete` was called with, oldest first. -/
  deletions : List String := []
  deriving DecidableEq, Repr

variable {F Image : Type} [SwiftDouble F]

/-- What the `didSet` of `viewCellData` passes to `view.configure`. -/
def configuration (T : DoubleText F) (viewCellData : List (WalletTableViewCellModel F Image))
    (data : List (FirebaseModel F)) : Configuration :=
  let totalCostCurrent := viewCellData.foldl (fun total row => total + row.totalCoinPrice) 0
  let totalCostOfBuying := data.foldl (fun total el => total + el.quantity * el.priceOfBuying) 0
  { totalCost := T.toText totalCostCurrent
    priceChange := T.toText (SwiftDouble.abs (totalCostCurrent - totalCostOfBuying))
    labelColor := if SwiftDouble.lt totalCostOfBuying totalCostCurrent then .green else .red }

/-- The row of one view model: the first holding of its id, if there is one. -/
def rowFor (T : DoubleText F) (data : List (FirebaseModel F))
    (model : CoinTableViewCellViewModel F Image) :
    Option (String × WalletTableViewCellModel F Image) :=
  (data.find? (·.id = model.id)).map fun firebaseModel =>
    (firebaseModel.id,
      { image := model.image
        symbol := model.symbol
        quantity := firebaseModel.quantity
        totalCoinPrice := firebaseModel.quantity * (T.ofText model.currentPrice).getD 0 })

namespace WalletViewPresenter

/-- `viewCellData = newViewCellData` with its `didSet`. -/
def setViewCellData (T : DoubleText F) (p : WalletViewPresenter F Image)
    (newViewCellData : List (String × WalletTableViewCellModel F Image)) :
    WalletViewPresenter F Image :=
  { p with
    viewCellData := newViewCellData.map Prod.snd
    rowIds := newViewCellData.map Prod.fst
    configured := p.configured ++ [configuration T (newViewCellData.map Prod.snd) p.data] }

/-- `viewData = models` with its `didSet`. -/
def setViewData (T : DoubleText F) (p : WalletViewPresenter F Image)
    (models : List (CoinTableViewCellViewModel F Image)) : WalletViewPresenter F Image :=
  setViewCellData T { p with viewData := models } (models.filterMap (rowFor T p.data))

/-- An assignment to `data` with its `didSet`: a price request for the ids. -/
def setData (p : WalletViewPresenter F Image) (data : List (FirebaseModel F)) :
    WalletViewPresenter F Image :=
  { p with data := data, requests := p.requests ++ [data.map (·.id)] }

/-- `getData()`; its completion is `portfolioRead`. -/
def getData (p : WalletViewPresenter F Image) : WalletViewPresenter F Image :=
  { p with reads := p.reads + 1 }

end WalletViewPresenter

/-- `convertData` -/
def convertData (T : DoubleText F) (coins : List Coin) : List (FirebaseModel F) :=
  coins.map fun coin =>
    ⟨coin.id, (T.ofText coin.quantity).getD 1, (T.ofText coin.price).getD 1⟩

theorem convertData_ids (T : DoubleText F) (coins : List Coin) :
    (convertData T coins).map (·.id) = coins.map Coin.id := by
  rw [convertData, List.map_map]
  rfl

namespace WalletViewPresenter

/-- The completion `getData` hands to `getPortfolio`. -/
def portfolioRead (T : DoubleText F) (p : WalletViewPresenter F Image) :
    Option Portfolio → WalletViewPresenter F Image
  | none => p
  | some portfolio => p.setData (convertData T portfolio.coins)

/-- `deleteCoinFromPortfolio(index:)`; `none` where the index is out of bounds. -/
def deleteCoinFromPortfolio (p : WalletViewPresenter F Image) (index : Nat) :
    Option (WalletViewPresenter F Image) :=
  p.data[index]?.map fun coin =>
    { p.setData (p.data.eraseIdx index) with deletions := p.deletions ++ [coin.id] }

@[simp] theorem setViewData_viewCellData (T : DoubleText F) (p : WalletViewPresenter F Image)
    (models : List (CoinTableViewCellViewModel F Image)) :
    (p.setViewData T models).viewCellData =
      (models.filterMap (rowFor T p.data)).map Prod.snd := rfl

@[simp] theorem setViewData_rowIds (T : DoubleText F) (p : WalletViewPresenter F Image)
    (models : List (CoinTableViewCellViewModel F Image)) :
    (p.setViewData T models).rowIds = (models.filterMap (rowFor T p.data)).map Prod.fst := rfl

omit [SwiftDouble F] in
/-- **What `deleteCoinFromPortfolio` does**, wherever it does not stop the app. -/
theorem deleteCoinFromPortfolio_some {p p' : WalletViewPresenter F Image} {index : Nat}
    (h : p.deleteCoinFromPortfolio index = some p') :
    ∃ coin, p.data[index]? = some coin ∧ p'.data = p.data.eraseIdx index ∧
      p'.requests = p.requests ++ [(p.data.eraseIdx index).map (·.id)] ∧
      p'.deletions = p.deletions ++ [coin.id] ∧ p'.viewCellData = p.viewCellData ∧
      p'.rowIds = p.rowIds ∧ p'.reads = p.reads := by
  obtain ⟨coin, hcoin, rfl⟩ := Option.map_eq_some_iff.mp h
  exact ⟨coin, hcoin, rfl, rfl, rfl, rfl, rfl, rfl⟩

end WalletViewPresenter

/-- The row of a holding and the view model of its id, with the id. -/
def rowOf (T : DoubleText F) (h : FirebaseModel F × CoinTableViewCellViewModel F Image) :
    String × WalletTableViewCellModel F Image :=
  (h.1.id,
    { image := h.2.image
      symbol := h.2.symbol
      quantity := h.1.quantity
      totalCoinPrice := h.1.quantity * (T.ofText h.2.currentPrice).getD 0 })

/-- **The rows are the join of prices and holdings.** -/
theorem filterMap_rowFor (T : DoubleText F) (data : List (FirebaseModel F))
    (models : List (CoinTableViewCellViewModel F Image)) :
    models.filterMap (rowFor T data) = (join (·.id) (·.id) data models).map (rowOf T) := by
  rw [join, List.map_filterMap]
  refine List.filterMap_congr fun model _ => ?_
  rw [rowFor, Option.map_map]
  rfl

/-- The ids of the rows are those of the view models that have a holding, in their order. -/
theorem filterMap_rowFor_fst (T : DoubleText F) (data : List (FirebaseModel F))
    (models : List (CoinTableViewCellViewModel F Image)) :
    (models.filterMap (rowFor T data)).map Prod.fst =
      (models.map (·.id)).filter (· ∈ data.map (·.id)) := by
  rw [filterMap_rowFor, List.map_map, ← join_keys]
  rfl

/-! ## 2. Runs -/

/-- The presenter among its calls: how many portfolio reads and which price requests have been
    answered, and the ids of the rows that were swiped away. -/
structure Wallet (F Image : Type) where
  presenter : WalletViewPresenter F Image := {}
  loaded : Nat := 0
  answered : List Nat := []
  swiped : List String := []

inductive WalletEvent (F Image : Type) where
  /-- The screen asks for the portfolio. -/
  | getData
  /-- `getPortfolio` answers a read. -/
  | portfolio (answer : Option Portfolio)
  /-- Price request `n` succeeds. -/
  | prices (n : Nat) (models : List (CoinTableViewCellViewModel F Image))
  /-- Price request `n` fails. -/
  | pricesFailed (n : Nat)
  /-- The user swipes row `index` away. -/
  | swipe (index : Nat)

inductive WalletStep (T : DoubleText F) :
    Wallet F Image → WalletEvent F Image → Wallet F Image → Prop where
  | getData (w : Wallet F Image) :
      WalletStep T w .getData { w with presenter := w.presenter.getData }
  | portfolio {w : Wallet F Image} (answer : Option Portfolio)
      (h : w.loaded < w.presenter.reads) :
      WalletStep T w (.portfolio answer)
        { w with presenter := w.presenter.portfolioRead T answer, loaded := w.loaded + 1 }
  | prices {w : Wallet F Image} {n : Nat} {ids : List String}
      (models : List (CoinTableViewCellViewModel F Image))
      (h : Outstanding w.presenter.requests w.answered n ids) :
      WalletStep T w (.prices n models)
        { w with presenter := w.presenter.setViewData T models, answered := w.answered ++ [n] }
  | pricesFailed {w : Wallet F Image} {n : Nat} {ids : List String}
      (h : Outstanding w.presenter.requests w.answered n ids) :
      WalletStep T w (.pricesFailed n) { w with answered := w.answered ++ [n] }
  | swipe {w : Wallet F Image} {index : Nat} {p : WalletViewPresenter F Image}
      (h : w.presenter.deleteCoinFromPortfolio index = some p) :
      WalletStep T w (.swipe index)
        { w with presenter := p, swiped := w.swiped ++ w.presenter.rowIds[index]?.toList }

/-- What holds of the wallet in every run. -/
structure WalletInvariant (w : Wallet F Image) : Prop where
  rows : w.presenter.rowIds.length = w.presenter.viewCellData.length
  proper : Proper w.presenter.requests w.answered

theorem wallet_step_invariant {T : DoubleText F} {w w' : Wallet F Image} {e : WalletEvent F Image}
    (h : WalletInvariant w) (hs : WalletStep T w e w') : WalletInvariant w' := by
  obtain ⟨hrows, hproper⟩ := h
  cases hs with
  | getData => exact ⟨hrows, hproper⟩
  | portfolio answer _ =>
      cases answer with
      | none => exact ⟨hrows, hproper⟩
      | some portfolio => exact ⟨hrows, hproper.issue _⟩
  | prices models ho => exact ⟨by simp, hproper.answer ho⟩
  | pricesFailed ho => exact ⟨hrows, hproper.answer ho⟩
  | swipe hdel =>
      obtain ⟨coin, -, -, hreq, -, hcells, hids, -⟩ :=
        WalletViewPresenter.deleteCoinFromPortfolio_some hdel
      refine ⟨?_, ?_⟩
      · rw [hcells, hids]
        exact hrows
      · show Proper _ _
        rw [hreq]
        exact hproper.issue _

/-- **The invariant of every run.** -/
theorem wallet_invariant {T : DoubleText F} {es : List (WalletEvent F Image)} {w : Wallet F Image}
    (h : Run (WalletStep T) {} es w) : WalletInvariant w :=
  h.invariant ⟨rfl, proper_nil⟩ fun _ _ _ hI hs => wallet_step_invariant hI hs

end CryptoWallet
