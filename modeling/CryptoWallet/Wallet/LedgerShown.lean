/-
  File:      CryptoWallet/Wallet/LedgerShown.lean
  Subject:   From the purchases of a user to the labels of the wallet screen.

  The requests of a history complete one after another (Firebase/Ledger.lean); then the wallet
  reads the portfolio, asks for prices, and is given the view models of the answer. Doubles are
  read as exact rationals.

  * `convertData_ledger`: the holdings of the wallet are the ledger's totals.
  * `ledger_shown`: the rows and the labels, from the stored coins.
  * `wallet_shows_ledger`: the ids asked for, the rows, and the labels are those of the ledger,
    when each coin held is listed once.
-/
import CryptoWallet.Firebase.Ledger
import CryptoWallet.Wallet.Gain

namespace CryptoWallet

open Keyed

variable {Image : Type} {T : DoubleText ℚ} {h : List Request} {coins : List Coin}

/-- The holding of an id, by the ledger: what was bought since the last deletion, and a price
    that conserves what it cost. -/
def LedgerHolding (T : DoubleText ℚ) (h : List Request) (c : FirebaseModel ℚ) : Prop :=
  c.quantity = totalBought T c.id h ∧ c.quantity * c.priceOfBuying = totalCost T c.id h

/-- **What `convertData` makes of the stored coins.** -/
theorem convertData_ledger (hr : Refines T h coins) :
    ∀ c ∈ convertData T coins, LedgerHolding T h c := by
  intro c hc
  obtain ⟨coin, hcoin, rfl⟩ := List.mem_map.mp hc
  obtain ⟨p, q, hp, hq, hb, hcost⟩ := hr.values coin hcoin
  refine ⟨?_, ?_⟩
  · show (T.ofText coin.quantity).getD 1 = _
    rw [hq, Option.getD_some, hb]
  · show (T.ofText coin.quantity).getD 1 * (T.ofText coin.price).getD 1 = _
    rw [hq, hp, Option.getD_some, Option.getD_some, mul_comm, hcost]

/-- A sum over the holdings is one over their ids. -/
theorem sum_ledger {data : List (FirebaseModel ℚ)} {f : FirebaseModel ℚ → ℚ} {g : String → ℚ}
    (hfg : ∀ c ∈ data, f c = g c.id) :
    (data.map f).sum = ((data.map (·.id)).map g).sum := by
  rw [List.map_map]
  exact congrArg List.sum (List.map_congr_left hfg)

/-- The row of a view model, by the ledger. -/
def RowOfLedger (T : DoubleText ℚ) (h : List Request) (row : WalletTableViewCellModel ℚ Image)
    (model : CoinTableViewCellViewModel ℚ Image) : Prop :=
  row.image = model.image ∧ row.symbol = model.symbol ∧
    row.quantity = totalBought T model.id h ∧
    row.totalCoinPrice = totalBought T model.id h * (T.ofText model.currentPrice).getD 0

/-- **The rows and the labels of a portfolio**, when each coin held is listed once. -/
theorem ledger_shown (T : SwiftText) (hr : Refines T.toDoubleText h coins)
    (p : WalletViewPresenter ℚ Image) {models : List (CoinTableViewCellViewModel ℚ Image)}
    (honce : ∀ id ∈ coins.map Coin.id, (models.map (·.id)).count id = 1) :
    let shown := (p.portfolioRead T.toDoubleText (some ⟨coins⟩)).setViewData T.toDoubleText models
    List.Forall₂ (RowOfLedger T.toDoubleText h) shown.viewCellData
        (models.filter (·.id ∈ coins.map Coin.id)) ∧
      ∃ call, shown.configured = p.configured ++ [call] ∧
        ReadsAs T.toDoubleText (.configure call)
          (((coins.map Coin.id).map fun id => totalBought T.toDoubleText id h *
              quotedPrice T.toDoubleText models id).sum -
            ((coins.map Coin.id).map fun id => totalCost T.toDoubleText id h).sum) := by
  set data := convertData T.toDoubleText coins with hdata
  have hids : data.map (·.id) = coins.map Coin.id := convertData_ids _ _
  have hledger : ∀ c ∈ data, LedgerHolding T.toDoubleText h c := convertData_ledger hr
  have hnd : (data.map (·.id)).Nodup := hids ▸ hr.nodup
  rw [← hids] at honce ⊢
  refine ⟨?_, _, rfl, ?_⟩
  · refine (setViewData_rows T.toDoubleText { p with data := data } models).imp ?_
    rintro row model ⟨c, hc, hid, himage, hsymbol, hq, ht⟩
    have hb : c.quantity = totalBought T.toDoubleText model.id h := hid ▸ (hledger c hc).1
    exact ⟨himage, hsymbol, hq.trans hb, ht.trans (by rw [hb])⟩
  · have hvalue : (data.map fun c => c.quantity * quotedPrice T.toDoubleText models c.id).sum =
        ((data.map (·.id)).map fun id => totalBought T.toDoubleText id h *
          quotedPrice T.toDoubleText models id).sum :=
      sum_ledger fun c hc => by rw [(hledger c hc).1]
    have hcost : (data.map fun c => c.quantity * c.priceOfBuying).sum =
        ((data.map (·.id)).map fun id => totalCost T.toDoubleText id h).sum :=
      sum_ledger fun c hc => (hledger c hc).2
    have hreads := configure_reads T
      ((models.filterMap (rowFor T.toDoubleText data)).map Prod.snd) data
    rw [← foldl_totalCoinPrice, totalCost_join, totalCost_once T.toDoubleText hnd
      fun c hc => honce c.id (List.mem_map_of_mem hc), hvalue, hcost] at hreads
    exact hreads

/-- The wallet asks for the coins it has read. -/
theorem portfolioRead_requests (T : DoubleText ℚ) (p : WalletViewPresenter ℚ Image)
    (coins : List Coin) :
    (p.portfolioRead T (some ⟨coins⟩)).requests = p.requests ++ [coins.map Coin.id] :=
  congrArg (p.requests ++ [·]) (convertData_ids T coins)

/-- Four units of bitcoin were bought, for 60. -/
theorem totals_history :
    totalBought exactSwiftText.toDoubleText "bitcoin" history = 4 ∧
      totalCost exactSwiftText.toDoubleText "bitcoin" history = 60 := by
  decide +kernel

/-- **The wallet shows the ledger**: after any admissible history it asks for the prices of
    exactly the ids bought since their last deletion, each once, in the order in which they were
    first bought; from an answer that lists each of them once it shows a row for each, in the
    order of the answer, with the quantity bought and its value; and the labels read as the value
    of all that was bought less what it cost. -/
theorem wallet_shows_ledger (T : SwiftText) {h : List Request}
    (hadm : Admissible T.toDoubleText h) (p : WalletViewPresenter ℚ Image) :
    ∃ document portfolio ids, runAll T.toDoubleText h = some document ∧
      getPortfolio (.ok document) = some portfolio ∧
      (∀ id, id ∈ ids ↔ purchasesSince id h ≠ []) ∧ ids.Pairwise (BoughtBefore h) ∧ ids.Nodup ∧
      (p.portfolioRead T.toDoubleText (some portfolio)).requests = p.requests ++ [ids] ∧
      ∀ models : List (CoinTableViewCellViewModel ℚ Image),
        (∀ id ∈ ids, (models.map (·.id)).count id = 1) →
        let shown := (p.portfolioRead T.toDoubleText (some portfolio)).setViewData
          T.toDoubleText models
        List.Forall₂ (RowOfLedger T.toDoubleText h) shown.viewCellData
            (models.filter (·.id ∈ ids)) ∧
          ∃ call, shown.configured = p.configured ++ [call] ∧
            ReadsAs T.toDoubleText (.configure call)
              ((ids.map fun id => totalBought T.toDoubleText id h *
                  quotedPrice T.toDoubleText models id).sum -
                (ids.map fun id => totalCost T.toDoubleText id h).sum) := by
  obtain ⟨coins, hrun, hr⟩ := run_refines hadm
  exact ⟨_, _, coins.map Coin.id, hrun, getPortfolio_encode coins, hr.held, hr.order, hr.nodup,
    portfolioRead_requests _ p coins, fun models honce => ledger_shown T hr p honce⟩

/-- Bitcoin bought twice for 60, ethereum bought and sold: the wallet asks for bitcoin alone, and at
    40 a coin shows its row and the gain of the four. -/
theorem wallet_shows_ledger_history :
    ∃ document portfolio, runAll exactSwiftText.toDoubleText history = some document ∧
      getPortfolio (.ok document) = some portfolio ∧
      let read := ({} : WalletViewPresenter ℚ Unit).portfolioRead exactSwiftText.toDoubleText
        (some portfolio)
      let shown := read.setViewData exactSwiftText.toDoubleText [quotedAt "bitcoin" "40"]
      read.requests = [["bitcoin"]] ∧
      List.Forall₂ (RowOfLedger exactSwiftText.toDoubleText history) shown.viewCellData
        [quotedAt "bitcoin" "40"] ∧
      ∃ call, shown.configured = [call] ∧
        ReadsAs exactSwiftText.toDoubleText (.configure call) (4 * 40 - 60) := by
  have hadm : Admissible exactSwiftText.toDoubleText history := admissible_history
  obtain ⟨document, portfolio, ids, hrun, hget, hids, -, hnd, hreq, hshown⟩ :=
    wallet_shows_ledger exactSwiftText hadm ({} : WalletViewPresenter ℚ Unit)
  obtain rfl : ids = ["bitcoin"] := by
    refine List.perm_singleton.mp ((List.perm_ext_iff_of_nodup hnd (List.nodup_singleton _)).mpr ?_)
    intro id
    rw [hids, purchasesSince_history, List.mem_singleton]
  obtain ⟨hrows, hlabels⟩ := hshown [quotedAt "bitcoin" "40"] (by decide)
  obtain ⟨hvalue, hcost⟩ := totals_history
  have hprice : quotedPrice exactSwiftText.toDoubleText
      [(quotedAt "bitcoin" "40" : CoinTableViewCellViewModel ℚ Unit)] "bitcoin" = 40 := by
    decide +kernel
  simp only [List.map_singleton, List.sum_singleton, hvalue, hcost, hprice] at hlabels
  exact ⟨document, portfolio, hrun, hget, hreq, by simpa [quotedAt] using hrows, hlabels⟩

end CryptoWallet
