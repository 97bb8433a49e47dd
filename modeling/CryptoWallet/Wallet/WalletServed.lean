/-
  File:      CryptoWallet/Wallet/WalletServed.lean
  Subject:   From the purchases of a user, through the API, to the labels of the wallet screen.

  The wallet asks the API for the coins of the portfolio (Requests/Conversation.lean), and its
  rows are made of the coins of the answer. Doubles are read as exact rationals.

  * `viewsOf_parse`: the view models of an answer whose images download, coin by coin.
  * `wallet_served`: **the wallet values what was bought at the prices of the API**, as
    `cutString` writes them.
-/
import CryptoWallet.Parser.ParsedCoins
import CryptoWallet.Requests.Conversation
import CryptoWallet.Wallet.LedgerShown

namespace CryptoWallet

open Keyed URIs JSONs

variable {Image : Type} {E : Images Image} {T : DoubleText ℚ}

/-! ## 1. The view models of an answer -/

/-- The price that the coins quote for an id. -/
def quotedBy (T : DoubleText ℚ) (coins : List (CoinModel ℚ)) (id : String) : ℚ :=
  ((coins.find? (·.id = id)).map fun coin => T.shownPrice coin.current_price).getD 0

/-- The view model of the coin at a position. -/
structure ViewOf (E : Images Image) (coin : CoinModel ℚ × Nat)
    (v : CoinTableViewCellViewModel ℚ Image) : Prop extends KeepsCoin E coin v where
  price : cutString coin.1.current_price = some v.currentPrice

theorem ViewOf.shownPrice_eq {coin : CoinModel ℚ × Nat} {v : CoinTableViewCellViewModel ℚ Image}
    (h : ViewOf E coin v) :
    (T.ofText v.currentPrice).getD 0 = T.shownPrice coin.1.current_price := by
  rw [DoubleText.shownPrice, h.price, Option.bind_some]

theorem viewOf_of_parse {coin : CoinModel ℚ × Nat} {v : CoinTableViewCellViewModel ℚ Image}
    (h : parseToViewModel E T coin = some (some v)) : ViewOf E coin v := by
  refine { keepsCoin_of_parse h with price := ?_ }
  have hv := viewModel_of_parse h
  simp only [viewModel, Option.bind_eq_bind, Option.bind_eq_some_iff] at hv
  obtain ⟨currentPrice, hprice, _, -, _, -, hv⟩ := hv
  cases hv
  exact hprice

/-- **An answer whose images download is parsed coin by coin.** -/
theorem viewsOf_parse {coins : List (CoinModel ℚ × Nat)}
    {models : List (CoinTableViewCellViewModel ℚ Image)}
    (hload : ∀ coin ∈ coins, E.Downloads coin.2 coin.1.image)
    (h : compactMapCoins E T coins = some models) : List.Forall₂ (ViewOf E) coins models := by
  induction coins generalizing models with
  | nil =>
      cases h
      exact .nil
  | cons coin coins ih =>
      obtain ⟨v, vs, hv, hvs, rfl⟩ := compactMapCoins_cons.mp h
      have hrest := ih (fun c hc => hload c (List.mem_cons_of_mem _ hc)) hvs
      obtain ⟨hurl, hdata⟩ := hload coin List.mem_cons_self
      obtain ⟨imageData, hdata⟩ := Option.isSome_iff_exists.mp hdata
      -- a coin whose image downloads is not dropped
      cases v with
      | none =>
          unfold parseToViewModel at hv
          rw [if_pos hurl, hdata] at hv
          simp at hv
      | some v => exact .cons (viewOf_of_parse hv) hrest

/-- The view models quote the prices of the coins. -/
theorem quotedPrice_of_views {coins : List (CoinModel ℚ × Nat)}
    {models : List (CoinTableViewCellViewModel ℚ Image)}
    (h : List.Forall₂ (ViewOf E) coins models) (id : String) :
    quotedPrice T models id = quotedBy T (coins.map Prod.fst) id := by
  induction h with
  | nil => rfl
  | @cons coin v coins models hv _ ih =>
      unfold quotedPrice quotedBy at ih ⊢
      rw [List.map_cons]
      by_cases e : coin.1.id = id
      · have e' : v.id = id := hv.id.trans e
        rw [List.find?_cons_of_pos (by simpa using e'), List.find?_cons_of_pos (by simpa using e)]
        exact hv.shownPrice_eq
      · have e' : ¬ v.id = id := fun hid => e (hv.id.symm.trans hid)
        rw [List.find?_cons_of_neg (by simpa using e'), List.find?_cons_of_neg (by simpa using e)]
        exact ih

theorem ids_of_views {coins : List (CoinModel ℚ × Nat)}
    {models : List (CoinTableViewCellViewModel ℚ Image)}
    (h : List.Forall₂ (ViewOf E) coins models) :
    models.map (·.id) = (coins.map Prod.fst).map (·.id) := by
  induction h with
  | nil => rfl
  | cons hv _ ih => rw [List.map_cons, List.map_cons, List.map_cons, ih, hv.id]

/-! ## 2. The wallet -/

/-- The row of the coin at a position, by the ledger. -/
def RowOfCoin (E : Images Image) (T : DoubleText ℚ) (h : List Request)
    (row : WalletTableViewCellModel ℚ Image) (coin : CoinModel ℚ × Nat) : Prop :=
  row.image = (E.own coin.2 coin.1.image).getD E.eye ∧ row.symbol = coin.1.symbol ∧
    row.quantity = totalBought T coin.1.id h ∧
    row.totalCoinPrice = totalBought T coin.1.id h * T.shownPrice coin.1.current_price

theorem rowOfCoin_of_ledger {h : List Request} {row : WalletTableViewCellModel ℚ Image}
    {coin : CoinModel ℚ × Nat} {v : CoinTableViewCellViewModel ℚ Image}
    (hrow : RowOfLedger T h row v) (hv : ViewOf E coin v) : RowOfCoin E T h row coin := by
  obtain ⟨himage, hsymbol, hquantity, htotal⟩ := hrow
  rw [hv.id] at hquantity htotal
  refine ⟨himage.trans hv.image, hsymbol.trans hv.symbol, hquantity, ?_⟩
  rw [htotal, hv.shownPrice_eq]

/-- The ids held are among those bought. -/
theorem added_of_purchases {h : List Request} {id : String} (hne : purchasesSince id h ≠ []) :
    ∃ c, .add c ∈ h ∧ c.id = id := by
  induction h using List.reverseRecOn with
  | nil => exact absurd rfl hne
  | append_singleton h r ih =>
      have hold : purchasesSince id h ≠ [] → ∃ c, .add c ∈ h ++ [r] ∧ c.id = id := fun hne => by
        obtain ⟨c, hc, hid⟩ := ih hne
        exact ⟨c, List.mem_append_left _ hc, hid⟩
      rw [purchasesSince_append] at hne
      cases r with
      | add c =>
          by_cases e : c.id = id
          · exact ⟨c, by simp, e⟩
          · rw [purchaseStep, if_neg e] at hne
            exact hold hne
      | delete i =>
          by_cases e : i = id
          · rw [purchaseStep, if_pos e] at hne
            exact absurd rfl hne
          · rw [purchaseStep, if_neg e] at hne
            exact hold hne

/-- **The wallet values what was bought at the prices of the API.** After any admissible history
    of purchases of coins whose ids are slugs, the wallet asks for exactly the coins held, and its
    request is answered once, under every fair schedule, with what the API has for them; and where
    the API has one coin for each of them, and the images of its coins download, the rows are
    those of the coins of the answer, with the quantities bought and their value, and the labels
    read as the value of everything held less what it cost. -/
theorem wallet_served (T : SwiftText) {f : Foundation} {api : API}
    {net : Network JSON DecodingError (CoinModel ℚ)}
    (hURL : ∀ s : String, (parse s.toList).isSome = true → f.isURL s = true)
    (hf : HasASCIICharacters f) (hreaches : Reaches api net) (E : Images Image)
    {h : List Request} (hadm : Admissible T.toDoubleText h)
    (hslugs : ∀ c, .add c ∈ h → c.id ≠ "" ∧ ∀ x ∈ c.id.toList, isUnreserved x = true)
    (p : WalletViewPresenter ℚ Image) :
    ∃ document portfolio ids, runAll T.toDoubleText h = some document ∧
      getPortfolio (.ok document) = some portfolio ∧
      (∀ id, id ∈ ids ↔ purchasesSince id h ≠ []) ∧
      (p.portfolioRead T.toDoubleText (some portfolio)).requests = p.requests ++ [ids] ∧
      Completes f net (.favouriteCoins ids) (api.result f (.favouriteCoins ids)) ∧
      ∀ coins models, api.result f (.favouriteCoins ids) = .ok coins →
        (∀ id ∈ ids, (coins.map (·.id)).count id = 1) →
        (∀ coin ∈ coins.zipIdx, E.Downloads coin.2 coin.1.image) →
        parseToViewModels E T.toDoubleText coins = some models →
        let shown := (p.portfolioRead T.toDoubleText (some portfolio)).setViewData
          T.toDoubleText models
        List.Forall₂ (RowOfCoin E T.toDoubleText h) shown.viewCellData
            (coins.zipIdx.filter (·.1.id ∈ ids)) ∧
          ∃ call, shown.configured = p.configured ++ [call] ∧
            ReadsAs T.toDoubleText (.configure call)
              ((ids.map fun id => totalBought T.toDoubleText id h *
                  quotedBy T.toDoubleText coins id).sum -
                (ids.map fun id => totalCost T.toDoubleText id h).sum) := by
  obtain ⟨held, hrun, hr⟩ := run_refines hadm
  have hids : AreSlugs (held.map Coin.id) := by
    intro id hid
    obtain ⟨c, hc, rfl⟩ := added_of_purchases ((hr.held id).mp hid)
    exact hslugs c hc
  refine ⟨_, _, held.map Coin.id, hrun, getPortfolio_encode held, hr.held,
    portfolioRead_requests _ p held, ?_, ?_⟩
  · exact completes_result (r := .favouriteCoins (held.map Coin.id)) hURL hf hreaches hids
  · intro coins models _ honce hload hparse
    have hviews := viewsOf_parse hload hparse
    have hidsOf : models.map (·.id) = coins.map (·.id) := by
      rw [ids_of_views hviews, List.zipIdx_map_fst]
    obtain ⟨hrows, call, hcall, hreads⟩ :=
      ledger_shown T hr p fun id hid => hidsOf ▸ honce id hid
    have hfilter : List.Forall₂ (ViewOf E) (coins.zipIdx.filter (·.1.id ∈ held.map Coin.id))
        (models.filter (·.id ∈ held.map Coin.id)) :=
      List.rel_filter (fun coin v hv => by simp [hv.id]) hviews
    simp only [quotedPrice_of_views hviews, List.zipIdx_map_fst] at hreads
    refine ⟨(forall₂_comp hrows hfilter).imp ?_, call, hcall, hreads⟩
    rintro row coin ⟨v, hrow, hv⟩
    exact rowOfCoin_of_ledger hrow hv

/-- Bitcoin bought twice for 60: its row is that of the coin the API has, and the gain that of the
    four at its price. -/
theorem wallet_served_history :
    ∃ ids shown call, Completes rfc3986 bitcoinAPI.network (.favouriteCoins ids)
        (.ok bitcoinCoins) ∧
      List.Forall₂ (RowOfCoin oneImage exactSwiftText.toDoubleText history)
        (shown : WalletViewPresenter ℚ Unit).viewCellData bitcoinCoins.zipIdx ∧
      shown.configured = [call] ∧
      ReadsAs exactSwiftText.toDoubleText (.configure call) (4 * 47451 - 60) := by
  have hadm : Admissible exactSwiftText.toDoubleText history := admissible_history
  have hslugs : ∀ c, .add c ∈ history →
      c.id ≠ "" ∧ ∀ x ∈ c.id.toList, isUnreserved x = true := by
    intro c hc
    simp only [history, List.mem_cons, Request.add.injEq, List.not_mem_nil, or_false,
      reduceCtorEq] at hc
    rcases hc with rfl | rfl | rfl <;> decide +kernel
  obtain ⟨document, portfolio, ids, hrun, hget, hids, hreq, hcompletes, hshown⟩ :=
    wallet_served exactSwiftText (f := rfc3986) (fun _ h => h) (fun _ _ => rfl)
      bitcoinAPI.reaches_network oneImage hadm hslugs ({} : WalletViewPresenter ℚ Unit)
  -- the portfolio is bitcoin alone
  have hheld : ((runAll exactSwiftText.toDoubleText history).bind fun document =>
      (getPortfolio (.ok document)).map fun portfolio => portfolio.coins.map Coin.id) =
        some ["bitcoin"] := by
    decide +kernel
  rw [hrun, Option.bind_some, hget, Option.map_some, Option.some.injEq] at hheld
  rw [portfolioRead_requests, hheld] at hreq
  obtain rfl : ["bitcoin"] = ids := List.singleton_inj.mp hreq
  have hresult : bitcoinAPI.result rfc3986 (.favouriteCoins ["bitcoin"]) = .ok bitcoinCoins := rfl
  obtain ⟨hrows, call, hcall, hlabels⟩ := hshown bitcoinCoins bitcoinRows hresult
    (by decide +kernel) (fun _ _ => ⟨rfl, rfl⟩) parse_bitcoinCoins
  have hprice : quotedBy exactSwiftText.toDoubleText bitcoinCoins "bitcoin" = 47451 := by
    decide +kernel
  obtain ⟨hvalue, hcost⟩ := totals_history
  simp only [List.map_singleton, List.sum_singleton, hvalue, hcost, hprice] at hlabels
  exact ⟨_, _, call, hresult ▸ hcompletes, hrows, hcall, hlabels⟩

end CryptoWallet
