/-
  File:      CryptoWallet/CoinList/ServedRows.lean
  Subject:   The coin list over the API: from a request to the rows it becomes.

  A request of the list is answered with what its exchange ends with
  (Requests/Conversation.lean), parsed with the images that load by then (CoinModelParser.swift).
  Doubles are read as exact rationals.

  * `Serves`: the answers that the list is given.
  * `rows_served`: **every row is a coin that the API has for a request of the list**, in every
    run.
  * `pages_served`: **scrolling shows the pages of the API**, one after another, at rest.
-/
import CryptoWallet.CoinList.HeldRows
import CryptoWallet.CoinList.Paging
import CryptoWallet.Parser.ParsedCoins
import CryptoWallet.Requests.Conversation

namespace CryptoWallet

open Runs Calls URIs JSONs

variable {Image : Type} {f : Foundation} {net : Network JSON DecodingError (CoinModel ℚ)}
  {T : DoubleText ℚ} {api : API}

/-! ## 1. The answers -/

/-- **The answers to the list's requests** are what their exchanges end with, with images that
    load; an answer whose parsing stops the app is none. -/
def Serves (f : Foundation) (net : Network JSON DecodingError (CoinModel ℚ)) (T : DoubleText ℚ)
    (loads : Images Image → Prop) (w : CoinsList (CoinTableViewCellViewModel ℚ Image)) :
    CoinsListEvent (CoinTableViewCellViewModel ℚ Image) → Prop
  | .action _ => True
  | .success n models => ∃ r coins E, w.presenter.requests[n]? = some r ∧
      Completes f net r (.ok coins) ∧ loads E ∧ parseToViewModels E T coins = some models
  | .failure n => ∃ r e, w.presenter.requests[n]? = some r ∧ Completes f net r (.error e)

/-- The row is a coin of the list. -/
def RowOf (T : DoubleText ℚ) (coins : List (CoinModel ℚ))
    (row : CoinTableViewCellViewModel ℚ Image) : Prop :=
  ∃ coin ∈ coins, ∃ image, viewModel T coin image = some row

/-- Every view model is that of a coin. -/
theorem rowOf_of_compactMapCoins {E : Images Image} {coins : List (CoinModel ℚ × Nat)}
    {models : List (CoinTableViewCellViewModel ℚ Image)}
    (h : compactMapCoins E T coins = some models) :
    ∀ row ∈ models, RowOf T (coins.map Prod.fst) row := by
  induction coins generalizing models with
  | nil =>
      cases h
      simp
  | cons coin coins ih =>
      obtain ⟨v, vs, hv, hvs, rfl⟩ := compactMapCoins_cons.mp h
      intro row hrow
      obtain hrow | hrow := List.mem_append.mp hrow
      · obtain rfl := Option.mem_toList.mp hrow
        exact ⟨coin.1, List.mem_cons_self, _, viewModel_of_parse hv⟩
      · obtain ⟨coin', hmem, himage⟩ := ih hvs row hrow
        exact ⟨coin', List.mem_cons_of_mem _ hmem, himage⟩

theorem rowOf_of_parse {E : Images Image} {coins : List (CoinModel ℚ)}
    {models : List (CoinTableViewCellViewModel ℚ Image)}
    (h : parseToViewModels E T coins = some models) : ∀ row ∈ models, RowOf T coins row := by
  have hrows := rowOf_of_compactMapCoins h
  rwa [List.zipIdx_map_fst] at hrows

/-! ## 2. The rows -/

/-- Each row held is a coin that a request of the list was answered with. -/
def Provided (f : Foundation) (net : Network JSON DecodingError (CoinModel ℚ)) (T : DoubleText ℚ)
    (p : CoinsListViewPresenter (CoinTableViewCellViewModel ℚ Image)) : Prop :=
  ∀ row, p.Holds row → ∃ r ∈ p.requests, ∃ coins,
    Completes f net r (.ok coins) ∧ RowOf T coins row

theorem provided_step {loads : Images Image → Prop}
    {w w' : CoinsList (CoinTableViewCellViewModel ℚ Image)}
    {e : CoinsListEvent (CoinTableViewCellViewModel ℚ Image)} (h : Provided f net T w.presenter)
    (hs : Guarded (Serves f net T loads) CoinsListStep w e w') :
    Provided f net T w'.presenter := by
  obtain ⟨hserves, hs⟩ := hs
  have hsub : ∀ r ∈ w.presenter.requests, r ∈ w'.presenter.requests :=
    fun r hr => hs.requests.subset hr
  intro row hrow
  obtain ha | hold := hs.holds hrow
  · cases e with
    | success n models =>
        obtain ⟨r, coins, E, hr, hcompletes, -, hparse⟩ := hserves
        exact ⟨r, hsub r (List.mem_of_getElem? hr), coins, hcompletes, rowOf_of_parse hparse row ha⟩
    | action => exact ha.elim
    | failure => exact ha.elim
  · obtain ⟨r, hr, hcoins⟩ := h row hold
    exact ⟨r, hsub r hr, hcoins⟩

/-- An object with ether's names and the numbers of bitcoin. -/
def etherObject : Fields :=
  [("id", .string "ethereum"), ("symbol", .string "eth"), ("name", .string "Ethereum")] ++
    (bitcoinObject .null).drop 3

def etherCoins : List (CoinModel ℚ) := [coinIn (.object etherObject)]

def etherRows : List (CoinTableViewCellViewModel ℚ Unit) :=
  (parseToViewModels oneImage exactText etherCoins).getD []

theorem parse_etherCoins : parseToViewModels oneImage exactText etherCoins = some etherRows := by
  have hsome : (parseToViewModels oneImage exactText etherCoins).isSome = true := by
    decide +kernel
  obtain ⟨rows, hrows⟩ := Option.isSome_iff_exists.mp hsome
  rw [etherRows, hrows, Option.getD_some]

/-- An API with ether on the second page and bitcoin on every other. -/
def twoPagesAPI : API where
  search := bitcoinAPI.search
  markets question :=
    if hasParameter "page" "2" question then .array [.object etherObject]
    else .array [.object (bitcoinObject .null)]

section Pages

variable {w : CoinsList (CoinTableViewCellViewModel ℚ Unit)} {n : Nat}
  {loads : Images Unit → Prop}

/-- The answer to a request for the first page. -/
theorem serves_firstPage (h : loads oneImage)
    (hr : w.presenter.requests[n]? = some (.allCurrencies .marketCap 1)) :
    Serves rfc3986 twoPagesAPI.network exactText loads w (.success n bitcoinRows) := by
  have hcompletes : Completes rfc3986 twoPagesAPI.network (.allCurrencies .marketCap 1)
      (.ok bitcoinCoins) :=
    completes_result (r := .allCurrencies .marketCap 1) (fun _ h => h) (fun _ _ => rfl)
      twoPagesAPI.reaches_network trivial
  exact ⟨_, bitcoinCoins, oneImage, hr, hcompletes, h, parse_bitcoinCoins⟩

/-- The answer to a request for the second page. -/
theorem serves_secondPage (h : loads oneImage)
    (hr : w.presenter.requests[n]? = some (.allCurrencies .marketCap 2)) :
    Serves rfc3986 twoPagesAPI.network exactText loads w (.success n etherRows) := by
  have hcompletes : Completes rfc3986 twoPagesAPI.network (.allCurrencies .marketCap 2)
      (.ok etherCoins) :=
    completes_result (r := .allCurrencies .marketCap 2) (fun _ h => h) (fun _ _ => rfl)
      twoPagesAPI.reaches_network trivial
  exact ⟨_, etherCoins, oneImage, hr, hcompletes, h, parse_etherCoins⟩

end Pages

/-- **Every row of the list is a coin that the API has for one of its requests**, a page from the
    first to the 58th or a search, after any run: pages and searches are answered in any order,
    and the images of the rows load or do not. -/
theorem rows_served (hURL : ∀ s : String, (parse s.toList).isSome = true → f.isURL s = true)
    (hf : HasASCIICharacters f) (hreaches : Reaches api net)
    {es : List (CoinsListEvent (CoinTableViewCellViewModel ℚ Image))}
    {w : CoinsList (CoinTableViewCellViewModel ℚ Image)}
    (h : Run (Guarded (Serves f net T fun _ => True) CoinsListStep) {} es w)
    (hasked : ∀ r ∈ w.presenter.requests, api.Asked f r) :
    ∀ row, w.presenter.Holds row → ∃ r ∈ w.presenter.requests, r.InList ∧ ∃ coins,
      api.result f r = .ok coins ∧ RowOf T coins row := by
  have hprovided : Provided f net T w.presenter := by
    refine h.invariant (I := fun w => Provided f net T w.presenter) ?_
      fun _ _ _ hp hs => provided_step hp hs
    exact fun _ hrow => (hrow.elim List.not_mem_nil List.not_mem_nil).elim
  have hlist : w.presenter.InList :=
    h.of_guarded.invariant (I := fun w => w.presenter.InList)
      (fun _ hr => absurd hr List.not_mem_nil) fun _ _ _ hp hs => hs.inList hp
  intro row hrow
  obtain ⟨r, hr, coins, hcompletes, hrowOf⟩ := hprovided row hrow
  have hresult := (completes_result hURL hf hreaches (hasked r hr)).unique hcompletes
  exact ⟨r, hr, hlist r hr, coins, hresult, hrowOf⟩

/-- The screen is loaded, and the first page arrives. -/
theorem rows_served_firstPage :
    ∃ w : CoinsList (CoinTableViewCellViewModel ℚ Unit),
      w.presenter.viewData.map (·.id) = ["bitcoin"] ∧
      ∀ row, w.presenter.Holds row → ∃ r ∈ w.presenter.requests, r.InList ∧ ∃ coins,
        twoPagesAPI.result rfc3986 r = .ok coins ∧ RowOf exactText coins row := by
  have hloaded : Run (Guarded (Serves rfc3986 twoPagesAPI.network exactText
      fun _ : Images Unit => True) CoinsListStep) {} _ loaded :=
    .single (.allow (.action _ .setDefaults) trivial)
  have hrun := hloaded.next (.allow (.success (n := 0) bitcoinRows ⟨rfl, List.not_mem_nil⟩)
    (serves_firstPage trivial rfl))
  refine ⟨_, ?_, rows_served (fun _ h => h) (fun _ _ => rfl) twoPagesAPI.reaches_network hrun ?_⟩
  · decide +kernel
  · intro r hr
    obtain rfl := List.mem_singleton.mp hr
    trivial

/-! ## 3. Scrolling -/

/-- The rows of a page, with the images that load. -/
def API.rows (api : API) (f : Foundation) (E : Images Image) (T : DoubleText ℚ)
    (sortBy : TypeOfSort) (numberOfPage : Int) : List (CoinTableViewCellViewModel ℚ Image) :=
  match api.result f (.allCurrencies sortBy numberOfPage) with
  | .ok coins => (parseToViewModels E T coins).getD []
  | .error _ => []

/-- Rows are displayed, the list is refreshed, and requests succeed. -/
def Scrolls {α : Type} : CoinsListEvent α → Prop
  | .action (.willDisplay _) => True
  | .action (.refreshData _) => True
  | .success _ _ => True
  | _ => False

/-- The sort is the one the screen is loaded with, and only its pages have been asked for. -/
structure OneSort {α : Type} (p : CoinsListViewPresenter α) : Prop where
  listing : p.isSearching = false
  page : 0 < p.numberOfPage
  sort : p.chosenTypeOfSort = .marketCap
  requests : ∀ r ∈ p.requests, ∃ n, r = .allCurrencies .marketCap n

theorem oneSort_loaded {α : Type} : OneSort (loaded : CoinsList α).presenter where
  listing := rfl
  page := Nat.one_pos
  sort := rfl
  requests _ hr := ⟨1, List.mem_singleton.mp hr⟩

theorem OneSort.request {α : Type} {p : CoinsListViewPresenter α} (h : OneSort p) (n : Int) :
    ∀ r ∈ p.requests ++ [.allCurrencies p.chosenTypeOfSort n],
      ∃ n, r = .allCurrencies .marketCap n := by
  intro r hr
  rcases List.mem_append.mp hr with hr | hr
  · exact h.requests r hr
  · rw [List.mem_singleton.mp hr, h.sort]
    exact ⟨n, rfl⟩

/-- Scrolling keeps the sort. -/
theorem OneSort.step {α : Type} {w w' : CoinsList α} {e : CoinsListEvent α}
    (h : OneSort w.presenter) (hscroll : Scrolls e) (hs : CoinsListStep w e w') :
    OneSort w'.presenter := by
  cases hs with
  | failure _ => exact hscroll.elim
  | @success n r models ho =>
      obtain ⟨page, rfl⟩ := h.requests r (List.mem_of_getElem? ho.1)
      show OneSort (w.presenter.setViewData _)
      rw [CoinsListViewPresenter.setViewData_listing h.listing]
      exact ⟨h.listing, h.page, h.sort, h.requests⟩
  | action a =>
      cases a with
      | willDisplay row =>
          rcases CoinsListViewPresenter.willDisplay_cases h.page row with
            ⟨calls, e⟩ | ⟨-, -, -, calls, e⟩
          · show OneSort (w.presenter.willDisplay row)
            rw [e]
            exact ⟨h.listing, h.page, h.sort, h.requests⟩
          · show OneSort (w.presenter.willDisplay row)
            rw [e]
            exact ⟨h.listing, Nat.succ_pos _, h.sort, h.request _⟩
      | refreshData text =>
          have e : w.presenter.refreshData text = w.presenter.setNumberOfPage 1 :=
            if_neg (by rw [h.listing]; simp)
          show OneSort (w.presenter.refreshData text)
          rw [e, CoinsListViewPresenter.setNumberOfPage_one h.listing]
          exact ⟨h.listing, Nat.one_pos, h.sort, h.request _⟩
      | setDefaults => exact hscroll.elim
      | didSelectRowInPickerView row text => exact hscroll.elim
      | searchBarShouldBeginEditing => exact hscroll.elim
      | searchBarButtonClicked type => exact hscroll.elim

/-- What is given to the list while it is scrolled is what the API has for the page. -/
theorem scrolling_of_serves
    (hURL : ∀ s : String, (parse s.toList).isSome = true → f.isURL s = true)
    (hf : HasASCIICharacters f) (hreaches : Reaches api net) {E : Images Image}
    {w : CoinsList (CoinTableViewCellViewModel ℚ Image)}
    {e : CoinsListEvent (CoinTableViewCellViewModel ℚ Image)} (h : OneSort w.presenter)
    (hserves : Serves f net T (· = E) w e) (hscroll : Scrolls e) :
    Scrolling (api.rows f E T .marketCap) w e := by
  cases e with
  | failure => exact hscroll.elim
  | action a => cases a <;> first | exact hscroll.elim | trivial
  | success n models =>
      obtain ⟨r, coins, _, hr, hcompletes, rfl, hparse⟩ := hserves
      obtain ⟨page, rfl⟩ := h.requests r (List.mem_of_getElem? hr)
      have hresult : api.result f (.allCurrencies .marketCap page) = .ok coins :=
        (completes_result (r := .allCurrencies .marketCap page) hURL hf hreaches trivial).unique
          hcompletes
      intro sortBy page' hr'
      rw [hr] at hr'
      cases hr'
      rw [API.rows, hresult]
      show models = (parseToViewModels _ T coins).getD []
      rw [hparse, Option.getD_some]

/-- **Scrolling shows the pages of the API**, each once and in order, whenever every request has
    been answered: through the URLs, the two threads of each request, the reader and the parser,
    where the answers arrive in the order of the requests and a refresh waits for them. -/
theorem pages_served (hURL : ∀ s : String, (parse s.toList).isSome = true → f.isURL s = true)
    (hf : HasASCIICharacters f) (hreaches : Reaches api net) {E : Images Image}
    {es : List (CoinsListEvent (CoinTableViewCellViewModel ℚ Image))}
    {w : CoinsList (CoinTableViewCellViewModel ℚ Image)}
    (h : Run (Guarded (fun w e => Serves f net T (· = E) w e ∧ Scrolls e ∧ InOrder w e)
      CoinsListStep) loaded es w)
    (hq : Quiet w.presenter.requests w.answered) :
    w.presenter.viewData = pages (api.rows f E T .marketCap) w.presenter.numberOfPage := by
  obtain ⟨-, old, j, hI⟩ : OneSort w.presenter ∧
      ∃ old j, Scrolled (api.rows f E T .marketCap) old j w := by
    refine h.invariant (I := fun w => OneSort w.presenter ∧
      ∃ old j, Scrolled (api.rows f E T .marketCap) old j w)
        ⟨oneSort_loaded, [], 0, scrolled_loaded⟩ ?_
    rintro w e w' ⟨hsort, old, j, hI⟩ ⟨⟨hserves, hscroll, horder⟩, hs⟩
    have hscrolling := scrolling_of_serves hURL hf hreaches hsort hserves hscroll
    exact ⟨hsort.step hscroll hs, scrolled_step hI (.allow hs ⟨hscrolling, horder⟩)⟩
  rw [← hI.complete hq]
  exact hI.shown

/-- The first page arrives, its row is displayed, the second arrives; the list is refreshed, and
    both pages arrive again: the list shows them, in order. -/
theorem pages_served_scrollAndRefresh :
    ∃ w : CoinsList (CoinTableViewCellViewModel ℚ Unit),
      w.presenter.viewData.map (·.id) = ["bitcoin", "ethereum"] ∧
      w.presenter.numberOfPage = 2 ∧ w.presenter.requests.length = 4 ∧
      w.presenter.viewData = pages (twoPagesAPI.rows rfc3986 oneImage exactText .marketCap)
        w.presenter.numberOfPage := by
  have h1 : Run (Guarded (fun w e =>
      Serves rfc3986 twoPagesAPI.network exactText (· = oneImage) w e ∧ Scrolls e ∧ InOrder w e)
      CoinsListStep) loaded _ _ :=
    .single (.allow (.success (n := 0) bitcoinRows ⟨rfl, List.not_mem_nil⟩)
      ⟨serves_firstPage rfl rfl, trivial, fun _ hm => absurd hm (Nat.not_lt_zero _)⟩)
  have h2 := h1.next (.allow (.action _ (.willDisplay 0)) ⟨trivial, trivial, trivial⟩)
  have h3 := h2.next (.allow
    (.success (n := 1) (r := .allCurrencies .marketCap 2) etherRows
      ⟨by decide +kernel, by decide⟩)
    ⟨serves_secondPage rfl (by decide +kernel), trivial, show ∀ m < 1, m ∈ [0] by decide⟩)
  have h4 := h3.next (.allow (.action _ (.refreshData none))
    ⟨trivial, trivial, quiet_of_all (by decide +kernel)⟩)
  have h5 := h4.next (.allow
    (.success (n := 2) (r := .allCurrencies .marketCap 1) bitcoinRows
      ⟨by decide +kernel, by decide⟩)
    ⟨serves_firstPage rfl (by decide +kernel), trivial, show ∀ m < 2, m ∈ [0, 1] by decide⟩)
  have h6 := h5.next (.allow (.action _ (.willDisplay 0)) ⟨trivial, trivial, trivial⟩)
  have h7 := h6.next (.allow
    (.success (n := 3) (r := .allCurrencies .marketCap 2) etherRows
      ⟨by decide +kernel, by decide⟩)
    ⟨serves_secondPage rfl (by decide +kernel), trivial, show ∀ m < 3, m ∈ [0, 1, 2] by decide⟩)
  refine ⟨_, ?_, ?_, ?_, pages_served (fun _ h => h) (fun _ _ => rfl)
    twoPagesAPI.reaches_network h7 (quiet_of_all (by decide +kernel))⟩
  · decide +kernel
  · decide +kernel
  · decide +kernel

end CryptoWallet
