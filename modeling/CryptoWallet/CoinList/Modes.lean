/-
  File:      CryptoWallet/CoinList/Modes.lean
  Subject:   The coin list shows one mode and one sort at a time.

  A coin is tagged with the number of the request whose response delivered it. Nothing in the
  code ties a response to the mode or the sort it was asked in, so the list stays unmixed only
  in runs that never bring the two apart.

  * `OfList`, `LastSearch`: the requests whose coins the list, or a search, should hold.
  * `ModeInvariant`: besides the coins shown, the saved list and the sort of the page requests.
  * `list_unmixed`: it holds of every run whose responses are current when they arrive and whose
    cancels find what they restore.
  * `list_mixed`: without that the list mixes, in each of the ways these conditions exclude.
-/
import CryptoWallet.CoinList.CoinsListViewPresenter

namespace CryptoWallet

open Runs Calls

/-! ## 1. Requests and the coins they deliver -/

/-- Request `n` is for a page sorted by `s`, and the list has not been reset since: no first
    page has been requested after it. -/
def OfList (requests : List TypeOfRequest) (n : Nat) (s : TypeOfSort) : Prop :=
  (∃ page, requests[n]? = some (.allCurrencies s page)) ∧
    ∀ m, n < m → ∀ s', requests[m]? ≠ some (.allCurrencies s' 1)

/-- Request `n` is the most recent search. -/
def LastSearch (requests : List TypeOfRequest) (n : Nat) : Prop :=
  (∃ text s, requests[n]? = some (.searchingRequest text s)) ∧
    ∀ m, n < m → ∀ text s, requests[m]? ≠ some (.searchingRequest text s)

variable {requests : List TypeOfRequest} {q : TypeOfRequest} {n : Nat} {s : TypeOfSort}

/-- What is of the list after one more request: what was before, unless the request resets the
    list, or the request itself. -/
theorem ofList_issue (h : OfList (requests ++ [q]) n s) :
    (OfList requests n s ∧ ∀ s', q ≠ .allCurrencies s' 1) ∨
      n = requests.length ∧ ∃ page, q = .allCurrencies s page := by
  obtain ⟨⟨page, hn⟩, hlater⟩ := h
  rcases getElem?_issue.mp hn with hn | ⟨rfl, rfl⟩
  · have hlt : n < requests.length := (List.getElem?_eq_some_iff.mp hn).1
    refine Or.inl ⟨⟨⟨page, hn⟩, fun m hm s' he => ?_⟩, fun s' he => ?_⟩
    · exact hlater m hm s' (getElem?_issue.mpr (Or.inl he))
    · exact hlater _ hlt s' (getElem?_issue.mpr (Or.inr ⟨rfl, he.symm⟩))
  · exact Or.inr ⟨rfl, page, rfl⟩

theorem OfList.issue (h : OfList requests n s) (hq : ∀ s', q ≠ .allCurrencies s' 1) :
    OfList (requests ++ [q]) n s := by
  obtain ⟨⟨page, hn⟩, hlater⟩ := h
  refine ⟨⟨page, getElem?_issue.mpr (Or.inl hn)⟩, fun m hm s' he => ?_⟩
  rcases getElem?_issue.mp he with he | ⟨-, he⟩
  · exact hlater m hm s' he
  · exact hq s' he.symm

theorem ofList_new (requests : List TypeOfRequest) (s : TypeOfSort) (page : Nat) :
    OfList (requests ++ [.allCurrencies s page]) requests.length s := by
  refine ⟨⟨page, getElem?_issue.mpr (Or.inr ⟨rfl, rfl⟩)⟩, fun m hm s' he => ?_⟩
  rcases getElem?_issue.mp he with he | ⟨hlen, -⟩
  · have := (List.getElem?_eq_some_iff.mp he).1
    omega
  · omega

theorem lastSearch_new (requests : List TypeOfRequest) (text : String) (s : TypeOfSort) :
    LastSearch (requests ++ [.searchingRequest text s]) requests.length := by
  refine ⟨⟨text, s, getElem?_issue.mpr (Or.inr ⟨rfl, rfl⟩)⟩, fun m hm text' s' he => ?_⟩
  rcases getElem?_issue.mp he with he | ⟨hlen, -⟩
  · have := (List.getElem?_eq_some_iff.mp he).1
    omega
  · omega

/-! ## 2. The invariant -/

section Modes

variable {κ : Type}

/-- **The list is unmixed**: in a search it holds only coins of the most recent search, outside
    only coins of pages requested since the last reset, in the chosen sort. -/
def Unmixed (p : CoinsListViewPresenter (Nat × κ)) : Prop :=
  (p.isSearching = true → ∀ x ∈ p.viewData, LastSearch p.requests x.1) ∧
    (p.isSearching = false → ∀ x ∈ p.viewData, OfList p.requests x.1 p.chosenTypeOfSort)

structure ModeInvariant (p : CoinsListViewPresenter (Nat × κ)) : Prop where
  unmixed : Unmixed p
  /-- Outside a search, the pages of the list are asked for in the chosen sort. -/
  sorted : p.isSearching = false → ∀ n s, OfList p.requests n s → s = p.chosenTypeOfSort
  /-- What is saved is of the list, but just after a reset. -/
  saved : p.isSearching = true ∨ p.viewData ≠ [] →
    ∀ x ∈ p.tempViewData, ∃ s, OfList p.requests x.1 s
  page : 0 < p.numberOfPage

/-- The saved copies are what a cancel should restore: in a search, the saved list, or nothing
    shown, and the sort of its pages; outside, a list with a page on it. -/
def CancelRestores (p : CoinsListViewPresenter (Nat × κ)) : Prop :=
  (p.isSearching = true → (p.tempViewData ≠ [] ∨ p.viewData = []) ∧
    ∃ t, p.tempChosenTypeOfSort = some t ∧ ∀ n s, OfList p.requests n s → s = t) ∧
  (p.isSearching = false → p.viewData ≠ [] ∨ p.tempViewData = [])

/-- A response brings the coins of its own request. -/
def Delivers : CoinsListEvent (Nat × κ) → Prop
  | .success n models => ∀ x ∈ models, x.1 = n
  | _ => True

/-- A response is current: a page of the list outside a search, the most recent search in one. -/
def Current (p : CoinsListViewPresenter (Nat × κ)) (n : Nat) : Prop :=
  (p.isSearching = true → LastSearch p.requests n) ∧
    (p.isSearching = false → ∃ s, OfList p.requests n s)

/-- The events that keep mode and responses together. -/
def Undisturbed (w : CoinsList (Nat × κ)) (e : CoinsListEvent (Nat × κ)) : Prop :=
  Delivers e ∧
    match e with
    | .success n _ => Current w.presenter n
    | .action .setDefaults => w.presenter.isSearching = false
    | .action (.searchBarButtonClicked .cancel) => CancelRestores w.presenter
    | _ => True

variable {p : CoinsListViewPresenter (Nat × κ)}

/-- A reset leaves nothing that could be mixed. -/
theorem modeInvariant_reset (h : p.isSearching = false) : ModeInvariant (p.setNumberOfPage 1) := by
  rw [CoinsListViewPresenter.setNumberOfPage_one h]
  constructor
  case unmixed =>
      exact ⟨fun _ x hx => absurd hx List.not_mem_nil, fun _ x hx => absurd hx List.not_mem_nil⟩
  case sorted =>
      intro _ n s hof
      rcases ofList_issue hof with ⟨-, hne⟩ | ⟨-, page, he⟩
      · exact absurd rfl (hne p.chosenTypeOfSort)
      · cases he
        rfl
  case saved =>
      rintro (hs | hne)
      · exact Bool.noConfusion (hs.symm.trans h)
      · exact absurd rfl hne
  case page => exact Nat.one_pos

theorem ModeInvariant.setChosenTypeOfSort (hI : ModeInvariant p) (s : TypeOfSort) :
    ModeInvariant (p.setChosenTypeOfSort s) := by
  cases h : p.isSearching with
  | true =>
      rw [CoinsListViewPresenter.setChosenTypeOfSort_searching h]
      exact ⟨⟨hI.unmixed.1, fun hf => Bool.noConfusion (h.symm.trans hf)⟩,
        fun hf => Bool.noConfusion (h.symm.trans hf), hI.saved, hI.page⟩
  | false =>
      rw [CoinsListViewPresenter.setChosenTypeOfSort_listing h]
      dsimp only
      split
      · rename_i hs
        subst hs
        exact ⟨hI.unmixed, hI.sorted, hI.saved, hI.page⟩
      · exact modeInvariant_reset h

theorem ModeInvariant.startSearch (hI : ModeInvariant p) (text : String) :
    ModeInvariant (p.startSearch text) := by
  rw [CoinsListViewPresenter.startSearch_eq]
  constructor
  case unmixed => exact ⟨fun _ x hx => absurd hx List.not_mem_nil, fun hf => by cases hf⟩
  case sorted => exact fun hf => by cases hf
  case saved =>
      intro _ x hx
      have hsaved : ∃ s, OfList p.requests x.1 s := by
        cases h : p.isSearching with
        | true =>
            rw [h] at hx
            exact hI.saved (Or.inl h) x hx
        | false =>
            rw [h] at hx
            exact ⟨_, hI.unmixed.2 h x hx⟩
      obtain ⟨s, hs⟩ := hsaved
      exact ⟨s, hs.issue (by simp)⟩
  case page => exact hI.page

theorem ModeInvariant.updateSearch (hI : ModeInvariant p) (text : Option String) :
    ModeInvariant (p.updateSearchDataforCurrentSort text) := by
  cases text with
  | none => exact hI
  | some text =>
      rw [CoinsListViewPresenter.updateSearchDataforCurrentSort]
      split
      · exact hI.startSearch text
      · exact hI

theorem ModeInvariant.willDisplay (hI : ModeInvariant p) (row : Nat) :
    ModeInvariant (p.willDisplay row) := by
  have hpage := hI.page
  rcases CoinsListViewPresenter.willDisplay_cases hpage row with ⟨calls, e⟩ | ⟨h, -, -, calls, e⟩
  · rw [e]
    exact ⟨hI.unmixed, hI.sorted, hI.saved, hI.page⟩
  · have hq : ∀ s', TypeOfRequest.allCurrencies p.chosenTypeOfSort (p.numberOfPage + 1) ≠
        .allCurrencies s' 1 := by
      intro s' he
      have := (TypeOfRequest.allCurrencies.inj he).2
      omega
    rw [e]
    constructor
    case unmixed =>
        exact ⟨fun hs => Bool.noConfusion (hs.symm.trans h),
          fun _ x hx => (hI.unmixed.2 h x hx).issue hq⟩
    case sorted =>
        intro _ n s hof
        rcases ofList_issue hof with ⟨hof, -⟩ | ⟨-, page, he⟩
        · exact hI.sorted h n s hof
        · cases he
          rfl
    case saved =>
        intro hs x hx
        obtain ⟨s, hof⟩ := hI.saved hs x hx
        exact ⟨s, hof.issue hq⟩
    case page => exact Nat.succ_pos _

/-- Outside a search, a cancel swaps the list with the saved one, and may reset it. -/
theorem ModeInvariant.cancel_listing (hI : ModeInvariant p) (h : p.isSearching = false)
    (hok : p.viewData ≠ [] ∨ p.tempViewData = []) :
    ModeInvariant (p.searchBarButtonClicked .cancel) := by
  have hlist : ∀ x ∈ p.tempViewData, OfList p.requests x.1 p.chosenTypeOfSort := by
    intro x hx
    rcases hok with hne | hnil
    · obtain ⟨s, hof⟩ := hI.saved (Or.inr hne) x hx
      exact hI.sorted h _ _ hof ▸ hof
    · rw [hnil] at hx
      exact absurd hx List.not_mem_nil
  have hq : ModeInvariant p.restoreList ∧ p.restoreList.isSearching = false := by
    obtain ⟨calls, e⟩ := p.restoreList_eq
    rw [e]
    refine ⟨⟨⟨fun hs => Bool.noConfusion (hs.symm.trans h), fun _ x hx => ?_⟩, fun _ => hI.sorted h,
      fun hs x hx => ?_, hI.page⟩, h⟩
    · cases hT : p.tempViewData.isEmpty with
      | true =>
          rw [hT] at hx
          exact hI.unmixed.2 h x hx
      | false =>
          rw [hT] at hx
          exact hlist x hx
    · cases hT : p.tempViewData.isEmpty with
      | true =>
          rw [hT] at hx
          exact ⟨_, hlist x hx⟩
      | false =>
          rw [hT, h] at hx
          exact ⟨_, hI.unmixed.2 h x hx⟩
  show ModeInvariant p.restoreList.restoreSort
  cases ht : p.restoreList.tempChosenTypeOfSort with
  | none =>
      rw [CoinsListViewPresenter.restoreSort, ht]
      exact hq.1
  | some t =>
      rw [CoinsListViewPresenter.restoreSort_listing hq.2 ht]
      exact hq.1.setChosenTypeOfSort t

/-- In a search, a cancel restores the saved list and its sort. -/
theorem ModeInvariant.cancel_searching (hI : ModeInvariant p) (h : p.isSearching = true)
    {t : TypeOfSort} (hlist : p.tempViewData ≠ [] ∨ p.viewData = [])
    (ht : p.tempChosenTypeOfSort = some t) (hsort : ∀ n s, OfList p.requests n s → s = t) :
    ModeInvariant (p.searchBarButtonClicked .cancel) := by
  obtain ⟨calls, e⟩ := CoinsListViewPresenter.cancel_searching h ht
  have hsaved : ∀ x ∈ p.tempViewData, OfList p.requests x.1 t := by
    intro x hx
    obtain ⟨s, hof⟩ := hI.saved (Or.inl h) x hx
    exact hsort _ _ hof ▸ hof
  rw [e]
  refine ⟨⟨fun hs => Bool.noConfusion hs, fun _ x hx => ?_⟩, fun _ => hsort,
    fun _ => hI.saved (Or.inl h), hI.page⟩
  cases hT : p.tempViewData with
  | nil =>
      rw [hT, hlist.resolve_left (by rw [hT]; simp)] at hx
      exact absurd hx List.not_mem_nil
  | cons y ys =>
      rw [hT] at hx
      exact hsaved x (hT ▸ hx)

/-- **One undisturbed step keeps the invariant.** -/
theorem mode_step_invariant {w w' : CoinsList (Nat × κ)} {e : CoinsListEvent (Nat × κ)}
    (hI : ModeInvariant w.presenter) (hs : Guarded Undisturbed CoinsListStep w e w') :
    ModeInvariant w'.presenter := by
  obtain ⟨⟨hdel, hok⟩, hs⟩ := hs
  cases hs with
  | failure _ => exact hI
  | @success n r models ho =>
      have hdel : ∀ x ∈ models, x.1 = n := hdel
      obtain ⟨hsearch, hlist⟩ : Current w.presenter n := hok
      show ModeInvariant (w.presenter.receive r models)
      cases h : w.presenter.isSearching with
      | true =>
          obtain ⟨text, s, hn⟩ := (hsearch h).1
          obtain rfl : r = .searchingRequest text s := Option.some.inj (ho.1.symm.trans hn)
          show ModeInvariant (w.presenter.setViewData models)
          rw [CoinsListViewPresenter.setViewData_searching h]
          refine ⟨⟨fun _ x hx => ?_, fun hf => Bool.noConfusion (h.symm.trans hf)⟩,
            fun hf => Bool.noConfusion (h.symm.trans hf), fun _ => hI.saved (Or.inl h), hI.page⟩
          rw [hdel x hx]
          exact hsearch h
      | false =>
          obtain ⟨s, hof⟩ := hlist h
          obtain ⟨page, hn⟩ := hof.1
          obtain rfl : r = .allCurrencies s page := Option.some.inj (ho.1.symm.trans hn)
          show ModeInvariant (w.presenter.setViewData (w.presenter.viewData ++ models))
          rw [CoinsListViewPresenter.setViewData_listing h]
          refine ⟨⟨fun hs => Bool.noConfusion (hs.symm.trans h), fun _ x hx => ?_⟩,
            fun _ => hI.sorted h, fun _ x hx => ⟨_, hI.unmixed.2 h x hx⟩, hI.page⟩
          rcases List.mem_append.mp hx with hx | hx
          · exact hI.unmixed.2 h x hx
          · rw [hdel x hx]
            exact hI.sorted h _ _ hof ▸ hof
  | action a =>
      show ModeInvariant (w.presenter.act a)
      cases a with
      | setDefaults =>
          have h : w.presenter.isSearching = false := hok
          exact modeInvariant_reset (by simpa using h)
      | willDisplay row => exact hI.willDisplay row
      | refreshData text =>
          show ModeInvariant (w.presenter.refreshData text)
          unfold CoinsListViewPresenter.refreshData
          split
          · exact hI.updateSearch text
          · rename_i h
            exact modeInvariant_reset (by simpa using h)
      | didSelectRowInPickerView row text =>
          exact (hI.setChosenTypeOfSort (sortOfRow row)).updateSearch text
      | searchBarShouldBeginEditing => exact ⟨hI.unmixed, hI.sorted, hI.saved, hI.page⟩
      | searchBarButtonClicked type =>
          cases type with
          | search text =>
              cases text with
              | none => exact hI
              | some text => exact hI.startSearch text
          | cancel =>
              obtain ⟨hsearch, hlist⟩ : CancelRestores w.presenter := hok
              cases h : w.presenter.isSearching with
              | true =>
                  obtain ⟨hne, t, ht, hsort⟩ := hsearch h
                  exact hI.cancel_searching h hne ht hsort
              | false => exact hI.cancel_listing h (hlist h)

theorem mode_invariant_start : ModeInvariant ({} : CoinsListViewPresenter (Nat × κ)) where
  unmixed := ⟨fun hs => Bool.noConfusion hs, fun _ x hx => absurd hx List.not_mem_nil⟩
  sorted := by
    rintro - n s ⟨⟨page, hn⟩, -⟩
    cases hn
  saved _ x hx := absurd hx List.not_mem_nil
  page := Nat.one_pos

/-- **The coin list never mixes modes or sort orders** in an undisturbed run. -/
theorem list_unmixed {es : List (CoinsListEvent (Nat × κ))} {w : CoinsList (Nat × κ)}
    (h : Run (Guarded Undisturbed CoinsListStep) {} es w) : Unmixed w.presenter :=
  (h.invariant (I := fun w => ModeInvariant w.presenter) mode_invariant_start
    fun _ _ _ hI hs => mode_step_invariant hI hs).unmixed

end Modes

/-! ## 3. Runs -/

/-- The list loads, a search shows its results, and a cancel restores the list. -/
def searchAndBack : List (CoinsListEvent (Nat × String)) :=
  [.action .setDefaults, .success 0 [(0, "bitcoin")], .action .searchBarShouldBeginEditing,
    .action (.searchBarButtonClicked (.search (some "eth"))), .success 1 [(1, "ethereum")],
    .action (.searchBarButtonClicked .cancel)]

theorem list_unmixed_searchAndBack :
    ∃ w : CoinsList (Nat × String), Run (Guarded Undisturbed CoinsListStep) {} searchAndBack w ∧
      w.presenter.viewData = [(0, "bitcoin")] ∧ Unmixed w.presenter := by
  have hsort : ∀ n s, OfList ([.allCurrencies .marketCap 1] ++ [.searchingRequest "eth" .marketCap])
      n s → s = .marketCap := by
    intro n s hof
    rcases ofList_issue hof with ⟨hof, -⟩ | ⟨-, _, he⟩
    · obtain ⟨page, hn⟩ := hof.1
      cases n with
      | zero => cases hn; rfl
      | succ n => cases hn
    · cases he
  have h1 : Run (Guarded Undisturbed CoinsListStep) ({} : CoinsList (Nat × String)) _ _ :=
    .single (.allow (.action _ .setDefaults) ⟨trivial, rfl⟩)
  have h2 := h1.next (.allow (.success (n := 0) [(0, "bitcoin")] ⟨rfl, List.not_mem_nil⟩) (by
    show Delivers _ ∧ Current _ 0
    exact ⟨by simp [Delivers], fun hs => Bool.noConfusion hs,
      fun _ => ⟨.marketCap, ofList_new [] .marketCap 1⟩⟩))
  have h3 := h2.next (.allow (.action _ .searchBarShouldBeginEditing) ⟨trivial, trivial⟩)
  have h4 := h3.next (.allow (.action _ (.searchBarButtonClicked (.search (some "eth"))))
    ⟨trivial, trivial⟩)
  have h5 := h4.next (.allow (.success (n := 1) [(1, "ethereum")] ⟨rfl, by simp⟩) (by
    show Delivers _ ∧ Current _ 1
    exact ⟨by simp [Delivers],
      fun _ => lastSearch_new [.allCurrencies .marketCap 1] "eth" .marketCap,
      fun hs => Bool.noConfusion hs⟩))
  have h6 := h5.next (.allow (.action _ (.searchBarButtonClicked .cancel)) (by
    show True ∧ CancelRestores _
    exact ⟨trivial, fun _ => ⟨Or.inl (List.cons_ne_nil _ _), .marketCap, rfl, hsort⟩,
      fun hs => Bool.noConfusion hs⟩))
  exact ⟨_, h6, rfl, list_unmixed h6⟩

/-- Every response is current. -/
def CurrentResponses {κ : Type} (w : CoinsList (Nat × κ)) (e : CoinsListEvent (Nat × κ)) : Prop :=
  Delivers e ∧
    match e with
    | .success n _ => Current w.presenter n
    | _ => True

/-- The first page arrives after a search has begun. -/
def pageInSearch : List (CoinsListEvent (Nat × String)) :=
  [.action .setDefaults, .action .searchBarShouldBeginEditing,
    .action (.searchBarButtonClicked (.search (some "eth"))), .success 0 [(0, "bitcoin")]]

/-- The first page is shown. -/
def firstPage : List (CoinsListEvent (Nat × String)) :=
  [.action .setDefaults, .success 0 [(0, "bitcoin")]]

/-- The list is refreshed, and a cancel outside a search comes before the page. -/
def cancelAfterReset : List (CoinsListEvent (Nat × String)) :=
  firstPage ++ [.action (.refreshData none), .action (.searchBarButtonClicked .cancel)]

/-- The defaults are set in a search, which is then cancelled. -/
def defaultsInSearch : List (CoinsListEvent (Nat × String)) :=
  firstPage ++ [.action .searchBarShouldBeginEditing,
    .action (.searchBarButtonClicked (.search (some "eth"))), .action .setDefaults,
    .action (.searchBarButtonClicked .cancel)]

/-- Editing begins again once another sort has been picked in a search. -/
def editingAgain : List (CoinsListEvent (Nat × String)) :=
  firstPage ++ [.action .searchBarShouldBeginEditing,
    .action (.searchBarButtonClicked (.search (some "eth"))),
    .action (.didSelectRowInPickerView ⟨1, by decide⟩ none), .action .searchBarShouldBeginEditing,
    .action (.searchBarButtonClicked .cancel)]

/-- A coin that an earlier page request delivered is not of a list that has been reset since. -/
theorem not_ofList_of_reset {m : Nat} {s' : TypeOfSort} (hm : n < m)
    (hreset : requests[m]? = some (.allCurrencies s' 1)) : ¬ OfList requests n s :=
  fun h => h.2 m hm s' hreset

theorem run_firstPage : ∃ calls, Run (Guarded CurrentResponses CoinsListStep) {} firstPage
    (⟨{ viewData := [(0, "bitcoin")], requests := [.allCurrencies .marketCap 1],
        viewCalls := calls }, [0]⟩ : CoinsList (Nat × String)) := by
  have h1 : Run (Guarded CurrentResponses CoinsListStep) ({} : CoinsList (Nat × String)) _ _ :=
    .single (.allow (.action _ .setDefaults) ⟨trivial, trivial⟩)
  have h2 := h1.next (.allow (.success (n := 0) [(0, "bitcoin")] ⟨rfl, List.not_mem_nil⟩) (by
    show Delivers _ ∧ Current _ 0
    exact ⟨by simp [Delivers], fun hs => Bool.noConfusion hs,
      fun _ => ⟨.marketCap, ofList_new [] .marketCap 1⟩⟩))
  exact ⟨_, h2⟩

/-- **Without these conditions the list mixes**: a page is shown among the results of a search
    when its response arrives there; and with all responses current, a cancel brings back coins
    of before a reset, where the reset came just before it or in the search, and coins of
    another sort, where editing began again. -/
theorem list_mixed :
    (∃ w : CoinsList (Nat × String),
      Run (Guarded (fun _ e => Delivers e) CoinsListStep) {} pageInSearch w ∧
        ¬ Unmixed w.presenter) ∧
    (∃ w : CoinsList (Nat × String),
      Run (Guarded CurrentResponses CoinsListStep) {} cancelAfterReset w ∧
        ¬ Unmixed w.presenter) ∧
    (∃ w : CoinsList (Nat × String),
      Run (Guarded CurrentResponses CoinsListStep) {} defaultsInSearch w ∧
        ¬ Unmixed w.presenter) ∧
    ∃ w : CoinsList (Nat × String),
      Run (Guarded CurrentResponses CoinsListStep) {} editingAgain w ∧ ¬ Unmixed w.presenter := by
  obtain ⟨calls, h⟩ := run_firstPage
  refine ⟨?_, ?_, ?_, ?_⟩
  · have h1 : Run (Guarded (fun _ e => Delivers e) CoinsListStep)
        ({} : CoinsList (Nat × String)) _ _ :=
      .single (.allow (.action _ .setDefaults) trivial)
    have h2 := h1.next (.allow (.action _ .searchBarShouldBeginEditing) trivial)
    have h3 := h2.next (.allow (.action _ (.searchBarButtonClicked (.search (some "eth")))) trivial)
    have h4 := h3.next (.allow (.success (n := 0) [(0, "bitcoin")] ⟨rfl, by decide⟩)
      (by simp [Delivers]))
    refine ⟨_, h4, fun hu => ?_⟩
    -- request 0 is a page, so it is not the most recent search
    obtain ⟨⟨text, s, hn⟩, -⟩ := hu.1 rfl (0, "bitcoin") (List.mem_singleton_self _)
    cases hn
  · have h1 := h.next (.allow (.action _ (.refreshData none)) ⟨trivial, trivial⟩)
    have h2 := h1.next (.allow (.action _ (.searchBarButtonClicked .cancel)) ⟨trivial, trivial⟩)
    refine ⟨_, h2, fun hu => ?_⟩
    exact not_ofList_of_reset Nat.zero_lt_one rfl
      (hu.2 rfl (0, "bitcoin") (List.mem_singleton_self _))
  · have h1 := h.next (.allow (.action _ .searchBarShouldBeginEditing) ⟨trivial, trivial⟩)
    have h2 := h1.next (.allow (.action _ (.searchBarButtonClicked (.search (some "eth"))))
      ⟨trivial, trivial⟩)
    have h3 := h2.next (.allow (.action _ .setDefaults) ⟨trivial, trivial⟩)
    have h4 := h3.next (.allow (.action _ (.searchBarButtonClicked .cancel)) ⟨trivial, trivial⟩)
    refine ⟨_, h4, fun hu => ?_⟩
    exact not_ofList_of_reset Nat.zero_lt_two rfl
      (hu.2 rfl (0, "bitcoin") (List.mem_singleton_self _))
  · have h1 := h.next (.allow (.action _ .searchBarShouldBeginEditing) ⟨trivial, trivial⟩)
    have h2 := h1.next (.allow (.action _ (.searchBarButtonClicked (.search (some "eth"))))
      ⟨trivial, trivial⟩)
    have h3 := h2.next (.allow (.action _ (.didSelectRowInPickerView ⟨1, by decide⟩ none))
      ⟨trivial, trivial⟩)
    have h4 := h3.next (.allow (.action _ .searchBarShouldBeginEditing) ⟨trivial, trivial⟩)
    have h5 := h4.next (.allow (.action _ (.searchBarButtonClicked .cancel)) ⟨trivial, trivial⟩)
    refine ⟨_, h5, fun hu => ?_⟩
    -- the chosen sort is now the one picked in the search
    have hof : OfList _ 0 .volume := hu.2 rfl (0, "bitcoin") (List.mem_singleton_self _)
    obtain ⟨page, hn⟩ := hof.1
    cases hn

end CryptoWallet
