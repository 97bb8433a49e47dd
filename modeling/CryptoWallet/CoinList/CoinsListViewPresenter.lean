/-
  File:      CryptoWallet/CoinList/CoinsListViewPresenter.lean
  Subject:   The coin list (CoinsListViewPresenter.swift) and its runs.

  Three properties have observers that set each other: each is a setter below, in the words of
  its `didSet`. What the presenter asks of others is logged: the requests it makes and the calls
  of its view. A response carries no request; its callback is that of the request's kind: a
  search replaces the list, a page goes to its end.

  * `CoinsList`, `CoinsListStep`: the presenter among its requests, answered at any time and in
    any order, with success or failure.
  * `setNumberOfPage_one`, `setChosenTypeOfSort_listing`, `startSearch_eq` and their neighbours:
    what each setter leaves behind, with all observers it triggers.
-/
import CryptoWallet.APICaller
import CryptoWallet.Library.Calls
import CryptoWallet.Library.Runs

namespace CryptoWallet

open Runs Calls

/-! ## 1. The presenter -/

/-- A call of the view. -/
inductive ListViewCall where
  | tableViewReloadData
  | setTitleForTypeOfSortLabel (name : String)
  | setupActivityIndicator
  | stopActivityIndicator
  deriving DecidableEq, Repr

inductive SearchBarButtonTapType where
  | search (text : Option String)
  | cancel
  deriving DecidableEq, Repr

structure CoinsListViewPresenter (α : Type) where
  isSearching : Bool := false
  /-- An `Int` of the code, which never sets it below 1. -/
  numberOfPage : Nat := 1
  viewData : List α := []
  tempViewData : List α := []
  chosenTypeOfSort : TypeOfSort := .marketCap
  tempChosenTypeOfSort : Option TypeOfSort := none
  /-- The requests made, oldest first. -/
  requests : List TypeOfRequest := []
  /-- The calls of the view, oldest first. -/
  viewCalls : List ListViewCall := []
  deriving DecidableEq, Repr

namespace CoinsListViewPresenter

variable {α : Type} (p : CoinsListViewPresenter α)

/-- A call of the view. -/
def call (c : ListViewCall) : CoinsListViewPresenter α := { p with viewCalls := p.viewCalls ++ [c] }

/-- `getViewModels`; its callback is `receive`. -/
def getViewModels (typeOfRequest : TypeOfRequest) : CoinsListViewPresenter α :=
  { p with requests := p.requests ++ [typeOfRequest] }

/-- An assignment to `viewData` with its `didSet`. -/
def setViewData (newValue : List α) : CoinsListViewPresenter α :=
  let q := { p with viewData := newValue }.call .tableViewReloadData
  if !p.isSearching then { q with tempViewData := p.viewData } else q

/-- An assignment to `numberOfPage` with its `didSet`. -/
def setNumberOfPage (newValue : Nat) : CoinsListViewPresenter α :=
  let q := { p with numberOfPage := newValue }
  let q := if newValue = 1 then q.setViewData [] else q
  q.getViewModels (.allCurrencies q.chosenTypeOfSort newValue)

def resetPageNumber (oldChosenTypeOfSort : TypeOfSort) : CoinsListViewPresenter α :=
  if p.chosenTypeOfSort ≠ oldChosenTypeOfSort then p.setNumberOfPage 1 else p

/-- An assignment to `chosenTypeOfSort` with its `didSet`. -/
def setChosenTypeOfSort (newValue : TypeOfSort) : CoinsListViewPresenter α :=
  let q := { p with chosenTypeOfSort := newValue }.call (.setTitleForTypeOfSortLabel newValue.name)
  if !p.isSearching then q.resetPageNumber p.chosenTypeOfSort else q

/-- What a search does once it has a text. -/
def startSearch (text : String) : CoinsListViewPresenter α :=
  { p.setViewData [] with isSearching := true }.getViewModels
    (.searchingRequest text p.chosenTypeOfSort)

def updateSearchDataforCurrentSort : Option String → CoinsListViewPresenter α
  | none => p
  | some text => if p.isSearching then p.startSearch text else p

def refreshData (searchingText : Option String) : CoinsListViewPresenter α :=
  if p.isSearching then p.updateSearchDataforCurrentSort searchingText else p.setNumberOfPage 1

def setDefaults : CoinsListViewPresenter α :=
  (p.setChosenTypeOfSort .marketCap).setNumberOfPage 1

def didSelectRowInPickerView (row : Fin sortingNames.length) (searchingText : Option String) :
    CoinsListViewPresenter α :=
  (p.setChosenTypeOfSort (sortOfRow row)).updateSearchDataforCurrentSort searchingText

/-- The first statement of a cancel: the saved list, if it is not empty. -/
def restoreList : CoinsListViewPresenter α :=
  if p.tempViewData.isEmpty then p else p.setViewData p.tempViewData

/-- The rest of a cancel: the saved sort, and the end of the search; nothing where no sort is
    saved. -/
def restoreSort : CoinsListViewPresenter α :=
  match p.tempChosenTypeOfSort with
  | none => p
  | some tempChosenTypeOfSort =>
      { p.setChosenTypeOfSort tempChosenTypeOfSort with isSearching := false }

def searchBarButtonClicked : SearchBarButtonTapType → CoinsListViewPresenter α
  | .search none => p
  | .search (some text) => p.startSearch text
  | .cancel => p.restoreList.restoreSort

def searchBarShouldBeginEditing : CoinsListViewPresenter α :=
  { p with tempChosenTypeOfSort := some p.chosenTypeOfSort }

def updateViewData (data : List α) : CoinsListViewPresenter α := p.setViewData (p.viewData ++ data)

def willDisplay (row : Nat) : CoinsListViewPresenter α :=
  if !p.isSearching && decide (p.numberOfPage < 58) then
    if (row : Int) = (p.viewData.length : Int) - 1 then
      (p.call .setupActivityIndicator).setNumberOfPage (p.numberOfPage + 1)
    else p
  else p.call .stopActivityIndicator

/-- The callback of a request, on success. The list makes no request for favourite coins. -/
def receive (typeOfRequest : TypeOfRequest) (models : List α) : CoinsListViewPresenter α :=
  match typeOfRequest with
  | .searchingRequest _ _ => p.setViewData models
  | .allCurrencies _ _ => p.updateViewData models
  | .favouriteCoins _ => p

end CoinsListViewPresenter

/-! ## 2. Runs -/

/-- What the user does. -/
inductive Action where
  | setDefaults
  | willDisplay (row : Nat)
  | refreshData (searchingText : Option String)
  | didSelectRowInPickerView (row : Fin sortingNames.length) (searchingText : Option String)
  | searchBarShouldBeginEditing
  | searchBarButtonClicked (type : SearchBarButtonTapType)
  deriving DecidableEq, Repr

variable {α : Type}

namespace CoinsListViewPresenter

def act (p : CoinsListViewPresenter α) : Action → CoinsListViewPresenter α
  | .setDefaults => p.setDefaults
  | .willDisplay row => p.willDisplay row
  | .refreshData searchingText => p.refreshData searchingText
  | .didSelectRowInPickerView row searchingText => p.didSelectRowInPickerView row searchingText
  | .searchBarShouldBeginEditing => p.searchBarShouldBeginEditing
  | .searchBarButtonClicked type => p.searchBarButtonClicked type

end CoinsListViewPresenter

/-- The presenter and the numbers of its requests that have been answered. -/
structure CoinsList (α : Type) where
  presenter : CoinsListViewPresenter α := {}
  answered : List Nat := []

inductive CoinsListEvent (α : Type) where
  | action (a : Action)
  /-- Request `n` succeeds. -/
  | success (n : Nat) (models : List α)
  /-- Request `n` fails. -/
  | failure (n : Nat)

inductive CoinsListStep : CoinsList α → CoinsListEvent α → CoinsList α → Prop where
  | action (w : CoinsList α) (a : Action) :
      CoinsListStep w (.action a) { w with presenter := w.presenter.act a }
  | success {w : CoinsList α} {n : Nat} {r : TypeOfRequest} (models : List α)
      (h : Outstanding w.presenter.requests w.answered n r) :
      CoinsListStep w (.success n models)
        ⟨w.presenter.receive r models, w.answered ++ [n]⟩
  | failure {w : CoinsList α} {n : Nat} {r : TypeOfRequest}
      (h : Outstanding w.presenter.requests w.answered n r) :
      CoinsListStep w (.failure n) { w with answered := w.answered ++ [n] }

/-! ## 3. What the setters do, in the list and in a search -/

namespace CoinsListViewPresenter

variable {p : CoinsListViewPresenter α}

theorem setViewData_listing (h : p.isSearching = false) (v : List α) :
    p.setViewData v =
      { p with
        viewData := v
        tempViewData := p.viewData
        viewCalls := p.viewCalls ++ [.tableViewReloadData] } := by
  simp [setViewData, call, h]

theorem setViewData_searching (h : p.isSearching = true) (v : List α) :
    p.setViewData v =
      { p with viewData := v, viewCalls := p.viewCalls ++ [.tableViewReloadData] } := by
  simp [setViewData, call, h]

/-- **A reset of the list**: it is emptied, and its first page requested. -/
theorem setNumberOfPage_one (h : p.isSearching = false) :
    p.setNumberOfPage 1 =
      { p with
        numberOfPage := 1
        viewData := []
        tempViewData := p.viewData
        requests := p.requests ++ [.allCurrencies p.chosenTypeOfSort 1]
        viewCalls := p.viewCalls ++ [.tableViewReloadData] } := by
  simp [setNumberOfPage, getViewModels, setViewData, call, h]

theorem setNumberOfPage_next {n : Nat} (h : n ≠ 1) :
    p.setNumberOfPage n =
      { p with
        numberOfPage := n
        requests := p.requests ++ [.allCurrencies p.chosenTypeOfSort n] } := by
  simp [setNumberOfPage, getViewModels, h]

theorem setChosenTypeOfSort_searching (h : p.isSearching = true) (s : TypeOfSort) :
    p.setChosenTypeOfSort s =
      { p with
        chosenTypeOfSort := s
        viewCalls := p.viewCalls ++ [.setTitleForTypeOfSortLabel s.name] } := by
  simp [setChosenTypeOfSort, call, h]

/-- **Outside a search a new sort resets the list**, the same sort only sets the title again. -/
theorem setChosenTypeOfSort_listing (h : p.isSearching = false) (s : TypeOfSort) :
    p.setChosenTypeOfSort s =
      let q := { p with
        chosenTypeOfSort := s
        viewCalls := p.viewCalls ++ [.setTitleForTypeOfSortLabel s.name] }
      if s = p.chosenTypeOfSort then q else q.setNumberOfPage 1 := by
  simp [setChosenTypeOfSort, call, resetPageNumber, h]

@[simp] theorem setViewData_isSearching (v : List α) :
    (p.setViewData v).isSearching = p.isSearching := by
  unfold setViewData
  split <;> rfl

@[simp] theorem setNumberOfPage_isSearching (n : Nat) :
    (p.setNumberOfPage n).isSearching = p.isSearching := by
  unfold setNumberOfPage
  split
  · exact setViewData_isSearching []
  · rfl

@[simp] theorem setChosenTypeOfSort_isSearching (s : TypeOfSort) :
    (p.setChosenTypeOfSort s).isSearching = p.isSearching := by
  cases h : p.isSearching with
  | true => rw [setChosenTypeOfSort_searching h, h]
  | false =>
      rw [setChosenTypeOfSort_listing h]
      dsimp only
      split
      · exact h
      · rw [setNumberOfPage_isSearching]
        exact h

/-- **A search empties the list and asks**; outside a search it saves the list first. -/
theorem startSearch_eq (text : String) :
    p.startSearch text =
      { p with
        isSearching := true
        viewData := []
        tempViewData := if p.isSearching then p.tempViewData else p.viewData
        requests := p.requests ++ [.searchingRequest text p.chosenTypeOfSort]
        viewCalls := p.viewCalls ++ [.tableViewReloadData] } := by
  cases h : p.isSearching <;> simp [startSearch, setViewData, call, getViewModels, h]

/-- The saved list comes back, unless none is saved; outside a search the list is saved for it. -/
theorem restoreList_eq (p : CoinsListViewPresenter α) :
    ∃ calls, p.restoreList =
      { p with
        viewData := if p.tempViewData.isEmpty then p.viewData else p.tempViewData
        tempViewData :=
          if p.tempViewData.isEmpty || p.isSearching then p.tempViewData else p.viewData
        viewCalls := calls } := by
  obtain ⟨isSearching, page, list, saved, sort, savedSort, requests, calls⟩ := p
  cases isSearching <;> cases saved <;> exact ⟨_, rfl⟩

theorem restoreSort_listing (h : p.isSearching = false) {t : TypeOfSort}
    (ht : p.tempChosenTypeOfSort = some t) : p.restoreSort = p.setChosenTypeOfSort t := by
  have key : ∀ q : CoinsListViewPresenter α, q.isSearching = false →
      { q with isSearching := false } = q := by
    rintro ⟨isSearching, page, list, saved, sort, savedSort, requests, calls⟩ hq
    obtain rfl : isSearching = false := hq
    rfl
  unfold restoreSort
  rw [ht]
  exact key _ (by simpa using h)

theorem restoreSort_searching (h : p.isSearching = true) {t : TypeOfSort}
    (ht : p.tempChosenTypeOfSort = some t) :
    ∃ calls, p.restoreSort =
      { p with isSearching := false, chosenTypeOfSort := t, viewCalls := calls } := by
  obtain ⟨isSearching, page, list, saved, sort, savedSort, requests, calls⟩ := p
  obtain rfl : isSearching = true := h
  obtain rfl : savedSort = some t := ht
  exact ⟨_, rfl⟩

/-- **A cancel of a search** restores the saved list, unless none is saved, and the saved sort. -/
theorem cancel_searching (h : p.isSearching = true) {t : TypeOfSort}
    (ht : p.tempChosenTypeOfSort = some t) :
    ∃ calls, p.searchBarButtonClicked .cancel =
      { p with
        isSearching := false
        viewData := if p.tempViewData.isEmpty then p.viewData else p.tempViewData
        chosenTypeOfSort := t
        viewCalls := calls } := by
  obtain ⟨calls, e⟩ := p.restoreList_eq
  rw [h, Bool.or_true, if_pos rfl] at e
  have hs : p.restoreList.isSearching = true := by rw [e]
  have hts : p.restoreList.tempChosenTypeOfSort = some t := by rw [e]; exact ht
  obtain ⟨calls', e'⟩ := restoreSort_searching hs hts
  refine ⟨calls', ?_⟩
  show p.restoreList.restoreSort = _
  rw [e', e]

/-- **A cancel outside a search** where the chosen sort is the saved one swaps the list with the
    saved list, unless none is saved. -/
theorem cancel_listing (h : p.isSearching = false)
    (ht : p.tempChosenTypeOfSort = some p.chosenTypeOfSort) :
    ∃ calls, p.searchBarButtonClicked .cancel =
      { p with
        viewData := if p.tempViewData.isEmpty then p.viewData else p.tempViewData
        tempViewData := if p.tempViewData.isEmpty then p.tempViewData else p.viewData
        viewCalls := calls } := by
  obtain ⟨calls, e⟩ := p.restoreList_eq
  rw [h, Bool.or_false] at e
  have hs : p.restoreList.isSearching = false := by rw [e]
  have hts : p.restoreList.tempChosenTypeOfSort = some p.chosenTypeOfSort := by rw [e]; exact ht
  have hc : p.chosenTypeOfSort = p.restoreList.chosenTypeOfSort := by rw [e]
  refine ⟨calls ++ [.setTitleForTypeOfSortLabel p.chosenTypeOfSort.name], ?_⟩
  show p.restoreList.restoreSort = _
  rw [restoreSort_listing hs hts, setChosenTypeOfSort_listing hs, if_pos hc, e, h]

/-- **A row display** asks for the next page, or only calls the view: it asks at the last row of
    a list that may grow. -/
theorem willDisplay_cases (hpage : 0 < p.numberOfPage) (row : Nat) :
    (∃ calls, p.willDisplay row = { p with viewCalls := calls }) ∨
      p.isSearching = false ∧ p.numberOfPage < 58 ∧ row + 1 = p.viewData.length ∧
        ∃ calls, p.willDisplay row =
          { p with
            numberOfPage := p.numberOfPage + 1
            requests := p.requests ++ [.allCurrencies p.chosenTypeOfSort (p.numberOfPage + 1)]
            viewCalls := calls } := by
  unfold willDisplay
  split
  · rename_i hcond
    obtain ⟨hs, hn⟩ := Bool.and_eq_true_iff.mp hcond
    split
    · rename_i hrow
      have hne : p.numberOfPage + 1 ≠ 1 := by omega
      refine Or.inr ⟨by simpa using hs, of_decide_eq_true hn, by omega,
        p.viewCalls ++ [.setupActivityIndicator], ?_⟩
      exact setNumberOfPage_next hne
    · exact Or.inl ⟨p.viewCalls, rfl⟩
  · exact Or.inl ⟨_, rfl⟩

theorem willDisplay_searching (h : p.isSearching = true) (row : Nat) :
    p.willDisplay row = p.call .stopActivityIndicator := by
  unfold willDisplay
  rw [h]
  rfl

theorem updateSearch_searching (h : p.isSearching = true) (text : String) :
    p.updateSearchDataforCurrentSort (some text) = p.startSearch text :=
  if_pos h

/-! ## 4. What the list shows -/

@[simp] theorem setViewData_viewData (v : List α) : (p.setViewData v).viewData = v := by
  unfold setViewData
  split <;> rfl

theorem setNumberOfPage_viewData (n : Nat) :
    (p.setNumberOfPage n).viewData = if n = 1 then [] else p.viewData := by
  show (if n = 1 then { p with numberOfPage := n }.setViewData []
    else { p with numberOfPage := n }).viewData = _
  split
  · exact setViewData_viewData []
  · rfl

theorem setChosenTypeOfSort_viewData (s : TypeOfSort) :
    (p.setChosenTypeOfSort s).viewData =
      if p.isSearching = false ∧ s ≠ p.chosenTypeOfSort then [] else p.viewData := by
  cases h : p.isSearching with
  | true => rw [setChosenTypeOfSort_searching h, if_neg (by simp)]
  | false =>
      rw [setChosenTypeOfSort_listing h]
      dsimp only
      by_cases hs : s = p.chosenTypeOfSort
      · rw [if_pos hs, if_neg (by simp [hs])]
      · rw [if_neg hs, if_pos ⟨rfl, hs⟩]
        exact setNumberOfPage_viewData 1

theorem updateSearch_viewData (text : Option String) :
    (p.updateSearchDataforCurrentSort text).viewData =
      if p.isSearching = true ∧ text.isSome then [] else p.viewData := by
  cases text with
  | none => rw [if_neg (by simp)]; rfl
  | some text =>
      rw [updateSearchDataforCurrentSort]
      by_cases h : p.isSearching = true
      · rw [if_pos h, if_pos ⟨h, rfl⟩, startSearch_eq]
      · rw [if_neg h, if_neg fun hc => h hc.1]

theorem restoreSort_viewData :
    p.restoreSort.viewData =
      if p.isSearching = false ∧ ∃ s ∈ p.tempChosenTypeOfSort, s ≠ p.chosenTypeOfSort then []
      else p.viewData := by
  unfold restoreSort
  cases p.tempChosenTypeOfSort with
  | none => rw [if_neg (by simp)]
  | some s =>
      show (p.setChosenTypeOfSort s).viewData = _
      rw [setChosenTypeOfSort_viewData]
      simp only [Option.mem_def, Option.some.injEq, exists_eq_left']

/-- A cancel shows the saved list, if there is one, unless it resets the list. -/
theorem cancel_viewData :
    (p.searchBarButtonClicked .cancel).viewData =
      if p.isSearching = false ∧ ∃ s ∈ p.tempChosenTypeOfSort, s ≠ p.chosenTypeOfSort then []
      else if p.tempViewData.isEmpty then p.viewData else p.tempViewData := by
  obtain ⟨calls, e⟩ := p.restoreList_eq
  show p.restoreList.restoreSort.viewData = _
  rw [restoreSort_viewData, e]

/-! ## 5. Requests are only added -/

theorem setViewData_requests (v : List α) : (p.setViewData v).requests = p.requests := by
  unfold setViewData
  split <;> rfl

theorem setNumberOfPage_requests (n : Nat) :
    p.requests <+: (p.setNumberOfPage n).requests := by
  unfold setNumberOfPage
  split
  · exact ⟨_, congrArg (· ++ _) (setViewData_requests (p := { p with numberOfPage := n }) []).symm⟩
  · exact List.prefix_append _ _

theorem setChosenTypeOfSort_requests (s : TypeOfSort) :
    p.requests <+: (p.setChosenTypeOfSort s).requests := by
  cases h : p.isSearching with
  | true => exact ⟨[], by rw [setChosenTypeOfSort_searching h, List.append_nil]⟩
  | false =>
      rw [setChosenTypeOfSort_listing h]
      dsimp only
      split
      · exact List.prefix_rfl
      · exact setNumberOfPage_requests (p := { p with chosenTypeOfSort := s, viewCalls := _ }) 1

theorem updateSearch_requests (text : Option String) :
    p.requests <+: (p.updateSearchDataforCurrentSort text).requests := by
  cases text with
  | none => exact List.prefix_rfl
  | some text =>
      rw [updateSearchDataforCurrentSort]
      split
      · rw [startSearch_eq]
        exact List.prefix_append _ _
      · exact List.prefix_rfl

theorem restoreSort_requests : p.requests <+: p.restoreSort.requests := by
  unfold restoreSort
  split
  · exact List.prefix_rfl
  · exact setChosenTypeOfSort_requests _

theorem act_requests (p : CoinsListViewPresenter α) (a : Action) :
    p.requests <+: (p.act a).requests := by
  cases a with
  | setDefaults => exact (setChosenTypeOfSort_requests _).trans (setNumberOfPage_requests 1)
  | willDisplay row =>
      show p.requests <+: (p.willDisplay row).requests
      unfold willDisplay
      split
      · split
        · exact setNumberOfPage_requests (p := p.call _) _
        · exact List.prefix_rfl
      · exact List.prefix_rfl
  | refreshData text =>
      show p.requests <+: (p.refreshData text).requests
      unfold refreshData
      split
      · exact updateSearch_requests text
      · exact setNumberOfPage_requests 1
  | didSelectRowInPickerView row text =>
      exact (setChosenTypeOfSort_requests _).trans (updateSearch_requests text)
  | searchBarShouldBeginEditing => exact List.prefix_rfl
  | searchBarButtonClicked type =>
      cases type with
      | search text =>
          cases text with
          | none => exact List.prefix_rfl
          | some text =>
              show p.requests <+: (p.startSearch text).requests
              rw [startSearch_eq]
              exact List.prefix_append _ _
      | cancel =>
          obtain ⟨calls, e⟩ := p.restoreList_eq
          have h : p.requests = p.restoreList.requests := by rw [e]
          rw [h]
          exact restoreSort_requests

theorem receive_requests (p : CoinsListViewPresenter α) (r : TypeOfRequest) (models : List α) :
    (p.receive r models).requests = p.requests := by
  cases r with
  | searchingRequest text s => exact setViewData_requests models
  | allCurrencies s page => exact setViewData_requests _
  | favouriteCoins ids => rfl

end CoinsListViewPresenter

/-- **Only requests that have been made are answered.** -/
theorem CoinsListStep.proper {w w' : CoinsList α} {e : CoinsListEvent α}
    (h : Proper w.presenter.requests w.answered) (hs : CoinsListStep w e w') :
    Proper w'.presenter.requests w'.answered := by
  cases hs with
  | action a => exact h.of_prefix (w.presenter.act_requests a)
  | success models ho =>
      rw [CoinsListViewPresenter.receive_requests]
      exact h.answer ho
  | failure ho => exact h.answer ho

end CryptoWallet
