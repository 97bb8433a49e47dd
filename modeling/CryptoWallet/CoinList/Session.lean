/-
  File:      CryptoWallet/CoinList/Session.lean
  Subject:   A cancelled search and the list it returns to (searchBarShouldBeginEditing,
             searchBarButtonClicked).

  A cancel restores two copies: the list before the last assignment outside a search, and the
  sort when editing last began. Neither need be what was shown when the session began.

  * `SessionHistory`, `SessionStep`: a session, with what its user has done in it.
  * `InSession`: what the presenter holds after any part of a session.
  * `session_restores_iff`: the list is as it was exactly if the copies are right: a search was
    made from a list with coins on it, or ended on an empty result, in the sort the editing last
    began with; or none was made, and the saved list is empty or the one shown.
  * `session_drops_page`: a session without a search drops the page that arrived last.
-/
import CryptoWallet.CoinList.CoinsListViewPresenter

namespace CryptoWallet

open Runs Calls

variable {α : Type}

/-! ## 1. Sessions -/

/-- What has happened in a session. -/
structure SessionHistory (α : Type) where
  /-- A search has been made. -/
  searched : Bool := false
  /-- The sort picked last, or the sort the session began with. -/
  sort : TypeOfSort
  /-- The sort at the moment editing last began. -/
  sortAtBegin : TypeOfSort
  /-- The coins of the response that arrived last. -/
  response : List α := []

namespace SessionHistory

def next (h : SessionHistory α) : CoinsListEvent α → SessionHistory α
  | .action (.searchBarButtonClicked (.search (some _))) => { h with searched := true }
  | .action (.didSelectRowInPickerView row _) => { h with sort := sortOfRow row }
  | .action .searchBarShouldBeginEditing => { h with sortAtBegin := h.sort }
  | .success _ models => { h with response := models }
  | _ => h

/-- Searches at any time; sort picks, refreshes, row displays, further editing and responses
    once a search has been made. -/
def Admits (h : SessionHistory α) : CoinsListEvent α → Prop
  | .action (.searchBarButtonClicked (.search _)) => True
  | .action (.searchBarButtonClicked .cancel) => False
  | .action .setDefaults => False
  | .action _ => h.searched = true
  | .success _ _ => h.searched = true
  | .failure _ => False

end SessionHistory

inductive SessionStep :
    CoinsList α × SessionHistory α → CoinsListEvent α → CoinsList α × SessionHistory α → Prop where
  | step {w w' : CoinsList α} {h : SessionHistory α} {e : CoinsListEvent α}
      (hs : CoinsListStep w e w') (hadmits : h.Admits e) : SessionStep (w, h) e (w', h.next e)

/-- A session begins: editing does. -/
def begun (w : CoinsList α) : CoinsList α × SessionHistory α :=
  ({ w with presenter := w.presenter.act .searchBarShouldBeginEditing },
    { sort := w.presenter.chosenTypeOfSort, sortAtBegin := w.presenter.chosenTypeOfSort })

/-- The coin list is as it was, and not in a search. -/
structure Restored (p q : CoinsListViewPresenter α) : Prop where
  viewData : q.viewData = p.viewData
  numberOfPage : q.numberOfPage = p.numberOfPage
  chosenTypeOfSort : q.chosenTypeOfSort = p.chosenTypeOfSort
  isSearching : q.isSearching = false

/-- The copies a cancel restores are right: after a search, the list it started from was not
    empty, or the last response was, and editing last began in the sort of the list; without
    one, the saved list is empty or the one shown. -/
def Restorable (p : CoinsListViewPresenter α) (h : SessionHistory α) : Prop :=
  if h.searched then
    (p.viewData ≠ [] ∨ h.response = []) ∧ h.sortAtBegin = p.chosenTypeOfSort
  else p.tempViewData = [] ∨ p.tempViewData = p.viewData

/-! ## 2. The invariant -/

/-- What the presenter holds in a session that began at `p₀`. -/
structure InSession (p₀ : CoinsListViewPresenter α) (w : CoinsList α) (h : SessionHistory α) :
    Prop where
  searching : w.presenter.isSearching = h.searched
  page : w.presenter.numberOfPage = p₀.numberOfPage
  sort : w.presenter.chosenTypeOfSort = h.sort
  sortAtBegin : w.presenter.tempChosenTypeOfSort = some h.sortAtBegin
  proper : Proper w.presenter.requests w.answered
  /-- Only searches wait for an answer. -/
  searches : ∀ n r, Outstanding w.presenter.requests w.answered n r →
    ∃ text s, r = .searchingRequest text s
  /-- Before a search nothing changes. -/
  unsearched : h.searched = false → w.presenter.viewData = p₀.viewData ∧
    w.presenter.tempViewData = p₀.tempViewData ∧
    h.sort = p₀.chosenTypeOfSort ∧ h.sortAtBegin = p₀.chosenTypeOfSort
  /-- In a search the list is saved, and at rest the last response is shown. -/
  searched : h.searched = true → w.presenter.tempViewData = p₀.viewData ∧
    (Quiet w.presenter.requests w.answered → w.presenter.viewData = h.response)

section InSession

variable {p₀ : CoinsListViewPresenter α} {w : CoinsList α} {h : SessionHistory α}

theorem inSession_begun (hlist : w.presenter.isSearching = false)
    (hproper : Proper w.presenter.requests w.answered)
    (hq : Quiet w.presenter.requests w.answered) :
    InSession w.presenter (begun w).1 (begun w).2 where
  searching := hlist
  page := rfl
  sort := rfl
  sortAtBegin := rfl
  proper := hproper
  searches n r ho := absurd ho (hq n r)
  unsearched _ := ⟨rfl, rfl, rfl, rfl⟩
  searched hs := Bool.noConfusion hs

/-- **A search saves the list it starts from**, and a search in a search keeps it saved. -/
theorem InSession.startSearch (hI : InSession p₀ w h) (text : String) :
    InSession p₀ { w with presenter := w.presenter.startSearch text }
      { h with searched := true } := by
  rw [CoinsListViewPresenter.startSearch_eq]
  constructor
  case searching => rfl
  case page => exact hI.page
  case sort => exact hI.sort
  case sortAtBegin => exact hI.sortAtBegin
  case proper => exact hI.proper.issue _
  case searches =>
      intro n r ho
      rcases outstanding_issue ho with ho | ⟨-, rfl⟩
      · exact hI.searches n r ho
      · exact ⟨text, _, rfl⟩
  case unsearched => exact fun hs => Bool.noConfusion hs
  case searched =>
      refine fun _ => ⟨?_, fun hq => absurd hq (hI.proper.not_quiet _)⟩
      cases hs : h.searched with
      | true =>
          rw [hI.searching, hs]
          exact (hI.searched hs).1
      | false =>
          rw [hI.searching, hs]
          exact (hI.unsearched hs).1

theorem InSession.updateSearch (hI : InSession p₀ w h) (hs : h.searched = true)
    (text : Option String) :
    InSession p₀ { w with presenter := w.presenter.updateSearchDataforCurrentSort text } h := by
  cases text with
  | none => exact hI
  | some text =>
      rw [CoinsListViewPresenter.updateSearch_searching (hI.searching.trans hs)]
      have hh : { h with searched := true } = h := by rw [← hs]
      exact hh ▸ hI.startSearch text

theorem InSession.pickSort (hI : InSession p₀ w h) (hs : h.searched = true) (s : TypeOfSort) :
    InSession p₀ { w with presenter := w.presenter.setChosenTypeOfSort s }
      { h with sort := s } := by
  rw [CoinsListViewPresenter.setChosenTypeOfSort_searching (hI.searching.trans hs)]
  exact ⟨hI.searching, hI.page, rfl, hI.sortAtBegin, hI.proper, hI.searches,
    fun hf => Bool.noConfusion (hs.symm.trans hf), hI.searched⟩

theorem InSession.begin (hI : InSession p₀ w h) (hs : h.searched = true) :
    InSession p₀ { w with presenter := w.presenter.searchBarShouldBeginEditing }
      { h with sortAtBegin := h.sort } :=
  ⟨hI.searching, hI.page, hI.sort, congrArg some hI.sort, hI.proper, hI.searches,
    fun hf => Bool.noConfusion (hs.symm.trans hf), hI.searched⟩

theorem InSession.willDisplay (hI : InSession p₀ w h) (hs : h.searched = true) (row : Nat) :
    InSession p₀ { w with presenter := w.presenter.willDisplay row } h := by
  rw [CoinsListViewPresenter.willDisplay_searching (hI.searching.trans hs)]
  exact ⟨hI.searching, hI.page, hI.sort, hI.sortAtBegin, hI.proper, hI.searches,
    fun hf => Bool.noConfusion (hs.symm.trans hf), hI.searched⟩

/-- **A response is that of a search**, and replaces the list. -/
theorem InSession.receive (hI : InSession p₀ w h) (hs : h.searched = true) {n : Nat}
    {r : TypeOfRequest} (ho : Outstanding w.presenter.requests w.answered n r)
    (models : List α) :
    InSession p₀ ⟨w.presenter.receive r models, w.answered ++ [n]⟩
      { h with response := models } := by
  obtain ⟨text, s, rfl⟩ := hI.searches n r ho
  show InSession p₀ ⟨w.presenter.setViewData models, _⟩ _
  rw [CoinsListViewPresenter.setViewData_searching (hI.searching.trans hs)]
  exact ⟨hI.searching, hI.page, hI.sort, hI.sortAtBegin, hI.proper.answer ho,
    fun n r ho' => hI.searches n r ho'.of_answer.1,
    fun hf => Bool.noConfusion (hs.symm.trans hf),
    fun _ => ⟨(hI.searched hs).1, fun _ => rfl⟩⟩

/-- **One step of a session keeps the invariant.** -/
theorem inSession_step {w' : CoinsList α} {h' : SessionHistory α} {e : CoinsListEvent α}
    (hI : InSession p₀ w h) (hs : SessionStep (w, h) e (w', h')) : InSession p₀ w' h' := by
  cases hs with
  | step hs hadmits =>
      cases hs with
      | failure ho => exact hadmits.elim
      | success models ho => exact hI.receive hadmits ho models
      | action a =>
          cases a with
          | setDefaults => exact hadmits.elim
          | willDisplay row => exact hI.willDisplay hadmits row
          | refreshData text =>
              show InSession p₀ { w with presenter := w.presenter.refreshData text } h
              rw [CoinsListViewPresenter.refreshData, if_pos (hI.searching.trans hadmits)]
              exact hI.updateSearch hadmits text
          | didSelectRowInPickerView row text =>
              exact (hI.pickSort hadmits (sortOfRow row)).updateSearch hadmits text
          | searchBarShouldBeginEditing => exact hI.begin hadmits
          | searchBarButtonClicked type =>
              cases type with
              | cancel => exact hadmits.elim
              | search text =>
                  cases text with
                  | none => exact hI
                  | some text => exact hI.startSearch text

/-! ## 3. The cancel -/

/-- After a search, the cancel restores the list exactly if the copies are right. -/
theorem InSession.cancel_searched (hI : InSession p₀ w h) (hs : h.searched = true)
    (hq : Quiet w.presenter.requests w.answered) :
    Restored p₀ (w.presenter.searchBarButtonClicked .cancel) ↔
      (p₀.viewData ≠ [] ∨ h.response = []) ∧ h.sortAtBegin = p₀.chosenTypeOfSort := by
  obtain ⟨htemp, hview⟩ := hI.searched hs
  obtain ⟨calls, e⟩ :=
    CoinsListViewPresenter.cancel_searching (hI.searching.trans hs) hI.sortAtBegin
  have hlist : (if w.presenter.tempViewData.isEmpty then w.presenter.viewData
      else w.presenter.tempViewData) = p₀.viewData ↔ p₀.viewData ≠ [] ∨ h.response = [] := by
    rw [htemp, hview hq]
    cases p₀.viewData with
    | nil => simp
    | cons x xs => simp
  rw [e, ← hlist]
  refine ⟨fun hr => ⟨hr.viewData, hr.chosenTypeOfSort⟩, ?_⟩
  intro ⟨hlist, hsort⟩
  exact ⟨hlist, hI.page, hsort, rfl⟩

/-- Without one, it shows the saved list, if any. -/
theorem InSession.cancel_unsearched (hI : InSession p₀ w h) (hs : h.searched = false) :
    Restored p₀ (w.presenter.searchBarButtonClicked .cancel) ↔
      p₀.tempViewData = [] ∨ p₀.tempViewData = p₀.viewData := by
  obtain ⟨hview, htemp, hsort, hbegin⟩ := hI.unsearched hs
  have hlisting : w.presenter.isSearching = false := hI.searching.trans hs
  have hsaved : w.presenter.tempChosenTypeOfSort = some w.presenter.chosenTypeOfSort := by
    rw [hI.sortAtBegin, hI.sort, hsort, hbegin]
  obtain ⟨calls, e⟩ := CoinsListViewPresenter.cancel_listing hlisting hsaved
  have hlist : (if w.presenter.tempViewData.isEmpty then w.presenter.viewData
      else w.presenter.tempViewData) = p₀.viewData ↔
        p₀.tempViewData = [] ∨ p₀.tempViewData = p₀.viewData := by
    rw [htemp, hview]
    cases p₀.tempViewData with
    | nil => simp
    | cons x xs => simp
  rw [e, ← hlist]
  refine ⟨fun hr => hr.viewData, ?_⟩
  intro hlist
  exact ⟨hlist, hI.page, hI.sort.trans hsort, hlisting⟩

end InSession

/-- **A cancelled session leaves the list as it was exactly if the copies are right.** -/
theorem session_restores_iff {es₀ es : List (CoinsListEvent α)} {w₀ w : CoinsList α}
    {h : SessionHistory α} (h₀ : Run CoinsListStep {} es₀ w₀)
    (hlist : w₀.presenter.isSearching = false)
    (hq₀ : Quiet w₀.presenter.requests w₀.answered)
    (hs : Run SessionStep (begun w₀) es (w, h)) (hq : Quiet w.presenter.requests w.answered) :
    Restored w₀.presenter (w.presenter.act (.searchBarButtonClicked .cancel)) ↔
      Restorable w₀.presenter h := by
  have hproper : Proper w₀.presenter.requests w₀.answered :=
    h₀.invariant (I := fun w => Proper w.presenter.requests w.answered) proper_nil
      fun _ _ _ hp hs => hs.proper hp
  have hI : InSession w₀.presenter w h :=
    hs.invariant (I := fun (s : CoinsList α × SessionHistory α) => InSession w₀.presenter s.1 s.2)
      (inSession_begun hlist hproper hq₀) fun _ _ _ hI hs => inSession_step hI hs
  unfold Restorable
  split
  · rename_i hsearched
    exact hI.cancel_searched hsearched hq
  · rename_i hsearched
    exact hI.cancel_unsearched (by simpa using hsearched)

/-! ## 4. Two sessions -/

/-- A list with one page of one coin. -/
def onePage : List (CoinsListEvent String) := [.action .setDefaults, .success 0 ["bitcoin"]]

def onePageShown : CoinsList String :=
  ⟨(({} : CoinsListViewPresenter String).act .setDefaults).receive (.allCurrencies .marketCap 1)
    ["bitcoin"], [0]⟩

/-- A list scrolled to its second page. -/
def twoPages : List (CoinsListEvent String) :=
  onePage ++ [.action (.willDisplay 0), .success 1 ["ethereum"]]

/-- A search that ends with its response. -/
def oneSearch : List (CoinsListEvent String) :=
  [.action (.searchBarButtonClicked (.search (some "doge"))), .success 1 ["dogecoin"]]

theorem run_onePage : Run CoinsListStep {} onePage onePageShown :=
  (Run.single (.action _ .setDefaults)).next (.success (n := 0) ["bitcoin"] ⟨rfl, List.not_mem_nil⟩)

theorem session_restores_oneSearch :
    ∃ (w : CoinsList String) (h : SessionHistory String),
      Run CoinsListStep {} onePage onePageShown ∧
      Run SessionStep (begun onePageShown) oneSearch (w, h) ∧
      Restored onePageShown.presenter (w.presenter.act (.searchBarButtonClicked .cancel)) := by
  have s1 : Run SessionStep (begun onePageShown) _ _ := .single (.step
    (.action _ (.searchBarButtonClicked (.search (some "doge")))) trivial)
  have s2 := s1.next (.step (.success (n := 1) ["dogecoin"] ⟨rfl, by decide⟩) rfl)
  have hq₀ : Quiet onePageShown.presenter.requests onePageShown.answered :=
    quiet_of_all (by decide)
  refine ⟨_, _, run_onePage, s2, ?_⟩
  refine (session_restores_iff run_onePage rfl hq₀ s2 (quiet_of_all (by decide))).mpr ?_
  exact ⟨Or.inl (List.cons_ne_nil _ _), rfl⟩

/-- **A session without a search drops the page that arrived last.** -/
theorem session_drops_page :
    ∃ w₀ : CoinsList String, Run CoinsListStep {} twoPages w₀ ∧
      w₀.presenter.isSearching = false ∧ Quiet w₀.presenter.requests w₀.answered ∧
      w₀.presenter.viewData = ["bitcoin", "ethereum"] ∧
      ((begun w₀).1.presenter.act (.searchBarButtonClicked .cancel)).viewData = ["bitcoin"] := by
  have h1 := run_onePage.next (.action _ (.willDisplay 0))
  have h2 := h1.next (.success (n := 1) ["ethereum"] ⟨rfl, by decide⟩)
  exact ⟨_, h2, rfl, quiet_of_all (by decide), rfl, rfl⟩

end CryptoWallet
