/-
  File:      CryptoWallet/CoinList/SavedList.lean
  Subject:   The list a search saves (viewData, tempViewData, searchBarButtonClicked).

  A search saves the list by emptying it: the `didSet` of `viewData` copies the old value as long
  as `isSearching` is false, and `isSearching` becomes true one statement later. From then on no
  assignment copies, whoever makes it.

  * `Saved`: a search that has saved a list; one lemma for each part of an event that keeps it.
  * `search_keeps_saved`: whatever happens in a search short of its cancel, the saved list and the
    page stay, and the cancel shows that list.
-/
import CryptoWallet.CoinList.Session

namespace CryptoWallet

open Runs Calls

variable {α : Type}

/-- Everything but a cancel; the screen has been loaded before. -/
def Uncancelled (_ : CoinsList α) : CoinsListEvent α → Prop
  | .action .setDefaults => False
  | .action (.searchBarButtonClicked .cancel) => False
  | _ => True

/-- A search that has saved `list` at `page`. -/
structure Saved (list : List α) (page : Nat) (p : CoinsListViewPresenter α) : Prop where
  searching : p.isSearching = true
  tempViewData : p.tempViewData = list
  numberOfPage : p.numberOfPage = page

open CoinsListViewPresenter

variable {p : CoinsListViewPresenter α} {list : List α} {page : Nat}

/-- **The first search saves the list shown.** -/
theorem saved_startSearch (h : p.isSearching = false) (text : String) :
    Saved p.viewData p.numberOfPage (p.startSearch text) := by
  rw [startSearch_eq]
  exact ⟨rfl, by simp [h], rfl⟩

theorem Saved.startSearch (h : Saved list page p) (text : String) :
    Saved list page (p.startSearch text) := by
  rw [startSearch_eq]
  exact ⟨rfl, by simpa [h.searching] using h.tempViewData, h.numberOfPage⟩

theorem Saved.updateSearch (h : Saved list page p) (text : Option String) :
    Saved list page (p.updateSearchDataforCurrentSort text) := by
  cases text with
  | none => exact h
  | some text =>
      rw [updateSearch_searching h.searching]
      exact h.startSearch text

theorem Saved.setChosenTypeOfSort (h : Saved list page p) (s : TypeOfSort) :
    Saved list page (p.setChosenTypeOfSort s) := by
  rw [setChosenTypeOfSort_searching h.searching]
  exact ⟨h.searching, h.tempViewData, h.numberOfPage⟩

/-- In a search an assignment to `viewData` copies nothing. -/
theorem Saved.setViewData (h : Saved list page p) (v : List α) :
    Saved list page (p.setViewData v) := by
  rw [setViewData_searching h.searching]
  exact ⟨h.searching, h.tempViewData, h.numberOfPage⟩

/-- **A response keeps the saved list**, that of a page asked for before the search too. -/
theorem Saved.receive (h : Saved list page p) (r : TypeOfRequest) (models : List α) :
    Saved list page (p.receive r models) := by
  cases r with
  | searchingRequest text s => exact h.setViewData models
  | allCurrencies s n => exact h.setViewData _
  | favouriteCoins IDs => exact h

/-- **What the user does in a search keeps the saved list.** -/
theorem Saved.act (h : Saved list page p) {a : Action} (hdefaults : a ≠ .setDefaults)
    (hcancel : a ≠ .searchBarButtonClicked .cancel) : Saved list page (p.act a) := by
  cases a with
  | setDefaults => exact absurd rfl hdefaults
  | willDisplay row =>
      show Saved list page (p.willDisplay row)
      rw [willDisplay_searching h.searching]
      exact ⟨h.searching, h.tempViewData, h.numberOfPage⟩
  | refreshData text =>
      show Saved list page (p.refreshData text)
      rw [refreshData, if_pos h.searching]
      exact h.updateSearch text
  | didSelectRowInPickerView row text => exact (h.setChosenTypeOfSort _).updateSearch text
  | searchBarShouldBeginEditing => exact ⟨h.searching, h.tempViewData, h.numberOfPage⟩
  | searchBarButtonClicked type =>
      cases type with
      | cancel => exact absurd rfl hcancel
      | search text =>
          cases text with
          | none => exact h
          | some text => exact h.startSearch text

/-- **The cancel shows the saved list**, unless it is empty. -/
theorem Saved.cancel (h : Saved list page p) (hne : list ≠ []) :
    (p.searchBarButtonClicked .cancel).viewData = list := by
  have hlist : ¬(p.isSearching = false ∧
      ∃ s ∈ p.tempChosenTypeOfSort, s ≠ p.chosenTypeOfSort) := by
    intro hc
    rw [h.searching] at hc
    cases hc.1
  rw [cancel_viewData, if_neg hlist, h.tempViewData, if_neg (by simpa using hne)]

/-- One event of a search keeps the saved list. -/
theorem saved_step {w w' : CoinsList α} {e : CoinsListEvent α}
    (h : Saved list page w.presenter) (hs : Guarded Uncancelled CoinsListStep w e w') :
    Saved list page w'.presenter := by
  obtain ⟨hok, hs⟩ := hs
  cases hs with
  | success models ho => exact h.receive _ models
  | failure ho => exact h
  | action a =>
      refine h.act ?_ ?_
      · intro e
        rw [e] at hok
        exact hok
      · intro e
        rw [e] at hok
        exact hok

/-- A search is made. -/
def CoinsList.search (w : CoinsList α) (text : String) : CoinsList α :=
  { w with presenter := w.presenter.act (.searchBarButtonClicked (.search (some text))) }

/-- **A search keeps the saved list**: from any state outside a search, whatever is in flight,
    until the cancel the saved list is the one shown before the search and the page is the same,
    and the cancel shows that list, unless it was empty. -/
theorem search_keeps_saved {w₀ w : CoinsList α} {es : List (CoinsListEvent α)} (text : String)
    (hlist : w₀.presenter.isSearching = false)
    (h : Run (Guarded Uncancelled CoinsListStep) (w₀.search text) es w) :
    w.presenter.tempViewData = w₀.presenter.viewData ∧
    w.presenter.numberOfPage = w₀.presenter.numberOfPage ∧
    (w₀.presenter.viewData ≠ [] →
      (w.presenter.act (.searchBarButtonClicked .cancel)).viewData = w₀.presenter.viewData) := by
  have hI : Saved w₀.presenter.viewData w₀.presenter.numberOfPage w.presenter :=
    h.invariant (I := fun w => Saved w₀.presenter.viewData w₀.presenter.numberOfPage w.presenter)
      (saved_startSearch hlist text) fun _ _ _ hI hs => saved_step hI hs
  exact ⟨hI.tempViewData, hI.numberOfPage, hI.cancel⟩

/-- A list whose second page has been asked for. -/
def secondPageAsked : CoinsList String :=
  ⟨onePageShown.presenter.act (.willDisplay 0), [0]⟩

/-- The second page arrives in a search and changes nothing that the cancel brings back. -/
theorem search_keeps_saved_latePage :
    Run CoinsListStep {} (onePage ++ [.action (.willDisplay 0)]) secondPageAsked ∧
    ∃ w : CoinsList String,
      Run (Guarded Uncancelled CoinsListStep) (secondPageAsked.search "doge")
        [.success 1 ["ethereum"], .success 2 ["dogecoin"]] w ∧
      w.presenter.viewData = ["dogecoin"] ∧
      (w.presenter.act (.searchBarButtonClicked .cancel)).viewData = ["bitcoin"] := by
  have h1 : Run (Guarded Uncancelled CoinsListStep) (secondPageAsked.search "doge") _ _ :=
    .single (.allow (.success (n := 1) ["ethereum"] ⟨rfl, by decide⟩) trivial)
  have h2 := h1.next (.allow (.success (n := 2) ["dogecoin"] ⟨rfl, by decide⟩) trivial)
  refine ⟨run_onePage.next (.action _ (.willDisplay 0)), _, h2, rfl, ?_⟩
  exact (search_keeps_saved "doge" rfl h2).2.2 (List.cons_ne_nil _ _)

end CryptoWallet
