/-
  File:      CryptoWallet/CoinList/HeldRows.lean
  Subject:   Where the rows of the coin list come from, and what it asks for
             (CoinsListViewPresenter.swift).

  * `Holds`: the rows shown and the rows saved.
  * `CoinsListStep.holds`: the list holds nothing but what requests were answered with.
  * `CoinsListStep.inList`: it asks for the pages 1 to 58 and for searches, and for nothing else.
-/
import CryptoWallet.CoinList.CoinsListViewPresenter

namespace CryptoWallet

open Runs Calls

variable {α : Type} {p : CoinsListViewPresenter α} {a : α}

/-! ## 1. The rows -/

/-- The list shown or the list saved has the element. -/
def CoinsListViewPresenter.Holds (p : CoinsListViewPresenter α) (a : α) : Prop :=
  a ∈ p.viewData ∨ a ∈ p.tempViewData

namespace CoinsListViewPresenter

/-- **A list assigned replaces the list shown, which is saved or not.** -/
theorem holds_of_setViewData {l : List α} (h : (p.setViewData l).Holds a) : a ∈ l ∨ p.Holds a := by
  cases hs : p.isSearching with
  | false =>
      rw [setViewData_listing hs] at h
      exact h.imp id .inl
  | true =>
      rw [setViewData_searching hs] at h
      exact h.imp id .inr

theorem holds_of_setViewData_nil (h : (p.setViewData []).Holds a) : p.Holds a :=
  (holds_of_setViewData h).resolve_left List.not_mem_nil

theorem holds_of_setNumberOfPage {n : Nat} (h : (p.setNumberOfPage n).Holds a) : p.Holds a := by
  unfold setNumberOfPage at h
  dsimp only at h
  split at h
  · exact holds_of_setViewData_nil (p := { p with numberOfPage := n }) h
  · exact h

theorem holds_of_setChosenTypeOfSort {s : TypeOfSort} (h : (p.setChosenTypeOfSort s).Holds a) :
    p.Holds a := by
  cases hs : p.isSearching with
  | true =>
      rw [setChosenTypeOfSort_searching hs] at h
      exact h
  | false =>
      rw [setChosenTypeOfSort_listing hs] at h
      dsimp only at h
      split at h
      · exact h
      · have hreset := holds_of_setNumberOfPage h
        exact hreset

theorem holds_of_startSearch {text : String} (h : (p.startSearch text).Holds a) : p.Holds a :=
  holds_of_setViewData_nil h

theorem holds_of_updateSearch {text : Option String}
    (h : (p.updateSearchDataforCurrentSort text).Holds a) : p.Holds a := by
  cases text with
  | none => exact h
  | some text =>
      simp only [updateSearchDataforCurrentSort] at h
      split at h
      · exact holds_of_startSearch h
      · exact h

/-- **Nothing the user does adds an element.** -/
theorem holds_of_act {action : Action} (h : (p.act action).Holds a) : p.Holds a := by
  cases action with
  | setDefaults => exact holds_of_setChosenTypeOfSort (holds_of_setNumberOfPage h)
  | willDisplay row =>
      simp only [act, willDisplay] at h
      split at h
      · split at h
        · have hnext := holds_of_setNumberOfPage h
          exact hnext
        · exact h
      · exact h
  | refreshData text =>
      simp only [act, refreshData] at h
      split at h
      · exact holds_of_updateSearch h
      · exact holds_of_setNumberOfPage h
  | didSelectRowInPickerView row text =>
      exact holds_of_setChosenTypeOfSort (holds_of_updateSearch h)
  | searchBarShouldBeginEditing => exact h
  | searchBarButtonClicked type =>
      cases type with
      | search text =>
          cases text with
          | none => exact h
          | some text => exact holds_of_startSearch h
      | cancel =>
          -- the saved list is shown again
          have hrestored : p.restoreList.Holds a := by
            simp only [act, searchBarButtonClicked, restoreSort] at h
            split at h
            · exact h
            · exact holds_of_setChosenTypeOfSort h
          unfold restoreList at hrestored
          split at hrestored
          · exact hrestored
          · exact (holds_of_setViewData hrestored).elim .inr id

theorem holds_of_receive {r : TypeOfRequest} {models : List α} (h : (p.receive r models).Holds a) :
    a ∈ models ∨ p.Holds a := by
  cases r with
  | searchingRequest text s => exact holds_of_setViewData h
  | allCurrencies s n =>
      obtain h | h := holds_of_setViewData h
      · exact (List.mem_append.mp h).symm.imp id .inl
      · exact .inr h
  | favouriteCoins ids => exact .inr h

end CoinsListViewPresenter

/-- The events answer a request with the element. -/
def AnswersWith (a : α) : CoinsListEvent α → Prop
  | .success _ models => a ∈ models
  | _ => False

/-- **What the list holds after an event** it held before, or the event is an answer with it. -/
theorem CoinsListStep.holds {w w' : CoinsList α} {e : CoinsListEvent α} (hs : CoinsListStep w e w')
    (h : w'.presenter.Holds a) : AnswersWith a e ∨ w.presenter.Holds a := by
  cases hs with
  | action action => exact .inr (CoinsListViewPresenter.holds_of_act h)
  | success models _ => exact CoinsListViewPresenter.holds_of_receive h
  | failure _ => exact .inr h

/-! ## 2. The requests -/

/-- The requests of a coin list. -/
def TypeOfRequest.InList : TypeOfRequest → Prop
  | .searchingRequest _ _ => True
  | .allCurrencies _ numberOfPage => 0 < numberOfPage ∧ numberOfPage ≤ 58
  | .favouriteCoins _ => False

namespace CoinsListViewPresenter

/-- All requests are those of a coin list. -/
def InList (p : CoinsListViewPresenter α) : Prop := ∀ r ∈ p.requests, r.InList

variable (h : p.InList)

include h

theorem inList_getViewModels {r : TypeOfRequest} (hr : r.InList) : (p.getViewModels r).InList := by
  intro r' hr'
  rcases List.mem_append.mp hr' with hr' | hr'
  · exact h r' hr'
  · exact List.mem_singleton.mp hr' ▸ hr

theorem inList_setViewData (l : List α) : (p.setViewData l).InList := by
  rw [InList, setViewData_requests]
  exact h

theorem inList_setNumberOfPage {n : Nat} (h0 : 0 < n) (h58 : n ≤ 58) :
    (p.setNumberOfPage n).InList := by
  unfold setNumberOfPage
  refine inList_getViewModels ?_ ⟨Int.natCast_pos.mpr h0, by omega⟩
  split
  · exact inList_setViewData (p := { p with numberOfPage := n }) h []
  · exact h

theorem inList_setChosenTypeOfSort (s : TypeOfSort) : (p.setChosenTypeOfSort s).InList := by
  cases hs : p.isSearching with
  | true =>
      rw [setChosenTypeOfSort_searching hs]
      exact h
  | false =>
      rw [setChosenTypeOfSort_listing hs]
      dsimp only
      split
      · exact h
      · exact inList_setNumberOfPage (p := { p with chosenTypeOfSort := s, viewCalls := _ }) h
          Nat.one_pos (by decide)

theorem inList_startSearch (text : String) : (p.startSearch text).InList :=
  inList_getViewModels (p := { p.setViewData [] with isSearching := true })
    (inList_setViewData h []) trivial

theorem inList_updateSearch (text : Option String) :
    (p.updateSearchDataforCurrentSort text).InList := by
  cases text with
  | none => exact h
  | some text =>
      rw [updateSearchDataforCurrentSort]
      split
      · exact inList_startSearch h text
      · exact h

/-- **What the user does makes requests of a list.** -/
theorem inList_act (action : Action) : (p.act action).InList := by
  cases action with
  | setDefaults =>
      exact inList_setNumberOfPage (inList_setChosenTypeOfSort h _) Nat.one_pos (by decide)
  | willDisplay row =>
      simp only [act, willDisplay]
      split
      · rename_i hpage
        have h58 : p.numberOfPage < 58 := of_decide_eq_true (Bool.and_eq_true_iff.mp hpage).2
        split
        · exact inList_setNumberOfPage (p := p.call _) h (Nat.succ_pos _) h58
        · exact h
      · exact h
  | refreshData text =>
      simp only [act, refreshData]
      split
      · exact inList_updateSearch h text
      · exact inList_setNumberOfPage h Nat.one_pos (by decide)
  | didSelectRowInPickerView row text =>
      exact inList_updateSearch (inList_setChosenTypeOfSort h _) text
  | searchBarShouldBeginEditing => exact h
  | searchBarButtonClicked type =>
      cases type with
      | search text =>
          cases text with
          | none => exact h
          | some text => exact inList_startSearch h text
      | cancel =>
          have hlist : p.restoreList.InList := by
            unfold restoreList
            split
            · exact h
            · exact inList_setViewData h _
          simp only [act, searchBarButtonClicked, restoreSort]
          split
          · exact hlist
          · exact inList_setChosenTypeOfSort hlist _

end CoinsListViewPresenter

/-- **The requests after an event** are those of a list, if they were before. -/
theorem CoinsListStep.inList {w w' : CoinsList α} {e : CoinsListEvent α} (hs : CoinsListStep w e w')
    (h : w.presenter.InList) : w'.presenter.InList := by
  cases hs with
  | action action => exact CoinsListViewPresenter.inList_act h action
  | success models _ =>
      rw [CoinsListViewPresenter.InList, CoinsListViewPresenter.receive_requests]
      exact h
  | failure _ => exact h

/-- No event takes a request back. -/
theorem CoinsListStep.requests {w w' : CoinsList α} {e : CoinsListEvent α}
    (hs : CoinsListStep w e w') : w.presenter.requests <+: w'.presenter.requests := by
  cases hs with
  | action action => exact w.presenter.act_requests action
  | success models _ =>
      exact ⟨[], by rw [List.append_nil, CoinsListViewPresenter.receive_requests]⟩
  | failure _ => exact List.prefix_rfl

end CryptoWallet
