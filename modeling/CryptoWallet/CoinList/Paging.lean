/-
  File:      CryptoWallet/CoinList/Paging.lean
  Subject:   Scrolling through the coin list (willDisplay, refreshData, updateViewData).

  Pages are appended as their responses arrive, and a refresh forgets none of the requests that
  still wait. Every page is shown once and in order where neither is put to the test.

  * `pages P n`: what the list should show after `n` pages.
  * `Scrolled`: the requests since the last reset are those of the pages from the first to the
    current one, and an initial part of them has been answered and shown.
  * `pages_in_order`: at rest, the list shows its pages, if responses arrive in the order of
    their requests and a refresh waits for them.
  * `pages_out_of_order`: without either it does not.
-/
import CryptoWallet.CoinList.CoinsListViewPresenter

namespace CryptoWallet

open Runs Calls

variable {α : Type}

/-! ## 1. Scrolling -/

/-- The first `n` pages of the server, one after another. -/
def pages (P : Int → List α) (n : Nat) : List α :=
  (List.range n).flatMap fun k : Nat => P (k + 1)

/-- The requests of the first `n` pages. -/
def pageRequests (s : TypeOfSort) (n : Nat) : List TypeOfRequest :=
  (List.range n).map fun k : Nat => .allCurrencies s (k + 1)

theorem pages_succ (P : Int → List α) (n : Nat) : pages P (n + 1) = pages P n ++ P (n + 1) := by
  simp [pages, List.range_succ]

theorem pageRequests_succ (s : TypeOfSort) (n : Nat) :
    pageRequests s (n + 1) = pageRequests s n ++ [.allCurrencies s (n + 1)] := by
  simp [pageRequests, List.range_succ]

theorem length_pageRequests (s : TypeOfSort) (n : Nat) : (pageRequests s n).length = n := by
  simp [pageRequests]

theorem getElem?_pageRequests {s : TypeOfSort} {n j : Nat} (h : j < n) :
    (pageRequests s n)[j]? = some (.allCurrencies s (j + 1)) := by
  simp [pageRequests, h]

/-- The list when its screen has just been loaded. -/
def loaded : CoinsList α := { presenter := ({} : CoinsListViewPresenter α).act .setDefaults }

/-- Rows are displayed, the list is refreshed, and page requests succeed with the pages `P`. -/
def Scrolling (P : Int → List α) (w : CoinsList α) : CoinsListEvent α → Prop
  | .action (.willDisplay _) => True
  | .action (.refreshData _) => True
  | .success n models =>
      ∀ s page, w.presenter.requests[n]? = some (.allCurrencies s page) → models = P page
  | _ => False

/-- Responses arrive in the order of their requests, and a refresh waits for all of them. -/
def InOrder (w : CoinsList α) : CoinsListEvent α → Prop
  | .action (.refreshData _) => Quiet w.presenter.requests w.answered
  | .success n _ => ∀ m < n, m ∈ w.answered
  | _ => True

/-! ## 2. The invariant -/

/-- Of the pages asked for since the last reset the first `j` are answered and shown. -/
structure Scrolled (P : Int → List α) (old : List TypeOfRequest) (j : Nat) (w : CoinsList α) :
    Prop where
  listing : w.presenter.isSearching = false
  page : 0 < w.presenter.numberOfPage
  requested : w.presenter.requests =
    old ++ pageRequests w.presenter.chosenTypeOfSort w.presenter.numberOfPage
  le : j ≤ w.presenter.numberOfPage
  answered : ∀ n, n ∈ w.answered ↔ n < old.length + j
  shown : w.presenter.viewData = pages P j

section Scrolled

variable {P : Int → List α} {old : List TypeOfRequest} {j : Nat} {w : CoinsList α}

/-- While a page is missing, its request waits. -/
theorem Scrolled.outstanding (h : Scrolled P old j w) (hj : j < w.presenter.numberOfPage) :
    Outstanding w.presenter.requests w.answered (old.length + j)
      (.allCurrencies w.presenter.chosenTypeOfSort (j + 1)) := by
  refine ⟨?_, fun hm => Nat.lt_irrefl _ ((h.answered _).mp hm)⟩
  rw [h.requested, List.getElem?_append_right (Nat.le_add_right _ _), Nat.add_sub_cancel_left]
  exact getElem?_pageRequests hj

theorem Scrolled.complete (h : Scrolled P old j w)
    (hq : Quiet w.presenter.requests w.answered) : j = w.presenter.numberOfPage := by
  rcases Nat.lt_or_eq_of_le h.le with hlt | heq
  · exact absurd (h.outstanding hlt) (hq _ _)
  · exact heq

/-- **The response that arrives is that of the first page not shown.** -/
theorem Scrolled.inOrder (h : Scrolled P old j w) {n : Nat} {r : TypeOfRequest}
    (ho : Outstanding w.presenter.requests w.answered n r) (hn : ∀ m < n, m ∈ w.answered) :
    n = old.length + j ∧ j < w.presenter.numberOfPage ∧
      r = .allCurrencies w.presenter.chosenTypeOfSort (j + 1) := by
  have hlast : ¬ n < old.length + j := fun hlt => ho.2 ((h.answered n).mpr hlt)
  have hfirst : ¬ old.length + j < n := fun hlt =>
    Nat.lt_irrefl _ ((h.answered _).mp (hn _ hlt))
  obtain rfl : n = old.length + j := by omega
  have hlt : j < w.presenter.numberOfPage := by
    have hlen := ho.lt
    rw [h.requested, List.length_append, length_pageRequests] at hlen
    omega
  exact ⟨rfl, hlt, Option.some.inj (ho.1.symm.trans (h.outstanding hlt).1)⟩

theorem Scrolled.willDisplay (h : Scrolled P old j w) (row : Nat) :
    Scrolled P old j { w with presenter := w.presenter.willDisplay row } := by
  rcases CoinsListViewPresenter.willDisplay_cases h.page row with ⟨calls, e⟩ | ⟨-, -, -, calls, e⟩
  · rw [e]
    exact ⟨h.listing, h.page, h.requested, h.le, h.answered, h.shown⟩
  · rw [e]
    refine ⟨h.listing, Nat.succ_pos _, ?_, Nat.le_succ_of_le h.le, h.answered, h.shown⟩
    show w.presenter.requests ++ _ =
      old ++ pageRequests w.presenter.chosenTypeOfSort (w.presenter.numberOfPage + 1)
    rw [pageRequests_succ, ← List.append_assoc, ← h.requested]

/-- A refresh begins again, with all requests so far answered. -/
theorem Scrolled.refreshData (h : Scrolled P old j w)
    (hq : Quiet w.presenter.requests w.answered) (text : Option String) :
    Scrolled P w.presenter.requests 0 { w with presenter := w.presenter.refreshData text } := by
  have hlen : w.presenter.requests.length = old.length + j := by
    rw [h.complete hq, h.requested, List.length_append, length_pageRequests]
  have e : w.presenter.refreshData text = w.presenter.setNumberOfPage 1 :=
    if_neg (by rw [h.listing]; simp)
  rw [e, CoinsListViewPresenter.setNumberOfPage_one h.listing]
  refine ⟨h.listing, Nat.one_pos, rfl, Nat.zero_le _, fun n => ?_, rfl⟩
  rw [hlen]
  exact h.answered n

theorem Scrolled.receive (h : Scrolled P old j w) (hj : j < w.presenter.numberOfPage) :
    Scrolled P old (j + 1)
      ⟨w.presenter.receive (.allCurrencies w.presenter.chosenTypeOfSort (j + 1)) (P (j + 1)),
        w.answered ++ [old.length + j]⟩ := by
  show Scrolled P old (j + 1) ⟨w.presenter.setViewData _, _⟩
  rw [CoinsListViewPresenter.setViewData_listing h.listing]
  refine ⟨h.listing, h.page, h.requested, hj, fun n => ?_, ?_⟩
  · rw [List.mem_append, List.mem_singleton, h.answered]
    omega
  · show w.presenter.viewData ++ P (j + 1) = _
    rw [h.shown, pages_succ]

theorem scrolled_loaded : Scrolled P [] 0 (loaded : CoinsList α) where
  listing := rfl
  page := Nat.one_pos
  requested := rfl
  le := Nat.zero_le _
  answered n := by simp [loaded]
  shown := rfl

/-- **One step keeps the invariant.** -/
theorem scrolled_step {w' : CoinsList α} {e : CoinsListEvent α} (h : Scrolled P old j w)
    (hs : Guarded (fun w e => Scrolling P w e ∧ InOrder w e) CoinsListStep w e w') :
    ∃ old j, Scrolled P old j w' := by
  obtain ⟨⟨hscroll, horder⟩, hs⟩ := hs
  cases hs with
  | failure _ => exact hscroll.elim
  | @success n r models ho =>
      obtain ⟨rfl, hj, rfl⟩ := h.inOrder ho horder
      obtain rfl : models = P (j + 1) := hscroll _ _ ho.1
      exact ⟨old, j + 1, h.receive hj⟩
  | action a =>
      cases a with
      | willDisplay row => exact ⟨old, j, h.willDisplay row⟩
      | refreshData text => exact ⟨_, 0, h.refreshData horder text⟩
      | setDefaults => exact hscroll.elim
      | didSelectRowInPickerView row text => exact hscroll.elim
      | searchBarShouldBeginEditing => exact hscroll.elim
      | searchBarButtonClicked type => exact hscroll.elim

end Scrolled

/-- **Scrolling shows every page once and in order**, at rest. -/
theorem pages_in_order {P : Int → List α} {es : List (CoinsListEvent α)} {w : CoinsList α}
    (h : Run (Guarded (fun w e => Scrolling P w e ∧ InOrder w e) CoinsListStep) loaded es w)
    (hq : Quiet w.presenter.requests w.answered) :
    w.presenter.viewData = pages P w.presenter.numberOfPage := by
  obtain ⟨old, j, hI⟩ : ∃ old j, Scrolled P old j w :=
    h.invariant (I := fun w => ∃ old j, Scrolled P old j w) ⟨[], 0, scrolled_loaded⟩
      fun _ _ _ ⟨_, _, hI⟩ hs => scrolled_step hI hs
  rw [← hI.complete hq]
  exact hI.shown

/-! ## 3. Runs -/

/-- A server with one coin on each page. -/
def onePerPage (page : Int) : List Int := [page]

/-- The first page arrives, its row is displayed, the second arrives; the list is refreshed, and
    both pages arrive again. -/
def scrollAndRefresh : List (CoinsListEvent Int) :=
  [.success 0 [1], .action (.willDisplay 0), .success 1 [2], .action (.refreshData none),
    .success 2 [1], .action (.willDisplay 0), .success 3 [2]]

theorem pages_in_order_scrollAndRefresh :
    ∃ w : CoinsList Int,
      Run (Guarded (fun w e => Scrolling onePerPage w e ∧ InOrder w e) CoinsListStep) loaded
        scrollAndRefresh w ∧
      w.presenter.numberOfPage = 2 ∧
      w.presenter.viewData = pages onePerPage w.presenter.numberOfPage := by
  have h1 : Run (Guarded (fun w e => Scrolling onePerPage w e ∧ InOrder w e) CoinsListStep)
      loaded _ _ :=
    .single (.allow (.success (n := 0) [1] ⟨rfl, List.not_mem_nil⟩)
      ⟨fun s page he => by cases he; rfl, fun m hm => absurd hm (Nat.not_lt_zero m)⟩)
  have h2 := h1.next (.allow (.action _ (.willDisplay 0)) ⟨trivial, trivial⟩)
  have h3 := h2.next (.allow (.success (n := 1) [2] ⟨rfl, by decide⟩)
    ⟨fun s page he => by cases he; rfl, show ∀ m < 1, m ∈ [0] by decide⟩)
  have h4 := h3.next (.allow (.action _ (.refreshData none))
    ⟨trivial, quiet_of_all (by decide)⟩)
  have h5 := h4.next (.allow (.success (n := 2) [1] ⟨rfl, by decide⟩)
    ⟨fun s page he => by cases he; rfl, show ∀ m < 2, m ∈ [0, 1] by decide⟩)
  have h6 := h5.next (.allow (.action _ (.willDisplay 0)) ⟨trivial, trivial⟩)
  have h7 := h6.next (.allow (.success (n := 3) [2] ⟨rfl, by decide⟩)
    ⟨fun s page he => by cases he; rfl, show ∀ m < 3, m ∈ [0, 1, 2] by decide⟩)
  exact ⟨_, h7, rfl, pages_in_order h7 (quiet_of_all (by decide))⟩

/-- The list is refreshed before its first page has arrived. -/
def refreshInFlight : List (CoinsListEvent Int) :=
  [.action (.refreshData none), .success 0 [1], .success 1 [1]]

/-- The last row is displayed twice, and the third page arrives before the second. -/
def thirdBeforeSecond : List (CoinsListEvent Int) :=
  [.success 0 [1], .action (.willDisplay 0), .action (.willDisplay 0), .success 2 [3],
    .success 1 [2]]

/-- **A page is shown twice** where a refresh overtakes a response, **and pages are swapped**
    where responses overtake each other. -/
theorem pages_out_of_order :
    (∃ w : CoinsList Int,
      Run (Guarded (Scrolling onePerPage) CoinsListStep) loaded refreshInFlight w ∧
      Quiet w.presenter.requests w.answered ∧ w.presenter.viewData = [1, 1] ∧
      pages onePerPage w.presenter.numberOfPage = [1]) ∧
    ∃ w : CoinsList Int,
      Run (Guarded (Scrolling onePerPage) CoinsListStep) loaded thirdBeforeSecond w ∧
      Quiet w.presenter.requests w.answered ∧ w.presenter.viewData = [1, 3, 2] ∧
      pages onePerPage w.presenter.numberOfPage = [1, 2, 3] := by
  refine ⟨?_, ?_⟩
  · have h1 : Run (Guarded (Scrolling onePerPage) CoinsListStep) loaded _ _ :=
      .single (.allow (.action _ (.refreshData none)) trivial)
    have h2 := h1.next (.allow (.success (n := 0) [1] ⟨rfl, List.not_mem_nil⟩)
      (fun s page he => by cases he; rfl))
    have h3 := h2.next (.allow (.success (n := 1) [1] ⟨rfl, by decide⟩)
      (fun s page he => by cases he; rfl))
    exact ⟨_, h3, quiet_of_all (by decide), rfl, rfl⟩
  · have h1 : Run (Guarded (Scrolling onePerPage) CoinsListStep) loaded _ _ :=
      .single (.allow (.success (n := 0) [1] ⟨rfl, List.not_mem_nil⟩)
        (fun s page he => by cases he; rfl))
    have h2 := h1.next (.allow (.action _ (.willDisplay 0)) trivial)
    have h3 := h2.next (.allow (.action _ (.willDisplay 0)) trivial)
    have h4 := h3.next (.allow (.success (n := 2) [3] ⟨rfl, by decide⟩)
      (fun s page he => by cases he; rfl))
    have h5 := h4.next (.allow (.success (n := 1) [2] ⟨rfl, by decide⟩)
      (fun s page he => by cases he; rfl))
    exact ⟨_, h5, quiet_of_all (by decide), rfl, rfl⟩

end CryptoWallet
