/-
  File:      CryptoWallet/CoinList/PageRequests.lean
  Subject:   Which pages the coin list asks for, and what a failed request leaves.

  A page is requested by the `didSet` of `numberOfPage` only, so the requests follow the
  assignments. `assignments` lists those of an action, in the words of the code that makes them.

  * `act_pageEffect`: an action assigns nothing, or, outside a search, 1 or the next page.
  * `pages_requested_in_order`: between two assignments of 1 the pages 1, 2, ... up to the
    current one are asked for, once each; none beyond 58, and none in a search.
  * `failed_page_unchanged_iff`: a failed request leaves the list as it was only where an empty
    first page was refreshed: the list is changed before the request is made.
  * `failed_page_skipped`: a page that fails is never asked for again.
-/
import Mathlib.Data.List.Chain
import CryptoWallet.CoinList.Paging
import CryptoWallet.CoinList.Session

namespace CryptoWallet

open Runs Calls

variable {α : Type}

/-! ## 1. Pages and assignments -/

/-- The page a request asks for. -/
def TypeOfRequest.page? : TypeOfRequest → Option Int
  | .allCurrencies _ numberOfPage => some numberOfPage
  | _ => none

/-- The pages asked for, oldest first. -/
def pagesOf (requests : List TypeOfRequest) : List Int := requests.filterMap (·.page?)

/-- An assignment to `numberOfPage`, and whether it was made in a search. -/
structure Assignment where
  oldValue : Nat
  newValue : Nat
  isSearching : Bool
  deriving DecidableEq, Repr

namespace CoinsListViewPresenter

variable (p : CoinsListViewPresenter α)

def assignment (newValue : Nat) : Assignment := ⟨p.numberOfPage, newValue, p.isSearching⟩

/-- The assignments an assignment to `chosenTypeOfSort` makes. -/
def sortAssignments (newValue : TypeOfSort) : List Assignment :=
  if !p.isSearching && decide (newValue ≠ p.chosenTypeOfSort) then [p.assignment 1] else []

/-- The assignments to `numberOfPage` an action makes, in order. -/
def assignments : Action → List Assignment
  | .setDefaults =>
      p.sortAssignments .marketCap ++ [(p.setChosenTypeOfSort .marketCap).assignment 1]
  | .willDisplay row =>
      if !p.isSearching && decide (p.numberOfPage < 58) then
        if (row : Int) = (p.viewData.length : Int) - 1 then [p.assignment (p.numberOfPage + 1)]
        else []
      else []
  | .refreshData _ => if p.isSearching then [] else [p.assignment 1]
  | .didSelectRowInPickerView row _ => p.sortAssignments (sortOfRow row)
  | .searchBarShouldBeginEditing => []
  | .searchBarButtonClicked (.search _) => []
  | .searchBarButtonClicked .cancel =>
      match p.restoreList.tempChosenTypeOfSort with
      | none => []
      | some tempChosenTypeOfSort => p.restoreList.sortAssignments tempChosenTypeOfSort

/-- Neither the page nor the pages asked for change. -/
structure SamePage (p q : CoinsListViewPresenter α) : Prop where
  numberOfPage : q.numberOfPage = p.numberOfPage
  pages : pagesOf q.requests = pagesOf p.requests

/-- **What happens to the page**: nothing, or, outside a search, one assignment of 1 or of the
    next page, and a request for it. -/
def PageEffect (p q : CoinsListViewPresenter α) (log : List Assignment) : Prop :=
  (log = [] ∧ SamePage p q) ∨
    ∃ n, log = [⟨p.numberOfPage, n, false⟩] ∧ (n = 1 ∨ n = p.numberOfPage + 1 ∧ n ≤ 58) ∧
      q.numberOfPage = n ∧ pagesOf q.requests = pagesOf p.requests ++ [(n : Int)]

variable {p} {q r : CoinsListViewPresenter α} {log : List Assignment}

theorem SamePage.trans (h : SamePage p q) (h' : SamePage q r) : SamePage p r :=
  ⟨h'.numberOfPage.trans h.numberOfPage, h'.pages.trans h.pages⟩

theorem PageEffect.then_same (h : PageEffect p q log) (h' : SamePage q r) : PageEffect p r log := by
  rcases h with ⟨e, h⟩ | ⟨n, e, hn, hpage, hpages⟩
  · exact Or.inl ⟨e, h.trans h'⟩
  · exact Or.inr ⟨n, e, hn, h'.numberOfPage.trans hpage, h'.pages.trans hpages⟩

theorem SamePage.then_effect (h : SamePage p q) (h' : PageEffect q r log) : PageEffect p r log := by
  rcases h' with ⟨e, h'⟩ | ⟨n, e, hn, hpage, hpages⟩
  · exact Or.inl ⟨e, h.trans h'⟩
  · exact Or.inr ⟨n, h.numberOfPage ▸ e, h.numberOfPage ▸ hn, hpage, by rw [hpages, h.pages]⟩

/-! ## 2. What each part of an action does -/

theorem samePage_setViewData (v : List α) : SamePage p (p.setViewData v) := by
  refine ⟨?_, by rw [setViewData_requests]⟩
  unfold setViewData
  split <;> rfl

theorem samePage_startSearch (text : String) : SamePage p (p.startSearch text) := by
  rw [startSearch_eq]
  exact ⟨rfl, by simp [pagesOf, TypeOfRequest.page?]⟩

theorem samePage_updateSearch (text : Option String) :
    SamePage p (p.updateSearchDataforCurrentSort text) := by
  cases text with
  | none => exact ⟨rfl, rfl⟩
  | some text =>
      rw [updateSearchDataforCurrentSort]
      split
      · exact samePage_startSearch text
      · exact ⟨rfl, rfl⟩

/-- **An assignment requests its page.** -/
theorem setNumberOfPage_page (p : CoinsListViewPresenter α) (n : Nat) :
    (p.setNumberOfPage n).numberOfPage = n ∧
      pagesOf (p.setNumberOfPage n).requests = pagesOf p.requests ++ [(n : Int)] := by
  have hsame : SamePage { p with numberOfPage := n }
      (if n = 1 then { p with numberOfPage := n }.setViewData []
        else { p with numberOfPage := n }) := by
    split
    · exact samePage_setViewData []
    · exact ⟨rfl, rfl⟩
  refine ⟨hsame.numberOfPage, ?_⟩
  show pagesOf (_ ++ [_]) = _
  rw [pagesOf, List.filterMap_append]
  exact congrArg (· ++ [(n : Int)]) hsame.pages

theorem pageEffect_reset (h : p.isSearching = false) :
    PageEffect p (p.setNumberOfPage 1) [p.assignment 1] := by
  obtain ⟨hpage, hpages⟩ := setNumberOfPage_page p 1
  exact Or.inr ⟨1, by rw [assignment, h], Or.inl rfl, hpage, hpages⟩

theorem pageEffect_sort (s : TypeOfSort) :
    PageEffect p (p.setChosenTypeOfSort s) (p.sortAssignments s) := by
  cases h : p.isSearching with
  | true =>
      rw [setChosenTypeOfSort_searching h]
      refine Or.inl ⟨?_, rfl, rfl⟩
      rw [sortAssignments, h]
      rfl
  | false =>
      rw [setChosenTypeOfSort_listing h]
      dsimp only
      by_cases hs : s = p.chosenTypeOfSort
      · rw [if_pos hs]
        exact Or.inl ⟨by simp [sortAssignments, hs], rfl, rfl⟩
      · have hlog : p.sortAssignments s = [p.assignment 1] := by simp [sortAssignments, h, hs]
        rw [if_neg hs, hlog]
        exact SamePage.then_effect (q := { p with chosenTypeOfSort := s, viewCalls := _ })
          ⟨rfl, rfl⟩ (pageEffect_reset h)

/-- A row display asks for the next page, if it asks for one. -/
theorem willDisplay_page (p : CoinsListViewPresenter α) (row : Nat) :
    (p.assignments (.willDisplay row) = [] ∧ SamePage p (p.willDisplay row)) ∨
      (p.numberOfPage + 1 ≤ 58 ∧
        p.assignments (.willDisplay row) = [⟨p.numberOfPage, p.numberOfPage + 1, false⟩] ∧
        (p.willDisplay row).numberOfPage = p.numberOfPage + 1 ∧
        pagesOf (p.willDisplay row).requests =
          pagesOf p.requests ++ [(p.numberOfPage + 1 : Int)]) := by
  have hlog : p.assignments (.willDisplay row) =
      if !p.isSearching && decide (p.numberOfPage < 58) then
        if (row : Int) = (p.viewData.length : Int) - 1 then [p.assignment (p.numberOfPage + 1)]
        else []
      else [] := rfl
  rw [hlog, willDisplay]
  by_cases hcond : (!p.isSearching && decide (p.numberOfPage < 58)) = true
  · rw [if_pos hcond, if_pos hcond]
    by_cases hrow : (row : Int) = (p.viewData.length : Int) - 1
    · rw [if_pos hrow, if_pos hrow]
      obtain ⟨hs, hn⟩ := Bool.and_eq_true_iff.mp hcond
      have hlisting : p.isSearching = false := by simpa using hs
      exact Or.inr ⟨of_decide_eq_true hn, by rw [assignment, hlisting],
        setNumberOfPage_page (p.call .setupActivityIndicator) (p.numberOfPage + 1)⟩
    · rw [if_neg hrow, if_neg hrow]
      exact Or.inl ⟨rfl, rfl, rfl⟩
  · rw [if_neg hcond, if_neg hcond]
    exact Or.inl ⟨rfl, rfl, rfl⟩

theorem pageEffect_cancel :
    PageEffect p (p.searchBarButtonClicked .cancel)
      (p.assignments (.searchBarButtonClicked .cancel)) := by
  have hlist : SamePage p p.restoreList := by
    obtain ⟨calls, e⟩ := p.restoreList_eq
    rw [e]
    exact ⟨rfl, rfl⟩
  refine hlist.then_effect ?_
  show PageEffect p.restoreList p.restoreList.restoreSort _
  rw [assignments, restoreSort]
  cases p.restoreList.tempChosenTypeOfSort with
  | none => exact Or.inl ⟨rfl, rfl, rfl⟩
  | some s => exact (pageEffect_sort s).then_same ⟨rfl, rfl⟩

/-- **What an action does to the page**, once the screen is loaded. -/
theorem act_pageEffect {a : Action} (ha : a ≠ .setDefaults) :
    PageEffect p (p.act a) (p.assignments a) := by
  cases a with
  | setDefaults => exact absurd rfl ha
  | willDisplay row =>
      rcases p.willDisplay_page row with h | ⟨h58, hlog, hpage, hpages⟩
      · exact Or.inl h
      · exact Or.inr ⟨_, hlog, Or.inr ⟨rfl, h58⟩, hpage, hpages⟩
  | refreshData text =>
      show PageEffect p (p.refreshData text) (if p.isSearching then [] else [p.assignment 1])
      rw [refreshData]
      cases h : p.isSearching with
      | true => exact Or.inl ⟨rfl, samePage_updateSearch text⟩
      | false => exact pageEffect_reset h
  | didSelectRowInPickerView row text =>
      exact (pageEffect_sort (sortOfRow row)).then_same (samePage_updateSearch text)
  | searchBarShouldBeginEditing => exact Or.inl ⟨rfl, rfl, rfl⟩
  | searchBarButtonClicked type =>
      cases type with
      | cancel => exact pageEffect_cancel
      | search text =>
          cases text with
          | none => exact Or.inl ⟨rfl, rfl, rfl⟩
          | some text => exact Or.inl ⟨rfl, samePage_startSearch text⟩

theorem samePage_receive (t : TypeOfRequest) (models : List α) :
    SamePage p (p.receive t models) := by
  cases t with
  | searchingRequest text s => exact samePage_setViewData models
  | allCurrencies s page => exact samePage_setViewData _
  | favouriteCoins ids => exact ⟨rfl, rfl⟩

end CoinsListViewPresenter

/-! ## 3. Runs -/

/-- The assignments to `numberOfPage` an event makes. -/
def CoinsList.assignments (w : CoinsList α) : CoinsListEvent α → List Assignment
  | .action a => w.presenter.assignments a
  | _ => []

/-- A step of the coin list, with the assignments made so far. -/
inductive PagedStep :
    CoinsList α × List Assignment → CoinsListEvent α → CoinsList α × List Assignment → Prop where
  | step {w w' : CoinsList α} {e : CoinsListEvent α} (log : List Assignment)
      (hs : CoinsListStep w e w') : PagedStep (w, log) e (w', log ++ w.assignments e)

/-- The screen has just been loaded. -/
def pagedStart : CoinsList α × List Assignment :=
  (loaded, ({} : CoinsListViewPresenter α).assignments .setDefaults)

/-- The screen is loaded once. -/
def Continues (_ : CoinsList α × List Assignment) : CoinsListEvent α → Prop
  | .action .setDefaults => False
  | _ => True

/-- One assignment follows another. -/
def Follows (a b : Assignment) : Prop :=
  b.oldValue = a.newValue ∧ (b.newValue = 1 ∨ b.newValue = b.oldValue + 1)

/-- The assignments of a run, and where they have led. -/
structure Paged (w : CoinsList α) (log : List Assignment) : Prop where
  requested : pagesOf w.presenter.requests = log.map fun a => (a.newValue : Int)
  first : log.head?.map (·.newValue) = some 1
  follows : log.IsChain Follows
  last : log.getLast?.map (·.newValue) = some w.presenter.numberOfPage
  range : ∀ a ∈ log, 1 ≤ a.newValue ∧ a.newValue ≤ 58
  listing : ∀ a ∈ log, a.isSearching = false

section Paged

variable {w w' : CoinsList α} {log : List Assignment}

theorem Paged.same (h : Paged w log) (hs : w.presenter.SamePage w'.presenter) : Paged w' log :=
  { h with
    requested := hs.pages.trans h.requested
    last := hs.numberOfPage ▸ h.last }

/-- An assignment goes to the end of the log. -/
theorem Paged.assign (h : Paged w log) {n : Nat}
    (hn : n = 1 ∨ n = w.presenter.numberOfPage + 1 ∧ n ≤ 58)
    (hpage : w'.presenter.numberOfPage = n)
    (hpages : pagesOf w'.presenter.requests = pagesOf w.presenter.requests ++ [(n : Int)]) :
    Paged w' (log ++ [⟨w.presenter.numberOfPage, n, false⟩]) where
  requested := by rw [hpages, h.requested, List.map_append]; rfl
  first := by
    cases log with
    | nil => exact absurd h.first (by simp)
    | cons a log => exact h.first
  follows := by
    rw [List.isChain_append]
    refine ⟨h.follows, .singleton _, fun a ha b hb => ?_⟩
    obtain rfl : _ = b := Option.some.inj hb
    have hlast := h.last
    rw [Option.mem_def.mp ha, Option.map_some, Option.some.injEq] at hlast
    exact ⟨hlast.symm, hn.imp id And.left⟩
  last := by rw [List.getLast?_append_of_ne_nil _ (List.cons_ne_nil _ _), hpage]; rfl
  range a ha := by
    rcases List.mem_append.mp ha with ha | ha
    · exact h.range a ha
    · rw [List.mem_singleton.mp ha]
      rcases hn with rfl | ⟨rfl, h58⟩
      · exact ⟨le_rfl, show 1 ≤ 58 by decide⟩
      · exact ⟨Nat.succ_pos _, h58⟩
  listing a ha := by
    rcases List.mem_append.mp ha with ha | ha
    · exact h.listing a ha
    · rw [List.mem_singleton.mp ha]

/-- **One step keeps the log.** -/
theorem paged_step {log' : List Assignment} {e : CoinsListEvent α} (h : Paged w log)
    (hs : Guarded Continues PagedStep (w, log) e (w', log')) : Paged w' log' := by
  obtain ⟨hok, hs⟩ := hs
  cases hs with
  | step _ hs =>
      cases hs with
      | success models ho =>
          show Paged _ (log ++ [])
          rw [List.append_nil]
          exact h.same (CoinsListViewPresenter.samePage_receive _ models)
      | failure ho =>
          show Paged _ (log ++ [])
          rw [List.append_nil]
          exact h.same ⟨rfl, rfl⟩
      | action a =>
          have ha : a ≠ .setDefaults := by
            rintro rfl
            exact hok
          rcases CoinsListViewPresenter.act_pageEffect (p := w.presenter) ha with
            ⟨e, hsame⟩ | ⟨n, e, hn, hpage, hpages⟩
          · rw [CoinsList.assignments, e, List.append_nil]
            exact h.same hsame
          · rw [CoinsList.assignments, e]
            exact h.assign hn hpage hpages

theorem paged_start : Paged (pagedStart (α := α)).1 (pagedStart (α := α)).2 where
  requested := rfl
  first := rfl
  follows := .singleton _
  last := rfl
  range a ha := by rw [List.mem_singleton.mp ha]; exact ⟨le_rfl, show 1 ≤ 58 by decide⟩
  listing a ha := by rw [List.mem_singleton.mp ha]; rfl

end Paged

/-- Assignments that never go back to 1 count up. -/
theorem map_of_follows {a : Assignment} {log : List Assignment} (h : (a :: log).IsChain Follows)
    (hone : ∀ b ∈ log, b.newValue ≠ 1) :
    (a :: log).map (·.newValue) = List.range' a.newValue (log.length + 1) ∧
      (a :: log).getLast?.map (·.newValue) = some (a.newValue + log.length) := by
  induction log generalizing a with
  | nil => exact ⟨rfl, rfl⟩
  | cons b log ih =>
      rw [List.isChain_cons_cons] at h
      obtain ⟨⟨hold, hnew⟩, h⟩ := h
      have hb : b.newValue = a.newValue + 1 := by
        rcases hnew with hnew | hnew
        · exact absurd hnew (hone b List.mem_cons_self)
        · rw [hnew, hold]
      obtain ⟨hmap, hlast⟩ := ih h fun c hc => hone c (List.mem_cons_of_mem _ hc)
      refine ⟨?_, ?_⟩
      · rw [List.map_cons, hmap, hb, List.range'_succ (s := a.newValue)]
        rfl
      · rw [List.getLast?_cons_cons, hlast, hb, List.length_cons]
        congr 1
        omega

/-- **Pages are requested without gaps or repeats**: the requests for pages are the assignments to
    `numberOfPage`; from an assignment of 1 up to the next one, or to the end, they are for the
    pages from 1 to the `numberOfPage` of that moment; all are for pages 1 to 58, and none was made
    in a search. -/
theorem pages_requested_in_order {es : List (CoinsListEvent α)} {w : CoinsList α}
    {log : List Assignment} (h : Run (Guarded Continues PagedStep) pagedStart es (w, log)) :
    (pagesOf w.presenter.requests = log.map fun a => (a.newValue : Int)) ∧
    log.head?.map (·.newValue) = some 1 ∧
    (∀ pre first segment post, log = pre ++ first :: segment ++ post → first.newValue = 1 →
      (∀ a ∈ segment, a.newValue ≠ 1) →
      (post = [] →
        (first :: segment).map (·.newValue) = List.range' 1 w.presenter.numberOfPage) ∧
      ∀ next rest, post = next :: rest → next.newValue = 1 →
        (first :: segment).map (·.newValue) = List.range' 1 next.oldValue) ∧
    (∀ page ∈ pagesOf w.presenter.requests, 1 ≤ page ∧ page ≤ 58) ∧
    ∀ a ∈ log, a.isSearching = false := by
  have hI : Paged w log :=
    h.invariant (I := fun s : CoinsList α × List Assignment => Paged s.1 s.2) paged_start
      fun _ _ _ hI hs => paged_step hI hs
  refine ⟨hI.requested, hI.first, fun pre first segment post e hfirst hone => ?_, ?_, hI.listing⟩
  · have hchain := hI.follows
    rw [e, List.append_assoc, List.isChain_append, List.isChain_append] at hchain
    obtain ⟨-, ⟨hseg, -, hnext⟩, -⟩ := hchain
    obtain ⟨hmap, hlast⟩ := map_of_follows hseg hone
    rw [hfirst] at hmap hlast
    refine ⟨?_, ?_⟩
    · rintro rfl
      have hpage := hI.last
      rw [e, List.append_nil, List.getLast?_append_of_ne_nil _ (List.cons_ne_nil _ _), hlast,
        Option.some.injEq] at hpage
      rw [hmap, ← hpage, Nat.add_comm]
    · rintro next rest rfl -
      obtain ⟨a, ha, hvalue⟩ := Option.map_eq_some_iff.mp hlast
      rw [hmap, (hnext a ha next rfl).1, hvalue, Nat.add_comm]
  · intro page hpage
    rw [hI.requested] at hpage
    obtain ⟨a, ha, rfl⟩ := List.mem_map.mp hpage
    have hrange := hI.range a ha
    omega

/-- A page, the next one, and a refresh: the pages 1, 2 and 1 are asked for. -/
theorem pages_requested_in_order_refresh :
    ∃ (es : List (CoinsListEvent String)) (w : CoinsList String) (log : List Assignment),
      Run (Guarded Continues PagedStep) pagedStart es (w, log) ∧
      pagesOf w.presenter.requests = [1, 2, 1] ∧
      (log.take 2).map (·.newValue) = List.range' 1 2 := by
  have h1 : Run (Guarded Continues PagedStep) pagedStart _ _ := .single
    (.allow (.step _ (.success (n := 0) ["bitcoin"] ⟨rfl, List.not_mem_nil⟩)) trivial)
  have h2 := h1.next (.allow (.step _ (.action _ (.willDisplay 0))) trivial)
  have h3 := h2.next (.allow (.step _ (.action _ (.refreshData none))) trivial)
  refine ⟨_, _, _, h3, rfl, ?_⟩
  exact ((pages_requested_in_order h3).2.2.1 [] ⟨1, 1, false⟩ [⟨1, 2, false⟩] [⟨2, 1, false⟩] rfl
    rfl (by decide)).2 _ _ rfl rfl

/-! ## 4. Failed requests -/

/-- The list is as it was. -/
structure SameList (w w' : CoinsList α) : Prop where
  viewData : w'.presenter.viewData = w.presenter.viewData
  numberOfPage : w'.presenter.numberOfPage = w.presenter.numberOfPage

/-- A step of the list, or a row display or refresh together with the failure of the page
    request it makes. -/
inductive LoadLabel (α : Type) where
  | event (e : CoinsListEvent α)
  | failedLoad (a : Action)

/-- What may ask for a page: a row display or a refresh. -/
def Action.Loads : Action → Prop
  | .willDisplay _ => True
  | .refreshData _ => True
  | _ => False

/-- **Steps and failed loads.** A load begins outside a search, with nothing outstanding. Its
    request is answered with a failure, or never: then the list stays as the load has left it. -/
inductive LoadStep : CoinsList α → LoadLabel α → CoinsList α → Prop where
  | event {w w' : CoinsList α} {e : CoinsListEvent α} (hs : CoinsListStep w e w') :
      LoadStep w (.event e) w'
  | failedLoad {w w' : CoinsList α} {a : Action} {s : TypeOfSort} {page : Nat}
      (hlist : w.presenter.isSearching = false)
      (hq : Quiet w.presenter.requests w.answered) (ha : a.Loads)
      (hreq : (w.presenter.act a).requests = w.presenter.requests ++ [.allCurrencies s page])
      (hfail : w' = { w with presenter := w.presenter.act a } ∨
        CoinsListStep { w with presenter := w.presenter.act a }
          (.failure w.presenter.requests.length) w') :
      LoadStep w (.failedLoad a) w'

/-- A step in which a failed load leaves the list as it was. -/
def KeepingStep (w : CoinsList α) (l : LoadLabel α) (w' : CoinsList α) : Prop :=
  LoadStep w l w' ∧ ∀ a, l = .failedLoad a → SameList w w'

/-- An empty first page is refreshed. -/
def RefreshesNothing (w : CoinsList α) (a : Action) : Prop :=
  (∃ text, a = .refreshData text) ∧ w.presenter.numberOfPage = 1 ∧ w.presenter.viewData = []

/-- A load that fails refreshes an empty first page. -/
def FailuresHarmless (w : CoinsList α) : LoadLabel α → Prop
  | .failedLoad a => RefreshesNothing w a
  | .event _ => True

/-- **A failed load leaves the list as it was exactly if it refreshes an empty first page.** -/
theorem sameList_iff {w w' : CoinsList α} {a : Action} (h : LoadStep w (.failedLoad a) w') :
    SameList w w' ↔ RefreshesNothing w a := by
  cases h with
  | failedLoad hlist hq ha hreq hfail =>
      have hw' : w'.presenter = w.presenter.act a := by
        rcases hfail with rfl | hs
        · rfl
        · cases hs with
          | failure ho => rfl
      cases a with
      | willDisplay row =>
          rcases w.presenter.willDisplay_page row with ⟨-, hsame⟩ | ⟨-, -, hpage, -⟩
          · -- without a request nothing was loaded
            have hpages := hsame.pages
            rw [show (w.presenter.willDisplay row).requests = _ from hreq, pagesOf,
              List.filterMap_append] at hpages
            exact absurd (List.append_right_eq_self.mp hpages) (List.cons_ne_nil _ _)
          · refine ⟨fun hs => ?_, fun hc => ?_⟩
            · have hnum := hs.numberOfPage
              rw [hw'] at hnum
              have : w.presenter.numberOfPage + 1 = w.presenter.numberOfPage :=
                hpage.symm.trans hnum
              omega
            · obtain ⟨⟨text, e⟩, -⟩ := hc
              cases e
      | refreshData text =>
          have hact : w.presenter.act (.refreshData text) = w.presenter.setNumberOfPage 1 := by
            show w.presenter.refreshData text = _
            rw [CoinsListViewPresenter.refreshData, hlist]
            rfl
          rw [hact, CoinsListViewPresenter.setNumberOfPage_one hlist] at hw'
          refine ⟨fun hs => ⟨⟨text, rfl⟩, ?_, ?_⟩, fun hc => ⟨?_, ?_⟩⟩
          · rw [← hs.numberOfPage, hw']
          · rw [← hs.viewData, hw']
          · rw [hw', hc.2.2]
          · rw [hw', hc.2.1]
      | setDefaults => exact ha.elim
      | didSelectRowInPickerView row text => exact ha.elim
      | searchBarShouldBeginEditing => exact ha.elim
      | searchBarButtonClicked type => exact ha.elim

/-- **When a failed load leaves the list as it was**: in every state, reached by a run or not,
    exactly when it refreshes an empty first page; and the runs whose failed loads all leave the
    list as it was are those whose failed loads all do that. -/
theorem failed_page_unchanged_iff :
    (∀ (w w' : CoinsList α) (a : Action), LoadStep w (.failedLoad a) w' →
      (SameList w w' ↔ RefreshesNothing w a)) ∧
    ∀ (ls : List (LoadLabel α)) (w : CoinsList α),
      Run KeepingStep {} ls w ↔ Run (Guarded FailuresHarmless LoadStep) {} ls w := by
  refine ⟨fun w w' a hs => sameList_iff hs, fun ls w => ⟨fun hr => ?_, fun hr => ?_⟩⟩
  · refine hr.mono fun w l w' hs => .allow hs.1 ?_
    cases l with
    | event e => trivial
    | failedLoad a => exact (sameList_iff hs.1).mp (hs.2 a rfl)
  · refine hr.mono fun w l w' hs => ⟨hs.2, ?_⟩
    rintro a rfl
    exact (sameList_iff hs.2).mpr hs.1

/-- Nothing is lost where nothing is shown. -/
theorem failed_page_unchanged_refresh :
    ∃ w : CoinsList String, LoadStep {} (.failedLoad (.refreshData none)) w ∧ SameList {} w := by
  have hload : LoadStep ({} : CoinsList String) (.failedLoad (.refreshData none)) _ :=
    .failedLoad rfl (quiet_of_all (by decide)) trivial rfl (Or.inl rfl)
  exact ⟨_, hload, (failed_page_unchanged_iff.1 _ _ _ hload).mpr ⟨⟨none, rfl⟩, rfl, rfl⟩⟩

/-- **A page that fails is never asked for again**: page 2 fails, and the next row display asks for
    page 3; and a refresh that fails leaves the list empty. -/
theorem failed_page_skipped :
    (∃ w w' : CoinsList String, Run LoadStep {} (onePage.map .event) w ∧
      LoadStep w (.failedLoad (.willDisplay 0)) w' ∧ ¬ SameList w w' ∧
      pagesOf w'.presenter.requests = [1, 2] ∧
      pagesOf (w'.presenter.act (.willDisplay 0)).requests = [1, 2, 3]) ∧
    ∃ w w' : CoinsList String, Run LoadStep {} (onePage.map .event) w ∧
      LoadStep w (.failedLoad (.refreshData none)) w' ∧ ¬ SameList w w' ∧
      w.presenter.viewData = ["bitcoin"] ∧ w'.presenter.viewData = [] := by
  have h1 : Run LoadStep ({} : CoinsList String) _ _ := .single (.event (.action _ .setDefaults))
  have h2 := h1.next (.event (.success (n := 0) ["bitcoin"] ⟨rfl, List.not_mem_nil⟩))
  have hq : Quiet onePageShown.presenter.requests onePageShown.answered :=
    quiet_of_all (by decide)
  have hdisplay : LoadStep onePageShown (.failedLoad (.willDisplay 0)) _ :=
    .failedLoad rfl hq trivial rfl (Or.inr (.failure (n := 1) ⟨rfl, by decide⟩))
  have hrefresh : LoadStep onePageShown (.failedLoad (.refreshData none)) _ :=
    .failedLoad rfl hq trivial rfl (Or.inr (.failure (n := 1) ⟨rfl, by decide⟩))
  refine ⟨⟨_, _, h2, hdisplay, fun hs => ?_, rfl, rfl⟩, _, _, h2, hrefresh, fun hs => ?_, rfl, rfl⟩
  · exact absurd hs.numberOfPage (by decide)
  · exact absurd hs.viewData (by decide)

end CryptoWallet
