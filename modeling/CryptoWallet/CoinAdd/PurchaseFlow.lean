/-
  File:      CryptoWallet/CoinAdd/PurchaseFlow.lean
  Subject:   From a row of the list to a purchase: the list, the screen of a coin over it, and the
             purchase form over that (CoinsListViewController.swift,
             DetailCoinViewPresenter.swift, DetailCoinViewController.swift).

  Each screen is handed the view model of the one below and keeps it, while the list goes on
  changing underneath.

  * `Screens`, `ScreensStep`: the three screens, and what can happen to them.
  * `bought_was_selected`: **every coin added was in an answer, in the list and selected there**,
    and was bought within the range it was shown with.
-/
import CryptoWallet.CoinAdd.CoinAddViewController
import CryptoWallet.CoinList.HeldRows
import CryptoWallet.TableRows

namespace CryptoWallet

open Runs Calls

/-! ## 1. The screens -/

variable {Image : Type} {T : DoubleText Double}

/-- `DetailCoinViewPresenter` -/
structure DetailCoinViewPresenter (Image : Type) where
  viewData : Option (CoinTableViewCellViewModel Double Image) := none

/-- `configure(data:)` -/
def DetailCoinViewPresenter.configure (p : DetailCoinViewPresenter Image)
    (data : CoinTableViewCellViewModel Double Image) : DetailCoinViewPresenter Image :=
  { p with viewData := some data }

/-- `addToPortfolioButtonAction`: the form that `showVC` presents, if there is a coin. -/
def DetailCoinViewPresenter.addToPortfolioButtonAction (T : DoubleText Double)
    (p : DetailCoinViewPresenter Image) : Option (CoinAddViewController Image) :=
  p.viewData.map fun data => CoinAddViewController.configure T {} data

/-- The list, the screen of a coin and the form over it, and the forms that are gone. -/
structure Screens (Image : Type) where
  list : CoinsList (CoinTableViewCellViewModel Double Image) := {}
  detail : Option (DetailCoinViewPresenter Image) := none
  form : Option (CoinAddViewController Image) := none
  gone : List (CoinAddViewController Image) := []

/-- The calls `FirebaseManager.add` of all forms. -/
def Screens.added (s : Screens Image) : List Coin :=
  (s.gone ++ s.form.toList).flatMap (·.added)

inductive ScreensEvent (Image : Type) where
  | list (e : CoinsListEvent (CoinTableViewCellViewModel Double Image))
  | didSelectRow (row : Nat)
  | addToPortfolioButtonTapped
  | form (e : FormEvent)
  | formGone
  | detailGone

/-- One event. A row is selected on the list itself; either screen may be swiped away. -/
inductive ScreensStep (T : DoubleText Double) :
    Screens Image → ScreensEvent Image → Screens Image → Prop where
  | list {s : Screens Image} {e : CoinsListEvent (CoinTableViewCellViewModel Double Image)}
      {w : CoinsList (CoinTableViewCellViewModel Double Image)} :
      CoinsListStep s.list e w → ScreensStep T s (.list e) { s with list := w }
  | didSelectRow {s : Screens Image} {row : Nat}
      {data : CoinTableViewCellViewModel Double Image} :
      s.detail = none → s.list.presenter.rowAt row = some data →
      ScreensStep T s (.didSelectRow row)
        { s with detail := some (DetailCoinViewPresenter.configure {} data) }
  | addToPortfolioButtonTapped {s : Screens Image} {p : DetailCoinViewPresenter Image}
      {v : CoinAddViewController Image} :
      s.detail = some p → s.form = none → p.addToPortfolioButtonAction T = some v →
      ScreensStep T s .addToPortfolioButtonTapped { s with form := some v }
  | form {s : Screens Image} {e : FormEvent} {v v' : CoinAddViewController Image} :
      s.form = some v → FormStep T v e v' →
      ScreensStep T s (.form e) { s with form := some v' }
  | formGone {s : Screens Image} {v : CoinAddViewController Image} :
      s.form = some v →
      ScreensStep T s .formGone { s with form := none, gone := s.gone ++ [v] }
  | detailGone {s : Screens Image} :
      s.form = none → ScreensStep T s .detailGone { s with detail := none }

/-! ## 2. Where the purchases come from -/

/-- A request of the list was answered with the coin. -/
def Answered (es : List (ScreensEvent Image)) (data : CoinTableViewCellViewModel Double Image) :
    Prop := ∃ e, .list e ∈ es ∧ AnswersWith data e

/-- The row of the coin was selected, and a request had been answered with it by then. -/
def Selected (T : DoubleText Double) (es : List (ScreensEvent Image))
    (data : CoinTableViewCellViewModel Double Image) : Prop :=
  ∃ pre row post s, es = pre ++ .didSelectRow row :: post ∧ Run (ScreensStep T) {} pre s ∧
    s.list.presenter.rowAt row = some data ∧ Answered pre data

/-- The form was opened for a coin that was selected. -/
def FormOfSelected (T : DoubleText Double) (es : List (ScreensEvent Image))
    (v : CoinAddViewController Image) : Prop :=
  ∃ data fs, Selected T es data ∧ Run (FormStep T) (CoinAddViewController.configure T {} data) fs v

variable {es : List (ScreensEvent Image)} {s s' : Screens Image} {e : ScreensEvent Image}
  {data : CoinTableViewCellViewModel Double Image} {v : CoinAddViewController Image}

theorem Answered.snoc (h : Answered es data) (e : ScreensEvent Image) :
    Answered (es ++ [e]) data := by
  obtain ⟨e', hmem, he⟩ := h
  exact ⟨e', List.mem_append_left _ hmem, he⟩

theorem Selected.snoc (h : Selected T es data) (e : ScreensEvent Image) :
    Selected T (es ++ [e]) data := by
  obtain ⟨pre, row, post, s, rfl, hrun, hrow, hanswered⟩ := h
  exact ⟨pre, row, post ++ [e], s, by simp, hrun, hrow, hanswered⟩

theorem FormOfSelected.snoc (h : FormOfSelected T es v) (e : ScreensEvent Image) :
    FormOfSelected T (es ++ [e]) v := by
  obtain ⟨data, fs, hselected, hrun⟩ := h
  exact ⟨data, fs, hselected.snoc e, hrun⟩

/-- **Each screen shows what was selected below it.** -/
structure FromBelow (T : DoubleText Double) (es : List (ScreensEvent Image)) (s : Screens Image) :
    Prop where
  list : ∀ data, s.list.presenter.Holds data → Answered es data
  detail : ∀ p data, s.detail = some p → p.viewData = some data → Selected T es data
  form : ∀ v ∈ s.gone ++ s.form.toList, FormOfSelected T es v

/-- One event. -/
theorem ScreensStep.fromBelow (hr : Run (ScreensStep T) {} es s) (hs : ScreensStep T s e s')
    (h : FromBelow T es s) : FromBelow T (es ++ [e]) s' := by
  have hlist : ∀ data, s.list.presenter.Holds data → Answered (es ++ [e]) data :=
    fun data hd => (h.list data hd).snoc e
  have hdetail : ∀ p data, s.detail = some p → p.viewData = some data →
      Selected T (es ++ [e]) data := fun p data hp hd => (h.detail p data hp hd).snoc e
  have hform : ∀ v ∈ s.gone ++ s.form.toList, FormOfSelected T (es ++ [e]) v :=
    fun v hv => (h.form v hv).snoc e
  cases hs with
  | @list e w hw =>
      refine ⟨fun data hd => ?_, hdetail, hform⟩
      obtain he | hd := hw.holds hd
      · exact ⟨e, by simp, he⟩
      · exact hlist data hd
  | @didSelectRow row data _ hrow =>
      refine ⟨hlist, ?_, hform⟩
      rintro p data' ⟨⟩ ⟨⟩
      exact ⟨es, row, [], s, rfl, hr, hrow, h.list data (.inl (List.mem_of_getElem? hrow))⟩
  | @addToPortfolioButtonTapped p v hp hnone hv =>
      refine ⟨hlist, hdetail, fun v' hv' => ?_⟩
      rw [hnone] at hform
      obtain hv' | hv' := List.mem_append.mp hv'
      · exact hform v' (List.mem_append_left _ hv')
      · obtain rfl := List.mem_singleton.mp hv'
        obtain ⟨data, hdata, rfl⟩ := Option.map_eq_some_iff.mp hv
        exact ⟨data, [], hdetail p data hp hdata, .start⟩
  | @form e v v' hv hstep =>
      refine ⟨hlist, hdetail, fun u hu => ?_⟩
      rw [hv] at hform
      obtain hu | hu := List.mem_append.mp hu
      · exact hform u (List.mem_append_left _ hu)
      · obtain rfl := List.mem_singleton.mp hu
        obtain ⟨data, fs, hselected, hrun⟩ := hform v (by simp)
        exact ⟨data, fs ++ [e], hselected, hrun.next hstep⟩
  | @formGone v hv =>
      refine ⟨hlist, hdetail, ?_⟩
      rw [hv] at hform
      simpa using hform
  | detailGone hnone =>
      refine ⟨hlist, ?_, hform⟩
      rintro p data ⟨⟩

/-- **Every coin added was selected in the list**, where a request had been answered with it, and
    was bought within the range and under the id it was shown with, in every run. -/
theorem bought_was_selected (T : DoubleText Double) {es : List (ScreensEvent Image)}
    {s : Screens Image} (h : Run (ScreensStep T) {} es s) :
    ∀ coin ∈ s.added, ∃ data, Selected T es data ∧
      Buys T data (some coin.price) (some coin.quantity) coin := by
  have hbelow : FromBelow T es s := by
    refine h.invariant_along (I := FromBelow T) ⟨?_, ?_, ?_⟩
      fun _ _ _ _ hr h hs => hs.fromBelow hr h
    · exact fun _ hd => (hd.elim List.not_mem_nil List.not_mem_nil).elim
    · rintro _ _ ⟨⟩
    · exact fun _ hv => absurd hv List.not_mem_nil
  intro coin hcoin
  obtain ⟨v, hv, hcoin⟩ := List.mem_flatMap.mp hcoin
  obtain ⟨data, fs, hselected, hrun⟩ := hbelow.form v hv
  obtain ⟨sheet, -, hshows, htaps⟩ := form_sheet hrun
  exact ⟨data, hselected, htaps.coins coin (hshows.added ▸ hcoin)⟩

/-- A page is answered with bitcoin, its row is selected, and half a bitcoin is bought. -/
def halfBitcoin : List (ScreensEvent Unit) :=
  [.list (.action .setDefaults), .list (.success 0 [bitcoinShown]), .didSelectRow 0,
    .addToPortfolioButtonTapped, .form (.typePrice "47451"), .form (.typeQuantity "0.5"),
    .form .tapAdd]

theorem bought_was_selected_bitcoin :
    ∃ s data, Run (ScreensStep doubleText) {} halfBitcoin s ∧
      s.added = [⟨"bitcoin", "47451", "0.5"⟩] ∧ Selected doubleText halfBitcoin data ∧
      Buys doubleText data (some "47451") (some "0.5") ⟨"bitcoin", "47451", "0.5"⟩ := by
  have hcalls : alertAction doubleText (some bitcoinShown) (some "47451") (some "0.5") =
      some (Verdict.accepted ⟨"bitcoin", "47451", "0.5"⟩).calls := by
    decide +kernel
  have h1 : Run (ScreensStep doubleText) ({} : Screens Unit) _ _ :=
    .single (.list (.action _ .setDefaults))
  have h2 := h1.next (.list (.success (n := 0) [bitcoinShown] ⟨rfl, List.not_mem_nil⟩))
  have h3 := h2.next (@ScreensStep.didSelectRow _ doubleText _ 0 bitcoinShown rfl rfl)
  have h4 := h3.next (.addToPortfolioButtonTapped rfl rfl rfl)
  have h5 := h4.next (.form rfl (.typePrice "47451"))
  have h6 := h5.next (.form rfl (.typeQuantity "0.5"))
  have h7 := h6.next (.form rfl (.tapAdd (Option.map_eq_some_iff.mpr ⟨_, hcalls, rfl⟩)))
  obtain ⟨data, hselected, hbuys⟩ :=
    bought_was_selected doubleText h7 _ (List.mem_singleton_self _)
  exact ⟨_, data, h7, rfl, hselected, hbuys⟩

end CryptoWallet
