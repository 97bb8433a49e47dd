/-
  File:      CryptoWallet/CoinAdd/CoinAddViewController.lean
  Subject:   The screen of the purchase form (CoinAddViewController.swift).

  A tap on `Add` runs `alertAction` on the texts as they are by then, and its calls change the
  screen. Nothing on the screen follows the texts before the next tap, and the form takes taps
  until it is gone.

  * `Judged`: what a tap is to come to, by the coin shown and the two texts.
  * `alertAction_judged`, `alertAction_isSome_iff`: `alertAction` makes the calls of the verdict,
    and stops the app exactly where the coin's range is none.
  * `form_follows_sheet`: **after any run the screen shows its verdicts**: the coins added, the
    dismissals and the error label are those of the taps.
-/
import CryptoWallet.CoinAdd.CoinAddViewPresenter

namespace CryptoWallet

open Runs

variable {Image : Type}

/-! ## 1. The screen -/

/-- The labels, the texts of the two fields, the calls `FirebaseManager.add` and how often the
    screen was dismissed. -/
structure CoinAddViewController (Image : Type) where
  viewData : Option (CoinTableViewCellViewModel Double Image) := none
  alertMaxPriceLabel : Option String := none
  alertMinimalPriceLabel : Option String := none
  alertChosenPriceTextField : Option String := some ""
  alertChosenQuantityTextField : Option String := some ""
  alertErrorLabelText : Option String := none
  alertErrorLabelIsHidden : Bool := true
  added : List Coin := []
  dismissals : Nat := 0
  deriving DecidableEq

namespace CoinAddViewController

/-- `configure`, which goes through the presenter to `setupFields`. -/
def configure (T : DoubleText Double) (v : CoinAddViewController Image)
    (data : CoinTableViewCellViewModel Double Image) : CoinAddViewController Image :=
  { v with viewData := some data
           alertMaxPriceLabel := some (T.toText data.ath)
           alertMinimalPriceLabel := some (T.toText data.atl) }

def didActionWithErrorLabel (v : CoinAddViewController Image)
    (errorLabelCondition : ErrorLabelCondition) (typeOfError : Option ErrorType) :
    CoinAddViewController Image :=
  match errorLabelCondition with
  | .show =>
      match typeOfError with
      | none => v
      | some typeOfError =>
          { v with alertErrorLabelText := some typeOfError.rawValue,
                   alertErrorLabelIsHidden := false }
  | .hide => { v with alertErrorLabelIsHidden := true }

/-- A call of `alertAction`. -/
def perform (v : CoinAddViewController Image) : FormCall → CoinAddViewController Image
  | .didActionWithErrorLabel errorLabelCondition typeOfError =>
      v.didActionWithErrorLabel errorLabelCondition typeOfError
  | .add coinForAdding => { v with added := v.added ++ [coinForAdding] }
  | .dismissController => { v with dismissals := v.dismissals + 1 }

/-- `didTapAddCoinToPortfolioButton`; `none` where it stops the app. -/
def didTapAddCoinToPortfolioButton (T : DoubleText Double) (v : CoinAddViewController Image) :
    Option (CoinAddViewController Image) :=
  (alertAction T v.viewData v.alertChosenPriceTextField v.alertChosenQuantityTextField).map
    fun calls => calls.foldl perform v

/-- `didTapCancelButton` -/
def didTapCancelButton (v : CoinAddViewController Image) : CoinAddViewController Image :=
  { v with dismissals := v.dismissals + 1 }

end CoinAddViewController

/-- What the user does on the form. -/
inductive FormEvent where
  | typePrice (text : String)
  | typeQuantity (text : String)
  | tapAdd
  | tapCancel
  deriving DecidableEq

/-- One event; a tap that stops the app is no step. -/
inductive FormStep (T : DoubleText Double) :
    CoinAddViewController Image → FormEvent → CoinAddViewController Image → Prop where
  | typePrice {v : CoinAddViewController Image} (text : String) :
      FormStep T v (.typePrice text) { v with alertChosenPriceTextField := some text }
  | typeQuantity {v : CoinAddViewController Image} (text : String) :
      FormStep T v (.typeQuantity text) { v with alertChosenQuantityTextField := some text }
  | tapAdd {v v' : CoinAddViewController Image} :
      v.didTapAddCoinToPortfolioButton T = some v' → FormStep T v .tapAdd v'
  | tapCancel {v : CoinAddViewController Image} : FormStep T v .tapCancel v.didTapCancelButton

/-! ## 2. What a tap comes to -/

/-- The two answers of the form. -/
inductive Verdict where
  | accepted (coin : Coin)
  | rejected (error : ErrorType)
  deriving DecidableEq

/-- There is a text in either field. -/
def Filled (price quantity : Option String) : Prop :=
  price.getD "" ≠ "" ∧ quantity.getD "" ≠ ""

/-- **The coin to buy**: that shown, at the price and in the quantity typed; the price is a number
    of the coin's range other than zero, the quantity one above zero. -/
structure Buys (T : DoubleText Double) (viewData : CoinTableViewCellViewModel Double Image)
    (price quantity : Option String) (coin : Coin) : Prop where
  id : coin.id = viewData.id
  price : price = some coin.price
  quantity : quantity = some coin.quantity
  inRange : ∃ x, T.ofText coin.price = some x ∧ x.eq (.finite 0) = false ∧
    viewData.atl.le x = true ∧ x.le viewData.ath = true
  counted : ∃ y, T.ofText coin.quantity = some y ∧ Counted y

/-- **The verdict on two texts**: the coin to buy, if there are texts and they name one; else what
    is wrong. -/
def Judged (T : DoubleText Double) (viewData : CoinTableViewCellViewModel Double Image)
    (price quantity : Option String) : Verdict → Prop
  | .accepted coin => Filled price quantity ∧ Buys T viewData price quantity coin
  | .rejected .outOfRange =>
      Filled price quantity ∧ ∀ coin, ¬Buys T viewData price quantity coin
  | .rejected .fieldsIsNotFilled => ¬Filled price quantity

/-- The calls that tell a verdict. -/
def Verdict.calls : Verdict → List FormCall
  | .accepted coin => [.didActionWithErrorLabel .hide none, .add coin, .dismissController]
  | .rejected error =>
      [.didActionWithErrorLabel .hide none, .didActionWithErrorLabel .show (some error)]

variable {T : DoubleText Double} {viewData : CoinTableViewCellViewModel Double Image}
  {price quantity : Option String}

theorem checkForFilledFills_iff :
    checkForFilledFills price quantity = true ↔ Filled price quantity := by
  simp [checkForFilledFills, Filled]

theorem contains_of_counted {y : Double} (h : Counted y) :
    y.eq (.finite 0) = false ∧
      ClosedRange.contains ⟨.finite 0, .infinity false⟩ y = true := by
  rcases h with ⟨q, rfl, hq⟩ | rfl
  · simp [ClosedRange.contains, Double.le, Double.lt, Double.eq, hq, hq.ne']
  · decide

theorem checkIsInRange_iff {number : Option String} {range : ClosedRange} :
    checkIsInRange T number range = true ↔
      ∃ text x, number = some text ∧ T.ofText text = some x ∧ x.eq (.finite 0) = false ∧
        range.contains x = true := by
  refine ⟨checkIsInRange_true, ?_⟩
  rintro ⟨text, x, rfl, hx, hzero, hin⟩
  simp [checkIsInRange, hx, hzero, hin]

/-- The two checks of the ranges together. -/
theorem buys_iff {coin : Coin} :
    Buys T viewData price quantity coin ↔
      coin.id = viewData.id ∧ price = some coin.price ∧ quantity = some coin.quantity ∧
        checkIsInRange T price ⟨viewData.atl, viewData.ath⟩ = true ∧
        checkIsInRange T quantity ⟨.finite 0, .infinity false⟩ = true := by
  simp only [checkIsInRange_iff]
  constructor
  · rintro ⟨hid, rfl, rfl, ⟨x, hx, hzero, hlow, hhigh⟩, y, hy, hcounted⟩
    exact ⟨hid, rfl, rfl, ⟨_, x, rfl, hx, hzero, by simp [ClosedRange.contains, hlow, hhigh]⟩,
      _, y, rfl, hy, contains_of_counted hcounted⟩
  · rintro ⟨hid, rfl, rfl, ⟨text, x, htext, hx, hzero, hin⟩, text', y, htext', hy, hy0, hyin⟩
    obtain rfl := Option.some.inj htext
    obtain rfl := Option.some.inj htext'
    simp only [ClosedRange.contains, Bool.and_eq_true] at hin
    exact ⟨hid, rfl, rfl, ⟨x, hx, hzero, hin.1, hin.2⟩, y, hy, counted_of_contains hy0 hyin⟩

/-- Where the fields are filled and the coin has no range, the app stops. -/
theorem alertAction_no_range (hfilled : Filled price quantity)
    (hrange : viewData.atl.le viewData.ath = false) :
    alertAction T (some viewData) price quantity = none := by
  simp [alertAction, closedRange, checkForFilledFills_iff.mpr hfilled, hrange]

/-- **Everywhere else `alertAction` makes the calls of the verdict.** -/
theorem alertAction_judged
    (hrange : Filled price quantity → viewData.atl.le viewData.ath = true) :
    ∃ verdict, Judged T viewData price quantity verdict ∧
      alertAction T (some viewData) price quantity = some verdict.calls := by
  by_cases hfilled : Filled price quantity
  · have hcheck := checkForFilledFills_iff.mpr hfilled
    have hcounts : closedRange (.finite 0) (.infinity false) =
        some ⟨.finite 0, .infinity false⟩ := rfl
    have hprices : closedRange viewData.atl viewData.ath =
        some ⟨viewData.atl, viewData.ath⟩ := if_pos (hrange hfilled)
    by_cases hbuys : ∃ coin, Buys T viewData price quantity coin
    · obtain ⟨coin, hcoin⟩ := hbuys
      obtain ⟨hid, rfl, rfl, hprice, hquantity⟩ := buys_iff.mp hcoin
      refine ⟨.accepted coin, ⟨hfilled, hcoin⟩, ?_⟩
      simp [alertAction, hcheck, hprices, hcounts, hprice, hquantity, ← hid, Verdict.calls]
    · push Not at hbuys
      refine ⟨.rejected .outOfRange, ⟨hfilled, hbuys⟩, ?_⟩
      by_cases hprice : checkIsInRange T price ⟨viewData.atl, viewData.ath⟩ = true
      · have hquantity : ¬checkIsInRange T quantity ⟨.finite 0, .infinity false⟩ = true := by
          intro hquantity
          obtain ⟨text, -, rfl, -⟩ := checkIsInRange_iff.mp hprice
          obtain ⟨text', -, rfl, -⟩ := checkIsInRange_iff.mp hquantity
          exact hbuys ⟨viewData.id, text, text'⟩
            (buys_iff.mpr ⟨rfl, rfl, rfl, hprice, hquantity⟩)
        simp [alertAction, hcheck, hprices, hcounts, hquantity, Verdict.calls]
      · simp [alertAction, hcheck, hprices, hprice, Verdict.calls]
  · have hcheck : checkForFilledFills price quantity = false :=
      Bool.eq_false_iff.mpr (mt checkForFilledFills_iff.mp hfilled)
    exact ⟨.rejected .fieldsIsNotFilled, hfilled, by simp [alertAction, hcheck, Verdict.calls]⟩

/-! ## 3. The verdicts of a form -/

/-- What the form is about: the coin, the two texts, the verdicts so far and the taps on
    `Cancel`. -/
structure Sheet (Image : Type) where
  viewData : CoinTableViewCellViewModel Double Image
  price : Option String := some ""
  quantity : Option String := some ""
  verdicts : List Verdict := []
  cancels : Nat := 0

/-- One event: a tap adds the verdict on the texts as they are. -/
inductive SheetStep (T : DoubleText Double) :
    Sheet Image → FormEvent → Sheet Image → Prop where
  | typePrice {s : Sheet Image} (text : String) :
      SheetStep T s (.typePrice text) { s with price := some text }
  | typeQuantity {s : Sheet Image} (text : String) :
      SheetStep T s (.typeQuantity text) { s with quantity := some text }
  | tapAdd {s : Sheet Image} {verdict : Verdict} :
      Judged T s.viewData s.price s.quantity verdict →
      SheetStep T s .tapAdd { s with verdicts := s.verdicts ++ [verdict] }
  | tapCancel {s : Sheet Image} : SheetStep T s .tapCancel { s with cancels := s.cancels + 1 }

def Verdict.coin : Verdict → Option Coin
  | .accepted coin => some coin
  | .rejected _ => none

def Verdict.error : Verdict → Option ErrorType
  | .accepted _ => none
  | .rejected error => some error

/-- The coins of the verdicts. -/
def Sheet.coins (s : Sheet Image) : List Coin := s.verdicts.filterMap Verdict.coin

/-- What was wrong at the last tap. -/
def Sheet.lastError (s : Sheet Image) : Option ErrorType :=
  s.verdicts.getLast?.bind Verdict.error

/-- **The screen shows the sheet**: one dismissal for each coin added and for each tap on
    `Cancel`, and an error exactly while the last verdict is one. -/
structure CoinAddViewController.Shows (T : DoubleText Double) (v : CoinAddViewController Image)
    (s : Sheet Image) : Prop where
  viewData : v.viewData = some s.viewData
  maxPrice : v.alertMaxPriceLabel = some (T.toText s.viewData.ath)
  minimalPrice : v.alertMinimalPriceLabel = some (T.toText s.viewData.atl)
  price : v.alertChosenPriceTextField = s.price
  quantity : v.alertChosenQuantityTextField = s.quantity
  added : v.added = s.coins
  dismissals : v.dismissals = s.coins.length + s.cancels
  hidden : v.alertErrorLabelIsHidden = s.lastError.isNone
  text : ∀ error, s.lastError = some error → v.alertErrorLabelText = some error.rawValue

variable {v v' : CoinAddViewController Image} {s s' : Sheet Image} {e : FormEvent}

theorem Sheet.coins_snoc (s : Sheet Image) (verdict : Verdict) :
    Sheet.coins { s with verdicts := s.verdicts ++ [verdict] } =
      s.coins ++ verdict.coin.toList := by
  simp only [Sheet.coins, List.filterMap_append, List.filterMap_cons, List.filterMap_nil]
  cases verdict <;> rfl

theorem Sheet.lastError_snoc (s : Sheet Image) (verdict : Verdict) :
    Sheet.lastError { s with verdicts := s.verdicts ++ [verdict] } = verdict.error := by
  simp [Sheet.lastError]

/-- The calls of a verdict, made on the screen. -/
theorem CoinAddViewController.Shows.perform (h : v.Shows T s) (verdict : Verdict) :
    (verdict.calls.foldl CoinAddViewController.perform v).Shows T
      { s with verdicts := s.verdicts ++ [verdict] } := by
  cases verdict with
  | accepted coin =>
      refine ⟨h.viewData, h.maxPrice, h.minimalPrice, h.price, h.quantity, ?_, ?_, ?_, ?_⟩
      · rw [Sheet.coins_snoc]
        exact congrArg (· ++ [coin]) h.added
      · rw [Sheet.coins_snoc, List.length_append, Nat.add_right_comm]
        exact congrArg (· + 1) h.dismissals
      · rw [Sheet.lastError_snoc]
        rfl
      · rw [Sheet.lastError_snoc]
        exact fun _ h => nomatch h
  | rejected error =>
      refine ⟨h.viewData, h.maxPrice, h.minimalPrice, h.price, h.quantity, ?_, ?_, ?_, ?_⟩
      · rw [Sheet.coins_snoc]
        exact h.added.trans (List.append_nil _).symm
      · rw [Sheet.coins_snoc]
        exact h.dismissals.trans (by simp [Verdict.coin])
      · rw [Sheet.lastError_snoc]
        rfl
      · rw [Sheet.lastError_snoc]
        rintro _ ⟨⟩
        rfl

/-- **One event on the screen is one on the sheet.** -/
theorem FormStep.follows (hs : FormStep T v e v') (h : v.Shows T s) :
    ∃ s', SheetStep T s e s' ∧ v'.Shows T s' := by
  cases hs with
  | typePrice text =>
      exact ⟨_, .typePrice text, { h with price := rfl }⟩
  | typeQuantity text =>
      exact ⟨_, .typeQuantity text, { h with quantity := rfl }⟩
  | tapCancel =>
      exact ⟨_, .tapCancel, { h with dismissals := congrArg (· + 1) h.dismissals }⟩
  | tapAdd htap =>
      obtain ⟨calls, hcalls, rfl⟩ := Option.map_eq_some_iff.mp htap
      rw [h.viewData, h.price, h.quantity] at hcalls
      have hrange : Filled s.price s.quantity → s.viewData.atl.le s.viewData.ath = true := by
        intro hfilled
        by_contra hno
        rw [alertAction_no_range hfilled (Bool.eq_false_iff.mpr hno)] at hcalls
        cases hcalls
      obtain ⟨verdict, hjudged, heq⟩ := alertAction_judged hrange
      obtain rfl := Option.some.inj (hcalls.symm.trans heq)
      exact ⟨_, .tapAdd hjudged, h.perform verdict⟩

/-- A verdict for each tap, and coins that are coins to buy. -/
structure Sheet.OfTaps (T : DoubleText Double) (data : CoinTableViewCellViewModel Double Image)
    (es : List FormEvent) (s : Sheet Image) : Prop where
  viewData : s.viewData = data
  verdicts : s.verdicts.length = es.count .tapAdd
  cancels : s.cancels = es.count .tapCancel
  coins : ∀ coin ∈ s.coins, Buys T data (some coin.price) (some coin.quantity) coin

/-- One event on the sheet. -/
theorem SheetStep.ofTaps {data : CoinTableViewCellViewModel Double Image} {es : List FormEvent}
    (hs : SheetStep T s e s') (h : s.OfTaps T data es) : s'.OfTaps T data (es ++ [e]) := by
  obtain ⟨hdata, hverdicts, hcancels, hcoins⟩ := h
  cases hs with
  | typePrice text => exact ⟨hdata, by simpa using hverdicts, by simpa using hcancels, hcoins⟩
  | typeQuantity text => exact ⟨hdata, by simpa using hverdicts, by simpa using hcancels, hcoins⟩
  | tapCancel => exact ⟨hdata, by simpa using hverdicts, by simpa using hcancels, hcoins⟩
  | @tapAdd verdict hjudged =>
      refine ⟨hdata, by simpa using hverdicts, by simpa using hcancels, ?_⟩
      rw [Sheet.coins_snoc]
      intro coin hmem
      obtain hmem | hmem := List.mem_append.mp hmem
      · exact hcoins coin hmem
      · cases verdict with
        | rejected error => exact absurd hmem List.not_mem_nil
        | accepted coin' =>
            obtain rfl := List.mem_singleton.mp hmem
            obtain ⟨hid, -, -, hin, hcounted⟩ := (hdata ▸ hjudged).2
            exact ⟨hid, rfl, rfl, hin, hcounted⟩

/-- **Every run of the form is one of its sheet**, which the screen shows. -/
theorem form_sheet {data : CoinTableViewCellViewModel Double Image} {es : List FormEvent}
    (h : Run (FormStep T) (CoinAddViewController.configure T {} data) es v) :
    ∃ s, Run (SheetStep T) { viewData := data } es s ∧ v.Shows T s ∧ s.OfTaps T data es := by
  induction h with
  | start =>
      exact ⟨_, .start, ⟨rfl, rfl, rfl, rfl, rfl, rfl, rfl, rfl, fun _ h => nomatch h⟩,
        ⟨rfl, rfl, rfl, fun _ h => absurd h List.not_mem_nil⟩⟩
  | next _ hs ih =>
      obtain ⟨s, hrun, hshows, htaps⟩ := ih
      obtain ⟨s', hstep, hshows'⟩ := hs.follows hshows
      exact ⟨s', hrun.next hstep, hshows', hstep.ofTaps htaps⟩

/-- **After any run of the form its screen shows the verdicts of its taps**: a coin to buy is
    added and dismisses the form, once for each tap that is accepted, anything else shows what is
    wrong until the next tap; and a tap stops the app exactly if both fields are filled and the
    coin's highest price is below its lowest. -/
theorem form_follows_sheet (T : DoubleText Double)
    (data : CoinTableViewCellViewModel Double Image) {es : List FormEvent}
    {v : CoinAddViewController Image}
    (h : Run (FormStep T) (CoinAddViewController.configure T {} data) es v) :
    (∃ s, Run (SheetStep T) { viewData := data } es s ∧ v.Shows T s ∧ s.OfTaps T data es) ∧
      (∀ coin ∈ v.added, Buys T data (some coin.price) (some coin.quantity) coin) ∧
      ((∃ v', FormStep T v .tapAdd v') ↔
        (Filled v.alertChosenPriceTextField v.alertChosenQuantityTextField →
          data.atl.le data.ath = true)) := by
  obtain ⟨s, hrun, hshows, htaps⟩ := form_sheet h
  refine ⟨⟨s, hrun, hshows, htaps⟩, hshows.added ▸ htaps.coins, ?_⟩
  have hcalls : (∃ v', FormStep T v .tapAdd v') ↔
      ∃ calls, alertAction T (some data) v.alertChosenPriceTextField
        v.alertChosenQuantityTextField = some calls := by
    rw [← htaps.viewData, ← hshows.viewData]
    constructor
    · rintro ⟨v', htap⟩
      cases htap with
      | tapAdd htap =>
          obtain ⟨calls, hcalls, -⟩ := Option.map_eq_some_iff.mp htap
          exact ⟨calls, hcalls⟩
    · rintro ⟨calls, hcalls⟩
      exact ⟨_, .tapAdd (Option.map_eq_some_iff.mpr ⟨calls, hcalls, rfl⟩)⟩
  rw [hcalls]
  constructor
  · rintro ⟨calls, hcalls⟩ hfilled
    by_contra hno
    rw [alertAction_no_range hfilled (Bool.eq_false_iff.mpr hno)] at hcalls
    cases hcalls
  · intro hrange
    obtain ⟨verdict, -, heq⟩ := alertAction_judged hrange
    exact ⟨_, heq⟩

/-- Half a bitcoin. -/
theorem form_follows_sheet_bitcoin :
    ∃ v, Run (FormStep doubleText) (CoinAddViewController.configure doubleText {} bitcoinShown)
        [.typePrice "47451", .typeQuantity "0.5", .tapAdd] v ∧
      v.added = [⟨"bitcoin", "47451", "0.5"⟩] ∧
      Buys doubleText bitcoinShown (some "47451") (some "0.5") ⟨"bitcoin", "47451", "0.5"⟩ := by
  have hcalls : alertAction doubleText (some bitcoinShown) (some "47451") (some "0.5") =
      some (Verdict.accepted ⟨"bitcoin", "47451", "0.5"⟩).calls := by
    decide +kernel
  have hopened : Run (FormStep doubleText)
      (CoinAddViewController.configure doubleText {} bitcoinShown) [] _ := .start
  have hrun := ((hopened.next (.typePrice "47451")).next (.typeQuantity "0.5")).next
    (.tapAdd (Option.map_eq_some_iff.mpr ⟨_, hcalls, rfl⟩))
  exact ⟨_, hrun, rfl, (form_follows_sheet doubleText bitcoinShown hrun).2.1 _
    (List.mem_singleton_self _)⟩

end CryptoWallet
