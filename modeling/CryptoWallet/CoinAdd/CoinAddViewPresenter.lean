/-
  File:      CryptoWallet/CoinAdd/CoinAddViewPresenter.lean
  Subject:   The purchase form (CoinAddViewPresenter.swift) and what its purchases leave in the
             stored portfolio.

  Doubles are those of `Double`: exact, with infinities and NaN. `alertAction` gives the calls it
  makes, or `none` where it stops the app: the range `atl...ath` of a coin whose `ath` is below
  its `atl` cannot be created.

  * `accepted_spec`: an accepted price is finite and positive; an accepted quantity is finite
    and positive, or infinity, which the closed range `0.0...Double.infinity` contains.
  * `holdings_sound_iff`: every holding stays finite and positive, and every divisor of `add`
    finite and not zero, exactly when no accepted quantity is infinite.
-/
import CryptoWallet.CoinModelParser
import CryptoWallet.Firebase.Concurrency

namespace CryptoWallet

/-! ## 1. The form -/

inductive ErrorType where
  | fieldsIsNotFilled
  | outOfRange
  deriving DecidableEq, Repr

/-- The text of an error. -/
def ErrorType.rawValue : ErrorType → String
  | .fieldsIsNotFilled => "Fields is't filled."
  | .outOfRange => "Value is out of range."

inductive ErrorLabelCondition where
  | show
  | hide
  deriving DecidableEq, Repr

/-- A call `alertAction` makes. -/
inductive FormCall where
  | didActionWithErrorLabel (errorLabelCondition : ErrorLabelCondition)
      (typeOfError : Option ErrorType)
  | add (coinForAdding : Coin)
  | dismissController
  deriving DecidableEq, Repr

/-- A range `lower...upper`. -/
structure ClosedRange where
  lowerBound : Double
  upperBound : Double

/-- `lower...upper`; a runtime error unless `lower <= upper`. -/
def closedRange (lower upper : Double) : Option ClosedRange :=
  if lower.le upper then some ⟨lower, upper⟩ else none

/-- `range.contains(x)` -/
def ClosedRange.contains (range : ClosedRange) (x : Double) : Bool :=
  range.lowerBound.le x && x.le range.upperBound

def checkForFilledFills (priceText quantityText : Option String) : Bool :=
  !(priceText.getD "").isEmpty && !(quantityText.getD "").isEmpty

def checkIsInRange (T : DoubleText Double) (number : Option String) (range : ClosedRange) : Bool :=
  match number.bind T.ofText with
  | none => false
  | some convertNum => if convertNum.eq (.finite 0) then false else range.contains convertNum

variable {Image : Type}

def alertAction (T : DoubleText Double)
    (viewData : Option (CoinTableViewCellViewModel Double Image))
    (price quantity : Option String) : Option (List FormCall) :=
  match viewData with
  | none => some []
  | some viewData =>
      let hidden := FormCall.didActionWithErrorLabel .hide none
      if checkForFilledFills price quantity then do
        let prices ← closedRange viewData.atl viewData.ath
        -- the second range is created only where the first check succeeds
        let isInRange ← if checkIsInRange T price prices then
            (closedRange (.finite 0) (.infinity false)).map (checkIsInRange T quantity)
          else some false
        if isInRange then
          match quantity, price with
          | some quantity, some price =>
              some [hidden, .add ⟨viewData.id, price, quantity⟩, .dismissController]
          | _, _ => some [hidden]
        else some [hidden, .didActionWithErrorLabel .show (some .outOfRange)]
      else some [hidden, .didActionWithErrorLabel .show (some .fieldsIsNotFilled)]

/-- A tap on the button of the form: the coin shown and the texts of its two fields. -/
structure Purchase (Image : Type) where
  viewData : CoinTableViewCellViewModel Double Image
  price : Option String
  quantity : Option String

/-- The coin `alertAction` hands to `FirebaseManager.add`, if it accepts the purchase. -/
def Purchase.coin (T : DoubleText Double) (p : Purchase Image) : Option Coin :=
  (alertAction T (some p.viewData) p.price p.quantity).bind fun calls =>
    calls.findSome? fun
      | .add coinForAdding => some coinForAdding
      | _ => none

/-- The coin shown has finite bounds `0 < atl <= ath`. -/
def Purchase.Listed (p : Purchase Image) : Prop :=
  ∃ l h : ℚ, p.viewData.atl = .finite l ∧ p.viewData.ath = .finite h ∧ 0 < l ∧ l ≤ h

/-! ## 2. What the form accepts -/

/-- A quantity the form may let through: finite and positive, or infinity. -/
def Counted (x : Double) : Prop := x.FinitePositive ∨ x = .infinity false

theorem counted_of_contains {x : Double} (hne : x.eq (.finite 0) = false)
    (h : ClosedRange.contains ⟨.finite 0, .infinity false⟩ x = true) : Counted x := by
  cases x with
  | nan => cases h
  | infinity n =>
      cases n with
      | true => cases h
      | false => exact Or.inr rfl
  | finite q =>
      refine Or.inl ⟨q, rfl, ?_⟩
      simp only [ClosedRange.contains, Double.le, Double.lt, Double.eq, Bool.and_eq_true,
        Bool.or_eq_true, decide_eq_true_eq, decide_eq_false_iff_not] at h hne
      rcases h.1 with h | h
      · exact h
      · exact absurd h.symm hne

theorem finitePositive_of_contains {l h : ℚ} (hl : 0 < l) {x : Double}
    (hx : ClosedRange.contains ⟨.finite l, .finite h⟩ x = true) : x.FinitePositive := by
  cases x with
  | nan => cases hx
  | infinity n => cases n <;> simp [ClosedRange.contains, Double.le, Double.lt, Double.eq] at hx
  | finite q =>
      refine ⟨q, rfl, ?_⟩
      simp only [ClosedRange.contains, Double.le, Double.lt, Double.eq, Bool.and_eq_true,
        Bool.or_eq_true, decide_eq_true_eq] at hx
      rcases hx.1 with h | h <;> linarith

theorem checkIsInRange_true {T : DoubleText Double} {number : Option String} {range : ClosedRange}
    (h : checkIsInRange T number range = true) :
    ∃ text x, number = some text ∧ T.ofText text = some x ∧ x.eq (.finite 0) = false ∧
      range.contains x = true := by
  unfold checkIsInRange at h
  split at h
  · cases h
  · rename_i x hx
    obtain ⟨text, ht, hx⟩ := Option.bind_eq_some_iff.mp hx
    split at h
    · cases h
    · exact ⟨text, x, ht, hx, Bool.eq_false_iff.mpr ‹_›, h⟩

/-- **What an accepted purchase stores**: the two texts as they were typed, the price finite and
    positive, the quantity finite and positive or infinite. -/
theorem accepted_spec {T : DoubleText Double} {p : Purchase Image} {c : Coin} (hp : p.Listed)
    (h : p.coin T = some c) :
    p.price = some c.price ∧ p.quantity = some c.quantity ∧
      (∃ x, T.ofText c.price = some x ∧ x.FinitePositive) ∧
      ∃ y, T.ofText c.quantity = some y ∧ Counted y := by
  obtain ⟨l, u, hl, hu, hl0, hlu⟩ := hp
  have hrange : closedRange p.viewData.atl p.viewData.ath = some ⟨.finite l, .finite u⟩ := by
    have hle : Double.le (.finite l) (.finite u) = true := by
      simp only [Double.le, Double.lt, Double.eq, Bool.or_eq_true, decide_eq_true_eq]
      exact lt_or_eq_of_le hlu
    rw [hl, hu, closedRange, if_pos hle]
  have hrange' : closedRange (.finite 0) (.infinity false) =
      some ⟨.finite 0, .infinity false⟩ := rfl
  simp only [Purchase.coin, alertAction, hrange, hrange', Option.bind_eq_bind, Option.bind_some,
    Option.map_some] at h
  split at h
  · by_cases h1 : checkIsInRange T p.price ⟨.finite l, .finite u⟩ = true
    · by_cases h2 : checkIsInRange T p.quantity ⟨.finite 0, .infinity false⟩ = true
      · obtain ⟨price, x, hprice, hx, -, hxin⟩ := checkIsInRange_true h1
        obtain ⟨quantity, y, hquantity, hy, hy0, hyin⟩ := checkIsInRange_true h2
        rw [if_pos h1, if_pos h2, hprice, hquantity] at h
        obtain rfl : _ = c := by simpa using h
        exact ⟨hprice, hquantity, ⟨x, hx, finitePositive_of_contains hl0 hxin⟩,
          ⟨y, hy, counted_of_contains hy0 hyin⟩⟩
      · rw [if_pos h1, if_neg h2] at h
        simp at h
    · rw [if_neg h1] at h
      simp at h
  · simp at h

/-! ## 3. What purchases leave in the portfolio -/

/-- The text parses to a finite number above zero. -/
def ParsesPositive (T : DoubleText Double) (text : String) : Prop :=
  ∃ x, T.ofText text = some x ∧ x.FinitePositive

/-- A sound holding. -/
def Holding (T : DoubleText Double) (coin : Coin) : Prop :=
  ParsesPositive T coin.price ∧ ParsesPositive T coin.quantity

/-- The quantity of a coin the form let through, or of a sum of such. -/
def Counts (T : DoubleText Double) (coin : Coin) : Prop :=
  ∃ y, T.ofText coin.quantity = some y ∧ Counted y

/-- The quantity of a coin is infinite. -/
def Endless (T : DoubleText Double) (coin : Coin) : Prop :=
  T.ofText coin.quantity = some (.infinity false)

/-- The divisor of `add`, where it finds its coin among `coins`. -/
def divisor (T : DoubleText Double) (coins : List Coin) (c : Coin) : Option Double :=
  (coins.find? (·.id = c.id)).map fun coin => resultQuantity T coin c

variable {T : DoubleText Double}

theorem resultQuantity_positive {coin c : Coin} (h1 : ParsesPositive T coin.quantity)
    (h2 : ParsesPositive T c.quantity) : (resultQuantity T coin c).FinitePositive := by
  obtain ⟨_, e1, q1, rfl, hq1⟩ := h1
  obtain ⟨_, e2, q2, rfl, hq2⟩ := h2
  refine ⟨q1 + q2, ?_, add_pos hq1 hq2⟩
  rw [resultQuantity, e1, e2]
  rfl

/-- **Merging sound holdings gives a sound one**: the price is an average with positive weights. -/
theorem merge_holding {coin c : Coin} (h1 : Holding T coin) (h2 : Holding T c) :
    Holding T (merge T coin c) := by
  refine ⟨⟨_, T.ofText_toText _, ?_⟩, ⟨_, T.ofText_toText _, resultQuantity_positive h1.2 h2.2⟩⟩
  obtain ⟨⟨_, e1, p1, rfl, hp1⟩, _, f1, q1, rfl, hq1⟩ := h1
  obtain ⟨⟨_, e2, p2, rfl, hp2⟩, _, f2, q2, rfl, hq2⟩ := h2
  have hsum : 0 < q1 + q2 := add_pos hq1 hq2
  have e : resultPrice T coin c = .finite ((p1 * q1 + p2 * q2) / (q1 + q2)) := by
    simp only [resultPrice, resultQuantity, e1, e2, f1, f2, Option.getD_some, Double.finite_mul,
      Double.finite_add, Double.finite_div hsum.ne']
  exact ⟨_, e, div_pos (add_pos (mul_pos hp1 hq1) (mul_pos hp2 hq2)) hsum⟩

theorem merge_counts {coin c : Coin} (h1 : Counts T coin) (h2 : Counts T c) :
    Counts T (merge T coin c) := by
  refine ⟨_, T.ofText_toText _, ?_⟩
  obtain ⟨_, e1, h1⟩ := h1
  obtain ⟨_, e2, h2⟩ := h2
  rw [resultQuantity, e1, e2, Option.getD_some, Option.getD_some]
  rcases h1 with ⟨q1, rfl, hq1⟩ | rfl <;> rcases h2 with ⟨q2, rfl, hq2⟩ | rfl
  · exact Or.inl ⟨q1 + q2, rfl, add_pos hq1 hq2⟩
  · exact Or.inr rfl
  · exact Or.inr rfl
  · exact Or.inr rfl

/-- An infinite quantity makes every sum it enters infinite. -/
theorem merge_endless {coin c : Coin} (h1 : Counts T coin) (h2 : Counts T c)
    (h : Endless T coin ∨ Endless T c) : Endless T (merge T coin c) := by
  have hq : T.ofText (merge T coin c).quantity = some (resultQuantity T coin c) :=
    T.ofText_toText _
  rw [Endless, hq, resultQuantity]
  obtain ⟨_, e1, h1⟩ := h1
  obtain ⟨_, e2, h2⟩ := h2
  rcases h with h | h
  · rcases h2 with ⟨q2, rfl, -⟩ | rfl <;> rw [h, e2] <;> rfl
  · rcases h1 with ⟨q1, rfl, -⟩ | rfl <;> rw [h, e1] <;> rfl

/-- What holds of the new coin and is kept by merging holds of every coin after `add`. -/
theorem addCoin_forall {P : Coin → Prop} {c : Coin} (hc : P c)
    (hmerge : ∀ coin, P coin → P (merge T coin c)) {coins : List Coin}
    (h : ∀ coin ∈ coins, P coin) : ∀ coin ∈ addCoin T c coins, P coin := by
  induction coins with
  | nil => exact fun coin hm => List.mem_singleton.mp hm ▸ hc
  | cons head coins ih =>
      have hhead := h head (List.mem_cons_self ..)
      have htail : ∀ coin ∈ coins, P coin := fun coin hm => h coin (List.mem_cons_of_mem _ hm)
      intro coin hm
      rw [addCoin] at hm
      split at hm
      · rcases List.mem_cons.mp hm with rfl | hm
        · exact hmerge head hhead
        · exact htail coin hm
      · rcases List.mem_cons.mp hm with rfl | hm
        · exact hhead
        · exact ih htail coin hm

/-- An infinite quantity stays in the portfolio, and a new one enters it. -/
theorem addCoin_endless {c : Coin} (hc : Counts T c) {coins : List Coin}
    (hcounts : ∀ coin ∈ coins, Counts T coin) (h : Endless T c ∨ ∃ coin ∈ coins, Endless T coin) :
    ∃ coin ∈ addCoin T c coins, Endless T coin := by
  induction coins with
  | nil =>
      rcases h with h | ⟨coin, hm, -⟩
      · exact ⟨c, List.mem_singleton_self c, h⟩
      · exact absurd hm List.not_mem_nil
  | cons head coins ih =>
      have hhead := hcounts head (List.mem_cons_self ..)
      have htail : ∀ coin ∈ coins, Counts T coin :=
        fun coin hm => hcounts coin (List.mem_cons_of_mem _ hm)
      rw [addCoin]
      split
      · rcases h with h | ⟨coin, hm, h⟩
        · exact ⟨_, List.mem_cons_self .., merge_endless hhead hc (Or.inr h)⟩
        · rcases List.mem_cons.mp hm with rfl | hm
          · exact ⟨_, List.mem_cons_self .., merge_endless hhead hc (Or.inl h)⟩
          · exact ⟨coin, List.mem_cons_of_mem _ hm, h⟩
      · rcases h with h | ⟨coin, hm, h⟩
        · obtain ⟨coin, hm, h⟩ := ih htail (Or.inl h)
          exact ⟨coin, List.mem_cons_of_mem _ hm, h⟩
        · rcases List.mem_cons.mp hm with rfl | hm
          · exact ⟨coin, List.mem_cons_self .., h⟩
          · obtain ⟨coin, hm, h⟩ := ih htail (Or.inr ⟨coin, hm, h⟩)
            exact ⟨coin, List.mem_cons_of_mem _ hm, h⟩

/-- The coins that purchases of `cs`, one after another, leave in an empty portfolio. -/
def boughtCoins (T : DoubleText Double) (cs : List Coin) : List Coin :=
  cs.foldl (fun coins c => addCoin T c coins) []

theorem bought_append (cs : List Coin) (c : Coin) :
    boughtCoins T (cs ++ [c]) = addCoin T c (boughtCoins T cs) := by
  simp [boughtCoins]

theorem runAll_add (cs : List Coin) :
    runAll T (cs.map .add) = some (encode (boughtCoins T cs)) := by
  induction cs using List.reverseRecOn with
  | nil => rfl
  | append_singleton cs c ih =>
      rw [List.map_append, List.map_singleton, runAll_append_one, ih, Option.bind_some,
        complete_add, bought_append]

/-- **Purchases run the portfolio soundly**: in the resulting document every price and quantity
    parses to a finite number above zero, and no purchase on the way divided by zero or by an
    infinity. -/
structure SoundHoldings (T : DoubleText Double) (cs : List Coin) : Prop where
  holdings : ∃ document coins, runAll T (cs.map .add) = some document ∧
    getPortfolio (.ok document) = some ⟨coins⟩ ∧ ∀ coin ∈ coins, Holding T coin
  divisors : ∀ h c h', cs = h ++ c :: h' → ∀ document coins,
    runAll T (h.map .add) = some document → getPortfolio (.ok document) = some ⟨coins⟩ →
    ∀ d, divisor T coins c = some d → d.isFinite = true ∧ d ≠ .finite 0

/-- What merging keeps holds of every coin bought, if it holds of every purchase. -/
theorem bought_forall {P : Coin → Prop} (hmerge : ∀ coin c, P coin → P c → P (merge T coin c))
    {cs : List Coin} (h : ∀ c ∈ cs, P c) : ∀ coin ∈ boughtCoins T cs, P coin := by
  induction cs using List.reverseRecOn with
  | nil => exact fun coin hm => absurd hm List.not_mem_nil
  | append_singleton cs c ih =>
      rw [bought_append]
      have hc : P c := h c (by simp)
      exact addCoin_forall hc (fun coin hcoin => hmerge coin c hcoin hc)
        (ih fun c hm => h c (List.mem_append_left _ hm))

theorem bought_endless {cs : List Coin} (h : ∀ c ∈ cs, Counts T c) {c : Coin} (hm : c ∈ cs)
    (hc : Endless T c) : ∃ coin ∈ boughtCoins T cs, Endless T coin := by
  induction cs using List.reverseRecOn with
  | nil => exact absurd hm List.not_mem_nil
  | append_singleton cs c' ih =>
      have hcs : ∀ c ∈ cs, Counts T c := fun c hm => h c (List.mem_append_left _ hm)
      rw [bought_append]
      refine addCoin_endless (h c' (by simp)) (bought_forall (fun _ _ => merge_counts) hcs) ?_
      rcases List.mem_append.mp hm with hm | hm
      · exact Or.inr (ih hcs hm)
      · exact Or.inl (List.mem_singleton.mp hm ▸ hc)

theorem soundHoldings_of_holding {cs : List Coin} (h : ∀ c ∈ cs, Holding T c) :
    SoundHoldings T cs := by
  have hall : ∀ coin ∈ boughtCoins T cs, Holding T coin :=
    bought_forall (fun _ _ => merge_holding) h
  refine ⟨⟨_, _, runAll_add cs, getPortfolio_encode _, hall⟩, ?_⟩
  rintro pre c post rfl document coins hdoc hcoins d hd
  rw [runAll_add, Option.some.injEq] at hdoc
  subst hdoc
  simp only [getPortfolio_encode, Option.some.injEq, Portfolio.mk.injEq] at hcoins
  subst hcoins
  obtain ⟨coin, hfind, rfl⟩ := Option.map_eq_some_iff.mp hd
  have hcoin : Holding T coin :=
    bought_forall (fun _ _ => merge_holding) (fun c hm => h c (List.mem_append_left _ hm)) coin
      (List.mem_of_find?_eq_some hfind)
  obtain ⟨q, e, hq⟩ := resultQuantity_positive hcoin.2 (h c (by simp)).2
  rw [e]
  exact ⟨rfl, fun e0 => hq.ne' (Double.finite.inj e0)⟩

/-- **When the stored holdings stay sound**: exactly when every accepted quantity parses to a
    finite number. -/
theorem holdings_sound_iff (T : DoubleText Double) (ps : List (Purchase Image))
    (hlisted : ∀ p ∈ ps, p.Listed) :
    SoundHoldings T (ps.filterMap (Purchase.coin T)) ↔
      ∀ p ∈ ps, (p.coin T).isSome = true →
        ∃ text q, p.quantity = some text ∧ T.ofText text = some (.finite q) := by
  have hcounts : ∀ c ∈ ps.filterMap (Purchase.coin T), Counts T c := by
    intro c hm
    obtain ⟨p, hp, hc⟩ := List.mem_filterMap.mp hm
    exact (accepted_spec (hlisted p hp) hc).2.2.2
  constructor
  · rintro ⟨⟨document, coins, hdoc, hcoins, hall⟩, -⟩ p hp hsome
    rw [runAll_add, Option.some.injEq] at hdoc
    subst hdoc
    simp only [getPortfolio_encode, Option.some.injEq, Portfolio.mk.injEq] at hcoins
    subst hcoins
    obtain ⟨c, hc⟩ := Option.isSome_iff_exists.mp hsome
    obtain ⟨-, hquantity, -, y, hy, hcounted⟩ := accepted_spec (hlisted p hp) hc
    rcases hcounted with ⟨q, rfl, -⟩ | rfl
    · exact ⟨c.quantity, q, hquantity, hy⟩
    · -- an infinite quantity is still in the portfolio at the end
      obtain ⟨coin, hm, hend⟩ :=
        bought_endless hcounts (List.mem_filterMap.mpr ⟨p, hp, hc⟩) hy
      obtain ⟨-, x, hx, q, rfl, -⟩ := hall coin hm
      rw [hend] at hx
      cases hx
  · intro h
    refine soundHoldings_of_holding fun c hm => ?_
    obtain ⟨p, hp, hc⟩ := List.mem_filterMap.mp hm
    obtain ⟨-, hquantity, hprice, y, hy, hcounted⟩ := accepted_spec (hlisted p hp) hc
    obtain ⟨text, q, htext, hq⟩ := h p hp (by rw [hc]; rfl)
    rw [hquantity, Option.some.injEq] at htext
    rw [← htext, hy, Option.some.injEq] at hq
    rcases hcounted with hpos | rfl
    · exact ⟨hprice, y, hy, hpos⟩
    · cases hq

/-- Bitcoin as the form shows it. -/
def bitcoinShown : CoinTableViewCellViewModel Double Unit where
  id := "bitcoin"
  name := "Bitcoin"
  symbol := "btc"
  currentPrice := "47451"
  image := ()
  highDayPrice := .finite 49780
  lowDayPrice := .finite 47243
  priceChangeDay := .finite 0
  priceChangePercentageDay := .finite 0
  lastUpdated := none
  sparklineIn7D := none
  ath := .finite 69045
  atl := .finite (6781 / 100)

theorem bitcoinShown_listed (price quantity : Option String) :
    Purchase.Listed ⟨bitcoinShown, price, quantity⟩ :=
  ⟨6781 / 100, 69045, rfl, rfl, by norm_num, by norm_num⟩

/-- Bitcoin, bought twice. -/
def boughtTwice : List (Purchase Unit) :=
  [⟨bitcoinShown, some "47451", some "0.5"⟩, ⟨bitcoinShown, some "40000", some "1.5"⟩]

/-- The two purchases are merged into one holding, which is sound. -/
theorem holdings_sound_bitcoin :
    SoundHoldings doubleText (boughtTwice.filterMap (Purchase.coin doubleText)) ∧
      (boughtCoins doubleText (boughtTwice.filterMap (Purchase.coin doubleText))).map
        (fun coin => (coin.id, doubleText.ofText coin.quantity)) =
          [("bitcoin", some (.finite 2))] := by
  refine ⟨(holdings_sound_iff doubleText _ fun p hp => ?_).mpr fun p hp _ => ?_, by decide +kernel⟩
  · obtain rfl | rfl := List.mem_pair.mp hp
    · exact bitcoinShown_listed _ _
    · exact bitcoinShown_listed _ _
  · obtain rfl | rfl := List.mem_pair.mp hp
    · exact ⟨"0.5", 1 / 2, rfl, by decide +kernel⟩
    · exact ⟨"1.5", 3 / 2, rfl, by decide +kernel⟩

/-- **An infinite holding is stored**: the form accepts the quantity "inf". -/
theorem endless_purchase_stored :
    ∃ ps : List (Purchase Unit), (∀ p ∈ ps, p.Listed ∧ (p.coin doubleText).isSome = true) ∧
      ¬ SoundHoldings doubleText (ps.filterMap (Purchase.coin doubleText)) := by
  have haccepted : Purchase.coin doubleText ⟨bitcoinShown, some "47451", some "inf"⟩ =
      some ⟨"bitcoin", "47451", "inf"⟩ := by decide +kernel
  refine ⟨[⟨bitcoinShown, some "47451", some "inf"⟩], fun p hp => ?_, fun hsound => ?_⟩
  · rw [List.mem_singleton.mp hp, haccepted]
    exact ⟨bitcoinShown_listed _ _, rfl⟩
  · obtain ⟨⟨document, coins, hdoc, hcoins, hall⟩, -⟩ := hsound
    have e : document = encode [⟨"bitcoin", "47451", "inf"⟩] := by
      rw [List.filterMap_cons_some haccepted, runAll_add] at hdoc
      exact (Option.some.inj hdoc).symm
    rw [e] at hcoins
    simp only [getPortfolio_encode, Option.some.injEq, Portfolio.mk.injEq] at hcoins
    obtain ⟨-, x, hx, q, rfl, -⟩ := hall ⟨"bitcoin", "47451", "inf"⟩ (by rw [← hcoins]; simp)
    have hinf : doubleText.ofText "inf" = some (.infinity false) := by decide
    rw [hinf] at hx
    cases hx

end CryptoWallet
