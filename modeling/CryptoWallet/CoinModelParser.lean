/-
  File:      CryptoWallet/CoinModelParser.lean
  Subject:   From the coins of the API to the view models of the tables (CoinModel.swift,
             CoinModelParser.swift).

  Prices are exact rationals. A runtime error is `none`: `Int(_:)` of a number that does not fit
  in 64 bits, and the force unwrap of `URL(string:)`. Images come from outside: `Images` says
  which texts are URLs, what each download gives and which bytes are an image.

  * `cutString_accurate`, `cutString_cut`: the text of a non-negative price reads back within
    0.0055 of it, unless the price rounds to a whole multiple of ten it is not (`LosesZeros`):
    then the digits 0 before the point are cut off too.
  * `parseToViewModels_of_printable`, `printable_of_parseToViewModels`: with images that load,
    one view model for each coin, or a runtime error where `cutString` has one.
-/
import CryptoWallet.Library.Keyed
import CryptoWallet.Library.Rounding
import CryptoWallet.Swift.Text

namespace CryptoWallet

open Decimal Keyed Rounding

/-! ## 1. The data -/

structure SparklineIn7D (F : Type) where
  price : Option (List F)
  deriving DecidableEq, Repr

structure CoinModel (F : Type) where
  id : String
  symbol : String
  name : String
  image : String
  current_price : F
  high_24h : Option F
  low_24h : Option F
  price_change_24h : Option F
  price_change_percentage_24h : Option F
  ath : F
  atl : F
  lastUpdated : Option String
  sparkline_in_7d : Option (SparklineIn7D F)
  deriving DecidableEq, Repr

structure CoinTableViewCellViewModel (F Image : Type) where
  id : String
  name : String
  symbol : String
  currentPrice : String
  image : Image
  highDayPrice : F
  lowDayPrice : F
  priceChangeDay : F
  priceChangePercentageDay : F
  lastUpdated : Option String
  sparklineIn7D : Option (SparklineIn7D F)
  ath : F
  atl : F
  deriving DecidableEq, Repr

/-- Where images come from. -/
structure Images (Image : Type) where
  /-- `URL(string:)` is not nil -/
  isURL : String → Bool
  /-- `Data(contentsOf:)` for the coin at a position of the list, `none` when it throws; two
      downloads of one URL may end differently -/
  contentsOf : Nat → String → Option (List UInt8)
  /-- `UIImage(data:)` -/
  decode : List UInt8 → Option Image
  /-- `UIImage(systemName: "eye")!` -/
  eye : Image

/-! ## 2. Price texts -/

/-- `x.truncatingRemainder(dividingBy: 1)` -/
def fractionalPart (x : ℚ) : ℚ := x - truncate x

/-- `Int(x)`; a runtime error where the whole part does not fit in 64 bits. -/
def int (x : ℚ) : Option Int :=
  if -2 ^ 63 ≤ truncate x ∧ truncate x < 2 ^ 63 then some (truncate x) else none

/-- `round(x * 1000) / 1000` -/
def thousandths (x : ℚ) : ℚ := (away (x * 1000) : ℚ) / 1000

/-- `String(format: "%.2f", x)`; a negative number that rounds to zero keeps its sign. -/
def twoDecimals (negative : Bool) (x : ℚ) : List Char :=
  (if negative then ['-'] else []) ++ fixed 2 (even (|x| * 100)).natAbs

/-- The loop of `cutString` over the reversed copy of `convertData`; text and copy have the same
    length, so `removeLast` finds a character. -/
def cutLoop : List Char → List Char → List Char
  | [], convertData => convertData
  | letter :: rest, convertData =>
      if letter = '0' ∨ letter = '.' then cutLoop rest convertData.dropLast else convertData

def cutString (data : ℚ) : Option String :=
  if fractionalPart data ≠ 0 then
    let convertData := twoDecimals (decide (data < 0)) (thousandths data)
    some (String.ofList (cutLoop convertData.reverse convertData))
  else (int data).map fun number => String.ofList (intText number)

example : cutString (12347 / 1000) = some "12.35" := by decide +kernel
example : cutString (10001 / 1000) = some "1" := by decide +kernel

/-- The characters `cutString` cuts off. -/
def isCut (letter : Char) : Bool := letter = '0' ∨ letter = '.'

theorem isCut_digit : ∀ d < 10, isCut (Nat.digitChar d) = decide (d = 0) := by decide

theorem isCut_point : isCut '.' = true := rfl

/-- The loop drops the trailing characters it may cut. -/
theorem cutLoop_reverse (cs : List Char) : cutLoop cs.reverse cs = cs.rdropWhile isCut := by
  induction cs using List.reverseRecOn with
  | nil => rfl
  | append_singleton cs c ih =>
      rw [List.reverse_append, List.reverse_singleton, List.singleton_append, cutLoop]
      by_cases h : c = '0' ∨ c = '.'
      · have hc : isCut c = true := decide_eq_true h
        rw [if_pos h, List.dropLast_concat, ih, List.rdropWhile_concat_pos _ _ _ hc]
      · have hc : ¬ isCut c = true := by simpa [isCut] using h
        rw [if_neg h, List.rdropWhile_concat_neg _ _ _ hc]

theorem fractionalPart_intCast (n : Int) : fractionalPart n = 0 := by
  rw [fractionalPart, truncate_intCast, sub_self]

theorem fractionalPart_eq_zero {x : ℚ} : fractionalPart x = 0 ↔ ∃ n : Int, x = n := by
  constructor
  · intro h
    exact ⟨truncate x, sub_eq_zero.mp h⟩
  · rintro ⟨n, rfl⟩
    exact fractionalPart_intCast n

/-- **A whole number is written in full**, if it fits in 64 bits. -/
theorem cutString_intCast (n : Int) :
    cutString n =
      if -2 ^ 63 ≤ n ∧ n < 2 ^ 63 then some (String.ofList (intText n)) else none := by
  unfold cutString int
  rw [fractionalPart_intCast, truncate_intCast]
  split <;> simp_all

theorem cutString_of_fraction {x : ℚ} (h : ¬ ∃ n : Int, x = n) :
    cutString x =
      some (String.ofList ((twoDecimals (decide (x < 0)) (thousandths x)).rdropWhile isCut)) := by
  have hf : fractionalPart x ≠ 0 := fun h0 => h (fractionalPart_eq_zero.mp h0)
  simp only [cutString, hf, ne_eq, not_false_eq_true, if_true, cutLoop_reverse]

/-- A whole number fits in 64 bits. -/
def FitsInt (x : ℚ) : Prop := ∀ n : Int, x = n → -2 ^ 63 ≤ n ∧ n < 2 ^ 63

theorem fitsInt_of_lt {x : ℚ} (h0 : 0 ≤ x) (hb : x < 2 ^ 63) : FitsInt x := by
  rintro n rfl
  have hn0 : 0 ≤ n := by exact_mod_cast h0
  exact ⟨by omega, by exact_mod_cast hb⟩

/-- `cutString` stops the app exactly at whole numbers that do not fit. -/
theorem cutString_isSome {x : ℚ} : (cutString x).isSome ↔ FitsInt x := by
  by_cases h : ∃ n : Int, x = n
  · obtain ⟨n, rfl⟩ := h
    rw [cutString_intCast]
    constructor
    · intro hn m hm
      rw [← Int.cast_injective hm]
      by_contra hout
      rw [if_neg hout] at hn
      cases hn
    · intro hf
      rw [if_pos (hf n rfl)]
      rfl
  · rw [cutString_of_fraction h]
    exact ⟨fun _ n hn => absurd ⟨n, hn⟩ h, fun _ => rfl⟩

/-! ## 3. What a price text reads back as -/

/-- `Double(text) ?? 0`, for the text of a price. -/
def DoubleText.shownPrice (T : DoubleText ℚ) (price : ℚ) : ℚ :=
  ((cutString price).bind T.ofText).getD 0

/-- The hundredths `%.2f` shows. -/
def hundredths (x : ℚ) : Int := even (thousandths x * 100)

/-- The number rounds to a positive multiple of ten that it is not: its text ends in the digits
    0 of that multiple, and loses them. -/
def LosesZeros (x : ℚ) : Prop :=
  ∃ n : Nat, 0 < n ∧ x ≠ 10 * n ∧ 10 * n - 11 / 2000 ≤ x ∧ x < 10 * n + 11 / 2000

theorem thousandths_nonneg {x : ℚ} (h : 0 ≤ x) : 0 ≤ thousandths x :=
  div_nonneg (by exact_mod_cast away_nonneg (mul_nonneg h (by norm_num))) (by norm_num)

theorem hundredths_nonneg {x : ℚ} (h : 0 ≤ x) : 0 ≤ hundredths x :=
  even_nonneg (mul_nonneg (thousandths_nonneg h) (by norm_num))

/-- The two roundings move a number by 0.0055 at most. -/
theorem abs_hundredths_sub_le {x : ℚ} (h : 0 ≤ x) : |(hundredths x : ℚ) / 100 - x| ≤ 11 / 2000 := by
  have h1 := abs_le.mp (abs_even_sub_le (thousandths x * 100))
  have h2 := abs_le.mp (abs_away_sub_le (mul_nonneg h (by norm_num : (0 : ℚ) ≤ 1000)))
  have h3 : thousandths x * 1000 = away (x * 1000) := by
    rw [thousandths, div_mul_cancel₀ _ (by norm_num)]
  rw [← h3] at h2
  rw [abs_le, hundredths]
  exact ⟨by linarith [h1.1, h2.1], by linarith [h1.2, h2.2]⟩

/-- **The numbers both roundings take to `10 * k`.** -/
theorem hundredths_eq_iff {x : ℚ} (h : 0 ≤ x) (k : Int) :
    hundredths x = 1000 * k ↔ 10 * k - 11 / 2000 ≤ x ∧ x < 10 * k + 11 / 2000 := by
  have h3 : thousandths x * 100 = away (x * 1000) / 10 := by
    rw [thousandths]
    ring
  have hfl : away (x * 1000) = ⌊x * 1000 + 1 / 2⌋ :=
    away_of_nonneg (mul_nonneg h (by norm_num))
  have hlo : 10000 * k - 5 ≤ away (x * 1000) ↔ 10 * (k : ℚ) - 11 / 2000 ≤ x := by
    rw [hfl, Int.le_floor]
    push_cast
    constructor <;> intro h' <;> linarith
  have hhi : away (x * 1000) < 10000 * k + 6 ↔ x < 10 * (k : ℚ) + 11 / 2000 := by
    rw [hfl, Int.floor_lt]
    push_cast
    constructor <;> intro h' <;> linarith
  have hmid : |(away (x * 1000) : ℚ) / 10 - (1000 * k : Int)| ≤ 1 / 2 ↔
      10000 * k - 5 ≤ away (x * 1000) ∧ away (x * 1000) < 10000 * k + 6 := by
    rw [Int.lt_iff_add_one_le, abs_le]
    constructor
    · intro ⟨h1, h2⟩
      push_cast at h1 h2
      have e1 : ((10000 * k - 5 : Int) : ℚ) ≤ away (x * 1000) := by push_cast; linarith
      have e2 : (away (x * 1000) : ℚ) ≤ (10000 * k + 5 : Int) := by push_cast; linarith
      have e3 : away (x * 1000) ≤ 10000 * k + 5 := by exact_mod_cast e2
      exact ⟨by exact_mod_cast e1, by omega⟩
    · intro ⟨h1, h2⟩
      have h2' : away (x * 1000) ≤ 10000 * k + 5 := by omega
      have e1 : ((10000 * k - 5 : Int) : ℚ) ≤ away (x * 1000) := by exact_mod_cast h1
      have e2 : (away (x * 1000) : ℚ) ≤ (10000 * k + 5 : Int) := by exact_mod_cast h2'
      push_cast at e1 e2 ⊢
      exact ⟨by linarith, by linarith⟩
  rw [hundredths, h3, even_eq_iff (by omega), hmid, hlo, hhi]

theorem losesZeros_fraction {x : ℚ} (h : LosesZeros x) : ¬ ∃ n : Int, x = n := by
  obtain ⟨k, -, hne, h1, h2⟩ := h
  rintro ⟨n, rfl⟩
  have e1 : ((10 * k - 1 : Int) : ℚ) < n := by push_cast; linarith
  have e2 : (n : ℚ) < (10 * k + 1 : Int) := by push_cast; linarith
  have e1' : (10 * k - 1 : Int) < n := by exact_mod_cast e1
  have e2' : n < (10 * k + 1 : Int) := by exact_mod_cast e2
  have hk : n = 10 * k := by omega
  exact hne (by rw [hk]; push_cast; rfl)

/-- The text of a non-negative number that is not whole. -/
theorem cutString_of_nonneg {x : ℚ} (h0 : 0 ≤ x) (h : ¬ ∃ n : Int, x = n) :
    cutString x = some (String.ofList ((fixed 2 (hundredths x).toNat).rdropWhile isCut)) := by
  have hneg : decide (x < 0) = false := decide_eq_false (not_lt.mpr h0)
  have habs : |thousandths x| = thousandths x := abs_of_nonneg (thousandths_nonneg h0)
  have hnat : (hundredths x).natAbs = (hundredths x).toNat := by
    have := hundredths_nonneg h0
    omega
  rw [cutString_of_fraction h, hneg, twoDecimals, habs, ← hundredths, hnat]
  rfl

theorem ofText_value (T : DecimalText) {cs : List Char} {q : ℚ} (h : value cs = some q) :
    T.ofText (String.ofList cs) = some q :=
  T.ofText_decimal _ _ (by rw [String.toList_ofList, h])

/-- The hundredths of a whole number. -/
theorem hundredths_intCast {n : Int} (h : 0 ≤ n) : hundredths n = 100 * n := by
  have h0 : (0 : ℚ) ≤ n := by exact_mod_cast h
  obtain ⟨h1, h2⟩ := abs_le.mp (abs_hundredths_sub_le h0)
  have hlow : ((100 * n - 1 : Int) : ℚ) < hundredths n := by push_cast; linarith
  have hhigh : (hundredths n : ℚ) < (100 * n + 1 : Int) := by push_cast; linarith
  have hlow' : 100 * n - 1 < hundredths n := by exact_mod_cast hlow
  have hhigh' : hundredths n < 100 * n + 1 := by exact_mod_cast hhigh
  omega

/-- **A price that loses no zeros reads back as its hundredths**; an empty text counts as 0. -/
theorem cutString_hundredths (T : DecimalText) {x : ℚ} (h0 : 0 ≤ x) (hb : x < 2 ^ 63)
    (h : ¬ LosesZeros x) :
    ∃ text, cutString x = some text ∧ (T.ofText text).getD 0 = (hundredths x : ℚ) / 100 := by
  by_cases hint : ∃ n : Int, x = n
  · obtain ⟨n, rfl⟩ := hint
    have hn0 : 0 ≤ n := by exact_mod_cast h0
    have hnb : n < 2 ^ 63 := by exact_mod_cast hb
    refine ⟨_, by rw [cutString_intCast, if_pos ⟨by omega, hnb⟩], ?_⟩
    rw [ofText_value T (value_intText n), Option.getD_some, hundredths_intCast hn0]
    push_cast
    ring
  · obtain ⟨m, hm⟩ := Int.eq_ofNat_of_zero_le (hundredths_nonneg h0)
    refine ⟨_, cutString_of_nonneg h0 hint, ?_⟩
    rw [hm, Int.toNat_natCast, Int.cast_natCast]
    by_cases h1000 : m % 1000 = 0
    · by_cases hm0 : m = 0
      · -- nothing is left of "0.00"
        subst hm0
        rw [rdropWhile_fixed_two_zero isCut_digit isCut_point]
        show (T.ofText "").getD 0 = _
        rw [T.ofText_empty, Option.getD_none, Nat.cast_zero, zero_div]
      · have hk : hundredths x = 1000 * ((m / 1000 : Nat) : Int) := by omega
        obtain ⟨h1, h2⟩ := (hundredths_eq_iff h0 _).mp hk
        refine absurd ⟨m / 1000, by omega, fun e => hint ⟨10 * (m / 1000 : Nat), ?_⟩, ?_, ?_⟩ h
        · rw [e]
          push_cast
          rfl
        · exact_mod_cast h1
        · exact_mod_cast h2
    · rw [ofText_value T (value_rdropWhile_fixed_two_of_ne isCut_digit isCut_point h1000),
        Option.getD_some]

/-- **A price that loses no zeros reads back within a hundredth.** -/
theorem cutString_accurate (T : DecimalText) {x : ℚ} (h0 : 0 ≤ x) (hb : x < 2 ^ 63)
    (h : ¬ LosesZeros x) :
    ∃ text, cutString x = some text ∧ |(T.ofText text).getD 0 - x| ≤ 1 / 100 := by
  obtain ⟨text, htext, hv⟩ := cutString_hundredths T h0 hb h
  have herr := abs_hundredths_sub_le h0
  exact ⟨text, htext, by rw [hv]; linarith⟩

/-- **A price that loses zeros reads back far below it.** -/
theorem cutString_cut (T : DecimalText) {x : ℚ} (h0 : 0 ≤ x) (h : LosesZeros x) :
    ∃ text, cutString x = some text ∧ 1 / 100 < |(T.ofText text).getD 0 - x| := by
  refine ⟨_, cutString_of_nonneg h0 (losesZeros_fraction h), ?_⟩
  obtain ⟨n, hn, -, h1, h2⟩ := h
  have hh : hundredths x = 1000 * (n : Int) := by
    rw [hundredths_eq_iff h0]
    exact ⟨by exact_mod_cast h1, by exact_mod_cast h2⟩
  have hm : (hundredths x).toNat = 1000 * n := by omega
  obtain ⟨v, hvn, hv⟩ := value_rdropWhile_fixed_two_thousand isCut_digit isCut_point hn
  rw [hm, ofText_value T hv, Option.getD_some, abs_sub_comm]
  have hvn' : (v : ℚ) ≤ n := by exact_mod_cast hvn
  have hn' : (1 : ℚ) ≤ n := by exact_mod_cast hn
  exact lt_of_lt_of_le (by linarith) (le_abs_self _)

/-! ## 4. Coins to view models -/

variable {Image : Type}

/-- The view model of a coin whose image is `image`. -/
def viewModel (T : DoubleText ℚ) (model : CoinModel ℚ) (image : Image) :
    Option (CoinTableViewCellViewModel ℚ Image) := do
  let currentPrice ← cutString model.current_price
  let priceChange ← cutString (model.price_change_24h.getD 0)
  let priceChangePercentage ← cutString (model.price_change_percentage_24h.getD 0)
  return {
    id := model.id
    name := model.name
    symbol := model.symbol
    currentPrice := currentPrice
    image := image
    highDayPrice := model.high_24h.getD 0
    lowDayPrice := model.low_24h.getD 0
    priceChangeDay := (T.ofText priceChange).getD 0
    priceChangePercentageDay := (T.ofText priceChangePercentage).getD 0
    lastUpdated := model.lastUpdated
    sparklineIn7D := model.sparkline_in_7d
    ath := model.ath
    atl := model.atl }

/-- The closure of `compactMap` on one coin, with its position: `some none` where the download
    throws. -/
def parseToViewModel (E : Images Image) (T : DoubleText ℚ) (coin : CoinModel ℚ × Nat) :
    Option (Option (CoinTableViewCellViewModel ℚ Image)) :=
  if E.isURL coin.1.image then
    match E.contentsOf coin.2 coin.1.image with
    | none => some none
    | some imageData => (viewModel T coin.1 ((E.decode imageData).getD E.eye)).map some
  else none

/-- `compactMap` with that closure. -/
def compactMapCoins (E : Images Image) (T : DoubleText ℚ) :
    List (CoinModel ℚ × Nat) → Option (List (CoinTableViewCellViewModel ℚ Image))
  | [] => some []
  | coin :: coins => do
      let viewModel ← parseToViewModel E T coin
      let viewModels ← compactMapCoins E T coins
      return viewModel.toList ++ viewModels

def parseToViewModels (E : Images Image) (T : DoubleText ℚ) (models : List (CoinModel ℚ)) :
    Option (List (CoinTableViewCellViewModel ℚ Image)) :=
  compactMapCoins E T models.zipIdx

/-- The image at a text loads, for the coin at a position. -/
def Images.Loads (E : Images Image) (position : Nat) (url : String) : Prop :=
  E.isURL url = true ∧
    ∃ imageData, E.contentsOf position url = some imageData ∧ (E.decode imageData).isSome

/-- The numbers of the coin that `cutString` is given all have texts. -/
def Printable (model : CoinModel ℚ) : Prop :=
  FitsInt model.current_price ∧ FitsInt (model.price_change_24h.getD 0) ∧
    FitsInt (model.price_change_percentage_24h.getD 0)

/-- What the wallet reads of a view model, as the coin has it. -/
def Shows (model : CoinModel ℚ) (v : CoinTableViewCellViewModel ℚ Image) : Prop :=
  v.id = model.id ∧ cutString model.current_price = some v.currentPrice

theorem viewModel_of_printable (T : DoubleText ℚ) {model : CoinModel ℚ} (image : Image)
    (h : Printable model) : ∃ v, viewModel T model image = some v ∧ Shows model v := by
  obtain ⟨h1, h2, h3⟩ := h
  obtain ⟨t1, e1⟩ := Option.isSome_iff_exists.mp (cutString_isSome.mpr h1)
  obtain ⟨t2, e2⟩ := Option.isSome_iff_exists.mp (cutString_isSome.mpr h2)
  obtain ⟨t3, e3⟩ := Option.isSome_iff_exists.mp (cutString_isSome.mpr h3)
  refine ⟨_, by simp only [viewModel, e1, e2, e3]; rfl, rfl, e1⟩

theorem printable_of_viewModel {T : DoubleText ℚ} {model : CoinModel ℚ} {image : Image}
    {v : CoinTableViewCellViewModel ℚ Image} (h : viewModel T model image = some v) :
    Printable model := by
  simp only [viewModel, Option.bind_eq_bind, Option.bind_eq_some_iff] at h
  obtain ⟨t1, e1, t2, e2, t3, e3, -⟩ := h
  exact ⟨cutString_isSome.mp (by rw [e1]; rfl), cutString_isSome.mp (by rw [e2]; rfl),
    cutString_isSome.mp (by rw [e3]; rfl)⟩

theorem parseToViewModel_of_loads {E : Images Image} (T : DoubleText ℚ) {coin : CoinModel ℚ × Nat}
    (h : E.Loads coin.2 coin.1.image) :
    ∃ image, parseToViewModel E T coin = (viewModel T coin.1 image).map some := by
  obtain ⟨hurl, imageData, hdata, -⟩ := h
  exact ⟨_, by rw [parseToViewModel, if_pos hurl, hdata]⟩

/-- The view model of the first coin, if it has one, stands before the others. -/
theorem compactMapCoins_cons {E : Images Image} {T : DoubleText ℚ} {coin : CoinModel ℚ × Nat}
    {coins : List (CoinModel ℚ × Nat)} {vs : List (CoinTableViewCellViewModel ℚ Image)} :
    compactMapCoins E T (coin :: coins) = some vs ↔
      ∃ v ws, parseToViewModel E T coin = some v ∧ compactMapCoins E T coins = some ws ∧
        v.toList ++ ws = vs := by
  simp only [compactMapCoins, Option.bind_eq_bind, Option.bind_eq_some_iff, Option.pure_def,
    Option.some.injEq, exists_and_left]

/-- Coins that each give a view model give the list of them. -/
theorem compactMapCoins_of_forall₂ {E : Images Image} {T : DoubleText ℚ}
    {coins : List (CoinModel ℚ × Nat)} {vs : List (CoinTableViewCellViewModel ℚ Image)}
    (h : List.Forall₂ (fun c v => parseToViewModel E T c = some (some v)) coins vs) :
    compactMapCoins E T coins = some vs := by
  induction h with
  | nil => rfl
  | cons hv _ ih => exact compactMapCoins_cons.mpr ⟨_, _, hv, ih, rfl⟩

/-- The images of the coins load, each for its own coin. -/
def Images.LoadsAll (E : Images Image) (models : List (CoinModel ℚ)) : Prop :=
  ∀ c ∈ models.zipIdx, E.Loads c.2 c.1.image

/-- **With images that load, coins that print give one view model each.** -/
theorem parseToViewModels_of_printable {E : Images Image} (T : DoubleText ℚ)
    {models : List (CoinModel ℚ)} (hload : E.LoadsAll models)
    (hprint : ∀ m ∈ models, Printable m) :
    ∃ vs, parseToViewModels E T models = some vs ∧ List.Forall₂ Shows models vs := by
  have hone : ∀ c ∈ models.zipIdx, ∃ v, parseToViewModel E T c = some (some v) ∧ Shows c.1 v := by
    intro c hc
    obtain ⟨image, e⟩ := parseToViewModel_of_loads T (hload c hc)
    obtain ⟨v, hv, hshow⟩ := viewModel_of_printable T image (forall_zipIdx.mpr hprint c hc)
    exact ⟨v, by rw [e, hv]; rfl, hshow⟩
  obtain ⟨vs, hvs⟩ := exists_forall₂_iff.mpr hone
  have hshows : List.Forall₂ Shows (models.zipIdx.map Prod.fst) vs :=
    List.forall₂_map_left_iff.mpr (hvs.imp fun _ _ h => h.2)
  rw [List.zipIdx_map_fst] at hshows
  exact ⟨vs, compactMapCoins_of_forall₂ (hvs.imp fun _ _ h => h.1), hshows⟩

theorem printable_of_compactMapCoins {E : Images Image} {T : DoubleText ℚ}
    {coins : List (CoinModel ℚ × Nat)} (hload : ∀ c ∈ coins, E.Loads c.2 c.1.image)
    {vs : List (CoinTableViewCellViewModel ℚ Image)}
    (h : compactMapCoins E T coins = some vs) : ∀ c ∈ coins, Printable c.1 := by
  induction coins generalizing vs with
  | nil => exact fun c hc => absurd hc List.not_mem_nil
  | cons coin coins ih =>
      obtain ⟨image, e⟩ := parseToViewModel_of_loads T (hload coin (List.mem_cons_self ..))
      obtain ⟨_, ws, hv, hws, -⟩ := compactMapCoins_cons.mp h
      rw [e, Option.map_eq_some_iff] at hv
      obtain ⟨v, hv, -⟩ := hv
      intro c hc
      rcases List.mem_cons.mp hc with rfl | hc
      · exact printable_of_viewModel hv
      · exact ih (fun c hc => hload c (List.mem_cons_of_mem _ hc)) hws c hc

/-- **Otherwise the app stops.** -/
theorem printable_of_parseToViewModels {E : Images Image} {T : DoubleText ℚ}
    {models : List (CoinModel ℚ)} (hload : E.LoadsAll models)
    {vs : List (CoinTableViewCellViewModel ℚ Image)}
    (h : parseToViewModels E T models = some vs) : ∀ m ∈ models, Printable m :=
  forall_zipIdx.mp (printable_of_compactMapCoins hload h)

end CryptoWallet
