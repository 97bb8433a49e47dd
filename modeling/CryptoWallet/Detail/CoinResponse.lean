/-
  File:      CryptoWallet/Detail/CoinResponse.lean
  Subject:   From a coin as the API sends it to the detail screen (CoinModel.swift).

  `CoinModel` has no coding keys of its own, so `JSONDecoder` looks each property up under the
  property's name. The API sends `last_updated`; the property is `lastUpdated`.

  * `decodeCoinModel`: what `JSONDecoder` makes of an object.
  * `Documented`: the objects of the shape in the comment of `CoinModel`.
  * `decodeCoinModel_documented`: such an object is decoded, with its fields, and without the time
    it was last updated.
  * `fields_shown`: the screen shows the other fields as they were sent.
  * `coin_shown_iff`: **when it shows all that was sent**.
-/
import Mathlib.Tactic.FinCases
import CryptoWallet.Detail.ChartView
import CryptoWallet.Library.JSON
import CryptoWallet.Parser.ParsedCoins

namespace CryptoWallet

open JSONs

/-! ## 1. Decoding -/

def decodeSparklineIn7D : Reader (SparklineIn7D ℚ)
  | codingPath, .object fields => do
      let price ← fieldIfPresent numbers codingPath fields "price"
      return ⟨price⟩
  | codingPath, .null => .error (.valueNotFound codingPath)
  | codingPath, _ => .error (.typeMismatch codingPath)

def decodeCoinModel : Reader (CoinModel ℚ)
  | codingPath, .object fields => do
      let id ← field string codingPath fields "id"
      let symbol ← field string codingPath fields "symbol"
      let name ← field string codingPath fields "name"
      let image ← field string codingPath fields "image"
      let current_price ← field number codingPath fields "current_price"
      let high_24h ← fieldIfPresent number codingPath fields "high_24h"
      let low_24h ← fieldIfPresent number codingPath fields "low_24h"
      let price_change_24h ← fieldIfPresent number codingPath fields "price_change_24h"
      let price_change_percentage_24h ←
        fieldIfPresent number codingPath fields "price_change_percentage_24h"
      let ath ← field number codingPath fields "ath"
      let atl ← field number codingPath fields "atl"
      let lastUpdated ← fieldIfPresent string codingPath fields "lastUpdated"
      let sparkline_in_7d ←
        fieldIfPresent decodeSparklineIn7D codingPath fields "sparkline_in_7d"
      return { id, symbol, name, image, current_price, high_24h, low_24h, price_change_24h,
               price_change_percentage_24h, ath, atl, lastUpdated, sparkline_in_7d }
  | codingPath, .null => .error (.valueNotFound codingPath)
  | codingPath, _ => .error (.typeMismatch codingPath)

/-! ## 2. What the API sends -/

/-- The keys in the comment of `CoinModel`, and that of the sparkline. -/
def documentedKeys : List String :=
  ["id", "symbol", "name", "image", "current_price", "market_cap", "market_cap_rank",
    "fully_diluted_valuation", "total_volume", "high_24h", "low_24h", "price_change_24h",
    "price_change_percentage_24h", "market_cap_change_24h", "market_cap_change_percentage_24h",
    "circulating_supply", "total_supply", "max_supply", "ath", "ath_change_percentage", "ath_date",
    "atl", "atl_change_percentage", "atl_date", "roi", "last_updated", "sparkline_in_7d"]

/-- A sparkline, with its prices, without or with `null` for them. -/
def IsSparkline (v : JSON) : Prop :=
  ∃ fields, v = .object fields ∧ Optionally IsNumbers fields "price"

/-- **An object of the documented shape**; the properties that may be missing may be `null`. -/
structure Documented (o : Fields) : Prop where
  keys : ∀ entry ∈ o, entry.1 ∈ documentedKeys
  distinct : (o.map Prod.fst).Nodup
  strings : ∀ key ∈ ["id", "symbol", "name", "image"], ∃ s, o.lookup key = some (.string s)
  numbers : ∀ key ∈ ["current_price", "ath", "atl"], ∃ q, o.lookup key = some (.number q)
  optionals : ∀ key ∈ ["high_24h", "low_24h", "price_change_24h", "price_change_percentage_24h"],
    Optionally IsNumber o key
  last_updated : Optionally IsString o "last_updated"
  sparkline : Optionally IsSparkline o "sparkline_in_7d"

/-- The prices of the sparkline, none where there is no sparkline or it has none. -/
def pricesAt (o : Fields) : List ℚ :=
  ((objectAt o "sparkline_in_7d").bind fun fields => numbersAt fields "price").getD []

/-- The coin an object of the documented shape is decoded to. -/
def coinOf (o : Fields) (sparkline_in_7d : Option (SparklineIn7D ℚ)) : CoinModel ℚ where
  id := (stringAt o "id").getD ""
  symbol := (stringAt o "symbol").getD ""
  name := (stringAt o "name").getD ""
  image := (stringAt o "image").getD ""
  current_price := (numberAt o "current_price").getD 0
  high_24h := numberAt o "high_24h"
  low_24h := numberAt o "low_24h"
  price_change_24h := numberAt o "price_change_24h"
  price_change_percentage_24h := numberAt o "price_change_percentage_24h"
  ath := (numberAt o "ath").getD 0
  atl := (numberAt o "atl").getD 0
  lastUpdated := none
  sparkline_in_7d := sparkline_in_7d

namespace Documented

variable {o : Fields}

/-- The property `lastUpdated` finds nothing under its name. -/
theorem lookup_lastUpdated (h : Documented o) : o.lookup "lastUpdated" = none := by
  rw [List.lookup_eq_none_iff]
  intro entry hentry
  rw [bne_iff_ne]
  intro hkey
  exact absurd (hkey ▸ h.keys entry hentry) (by decide)

/-- A field that has to be there is. -/
theorem stringAt_eq (h : Documented o) {key : String}
    (hkey : key ∈ ["id", "symbol", "name", "image"]) :
    stringAt o key = some ((stringAt o key).getD "") := by
  obtain ⟨s, hs⟩ := h.strings key hkey
  rw [stringAt, hs]
  rfl

theorem numberAt_eq (h : Documented o) {key : String}
    (hkey : key ∈ ["current_price", "ath", "atl"]) :
    numberAt o key = some ((numberAt o key).getD 0) := by
  obtain ⟨q, hq⟩ := h.numbers key hkey
  rw [numberAt, hq]
  rfl

theorem field_string (h : Documented o) (codingPath : List String) {key : String}
    (hkey : key ∈ ["id", "symbol", "name", "image"]) :
    field string codingPath o key = .ok ((stringAt o key).getD "") := by
  obtain ⟨s, hs⟩ := h.strings key hkey
  rw [JSONs.field_string hs, stringAt, hs]
  rfl

theorem field_number (h : Documented o) (codingPath : List String) {key : String}
    (hkey : key ∈ ["current_price", "ath", "atl"]) :
    field number codingPath o key = .ok ((numberAt o key).getD 0) := by
  obtain ⟨q, hq⟩ := h.numbers key hkey
  rw [JSONs.field_number hq, numberAt, hq]
  rfl

/-- **The sparkline is decoded with the prices sent**, none where there are none. -/
theorem field_sparkline (h : Documented o) (codingPath : List String) :
    ∃ sparkline, fieldIfPresent decodeSparklineIn7D codingPath o "sparkline_in_7d" =
        .ok sparkline ∧ (sparkline.bind (·.price)).getD [] = pricesAt o := by
  unfold pricesAt objectAt
  obtain ⟨hmissing | hmissing, hread⟩ | ⟨v, ⟨fields, rfl, hprice⟩, hv, -, hread⟩ :=
    fieldIfPresent_cases decodeSparklineIn7D codingPath h.sparkline
  · exact ⟨none, hread, by rw [hmissing]; rfl⟩
  · exact ⟨none, hread, by rw [hmissing]; rfl⟩
  · refine ⟨some ⟨numbersAt fields "price"⟩, ?_, by rw [hv]; rfl⟩
    rw [hread, decodeSparklineIn7D, fieldIfPresent_numbers _ hprice]
    rfl

end Documented

/-- **An object of the documented shape is decoded**, and the time it was last updated is not. -/
theorem decodeCoinModel_documented {o : Fields} (h : Documented o) (codingPath : List String) :
    ∃ sparkline, decodeCoinModel codingPath (.object o) = .ok (coinOf o sparkline) ∧
      (sparkline.bind (·.price)).getD [] = pricesAt o := by
  obtain ⟨sparkline, hsparkline, hprices⟩ := h.field_sparkline codingPath
  refine ⟨sparkline, ?_, hprices⟩
  have hoptional := fun key hkey => fieldIfPresent_number codingPath (h.optionals key hkey)
  rw [decodeCoinModel, h.field_string codingPath (by decide), h.field_string codingPath (by decide),
    h.field_string codingPath (by decide), h.field_string codingPath (by decide),
    h.field_number codingPath (by decide), h.field_number codingPath (by decide),
    h.field_number codingPath (by decide), hoptional _ (by decide), hoptional _ (by decide),
    hoptional _ (by decide), hoptional _ (by decide), fieldIfPresent_absent h.lookup_lastUpdated,
    hsparkline]
  rfl

/-! ## 3. What the screen shows -/

variable {Image : Type}

/-- The view model and its chart show what was sent, the time apart. -/
structure FieldsAsSent (D : Dates) (o : Fields) (v : CoinTableViewCellViewModel ℚ Image) :
    Prop where
  id : some v.id = stringAt o "id"
  name : some v.name = stringAt o "name"
  symbol : some v.symbol = stringAt o "symbol"
  ath : some v.ath = numberAt o "ath"
  atl : some v.atl = numberAt o "atl"
  highDayPrice : v.highDayPrice = (numberAt o "high_24h").getD 0
  lowDayPrice : v.lowDayPrice = (numberAt o "low_24h").getD 0
  prices : (ChartView.ofCoin D v).data = pricesAt o

/-- **The view model and its chart show what was sent.** -/
structure ShownAsSent (D : Dates) (o : Fields) (v : CoinTableViewCellViewModel ℚ Image) : Prop
    extends FieldsAsSent D o v where
  lastUpdated : v.lastUpdated = stringAt o "last_updated"
  dates : ∀ text ∈ stringAt o "last_updated", ∀ date ∈ D.date text,
    (ChartView.ofCoin D v).endingDate = date ∧
      (ChartView.ofCoin D v).startingDate = date - 7 * 24 * 60 * 60

/-- The object is decoded, the coin parsed, and the screen shows what was sent. -/
def ReachesScreen (E : Images Image) (T : DoubleText ℚ) (D : Dates) (o : Fields) : Prop :=
  ∃ model v, decodeCoinModel [] (.object o) = .ok model ∧
    parseToViewModels E T [model] = some [v] ∧ ShownAsSent D o v

/-- What a view model carries of its coin, beside the texts. -/
theorem viewModel_carries {T : DoubleText ℚ} {model : CoinModel ℚ} {image : Image}
    {v : CoinTableViewCellViewModel ℚ Image} (h : viewModel T model image = some v) :
    v.highDayPrice = model.high_24h.getD 0 ∧ v.lowDayPrice = model.low_24h.getD 0 ∧
      v.lastUpdated = model.lastUpdated ∧ v.sparklineIn7D = model.sparkline_in_7d := by
  simp only [viewModel, Option.bind_eq_bind, Option.bind_eq_some_iff] at h
  obtain ⟨_, -, _, -, _, -, h⟩ := h
  cases h
  exact ⟨rfl, rfl, rfl, rfl⟩

variable {E : Images Image} {T : DoubleText ℚ} {D : Dates} {o : Fields}

theorem Images.Loads.downloads {position : Nat} {url : String} (h : E.Loads position url) :
    E.Downloads position url := by
  obtain ⟨hurl, imageData, hdata, -⟩ := h
  exact ⟨hurl, by rw [hdata]; rfl⟩

/-- One coin gives one view model exactly when it gives its own. -/
theorem parseToViewModels_one_iff {model : CoinModel ℚ} {v : CoinTableViewCellViewModel ℚ Image} :
    parseToViewModels E T [model] = some [v] ↔ parseToViewModel E T (model, 0) = some (some v) := by
  constructor
  · intro h
    cases compactMapCoins_full_iff.mp ⟨h, rfl⟩ with
    | cons hone _ => exact hone
  · intro h
    exact (compactMapCoins_full_iff.mpr (.cons h .nil)).1

/-- The view model on the screen is that of the coin the object is decoded to. -/
theorem parse_of_shown (h : Documented o) (hshown : ReachesScreen E T D o) :
    ∃ sparkline v, parseToViewModel E T (coinOf o sparkline, 0) = some (some v) ∧
      ShownAsSent D o v := by
  obtain ⟨model, v, hmodel, hv, hsent⟩ := hshown
  obtain ⟨sparkline, hdecode, -⟩ := decodeCoinModel_documented h []
  have heq : model = coinOf o sparkline := Except.ok.inj (hmodel.symm.trans hdecode)
  rw [heq] at hv
  exact ⟨sparkline, v, parseToViewModels_one_iff.mp hv, hsent⟩

/-- **The screen has no time for a coin whose object has one.** -/
theorem last_updated_of_shown (h : Documented o) (hshown : ReachesScreen E T D o) :
    stringAt o "last_updated" = none := by
  obtain ⟨sparkline, v, hv, hsent⟩ := parse_of_shown h hshown
  obtain ⟨-, -, hupdated, -⟩ := viewModel_carries (viewModel_of_parse hv)
  rw [← hsent.lastUpdated, hupdated]
  rfl

/-- A coin on the screen has numbers with texts. -/
theorem printable_of_shown (h : Documented o) (hshown : ReachesScreen E T D o) :
    Printable (coinOf o none) := by
  obtain ⟨sparkline, v, hv, -⟩ := parse_of_shown h hshown
  exact ((parseToViewModel_isSome_iff (coinOf o sparkline, 0)).mp ⟨v, hv⟩).2

/-- **The time apart, the screen shows what was sent**, of every object with numbers that have
    texts; for the time it has nothing. -/
theorem fields_shown (D : Dates) (h : Documented o)
    (himage : ∀ url, stringAt o "image" = some url → E.Loads 0 url)
    (hprint : Printable (coinOf o none)) :
    ∃ model v, decodeCoinModel [] (.object o) = .ok model ∧
      parseToViewModels E T [model] = some [v] ∧ FieldsAsSent D o v ∧ v.lastUpdated = none := by
  obtain ⟨sparkline, hdecode, hprices⟩ := decodeCoinModel_documented h []
  have hdownloads : E.Downloads 0 (coinOf o sparkline).image :=
    (himage _ (h.stringAt_eq (by decide))).downloads
  obtain ⟨v, hv⟩ := (parseToViewModel_isSome_iff (coinOf o sparkline, 0)).mpr
    ⟨hdownloads, hprint⟩
  have hkept := keepsCoin_of_parse hv
  obtain ⟨hhigh, hlow, hupdated, hsparkline⟩ := viewModel_carries (viewModel_of_parse hv)
  refine ⟨_, v, hdecode, parseToViewModels_one_iff.mpr hv, ?_, hupdated⟩
  constructor
  case id => exact hkept.id ▸ (h.stringAt_eq (by decide)).symm
  case name => exact hkept.name ▸ (h.stringAt_eq (by decide)).symm
  case symbol => exact hkept.symbol ▸ (h.stringAt_eq (by decide)).symm
  case ath => exact hkept.ath ▸ (h.numberAt_eq (by decide)).symm
  case atl => exact hkept.atl ▸ (h.numberAt_eq (by decide)).symm
  case highDayPrice => exact hhigh
  case lowDayPrice => exact hlow
  case prices =>
    rw [← hprices]
    show (v.sparklineIn7D.bind (·.price)).getD [] = _
    rw [hsparkline]
    rfl

/-- **Without a time the screen shows what was sent.** -/
theorem shown_of_untimed (h : Documented o)
    (himage : ∀ url, stringAt o "image" = some url → E.Loads 0 url)
    (huntimed : stringAt o "last_updated" = none) (hprint : Printable (coinOf o none)) :
    ReachesScreen E T D o := by
  obtain ⟨model, v, hmodel, hv, hfields, hupdated⟩ := fields_shown D h himage hprint
  refine ⟨model, v, hmodel, hv, hfields, by rw [hupdated, huntimed], ?_⟩
  intro text htext
  rw [huntimed] at htext
  cases htext

/-- **The screen shows what was sent exactly when no time was sent**, and the whole numbers that
    get a text fit in 64 bits; with an image that loads for the one coin of the answer. -/
theorem coin_shown_iff (E : Images Image) (T : DoubleText ℚ) (D : Dates) (o : Fields)
    (h : Documented o) (himage : ∀ url, stringAt o "image" = some url → E.Loads 0 url) :
    ReachesScreen E T D o ↔
      stringAt o "last_updated" = none ∧
        FitsInt ((numberAt o "current_price").getD 0) ∧
        FitsInt ((numberAt o "price_change_24h").getD 0) ∧
        FitsInt ((numberAt o "price_change_percentage_24h").getD 0) := by
  constructor
  · intro hshown
    exact ⟨last_updated_of_shown h hshown, printable_of_shown h hshown⟩
  · intro hsent
    obtain ⟨huntimed, hprint⟩ := hsent
    exact shown_of_untimed h himage huntimed hprint

/-- The object in the comment of `CoinModel`, with a last update. -/
def bitcoinObject (last_updated : JSON) : Fields :=
  [("id", .string "bitcoin"), ("symbol", .string "btc"), ("name", .string "Bitcoin"),
    ("image", .string "https://assets.coingecko.com/coins/images/1/large/bitcoin.png?1547033579"),
    ("current_price", .number 47451), ("market_cap", .number 898336429049),
    ("market_cap_rank", .number 1), ("fully_diluted_valuation", .number 998527699933),
    ("total_volume", .number 33575696003), ("high_24h", .number 49780), ("low_24h", .number 47243),
    ("price_change_24h", .number (-1960092875916635 / 10 ^ 12)),
    ("price_change_percentage_24h", .number (-396694 / 10 ^ 5)),
    ("market_cap_change_24h", .number (-3592161705335547 / 10 ^ 5)),
    ("market_cap_change_percentage_24h", .number (-384494 / 10 ^ 5)),
    ("circulating_supply", .number 18892881), ("total_supply", .number 21000000),
    ("max_supply", .number 21000000), ("ath", .number 69045),
    ("ath_change_percentage", .number (-3107158 / 10 ^ 5)),
    ("ath_date", .string "2021-11-10T14:24:11.849Z"), ("atl", .number (6781 / 100)),
    ("atl_change_percentage", .number (7008458693 / 10 ^ 5)),
    ("atl_date", .string "2013-07-06T00:00:00.000Z"), ("roi", .null),
    ("last_updated", last_updated)]

theorem bitcoinObject_documented {last_updated : JSON}
    (h : last_updated = .null ∨ IsString last_updated) :
    Documented (bitcoinObject last_updated) where
  keys := by
    have hkeys : ∀ key ∈ (bitcoinObject last_updated).map Prod.fst, key ∈ documentedKeys := by
      simp only [bitcoinObject, List.map_cons, List.map_nil]
      decide
    exact fun entry hentry => hkeys _ (List.mem_map_of_mem hentry)
  distinct := by
    simp only [bitcoinObject, List.map_cons, List.map_nil]
    decide
  strings := by
    intro key hkey
    fin_cases hkey <;> exact ⟨_, rfl⟩
  numbers := by
    intro key hkey
    fin_cases hkey <;> exact ⟨_, rfl⟩
  optionals := by
    intro key hkey v hv
    fin_cases hkey <;> cases hv <;> exact .inr ⟨_, rfl⟩
  last_updated := by
    intro v hv
    cases hv
    exact h
  sparkline := by
    intro v hv
    cases hv

/-- The update in the comment of `CoinModel`. -/
def bitcoinUpdate : String := "2021-12-06T11:14:59.798Z"

/-- That update is an instant; some days have passed since. -/
def decemberDates : Dates :=
  ⟨fun text => if text = bitcoinUpdate then some (660482099798 / 1000) else none, 661000000⟩

/-- Every text is the address of the one image there is. -/
def oneImage : Images Unit := ⟨fun _ => true, fun _ _ => some [], fun _ => some (), ()⟩

/-- A coin without a time. -/
theorem coin_shown_untimed :
    ReachesScreen oneImage exactText decemberDates (bitcoinObject .null) := by
  refine (coin_shown_iff oneImage exactText decemberDates (bitcoinObject .null)
    (bitcoinObject_documented (.inl rfl)) ?_).mpr ⟨rfl, ?_, ?_, ?_⟩
  · exact fun _ _ => ⟨rfl, [], rfl, rfl⟩
  · exact cutString_isSome.mp (by decide +kernel)
  · exact cutString_isSome.mp (by decide +kernel)
  · exact cutString_isSome.mp (by decide +kernel)

/-- The ends of the charts of the coins an object gives. -/
def endingDates (D : Dates) (o : Fields) : Option (List ℚ) :=
  (decodeCoinModel [] (.object o)).toOption.bind fun model =>
    (parseToViewModels oneImage exactText [model]).map fun viewModels =>
      viewModels.map fun v => (ChartView.ofCoin D v).endingDate

/-- **The object in the comment is shown without its time**: its chart ends now. -/
theorem update_not_shown :
    decemberDates.date bitcoinUpdate = some (660482099798 / 1000) ∧
      endingDates decemberDates (bitcoinObject (.string bitcoinUpdate)) = some [661000000] ∧
      ¬ReachesScreen oneImage exactText decemberDates (bitcoinObject (.string bitcoinUpdate)) := by
  refine ⟨by decide +kernel, by decide +kernel, ?_⟩
  intro h
  have huntimed := last_updated_of_shown (bitcoinObject_documented (.inr ⟨_, rfl⟩)) h
  cases huntimed

end CryptoWallet
